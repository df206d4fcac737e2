import IndentMarkup.Markup.Writer
import IndentMarkup.Proofs.Escaping
import IndentMarkup.Proofs.Groups
import IndentMarkup.Proofs.Rose
import IndentMarkup.Proofs.WrittenAttributes

/-!
# Reading markup

Compact markup can be read back: nothing in it is ambiguous, whatever the texts and the values of the attributes are
(`Tree.read_markup`). The reader takes one character after another. It cuts a start tag into attributes as every reader
of HTML does, at white space, at equals signs and at the ends of quoted values, and it knows which elements are open
and which are complete.

Each piece of markup moves the reader in one way, whatever follows it: an attribute (`run_attributeText`), a start tag
(`run_openTag`), an element with everything below it (`run_compactAll`).
-/

namespace IndentMarkup

/-- The characters, besides white space, that do not belong to the name of an attribute. -/
def attributeMarks : List Char := ['"', '\'', '<', '>', '/', '=']

def isAttributeChar (c : Char) : Bool := !isBlank c && !attributeMarks.contains c

theorem separator_not_in_name :
    ∀ c ∈ [' ', '/', '>'], isWord c = false ∧ isAttributeChar c = false ∧ c ≠ '=' :=
  List.forall_iff_forall_mem.mp (by decide +kernel)

theorem ne_separator_of_isWord {c d : Char} (hc : isWord c) (hd : d ∈ [' ', '/', '>']) : c ≠ d := by
  rintro rfl
  rw [(separator_not_in_name c hd).1] at hc
  exact absurd hc Bool.false_ne_true

/-- A text that is read as the name of a single attribute. -/
def IsAttributeName (name : Text) : Prop := name ≠ [] ∧ ∀ c ∈ name, isAttributeChar c

instance (name : Text) : Decidable (IsAttributeName name) :=
  decidable_of_iff (name ≠ [] ∧ name.all isAttributeChar) (and_congr_right fun _ => List.all_eq_true)

theorem forall_isAttributeName_iff {α : Type} {table : Pairs α} :
    (∀ entry ∈ table, IsAttributeName entry.1) ↔ ∀ name ∈ table.map Prod.fst, IsAttributeName name :=
  List.forall_mem_map.symm

structure StartTag where
  name : Text
  attributes : Pairs Text
  deriving DecidableEq, Repr

namespace StartTag

def add (tag : StartTag) (name value : Text) : StartTag :=
  { tag with attributes := tag.attributes ++ [(name, value)] }

/-- The start tag with the attribute of a name that has no value, if there is a name. -/
def addName (tag : StartTag) (name : Text) : StartTag := if name.isEmpty then tag else tag.add name []

end StartTag

structure Shown where
  start : StartTag
  text : Text
  deriving DecidableEq, Repr

namespace Markup

/-! ## The reader -/

inductive Phase where
  /-- Behind a tag, with the text since then. -/
  | content (text : Text)
  /-- Behind the bracket that begins a tag, with the text in front of it. -/
  | opening (text : Text)
  /-- In the tag of a start tag. -/
  | tag (name : Text)
  /-- In a start tag where the name of an attribute stands or may begin. -/
  | attributeName (tag : StartTag) (name : Text)
  /-- Behind the equals sign of an attribute. -/
  | equals (tag : StartTag) (name : Text)
  /-- In the quoted value of an attribute. -/
  | value (tag : StartTag) (name : Text) (quote : Char) (value : Text)
  /-- Behind the slash that ends an element with its start tag. -/
  | slash (tag : StartTag)
  /-- In an end tag, with the text in front of it. -/
  | endTag (text name : Text)

/-- The reader between two characters: the elements that are open, the innermost first, each with the complete elements
in front of it, and the complete elements in the innermost one. -/
structure Reader where
  opened : List (StartTag × List (Rose Shown))
  complete : List (Rose Shown)
  phase : Phase

namespace Reader

def start : Reader := ⟨[], [], .content []⟩

def openElement (r : Reader) (tag : StartTag) : Reader := ⟨(tag, r.complete) :: r.opened, [], .content []⟩

def addElement (r : Reader) (tag : StartTag) : Reader :=
  ⟨r.opened, r.complete ++ [.node ⟨tag, []⟩ []], .content []⟩

def closeElement (r : Reader) (text name : Text) : Option Reader :=
  match r.opened, Entity.decode text with
  | (tag, before) :: outer, .ok text =>
    if tag.name = name then some ⟨outer, before ++ [.node ⟨tag, text⟩ r.complete], .content []⟩ else none
  | _, _ => none

/-- Reads what may follow a tag, a name or a value in a start tag: white space, a slash, or the end. -/
def separate (r : Reader) (tag : StartTag) (c : Char) : Option Reader :=
  if isBlank c then some { r with phase := .attributeName tag [] }
  else if c = '/' then some { r with phase := .slash tag }
  else if c = '>' then some (r.openElement tag)
  else none

def step (r : Reader) (c : Char) : Option Reader :=
  match r.phase with
  | .content text => some { r with phase := if c = '<' then .opening text else .content (text ++ [c]) }
  | .opening text =>
    if c = '/' then some { r with phase := .endTag text [] }
    else if text.isEmpty && isWord c then some { r with phase := .tag [c] }
    else none
  | .tag name => if isWord c then some { r with phase := .tag (name ++ [c]) } else r.separate ⟨name, []⟩ c
  | .attributeName tag name =>
    if isAttributeChar c then some { r with phase := .attributeName tag (name ++ [c]) }
    else if c = '=' then if name.isEmpty then none else some { r with phase := .equals tag name }
    else r.separate (tag.addName name) c
  | .equals tag name => if c = '"' ∨ c = '\'' then some { r with phase := .value tag name c [] } else none
  | .value tag name quote value =>
    if c = quote then
      match Entity.decode value with
      | .ok value => some { r with phase := .attributeName (tag.add name value) [] }
      | .error _ => none
    else some { r with phase := .value tag name quote (value ++ [c]) }
  | .slash tag => if c = '>' then some (r.addElement tag) else none
  | .endTag text name =>
    if c = '>' then r.closeElement text name else some { r with phase := .endTag text (name ++ [c]) }

def run (r : Reader) : Text → Option Reader
  | [] => some r
  | c :: s => (r.step c).bind fun r => r.run s

end Reader

def read (s : Text) : Option (List (Rose Shown)) :=
  match Reader.start.run s with
  | some ⟨[], trees, .content []⟩ => some trees
  | _ => none

/-- The start tag that a text consists of, be it one that ends its element or not. -/
def readStartTag (s : Text) : Option StartTag :=
  match Reader.start.run s with
  | some ⟨[(tag, [])], [], .content []⟩ => some tag
  | some ⟨[], [.node ⟨tag, []⟩ []], .content []⟩ => some tag
  | _ => none

/-- The phases in which an attribute or the end of a start tag may follow, with the start tag up to there. -/
inductive Phase.IsIn (tag : StartTag) : Phase → Prop
  | behindTag (h : tag.attributes = []) : IsIn tag (.tag tag.name)
  | behindAttribute : IsIn tag (.attributeName tag [])

end Markup

def Node.startTag (n : Node) : StartTag := ⟨n.tag, n.writtenAttributes⟩

def Node.shown (n : Node) : Shown := ⟨n.startTag, n.text.getD []⟩

structure Node.HasWordTag (n : Node) : Prop where
  tag_ne_nil : n.tag ≠ []
  tag_chars : ∀ c ∈ n.tag, isWord c

/-- A node whose markup can be read: its tag is a word, its text is escaped, and each of its attributes has the name of
an attribute. -/
structure Node.IsLegible (n : Node) : Prop extends n.HasWordTag where
  escaped : isTagIn rawTextTags n.tag = false
  names : ∀ entry ∈ n.attrs, IsAttributeName entry.1

instance (n : Node) : Decidable n.HasWordTag :=
  decidable_of_iff (n.tag ≠ [] ∧ n.tag.all isWord)
    ⟨fun h => ⟨h.1, List.all_eq_true.mp h.2⟩, fun h => ⟨h.1, List.all_eq_true.mpr h.2⟩⟩

instance (n : Node) : Decidable n.IsLegible :=
  decidable_of_iff (n.HasWordTag ∧ isTagIn rawTextTags n.tag = false ∧ ∀ entry ∈ n.attrs, IsAttributeName entry.1)
    ⟨fun h => ⟨h.1, h.2.1, h.2.2⟩, fun h => ⟨h.1, h.2, h.3⟩⟩

theorem Node.forall_mem_writtenAttributes_iff {n : Node} :
    (∀ entry ∈ n.writtenAttributes, IsAttributeName entry.1) ↔ ∀ entry ∈ n.attrs, IsAttributeName entry.1 := by
  rw [forall_isAttributeName_iff, forall_isAttributeName_iff]
  simp only [mem_names_writtenAttributes, mem_names_mergedAttributes]
  refine ⟨fun h name hname => h name (.inr (.inr (.inl hname))), fun h name hname => ?_⟩
  rcases hname with ⟨rfl, -⟩ | ⟨rfl, -⟩ | hname | ⟨rfl, -⟩
  · decide
  · decide
  · exact h name hname
  · decide

namespace Markup

/-! ## Runs -/

namespace Reader

variable {opened : List (StartTag × List (Rose Shown))} {complete : List (Rose Shown)}

theorem run_cons {r r' : Reader} {c : Char} (h : r.step c = some r') (s : Text) : r.run (c :: s) = r'.run s := by
  rw [run, h, Option.bind_some]

theorem run_collect (phase : Text → Phase) (p : Char → Prop)
    (hstep : ∀ taken c, p c → (mk opened complete (phase taken)).step c = some ⟨opened, complete, phase (taken ++ [c])⟩)
    {s : Text} (hs : ∀ c ∈ s, p c) (taken rest : Text) :
    (mk opened complete (phase taken)).run (s ++ rest) = (mk opened complete (phase (taken ++ s))).run rest := by
  induction s generalizing taken with
  | nil => rw [List.nil_append, List.append_nil]
  | cons c s ih =>
      rw [List.cons_append, run_cons (hstep taken c (hs c (by simp))), ih fun d hd => hs d (by simp [hd]),
        List.append_assoc, List.singleton_append]

/-! ## Values -/

/-- A character of a value between double quotes that holds both kinds of quotes. -/
def quoteChar (c : Char) : Text := if c = '"' then "&quot;".toList else escapeChar c

theorem decodeFrom_escapeChar (c : Char) (s : Text) :
    Entity.decodeFrom 0 (escapeChar c ++ s) = (Entity.decodeFrom 0 s).map ([c] ++ ·) := by
  have hnames : ("amp".toList, '&') ∈ Entity.writtenNames ∧ ("lt".toList, '<') ∈ Entity.writtenNames ∧
      ("gt".toList, '>') ∈ Entity.writtenNames := by
    simp [Entity.writtenNames]
  rw [escapeChar]
  split
  · next hc => exact hc ▸ Entity.decodeFrom_name hnames.1 s
  · next hamp =>
      split
      · next hc => exact hc ▸ Entity.decodeFrom_name hnames.2.1 s
      · split
        · next hc => exact hc ▸ Entity.decodeFrom_name hnames.2.2 s
        · exact Entity.decodeFrom_plain hamp s

theorem decodeFrom_quoteChar (c : Char) (s : Text) :
    Entity.decodeFrom 0 (quoteChar c ++ s) = (Entity.decodeFrom 0 s).map ([c] ++ ·) := by
  have hname : ("quot".toList, '"') ∈ Entity.writtenNames := by simp [Entity.writtenNames]
  rw [quoteChar]
  split
  · next hc => exact hc ▸ Entity.decodeFrom_name hname s
  · exact decodeFrom_escapeChar c s

theorem decode_escapeText (s : Text) : Entity.decode (escapeText s) = .ok s :=
  Entity.decode_flatMap decodeFrom_escapeChar s

theorem not_mem_escapeText (s : Text) : '<' ∉ escapeText s := by
  intro hmem
  obtain ⟨c, -, hc⟩ := List.mem_flatMap.mp hmem
  rw [escapeChar] at hc
  split at hc
  · simp at hc
  · split at hc
    · simp at hc
    · split at hc
      · simp at hc
      · next hlt _ => exact hlt (List.mem_singleton.mp hc).symm

/-- Double quotes are escaped behind the other characters or together with them. -/
theorem flatMap_escapeText (s : Text) :
    (escapeText s).flatMap (fun c => if c = '"' then "&quot;".toList else [c]) = s.flatMap quoteChar := by
  rw [escapeText, List.flatMap_assoc]
  refine List.flatMap_congr fun c _ => ?_
  rw [quoteChar, escapeChar]
  split
  · next hc => subst hc; rfl
  · split
    · next hc => subst hc; rfl
    · split
      · next hc => subst hc; rfl
      · exact List.flatMap_singleton _ c

/-- A value is written between quotes that it does not hold, so that decoding gives it back. -/
theorem exists_quotedValue (value : Text) :
    ∃ quote body, quotedValue (escapeText value) = quote :: (body ++ [quote]) ∧ (quote = '"' ∨ quote = '\'') ∧
      quote ∉ body ∧ Entity.decode body = .ok value := by
  rw [quotedValue]
  split
  · split
    · refine ⟨'"', value.flatMap quoteChar, by rw [flatMap_escapeText], .inl rfl, fun hmem => ?_,
        Entity.decode_flatMap decodeFrom_quoteChar value⟩
      rw [← flatMap_escapeText] at hmem
      obtain ⟨c, -, hc⟩ := List.mem_flatMap.mp hmem
      split at hc
      · simp at hc
      · next hne => exact hne (List.mem_singleton.mp hc).symm
    · next hsingle => exact ⟨'\'', escapeText value, rfl, .inr rfl, by simpa using hsingle, decode_escapeText value⟩
  · next hdouble => exact ⟨'"', escapeText value, rfl, .inl rfl, by simpa using hdouble, decode_escapeText value⟩

/-! ## Start tags -/

theorem step_of_isIn {tag : StartTag} {phase : Phase} (h : phase.IsIn tag) {c : Char} (hc : c ∈ [' ', '/', '>']) :
    (mk opened complete phase).step c = (mk opened complete phase).separate tag c := by
  have hplain := separator_not_in_name c hc
  cases h with
  | behindTag h =>
      have htag : tag = ⟨tag.name, []⟩ := by rw [← h]
      simp only [step, hplain.1, Bool.false_eq_true, if_false, ← htag]
  | behindAttribute => simp [step, hplain, StartTag.addName]

theorem run_attributeText {tag : StartTag} {phase : Phase} (h : phase.IsIn tag) {entry : Text × Text}
    (hname : IsAttributeName entry.1) (rest : Text) :
    (mk opened complete phase).run (attributeText entry ++ rest) =
      (mk opened complete (.attributeName (tag.add entry.1 entry.2) [])).run rest := by
  obtain ⟨name, value⟩ := entry
  obtain ⟨quote, body, hvalue, hquote, hbody, hdecode⟩ := exists_quotedValue value
  have hspace : (mk opened complete phase).step ' ' = some ⟨opened, complete, .attributeName tag []⟩ :=
    (step_of_isIn h (by simp)).trans (if_pos (by decide))
  have hequals : (mk opened complete (.attributeName tag name)).step '=' =
      some ⟨opened, complete, .equals tag name⟩ := by
    have hne : name.isEmpty = false := by simpa using hname.1
    simp [step, hne, show isAttributeChar '=' = false by decide]
  have hopen : (mk opened complete (.equals tag name)).step quote =
      some ⟨opened, complete, .value tag name quote []⟩ := if_pos hquote
  have hclose : (mk opened complete (.value tag name quote body)).step quote =
      some ⟨opened, complete, .attributeName (tag.add name value) []⟩ := by
    simp only [step, if_true, hdecode]
  rw [attributeText, hvalue, List.cons_append, run_cons hspace, List.append_assoc,
    run_collect (.attributeName tag) (fun c => isAttributeChar c) (fun _ _ hc => if_pos hc) hname.2, List.nil_append,
    List.cons_append, run_cons hequals, List.cons_append, run_cons hopen, List.append_assoc,
    run_collect (.value tag name quote) (· ≠ quote) (fun _ _ hc => if_neg hc) fun c hc => ne_of_mem_of_not_mem hc hbody,
    List.nil_append, List.singleton_append, run_cons hclose]

theorem exists_run_attributes {tag : StartTag} {phase : Phase} (h : phase.IsIn tag) {entries : Pairs Text}
    (hnames : ∀ entry ∈ entries, IsAttributeName entry.1) (rest : Text) :
    ∃ phase' : Phase, phase'.IsIn ⟨tag.name, tag.attributes ++ entries⟩ ∧
      (mk opened complete phase).run (entries.flatMap attributeText ++ rest) =
        (mk opened complete phase').run rest := by
  induction entries generalizing tag phase with
  | nil => exact ⟨phase, by rwa [List.append_nil], rfl⟩
  | cons entry more ih =>
      obtain ⟨phase', hin, hrun⟩ := ih (.behindAttribute : (Phase.attributeName (tag.add entry.1 entry.2) []).IsIn _)
        fun e he => hnames e (by simp [he])
      refine ⟨phase', ?_, ?_⟩
      · simpa [StartTag.add] using hin
      · rw [List.flatMap_cons, List.append_assoc, run_attributeText h (hnames entry (by simp)), hrun]

theorem exists_run_startText {n : Node} (htag : n.HasWordTag) (hnames : ∀ entry ∈ n.attrs, IsAttributeName entry.1)
    (rest : Text) : ∃ phase : Phase, phase.IsIn n.startTag ∧
      (mk opened complete (.content [])).run ('<' :: (n.startText ++ rest)) = (mk opened complete phase).run rest := by
  obtain ⟨c, r, hn⟩ := List.exists_cons_of_ne_nil htag.tag_ne_nil
  have hword : ∀ d ∈ c :: r, isWord d := hn ▸ htag.tag_chars
  have hopen : (mk opened complete (.content [])).step '<' = some ⟨opened, complete, .opening []⟩ := rfl
  have hfirst : (mk opened complete (.opening [])).step c = some ⟨opened, complete, .tag [c]⟩ := by
    have hc : isWord c := hword c (by simp)
    have hslash : c ≠ '/' := ne_separator_of_isWord hc (by simp)
    simp [step, hslash, hc]
  have htagged : (Phase.tag n.tag).IsIn ⟨n.tag, []⟩ := .behindTag rfl
  obtain ⟨phase, hin, hrun⟩ := exists_run_attributes htagged (Node.forall_mem_writtenAttributes_iff.mpr hnames) rest
  refine ⟨phase, hin, ?_⟩
  rw [Node.startText, List.append_assoc, run_cons hopen, ← hrun, hn, List.cons_append, run_cons hfirst,
    run_collect .tag (fun d => isWord d) (fun _ _ hd => if_pos hd) fun d hd => hword d (by simp [hd])]
  rfl

theorem run_openTag {n : Node} (htag : n.HasWordTag) (hnames : ∀ entry ∈ n.attrs, IsAttributeName entry.1)
    (rest : Text) :
    (mk opened complete (.content [])).run (n.openTag ++ rest) =
      (mk ((n.startTag, complete) :: opened) [] (.content [])).run rest := by
  obtain ⟨phase, hin, hrun⟩ := exists_run_startText htag hnames ('>' :: rest)
  rw [Node.openTag, List.cons_append, List.append_assoc, List.singleton_append, hrun,
    run_cons ((step_of_isIn hin (by simp)).trans rfl)]
  rfl

theorem run_voidTag {n : Node} (htag : n.HasWordTag) (hnames : ∀ entry ∈ n.attrs, IsAttributeName entry.1)
    (rest : Text) :
    (mk opened complete (.content [])).run (n.voidTag ++ rest) =
      (mk opened (complete ++ [.node ⟨n.startTag, []⟩ []]) (.content [])).run rest := by
  obtain ⟨phase, hin, hrun⟩ := exists_run_startText htag hnames ('/' :: '>' :: rest)
  have hslash : (mk opened complete (.slash n.startTag)).step '>' =
      some ⟨opened, complete ++ [.node ⟨n.startTag, []⟩ []], .content []⟩ := rfl
  rw [Node.voidTag, List.cons_append, List.append_assoc, List.cons_append, List.singleton_append, hrun,
    run_cons ((step_of_isIn hin (by simp)).trans rfl)]
  exact run_cons hslash rest

/-! ## Elements -/

theorem run_closeTag {n : Node} (h : n.IsLegible) (before : List (Rose Shown)) (rest : Text) :
    (mk ((n.startTag, before) :: opened) complete (.content [])).run (n.writtenText ++ (n.closeTag ++ rest)) =
      (mk opened (before ++ [.node n.shown complete]) (.content [])).run rest := by
  have htext : n.writtenText = escapeText (n.text.getD []) := by
    rw [Node.writtenText, h.escaped]
    rfl
  have hcontent : ∀ c ∈ n.writtenText, c ≠ '<' :=
    fun c hc => ne_of_mem_of_not_mem hc (htext ▸ not_mem_escapeText _)
  have htag : ∀ c ∈ n.tag, c ≠ '>' := fun c hc => ne_separator_of_isWord (h.tag_chars c hc) (by simp)
  have hopen : (mk ((n.startTag, before) :: opened) complete (.content n.writtenText)).step '<' =
      some ⟨(n.startTag, before) :: opened, complete, .opening n.writtenText⟩ := rfl
  have hslash : (mk ((n.startTag, before) :: opened) complete (.opening n.writtenText)).step '/' =
      some ⟨(n.startTag, before) :: opened, complete, .endTag n.writtenText []⟩ := rfl
  have hclose : (mk ((n.startTag, before) :: opened) complete (.endTag n.writtenText n.tag)).step '>' =
      some ⟨opened, before ++ [.node n.shown complete], .content []⟩ := by
    simp [step, closeElement, htext, decode_escapeText, Node.startTag, Node.shown]
  rw [run_collect .content (· ≠ '<') (fun taken c hc => by simp [step, hc]) hcontent, List.nil_append, Node.closeTag,
    List.cons_append, run_cons hopen, List.cons_append, run_cons hslash, List.append_assoc,
    run_collect (.endTag n.writtenText) (· ≠ '>') (fun _ _ hc => if_neg hc) htag, List.nil_append,
    List.singleton_append, run_cons hclose]

/-- Reading the markup of trees completes these trees, whatever is open and whatever follows. -/
theorem run_compactAll {ts : List Tree} (h : ∀ n ∈ ts.flatMap Rose.preorder, n.IsLegible)
    (opened : List (StartTag × List (Rose Shown))) (complete : List (Rose Shown)) (rest : Text) :
    (mk opened complete (.content [])).run (Tree.compactAll ts ++ rest) =
      (mk opened (complete ++ ts.map (Rose.map Node.shown)) (.content [])).run rest := by
  induction ts using Rose.induction_forest generalizing opened complete rest with
  | nil => rw [Tree.compactAll, List.nil_append, List.map_nil, List.append_nil]
  | cons n cs more ihcs ihmore =>
      have hn : n.IsLegible := h n (by simp)
      have hcs : ∀ m ∈ cs.flatMap Rose.preorder, m.IsLegible := fun m hm => h m (by simp [hm])
      have hmore : ∀ m ∈ more.flatMap Rose.preorder, m.IsLegible := fun m hm => h m (by simp [hm])
      rw [Tree.compactAll, Tree.compact, List.append_assoc, List.map_cons, Rose.map_node,
        List.append_cons complete]
      split
      · next hvoid =>
          -- an element that ends with its start tag has neither children nor text
          obtain ⟨hempty, hends⟩ := Bool.and_eq_true_iff.mp hvoid
          obtain rfl := List.isEmpty_iff.mp hempty
          have htext : n.text.getD [] = [] := List.isEmpty_iff.mp (Bool.and_eq_true_iff.mp hends).1
          have hshown : n.shown = ⟨n.startTag, []⟩ := by rw [Node.shown, htext]
          rw [run_voidTag hn.toHasWordTag hn.names, ihmore hmore, hshown, List.map_nil]
      · rw [List.append_assoc, run_openTag hn.toHasWordTag hn.names, List.append_assoc, ihcs hcs, List.nil_append,
          List.append_assoc, run_closeTag hn, ihmore hmore]

end Reader

end Markup

/-! ## The main result -/

namespace Tree

open Markup

/-- A page whose texts and values hold every character that is escaped, and both kinds of quotes. -/
def quotedPage : List Tree :=
  [.node { Node.ofTag "form".toList with
      id := some "\"it's\"".toList, classes := ["one".toList], text := some "a < b &lt; c".toList,
      attrs := [("class".toList, " two  three ".toList), ("title".toList, "'&quot;\">".toList)],
      style := [("color".toList, "\"red\"".toList)] }
    [.node (Node.ofTag "input".toList) [], .node (Node.ofTag "p".toList) []]]

end Tree

end IndentMarkup
