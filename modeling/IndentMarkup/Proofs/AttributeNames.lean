import IndentMarkup.Builder
import IndentMarkup.Proofs.MarkupReader
import IndentMarkup.Proofs.NormalForms

/-!
# The names of attributes

The name that a line gives to an attribute is trimmed, is not empty, does not begin with a digit and holds no equals
sign (`Item.isItemName_of_ofText`), and every such text is the name of an attribute of some line
(`exists_readLine_named`). So a name may hold what ends a name in markup, which is written as it stands. Markup never
shows an attribute of such a name, as the reader finds nothing but names of attributes (`Markup.Reader.IsNamed.run`).
Hence the start tag of a node shows the attributes of the node exactly if all of them have names of attributes
(`readStartTag_openTag_iff`).
-/

namespace IndentMarkup

/-! ## Names that lines give -/

theorem isItemName_of_readLine {separator line : Text} {reading : LineReading}
    (h : readLine separator line = .ok reading) {entry : Text × Option Text}
    (hentry : entry ∈ reading.descriptor.attributes) :
    IsItemName entry.1 ∧ ∀ c, separator = [c] → c ∉ entry.1 := by
  obtain ⟨piece, hpiece, hread⟩ := exists_piece_of_mem_attributes h hentry
  obtain ⟨hname, hpart⟩ := Item.isItemName_of_ofText hread
  exact ⟨hname, fun c hc hmem => hpiece c hc (hpart c hmem)⟩

/-- Every such text is the name of an attribute of some line, and the separator is any character that is not in it. -/
theorem exists_readLine_named {name : Text} (h : IsItemName name) {separator : Char} (hseparator : separator ∉ name) :
    ∃ line reading, readLine [separator] line = .ok reading ∧ reading.descriptor.attributes = [(name, none)] := by
  have hattribute : IsItemAttribute separator (name, none) := ⟨h, hseparator, by simp, by simp, by simp⟩
  have htag : ∀ c ∈ ['p'], isWord c :=
    List.forall_iff_forall_mem.mp (by decide +kernel : ['p'].Forall fun c => isWord c)
  have hnormal : (Descriptor.mk ['p'] [] none none [(name, none)] []).IsNormal separator :=
    ⟨by simp, htag, by simp, by simp, by simpa using hattribute, by simp⟩
  exact ⟨_, _, hnormal.readLine_normalLine, rfl⟩

/-! ## Names that are read in markup -/

def StartTag.IsNamed (tag : StartTag) : Prop := ∀ entry ∈ tag.attributes, IsAttributeName entry.1

theorem StartTag.IsNamed.add {tag : StartTag} (h : tag.IsNamed) {name : Text} (hname : IsAttributeName name)
    (value : Text) : (tag.add name value).IsNamed := by
  intro entry hentry
  rcases List.mem_append.mp hentry with hentry | hentry
  · exact h entry hentry
  · exact List.mem_singleton.mp hentry ▸ hname

theorem StartTag.IsNamed.addName {tag : StartTag} (h : tag.IsNamed) {name : Text}
    (hname : ∀ c ∈ name, isAttributeChar c) : (tag.addName name).IsNamed := by
  rw [StartTag.addName]
  split
  · exact h
  · next hne => exact h.add ⟨by simpa using hne, hname⟩ []

namespace Markup

def Phase.IsNamed : Phase → Prop
  | .attributeName begun name => begun.IsNamed ∧ ∀ c ∈ name, isAttributeChar c
  | .equals begun name => begun.IsNamed ∧ IsAttributeName name
  | .value begun name _ _ => begun.IsNamed ∧ IsAttributeName name
  | .slash begun => begun.IsNamed
  | _ => True

def AreNamed (trees : List (Rose Shown)) : Prop := ∀ shown ∈ trees.flatMap Rose.preorder, shown.start.IsNamed

theorem AreNamed.concat {before inside : List (Rose Shown)} (hbefore : AreNamed before) {shown : Shown}
    (hshown : shown.start.IsNamed) (hinside : AreNamed inside) : AreNamed (before ++ [.node shown inside]) := by
  intro other hother
  rw [List.flatMap_append, List.flatMap_cons, List.flatMap_nil, List.append_nil, Rose.preorder_node] at hother
  rcases List.mem_append.mp hother with hother | hother
  · exact hbefore other hother
  · rcases List.mem_cons.mp hother with rfl | hother
    · exact hshown
    · exact hinside other hother

namespace Reader

structure IsNamed (r : Reader) : Prop where
  opened : ∀ element ∈ r.opened, element.1.IsNamed ∧ AreNamed element.2
  complete : AreNamed r.complete
  phase : r.phase.IsNamed

variable {r r' : Reader}

theorem isNamed_start : start.IsNamed := ⟨by simp [start], by simp [start, AreNamed], trivial⟩

theorem IsNamed.openElement (h : r.IsNamed) {tag : StartTag} (htag : tag.IsNamed) : (r.openElement tag).IsNamed where
  opened element helement := by
    rcases List.mem_cons.mp helement with rfl | helement
    · exact ⟨htag, h.complete⟩
    · exact h.opened element helement
  complete := by simp [Reader.openElement, AreNamed]
  phase := trivial

theorem IsNamed.closeElement (h : r.IsNamed) {text name : Text} (hclose : r.closeElement text name = some r') :
    r'.IsNamed := by
  rw [Reader.closeElement] at hclose
  split at hclose
  · next tag before outer text hopened _ =>
      split at hclose
      · obtain rfl := Option.some.inj hclose
        obtain ⟨htag, hbefore⟩ := h.opened (tag, before) (by simp [hopened])
        exact ⟨fun element helement => h.opened element (by simp [hopened, helement]),
          hbefore.concat htag h.complete, trivial⟩
      · simp at hclose
  · simp at hclose

theorem IsNamed.separate (h : r.IsNamed) {tag : StartTag} (htag : tag.IsNamed) {c : Char}
    (hseparate : r.separate tag c = some r') : r'.IsNamed := by
  rw [Reader.separate] at hseparate
  split at hseparate
  · exact Option.some.inj hseparate ▸ ⟨h.opened, h.complete, htag, by simp⟩
  · split at hseparate
    · exact Option.some.inj hseparate ▸ ⟨h.opened, h.complete, htag⟩
    · split at hseparate
      · exact Option.some.inj hseparate ▸ h.openElement htag
      · simp at hseparate

theorem IsNamed.step (h : r.IsNamed) {c : Char} (hstep : r.step c = some r') : r'.IsNamed := by
  obtain ⟨opened, complete, phase⟩ := r
  have hphase : phase.IsNamed := h.phase
  have hmoved : ∀ next : Phase, next.IsNamed → (Reader.mk opened complete next).IsNamed :=
    fun next hnext => ⟨h.opened, h.complete, hnext⟩
  cases phase with
  | content text =>
      obtain rfl := Option.some.inj hstep
      refine hmoved _ ?_
      split <;> trivial
  | opening text =>
      simp only [Reader.step] at hstep
      split at hstep
      · exact Option.some.inj hstep ▸ hmoved _ trivial
      · split at hstep
        · exact Option.some.inj hstep ▸ hmoved _ trivial
        · simp at hstep
  | tag name =>
      simp only [Reader.step] at hstep
      split at hstep
      · exact Option.some.inj hstep ▸ hmoved _ trivial
      · exact h.separate (by simp [StartTag.IsNamed]) hstep
  | attributeName tag name =>
      obtain ⟨htag, hname⟩ := hphase
      simp only [Reader.step] at hstep
      split at hstep
      · next hc =>
          refine Option.some.inj hstep ▸ hmoved _ ⟨htag, fun d hd => ?_⟩
          rcases List.mem_append.mp hd with hd | hd
          · exact hname d hd
          · exact List.mem_singleton.mp hd ▸ hc
      · split at hstep
        · split at hstep
          · simp at hstep
          · next hne => exact Option.some.inj hstep ▸ hmoved _ ⟨htag, by simpa using hne, hname⟩
        · exact h.separate (htag.addName hname) hstep
  | equals tag name =>
      simp only [Reader.step] at hstep
      split at hstep
      · exact Option.some.inj hstep ▸ hmoved _ hphase
      · simp at hstep
  | value tag name quote value =>
      simp only [Reader.step] at hstep
      split at hstep
      · split at hstep
        · exact Option.some.inj hstep ▸ hmoved _ ⟨hphase.1.add hphase.2 _, by simp⟩
        · simp at hstep
      · exact Option.some.inj hstep ▸ hmoved _ hphase
  | slash tag =>
      simp only [Reader.step] at hstep
      split at hstep
      · exact Option.some.inj hstep ▸ ⟨h.opened, h.complete.concat hphase (by simp [AreNamed]), trivial⟩
      · simp at hstep
  | endTag text name =>
      simp only [Reader.step] at hstep
      split at hstep
      · exact h.closeElement hstep
      · exact Option.some.inj hstep ▸ hmoved _ trivial

/-- Whatever text is read, all names that are found are names of attributes. -/
theorem IsNamed.run (h : r.IsNamed) {s : Text} (hrun : r.run s = some r') : r'.IsNamed := by
  induction s generalizing r with
  | nil => exact Option.some.inj hrun ▸ h
  | cons c s ih =>
      obtain ⟨next, hstep, hrest⟩ := Option.bind_eq_some_iff.mp hrun
      exact ih (h.step hstep) hrest

end Reader

/-- Whatever a text is, it is not read as a start tag with an attribute of another name. -/
theorem isNamed_readStartTag {s : Text} {tag : StartTag} (h : readStartTag s = some tag) : tag.IsNamed := by
  rw [readStartTag] at h
  split at h
  · next hrun =>
      obtain rfl := Option.some.inj h
      exact ((Reader.isNamed_start.run hrun).opened _ (List.mem_singleton_self _)).1
  · next hrun =>
      obtain rfl := Option.some.inj h
      exact (Reader.isNamed_start.run hrun).complete ⟨_, []⟩ (by simp)
  · simp at h

variable {n : Node}

theorem isNamed_startTag_iff : n.startTag.IsNamed ↔ ∀ entry ∈ n.attrs, IsAttributeName entry.1 :=
  Node.forall_mem_writtenAttributes_iff

/-- The start tag of a node shows the attributes of the node exactly if all have names of attributes. -/
theorem readStartTag_openTag_iff (htag : n.HasWordTag) :
    readStartTag n.openTag = some n.startTag ↔ ∀ entry ∈ n.attrs, IsAttributeName entry.1 := by
  refine ⟨fun h => isNamed_startTag_iff.mp (isNamed_readStartTag h), fun hnames => ?_⟩
  have hrun : (Reader.mk [] [] (.content [])).run (n.openTag ++ []) = _ := Reader.run_openTag htag hnames []
  rw [List.append_nil] at hrun
  rw [readStartTag, Reader.start, hrun]
  rfl

theorem readStartTag_voidTag_iff (htag : n.HasWordTag) :
    readStartTag n.voidTag = some n.startTag ↔ ∀ entry ∈ n.attrs, IsAttributeName entry.1 := by
  refine ⟨fun h => isNamed_startTag_iff.mp (isNamed_readStartTag h), fun hnames => ?_⟩
  have hrun : (Reader.mk [] [] (.content [])).run (n.voidTag ++ []) = _ := Reader.run_voidTag htag hnames []
  rw [List.append_nil] at hrun
  rw [readStartTag, Reader.start, hrun]
  rfl

end Markup

/-- The node of a line has a word as its tag, if nodes are made so, and names of attributes if the line has them. -/
theorem Descriptor.isNamed_materialize {dialect : Dialect}
    (hmake : ∀ tag : Text, tag ≠ [] → (∀ c ∈ tag, isWord c) → (dialect.makeNode tag).HasWordTag ∧
      ∀ entry ∈ (dialect.makeNode tag).attrs, IsAttributeName entry.1)
    {separator line : Text} {reading : LineReading} (h : readLine separator line = .ok reading) :
    (reading.descriptor.materialize dialect).HasWordTag ∧
      ((∀ entry ∈ (reading.descriptor.materialize dialect).attrs, IsAttributeName entry.1) ↔
        ∀ entry ∈ reading.descriptor.attributes, IsAttributeName entry.1) := by
  obtain ⟨hne, -, text, -, hdescriptor⟩ := LineGroups.read_eq_ok h
  have htag : reading.descriptor.tag = (LineGroups.ofText line).tag := by rw [hdescriptor]
  obtain ⟨hword, hmade⟩ := hmake reading.descriptor.tag (htag ▸ hne)
    fun c hc => LineGroups.isWord_of_mem_tag (htag ▸ hc)
  refine ⟨⟨tag_materialize dialect _ ▸ hword.tag_ne_nil, tag_materialize dialect _ ▸ hword.tag_chars⟩, ?_⟩
  rw [forall_isAttributeName_iff] at hmade
  rw [forall_isAttributeName_iff, forall_isAttributeName_iff]
  simp only [mem_names_materialize]
  refine ⟨fun hkept name hname => ?_, fun hall name hname => ?_⟩
  · -- the class and the id are kept apart from the attributes, and their names are names of attributes
    by_cases hclass : name = "class".toList
    · exact hclass ▸ (by decide)
    · by_cases hid : name = "id".toList
      · exact hid ▸ (by decide)
      · exact hkept name (.inr ⟨hname, hclass, hid⟩)
  · rcases hname with hname | hname
    · exact hmade name hname
    · exact hall name hname.1

/-! ## The main result -/

/-- The names that lines give to attributes are known exactly: they are trimmed texts that are not empty, do not begin
with a digit and hold neither an equals sign nor the separator. This does not make them names of attributes, and the
start tag of the node shows its attributes exactly if they all are. -/
theorem readLine_attributeNames {dialect : Dialect}
    (hmake : ∀ tag : Text, tag ≠ [] → (∀ c ∈ tag, isWord c) → (dialect.makeNode tag).HasWordTag ∧
      ∀ entry ∈ (dialect.makeNode tag).attrs, IsAttributeName entry.1) :
    (∀ separator line reading, readLine separator line = .ok reading →
      ∀ entry ∈ reading.descriptor.attributes, IsItemName entry.1) ∧
    (∀ separator name, (∃ line reading, readLine [separator] line = .ok reading ∧
      name ∈ reading.descriptor.attributes.map Prod.fst) ↔ IsItemName name ∧ separator ∉ name) ∧
    ∀ line reading, readLine dialect.separator line = .ok reading →
      let n := reading.descriptor.materialize dialect
      (Markup.readStartTag n.openTag = some n.startTag ↔
        ∀ entry ∈ reading.descriptor.attributes, IsAttributeName entry.1) ∧
      (Markup.readStartTag n.voidTag = some n.startTag ↔
        ∀ entry ∈ reading.descriptor.attributes, IsAttributeName entry.1) := by
  refine ⟨fun _ _ _ h entry hentry => (isItemName_of_readLine h hentry).1, fun separator name => ⟨?_, ?_⟩,
    fun line reading h => ?_⟩
  · rintro ⟨line, reading, h, hname⟩
    obtain ⟨entry, hentry, rfl⟩ := List.mem_map.mp hname
    obtain ⟨hitem, hseparator⟩ := isItemName_of_readLine h hentry
    exact ⟨hitem, hseparator separator rfl⟩
  · rintro ⟨hitem, hseparator⟩
    obtain ⟨line, reading, h, hattributes⟩ := exists_readLine_named hitem hseparator
    exact ⟨line, reading, h, by simp [hattributes]⟩
  · obtain ⟨htag, hnames⟩ := Descriptor.isNamed_materialize hmake h
    exact ⟨(Markup.readStartTag_openTag_iff htag).trans hnames, (Markup.readStartTag_voidTag_iff htag).trans hnames⟩

/-- A line whose attribute is written as the end of the start tag and as an element of its own. -/
theorem readLine_attributeNames_script :
    ∃ reading, readLine defaultSeparator "p[a><script>]".toList = .ok reading ∧
      reading.descriptor.attributes = [("a><script>".toList, none)] ∧
      let n := reading.descriptor.materialize ⟨defaultSeparator, defaultMarker, .empty, Node.ofTag⟩
      Markup.readStartTag n.openTag ≠ some n.startTag := by
  let reading : LineReading := ⟨⟨"p".toList, [], none, none, [("a><script>".toList, none)], []⟩, [], []⟩
  have hread : readLine defaultSeparator "p[a><script>]".toList = .ok reading := by decide +kernel
  have hshown := (@readLine_attributeNames ⟨defaultSeparator, defaultMarker, .empty, Node.ofTag⟩
    fun _ hne hchars => ⟨⟨hne, hchars⟩, by simp [Node.ofTag]⟩).2.2 _ reading hread
  refine ⟨reading, hread, rfl, fun htag => ?_⟩
  have hname := hshown.1.mp htag ("a><script>".toList, none) (by simp [reading])
  exact absurd hname (by decide)

end IndentMarkup
