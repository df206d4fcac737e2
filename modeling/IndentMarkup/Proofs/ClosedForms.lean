import IndentMarkup.Proofs.Grafting
import IndentMarkup.Proofs.Materialization

/-!
# The node of a line in closed form

The node of a line is made step by step: each attribute is set over what was set before, and `class` and `id` reach the
classes and the id of the node. What comes out is known without the steps (`Descriptor.quietNode_ofTag`). Of the values
of an attribute the last one counts, at the place where the name was first given; the last `class` replaces the classes
of the line, and the last `id` counts unless the line has an id.
-/

namespace IndentMarkup

namespace Node

/-! ## Steps -/

/-- Classes that are inserted one after another stand in the order of their first places. -/
theorem foldl_insertClass (names : List Text) : names.foldl insertClass [] = names.eraseDups := by
  induction names using List.reverseRecOn with
  | nil => rfl
  | append_singleton names name ih =>
      rw [List.foldl_append, ih, List.foldl_cons, List.foldl_nil, insertClass, eraseDups_concat]
      simp only [List.mem_eraseDups]

theorem foldl_addClass (names : List Text) (n : Node) :
    names.foldl addClass n = { n with classes := names.foldl insertClass n.classes } := by
  induction names generalizing n with
  | nil => rfl
  | cons name rest ih => rw [List.foldl_cons, ih, addClass, List.foldl_cons]

/-- A name of an attribute that is kept among the attributes of a node. -/
def isPlainName (name : Text) : Bool := name ≠ "class".toList ∧ name ≠ "id".toList

theorem foldl_setAttribute (entries : Pairs Text) (n : Node) :
    entries.foldl (fun n entry => n.setAttribute entry.1 entry.2) n =
      { n with
        classes := (Pairs.last? "class".toList entries).elim n.classes fun value => value.words.eraseDups
        id := (Pairs.last? "id".toList entries).elim n.id fun value => if value = [] then none else some value
        attrs := n.attrs.putAll (entries.filter fun entry => isPlainName entry.1) } := by
  induction entries using List.reverseRecOn with
  | nil => rfl
  | append_singleton entries entry ih =>
      -- the last entry is set over all that stand in front of it
      obtain ⟨name, value⟩ := entry
      rw [List.foldl_append, ih, List.foldl_cons, List.foldl_nil, setAttribute, List.filter_append,
        Pairs.last?_concat, Pairs.last?_concat]
      have hnames : "class".toList ≠ "id".toList := by decide
      by_cases hclass : name = "class".toList
      · subst hclass
        have hreflected : [("class".toList, value)].filter (fun entry => isPlainName entry.1) = [] :=
          List.filter_cons_of_neg (show ¬ isPlainName "class".toList by decide)
        simp only [hreflected, hnames, if_true, if_false, List.append_nil, Option.elim_some, foldl_insertClass]
      · by_cases hid : name = "id".toList
        · subst hid
          have hreflected : [("id".toList, value)].filter (fun entry => isPlainName entry.1) = [] :=
            List.filter_cons_of_neg (show ¬ isPlainName "id".toList by decide)
          simp only [hreflected, hclass, if_true, if_false, List.append_nil, Option.elim_some, List.isEmpty_iff]
        · have hplain : [(name, value)].filter (fun entry => isPlainName entry.1) = [(name, value)] :=
            List.filter_cons_of_pos (decide_eq_true ⟨hclass, hid⟩)
          simp only [hclass, hid, if_false, hplain, Pairs.putAll, List.foldl_append, List.foldl_cons, List.foldl_nil]

theorem setId_eq (n : Node) (id : Option Text) : n.setId id = { n with id := (id.filter (· ≠ [])).or n.id } := by
  have hclass : "id".toList ≠ "class".toList := by decide
  rcases id with _ | _ | ⟨c, r⟩
  · rfl
  · rfl
  · simp only [setId, setAttribute, hclass, if_false, if_true, List.isEmpty_cons, Bool.false_eq_true]
    rfl

theorem setText_eq (n : Node) (text : Option Text) :
    n.setText text = { n with text := (text.filter (· ≠ [])).or n.text } := by
  rcases text with _ | _ | ⟨c, r⟩ <;> rfl

end Node

namespace Descriptor

/-! ## The whole node -/

def entries (d : Descriptor) : Pairs Text := d.attributes.map fun a => (a.1, a.2.getD [])

/-- The last value that is given to an attribute. -/
def lastValue? (d : Descriptor) (name : Text) : Option Text := Pairs.last? name d.entries

theorem quietNode_ofTag (d : Descriptor) :
    d.quietNode Node.ofTag =
      { tag := d.tag
        classes := ((d.lastValue? "class".toList).elim d.classes Text.words).eraseDups
        id := (d.id.filter (· ≠ [])).or ((d.lastValue? "id".toList).filter (· ≠ []))
        text := d.text.filter (· ≠ [])
        attrs := Pairs.ofList (d.entries.filter fun entry => Node.isPlainName entry.1)
        style := []
        listeners := [] } := by
  have hclasses : d.classes.foldl Node.addClass (Node.ofTag d.tag) =
      { Node.ofTag d.tag with classes := d.classes.eraseDups } := by
    rw [Node.foldl_addClass, ← Node.foldl_insertClass]
    rfl
  have hattributes : ∀ n : Node, n.setAttributes d.attributes =
      d.entries.foldl (fun n entry => n.setAttribute entry.1 entry.2) n := fun n => by
    rw [Node.setAttributes, entries, List.foldl_map]
  have hreflected : (Pairs.last? "class".toList d.entries).elim d.classes.eraseDups (fun value => value.words.eraseDups) =
      ((d.lastValue? "class".toList).elim d.classes Text.words).eraseDups := by
    rw [lastValue?]
    cases Pairs.last? "class".toList d.entries <;> rfl
  have hid : (Pairs.last? "id".toList d.entries).elim none (fun value => if value = [] then none else some value) =
      (d.lastValue? "id".toList).filter (· ≠ []) := by
    rw [lastValue?]
    rcases Pairs.last? "id".toList d.entries with _ | _ | ⟨c, r⟩ <;> rfl
  rw [quietNode, hclasses, hattributes, Node.foldl_setAttribute, Node.setId_eq, Node.setText_eq]
  simp only [hreflected, Node.ofTag, hid, Option.or_none]
  rfl

def plainNames (d : Descriptor) : List Text := (d.attributes.map Prod.fst).filter Node.isPlainName

theorem ofList_entries (d : Descriptor) :
    Pairs.ofList (d.entries.filter fun entry => Node.isPlainName entry.1) =
      d.plainNames.eraseDups.map fun name => (name, (d.lastValue? name).getD []) := by
  have hnames : (d.entries.filter fun entry => Node.isPlainName entry.1).map Prod.fst = d.plainNames := by
    rw [plainNames, entries, List.filter_map, List.filter_map, List.map_map]
    rfl
  rw [Pairs.ofList_eq [], hnames]
  refine List.map_congr_left fun name hname => ?_
  rw [Pairs.last?_filter (List.mem_filter.mp (List.mem_eraseDups.mp hname)).2, lastValue?]

end Descriptor

/-! ## The main result -/

theorem id_ne_nil_of_readLine {separator line : Text} {reading : LineReading}
    (h : readLine separator line = .ok reading) : reading.descriptor.id ≠ some [] := by
  obtain ⟨-, -, text, -, hdescriptor⟩ := LineGroups.read_eq_ok h
  intro hid
  rw [hdescriptor] at hid
  exact absurd (Option.filter_eq_some_iff.mp hid).2 (by decide)

theorem compileBlock_leaf {dialect : Dialect} {l : Line} {reading : LineReading}
    (h : readLine dialect.separator l.descriptor = .ok reading) :
    ∃ notes, compileBlock dialect ⟨l, []⟩ = .ok (.leaf (reading.descriptor.materialize dialect), notes) := by
  simp only [compileBlock, compileLine, h, compileLines, Rose.assemble_nil]
  exact ⟨_, rfl⟩

/-- Whatever line is read, its node is known without the steps that make it: each attribute but `class` and `id` is
kept once, at its first place and with its last value; the last `class` stands for the classes of the line, and the
last `id` for the id that the line does not have. The node has no style, and a line by itself makes no children. -/
theorem materialize_closedForm {dialect : Dialect} (hmake : dialect.makeNode = Node.ofTag) {l : Line}
    {reading : LineReading} (h : readLine dialect.separator l.descriptor = .ok reading) :
    let d := reading.descriptor
    let n := d.materialize dialect
    n.tag = d.tag ∧
      n.attrs = d.plainNames.eraseDups.map (fun name => (name, (d.lastValue? name).getD [])) ∧
      n.classes = ((d.lastValue? "class".toList).elim d.classes Text.words).eraseDups ∧
      n.id = d.id.or ((d.lastValue? "id".toList).filter (· ≠ [])) ∧
      n.text = d.text.filter (· ≠ []) ∧
      n.style = [] ∧
      ∃ notes, compileBlock dialect ⟨l, []⟩ = .ok (.leaf n, notes) := by
  intro d n
  have hquiet : { n with listeners := [] } = { d.quietNode Node.ofTag with listeners := [] } :=
    hmake ▸ Descriptor.apply_materialize (g := fun n => { n with listeners := [] }) (fun _ _ => rfl) dialect d
  rw [d.quietNode_ofTag, d.ofList_entries, filter_ne_nil_eq_self (id_ne_nil_of_readLine h)] at hquiet
  exact ⟨congrArg Node.tag hquiet, congrArg Node.attrs hquiet, congrArg Node.classes hquiet, congrArg Node.id hquiet,
    congrArg Node.text hquiet, congrArg Node.style hquiet, compileBlock_leaf h⟩

/-- A line whose attributes name classes and the id again, and one attribute twice. -/
theorem materialize_closedForm_reflected :
    let dialect : Dialect := ⟨[';'], ['>'], .empty, Node.ofTag⟩
    let descriptor := "p.a.b.a(&#1;)[x=1; class=c; y; id=m; x=2; class=d  c d; id; title=]".toList
    let l : Line := ⟨1, 0, descriptor, descriptor⟩
    ∃ reading, readLine dialect.separator l.descriptor = .ok reading ∧
      let n := reading.descriptor.materialize dialect
      n.tag = "p".toList ∧
        n.attrs = [("x".toList, "2".toList), ("y".toList, []), ("title".toList, [])] ∧
        n.classes = ["d".toList, "c".toList] ∧ n.id = none ∧ n.text = none ∧ n.style = [] ∧
        ∃ notes, compileBlock dialect ⟨l, []⟩ = .ok (.leaf n, notes) := by
  intro dialect descriptor l
  let reading : LineReading := {
    descriptor := {
      tag := "p".toList
      classes := ["a".toList, "b".toList, "a".toList]
      id := none
      text := some []
      attributes := [("x".toList, some "1".toList), ("class".toList, some "c".toList), ("y".toList, none),
        ("id".toList, some "m".toList), ("x".toList, some "2".toList), ("class".toList, some "d  c d".toList),
        ("id".toList, none), ("title".toList, some [])]
      events := [] }
    diagnostics := []
    trailing := [] }
  have hread : readLine [';'] descriptor = .ok reading := by decide +kernel
  obtain ⟨htag, hattrs, hclasses, hid, htext, hstyle, hleaf⟩ := @materialize_closedForm dialect rfl l reading hread
  exact ⟨reading, hread, htag, hattrs.trans (by decide +kernel), hclasses.trans (by decide +kernel),
    hid.trans (by decide +kernel), htext, hstyle, hleaf⟩

end IndentMarkup
