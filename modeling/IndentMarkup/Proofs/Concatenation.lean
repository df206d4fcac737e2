import IndentMarkup.Proofs.Compilation
import IndentMarkup.Proofs.Mounting

/-!
# Templates one below the other

A template that stands below another one has the same lines with later numbers. If its first line is top-level, no
block of the upper template takes any of them. Compiling both at once then comes to compiling one after the other
(`Builder.compile_append`): the same elements are added in the same order, and a fault or a diagnostic of the lower
template has its line counted from the start of the upper one.
-/

namespace IndentMarkup

/-! ## Lines further down -/

def Line.shift (k : Nat) (l : Line) : Line := { l with number := l.number + k }

def Block.shift (k : Nat) (b : Block) : Block := ⟨b.root.shift k, b.children.map (Line.shift k)⟩

def LineDiagnostic.shift (k : Nat) (d : LineDiagnostic) : LineDiagnostic := { d with number := d.number + k }

/-- The fault of a line, so many lines further down. Only a line without a tag is reported with its number. -/
def CompileFault.shift (k : Nat) : CompileFault → CompileFault
  | malformedLine raw number => malformedLine raw (number + k)
  | emptySeparator => emptySeparator
  | referenceTooLong digits => referenceTooLong digits

theorem linesFrom_add (marker : Text) (number k : Nat) (pieces : List Text) :
    linesFrom marker (number + k) pieces = (linesFrom marker number pieces).map (Line.shift k) := by
  induction pieces generalizing number with
  | nil => rfl
  | cons piece rest ih =>
      rw [linesFrom, linesFrom, Line.ofPiece?, Line.ofPiece?, Nat.add_right_comm number k 1]
      by_cases hblank : piece.trim.isEmpty
      · simp only [hblank, if_true, ih]
      · simp only [hblank, Bool.false_eq_true, if_false, ih, List.map_cons]
        rfl

@[simp] theorem depth_shift (k : Nat) (l : Line) : (l.shift k).depth = l.depth := rfl

theorem splitBlocks_map_shift (k : Nat) (lines : List Line) :
    splitBlocks (lines.map (Line.shift k)) =
      ((splitBlocks lines).1.map (Line.shift k), (splitBlocks lines).2.map (Block.shift k)) := by
  induction lines with
  | nil => rfl
  | cons l rest ih =>
      rw [List.map_cons]
      by_cases hl : l.depth = 0
      · rw [splitBlocks_cons_zero (by simpa using hl), splitBlocks_cons_zero hl, ih]
        rfl
      · rw [splitBlocks_cons_ne_zero (by simpa using hl), splitBlocks_cons_ne_zero hl, ih]
        rfl

/-- Lines that do not begin with a nested one make blocks of their own. -/
theorem splitBlocks_append {upper lower : List Line} (h : ∀ l, lower.head? = some l → l.depth = 0) :
    splitBlocks (upper ++ lower) = ((splitBlocks upper).1, (splitBlocks upper).2 ++ (splitBlocks lower).2) := by
  induction upper with
  | nil =>
      cases lower with
      | nil => rfl
      | cons l rest => rw [List.nil_append, splitBlocks_cons_zero (h l rfl)]; rfl
  | cons l rest ih =>
      rw [List.cons_append]
      by_cases hl : l.depth = 0
      · rw [splitBlocks_cons_zero hl, splitBlocks_cons_zero hl, ih, List.cons_append]
      · rw [splitBlocks_cons_ne_zero hl, splitBlocks_cons_ne_zero hl, ih]

/-- The blocks of two templates one below the other. -/
theorem blocksOf_append {marker upper lower : Text}
    (h : ∀ l, (templateLines marker lower).head? = some l → l.depth = 0) :
    blocksOf marker (upper ++ '\n' :: lower) =
      blocksOf marker upper ++ (blocksOf marker lower).map (Block.shift upper.lines.length) := by
  have hlower : linesFrom marker (1 + upper.lines.length) lower.lines =
      (templateLines marker lower).map (Line.shift upper.lines.length) := linesFrom_add marker 1 _ _
  have hhead : ∀ l, ((templateLines marker lower).map (Line.shift upper.lines.length)).head? = some l →
      l.depth = 0 := by
    intro l hl
    rw [List.head?_map] at hl
    obtain ⟨k, hk, rfl⟩ := Option.map_eq_some_iff.mp hl
    exact h k hk
  rw [blocksOf, templateLines_append, hlower, splitBlocks_append hhead, splitBlocks_map_shift]
  rfl

/-! ## What lines make further down -/

section

variable (dialect : Dialect) (k : Nat)

theorem Line.isRead_shift (l : Line) : (l.shift k).IsRead dialect ↔ l.IsRead dialect := Iff.rfl

theorem Line.fault?_shift (l : Line) :
    (l.shift k).fault? dialect = (l.fault? dialect).map (CompileFault.shift k) := by
  have hread : readLine dialect.separator (l.shift k).descriptor = readLine dialect.separator l.descriptor := rfl
  rw [fault?, fault?, hread]
  cases readLine dialect.separator l.descriptor with
  | ok reading => rfl
  | error failure => cases hfault : failure.fault <;> simp [hfault, LineFault.inTemplate, CompileFault.shift, shift]

theorem Line.diagnostics_shift (l : Line) :
    (l.shift k).diagnostics dialect = (l.diagnostics dialect).map (LineDiagnostic.shift k) := by
  have hread : readLine dialect.separator (l.shift k).descriptor = readLine dialect.separator l.descriptor := rfl
  rw [diagnostics, diagnostics, hread]
  cases readLine dialect.separator l.descriptor with
  | ok reading =>
      rw [List.map_map]
      rfl
  | error failure => rfl

theorem Block.lines_shift (b : Block) : (b.shift k).lines = b.lines.map (Line.shift k) := rfl

theorem Block.layout_shift (b : Block) : (b.shift k).layout = b.layout.map (Line.shift k) := by
  rw [layout, layout, Rose.map_assemble, List.map_map, shift, List.map_map]
  rfl

theorem Block.isRead_shift (b : Block) : (b.shift k).IsRead dialect ↔ b.IsRead dialect := by
  rw [IsRead, lines_shift, List.forall_mem_map]
  rfl

theorem Block.flatMap_lines_shift (blocks : List Block) :
    (blocks.map (Block.shift k)).flatMap Block.lines = (blocks.flatMap Block.lines).map (Line.shift k) := by
  rw [List.flatMap_map, List.map_flatMap]
  rfl

end

/-! ## Compiling -/

theorem takeWhile_isRead_shift (dialect : Dialect) (k : Nat) (lines : List Line) :
    ((lines.map (Line.shift k)).takeWhile fun l => l.IsRead dialect).flatMap (Line.diagnostics dialect) =
      ((lines.takeWhile fun l => l.IsRead dialect).flatMap (Line.diagnostics dialect)).map
        (LineDiagnostic.shift k) := by
  have hread : (fun l : Line => decide (l.IsRead dialect)) ∘ Line.shift k = fun l => decide (l.IsRead dialect) :=
    funext fun l => decide_eq_decide.mpr (l.isRead_shift dialect k)
  rw [List.takeWhile_map, hread, List.flatMap_map, List.map_flatMap]
  exact List.flatMap_congr fun (l : Line) _ => l.diagnostics_shift dialect k

theorem takeWhile_isRead_blocks_shift (dialect : Dialect) (k : Nat) (blocks : List Block) :
    ((blocks.map (Block.shift k)).takeWhile fun b => b.IsRead dialect).map
        (fun b => b.layout.map (Line.node dialect)) =
      (blocks.takeWhile fun b => b.IsRead dialect).map fun b => b.layout.map (Line.node dialect) := by
  have hread : (fun b : Block => decide (b.IsRead dialect)) ∘ Block.shift k = fun b => decide (b.IsRead dialect) :=
    funext fun b => decide_eq_decide.mpr (b.isRead_shift dialect k)
  rw [List.takeWhile_map, hread, List.map_map]
  refine List.map_congr_left fun b _ => ?_
  rw [Function.comp, Block.layout_shift, Rose.map_map]
  rfl

theorem Dialect.compile_append_of_fault (dialect : Dialect) {upper lower : Text}
    (h : ∀ l, (templateLines dialect.marker lower).head? = some l → l.depth = 0) {f : CompileFault}
    (hf : (compile dialect upper).fault = some f) :
    (compile dialect (upper ++ '\n' :: lower)).fault = some f ∧
      (compile dialect (upper ++ '\n' :: lower)).roots = (compile dialect upper).roots ∧
      (compile dialect (upper ++ '\n' :: lower)).notes.diagnostics = (compile dialect upper).notes.diagnostics := by
  obtain ⟨hfault, hroots, hdiagnostics⟩ := compile_eq dialect upper
  obtain ⟨hfault', hroots', hdiagnostics'⟩ := compile_eq dialect (upper ++ '\n' :: lower)
  obtain ⟨l, hl, hlf⟩ := List.exists_of_findSome?_eq_some (hfault.symm.trans hf)
  obtain ⟨b, hb, hlb⟩ := List.mem_flatMap.mp hl
  have hread := Line.not_isRead_of_fault? hlf
  have hblock : ¬ b.IsRead dialect := fun hall => hread (hall l hlb)
  rw [blocksOf_append h] at hfault' hroots' hdiagnostics'
  rw [List.flatMap_append] at hfault' hdiagnostics'
  refine ⟨?_, ?_, ?_⟩
  · rw [hfault', List.findSome?_append, ← hfault, hf]
    rfl
  · rw [hroots', hroots, takeWhile_append_of_mem hb (by simpa using hblock)]
  · rw [hdiagnostics', hdiagnostics, takeWhile_append_of_mem hl (by simpa using hread)]

theorem Dialect.compile_append_of_read (dialect : Dialect) {upper lower : Text}
    (h : ∀ l, (templateLines dialect.marker lower).head? = some l → l.depth = 0)
    (hf : (compile dialect upper).fault = none) :
    (compile dialect (upper ++ '\n' :: lower)).fault =
        (compile dialect lower).fault.map (CompileFault.shift upper.lines.length) ∧
      (compile dialect (upper ++ '\n' :: lower)).roots =
        (compile dialect upper).roots ++ (compile dialect lower).roots ∧
      (compile dialect (upper ++ '\n' :: lower)).notes.diagnostics = (compile dialect upper).notes.diagnostics ++
        (compile dialect lower).notes.diagnostics.map (LineDiagnostic.shift upper.lines.length) := by
  obtain ⟨hfault, hroots, hdiagnostics⟩ := compile_eq dialect lower
  obtain ⟨hfault', hroots', hdiagnostics'⟩ := compile_eq dialect (upper ++ '\n' :: lower)
  have hblocks : ∀ b ∈ blocksOf dialect.marker upper, b.IsRead dialect := compile_fault_eq_none_iff.mp hf
  have hlines : ∀ l ∈ (blocksOf dialect.marker upper).flatMap Block.lines, l.IsRead dialect :=
    List.forall_mem_flatMap.mpr hblocks
  rw [blocksOf_append h] at hfault' hroots' hdiagnostics'
  rw [List.flatMap_append, Block.flatMap_lines_shift] at hfault' hdiagnostics'
  refine ⟨?_, ?_, ?_⟩
  · rw [hfault', List.findSome?_append, ← (compile_eq dialect upper).1, hf, hfault, List.map_findSome?,
      List.findSome?_map, Option.none_or]
    exact congrArg (List.findSome? · _) (funext fun l => l.fault?_shift dialect _)
  · rw [hroots', List.takeWhile_append_of_pos fun b hb => decide_eq_true (hblocks b hb), List.map_append,
      roots_compile dialect hblocks, takeWhile_isRead_blocks_shift, hroots]
  · rw [hdiagnostics', List.takeWhile_append_of_pos fun l hl => decide_eq_true (hlines l hl), List.flatMap_append,
      diagnostics_compile hblocks, takeWhile_isRead_shift, hdiagnostics]

namespace Document

/-! ## Documents -/

theorem mountAll_cons (d : Document) (n : Node) (cs rest : List Tree) :
    d.mountAll (.node n cs :: rest) =
      ((((d.mountAll cs).1.insert ⟨n, (d.mountAll cs).2⟩).1.mountAll rest).1,
        (d.mountAll cs).1.size :: (((d.mountAll cs).1.insert ⟨n, (d.mountAll cs).2⟩).1.mountAll rest).2) := rfl

theorem mountAll_append (d : Document) (ts us : List Tree) :
    d.mountAll (ts ++ us) =
      (((d.mountAll ts).1.mountAll us).1, (d.mountAll ts).2 ++ ((d.mountAll ts).1.mountAll us).2) := by
  induction ts generalizing d with
  | nil => rfl
  | cons t rest ih =>
      obtain ⟨n, cs⟩ := t
      rw [List.cons_append, mountAll_cons, mountAll_cons, ih, List.cons_append]

theorem appendChildren_append (d : Document) (parent : Ref) (more later : List Ref) :
    (d.appendChildren parent more).appendChildren parent later = d.appendChildren parent (more ++ later) := by
  rw [appendChildren, appendChildren, appendChildren, modifyChildren, modifyChildren, modifyChildren,
    List.modify_modify_eq]
  simp [Function.comp_def]

theorem insert_appendChildren {d : Document} {parent : Ref} (h : parent < d.size) (more : List Ref) (e : Element) :
    (d.appendChildren parent more).insert e = ((d.insert e).1.appendChildren parent more, (d.insert e).2) := by
  have hmodify : ∀ (elements : List Element) (i : Nat) (f : Element → Element), i < elements.length →
      elements.modify i f ++ [e] = (elements ++ [e]).modify i f := by
    intro elements
    induction elements with
    | nil => exact fun i f hi => absurd hi (Nat.not_lt_zero i)
    | cons a rest ih =>
        intro i f hi
        cases i with
        | zero => rfl
        | succ i => simp [ih i f (Nat.lt_of_succ_lt_succ hi)]
  rw [insert, insert, size_appendChildren, appendChildren, appendChildren, modifyChildren, modifyChildren,
    hmodify _ _ _ h]

/-- Mounting does not look at the children of an element that is there. -/
theorem mountAll_appendChildren {d : Document} {parent : Ref} (h : parent < d.size) (more : List Ref)
    (ts : List Tree) :
    (d.appendChildren parent more).mountAll ts =
      ((d.mountAll ts).1.appendChildren parent more, (d.mountAll ts).2) := by
  induction ts using Rose.induction_forest generalizing d with
  | nil => rfl
  | cons n cs rest ihcs ihrest =>
      obtain ⟨os, hos⟩ := d.mountAll_mounted cs
      have hbelow : parent < (d.mountAll cs).1.size := Nat.lt_of_lt_of_le h (size_le_of_grows hos.grows)
      have hinserted := Nat.lt_of_lt_of_le h (size_le_of_grows (hos.insert n).grows)
      rw [mountAll_cons, mountAll_cons, ihcs h, insert_appendChildren hbelow, ihrest hinserted, size_appendChildren]

end Document

namespace Builder

theorem document_compile (b : Builder) (d : Document) (template : Text) :
    (b.compile d template).document =
        (d.mountAll (IndentMarkup.compile b.dialect template).roots).1.appendChildren b.container
          (b.compile d template).roots ∧
      (b.compile d template).roots = (d.mountAll (IndentMarkup.compile b.dialect template).roots).2 :=
  ⟨rfl, rfl⟩

theorem document_compile_congr (b : Builder) (d : Document) {s t : Text}
    (h : (IndentMarkup.compile b.dialect s).roots = (IndentMarkup.compile b.dialect t).roots) :
    (b.compile d s).document = (b.compile d t).document ∧ (b.compile d s).roots = (b.compile d t).roots := by
  obtain ⟨hdocument, hroots⟩ := b.document_compile d s
  obtain ⟨hdocument', hroots'⟩ := b.document_compile d t
  rw [hdocument, hdocument', hroots, hroots', h]
  exact ⟨rfl, rfl⟩

theorem document_compile_append (b : Builder) {d : Document} (hcontainer : b.container < d.size) {joint s t : Text}
    (h : (IndentMarkup.compile b.dialect joint).roots =
      (IndentMarkup.compile b.dialect s).roots ++ (IndentMarkup.compile b.dialect t).roots) :
    (b.compile d joint).document = (b.compile (b.compile d s).document t).document ∧
      (b.compile d joint).roots = (b.compile d s).roots ++ (b.compile (b.compile d s).document t).roots := by
  obtain ⟨hdocument, hroots⟩ := b.document_compile d s
  obtain ⟨hdocument', hroots'⟩ := b.document_compile (b.compile d s).document t
  obtain ⟨hjoint, hjointRoots⟩ := b.document_compile d joint
  obtain ⟨os, hos⟩ := d.mountAll_mounted (IndentMarkup.compile b.dialect s).roots
  have hsize := Nat.lt_of_lt_of_le hcontainer (Document.size_le_of_grows hos.grows)
  have hmount := Document.mountAll_appendChildren hsize (b.compile d s).roots
    (IndentMarkup.compile b.dialect t).roots
  rw [← hdocument] at hmount
  rw [hmount] at hdocument' hroots'
  rw [h, Document.mountAll_append, ← hroots, ← hroots'] at hjoint hjointRoots
  refine ⟨?_, hjointRoots⟩
  rw [hjoint, hdocument', Document.appendChildren_append, hjointRoots]

/-! ## The main result -/

/-- Compiling two templates one below the other comes to compiling the upper one and then, if it has no fault, the
lower one. The documents are the same, element by element, and so are the roots. Of the lower template, only the
numbers of the lines are different: they count from the start of the upper one. -/
theorem compile_append (b : Builder) {d : Document} (hcontainer : b.container < d.size) (upper lower : Text)
    (h : ∀ l, (templateLines b.marker lower).head? = some l → l.depth = 0) :
    let joint := b.compile d (upper ++ '\n' :: lower)
    let first := b.compile d upper
    let second := first.builder.compile first.document lower
    let moved := upper.lines.length
    (∀ f, first.fault = some f →
      joint.fault = some f ∧ joint.document = first.document ∧ joint.roots = first.roots ∧
        joint.builder = first.builder) ∧
      (first.fault = none →
        joint.fault = second.fault.map (CompileFault.shift moved) ∧ joint.document = second.document ∧
          joint.roots = first.roots ++ second.roots ∧
          joint.builder = { second.builder with
            diagnostics :=
              first.builder.diagnostics ++ second.builder.diagnostics.map (LineDiagnostic.shift moved) }) := by
  intro joint first second moved
  constructor
  · intro f hf
    obtain ⟨hfault, htrees, hdiagnostics⟩ := b.dialect.compile_append_of_fault h hf
    have hdocument := b.document_compile_congr d htrees
    exact ⟨hfault, hdocument.1, hdocument.2, congrArg (fun diagnostics => { b with diagnostics }) hdiagnostics⟩
  · intro hf
    obtain ⟨hfault, htrees, hdiagnostics⟩ := b.dialect.compile_append_of_read h hf
    obtain ⟨hdocument, hroots⟩ := b.document_compile_append hcontainer htrees
    exact ⟨hfault, hdocument, hroots, congrArg (fun diagnostics => { b with diagnostics }) hdiagnostics⟩

/-- A lower template without a tag in its second line: it is the fifth line of both templates. -/
theorem compile_append_fault_below :
    (new 0 Node.ofTag).container < (Document.mk [default]).size ∧
      ((new 0 Node.ofTag).compile ⟨[default]⟩ "a\n\nb.1x".toList).fault = none ∧
      ((new 0 Node.ofTag).compile ⟨[default]⟩ ("a\n\nb.1x".toList ++ '\n' :: "c.2y\n.z".toList)).fault =
        some (.malformedLine ".z".toList 5) := by
  have hfirst : (templateLines defaultMarker "c.2y\n.z".toList).head? =
      some ⟨1, 0, "c.2y".toList, "c.2y".toList⟩ := by decide +kernel
  have hhead : ∀ l, (templateLines defaultMarker "c.2y\n.z".toList).head? = some l → l.depth = 0 :=
    fun l hl => Option.some.inj (hfirst.symm.trans hl) ▸ rfl
  have hcontainer : (new 0 Node.ofTag).container < (Document.mk [default]).size := by decide
  have hupper : ((new 0 Node.ofTag).compile ⟨[default]⟩ "a\n\nb.1x".toList).fault = none := by decide +kernel
  have hjoint := ((new 0 Node.ofTag).compile_append hcontainer "a\n\nb.1x".toList "c.2y\n.z".toList hhead).2 hupper
  exact ⟨hcontainer, hupper, hjoint.1.trans (by decide +kernel)⟩

end Builder

end IndentMarkup
