import IndentMarkup.Proofs.Grafting
import IndentMarkup.Proofs.Lines
import IndentMarkup.Template.Compile
import Mathlib.Data.List.Perm.Basic
import Mathlib.Data.List.TakeWhile

/-!
# What compiling a template makes

A template is compiled up to the first line of a block that is not read (`compile_eq`), so it is compiled when all
lines of its blocks are (`compile_fault_eq_none_iff`). Its trees are then the images of the layouts of its blocks, which
are trees of lines (`roots_compile`). The layouts of a template without jumps are the forest that its lines list
(`splitBlocks_of_forest`).
-/

namespace IndentMarkup

/-! ## Lines -/

def Line.IsRead (dialect : Dialect) (l : Line) : Prop :=
  ∃ reading, readLine dialect.separator l.descriptor = .ok reading

/-- The node that the descriptor of a line makes; one that is not read stands for the default node. -/
def descriptorNode (dialect : Dialect) (descriptor : Text) : Node :=
  match readLine dialect.separator descriptor with
  | .ok reading => reading.descriptor.materialize dialect
  | .error _ => default

def Line.node (dialect : Dialect) (l : Line) : Node := descriptorNode dialect l.descriptor

theorem Line.isRead_congr {dialect : Dialect} {k l : Line} (h : k.descriptor = l.descriptor) :
    k.IsRead dialect ↔ l.IsRead dialect := by
  rw [IsRead, IsRead, h]

def Line.diagnostics (dialect : Dialect) (l : Line) : List LineDiagnostic :=
  match readLine dialect.separator l.descriptor with
  | .ok reading => reading.diagnostics.map (LineDiagnostic.mk l.number)
  | .error _ => []

theorem compileLine_of_isRead {dialect : Dialect} {l : Line} (h : l.IsRead dialect) :
    ∃ notes, compileLine dialect l = .ok (l.node dialect, notes) ∧ notes.diagnostics = l.diagnostics dialect := by
  obtain ⟨reading, hreading⟩ := h
  rw [compileLine, Line.node, descriptorNode, Line.diagnostics, hreading]
  exact ⟨_, rfl, rfl⟩

def Line.fault? (dialect : Dialect) (l : Line) : Option CompileFault :=
  match readLine dialect.separator l.descriptor with
  | .ok _ => none
  | .error failure => some (failure.fault.inTemplate l)

theorem Line.fault?_eq_none_iff {dialect : Dialect} {l : Line} : l.fault? dialect = none ↔ l.IsRead dialect := by
  rw [fault?, IsRead]
  cases readLine dialect.separator l.descriptor <;> simp

instance (dialect : Dialect) (l : Line) : Decidable (l.IsRead dialect) :=
  decidable_of_iff (l.fault? dialect = none) Line.fault?_eq_none_iff

theorem Line.not_isRead_of_fault? {dialect : Dialect} {l : Line} {f : CompileFault} (h : l.fault? dialect = some f) :
    ¬ l.IsRead dialect := by
  rw [← fault?_eq_none_iff, h]
  simp

theorem Line.not_isRead_of_tag {dialect : Dialect} {l : Line} (h : (LineGroups.ofText l.descriptor).tag.isEmpty) :
    ¬ l.IsRead dialect := by
  rintro ⟨reading, hreading⟩
  rw [readLine, LineGroups.read, if_pos h] at hreading
  simp at hreading

theorem compileLine_of_fault {dialect : Dialect} {l : Line} {f : CompileFault} (h : l.fault? dialect = some f) :
    ∃ notes, compileLine dialect l = .error (f, notes) ∧ notes.diagnostics = [] := by
  rw [Line.fault?] at h
  split at h
  · simp at h
  · next failure hfailure =>
      obtain rfl := Option.some.inj h
      rw [compileLine, hfailure]
      exact ⟨_, rfl, rfl⟩

theorem compileLines_of_isRead {dialect : Dialect} {lines : List Line} (h : ∀ l ∈ lines, l.IsRead dialect) :
    ∃ notes, compileLines dialect lines = .ok (lines.map fun l => (l.node dialect, l.depth), notes) ∧
      notes.diagnostics = lines.flatMap (Line.diagnostics dialect) := by
  induction lines with
  | nil => exact ⟨.none, rfl, rfl⟩
  | cons l rest ih =>
      obtain ⟨notes, hl, hnotes⟩ := compileLine_of_isRead (h l (by simp))
      obtain ⟨more, hrest, hmore⟩ := ih fun k hk => h k (by simp [hk])
      rw [compileLines, hl]
      simp only [hrest]
      refine ⟨notes ++ more, rfl, ?_⟩
      rw [List.flatMap_cons, ← hnotes, ← hmore]
      rfl

theorem compileLines_of_fault {dialect : Dialect} {lines : List Line} {f : CompileFault}
    (h : lines.findSome? (Line.fault? dialect) = some f) :
    ∃ notes, compileLines dialect lines = .error (f, notes) ∧
      notes.diagnostics =
        (lines.takeWhile fun l => l.IsRead dialect).flatMap (Line.diagnostics dialect) := by
  induction lines with
  | nil => simp at h
  | cons l rest ih =>
      rw [List.findSome?_cons] at h
      rw [compileLines]
      cases hl : l.fault? dialect with
      | some fault =>
          obtain rfl : fault = f := by simpa [hl] using h
          obtain ⟨notes, hcompile, hnone⟩ := compileLine_of_fault hl
          rw [hcompile, List.takeWhile_cons_of_neg (by simpa using Line.not_isRead_of_fault? hl)]
          exact ⟨notes, rfl, hnone⟩
      | none =>
          have hread := Line.fault?_eq_none_iff.mp hl
          obtain ⟨notes, hcompile, hnotes⟩ := compileLine_of_isRead hread
          obtain ⟨more, hrest, hmore⟩ := ih (by simpa [hl] using h)
          rw [hcompile, List.takeWhile_cons_of_pos (by simpa using hread), List.flatMap_cons]
          simp only [hrest]
          exact ⟨notes ++ more, rfl, by rw [← hnotes, ← hmore]; rfl⟩

/-! ## Blocks -/

def Block.lines (b : Block) : List Line := b.root :: b.children

/-- The tree of the lines of a block. -/
def Block.layout (b : Block) : Rose Line := Rose.assemble b.root (b.children.map fun l => (l, l.depth))

theorem Block.self_map_layout {α : Type} (b : Block) (f : Line → α) : (b.layout.map f).self = f b.root := by
  rw [Rose.self_map, layout, Rose.self_assemble]

theorem preorder_layout_perm (b : Block) : b.layout.preorder.Perm b.lines := by
  have h := Rose.preorder_assemble_perm b.root (b.children.map fun l => (l, l.depth))
  simpa [Block.layout, Block.lines, Function.comp_def] using h

theorem compileBlock_of_isRead {dialect : Dialect} {b : Block} (h : ∀ l ∈ b.lines, l.IsRead dialect) :
    ∃ notes, compileBlock dialect b = .ok (b.layout.map (Line.node dialect), notes) ∧
      notes.diagnostics = b.lines.flatMap (Line.diagnostics dialect) := by
  obtain ⟨notes, hroot, hnotes⟩ := compileLine_of_isRead (h b.root (by simp [Block.lines]))
  have hnested : ∀ l ∈ b.children, l.IsRead dialect := fun l hl => h l (by simp [Block.lines, hl])
  obtain ⟨more, hchildren, hmore⟩ := compileLines_of_isRead hnested
  rw [compileBlock, hroot]
  simp only [hchildren]
  refine ⟨notes ++ more, ?_, ?_⟩
  · rw [Block.layout, Rose.map_assemble, List.map_map]
    rfl
  · rw [Block.lines, List.flatMap_cons, ← hnotes, ← hmore]
    rfl

def Block.IsRead (dialect : Dialect) (b : Block) : Prop := ∀ l ∈ b.lines, l.IsRead dialect

instance (dialect : Dialect) (b : Block) : Decidable (b.IsRead dialect) :=
  inferInstanceAs (Decidable (∀ l ∈ b.lines, l.IsRead dialect))

theorem Block.findSome?_fault_eq_none_iff {dialect : Dialect} {b : Block} :
    b.lines.findSome? (Line.fault? dialect) = none ↔ b.IsRead dialect := by
  rw [List.findSome?_eq_none_iff]
  exact forall₂_congr fun l _ => Line.fault?_eq_none_iff

theorem compileBlock_of_fault {dialect : Dialect} {b : Block} {f : CompileFault}
    (h : b.lines.findSome? (Line.fault? dialect) = some f) :
    ∃ notes, compileBlock dialect b = .error (f, notes) ∧
      notes.diagnostics =
        (b.lines.takeWhile fun l => l.IsRead dialect).flatMap (Line.diagnostics dialect) := by
  obtain ⟨notes, hlines, hnotes⟩ := compileLines_of_fault h
  refine ⟨notes, ?_, hnotes⟩
  rw [Block.lines, compileLines] at hlines
  rw [compileBlock]
  cases hroot : compileLine dialect b.root with
  | error failure => simpa [hroot] using hlines
  | ok out =>
      cases hchildren : compileLines dialect b.children with
      | error failure => simpa [hroot, hchildren] using hlines
      | ok entries => simp [hroot, hchildren] at hlines

theorem takeWhile_append_of_mem {α : Type} {p : α → Bool} {front : List α} {x : α} (hx : x ∈ front) (h : ¬ p x)
    (rest : List α) : (front ++ rest).takeWhile p = front.takeWhile p := by
  rw [List.takeWhile_append, if_neg]
  rw [(List.takeWhile_sublist _).length_eq, List.takeWhile_eq_self_iff]
  exact fun hall => h (hall x hx)

/-- Blocks are compiled up to the first fault of their lines: the trees of the blocks in front of it stay, and so do
the diagnostics of the lines in front of it. -/
theorem compileBlocks_eq (dialect : Dialect) (blocks : List Block) :
    (compileBlocks dialect blocks).fault = (blocks.flatMap Block.lines).findSome? (Line.fault? dialect) ∧
      (compileBlocks dialect blocks).roots =
        (blocks.takeWhile fun b => b.IsRead dialect).map (fun b => b.layout.map (Line.node dialect)) ∧
      (compileBlocks dialect blocks).notes.diagnostics =
        ((blocks.flatMap Block.lines).takeWhile fun l => l.IsRead dialect).flatMap (Line.diagnostics dialect) := by
  induction blocks with
  | nil => exact ⟨rfl, rfl, rfl⟩
  | cons b rest ih =>
      rw [compileBlocks, List.flatMap_cons, List.findSome?_append]
      cases hb : b.lines.findSome? (Line.fault? dialect) with
      | some f =>
          obtain ⟨notes, hcompile, hnotes⟩ := compileBlock_of_fault hb
          obtain ⟨l, hl, hf⟩ := List.exists_of_findSome?_eq_some hb
          have hread := Line.not_isRead_of_fault? hf
          have hblock : ¬ b.IsRead dialect := fun hall => hread (hall l hl)
          rw [hcompile, takeWhile_append_of_mem hl (by simpa using hread),
            List.takeWhile_cons_of_neg (by simpa using hblock)]
          exact ⟨rfl, rfl, hnotes⟩
      | none =>
          have hread := Block.findSome?_fault_eq_none_iff.mp hb
          obtain ⟨notes, hcompile, hnotes⟩ := compileBlock_of_isRead hread
          obtain ⟨hfault, hroots, hmore⟩ := ih
          rw [hcompile, List.takeWhile_append_of_pos fun l hl => decide_eq_true (hread l hl),
            List.takeWhile_cons_of_pos (by simpa using hread), List.map_cons, List.flatMap_append, ← hnotes, ← hmore,
            ← hroots]
          exact ⟨hfault, rfl, rfl⟩

/-! ## Templates -/

def blocksOf (marker template : Text) : List Block := (splitBlocks (templateLines marker template)).2

/-- A template is compiled up to the first fault of the lines of its blocks. -/
theorem compile_eq (dialect : Dialect) (template : Text) :
    (compile dialect template).fault =
        ((blocksOf dialect.marker template).flatMap Block.lines).findSome? (Line.fault? dialect) ∧
      (compile dialect template).roots =
        ((blocksOf dialect.marker template).takeWhile fun b => b.IsRead dialect).map
          (fun b => b.layout.map (Line.node dialect)) ∧
      (compile dialect template).notes.diagnostics =
        (((blocksOf dialect.marker template).flatMap Block.lines).takeWhile fun l => l.IsRead dialect).flatMap
          (Line.diagnostics dialect) :=
  compileBlocks_eq dialect (blocksOf dialect.marker template)

/-- A template is compiled exactly if all lines of its blocks are read. -/
theorem compile_fault_eq_none_iff {dialect : Dialect} {template : Text} :
    (compile dialect template).fault = none ↔
      ∀ b ∈ blocksOf dialect.marker template, ∀ l ∈ b.lines, l.IsRead dialect := by
  rw [(compile_eq dialect template).1, List.findSome?_eq_none_iff, List.forall_mem_flatMap]
  exact forall₄_congr fun b _ l _ => Line.fault?_eq_none_iff

theorem roots_compile (dialect : Dialect) {template : Text}
    (h : ∀ b ∈ blocksOf dialect.marker template, ∀ l ∈ b.lines, l.IsRead dialect) :
    (compile dialect template).roots =
      (blocksOf dialect.marker template).map fun b => b.layout.map (Line.node dialect) := by
  have hblocks : ∀ b ∈ blocksOf dialect.marker template, b.IsRead dialect := h
  rw [(compile_eq dialect template).2.1, List.takeWhile_eq_self_iff.mpr fun b hb => decide_eq_true (hblocks b hb)]

theorem diagnostics_compile {dialect : Dialect} {template : Text}
    (h : ∀ b ∈ blocksOf dialect.marker template, ∀ l ∈ b.lines, l.IsRead dialect) :
    (compile dialect template).notes.diagnostics =
      ((blocksOf dialect.marker template).flatMap Block.lines).flatMap (Line.diagnostics dialect) := by
  have hlines : ∀ l ∈ (blocksOf dialect.marker template).flatMap Block.lines, l.IsRead dialect :=
    List.forall_mem_flatMap.mpr h
  rw [(compile_eq dialect template).2.2, List.takeWhile_eq_self_iff.mpr fun l hl => decide_eq_true (hlines l hl)]

/-! ## Splitting lines into blocks -/

theorem splitBlocks_cons_zero {l : Line} (hl : l.depth = 0) (rest : List Line) :
    splitBlocks (l :: rest) = ([], ⟨l, (splitBlocks rest).1⟩ :: (splitBlocks rest).2) := by
  simp [splitBlocks, hl]

theorem splitBlocks_cons_ne_zero {l : Line} (hl : l.depth ≠ 0) (rest : List Line) :
    splitBlocks (l :: rest) = (l :: (splitBlocks rest).1, (splitBlocks rest).2) := by
  simp [splitBlocks, hl]

theorem splitBlocks_append_of_nested {nested : List Line} (h : ∀ l ∈ nested, l.depth ≠ 0) (rest : List Line) :
    splitBlocks (nested ++ rest) = (nested ++ (splitBlocks rest).1, (splitBlocks rest).2) := by
  induction nested with
  | nil => rfl
  | cons l nested ih =>
      rw [List.cons_append, splitBlocks_cons_ne_zero (h l (by simp)), ih fun k hk => h k (by simp [hk])]
      rfl

theorem splitBlocks_lines (lines : List Line) :
    (splitBlocks lines).1 ++ (splitBlocks lines).2.flatMap Block.lines = lines := by
  induction lines with
  | nil => rfl
  | cons l rest ih =>
      by_cases hl : l.depth = 0
      · rw [splitBlocks_cons_zero hl, List.flatMap_cons, Block.lines, List.nil_append, List.cons_append, ih]
      · rw [splitBlocks_cons_ne_zero hl, List.cons_append, ih]

theorem mem_templateLines_of_mem_block {marker template : Text} {b : Block} (hb : b ∈ blocksOf marker template)
    {l : Line} (hl : l ∈ b.lines) : l ∈ templateLines marker template := by
  rw [← splitBlocks_lines (templateLines marker template)]
  exact List.mem_append_right _ (List.mem_flatMap.mpr ⟨b, hb, hl⟩)

theorem blocks_isRead {dialect : Dialect} {template : Text}
    (hread : ∀ l ∈ templateLines dialect.marker template, l.IsRead dialect) :
    ∀ b ∈ blocksOf dialect.marker template, ∀ l ∈ b.lines, l.IsRead dialect :=
  fun _ hb _ hl => hread _ (mem_templateLines_of_mem_block hb hl)

theorem lines_blocksOf_nodup (marker template : Text) : ((blocksOf marker template).flatMap Block.lines).Nodup := by
  have hnodup := templateLines_nodup marker template
  rw [← splitBlocks_lines (templateLines marker template)] at hnodup
  exact (List.nodup_append.mp hnodup).2.1

theorem depth_ne_zero_of_mem_orphans {lines : List Line} {l : Line} (hl : l ∈ (splitBlocks lines).1) :
    l.depth ≠ 0 := by
  induction lines with
  | nil => simp [splitBlocks] at hl
  | cons k rest ih =>
      by_cases hk : k.depth = 0
      · simp [splitBlocks_cons_zero hk] at hl
      · rw [splitBlocks_cons_ne_zero hk, List.mem_cons] at hl
        rcases hl with rfl | hl
        · exact hk
        · exact ih hl

theorem mem_blocksOf_of_depth_eq_zero {marker template : Text} {l : Line} (hl : l ∈ templateLines marker template)
    (hdepth : l.depth = 0) : l ∈ (blocksOf marker template).flatMap Block.lines := by
  rw [← splitBlocks_lines (templateLines marker template)] at hl
  rcases List.mem_append.mp hl with horphan | hl
  · exact absurd hdepth (depth_ne_zero_of_mem_orphans horphan)
  · exact hl

theorem block_depths {lines : List Line} {b : Block} (hb : b ∈ (splitBlocks lines).2) :
    b.root.depth = 0 ∧ ∀ l ∈ b.children, l.depth ≠ 0 := by
  induction lines with
  | nil => simp [splitBlocks] at hb
  | cons k rest ih =>
      by_cases hk : k.depth = 0
      · rw [splitBlocks_cons_zero hk, List.mem_cons] at hb
        rcases hb with rfl | hb
        · exact ⟨hk, fun l hl => depth_ne_zero_of_mem_orphans hl⟩
        · exact ih hb
      · rw [splitBlocks_cons_ne_zero hk] at hb
        exact ih hb

/-- Nested lines behind a template go to its last block. -/
theorem splitBlocks_append_nested {lines nested : List Line} {blocks : List Block} {b : Block}
    (hblocks : (splitBlocks lines).2 = blocks ++ [b]) (h : ∀ l ∈ nested, l.depth ≠ 0) :
    splitBlocks (lines ++ nested) = ((splitBlocks lines).1, blocks ++ [⟨b.root, b.children ++ nested⟩]) := by
  induction lines generalizing blocks with
  | nil => simp [splitBlocks] at hblocks
  | cons l rest ih =>
      rw [List.cons_append]
      by_cases hl : l.depth = 0
      · rw [splitBlocks_cons_zero hl] at hblocks ⊢
        rw [splitBlocks_cons_zero hl]
        cases blocks with
        | cons first blocks =>
            obtain ⟨rfl, hlater⟩ := List.cons.inj hblocks
            rw [ih hlater, List.cons_append]
        | nil =>
            -- the last block is the first one, so all other lines are nested
            obtain ⟨rfl, hnone⟩ := List.cons.inj hblocks
            have hrest := splitBlocks_lines rest
            rw [hnone, List.flatMap_nil, List.append_nil] at hrest
            have hnested : ∀ k ∈ rest ++ nested, k.depth ≠ 0 := by
              intro k hk
              rcases List.mem_append.mp hk with hk | hk
              · exact depth_ne_zero_of_mem_orphans (hrest.symm ▸ hk)
              · exact h k hk
            have hall := splitBlocks_append_of_nested hnested []
            rw [List.append_nil] at hall
            rw [hall, hrest]
            simp [splitBlocks]
      · rw [splitBlocks_cons_ne_zero hl] at hblocks ⊢
        rw [splitBlocks_cons_ne_zero hl, ih hblocks]

/-- A template that is re-indented and put below another one adds its lines to the last block of that one. -/
theorem exists_blocksOf_append_reindent {c : Char} (hc : ¬ isBlank c) {levels : Nat} (hlevels : levels ≠ 0)
    {host : Text} {blocks : List Block} {b : Block} (hblocks : blocksOf [c] host = blocks ++ [b]) (body : Text) :
    ∃ moved, templateLines [c] (host ++ '\n' :: reindent [c] levels body) = templateLines [c] host ++ moved ∧
      blocksOf [c] (host ++ '\n' :: reindent [c] levels body) = blocks ++ [⟨b.root, b.children ++ moved⟩] ∧
      moved.map (fun l => (l.descriptor, l.depth)) =
        (templateLines [c] body).map fun l => (l.descriptor, l.depth + levels) := by
  obtain ⟨moved, hlines, hmoved⟩ := map_templateLines_append_reindent hc levels host body
  have hnested : ∀ l ∈ moved, l.depth ≠ 0 := by
    intro l hl
    obtain ⟨k, -, -, hdepth⟩ := exists_of_mem_moved hmoved hl
    omega
  refine ⟨moved, hlines, ?_, hmoved⟩
  rw [blocksOf, hlines, splitBlocks_append_nested hblocks hnested]

/-- The lines of a template without jumps list the layouts of its blocks. -/
theorem splitBlocks_of_forest {lines : List Line} {forest : List (Rose Line)}
    (h : Rose.withDepthsAll 0 forest = lines.map fun l => (l, l.depth)) :
    (splitBlocks lines).1 = [] ∧ (splitBlocks lines).2.map Block.layout = forest := by
  induction forest using Rose.induction_forest generalizing lines with
  | nil =>
      obtain rfl := List.map_eq_nil_iff.mp h.symm
      exact ⟨rfl, rfl⟩
  | cons a cs rest _ ihrest =>
      rw [Rose.withDepthsAll_cons, eq_comm, List.map_eq_cons_iff] at h
      obtain ⟨l, below, rfl, hl, hbelow⟩ := h
      obtain ⟨rfl, hdepth⟩ := Prod.mk.inj hl
      obtain ⟨nested, later, rfl, hnested, hlater⟩ := List.map_eq_append_iff.mp hbelow
      have hne : ∀ k ∈ nested, k.depth ≠ 0 := by
        intro k hk
        have hmem : (k, k.depth) ∈ Rose.withDepthsAll (0 + 1) cs := hnested ▸ List.mem_map_of_mem hk
        have := Rose.le_of_mem_withDepthsAll hmem
        omega
      obtain ⟨horphans, hblocks⟩ := ihrest hlater.symm
      rw [splitBlocks_cons_zero hdepth, splitBlocks_append_of_nested hne, horphans, List.append_nil, List.map_cons,
        hblocks, Block.layout, hnested, Rose.assemble_withDepthsAll]
      exact ⟨rfl, rfl⟩

theorem preorder_layouts_perm (blocks : List Block) :
    ((blocks.map Block.layout).flatMap Rose.preorder).Perm (blocks.flatMap Block.lines) := by
  rw [List.flatMap_map]
  exact List.Perm.flatMap_left blocks fun b _ => preorder_layout_perm b

/-! ## Templates without jumps -/

/-- The first line is top-level, and no line is more than one level deeper than the line before it. -/
def WellNested (marker template : Text) : Prop := StepsDown 0 ((templateLines marker template).map (·.depth))

instance (marker template : Text) : Decidable (WellNested marker template) :=
  inferInstanceAs (Decidable (StepsDown 0 _))

/-- Every line is top-level or has an earlier line exactly one level above it. -/
def IsGrounded (lines : List Line) : Prop :=
  ∀ earlier l later, lines = earlier ++ l :: later → l.depth = 0 ∨ ∃ k ∈ earlier, k.depth + 1 = l.depth

theorem isGrounded_iff_supported {lines : List Line} :
    IsGrounded lines ↔ Supported (lines.map (·.depth + 1)) := by
  constructor
  · intro h front d behind heq
    obtain ⟨earlier, rest, rfl, rfl, hrest⟩ := List.map_eq_append_iff.mp heq
    obtain ⟨l, later, rfl, rfl, -⟩ := List.map_eq_cons_iff.mp hrest
    rcases h earlier l later rfl with hl | ⟨k, hk, hl⟩
    · exact ⟨0, by simp, by omega⟩
    · exact ⟨k.depth + 1, .tail _ (List.mem_map.mpr ⟨k, hk, rfl⟩), by omega⟩
  · rintro h earlier l later rfl
    obtain ⟨c, hc, hl⟩ := h (earlier.map (·.depth + 1)) (l.depth + 1) (later.map (·.depth + 1)) (by simp)
    rcases List.mem_cons.mp hc with rfl | hc
    · exact .inl (by omega)
    · obtain ⟨k, hk, rfl⟩ := List.mem_map.mp hc
      exact .inr ⟨k, hk, by omega⟩

/-- The lines are those of a forest in document order. -/
def IsNesting (forest : List (Rose Line)) (lines : List Line) : Prop :=
  Rose.withDepthsAll 0 forest = lines.map fun l => (l, l.depth)

theorem WellNested.exists_nesting {marker template : Text} (h : WellNested marker template) :
    ∃ forest, IsNesting forest (templateLines marker template) := by
  refine Rose.exists_withDepthsAll (fun e _ => Nat.zero_le e.2) ?_
  rw [List.map_map]
  exact h

theorem IsNesting.layouts {forest : List (Rose Line)} {marker template : Text}
    (h : IsNesting forest (templateLines marker template)) :
    (blocksOf marker template).map Block.layout = forest :=
  (splitBlocks_of_forest h).2

theorem IsNesting.flatMap_lines {forest : List (Rose Line)} {marker template : Text}
    (h : IsNesting forest (templateLines marker template)) :
    (blocksOf marker template).flatMap Block.lines = templateLines marker template := by
  have hlines := splitBlocks_lines (templateLines marker template)
  rwa [(splitBlocks_of_forest h).1] at hlines

/-- A template without jumps is compiled to the images of the trees that its lines list. -/
theorem IsNesting.roots_compile (dialect : Dialect) {forest : List (Rose Line)} {template : Text}
    (h : IsNesting forest (templateLines dialect.marker template))
    (hread : ∀ l ∈ templateLines dialect.marker template, l.IsRead dialect) :
    (compile dialect template).roots = forest.map (Rose.map (Line.node dialect)) := by
  rw [IndentMarkup.roots_compile dialect (blocks_isRead hread), ← h.layouts, List.map_map]
  rfl

theorem IsNesting.isRead (dialect : Dialect) {forest : List (Rose Line)} {template : Text}
    (h : IsNesting forest (templateLines dialect.marker template))
    (hcompile : (compile dialect template).fault = none) :
    ∀ l ∈ templateLines dialect.marker template, l.IsRead dialect := by
  intro l hl
  rw [← h.flatMap_lines] at hl
  obtain ⟨b, hb, hlb⟩ := List.mem_flatMap.mp hl
  exact compile_fault_eq_none_iff.mp hcompile b hb l hlb

end IndentMarkup
