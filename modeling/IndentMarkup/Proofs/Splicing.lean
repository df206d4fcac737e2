import IndentMarkup.Proofs.Compilation
import IndentMarkup.Proofs.Mounting

/-!
# Splicing one template into another

A template that is re-indented by `n` levels and put below another one becomes part of the last block of that
one. If both are well nested, it is put, as it is, behind the children of the last line at level `n - 1`
(`compile_append_reindent`). No line of it looks for its parent above that line, although lines of the host that
are less deep may stand in between.
-/

namespace IndentMarkup

/-! ## Lines that are moved -/

/-- Lines with the descriptors of other lines, all so many levels deeper, list the same forest of descriptors. -/
theorem exists_moved_forest {levels : Nat} {moved lines : List Line} {forest : List (Rose Line)}
    (hforest : IsNesting forest lines)
    (hmoved : moved.map (fun l => (l.descriptor, l.depth)) = lines.map fun l => (l.descriptor, l.depth + levels)) :
    ∃ ts, Rose.withDepthsAll levels ts = moved.map (fun l => (l, l.depth)) ∧
      ts.map (Rose.map Line.descriptor) = forest.map (Rose.map Line.descriptor) := by
  have hshift : moved.map (fun l => (l.descriptor, l.depth)) =
      Rose.withDepthsAll (0 + levels) (forest.map (Rose.map Line.descriptor)) := by
    rw [Rose.withDepthsAll_shift, Rose.withDepthsAll_map, hforest, hmoved, List.map_map, List.map_map]
    rfl
  have hdepths : (moved.map fun l => (l, l.depth)).map Prod.snd =
      (Rose.withDepthsAll levels (forest.map (Rose.map Line.descriptor))).map Prod.snd := by
    rw [Nat.zero_add] at hshift
    rw [← hshift, List.map_map, List.map_map]
    rfl
  have hle : ∀ e ∈ moved.map fun l => (l, l.depth), levels ≤ e.2 := by
    intro e he
    have hmem : e.2 ∈ (Rose.withDepthsAll levels (forest.map (Rose.map Line.descriptor))).map Prod.snd :=
      hdepths ▸ List.mem_map_of_mem he
    obtain ⟨e', he', heq⟩ := List.mem_map.mp hmem
    exact heq ▸ Rose.le_of_mem_withDepthsAll he'
  obtain ⟨ts, hts⟩ := Rose.exists_withDepthsAll hle (hdepths ▸ Rose.stepsDown_withDepthsAll levels _)
  refine ⟨ts, hts, Rose.withDepthsAll_inj levels ?_⟩
  rw [Rose.withDepthsAll_map, hts, List.map_map]
  rw [Nat.zero_add] at hshift
  exact hshift

theorem map_node_of_map_descriptor (dialect : Dialect) {ts us : List (Rose Line)}
    (h : ts.map (Rose.map Line.descriptor) = us.map (Rose.map Line.descriptor)) :
    ts.map (Rose.map (Line.node dialect)) = us.map (Rose.map (Line.node dialect)) := by
  have hfactor : ∀ vs : List (Rose Line), vs.map (Rose.map (Line.node dialect)) =
      (vs.map (Rose.map Line.descriptor)).map (Rose.map (descriptorNode dialect)) := by
    intro vs
    rw [List.map_map]
    exact List.map_congr_left fun t _ => (Rose.map_map _ _ t).symm
  rw [hfactor, hfactor us, h]

/-! ## The last line at a level -/

theorem exists_split_of_getLast?_filter {α : Type} {p : α → Bool} {l : List α} {x : α}
    (h : (l.filter p).getLast? = some x) :
    ∃ front behind, l = front ++ x :: behind ∧ p x ∧ ∀ y ∈ behind, ¬ p y := by
  obtain ⟨passed, hpassed⟩ := List.getLast?_eq_some_iff.mp h
  obtain ⟨front, rest, rfl, -, hrest⟩ := List.filter_eq_append_iff.mp hpassed
  obtain ⟨front', behind, rfl, -, hx, hbehind⟩ := List.filter_eq_cons_iff.mp hrest
  exact ⟨front ++ front', behind, by simp, hx, List.filter_eq_nil_iff.mp hbehind⟩

theorem Block.isLastAt {b : Block} {d : Nat} {target : Line} (hroot : b.root.depth = 0)
    (h : (b.lines.filter fun l => l.depth = d).getLast? = some target) :
    Rose.IsLastAt b.root (b.children.map fun l => (l, l.depth)) d target := by
  obtain ⟨front, behind, hlines, hdepth, hbehind⟩ := exists_split_of_getLast?_filter h
  refine ⟨front.map fun l => (l, l.depth), behind.map fun l => (l, l.depth), ?_, ?_⟩
  · have hmap := congrArg (List.map fun l : Line => (l, l.depth)) hlines
    rw [Block.lines, List.map_cons, hroot, List.map_append, List.map_cons, of_decide_eq_true hdepth] at hmap
    exact hmap
  · intro e he
    obtain ⟨l, hl, rfl⟩ := List.mem_map.mp he
    simpa using hbehind l hl

/-! ## The last block -/

theorem lines_last_block {forest : List (Rose Line)} {marker host : Text} {blocks : List Block} {b : Block}
    (hhost : IsNesting forest (templateLines marker host)) (hblocks : blocksOf marker host = blocks ++ [b]) :
    templateLines marker host = blocks.flatMap Block.lines ++ b.root :: b.children := by
  rw [← hhost.flatMap_lines, hblocks, List.flatMap_append, List.flatMap_singleton, Block.lines]

theorem supported_last_block {forest : List (Rose Line)} {marker host : Text} {blocks : List Block} {b : Block}
    (hhost : IsNesting forest (templateLines marker host)) (hblocks : blocksOf marker host = blocks ++ [b]) :
    Supported (b.children.map (·.depth)) := by
  have hb : b ∈ (splitBlocks (templateLines marker host)).2 := by
    rw [← blocksOf, hblocks]
    simp
  obtain ⟨hroot, hchildren⟩ := block_depths hb
  have hsteps := Rose.stepsDown_withDepthsAll 0 forest
  rw [hhost, List.map_map, lines_last_block hhost hblocks, List.map_append, List.map_cons] at hsteps
  have hbelow := hsteps.right
  simp only [Function.comp, hroot, Nat.zero_add] at hbelow
  refine supported_of_stepsDown (fun d hd => ?_) hbelow
  obtain ⟨l, hl, rfl⟩ := List.mem_map.mp hd
  exact Nat.one_le_iff_ne_zero.mpr (hchildren l hl)

/-- The forest of the lines that are put behind a block whose entries find their parents. -/
theorem layout_append {b : Block} {moved : List Line} {levels : Nat} {target : Line} {ts : List (Rose Line)}
    (hdistinct : (b.root :: (b.children ++ moved)).Nodup) (hsupported : Supported (b.children.map (·.depth)))
    (hlast : Rose.IsLastAt b.root (b.children.map fun l => (l, l.depth)) levels target)
    (hts : Rose.withDepthsAll (levels + 1) ts = moved.map fun l => (l, l.depth)) :
    (Block.mk b.root (b.children ++ moved)).layout = b.layout.extend id (Rose.under target ts) := by
  have hentries : b.children.map (fun l => (l, l.depth)) ++ Rose.withDepthsAll (levels + 1) ts =
      (b.children ++ moved).map fun l => (l, l.depth) := by
    rw [hts, List.map_append]
  have hlabels : ((b.children ++ moved).map fun l => (l, l.depth)).map Prod.fst = b.children ++ moved := by
    rw [List.map_map]
    exact List.map_id _
  rw [← hlabels, ← hentries] at hdistinct
  have hgraft := (Rose.assemble_append_withDepthsAll hdistinct (by rwa [List.map_map]) hlast).2
  rw [hentries] at hgraft
  exact hgraft

/-- Nothing is put into the trees of the blocks that do not have the line. -/
theorem map_layout_eq_extend {α : Type} (f : Line → α) {blocks : List Block} {later : List Line}
    (hdistinct : (blocks.flatMap Block.lines ++ later).Nodup) {target : Line} (htarget : target ∈ later)
    (more : List (Rose α)) : ∀ k ∈ blocks, k.layout.map f = k.layout.extend f (Rose.under target more) := by
  intro k hk
  refine (Rose.extend_under_eq_map fun hmem => ?_).symm
  have hfront : target ∈ blocks.flatMap Block.lines :=
    List.mem_flatMap.mpr ⟨k, hk, (preorder_layout_perm k).mem_iff.mp hmem⟩
  exact (List.nodup_append.mp hdistinct).2.2 target hfront target htarget rfl

/-! ## The main result -/

/-- Compiling a well nested template below another one, re-indented: only the tree of the last block is changed,
and in it only the children of the last line one level above. -/
theorem compile_append_reindent_of_nesting (dialect : Dialect) {c : Char} (hmarker : dialect.marker = [c])
    (hc : ¬ isBlank c) {host body : Text} {levels : Nat} {hostForest bodyForest : List (Rose Line)}
    (hhost : IsNesting hostForest (templateLines dialect.marker host))
    (hbody : IsNesting bodyForest (templateLines dialect.marker body))
    (hhostRead : ∀ l ∈ templateLines dialect.marker host, l.IsRead dialect)
    (hbodyRead : ∀ l ∈ templateLines dialect.marker body, l.IsRead dialect) {blocks : List Block} {b : Block}
    (hblocks : blocksOf dialect.marker host = blocks ++ [b]) {target : Line}
    (htarget : (b.lines.filter fun l => l.depth = levels).getLast? = some target) :
    (compile dialect (host ++ '\n' :: reindent dialect.marker (levels + 1) body)).fault = none ∧
      (compile dialect (host ++ '\n' :: reindent dialect.marker (levels + 1) body)).roots =
        hostForest.map (Rose.extend (Line.node dialect)
          (Rose.under target (bodyForest.map (Rose.map (Line.node dialect))))) := by
  obtain ⟨spliced, hspliced⟩ : ∃ s, s = host ++ '\n' :: reindent dialect.marker (levels + 1) body := ⟨_, rfl⟩
  rw [hmarker] at hblocks
  obtain ⟨moved, hlines, hsplicedBlocks, hmoved⟩ :=
    exists_blocksOf_append_reindent hc (Nat.succ_ne_zero levels) hblocks body
  rw [← hmarker] at hblocks hmoved
  rw [← hmarker, ← hspliced] at hlines hsplicedBlocks
  rw [← hspliced]
  have hread : ∀ l ∈ templateLines dialect.marker spliced, l.IsRead dialect := by
    intro l hl
    rw [hlines] at hl
    rcases List.mem_append.mp hl with hl | hl
    · exact hhostRead l hl
    · obtain ⟨k, hk, hdescriptor, -⟩ := exists_of_mem_moved hmoved hl
      exact (Line.isRead_congr hdescriptor).mp (hbodyRead k hk)
  refine ⟨compile_fault_eq_none_iff.mpr (blocks_isRead hread), ?_⟩
  have hhostLines := lines_last_block hhost hblocks
  have hnodup : (blocks.flatMap Block.lines ++ b.root :: (b.children ++ moved)).Nodup := by
    have h := templateLines_nodup dialect.marker spliced
    rwa [hlines, hhostLines, List.append_assoc, List.cons_append] at h
  obtain ⟨ts, hts, hdescriptors⟩ := exists_moved_forest hbody hmoved
  have hlast : (Block.mk b.root (b.children ++ moved)).layout = b.layout.extend id (Rose.under target ts) :=
    layout_append (List.nodup_append.mp hnodup).2.1 (supported_last_block hhost hblocks)
      (Block.isLastAt (block_depths (by rw [← blocksOf, hblocks]; simp)).1 htarget) hts
  have htrees : ts.map (Rose.map (Line.node dialect)) = bodyForest.map (Rose.map (Line.node dialect)) :=
    map_node_of_map_descriptor dialect hdescriptors
  have htargetBlock : target ∈ b.root :: (b.children ++ moved) :=
    List.mem_append_left moved (List.mem_filter.mp (List.mem_of_getLast? htarget)).1
  have hearlier := map_layout_eq_extend (Line.node dialect) hnodup htargetBlock
    (bodyForest.map (Rose.map (Line.node dialect)))
  rw [roots_compile dialect (blocks_isRead hread), hsplicedBlocks, ← hhost.layouts, hblocks, List.map_map,
    List.map_append, List.map_append, List.map_congr_left hearlier, List.map_singleton, List.map_singleton, hlast,
    Rose.map_extend, Function.comp, Rose.map_under, htrees]
  rfl

theorem exists_of_checkMarker {marker : Text} (h : checkMarker marker = .ok marker) :
    ∃ c, marker = [c] ∧ ¬ isBlank c := by
  match marker, h with
  | [], h => simp [checkMarker] at h
  | [c], h =>
      refine ⟨c, rfl, fun hblank => ?_⟩
      simp [checkMarker, hblank] at h
  | _ :: _ :: _, h => simp [checkMarker] at h

namespace Builder

/-- Splicing is nesting. A well nested template that is re-indented by `n` levels and put below a well nested
host, whose last block has a line at level `n - 1`, is compiled to the forest of the host in which one node has
further children: the node of the last line at level `n - 1` has, behind its own children, the trees of the
template, as they are. -/
theorem compile_append_reindent (b : Builder) (hmarker : checkMarker b.marker = .ok b.marker) (d d₁ d₂ : Document)
    (hd : b.container < d.size) (hd₁ : b.container < d₁.size) (hd₂ : b.container < d₂.size) (host body : Text)
    (n : Nat) (hhost : WellNested b.marker host) (hbody : WellNested b.marker body)
    (hlevel : ∃ block, (blocksOf b.marker host).getLast? = some block ∧ ∃ l ∈ block.lines, l.depth + 1 = n)
    (hhostCompiles : (b.compile d host).fault = none) (hbodyCompiles : (b.compile d₁ body).fault = none) :
    ∃ (fragment : Text) (forest : List (Rose Line)) (target : Line),
      b.reindent body n = .ok fragment ∧
      IsNesting forest (templateLines b.marker host) ∧
      ((templateLines b.marker host).filter fun l => l.depth + 1 = n).getLast? = some target ∧
      (b.compile d host).trees = forest.map (Rose.map (Line.node b.dialect)) ∧
      (b.compile d₂ (host ++ '\n' :: fragment)).fault = none ∧
      (b.compile d₂ (host ++ '\n' :: fragment)).trees =
        forest.map (Rose.extend (Line.node b.dialect) (Rose.under target (b.compile d₁ body).trees)) := by
  obtain ⟨c, hc, hvisible⟩ := exists_of_checkMarker hmarker
  obtain ⟨forest, hforest⟩ := hhost.exists_nesting
  obtain ⟨bodyForest, hbodyForest⟩ := hbody.exists_nesting
  obtain ⟨block, hlast, l, hl, rfl⟩ := hlevel
  obtain ⟨blocks, hblocks⟩ := List.getLast?_eq_some_iff.mp hlast
  -- the last block has a last line at this level, which is the last one of the host
  have hne : block.lines.filter (fun k => k.depth = l.depth) ≠ [] :=
    List.ne_nil_of_mem (List.mem_filter.mpr ⟨hl, by simp⟩)
  obtain ⟨target, htarget⟩ : ∃ t, (block.lines.filter fun k => k.depth = l.depth).getLast? = some t :=
    ⟨_, List.getLast?_eq_getLast_of_ne_nil hne⟩
  have hhostTarget : ((templateLines b.marker host).filter fun k => k.depth + 1 = l.depth + 1).getLast? =
      some target := by
    simp only [Nat.add_right_cancel_iff]
    rw [lines_last_block hforest hblocks, List.filter_append, ← Block.lines,
      List.getLast?_append_of_ne_nil _ hne, htarget]
  have hhostRead := IsNesting.isRead b.dialect hforest hhostCompiles
  have hbodyRead := IsNesting.isRead b.dialect hbodyForest hbodyCompiles
  have hspliced := compile_append_reindent_of_nesting b.dialect hc hvisible hforest hbodyForest
    hhostRead hbodyRead hblocks htarget
  refine ⟨_, forest, target, if_neg (by omega), hforest, hhostTarget, ?_, hspliced.1, ?_⟩
  · rw [b.trees_compile d host hd]
    exact IsNesting.roots_compile b.dialect hforest hhostRead
  · rw [b.trees_compile d₁ body hd₁, b.trees_compile d₂ _ hd₂,
      IsNesting.roots_compile b.dialect hbodyForest hbodyRead]
    exact hspliced.2

/-- The fragment goes below `b`, although the less deep line of `i` stands between them. -/
theorem compile_append_reindent_past_sibling :
    ∃ (fragment : Text) (forest : List (Rose Line)) (target : Line),
      (new 0 Node.ofTag).reindent "x\n>y".toList (3 : Nat) = .ok fragment ∧
      IsNesting forest (templateLines defaultMarker "u\n>v\n>>b\n>i".toList) ∧
      ((templateLines defaultMarker "u\n>v\n>>b\n>i".toList).filter fun l => l.depth + 1 = 3).getLast? =
        some target ∧
      ((new 0 Node.ofTag).compile ⟨[default]⟩ "u\n>v\n>>b\n>i".toList).trees =
        forest.map (Rose.map (Line.node (new 0 Node.ofTag).dialect)) ∧
      ((new 0 Node.ofTag).compile ⟨[default]⟩ ("u\n>v\n>>b\n>i".toList ++ '\n' :: fragment)).fault = none ∧
      ((new 0 Node.ofTag).compile ⟨[default]⟩ ("u\n>v\n>>b\n>i".toList ++ '\n' :: fragment)).trees =
        forest.map (Rose.extend (Line.node (new 0 Node.ofTag).dialect)
          (Rose.under target ((new 0 Node.ofTag).compile ⟨[default]⟩ "x\n>y".toList).trees)) :=
  compile_append_reindent (new 0 Node.ofTag) (by rfl) ⟨[default]⟩ ⟨[default]⟩ ⟨[default]⟩ (by decide) (by decide)
    (by decide) "u\n>v\n>>b\n>i".toList "x\n>y".toList 3 (by decide +kernel) (by decide +kernel)
    ⟨⟨⟨1, 0, ['u'], ['u']⟩, [⟨2, 1, ['>', 'v'], ['v']⟩, ⟨3, 2, ['>', '>', 'b'], ['b']⟩, ⟨4, 1, ['>', 'i'], ['i']⟩]⟩,
      by decide +kernel, ⟨3, 2, ['>', '>', 'b'], ['b']⟩, by decide +kernel, rfl⟩
    (by decide +kernel) (by decide +kernel)

end Builder

end IndentMarkup
