import IndentMarkup.Proofs.Assembly

/-!
# What the tree of a block is

`IsBlockTree root entries t` says all there is to say about the tree of a block whose entries may jump over
levels. `assemble_isBlockTree` is the main result: taking the deepest entry out of a shrinking list and putting
it in front of the children of its parent makes exactly this tree. The labels of a block are pairwise
different, so a label stands for a node as an object. What the nodes look like changes nothing.
-/

namespace IndentMarkup

namespace Rose

variable {α β : Type}

/-- One entry of a block comes before another by its depth, and at the same depth by its place. -/
def DepthBefore (entries : List (α × Nat)) (x y : α) : Prop :=
  ∃ (i j d e : Nat), entries[i]? = some (x, d) ∧ entries[j]? = some (y, e) ∧ (d < e ∨ d = e ∧ i < j)

/-- The tree of a block of entries with depths. -/
structure IsBlockTree (root : α) (entries : List (α × Nat)) (t : Rose α) : Prop where
  self_eq : t.self = root
  /-- Every entry is in the tree exactly once. -/
  preorder_perm : t.preorder.Perm (root :: entries.map Prod.fst)
  /-- The parent of an entry is the nearest earlier entry one level above it. -/
  isChild_iff : ∀ (i j : Nat) (x y : α) (d e : Nat), entries[i]? = some (x, d) → entries[j]? = some (y, e) →
    (t.IsChild y x ↔ NearestAbove (entries.map Prod.snd) j i)
  /-- An entry hangs under the root when there is no such entry. -/
  isChild_root_iff : ∀ (i : Nat) (x : α) (d : Nat), entries[i]? = some (x, d) →
    (t.IsChild root x ↔ ∀ j, ¬ NearestAbove (entries.map Prod.snd) j i)
  /-- The children of an entry keep the order of the block. -/
  children_sublist : ∀ s ∈ t.subtrees, s.self ≠ root → (s.children.map self).Sublist (entries.map Prod.fst)
  /-- The children of the root come by depth, and at the same depth in the order of the block. -/
  children_root : (t.children.map self).Pairwise (DepthBefore entries)

/-! ## The order of siblings -/

theorem getD_levels (depths : List Nat) (i : Nat) : (levels depths).getD i 0 = (depths.getD i 0 : Nat) := by
  simp only [levels, List.getD_eq_getElem?_getD, List.getElem?_map]
  cases depths[i]? <;> rfl

/-- Siblings below an entry are at one depth, so they come in the order of the block. -/
theorem childPlaces_some_pairwise (depths : List Nat) (j : Nat) :
    (childPlaces depths (some j)).Pairwise (· < ·) := by
  rw [childPlaces, List.pairwise_reverse]
  refine ((attachmentPlaces_pairwise (levels depths)).filter _).imp_of_mem fun {i k} hi hk h => ?_
  simp only [List.mem_filter, mem_attachmentPlaces_iff, decide_eq_true_eq] at hi hk
  obtain ⟨-, d, hj, hid, -⟩ := (parentPlace_eq_some_iff hi.1).mp hi.2
  obtain ⟨-, e, hj', hke, -⟩ := (parentPlace_eq_some_iff hk.1).mp hk.2
  obtain rfl : d = e := by simpa [hj] using hj'
  simpa [List.getD_eq_getElem?_getD, hid, hke] using h

theorem childPlaces_some_eq (depths : List Nat) (j : Nat) :
    childPlaces depths (some j) =
      (List.range depths.length).filter fun i => parentPlace (levels depths) i = some j := by
  have hperm : (childPlaces depths (some j)).Perm
      ((List.range depths.length).filter fun i => parentPlace (levels depths) i = some j) := by
    rw [childPlaces]
    exact (List.reverse_perm _).trans
      (((attachmentPlaces_perm (levels depths)).trans (by rw [length_levels])).filter _)
  refine hperm.eq_of_pairwise (fun a b _ _ hab hba => ?_) (childPlaces_some_pairwise depths j)
    (List.pairwise_lt_range.filter _)
  omega

/-- The entries under the root come by depth and then in the order of the block. -/
theorem childPlaces_none_pairwise {depths : List Nat} (hone : ∀ d ∈ depths, 1 ≤ d) :
    (childPlaces depths none).Pairwise fun i k =>
      depths.getD i 0 < depths.getD k 0 ∨ depths.getD i 0 = depths.getD k 0 ∧ i < k := by
  have hlevels : ∀ d ∈ levels depths, 1 ≤ d := by
    intro d hd
    obtain ⟨e, he, rfl⟩ := List.mem_map.mp hd
    have := hone e he
    omega
  rw [childPlaces, List.pairwise_reverse]
  have horder := (attachmentPlaces_pairwise (levels depths)).and (attachmentPlaces_pairwise_depth hlevels)
  refine (horder.filter _).imp fun {i k} h => ?_
  simp only [getD_levels] at h
  omega

/-! ## The main result -/

theorem placeLabel_some {root : α} {entries : List (α × Nat)} {i : Nat} {x : α} {d : Nat}
    (h : entries[i]? = some (x, d)) : placeLabel root (entries.map Prod.fst) (some i) = x := by
  simp [placeLabel, List.getD_eq_getElem?_getD, h]

theorem placeLabel_inj {root : α} {labels : List α} (hdistinct : (root :: labels).Nodup) {x y : Option Nat}
    (hx : ∀ i, x = some i → i < labels.length) (hy : ∀ i, y = some i → i < labels.length)
    (h : placeLabel root labels x = placeLabel root labels y) : x = y := by
  obtain ⟨hroot, hlabels⟩ := List.nodup_cons.mp hdistinct
  have hne : ∀ i, i < labels.length → labels.getD i root ≠ root := by
    intro i hi heq
    rw [← List.getElem_eq_getD (h := hi)] at heq
    exact hroot (heq ▸ List.getElem_mem hi)
  cases x with
  | none =>
      cases y with
      | none => rfl
      | some j => exact absurd h.symm (hne j (hy j rfl))
  | some i =>
      cases y with
      | none => exact absurd h (hne i (hx i rfl))
      | some j =>
          have hi := hx i rfl
          have hj := hy j rfl
          simp only [placeLabel, ← List.getElem_eq_getD (h := hi), ← List.getElem_eq_getD (h := hj)] at h
          rw [(List.Nodup.getElem_inj_iff hlabels).mp h]

theorem lt_of_mem_preorder_placesTree {depths : List Nat} {x : Option Nat}
    (hx : x ∈ (placesTree depths).preorder) : ∀ i, x = some i → i < depths.length := by
  rintro i rfl
  simpa using (preorder_placesTree_perm depths).mem_iff.mp hx

theorem isChild_assemble_iff {root : α} {entries : List (α × Nat)}
    (hdistinct : (root :: entries.map Prod.fst).Nodup) {x : Option Nat} {i : Nat} {a b : α} {d : Nat}
    (hx : ∀ j, x = some j → j < entries.length) (ha : placeLabel root (entries.map Prod.fst) x = a)
    (hb : entries[i]? = some (b, d)) :
    (assemble root entries).IsChild a b ↔ parentPlace (levels (entries.map Prod.snd)) i = x := by
  have hfollows := (follows_placesTree (entries.map Prod.snd)).2
  have hi : i < entries.length := (List.getElem?_eq_some_iff.mp hb).1
  rw [assemble_eq_map_placesTree, isChild_map_iff]
  constructor
  · rintro ⟨y, _, hchild, hya, hkb⟩
    rw [hfollows.isChild_iff, List.mem_map] at hchild
    obtain ⟨hy, k, hk, rfl⟩ := hchild
    rw [mem_childPlaces_iff] at hk
    rw [← ha] at hya
    have hlabel : placeLabel root (entries.map Prod.fst) (some i) = b := placeLabel_some hb
    rw [← hlabel] at hkb
    have hyx := placeLabel_inj hdistinct (by simpa using lt_of_mem_preorder_placesTree hy) (by simpa using hx) hya
    have hki := placeLabel_inj hdistinct (by simpa using hk.1) (by simpa using hi) hkb
    rw [← hyx, ← hk.2, Option.some.inj hki]
  · intro hparent
    refine ⟨x, some i, hfollows.isChild_iff.mpr ⟨?_, ?_⟩, ha, placeLabel_some hb⟩
    · rw [(preorder_placesTree_perm _).mem_iff]
      cases x with
      | none => simp
      | some j => simpa using hx j rfl
    · exact List.mem_map_of_mem (mem_childPlaces_iff.mpr ⟨by simpa using hi, hparent⟩)

theorem children_map_placesTree {depths : List Nat} {s : Rose (Option Nat)}
    (hs : s ∈ (placesTree depths).subtrees) (f : Option Nat → α) :
    (s.map f).children.map self = (childPlaces depths s.self).map fun i => f (some i) := by
  have hmap : (s.map f).children.map self = (s.children.map self).map f := by
    simp [Function.comp_def]
  rw [hmap, ((follows_placesTree depths).2.subtree hs).labels, List.map_map]
  rfl

theorem map_range_placeLabel (root : α) (labels : List α) :
    ((List.range labels.length).map fun i => placeLabel root labels (some i)) = labels :=
  List.ext_getElem (by simp) fun i _ hi => by simp [placeLabel, hi]

theorem self_assemble (root : α) (entries : List (α × Nat)) : (assemble root entries).self = root := by
  rw [assemble_eq_map_placesTree, self_map, (follows_placesTree _).1, placeLabel]

theorem preorder_assemble_perm (root : α) (entries : List (α × Nat)) :
    (assemble root entries).preorder.Perm (root :: entries.map Prod.fst) := by
  have hlabels := map_range_placeLabel root (entries.map Prod.fst)
  rw [assemble_eq_map_placesTree, preorder_map]
  refine ((preorder_placesTree_perm _).map _).trans ?_
  rw [List.map_cons, List.map_map, List.length_map]
  rw [List.length_map] at hlabels
  exact (List.Perm.of_eq hlabels).cons root

theorem children_assemble_sublist {root : α} {entries : List (α × Nat)} {s : Rose α}
    (hs : s ∈ (assemble root entries).subtrees) (hself : s.self ≠ root) :
    (s.children.map self).Sublist (entries.map Prod.fst) := by
  rw [assemble_eq_map_placesTree, subtrees_map] at hs
  obtain ⟨u, hu, rfl⟩ := List.mem_map.mp hs
  rw [children_map_placesTree hu]
  cases hx : u.self with
  | none => exact absurd (by rw [self_map, hx, placeLabel]) hself
  | some j =>
      rw [childPlaces_some_eq]
      have hlabels := map_range_placeLabel root (entries.map Prod.fst)
      rw [List.length_map] at hlabels ⊢
      have hsub := (List.filter_sublist (l := List.range entries.length)
        (p := fun i => parentPlace (levels (entries.map Prod.snd)) i = some j)).map
        fun i => placeLabel root (entries.map Prod.fst) (some i)
      rwa [hlabels] at hsub

theorem children_assemble_root {root : α} {entries : List (α × Nat)} (nested : ∀ e ∈ entries, 1 ≤ e.2) :
    ((assemble root entries).children.map self).Pairwise (DepthBefore entries) := by
  have hone : ∀ d ∈ entries.map Prod.snd, 1 ≤ d := by
    intro d hd
    obtain ⟨e, he, rfl⟩ := List.mem_map.mp hd
    exact nested e he
  rw [assemble_eq_map_placesTree, children_map_placesTree (mem_subtrees_self _), (follows_placesTree _).1,
    List.pairwise_map]
  refine (childPlaces_none_pairwise hone).imp_of_mem fun {i k} hi hk h => ?_
  have hil : i < entries.length := by simpa using (mem_childPlaces_iff.mp hi).1
  have hkl : k < entries.length := by simpa using (mem_childPlaces_iff.mp hk).1
  refine ⟨i, k, entries[i].2, entries[k].2, ?_, ?_, ?_⟩
  · simp [placeLabel, hil]
  · simp [placeLabel, hkl]
  · simpa [hil, hkl] using h

/-- The tree that a block is assembled to holds every entry once, below the nearest earlier entry one level
above it, and in the order of the block. The same block with other contents has the same shape. -/
theorem assemble_isBlockTree (root : α) (entries : List (α × Nat))
    (distinct : (root :: entries.map Prod.fst).Nodup) (nested : ∀ e ∈ entries, 1 ≤ e.2) :
    IsBlockTree root entries (assemble root entries) ∧
      ∀ content : α → Node,
        assemble (content root) (entries.map fun e => (content e.1, e.2)) =
          (assemble root entries).map content := by
  refine ⟨⟨self_assemble root entries, preorder_assemble_perm root entries, ?_, ?_,
    fun s hs => children_assemble_sublist hs, children_assemble_root nested⟩,
    fun content => (map_assemble content root entries).symm⟩
  · intro i j x y d e hx hy
    have hi : i < entries.length := (List.getElem?_eq_some_iff.mp hx).1
    have hj : j < entries.length := (List.getElem?_eq_some_iff.mp hy).1
    have hj' : ∀ k, some j = some k → k < entries.length := by simpa using hj
    rw [isChild_assemble_iff distinct hj' (placeLabel_some hy) hx, parentPlace_levels_iff (by simpa using hi)]
  · intro i x d hx
    have hi : i < entries.length := (List.getElem?_eq_some_iff.mp hx).1
    have hnone : ∀ k, none = some k → k < entries.length := by simp
    rw [isChild_assemble_iff distinct hnone (a := root) rfl hx, Option.eq_none_iff_forall_ne_some]
    exact forall_congr' fun j => not_congr (parentPlace_levels_iff (by simpa using hi))

/-- A block that jumps over levels: the third entry has no entry one level above it, the fifth one does. -/
theorem assemble_isBlockTree_jumps :
    ((0 :: [(1, 1), (2, 2), (3, 4), (4, 1), (5, 3)].map Prod.fst).Nodup ∧
      ∀ e ∈ [(1, 1), (2, 2), (3, 4), (4, 1), (5, 3)], 1 ≤ e.2) ∧
    IsBlockTree 0 [(1, 1), (2, 2), (3, 4), (4, 1), (5, 3)]
      (assemble 0 [(1, 1), (2, 2), (3, 4), (4, 1), (5, 3)]) :=
  ⟨⟨by decide, by decide⟩, (assemble_isBlockTree 0 _ (by decide) (by decide)).1⟩

end Rose

end IndentMarkup
