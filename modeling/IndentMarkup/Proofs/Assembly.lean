import IndentMarkup.Tree.Basic
import IndentMarkup.Proofs.Attachment
import IndentMarkup.Proofs.Rose
import Mathlib.Data.List.Nodup

/-!
# The tree of a block

`Rose.assemble` carries out the attachments of a block one after another. Its result is described by what it
follows: every entry stands below the nearest earlier entry one level above it, the children of an entry keep
the order of the block, and the children of the root come by depth and then in the order of the block.

The shape of a block depends on its depths alone. It is `placesTree`, whose labels are places, with `none` for
the root, and every assembled tree is its image (`assemble_eq_map_placesTree`).
-/

namespace IndentMarkup

namespace Rose

variable {α β : Type}

/-! ## Relabelling -/

theorem map_modify (f : α → β) (c : Rose α) (parts : List (Rose α)) (p : Nat) :
    (parts.modify p (prepend c)).map (map f) = (parts.map (map f)).modify p (prepend (map f c)) := by
  refine List.ext_getElem? fun i => ?_
  by_cases h : p = i
  · subst h
    simp [Function.comp_def]
  · simp [h]

theorem attach_map (f : α → β) (state : Rose α × List (Rose α)) (attachment : Nat × Option Nat) :
    attach (map f state.1, state.2.map (map f)) attachment =
      (map f (attach state attachment).1, (attach state attachment).2.map (map f)) := by
  obtain ⟨child, parent⟩ := attachment
  simp only [attach, List.getElem?_map]
  cases state.2[child]? with
  | none => rfl
  | some c =>
      cases parent with
      | none => simp
      | some p => simp [map_modify]

theorem foldl_attach_map (f : α → β) (plan : List (Nat × Option Nat)) (state : Rose α × List (Rose α)) :
    plan.foldl attach (map f state.1, state.2.map (map f)) =
      (map f (plan.foldl attach state).1, (plan.foldl attach state).2.map (map f)) := by
  induction plan generalizing state with
  | nil => rfl
  | cons attachment rest ih => rw [List.foldl_cons, List.foldl_cons, attach_map, ih]

theorem map_assemble (f : α → β) (root : α) (entries : List (α × Nat)) :
    (assemble root entries).map f = assemble (f root) (entries.map fun e => (f e.1, e.2)) := by
  have h := foldl_attach_map f (attachments (entries.map fun e => (e.2 : Int)))
    (leaf root, entries.map fun e => leaf e.1)
  rw [assemble, assemble, List.map_map]
  simpa [Function.comp_def] using congrArg Prod.fst h.symm

/-! ## What the attachments make -/

/-- The labels that the attachments of the given places still put under a label, in their final order. -/
def pendingLabels (parent : Nat → Option Nat) (order : List Nat) (x : Option Nat) : List (Option Nat) :=
  (order.filter fun i => parent i = x).reverse.map some

theorem pendingLabels_cons (parent : Nat → Option Nat) (i : Nat) (rest : List Nat) (x : Option Nat) :
    pendingLabels parent (i :: rest) x =
      pendingLabels parent rest x ++ if parent i = x then [some i] else [] := by
  by_cases h : parent i = x <;> simp [pendingLabels, h]

theorem pendingLabels_head {parent : Nat → Option Nat} {i : Nat} {rest : List Nat}
    (h : LeavesFirst parent (i :: rest)) : pendingLabels parent (i :: rest) (some i) = [] := by
  have hnone : ∀ j ∈ i :: rest, parent j ≠ some i := by
    intro j hj hparent
    rcases List.mem_cons.mp hj with rfl | hj
    · exact h.1 (h.2.1 j hparent)
    · exact h.1 (h.2.2.parent_mem hj hparent)
  have hfilter : (i :: rest).filter (fun j => parent j = some i) = [] :=
    List.filter_eq_nil_iff.mpr fun j hj => by simpa using hnone j hj
  simp [pendingLabels, hfilter]

/-- A tree that follows a map as soon as the missing labels are put in front of the children of its root. -/
structure Unfinished (next : Option Nat → List (Option Nat)) (missing : List (Option Nat)) (x : Option Nat)
    (t : Rose (Option Nat)) : Prop where
  self_eq : t.self = x
  labels : next x = missing ++ t.children.map self
  below : ∀ c ∈ t.children, Follows next c

theorem Unfinished.follows {next : Option Nat → List (Option Nat)} {x : Option Nat} {t : Rose (Option Nat)}
    (h : Unfinished next [] x t) : Follows next t := by
  obtain ⟨a, cs⟩ := t
  obtain rfl : a = x := h.self_eq
  exact follows_node_iff.mpr ⟨h.labels.symm, h.below⟩

theorem Unfinished.prepend {next : Option Nat → List (Option Nat)} {missing : List (Option Nat)}
    {x : Option Nat} {i : Nat} {t child : Rose (Option Nat)} (h : Unfinished next (missing ++ [some i]) x t)
    (hself : child.self = some i) (hchild : Follows next child) :
    Unfinished next missing x (Rose.prepend child t) := by
  obtain ⟨a, cs⟩ := t
  refine ⟨h.self_eq, ?_, ?_⟩
  · rw [h.labels]
    simp [Rose.prepend, hself]
  · intro c hc
    rcases List.mem_cons.mp hc with rfl | hc
    · exact hchild
    · exact h.below c hc

/-- The invariant of the attachments: what is already under a label is complete, and what is missing is what
the remaining attachments put there. A place that is attached next has nothing missing. -/
theorem follows_foldl_attach {next : Option Nat → List (Option Nat)} {parent : Nat → Option Nat}
    {order : List Nat} (h : LeavesFirst parent order) {root : Rose (Option Nat)}
    {parts : List (Rose (Option Nat))} (hroot : Unfinished next (pendingLabels parent order none) none root)
    (hparts : ∀ i ∈ order, ∃ t, parts[i]? = some t ∧
      Unfinished next (pendingLabels parent order (some i)) (some i) t) :
    ((order.map fun i => (i, parent i)).foldl attach (root, parts)).1.self = none ∧
      Follows next ((order.map fun i => (i, parent i)).foldl attach (root, parts)).1 := by
  induction order generalizing root parts with
  | nil => exact ⟨hroot.self_eq, hroot.follows⟩
  | cons i rest ih =>
      obtain ⟨child, hget, hchild⟩ := hparts i (by simp)
      rw [pendingLabels_head h] at hchild
      rw [List.map_cons, List.foldl_cons, attach, hget]
      cases hp : parent i with
      | none =>
          refine ih h.2.2 ?_ fun j hj => ?_
          · rw [pendingLabels_cons, if_pos hp] at hroot
            exact hroot.prepend hchild.self_eq hchild.follows
          · obtain ⟨t, ht, hu⟩ := hparts j (by simp [hj])
            rw [pendingLabels_cons, if_neg (by simp [hp]), List.append_nil] at hu
            exact ⟨t, ht, hu⟩
      | some p =>
          refine ih h.2.2 ?_ fun j hj => ?_
          · rwa [pendingLabels_cons, if_neg (by simp [hp]), List.append_nil] at hroot
          · obtain ⟨t, ht, hu⟩ := hparts j (by simp [hj])
            by_cases hpj : p = j
            · subst hpj
              rw [pendingLabels_cons, if_pos hp] at hu
              exact ⟨Rose.prepend child t, by simp [ht], hu.prepend hchild.self_eq hchild.follows⟩
            · rw [pendingLabels_cons, if_neg (by simp [hp, hpj]), List.append_nil] at hu
              exact ⟨t, by simp [hpj, ht], hu⟩

/-! ## No label is lost -/

def partLabels (parts : List (Rose α)) (i : Nat) : List α := (parts[i]?.map preorder).getD []

theorem preorder_prepend_perm (c t : Rose α) : (prepend c t).preorder.Perm (c.preorder ++ t.preorder) := by
  cases t with
  | node a cs =>
      rw [prepend, preorder_node, preorder_node, List.flatMap_cons]
      exact List.perm_middle.symm

theorem partLabels_modify_of_ne {parts : List (Rose α)} {p i : Nat} (c : Rose α) (h : p ≠ i) :
    partLabels (parts.modify p (prepend c)) i = partLabels parts i := by
  simp [partLabels, h]

theorem partLabels_modify_self {parts : List (Rose α)} {p : Nat} (c : Rose α) (h : p < parts.length) :
    (partLabels (parts.modify p (prepend c)) p).Perm (c.preorder ++ partLabels parts p) := by
  simpa [partLabels, h] using preorder_prepend_perm c parts[p]

theorem flatMap_partLabels_modify {parts : List (Rose α)} {p : Nat} (c : Rose α) (h : p < parts.length)
    {order : List Nat} (hnodup : order.Nodup) (hp : p ∈ order) :
    (order.flatMap (partLabels (parts.modify p (prepend c)))).Perm
      (c.preorder ++ order.flatMap (partLabels parts)) := by
  obtain ⟨front, rest, rfl⟩ := List.append_of_mem hp
  have hne : ∀ i ∈ front ++ rest, p ≠ i := by
    rintro i hi rfl
    exact (List.nodup_cons.mp (List.nodup_middle.mp hnodup)).1 hi
  have hsame : ∀ l : List Nat, (∀ i ∈ l, p ≠ i) →
      l.flatMap (partLabels (parts.modify p (prepend c))) = l.flatMap (partLabels parts) :=
    fun l hl => List.flatMap_congr fun i hi => partLabels_modify_of_ne c (hl i hi)
  rw [List.flatMap_append, List.flatMap_append, List.flatMap_cons, List.flatMap_cons,
    hsame front fun i hi => hne i (by simp [hi]), hsame rest fun i hi => hne i (by simp [hi])]
  calc front.flatMap (partLabels parts) ++
        (partLabels (parts.modify p (prepend c)) p ++ rest.flatMap (partLabels parts))
      _ |>.Perm (front.flatMap (partLabels parts) ++
        (c.preorder ++ (partLabels parts p ++ rest.flatMap (partLabels parts)))) := by
          rw [← List.append_assoc c.preorder]
          exact ((partLabels_modify_self c h).append_right _).append_left _
      _ |>.Perm (c.preorder ++ (front.flatMap (partLabels parts) ++
        (partLabels parts p ++ rest.flatMap (partLabels parts)))) := List.perm_append_comm_assoc ..

theorem preorder_foldl_attach_perm {parent : Nat → Option Nat} {order : List Nat}
    (h : LeavesFirst parent order) {root : Rose α} {parts : List (Rose α)}
    (hparts : ∀ i ∈ order, i < parts.length) :
    ((order.map fun i => (i, parent i)).foldl attach (root, parts)).1.preorder.Perm
      (root.preorder ++ order.flatMap (partLabels parts)) := by
  induction order generalizing root parts with
  | nil => simp
  | cons i rest ih =>
      have hi : i < parts.length := hparts i (by simp)
      have hrest : ∀ j ∈ rest, j < parts.length := fun j hj => hparts j (by simp [hj])
      have hlabels : partLabels parts i = parts[i].preorder := by simp [partLabels, hi]
      rw [List.map_cons, List.foldl_cons, attach, List.getElem?_eq_getElem hi, List.flatMap_cons, hlabels]
      cases hp : parent i with
      | none =>
          refine (ih h.2.2 hrest).trans ?_
          rw [← List.append_assoc]
          exact ((preorder_prepend_perm _ root).trans List.perm_append_comm).append_right _
      | some p =>
          have hmem : p ∈ rest := h.2.1 p hp
          refine (ih h.2.2 (by simpa using hrest)).trans ?_
          exact (flatMap_partLabels_modify parts[i] (hrest p hmem) h.2.2.nodup hmem).append_left _

/-! ## The tree of places -/

def placesTree (depths : List Nat) : Rose (Option Nat) := assemble none (depths.mapIdx fun i d => (some i, d))

def levels (depths : List Nat) : List Int := depths.map Nat.cast

def childPlaces (depths : List Nat) (x : Option Nat) : List Nat :=
  ((attachmentPlaces (levels depths)).filter fun i => parentPlace (levels depths) i = x).reverse

def placeLabel (root : α) (labels : List α) : Option Nat → α
  | none => root
  | some i => labels.getD i root

@[simp] theorem length_levels (depths : List Nat) : (levels depths).length = depths.length := by
  simp [levels]

theorem mem_childPlaces_iff {depths : List Nat} {x : Option Nat} {i : Nat} :
    i ∈ childPlaces depths x ↔ i < depths.length ∧ parentPlace (levels depths) i = x := by
  simp [childPlaces, mem_attachmentPlaces_iff]

theorem parentPlace_levels_iff {depths : List Nat} {i j : Nat} (hi : i < depths.length) :
    parentPlace (levels depths) i = some j ↔ NearestAbove depths j i := by
  rw [parentPlace_eq_some_iff (by simpa using hi), levels, nearestAbove_cast_iff]

theorem placesTree_eq (depths : List Nat) :
    placesTree depths =
      (((attachmentPlaces (levels depths)).map fun i => (i, parentPlace (levels depths) i)).foldl attach
        (leaf none, depths.mapIdx fun i _ => leaf (some i))).1 := by
  have hdepths : ((depths.mapIdx fun i d => (some i, d)).map fun e => (e.2 : Int)) = levels depths :=
    List.ext_getElem (by simp) fun i _ _ => by simp [levels]
  have hleaves : ((depths.mapIdx fun i d => (some i, d)).map fun e => leaf e.1) =
      depths.mapIdx fun i _ => leaf (some i) :=
    List.ext_getElem (by simp) fun i _ _ => by simp
  rw [placesTree, assemble, ← attachments_eq, hdepths, hleaves]

theorem follows_placesTree (depths : List Nat) :
    (placesTree depths).self = none ∧
      Follows (fun x => (childPlaces depths x).map some) (placesTree depths) := by
  rw [placesTree_eq]
  refine follows_foldl_attach (attachmentPlaces_leavesFirst _) ⟨rfl, ?_, ?_⟩ fun i hi => ?_
  · simp [childPlaces, pendingLabels, leaf]
  · simp [leaf]
  · have hlt : i < depths.length := by simpa using mem_attachmentPlaces_iff.mp hi
    refine ⟨leaf (some i), by simp [hlt], rfl, ?_, ?_⟩
    · simp [childPlaces, pendingLabels, leaf]
    · simp [leaf]

theorem preorder_placesTree_perm (depths : List Nat) :
    (placesTree depths).preorder.Perm (none :: (List.range depths.length).map some) := by
  rw [placesTree_eq]
  have hlt : ∀ i ∈ attachmentPlaces (levels depths), i < depths.length := fun i hi => by
    simpa using mem_attachmentPlaces_iff.mp hi
  refine (preorder_foldl_attach_perm (attachmentPlaces_leavesFirst _) (by simpa using hlt)).trans ?_
  have hlabels : ∀ i ∈ attachmentPlaces (levels depths),
      partLabels (depths.mapIdx fun i _ => leaf (some i)) i = [some i] := fun i hi => by
    simp [partLabels, hlt i hi, leaf]
  rw [List.flatMap_congr hlabels, ← List.map_eq_flatMap]
  simpa [leaf] using (attachmentPlaces_perm (levels depths)).map some

/-- Every assembled tree is the image of the tree of its places. -/
theorem assemble_eq_map_placesTree (root : α) (entries : List (α × Nat)) :
    assemble root entries =
      (placesTree (entries.map Prod.snd)).map (placeLabel root (entries.map Prod.fst)) := by
  rw [placesTree, map_assemble]
  congr 1
  refine List.ext_getElem (by simp) fun i hi _ => ?_
  simp [placeLabel, hi]

end Rose

end IndentMarkup
