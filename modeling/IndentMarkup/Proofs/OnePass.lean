import IndentMarkup.Proofs.Attachment
import Mathlib.Data.List.Induction
import Mathlib.Logic.Function.Basic

/-!
# Parents in a single pass

The attachments of a block search a list of entries that gets shorter, and once the greatest depth is one they do not
even take the deepest entry. The parents can also be found in a single pass over the depths, which only remembers where
it saw each depth last (`LinkPass`). Both ways give the same parents, whatever the depths are (`attachments_onePass`):
the pass knows the last place of each depth among the entries it has seen (`LinkPass.HasPassed`), and the attachments
find the same place because no entry is taken out while it is still looked for (`attachments_eq`).
-/

namespace IndentMarkup

/-! ## The last place of a depth -/

def lastPlace (depths : List Int) (depth : Int) : Option Nat :=
  (((pendingFrom 0 depths).filter fun p => p.depth == depth).getLast?).map (·.index)

theorem pendingFrom_append (start : Nat) (front rest : List Int) :
    pendingFrom start (front ++ rest) = pendingFrom start front ++ pendingFrom (start + front.length) rest := by
  induction front generalizing start with
  | nil => rfl
  | cons d front ih =>
      rw [List.cons_append, pendingFrom, pendingFrom, ih, List.cons_append, List.length_cons, Nat.add_right_comm,
        ← Nat.add_assoc]

theorem pendingFrom_concat (depths : List Int) (d : Int) :
    pendingFrom 0 (depths ++ [d]) = pendingFrom 0 depths ++ [⟨depths.length, d⟩] := by
  rw [pendingFrom_append, pendingFrom, pendingFrom, Nat.zero_add]

theorem lastPlace_concat (depths : List Int) (d depth : Int) :
    lastPlace (depths ++ [d]) depth = if depth = d then some depths.length else lastPlace depths depth := by
  rw [lastPlace, lastPlace, pendingFrom_concat, List.filter_append]
  split
  · next h => rw [List.filter_cons_of_pos (by simp [h]), List.filter_nil, List.getLast?_concat, Option.map_some]
  · next h => rw [List.filter_cons_of_neg (by simpa using Ne.symm h), List.filter_nil, List.append_nil]

theorem parentPlace_concat_self (depths : List Int) (d : Int) :
    parentPlace (depths ++ [d]) depths.length = lastPlace depths (d - 1) := by
  have hsorted := pendingFrom_pairwise 0 (depths ++ [d])
  rw [pendingFrom_concat] at hsorted
  have hdepth : (depths ++ [d]).getD depths.length 0 = d := by simp
  rw [parentPlace, hdepth, pendingFrom_concat, linkIn_chosen hsorted, lastPlace]

/-! ## The parents of a block -/

def parentPlaces (depths : List Int) : List (Option Nat) := (List.range depths.length).map (parentPlace depths)

theorem parentPlaces_concat (depths : List Int) (d : Int) :
    parentPlaces (depths ++ [d]) = parentPlaces depths ++ [lastPlace depths (d - 1)] := by
  have hfront : (List.range depths.length).map (parentPlace (depths ++ [d])) = parentPlaces depths :=
    List.map_congr_left fun i hi => parentPlace_append [d] (List.mem_range.mp hi)
  rw [parentPlaces, List.length_append, List.length_singleton, List.range_succ, List.map_append, hfront,
    List.map_singleton, parentPlace_concat_self]

theorem getElem?_foldl_set {α : Type} (f : Nat → α) (places : List Nat) (values : List α) (i : Nat) :
    (places.foldl (fun values j => values.set j (f j)) values)[i]? =
      if i ∈ places then values[i]?.map (fun _ => f i) else values[i]? := by
  induction places generalizing values with
  | nil => rfl
  | cons j rest ih =>
      rw [List.foldl_cons, ih]
      by_cases hij : i = j
      · subst hij
        rw [List.getElem?_set_self', if_pos List.mem_cons_self]
        split
        · rw [Option.map_eq_map, Option.map_map]
          rfl
        · rfl
      · rw [List.getElem?_set_ne (Ne.symm hij)]
        exact if_congr (by simp [hij]) rfl rfl

/-- In whatever order the entries are attached, in the end each has its parent. -/
theorem parentLinks_eq (depths : List Int) : parentLinks depths = parentPlaces depths := by
  refine List.ext_getElem? fun i => ?_
  rw [parentLinks, attachments_eq, List.foldl_map, getElem?_foldl_set (parentPlace depths), parentPlaces,
    List.getElem?_map, List.getElem?_replicate]
  simp only [mem_attachmentPlaces_iff]
  by_cases hi : i < depths.length
  · rw [if_pos hi, if_pos hi, List.getElem?_range hi]
    rfl
  · rw [if_neg hi, if_neg hi, List.getElem?_eq_none (by simpa using hi)]
    rfl

/-! ## The pass -/

/-- What a pass over the depths of a block carries along: the place where it saw each depth last, and the parents of
the entries it has passed. -/
structure LinkPass where
  lastSeen : Int → Option Nat
  links : List (Option Nat)

namespace LinkPass

def start : LinkPass := ⟨fun _ => none, []⟩

/-- The next entry hangs under the entry that was seen last one level above it, or under the root if there is none. From
now on it is itself what was seen last at its depth. -/
def next (s : LinkPass) (depth : Int) : LinkPass :=
  { lastSeen := Function.update s.lastSeen depth (some s.links.length)
    links := s.links ++ [s.lastSeen (depth - 1)] }

def run (depths : List Int) : LinkPass := depths.foldl next start

structure HasPassed (s : LinkPass) (depths : List Int) : Prop where
  lastSeen_eq : s.lastSeen = lastPlace depths
  links_eq : s.links = parentPlaces depths

theorem hasPassed_start : start.HasPassed [] := ⟨rfl, rfl⟩

theorem HasPassed.next {s : LinkPass} {depths : List Int} (h : s.HasPassed depths) (d : Int) :
    (s.next d).HasPassed (depths ++ [d]) := by
  have hlength : s.links.length = depths.length := by
    rw [h.links_eq, parentPlaces, List.length_map, List.length_range]
  constructor
  · funext depth
    have hupdate : (s.next d).lastSeen depth = if depth = d then some s.links.length else s.lastSeen depth :=
      Function.update_apply ..
    rw [hupdate, lastPlace_concat, hlength, h.lastSeen_eq]
  · rw [LinkPass.next, parentPlaces_concat, h.links_eq, h.lastSeen_eq]

theorem hasPassed_run (depths : List Int) : (run depths).HasPassed depths := by
  induction depths using List.reverseRecOn with
  | nil => exact hasPassed_start
  | append_singleton depths d ih =>
      rw [run, List.foldl_append]
      exact ih.next d

end LinkPass

/-! ## The order of the attachments -/

/-- Attachments that take each of so many places once, and a place that is a parent behind all places below it. -/
structure IsBottomUp (count : Nat) (plan : List (Nat × Option Nat)) : Prop where
  children_perm : (plan.map Prod.fst).Perm (List.range count)
  parent_later : ∀ (k child parent : Nat), plan[k]? = some (child, some parent) →
    ∃ (m : Nat) (grandparent : Option Nat), k < m ∧ plan[m]? = some (parent, grandparent)

theorem LeavesFirst.exists_later {parent : Nat → Option Nat} {order : List Nat} (h : LeavesFirst parent order)
    {k i p : Nat} (hi : order[k]? = some i) (hp : parent i = some p) : ∃ m, k < m ∧ order[m]? = some p := by
  induction order generalizing k with
  | nil => simp at hi
  | cons j rest ih =>
      cases k with
      | zero =>
          obtain rfl : j = i := by simpa using hi
          obtain ⟨m, hm⟩ := List.mem_iff_getElem?.mp (h.2.1 p hp)
          exact ⟨m + 1, Nat.succ_pos m, by simpa using hm⟩
      | succ k =>
          obtain ⟨m, hkm, hm⟩ := ih h.2.2 (by simpa using hi)
          exact ⟨m + 1, Nat.succ_lt_succ hkm, by simpa using hm⟩

theorem isBottomUp_attachments (depths : List Int) : IsBottomUp depths.length (attachments depths) := by
  rw [attachments_eq]
  constructor
  · have hplaces : ((attachmentPlaces depths).map fun i => (i, parentPlace depths i)).map Prod.fst =
        attachmentPlaces depths := by
      rw [List.map_map]
      exact List.map_id _
    rw [hplaces]
    exact attachmentPlaces_perm depths
  · intro k child parent hk
    rw [List.getElem?_map] at hk
    obtain ⟨i, hi, heq⟩ := Option.map_eq_some_iff.mp hk
    obtain ⟨rfl, hparent⟩ := Prod.mk.inj heq
    obtain ⟨m, hkm, hm⟩ := (attachmentPlaces_leavesFirst depths).exists_later hi hparent
    exact ⟨m, parentPlace depths parent, hkm, by rw [List.getElem?_map, hm, Option.map_some]⟩

/-- Whatever the depths of a block are, its attachments come to an end with every entry attached once, and an entry only
when all entries below it are. They give every entry the parent that the single pass gives it. -/
theorem attachments_onePass (depths : List Int) :
    IsBottomUp depths.length (attachments depths) ∧ parentLinks depths = (LinkPass.run depths).links :=
  ⟨isBottomUp_attachments depths, (parentLinks_eq depths).trans (LinkPass.hasPassed_run depths).links_eq.symm⟩

/-- The greatest depth is one, so the last entry is attached first although it is less deep. -/
example : attachments [1, 0, 1, -1, 0] = [(4, some 3), (3, none), (2, some 1), (1, none), (0, none)] := by cbv

end IndentMarkup
