import IndentMarkup.Template.Attachment
import Mathlib.Data.List.Basic

/-!
# Parents in the order of attachments

The attachments of a block take entries out of a shrinking list, and the parent of an entry is searched in what
is left of that list. Nothing is lost by this: `attachments_eq` says that the entries are attached in the
order of `attachmentPlaces`, each to the nearest earlier entry of the whole block that is one level above it.
The reason is what a single choice leaves behind it: all entries behind the chosen one are less deep
(`choice_spec`), so none of them looks for it. From the same fact an entry is attached before every earlier
entry that is not deeper, and so before its parent.
-/

namespace IndentMarkup

/-! ## The nearest earlier entry one level above -/

/-- Among entries with depths, the entry at place `j` is the nearest one in front of the entry at place `i`
that is exactly one level above it. -/
def NearestAbove {δ : Type} [Add δ] [OfNat δ 1] (depths : List δ) (j i : Nat) : Prop :=
  j < i ∧ ∃ d, depths[j]? = some d ∧ depths[i]? = some (d + 1) ∧ ∀ k, j < k → k < i → depths[k]? ≠ some d

theorem NearestAbove.lt {δ : Type} [Add δ] [OfNat δ 1] {depths : List δ} {j i : Nat}
    (h : NearestAbove depths j i) : j < i := h.1

theorem nearestAbove_cast_iff {depths : List Nat} {j i : Nat} :
    NearestAbove (depths.map (Nat.cast : Nat → Int)) j i ↔ NearestAbove depths j i := by
  simp only [NearestAbove, List.getElem?_map, Option.map_eq_some_iff]
  constructor
  · rintro ⟨hji, _, ⟨d, hj, rfl⟩, ⟨e, hi, he⟩, hbetween⟩
    obtain rfl : e = d + 1 := by omega
    exact ⟨hji, d, hj, hi, fun k hjk hki hk => hbetween k hjk hki (by simp [hk])⟩
  · rintro ⟨hji, d, hj, hi, hbetween⟩
    refine ⟨hji, d, ⟨d, hj, rfl⟩, ⟨d + 1, hi, by simp⟩, fun k hjk hki hk => hbetween k hjk hki ?_⟩
    obtain ⟨e, hke, he⟩ := Option.map_eq_some_iff.mp hk
    obtain rfl : e = d := by omega
    exact hke

/-- The last item of a sorted list that passes a test is the one that no other item passing it exceeds. -/
theorem getLast?_filter_eq_some_iff {α : Type} {key : α → Nat} {p : α → Bool} {l : List α}
    (hl : l.Pairwise fun x y => key x < key y) {x : α} :
    (l.filter p).getLast? = some x ↔ x ∈ l ∧ p x ∧ ∀ y ∈ l, p y → key y ≤ key x := by
  have hsorted : (l.filter p).Pairwise fun x y => key x < key y := hl.filter p
  have hlast : ∀ z, (l.filter p).getLast? = some z → ∀ y ∈ l, p y → y = z ∨ key y < key z := by
    intro z hz y hy hpy
    obtain ⟨front, hfront⟩ := List.getLast?_eq_some_iff.mp hz
    have hmem : y ∈ front ++ [z] := hfront ▸ List.mem_filter.mpr ⟨hy, hpy⟩
    rw [hfront, List.pairwise_append] at hsorted
    rcases List.mem_append.mp hmem with hy | hy
    · exact .inr (hsorted.2.2 y hy z (by simp))
    · exact .inl (List.mem_singleton.mp hy)
  constructor
  · intro h
    have hx : x ∈ l.filter p := List.mem_of_getLast? h
    refine ⟨(List.mem_filter.mp hx).1, (List.mem_filter.mp hx).2, fun y hy hpy => ?_⟩
    rcases hlast x h y hy hpy with rfl | hlt
    · exact Nat.le_refl _
    · exact Nat.le_of_lt hlt
  · rintro ⟨hx, hpx, hmax⟩
    cases h : (l.filter p).getLast? with
    | none =>
        rw [List.getLast?_eq_none_iff, List.filter_eq_nil_iff] at h
        exact absurd hpx (h x hx)
    | some z =>
        have hz := List.mem_filter.mp (List.mem_of_getLast? h)
        rcases hlast z h x hx hpx with rfl | hlt
        · rfl
        · exact absurd (hmax z hz.1 hz.2) (Nat.not_le.mpr hlt)

/-! ## A single choice -/

theorem splitAtLast?_ne_none {α : Type} {p : α → Bool} {l : List α} {x : α} (hx : x ∈ l) (hp : p x) :
    splitAtLast? p l ≠ none := by
  induction l with
  | nil => simp at hx
  | cons y rest ih =>
      rw [splitAtLast?]
      split
      · simp
      · next hs =>
          rcases List.mem_cons.mp hx with rfl | hx
          · simp [hp]
          · exact absurd hs (ih hx)

theorem splitAtLast?_eq_some {α : Type} {p : α → Bool} {l before behind : List α} {x : α}
    (h : splitAtLast? p l = some (before, x, behind)) :
    l = before ++ x :: behind ∧ p x ∧ ∀ y ∈ behind, p y = false := by
  induction l generalizing before x behind with
  | nil => simp [splitAtLast?] at h
  | cons y rest ih =>
      rw [splitAtLast?] at h
      split at h
      · next hs =>
          obtain ⟨rfl, rfl, rfl⟩ : _ ∧ _ ∧ _ := by simpa using h
          obtain ⟨rfl, hx, hbehind⟩ := ih hs
          exact ⟨rfl, hx, hbehind⟩
      · next hs =>
          split at h
          · next hy =>
              obtain ⟨rfl, rfl, rfl⟩ : _ ∧ _ ∧ _ := by simpa using h
              refine ⟨rfl, hy, fun z hz => ?_⟩
              by_contra hpz
              exact absurd hs (splitAtLast?_ne_none hz (by simpa using hpz))
          · simp at h

theorem splitAtLast?_item {α : Type} {p : α → Bool} {l : List α} :
    (splitAtLast? p l).map (fun found => found.2.1) = (l.filter p).getLast? := by
  cases hs : splitAtLast? p l with
  | none =>
      have hnone : l.filter p = [] :=
        List.filter_eq_nil_iff.mpr fun x hx hp => splitAtLast?_ne_none hx hp hs
      simp [hnone]
  | some found =>
      obtain ⟨before, x, behind⟩ := found
      obtain ⟨rfl, hx, hbehind⟩ := splitAtLast?_eq_some hs
      have hrest : behind.filter p = [] := List.filter_eq_nil_iff.mpr fun y hy => by simp [hbehind y hy]
      simp [List.filter_append, hx, hrest]

theorem maxDepth_eq_none_iff {pending : List Pending} : maxDepth pending = none ↔ pending = [] := by
  cases pending with
  | nil => simp [maxDepth]
  | cons e rest => simp [maxDepth]

theorem maxDepth_eq_some {pending : List Pending} {greatest : Int} (h : maxDepth pending = some greatest) :
    (∀ e ∈ pending, e.depth ≤ greatest) ∧ ∃ e ∈ pending, e.depth = greatest := by
  induction pending generalizing greatest with
  | nil => simp [maxDepth] at h
  | cons e rest ih =>
      rw [maxDepth, Option.some.injEq] at h
      cases hrest : maxDepth rest with
      | none =>
          obtain rfl := maxDepth_eq_none_iff.mp hrest
          rw [hrest, Option.elim_none] at h
          simp [h]
      | some m =>
          obtain ⟨hle, f, hf, hfm⟩ := ih hrest
          rw [hrest, Option.elim_some] at h
          refine ⟨?_, ?_⟩
          · intro x hx
            rcases List.mem_cons.mp hx with rfl | hx
            · omega
            · have := hle x hx
              omega
          · by_cases hem : m ≤ e.depth
            · exact ⟨e, by simp, by omega⟩
            · exact ⟨f, by simp [hf], by omega⟩

/-- What is chosen next: everything behind it is less deep, and if no depth is below one, nothing at all is
deeper. -/
theorem choice_spec {pending before behind : List Pending} {e : Pending}
    (h : splitAtLast? (isNext (maxDepth pending)) pending = some (before, e, behind)) :
    pending = before ++ e :: behind ∧ (∀ x ∈ behind, x.depth < e.depth) ∧
      ((∀ x ∈ pending, 1 ≤ x.depth) → ∀ x ∈ pending, x.depth ≤ e.depth) := by
  obtain ⟨hsplit, hnext, hbehind⟩ := splitAtLast?_eq_some h
  obtain ⟨greatest, hgreatest⟩ : ∃ m, maxDepth pending = some m := by
    cases hm : maxDepth pending with
    | none => simp [maxDepth_eq_none_iff.mp hm] at hsplit
    | some m => exact ⟨m, rfl⟩
  obtain ⟨hle, -⟩ := maxDepth_eq_some hgreatest
  simp only [isNext, hgreatest, Bool.or_eq_true, Bool.or_eq_false_iff, decide_eq_true_eq,
    decide_eq_false_iff_not, Option.some.injEq] at hnext hbehind
  have he : e ∈ pending := hsplit ▸ by simp
  refine ⟨hsplit, fun x hx => ?_, fun hone x hx => ?_⟩
  · -- an entry behind the chosen one fails the test, so the greatest depth is not one and it is below it
    have hxe := hbehind x hx
    have hxle := hle x (hsplit ▸ by simp [hx])
    omega
  · have hxle := hle x hx
    have heone := hone e he
    have hele := hle e he
    omega

/-! ## The order of attachments -/

def attachmentOrder (pending : List Pending) : List Pending :=
  match _found : splitAtLast? (isNext (maxDepth pending)) pending with
  | none => []
  | some (before, e, behind) => e :: attachmentOrder (before ++ behind)
termination_by pending.length
decreasing_by rw [length_of_splitAtLast? _found]; exact Nat.lt_succ_self _

def linkIn (pending : List Pending) (e : Pending) : Option Nat :=
  ((pending.filter fun p => p.index < e.index && p.depth == e.depth - 1).getLast?).map (·.index)

theorem choice_ne_none {pending : List Pending} (h : pending ≠ []) :
    splitAtLast? (isNext (maxDepth pending)) pending ≠ none := by
  cases hm : maxDepth pending with
  | none => exact absurd (maxDepth_eq_none_iff.mp hm) h
  | some greatest =>
      obtain ⟨-, e, he, hdepth⟩ := maxDepth_eq_some hm
      exact splitAtLast?_ne_none he (by simp [isNext, hdepth])

/-- To prove something of all pending entries, take the chosen ones out of them one after another. -/
theorem choice_induction {P : List Pending → Prop} (nil : P [])
    (step : ∀ before e behind, splitAtLast? (isNext (maxDepth (before ++ e :: behind))) (before ++ e :: behind) =
      some (before, e, behind) → P (before ++ behind) → P (before ++ e :: behind)) (pending : List Pending) :
    P pending := by
  induction pending using attachmentOrder.induct with
  | case1 pending hnone =>
      by_cases hnil : pending = []
      · exact hnil ▸ nil
      · exact absurd hnone (choice_ne_none hnil)
  | case2 pending before e behind hsome ih =>
      obtain ⟨rfl, -⟩ := choice_spec hsome
      exact step before e behind hsome ih

theorem attachmentOrder_nil : attachmentOrder [] = [] := by
  rw [attachmentOrder]
  split
  · rfl
  · next h => simp [splitAtLast?] at h

theorem attachmentOrder_step {pending before behind : List Pending} {e : Pending}
    (h : splitAtLast? (isNext (maxDepth pending)) pending = some (before, e, behind)) :
    attachmentOrder pending = e :: attachmentOrder (before ++ behind) := by
  rw [attachmentOrder]
  split
  · next hnone => simp [h] at hnone
  · next hsome =>
      obtain ⟨rfl, rfl, rfl⟩ : _ ∧ _ ∧ _ := by simpa [h] using hsome
      rfl

theorem attachmentsOf_nil : attachmentsOf [] = [] := by
  rw [attachmentsOf]
  split
  · rfl
  · next h => simp [splitAtLast?] at h

theorem attachmentsOf_step {pending before behind : List Pending} {e : Pending}
    (h : splitAtLast? (isNext (maxDepth pending)) pending = some (before, e, behind)) :
    attachmentsOf pending =
      (e.index, ((before.filter fun p => p.depth == e.depth - 1).getLast?).map (·.index)) ::
        attachmentsOf (before ++ behind) := by
  rw [attachmentsOf]
  split
  · next hnone => simp [h] at hnone
  · next hsome =>
      obtain ⟨rfl, rfl, rfl⟩ : _ ∧ _ ∧ _ := by simpa [h] using hsome
      rw [← splitAtLast?_item, Option.map_map]
      rfl

theorem attachmentOrder_perm (pending : List Pending) : (attachmentOrder pending).Perm pending := by
  induction pending using choice_induction with
  | nil => rw [attachmentOrder_nil]
  | step before e behind hchoice ih =>
      rw [attachmentOrder_step hchoice]
      exact (ih.cons e).trans List.perm_middle.symm

/-- An entry that is attached later stands in front or is less deep. -/
theorem attachmentOrder_pairwise {pending : List Pending}
    (hsorted : pending.Pairwise fun x y => x.index < y.index) :
    (attachmentOrder pending).Pairwise fun x y => y.index < x.index ∨ y.depth < x.depth := by
  induction pending using choice_induction with
  | nil => simp [attachmentOrder_nil]
  | step before e behind hchoice ih =>
      obtain ⟨-, hbehind, -⟩ := choice_spec hchoice
      rw [attachmentOrder_step hchoice, List.pairwise_cons]
      constructor
      · intro x hx
        rcases List.mem_append.mp ((attachmentOrder_perm _).mem_iff.mp hx) with hx | hx
        · exact .inl ((List.pairwise_append.mp hsorted).2.2 x hx e (by simp))
        · exact .inr (hbehind x hx)
      · exact ih (hsorted.sublist ((List.sublist_cons_self e behind).append_left before))

/-- If no depth is below one, the entries are attached by falling depth. -/
theorem attachmentOrder_pairwise_depth {pending : List Pending} (hone : ∀ x ∈ pending, 1 ≤ x.depth) :
    (attachmentOrder pending).Pairwise fun x y => y.depth ≤ x.depth := by
  induction pending using choice_induction with
  | nil => simp [attachmentOrder_nil]
  | step before e behind hchoice ih =>
      obtain ⟨-, -, hgreatest⟩ := choice_spec hchoice
      have hsub : (before ++ behind).Sublist (before ++ e :: behind) :=
        (List.sublist_cons_self e behind).append_left before
      rw [attachmentOrder_step hchoice, List.pairwise_cons]
      constructor
      · intro x hx
        exact hgreatest hone x (hsub.subset ((attachmentOrder_perm _).mem_iff.mp hx))
      · exact ih fun x hx => hone x (hsub.subset hx)

/-- Taking the chosen entry out changes no link: it is behind the entries in front of it, and the entries
behind it are less deep. -/
theorem linkIn_remove {before behind : List Pending} {e x : Pending}
    (hsorted : (before ++ e :: behind).Pairwise fun x y => x.index < y.index)
    (hbehind : ∀ y ∈ behind, y.depth < e.depth) (hx : x ∈ before ++ behind) :
    linkIn (before ++ e :: behind) x = linkIn (before ++ behind) x := by
  have he : (e.index < x.index && e.depth == x.depth - 1) = false := by
    rcases List.mem_append.mp hx with hx | hx
    · have := (List.pairwise_append.mp hsorted).2.2 x hx e (by simp)
      simp only [Bool.and_eq_false_iff, decide_eq_false_iff_not]
      omega
    · have := hbehind x hx
      simp only [Bool.and_eq_false_iff, beq_eq_false_iff_ne]
      omega
  rw [linkIn, linkIn, List.filter_append, List.filter_append, List.filter_cons_of_neg (by simpa using he)]

theorem linkIn_chosen {before behind : List Pending} {e : Pending}
    (hsorted : (before ++ e :: behind).Pairwise fun x y => x.index < y.index) :
    linkIn (before ++ e :: behind) e =
      ((before.filter fun p => p.depth == e.depth - 1).getLast?).map (·.index) := by
  obtain ⟨-, hbehind, hbefore⟩ := List.pairwise_append.mp hsorted
  have hfront : before.filter (fun p => p.index < e.index && p.depth == e.depth - 1) =
      before.filter fun p => p.depth == e.depth - 1 :=
    List.filter_congr fun x hx => by simp [hbefore x hx e (by simp)]
  have hrest : (e :: behind).filter (fun p => p.index < e.index && p.depth == e.depth - 1) = [] := by
    rw [List.filter_eq_nil_iff]
    intro x hx
    rcases List.mem_cons.mp hx with rfl | hx
    · simp
    · have := (List.pairwise_cons.mp hbehind).1 x hx
      simp only [Bool.and_eq_true, decide_eq_true_eq]
      omega
  rw [linkIn, List.filter_append, hfront, hrest, List.append_nil]

/-- Every entry is attached to the nearest earlier entry one level above it, however much of the list has been
taken out by then. -/
theorem attachmentsOf_eq {pending : List Pending}
    (hsorted : pending.Pairwise fun x y => x.index < y.index) :
    attachmentsOf pending = (attachmentOrder pending).map fun e => (e.index, linkIn pending e) := by
  induction pending using choice_induction with
  | nil => simp [attachmentsOf_nil, attachmentOrder_nil]
  | step before e behind hchoice ih =>
      obtain ⟨-, hbehind, -⟩ := choice_spec hchoice
      have hsub : (before ++ behind).Sublist (before ++ e :: behind) :=
        (List.sublist_cons_self e behind).append_left before
      rw [attachmentsOf_step hchoice, attachmentOrder_step hchoice, ih (hsorted.sublist hsub), List.map_cons,
        linkIn_chosen hsorted]
      congr 1
      refine List.map_congr_left fun x hx => ?_
      rw [linkIn_remove hsorted hbehind ((attachmentOrder_perm _).mem_iff.mp hx)]

/-! ## Places -/

/-- The place of the parent of the entry at a place, or `none` if it hangs under the root. -/
def parentPlace (depths : List Int) (i : Nat) : Option Nat :=
  linkIn (pendingFrom 0 depths) ⟨i, depths.getD i 0⟩

def attachmentPlaces (depths : List Int) : List Nat :=
  (attachmentOrder (pendingFrom 0 depths)).map (·.index)

theorem mem_pendingFrom_iff {depths : List Int} {start : Nat} {e : Pending} :
    e ∈ pendingFrom start depths ↔ start ≤ e.index ∧ depths[e.index - start]? = some e.depth := by
  induction depths generalizing start with
  | nil => simp [pendingFrom]
  | cons d rest ih =>
      obtain ⟨i, depth⟩ := e
      simp only [pendingFrom, List.mem_cons, ih, Pending.mk.injEq]
      rcases Nat.lt_trichotomy i start with hlt | rfl | hgt
      · omega
      · have hbehind : ¬ i + 1 ≤ i := Nat.not_succ_le_self i
        simp [hbehind, eq_comm (a := depth)]
      · rw [show i - start = (i - (start + 1)) + 1 by omega, List.getElem?_cons_succ]
        simp [show i ≠ start by omega, show start + 1 ≤ i by omega, show start ≤ i by omega]

theorem pendingFrom_pairwise (start : Nat) (depths : List Int) :
    (pendingFrom start depths).Pairwise fun x y => x.index < y.index := by
  induction depths generalizing start with
  | nil => simp [pendingFrom]
  | cons d rest ih =>
      rw [pendingFrom, List.pairwise_cons]
      refine ⟨fun y hy => ?_, ih (start + 1)⟩
      have := (mem_pendingFrom_iff.mp hy).1
      exact this

theorem index_pendingFrom (start : Nat) (depths : List Int) :
    (pendingFrom start depths).map (·.index) = List.range' start depths.length := by
  induction depths generalizing start with
  | nil => rfl
  | cons d rest ih => rw [pendingFrom, List.map_cons, ih, List.length_cons, List.range'_succ]

theorem mem_attachmentOrder_iff {depths : List Int} {e : Pending} :
    e ∈ attachmentOrder (pendingFrom 0 depths) ↔ depths[e.index]? = some e.depth := by
  rw [(attachmentOrder_perm _).mem_iff, mem_pendingFrom_iff]
  simp

theorem getD_of_mem_attachmentOrder {depths : List Int} {e : Pending}
    (he : e ∈ attachmentOrder (pendingFrom 0 depths)) : depths.getD e.index 0 = e.depth := by
  simp [List.getD_eq_getElem?_getD, mem_attachmentOrder_iff.mp he]

/-- The parent of an entry is the nearest earlier entry one level above it. -/
theorem parentPlace_eq_some_iff {depths : List Int} {i j : Nat} (hi : i < depths.length) :
    parentPlace depths i = some j ↔ NearestAbove depths j i := by
  have hdepth : depths.getD i 0 = depths[i] := by simp [hi]
  rw [parentPlace, linkIn, Option.map_eq_some_iff, NearestAbove]
  simp only [getLast?_filter_eq_some_iff (pendingFrom_pairwise 0 depths), mem_pendingFrom_iff, Nat.zero_le,
    Nat.sub_zero, true_and, Bool.and_eq_true, decide_eq_true_eq, beq_iff_eq, hdepth]
  constructor
  · rintro ⟨⟨_, d⟩, ⟨hj, ⟨hji, rfl⟩, hmax⟩, rfl⟩
    refine ⟨hji, _, hj, by simp [hi], fun k hjk hki hk => ?_⟩
    have := hmax ⟨k, _⟩ hk ⟨hki, rfl⟩
    exact absurd this (Nat.not_le.mpr hjk)
  · rintro ⟨hji, d, hj, hid, hbetween⟩
    obtain rfl : d = depths[i] - 1 := by
      have : depths[i] = d + 1 := by simpa [hi] using hid
      omega
    refine ⟨⟨j, _⟩, ⟨hj, ⟨hji, rfl⟩, fun y hy hyi => ?_⟩, rfl⟩
    by_contra hlt
    exact hbetween y.index (Nat.not_le.mp hlt) hyi.1 (hyi.2 ▸ hy)

theorem parentPlace_eq_none_iff {depths : List Int} {i : Nat} (hi : i < depths.length) :
    parentPlace depths i = none ↔ ∀ j d, j < i → depths[j]? = some d → depths[i]? ≠ some (d + 1) := by
  have hdepth : depths.getD i 0 = depths[i] := by simp [hi]
  rw [parentPlace, linkIn, Option.map_eq_none_iff, List.getLast?_eq_none_iff, List.filter_eq_nil_iff]
  simp only [mem_pendingFrom_iff, Nat.zero_le, Nat.sub_zero, true_and, Bool.and_eq_true, decide_eq_true_eq,
    beq_iff_eq, hdepth, List.getElem?_eq_getElem hi, ne_eq, Option.some.injEq, not_and]
  constructor
  · intro h j d hji hj heq
    have hd : d = depths[i] - 1 := by omega
    exact h ⟨j, d⟩ hj hji hd
  · intro h e he hei heq
    exact h e.index e.depth hei he (by omega)

theorem parentPlace_append {depths : List Int} (more : List Int) {i : Nat} (hi : i < depths.length) :
    parentPlace (depths ++ more) i = parentPlace depths i := by
  refine Option.ext fun j => ?_
  have hfront : ∀ k, k ≤ i → (depths ++ more)[k]? = depths[k]? := fun k hk =>
    List.getElem?_append_left (Nat.lt_of_le_of_lt hk hi)
  rw [parentPlace_eq_some_iff hi,
    parentPlace_eq_some_iff (List.length_append ▸ Nat.lt_of_lt_of_le hi (Nat.le_add_right _ _)), NearestAbove,
    NearestAbove, hfront i (Nat.le_refl i)]
  refine and_congr_right fun hji => exists_congr fun d => ?_
  rw [hfront j (Nat.le_of_lt hji)]
  refine and_congr_right fun _ => and_congr_right fun _ => forall_congr' fun k => imp_congr_right fun _ => ?_
  exact imp_congr_right fun hki => by rw [hfront k (Nat.le_of_lt hki)]

theorem attachments_eq (depths : List Int) :
    attachments depths = (attachmentPlaces depths).map fun i => (i, parentPlace depths i) := by
  rw [attachments, attachmentsOf_eq (pendingFrom_pairwise 0 depths), attachmentPlaces, List.map_map]
  refine List.map_congr_left fun e he => ?_
  simp only [Function.comp, parentPlace, getD_of_mem_attachmentOrder he]

theorem attachmentPlaces_perm (depths : List Int) :
    (attachmentPlaces depths).Perm (List.range depths.length) := by
  have h := (attachmentOrder_perm (pendingFrom 0 depths)).map (·.index)
  rwa [index_pendingFrom, ← List.range_eq_range'] at h

theorem mem_attachmentPlaces_iff {depths : List Int} {i : Nat} :
    i ∈ attachmentPlaces depths ↔ i < depths.length := by
  rw [(attachmentPlaces_perm depths).mem_iff, List.mem_range]

theorem attachmentPlaces_nodup (depths : List Int) : (attachmentPlaces depths).Nodup :=
  (attachmentPlaces_perm depths).nodup_iff.mpr List.nodup_range

theorem attachmentPlaces_pairwise (depths : List Int) :
    (attachmentPlaces depths).Pairwise fun i j => j < i ∨ depths.getD j 0 < depths.getD i 0 := by
  rw [attachmentPlaces, List.pairwise_map]
  refine (attachmentOrder_pairwise (pendingFrom_pairwise 0 depths)).imp_of_mem fun hx hy h => ?_
  rwa [getD_of_mem_attachmentOrder hx, getD_of_mem_attachmentOrder hy]

theorem attachmentPlaces_pairwise_depth {depths : List Int} (hone : ∀ d ∈ depths, 1 ≤ d) :
    (attachmentPlaces depths).Pairwise fun i j => depths.getD j 0 ≤ depths.getD i 0 := by
  rw [attachmentPlaces, List.pairwise_map]
  have hpending : ∀ x ∈ pendingFrom 0 depths, 1 ≤ x.depth := fun x hx =>
    hone x.depth (List.mem_of_getElem? (mem_pendingFrom_iff.mp hx).2)
  refine (attachmentOrder_pairwise_depth hpending).imp_of_mem fun hx hy h => ?_
  rwa [getD_of_mem_attachmentOrder hx, getD_of_mem_attachmentOrder hy]

/-- Every place of a list stands in front of its parent and stands there only once. -/
def LeavesFirst (parent : Nat → Option Nat) : List Nat → Prop
  | [] => True
  | i :: rest => i ∉ rest ∧ (∀ p, parent i = some p → p ∈ rest) ∧ LeavesFirst parent rest

theorem LeavesFirst.parent_mem {parent : Nat → Option Nat} {order : List Nat} (h : LeavesFirst parent order)
    {i p : Nat} (hi : i ∈ order) (hp : parent i = some p) : p ∈ order := by
  induction order with
  | nil => simp at hi
  | cons j rest ih =>
      rcases List.mem_cons.mp hi with rfl | hi
      · exact .tail _ (h.2.1 p hp)
      · exact .tail _ (ih h.2.2 hi)

theorem LeavesFirst.nodup {parent : Nat → Option Nat} {order : List Nat} (h : LeavesFirst parent order) :
    order.Nodup := by
  induction order with
  | nil => simp
  | cons i rest ih => exact List.nodup_cons.mpr ⟨h.1, ih h.2.2⟩

theorem leavesFirst_of_pairwise {parent : Nat → Option Nat} {order : List Nat} (hnodup : order.Nodup)
    (hclosed : ∀ i ∈ order, ∀ p, parent i = some p → p ∈ order ∧ p ≠ i)
    (hlater : order.Pairwise fun i j => parent j ≠ some i) : LeavesFirst parent order := by
  induction order with
  | nil => trivial
  | cons i rest ih =>
      obtain ⟨hi, hrest⟩ := List.nodup_cons.mp hnodup
      obtain ⟨hfirst, htail⟩ := List.pairwise_cons.mp hlater
      refine ⟨hi, fun p hp => ?_, ih hrest (fun j hj p hp => ?_) htail⟩
      · obtain ⟨hmem, hne⟩ := hclosed i (by simp) p hp
        exact (List.mem_cons.mp hmem).resolve_left hne
      · obtain ⟨hmem, hne⟩ := hclosed j (by simp [hj]) p hp
        refine ⟨(List.mem_cons.mp hmem).resolve_left ?_, hne⟩
        rintro rfl
        exact hfirst j hj hp

/-- A parent is attached after all its children. -/
theorem attachmentPlaces_leavesFirst (depths : List Int) :
    LeavesFirst (parentPlace depths) (attachmentPlaces depths) := by
  refine leavesFirst_of_pairwise (attachmentPlaces_nodup depths) (fun i hi p hp => ?_) ?_
  · rw [mem_attachmentPlaces_iff] at hi
    have hpi := ((parentPlace_eq_some_iff hi).mp hp).lt
    exact ⟨mem_attachmentPlaces_iff.mpr (Nat.lt_trans hpi hi), Nat.ne_of_lt hpi⟩
  · refine (attachmentPlaces_pairwise depths).imp_of_mem fun {i j} _ hj h hparent => ?_
    rw [mem_attachmentPlaces_iff] at hj
    obtain ⟨hij, d, hi, hjd, -⟩ := (parentPlace_eq_some_iff hj).mp hparent
    simp only [List.getD_eq_getElem?_getD, hi, hjd, Option.getD_some] at h
    omega

end IndentMarkup
