import IndentMarkup.Proofs.Grafting
import Mathlib.Logic.Relation

/-!
# What stays below an entry

All entries behind some entry of a block are below it in the tree exactly if their depths, counted from this entry,
are supported (`forall_transGen_isChild_iff`). An entry that has no entry one level above it among them takes one of
those further in front, or the root.

The beginning of a tree does not depend on what comes later: entries that go down level by level at the beginning of
a block are the first ones of its tree (`prefix_preorder_assemble`).
-/

namespace IndentMarkup

/-! ## The nearest entry -/

theorem exists_nearestAbove {depths : List Nat} {i j c : Nat} (hji : j < i) (hj : depths[j]? = some c)
    (hi : depths[i]? = some (c + 1)) : ∃ k, j ≤ k ∧ NearestAbove depths k i := by
  have hilt : i < depths.length := (List.getElem?_eq_some_iff.mp hi).1
  have hlt : i < (Rose.levels depths).length := by simpa using hilt
  cases hparent : parentPlace (Rose.levels depths) i with
  | none =>
      refine absurd ?_ ((parentPlace_eq_none_iff hlt).mp hparent j c hji (by simp [Rose.levels, hj]))
      simp [Rose.levels, hi]
  | some k =>
      have hnearest := (Rose.parentPlace_levels_iff hilt).mp hparent
      refine ⟨k, ?_, hnearest⟩
      obtain ⟨hki, d, hk, hid, hbetween⟩ := hnearest
      obtain rfl : d = c := by
        rw [hi, Option.some.injEq] at hid
        omega
      by_contra hlt
      exact hbetween j (Nat.not_le.mp hlt) hji hj

namespace Rose

variable {α β : Type}

/-! ## Children by their places -/

theorem exists_places_of_isChild {root : α} {entries : List (α × Nat)} {a b : α}
    (h : (assemble root entries).IsChild a b) :
    ∃ x i d, (∀ j, x = some j → j < entries.length) ∧ placeLabel root (entries.map Prod.fst) x = a ∧
      entries[i]? = some (b, d) ∧ parentPlace (levels (entries.map Prod.snd)) i = x := by
  have hfollows := (follows_placesTree (entries.map Prod.snd)).2
  rw [assemble_eq_map_placesTree, isChild_map_iff] at h
  obtain ⟨x, _, hchild, ha, hb⟩ := h
  rw [hfollows.isChild_iff, List.mem_map] at hchild
  obtain ⟨hx, i, hi, rfl⟩ := hchild
  rw [mem_childPlaces_iff, List.length_map] at hi
  refine ⟨x, i, entries[i].2, by simpa using lt_of_mem_preorder_placesTree hx, ha, ?_, hi.2⟩
  rw [List.getElem?_eq_getElem hi.1, ← hb]
  simp [placeLabel, hi.1]

theorem isChild_iff_placeLabel {root : α} {entries : List (α × Nat)}
    (hdistinct : (root :: entries.map Prod.fst).Nodup)
    {i : Nat} {a b : α} {d : Nat} (hb : entries[i]? = some (b, d)) :
    (assemble root entries).IsChild a b ↔
      placeLabel root (entries.map Prod.fst) (parentPlace (levels (entries.map Prod.snd)) i) = a := by
  have hi : i < entries.length := (List.getElem?_eq_some_iff.mp hb).1
  have hparent : ∀ j, parentPlace (levels (entries.map Prod.snd)) i = some j → j < entries.length := fun j hj =>
    Nat.lt_trans ((parentPlace_levels_iff (by simpa using hi)).mp hj).lt hi
  constructor
  · intro h
    obtain ⟨x, j, e, hx, ha, hj, rfl⟩ := exists_places_of_isChild h
    have hsame := placeLabel_inj hdistinct (x := some i) (y := some j) (by simpa using hi)
      (by simpa using (List.getElem?_eq_some_iff.mp hj).1) ((placeLabel_some hb).trans (placeLabel_some hj).symm)
    rwa [Option.some.inj hsame]
  · intro ha
    exact (isChild_assemble_iff hdistinct hparent ha hb).mpr rfl

/-! ## Entries behind an entry -/

section

variable {root p : α} {front behind : List (α × Nat)} {m : Nat}

theorem getElem?_behind (p : α) (m : Nat) (front behind : List (α × Nat)) (i : Nat) :
    (front ++ (p, m) :: behind)[front.length + 1 + i]? = behind[i]? := by
  rw [List.getElem?_append_right (by omega), show front.length + 1 + i - front.length = i + 1 by omega,
    List.getElem?_cons_succ]

theorem exists_behind_of_lt {k d : Nat} {y : α} (hk : front.length < k)
    (h : (front ++ (p, m) :: behind)[k]? = some (y, d)) :
    ∃ i, k = front.length + 1 + i ∧ behind[i]? = some (y, d) := by
  obtain ⟨i, rfl⟩ : ∃ i, k = front.length + 1 + i := ⟨k - front.length - 1, by omega⟩
  exact ⟨i, rfl, by rwa [getElem?_behind] at h⟩

theorem exists_behind_of_getElem? {depths : List Nat} (hdepths : behind.map Prod.snd = depths.map (· + m))
    {i c : Nat} (hc : depths[i]? = some c) : ∃ y, behind[i]? = some (y, c + m) := by
  have h := congrArg (·[i]?) hdepths
  simp only [List.getElem?_map, hc, Option.map_some, Option.map_eq_some_iff] at h
  obtain ⟨⟨y, d⟩, hi, rfl⟩ := h
  exact ⟨y, hi⟩

theorem exists_depth_of_behind {depths : List Nat} (hdepths : behind.map Prod.snd = depths.map (· + m)) {i d : Nat}
    {y : α} (hi : behind[i]? = some (y, d)) : ∃ c, depths[i]? = some c := by
  have hlength := congrArg List.length hdepths
  rw [List.length_map, List.length_map] at hlength
  exact ⟨_, List.getElem?_eq_getElem (hlength ▸ (List.getElem?_eq_some_iff.mp hi).1)⟩

/-- An entry has its parent behind some place, or at it, exactly if an entry one level above it stands there. -/
theorem exists_nearestAbove_iff {depths : List Nat} (hdepths : behind.map Prod.snd = depths.map (· + m)) {i c : Nat}
    (hc : depths[i]? = some c) :
    (∃ k, front.length ≤ k ∧
        NearestAbove ((front ++ (p, m) :: behind).map Prod.snd) k (front.length + 1 + i)) ↔
      c = 1 ∨ ∃ j b, j < i ∧ depths[j]? = some b ∧ b + 1 = c := by
  have hplace : ∀ j b, depths[j]? = some b →
      ((front ++ (p, m) :: behind).map Prod.snd)[front.length + 1 + j]? = some (b + m) := by
    intro j b hj
    obtain ⟨y, hy⟩ := exists_behind_of_getElem? hdepths hj
    rw [List.getElem?_map, getElem?_behind, hy]
    rfl
  have hfirst : ((front ++ (p, m) :: behind).map Prod.snd)[front.length]? = some m := by
    simp
  constructor
  · rintro ⟨k, hk, hki, d, hd, hid, -⟩
    have hcd := Option.some.inj ((hplace i c hc).symm.trans hid)
    rcases Nat.eq_or_lt_of_le hk with rfl | hk
    · rw [hfirst, Option.some.injEq] at hd
      exact .inl (by omega)
    · rw [List.getElem?_map, Option.map_eq_some_iff] at hd
      obtain ⟨⟨z, e⟩, hz, rfl⟩ := hd
      obtain ⟨j, rfl, hj⟩ := exists_behind_of_lt hk hz
      obtain ⟨b, hb⟩ := exists_depth_of_behind hdepths hj
      obtain ⟨y, hy⟩ := exists_behind_of_getElem? hdepths hb
      have hbe := (Prod.mk.inj (Option.some.inj (hj.symm.trans hy))).2
      exact .inr ⟨j, b, by omega, hb, by omega⟩
  · rintro (rfl | ⟨j, b, hji, hj, rfl⟩)
    · exact exists_nearestAbove (by omega) hfirst (Nat.add_comm m 1 ▸ hplace i 1 hc)
    · obtain ⟨k, hk, hnearest⟩ := exists_nearestAbove (by omega) (hplace j b hj)
        (Nat.add_right_comm b 1 m ▸ hplace i (b + 1) hc)
      exact ⟨k, by omega, hnearest⟩

theorem isChild_of_nearestAbove (hdistinct : (root :: (front ++ (p, m) :: behind).map Prod.fst).Nodup) {i d : Nat}
    {y : α} (hi : behind[i]? = some (y, d)) {k : Nat} (hk : front.length ≤ k)
    (hnearest : NearestAbove ((front ++ (p, m) :: behind).map Prod.snd) k (front.length + 1 + i)) :
    ∃ x, (assemble root (front ++ (p, m) :: behind)).IsChild x y ∧
      (x = p ∨ ∃ j e, j < i ∧ behind[j]? = some (x, e)) := by
  have hplace := (getElem?_behind p m front behind i).trans hi
  have hlt := (List.getElem?_eq_some_iff.mp hplace).1
  have hparent := (parentPlace_levels_iff (by simpa using hlt)).mpr hnearest
  obtain ⟨⟨x, e⟩, hx⟩ : ∃ entry, (front ++ (p, m) :: behind)[k]? = some entry :=
    ⟨_, List.getElem?_eq_getElem (Nat.lt_trans hnearest.lt hlt)⟩
  refine ⟨x, ?_, ?_⟩
  · rw [isChild_iff_placeLabel hdistinct hplace, hparent]
    exact placeLabel_some hx
  · rcases Nat.eq_or_lt_of_le hk with rfl | hk
    · rw [List.getElem?_append_right (Nat.le_refl _), Nat.sub_self, List.getElem?_cons_zero, Option.some.injEq] at hx
      exact .inl (Prod.mk.inj hx).1.symm
    · obtain ⟨j, rfl, hj⟩ := exists_behind_of_lt hk hx
      have := hnearest.lt
      exact .inr ⟨j, e, by omega, hj⟩

/-- A child of the entry at a place has that place as its parent. -/
theorem exists_nearestAbove_of_isChild {entries : List (α × Nat)} (hdistinct : (root :: entries.map Prod.fst).Nodup)
    {k e : Nat} {a b : α} (ha : entries[k]? = some (a, e)) (h : (assemble root entries).IsChild a b) :
    ∃ i d, entries[i]? = some (b, d) ∧ NearestAbove (entries.map Prod.snd) k i := by
  obtain ⟨x, i, d, hx, hxa, hi, hparent⟩ := exists_places_of_isChild h
  have hsame : x = some k := placeLabel_inj hdistinct (by simpa using hx)
    (by simpa using (List.getElem?_eq_some_iff.mp ha).1) (hxa.trans (placeLabel_some ha).symm)
  have hlt : i < (entries.map Prod.snd).length := by simpa using (List.getElem?_eq_some_iff.mp hi).1
  exact ⟨i, d, hi, (parentPlace_levels_iff hlt).mp (hparent.trans hsame)⟩

theorem mem_of_isChild {entries : List (α × Nat)} (hdistinct : (root :: entries.map Prod.fst).Nodup) {a b : α}
    {e : Nat} (ha : (a, e) ∈ entries) (h : (assemble root entries).IsChild a b) : (b, e + 1) ∈ entries := by
  obtain ⟨k, hk⟩ := List.mem_iff_getElem?.mp ha
  obtain ⟨i, d, hi, -, c, hc, hd, -⟩ := exists_nearestAbove_of_isChild hdistinct hk h
  rw [List.getElem?_map, hk, Option.map_some, Option.some.injEq] at hc
  rw [List.getElem?_map, hi, Option.map_some, Option.some.injEq] at hd
  obtain rfl : e = c := hc
  obtain rfl : d = e + 1 := hd
  exact List.mem_of_getElem? hi

/-- What is below an entry comes behind it, and so does its parent, unless it is the entry itself. -/
theorem exists_behind_of_transGen (hdistinct : (root :: (front ++ (p, m) :: behind).map Prod.fst).Nodup) {y : α}
    (h : Relation.TransGen (assemble root (front ++ (p, m) :: behind)).IsChild p y) :
    ∃ i d, behind[i]? = some (y, d) ∧ ∃ k, front.length ≤ k ∧
      NearestAbove ((front ++ (p, m) :: behind).map Prod.snd) k (front.length + 1 + i) := by
  have hchild : ∀ k e a b, front.length ≤ k → (front ++ (p, m) :: behind)[k]? = some (a, e) →
      (assemble root (front ++ (p, m) :: behind)).IsChild a b → ∃ i d, behind[i]? = some (b, d) ∧ ∃ k,
        front.length ≤ k ∧ NearestAbove ((front ++ (p, m) :: behind).map Prod.snd) k (front.length + 1 + i) := by
    intro k e a b hk ha hab
    obtain ⟨place, d, hb, hnearest⟩ := exists_nearestAbove_of_isChild hdistinct ha hab
    obtain ⟨i, rfl, hi⟩ := exists_behind_of_lt (Nat.lt_of_le_of_lt hk hnearest.lt) hb
    exact ⟨i, d, hi, k, hk, hnearest⟩
  induction h with
  | single hpy => exact hchild front.length m p _ (Nat.le_refl _) (by simp) hpy
  | @tail a b _ hab ih =>
      obtain ⟨i, d, hi, -⟩ := ih
      exact hchild _ d a b (by omega) ((getElem?_behind p m front behind i).trans hi) hab

theorem behind_place_unique (hdistinct : (root :: (front ++ (p, m) :: behind).map Prod.fst).Nodup) {i j d e : Nat}
    {y : α} (hi : behind[i]? = some (y, d)) (hj : behind[j]? = some (y, e)) : i = j := by
  have hi' := (getElem?_behind p m front behind i).trans hi
  have hj' := (getElem?_behind p m front behind j).trans hj
  have hsame := placeLabel_inj hdistinct (x := some (front.length + 1 + i)) (y := some (front.length + 1 + j))
    (by simpa using (List.getElem?_eq_some_iff.mp hi').1) (by simpa using (List.getElem?_eq_some_iff.mp hj').1)
    ((placeLabel_some hi').trans (placeLabel_some hj').symm)
  have := Option.some.inj hsame
  omega

/-- The entries behind an entry are all below it exactly if their depths, counted from it, are supported. -/
theorem forall_transGen_isChild_iff (hdistinct : (root :: (front ++ (p, m) :: behind).map Prod.fst).Nodup)
    {depths : List Nat} (hdepths : behind.map Prod.snd = depths.map (· + m)) :
    (∀ e ∈ behind, Relation.TransGen (assemble root (front ++ (p, m) :: behind)).IsChild p e.1) ↔
      Supported depths := by
  rw [supported_iff_getElem?]
  constructor
  · intro h i c hc
    obtain ⟨y, hi⟩ := exists_behind_of_getElem? hdepths hc
    obtain ⟨j, e, hj, hnearest⟩ := exists_behind_of_transGen hdistinct (h _ (List.mem_of_getElem? hi))
    obtain rfl := behind_place_unique hdistinct hi hj
    exact (exists_nearestAbove_iff hdepths hc).mp hnearest
  · intro h
    have hbelow : ∀ (i : Nat) (y : α) (d : Nat), behind[i]? = some (y, d) →
        Relation.TransGen (assemble root (front ++ (p, m) :: behind)).IsChild p y := by
      intro i
      induction i using Nat.strongRecOn with
      | ind i ih =>
          intro y d hi
          obtain ⟨c, hc⟩ := exists_depth_of_behind hdepths hi
          obtain ⟨k, hk, hnearest⟩ := (exists_nearestAbove_iff hdepths hc).mpr (h i c hc)
          obtain ⟨x, hchild, rfl | ⟨j, e, hji, hj⟩⟩ := isChild_of_nearestAbove hdistinct hi hk hnearest
          · exact .single hchild
          · exact (ih j hji x e hj).tail hchild
    intro e he
    obtain ⟨i, hi⟩ := List.mem_iff_getElem?.mp he
    exact hbelow i e.1 e.2 hi

/-- If the depths are supported, none of the entries is a child of anything further in front. -/
theorem mem_behind_of_isChild (hdistinct : (root :: (front ++ (p, m) :: behind).map Prod.fst).Nodup)
    {depths : List Nat} (hdepths : behind.map Prod.snd = depths.map (· + m)) (hsupported : Supported depths)
    {e : α × Nat} (he : e ∈ behind) {x : α} (h : (assemble root (front ++ (p, m) :: behind)).IsChild x e.1) :
    x = p ∨ ∃ d, (x, d) ∈ behind := by
  obtain ⟨i, hi⟩ := List.mem_iff_getElem?.mp he
  obtain ⟨c, hc⟩ := exists_depth_of_behind hdepths hi
  obtain ⟨k, hk, hnearest⟩ := (exists_nearestAbove_iff hdepths hc).mpr (supported_iff_getElem?.mp hsupported i c hc)
  obtain ⟨z, hz, hmem⟩ := isChild_of_nearestAbove hdistinct hi hk hnearest
  have hplace := (getElem?_behind p m front behind i).trans hi
  rw [isChild_iff_placeLabel hdistinct hplace] at h hz
  obtain rfl := h.symm.trans hz
  exact hmem.imp_right fun ⟨j, d, _, hj⟩ => ⟨d, List.mem_of_getElem? hj⟩

end

/-! ## The beginning of a tree -/

theorem head?_of_pairwise {r : α → α → Prop} {labels : List α} (h : labels.Pairwise r) {a : α} (ha : a ∈ labels)
    (hfirst : ∀ b ∈ labels, ¬ r b a) : labels.head? = some a := by
  cases labels with
  | nil => exact absurd ha List.not_mem_nil
  | cons b rest =>
      rcases List.mem_cons.mp ha with rfl | ha
      · rfl
      · exact absurd ((List.pairwise_cons.mp h).1 a ha) (hfirst b (by simp))

theorem head?_childPlaces_some {depths : List Nat} {j : Nat} (hlength : j + 1 < depths.length)
    (h : NearestAbove depths j (j + 1)) : (childPlaces depths (some j)).head? = some (j + 1) := by
  refine head?_of_pairwise (childPlaces_some_pairwise depths j) ?_ fun i hi hlt => ?_
  · exact mem_childPlaces_iff.mpr ⟨hlength, (parentPlace_levels_iff hlength).mpr h⟩
  · obtain ⟨hi, hparent⟩ := mem_childPlaces_iff.mp hi
    have := ((parentPlace_levels_iff hi).mp hparent).lt
    omega

theorem head?_childPlaces_none {depths : List Nat} (hone : ∀ d ∈ depths, 1 ≤ d) (hfirst : depths[0]? = some 1) :
    (childPlaces depths none).head? = some 0 := by
  have hlength : 0 < depths.length := (List.getElem?_eq_some_iff.mp hfirst).1
  have hfirst' : depths.getD 0 0 = 1 := by rw [List.getD_eq_getElem?_getD, hfirst, Option.getD_some]
  refine head?_of_pairwise (childPlaces_none_pairwise hone) ?_ fun i hi hbefore => ?_
  · rw [mem_childPlaces_iff, Option.eq_none_iff_forall_ne_some]
    refine ⟨hlength, fun j hj => ?_⟩
    exact absurd ((parentPlace_levels_iff hlength).mp hj).lt (Nat.not_lt_zero j)
  · have hi := (mem_childPlaces_iff.mp hi).1
    have := hone depths[i] (List.getElem_mem hi)
    rw [hfirst', ← List.getElem_eq_getD (h := hi)] at hbefore
    omega

theorem Follows.prefix_preorder {next : α → List α} {t : Rose α} (h : Follows next t) {labels : List α}
    (hfirst : (t.self :: labels).IsChain fun a b => (next a).head? = some b) : t.self :: labels <+: t.preorder := by
  induction labels generalizing t with
  | nil =>
      cases t with
      | node a cs => simp
  | cons b labels ih =>
      obtain ⟨a, cs⟩ := t
      obtain ⟨hlabels, hbelow⟩ := follows_node_iff.mp h
      obtain ⟨hb, hrest⟩ := List.isChain_cons_cons.mp hfirst
      rw [self_node, ← hlabels] at hb
      cases cs with
      | nil => simp at hb
      | cons c cs =>
          obtain rfl : c.self = b := by simpa using hb
          have hc := ih (hbelow c (by simp)) hrest
          rw [self_node, preorder_node, List.flatMap_cons, List.prefix_cons_inj]
          exact hc.trans (List.prefix_append _ _)

/-- If the first entries go down level by level, each of them is the first child of the one before it. -/
theorem isChain_childPlaces {depths : List Nat} (hone : ∀ d ∈ depths, 1 ≤ d) {count : Nat}
    (hcount : ∀ i, i < count → depths[i]? = some (i + 1)) :
    ((none : Option Nat) :: (List.range count).map some).IsChain fun x y =>
      ((childPlaces depths x).map some).head? = some y := by
  rw [List.isChain_iff_getElem]
  intro i hi
  rw [List.head?_map]
  cases i with
  | zero =>
      rw [List.getElem_cons_zero, head?_childPlaces_none hone (hcount 0 (by simpa using hi))]
      simp
  | succ i =>
      have hlast : i + 1 < count := by simpa using hi
      have hlength : i + 1 < depths.length := (List.getElem?_eq_some_iff.mp (hcount (i + 1) hlast)).1
      have hnearest : NearestAbove depths i (i + 1) :=
        ⟨Nat.lt_succ_self i, i + 1, hcount i (by omega), hcount (i + 1) hlast, fun k hk hki => by omega⟩
      simp [head?_childPlaces_some hlength hnearest]

/-- Entries that go down level by level at the beginning of a block come first in its tree. -/
theorem prefix_preorder_assemble (root : α) {chain : List α} {rest : List (α × Nat)} (nested : ∀ e ∈ rest, 1 ≤ e.2) :
    root :: chain <+: (assemble root (chain.zipIdx 1 ++ rest)).preorder := by
  obtain ⟨depths, hdepths⟩ : ∃ d, d = (chain.zipIdx 1 ++ rest).map Prod.snd := ⟨_, rfl⟩
  have hchain : ∀ i, i < chain.length → depths[i]? = some (i + 1) := by
    intro i hi
    rw [hdepths, List.getElem?_map, List.getElem?_append_left (by simpa using hi)]
    simp [hi, Nat.add_comm]
  have hone : ∀ d ∈ depths, 1 ≤ d := by
    intro d hd
    rw [hdepths, List.map_append, List.mem_append] at hd
    rcases hd with hd | hd
    · obtain ⟨e, he, rfl⟩ := List.mem_map.mp hd
      exact List.le_snd_of_mem_zipIdx he
    · obtain ⟨e, he, rfl⟩ := List.mem_map.mp hd
      exact nested e he
  have hplaces := isChain_childPlaces hone hchain
  obtain ⟨hself, hfollows⟩ := follows_placesTree depths
  rw [← hself] at hplaces
  have hbegins := (hfollows.prefix_preorder hplaces).map (placeLabel root ((chain.zipIdx 1 ++ rest).map Prod.fst))
  have hlabels : (List.range chain.length).map
      (placeLabel root ((chain.zipIdx 1 ++ rest).map Prod.fst) ∘ some) = chain := by
    refine List.ext_getElem (by simp) fun i _ hi => ?_
    have hi' : i < (chain.zipIdx 1).length := by simpa using hi
    simp [placeLabel, List.getD_eq_getElem?_getD, List.getElem?_append_left, hi]
  rw [assemble_eq_map_placesTree, preorder_map, ← hdepths]
  rw [hself, List.map_cons, List.map_map, hlabels] at hbegins
  exact hbegins

end Rose

end IndentMarkup
