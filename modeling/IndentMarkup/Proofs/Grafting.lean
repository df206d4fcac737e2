import IndentMarkup.Proofs.Nesting
import Mathlib.Data.List.Induction

/-!
# A forest behind a block

A block is *supported* when every entry below the first level has an earlier entry one level above it. If the
listing of a forest follows a supported block, the forest is put, as it is, behind the children of the last
entry one level above it (`assemble_append_withDepthsAll`), wherever in the block this entry is. So listing a
forest and assembling the list gives the forest back (`assemble_withDepthsAll`).
-/

namespace IndentMarkup

/-! ## Supported blocks -/

/-- Every entry is at the first level or has an earlier entry one level above it. -/
def Supported (depths : List Nat) : Prop :=
  ∀ front d behind, depths = front ++ d :: behind → ∃ c ∈ 0 :: front, d = c + 1

theorem supported_iff_getElem? {depths : List Nat} :
    Supported depths ↔
      ∀ (i d : Nat), depths[i]? = some d → d = 1 ∨ ∃ j c : Nat, j < i ∧ depths[j]? = some c ∧ c + 1 = d := by
  constructor
  · intro h i d hi
    obtain ⟨hlt, rfl⟩ := List.getElem?_eq_some_iff.mp hi
    obtain ⟨c, hc, hd⟩ := h (depths.take i) depths[i] (depths.drop (i + 1)) (by simp)
    rcases List.mem_cons.mp hc with rfl | hc
    · exact .inl hd
    · obtain ⟨j, hj, rfl⟩ := List.mem_take_iff_getElem.mp hc
      exact .inr ⟨j, depths[j], by omega, by simp, hd.symm⟩
  · rintro h front d behind rfl
    rcases h front.length d (by simp) with rfl | ⟨j, c, hj, hc, rfl⟩
    · exact ⟨0, by simp, rfl⟩
    · rw [List.getElem?_append_left hj] at hc
      exact ⟨c, .tail _ (List.mem_of_getElem? hc), rfl⟩

theorem supported_nil : Supported [] := by
  intro front d behind h
  simp at h

theorem Supported.concat {depths : List Nat} {c : Nat} (h : Supported depths) (hc : c ∈ 0 :: depths) :
    Supported (depths ++ [c + 1]) := by
  intro front d behind heq
  rcases List.eq_nil_or_concat' behind with rfl | ⟨behind, e, rfl⟩
  · obtain ⟨rfl, hd⟩ := List.append_inj' heq rfl
    exact ⟨c, hc, (List.singleton_inj.mp hd).symm⟩
  · rw [← List.cons_append, ← List.append_assoc] at heq
    exact h front d behind (List.append_inj' heq rfl).1

theorem Supported.left {front rest : List Nat} (h : Supported (front ++ rest)) : Supported front := by
  intro earlier d behind heq
  exact h earlier d (behind ++ rest) (by simp [heq])

theorem Supported.one_le {depths : List Nat} (h : Supported depths) {d : Nat} (hd : d ∈ depths) : 1 ≤ d := by
  obtain ⟨front, behind, heq⟩ := List.append_of_mem hd
  obtain ⟨c, -, rfl⟩ := h front d behind heq
  exact Nat.le_add_left 1 c

theorem Supported.mem_of_le {depths : List Nat} (h : Supported depths) {c d : Nat} (hd : d ∈ 0 :: depths)
    (hcd : c ≤ d) : c ∈ 0 :: depths := by
  induction hlength : depths.length using Nat.strongRecOn generalizing depths d with
  | ind n ih =>
      rcases Nat.eq_or_lt_of_le hcd with rfl | hlt
      · exact hd
      · rcases List.mem_cons.mp hd with rfl | hd
        · exact absurd hlt (Nat.not_lt_zero c)
        · obtain ⟨front, behind, rfl⟩ := List.append_of_mem hd
          obtain ⟨e, he, rfl⟩ := h front d behind rfl
          have hmem := ih front.length (by simp [← hlength]) h.left he (Nat.le_of_lt_succ hlt) rfl
          rcases List.mem_cons.mp hmem with rfl | hmem
          · simp
          · simp [hmem]

theorem supported_of_stepsDown {depths : List Nat} (hone : ∀ d ∈ depths, 1 ≤ d) (hsteps : StepsDown 1 depths) :
    Supported depths := by
  induction depths using List.reverseRecOn with
  | nil => exact supported_nil
  | append_singleton front d ih =>
      have hfront := ih (fun e he => hone e (by simp [he])) hsteps.left
      obtain ⟨c, rfl⟩ : ∃ c, d = c + 1 := ⟨d - 1, by have := hone d (by simp); omega⟩
      refine hfront.concat ?_
      rcases List.eq_nil_or_concat' front with rfl | ⟨earlier, e, rfl⟩
      · have hc : c + 1 ≤ 1 := hsteps.1
        simp [Nat.le_zero.mp (Nat.le_of_succ_le_succ hc)]
      · rw [List.append_assoc] at hsteps
        have hc : c + 1 ≤ e + 1 := hsteps.right.1
        exact hfront.mem_of_le (d := e) (by simp) (Nat.le_of_succ_le_succ hc)

namespace Rose

variable {α β : Type}

theorem parentPlace_levels_append {depths : List Nat} (more : List Nat) {i : Nat} (hi : i < depths.length) :
    parentPlace (levels (depths ++ more)) i = parentPlace (levels depths) i := by
  rw [levels, List.map_append]
  exact parentPlace_append _ (by simpa using hi)

/-- In a supported block the children of the root are in the order of the block too. -/
theorem childPlaces_eq_of_supported {depths : List Nat} (h : Supported depths) (x : Option Nat) :
    childPlaces depths x = (List.range depths.length).filter fun i => parentPlace (levels depths) i = x := by
  cases x with
  | some j => exact childPlaces_some_eq depths j
  | none =>
      have hlevel : ∀ i ∈ childPlaces depths none, depths.getD i 0 = 1 := by
        intro i hi
        obtain ⟨hlt, hparent⟩ := mem_childPlaces_iff.mp hi
        rw [parentPlace_eq_none_iff (by simpa using hlt)] at hparent
        have hsplit : depths = depths.take i ++ depths[i] :: depths.drop (i + 1) := by
          rw [List.getElem_cons_drop, List.take_append_drop]
        obtain ⟨c, hc, hd⟩ := h _ _ _ hsplit
        rcases List.mem_cons.mp hc with rfl | hc
        · simp [hlt, hd]
        · obtain ⟨j, hj, rfl⟩ := List.mem_take_iff_getElem.mp hc
          have hji : j < i := by omega
          have hjlt : j < depths.length := by omega
          exact absurd (by simp [levels, hlt, hd]) (hparent j depths[j] hji (by simp [levels, hjlt]))
      have hsorted : (childPlaces depths none).Pairwise (· < ·) := by
        refine (childPlaces_none_pairwise fun d hd => h.one_le hd).imp_of_mem fun {i k} hi hk hbefore => ?_
        rw [hlevel i hi, hlevel k hk] at hbefore
        omega
      have hperm : (childPlaces depths none).Perm
          ((List.range depths.length).filter fun i => parentPlace (levels depths) i = none) := by
        rw [childPlaces]
        exact (List.reverse_perm _).trans
          (((attachmentPlaces_perm (levels depths)).trans (by rw [length_levels])).filter _)
      refine hperm.eq_of_pairwise (fun a b _ _ hab hba => ?_) hsorted (List.pairwise_lt_range.filter _)
      omega

/-- One more entry behind a supported block becomes the last child of its parent. -/
theorem placesTree_concat {depths : List Nat} {d : Nat} (h : Supported (depths ++ [d])) :
    placesTree (depths ++ [d]) = (placesTree depths).extend id fun x =>
      if parentPlace (levels (depths ++ [d])) depths.length = x then [leaf (some depths.length)] else [] := by
  have hlast : childPlaces (depths ++ [d]) (some depths.length) = [] := by
    rw [List.eq_nil_iff_forall_not_mem]
    intro i hi
    obtain ⟨hlt, hparent⟩ := mem_childPlaces_iff.mp hi
    have := ((parentPlace_levels_iff hlt).mp hparent).lt
    rw [List.length_append, List.length_singleton] at hlt
    omega
  refine (follows_placesTree _).2.eq ((follows_placesTree depths).2.extend ?_ ?_) ?_
  · intro x _
    have hearlier : ∀ i ∈ List.range depths.length,
        decide (parentPlace (levels (depths ++ [d])) i = x) = decide (parentPlace (levels depths) i = x) :=
      fun i hi => by rw [parentPlace_levels_append [d] (List.mem_range.mp hi)]
    rw [id, childPlaces_eq_of_supported h, childPlaces_eq_of_supported h.left, List.length_append,
      List.length_singleton, List.range_succ, List.filter_append, List.map_append, List.filter_congr hearlier,
      List.map_id]
    by_cases hx : parentPlace (levels (depths ++ [d])) depths.length = x
    · simp [hx, leaf]
    · simp [hx]
  · intro x _ c hc
    by_cases hx : parentPlace (levels (depths ++ [d])) depths.length = x
    · rw [if_pos hx, List.mem_singleton] at hc
      rw [hc, leaf, follows_node_iff, hlast]
      exact ⟨rfl, fun _ hc => absurd hc List.not_mem_nil⟩
    · rw [if_neg hx] at hc
      exact absurd hc List.not_mem_nil
  · rw [self_extend, (follows_placesTree _).1, (follows_placesTree _).1, id]

/-! ## The last entry at a level -/

/-- Among the root and the entries of a block, `p` is the last one at depth `d`. -/
def IsLastAt (root : α) (entries : List (α × Nat)) (d : Nat) (p : α) : Prop :=
  ∃ front behind, (root, 0) :: entries = front ++ (p, d) :: behind ∧ ∀ e ∈ behind, e.2 ≠ d

theorem IsLastAt.mem {root p : α} {entries : List (α × Nat)} {d : Nat} (h : IsLastAt root entries d p) :
    (p, d) ∈ (root, 0) :: entries := by
  obtain ⟨front, behind, heq, -⟩ := h
  rw [heq]
  simp

theorem IsLastAt.append {root p : α} {entries more : List (α × Nat)} {d : Nat} (h : IsLastAt root entries d p)
    (hmore : ∀ e ∈ more, e.2 ≠ d) : IsLastAt root (entries ++ more) d p := by
  obtain ⟨front, behind, heq, hbehind⟩ := h
  refine ⟨front, behind ++ more, ?_, ?_⟩
  · rw [← List.cons_append, heq, List.append_assoc, List.cons_append]
  · intro e he
    rcases List.mem_append.mp he with he | he
    · exact hbehind e he
    · exact hmore e he

theorem isLastAt_concat (root x : α) (entries : List (α × Nat)) (d : Nat) :
    IsLastAt root (entries ++ [(x, d)]) d x :=
  ⟨(root, 0) :: entries, [], by simp, by simp⟩

theorem IsLastAt.mem_depths {root p : α} {entries : List (α × Nat)} {d : Nat} (h : IsLastAt root entries d p) :
    d ∈ 0 :: entries.map Prod.snd := by
  simpa using List.mem_map_of_mem (f := Prod.snd) h.mem

theorem parentPlace_concat_eq_none {depths : List Nat} (h : ∀ d ∈ depths, d ≠ 0) :
    parentPlace (levels (depths ++ [1])) depths.length = none := by
  rw [parentPlace_eq_none_iff (by simp)]
  intro j c hj hc hdepth
  obtain rfl : c = 0 := by
    have hone : 1 = c + 1 := by simpa [levels] using hdepth
    omega
  simp only [levels, List.getElem?_map, Option.map_eq_some_iff] at hc
  obtain ⟨e, he, he0⟩ := hc
  rw [List.getElem?_append_left hj] at he
  exact h e (List.mem_of_getElem? he) (by omega)

theorem parentPlace_concat_eq_some {front behind : List Nat} {d : Nat} (h : ∀ e ∈ behind, e ≠ d) :
    parentPlace (levels (front ++ d :: behind ++ [d + 1])) (front ++ d :: behind).length = some front.length := by
  rw [parentPlace_levels_iff (by simp)]
  refine ⟨by simp, d, by simp, by simp, fun k hk hlast hd => ?_⟩
  obtain ⟨k, rfl⟩ : ∃ m, k = front.length + (m + 1) := ⟨k - front.length - 1, by omega⟩
  rw [List.length_append, List.length_cons] at hlast
  have hkb : k < behind.length := by omega
  rw [List.getElem?_append_left (by simp; omega), List.getElem?_append_right (by simp), Nat.add_sub_cancel_left,
    List.getElem?_cons_succ] at hd
  exact h d (List.mem_of_getElem? hd) rfl

/-- A new entry hangs under the last entry one level above it. -/
theorem IsLastAt.placeLabel_parentPlace {root p : α} {entries : List (α × Nat)} {d : Nat}
    (h : IsLastAt root entries d p) :
    placeLabel root (entries.map Prod.fst)
      (parentPlace (levels (entries.map Prod.snd ++ [d + 1])) (entries.map Prod.snd).length) = p := by
  obtain ⟨front, behind, heq, hbehind⟩ := h
  have hdepths : ∀ e ∈ behind.map Prod.snd, e ≠ d := List.forall_mem_map.mpr hbehind
  cases front with
  | nil =>
      rw [List.nil_append, List.cons.injEq, Prod.mk.injEq] at heq
      obtain ⟨⟨rfl, rfl⟩, rfl⟩ := heq
      rw [parentPlace_concat_eq_none hdepths, placeLabel]
  | cons first front =>
      rw [List.cons_append, List.cons.injEq] at heq
      obtain ⟨-, rfl⟩ := heq
      simp only [List.map_append, List.map_cons]
      rw [parentPlace_concat_eq_some hdepths, placeLabel]
      simp

/-! ## Grafting -/

/-- Trees for one label, and none for any other. -/
def under [DecidableEq α] (p : α) (ts : List (Rose β)) (a : α) : List (Rose β) := if a = p then ts else []

theorem placeLabel_append {root : α} {labels : List α} (more : List α) {i : Nat} (hi : i < labels.length) :
    placeLabel root (labels ++ more) (some i) = placeLabel root labels (some i) := by
  rw [placeLabel, placeLabel, List.getD_eq_getElem?_getD, List.getD_eq_getElem?_getD,
    List.getElem?_append_left hi]

theorem placeLabel_concat (root x : α) (labels : List α) :
    placeLabel root (labels ++ [x]) (some labels.length) = x := by
  simp [placeLabel]

/-- A new entry behind a supported block becomes the last child of the last entry one level above it. -/
theorem assemble_concat [DecidableEq α] {root p x : α} {entries : List (α × Nat)} {d : Nat}
    (hdistinct : (root :: entries.map Prod.fst).Nodup) (hsupported : Supported (entries.map Prod.snd))
    (hlast : IsLastAt root entries d p) :
    assemble root (entries ++ [(x, d + 1)]) = (assemble root entries).extend id (under p [leaf x]) := by
  have hlabel := hlast.placeLabel_parentPlace
  have hparent : ∀ i, parentPlace (levels (entries.map Prod.snd ++ [d + 1])) (entries.map Prod.snd).length = some i →
      i < (entries.map Prod.fst).length := by
    intro i hi
    simpa using ((parentPlace_levels_iff (by simp)).mp hi).lt
  rw [assemble_eq_map_placesTree, assemble_eq_map_placesTree root entries, List.map_append, List.map_append,
    List.map_singleton, List.map_singleton, placesTree_concat (hsupported.concat hlast.mem_depths), map_extend,
    ← extend_nil (placeLabel root (entries.map Prod.fst)), extend_extend]
  refine extend_congr (fun a ha => ?_) fun a ha => ?_
  · cases a with
    | none => rfl
    | some i => exact placeLabel_append [x] (by simpa using lt_of_mem_preorder_placesTree ha i rfl)
  · have hlt : ∀ i, a = some i → i < (entries.map Prod.fst).length := by
      simpa using lt_of_mem_preorder_placesTree ha
    by_cases h : parentPlace (levels (entries.map Prod.snd ++ [d + 1])) (entries.map Prod.snd).length = a
    · rw [h] at hlabel
      have hnew := placeLabel_concat root x (entries.map Prod.fst)
      rw [List.length_map] at hnew
      rw [if_pos h, under, if_pos hlabel]
      simp [hnew]
    · have hne : placeLabel root (entries.map Prod.fst) a ≠ p := fun ha' =>
        h (placeLabel_inj hdistinct hparent hlt (hlabel.trans ha'.symm))
      rw [if_neg h, under, if_neg hne]
      rfl

theorem map_under [DecidableEq α] {γ : Type} (f : β → γ) (p : α) (ts : List (Rose β)) :
    (fun a => (under p ts a).map (map f)) = under p (ts.map (map f)) := by
  funext a
  by_cases hap : a = p <;> simp [under, hap]

theorem extend_under_eq_map [DecidableEq α] {f : α → β} {p : α} {ts : List (Rose β)} {t : Rose α}
    (h : p ∉ t.preorder) : t.extend f (under p ts) = t.map f := by
  have hnone : ∀ a ∈ t.preorder, under p ts a = [] := fun a ha => if_neg fun (hap : a = p) => h (hap ▸ ha)
  rw [extend_congr (fun _ _ => rfl) hnone, extend_nil]

/-- Putting trees behind the children of a node, and then more trees behind these. -/
theorem extend_under_under [DecidableEq α] {p : α} {ts us : List (Rose α)} {t : Rose α}
    (h : ∀ c ∈ ts, p ∉ c.preorder) :
    (t.extend id (under p ts)).extend id (under p us) = t.extend id (under p (ts ++ us)) := by
  rw [extend_extend]
  refine extend_congr (fun _ _ => rfl) fun a _ => ?_
  by_cases hap : a = p
  · have hts : ts.map (extend id (under p us)) = ts := by
      conv_rhs => rw [← List.map_id ts]
      exact List.map_congr_left fun c hc => by rw [extend_under_eq_map (h c hc), map_id_eq, id]
    simp [under, hap, hts]
  · simp [under, hap]

theorem extend_under_leaf [DecidableEq α] {p x : α} {cs : List (Rose α)} {t : Rose α} (hx : x ∉ t.preorder) :
    (t.extend id (under p [leaf x])).extend id (under x cs) = t.extend id (under p [node x cs]) := by
  rw [extend_extend]
  refine extend_congr (fun _ _ => rfl) fun a ha => ?_
  have hax : a ≠ x := fun h => hx (h ▸ ha)
  by_cases hap : a = p
  · simp [under, hap, leaf, hap ▸ hax]
  · simp [under, hap, hax]

/-- The listing of a forest behind a supported block is put, as it is, behind the children of the last entry one
level above it. -/
theorem assemble_append_withDepthsAll [DecidableEq α] {root p : α} {entries : List (α × Nat)} {d : Nat}
    {ts : List (Rose α)}
    (hdistinct : (root :: (entries ++ withDepthsAll (d + 1) ts).map Prod.fst).Nodup)
    (hsupported : Supported (entries.map Prod.snd)) (hlast : IsLastAt root entries d p) :
    Supported ((entries ++ withDepthsAll (d + 1) ts).map Prod.snd) ∧
      assemble root (entries ++ withDepthsAll (d + 1) ts) = (assemble root entries).extend id (under p ts) := by
  induction ts using induction_forest generalizing entries d p with
  | nil =>
      have hnone : under p ([] : List (Rose α)) = fun _ => [] := funext fun a => by rw [under, ite_self]
      rw [withDepthsAll_nil, List.append_nil, hnone, extend_nil, map_id_eq]
      exact ⟨hsupported, rfl⟩
  | cons x cs rest ihcs ihrest =>
      rw [withDepthsAll_cons] at hdistinct ⊢
      -- the first node of the forest, then its children below it, then the other trees
      have hassoc : entries ++ (x, d + 1) :: (withDepthsAll (d + 1 + 1) cs ++ withDepthsAll (d + 1) rest) =
          (entries ++ [(x, d + 1)] ++ withDepthsAll (d + 1 + 1) cs) ++ withDepthsAll (d + 1) rest := by simp
      rw [hassoc] at hdistinct ⊢
      have hnode := assemble_concat (x := x) (hdistinct.sublist (by simp)) hsupported hlast
      obtain ⟨hsupported', hcs⟩ := @ihcs _ (entries ++ [(x, d + 1)]) _ (hdistinct.sublist (by simp))
        (by rw [List.map_append]; exact hsupported.concat hlast.mem_depths) (isLastAt_concat root x entries (d + 1))
      have hlast' : IsLastAt root (entries ++ [(x, d + 1)] ++ withDepthsAll (d + 1 + 1) cs) d p := by
        refine (hlast.append (by simp)).append fun e he => ?_
        have := le_of_mem_withDepthsAll he
        omega
      obtain ⟨hsupported'', hrest⟩ := ihrest hdistinct hsupported' hlast'
      refine ⟨hsupported'', ?_⟩
      have hapart : ((root :: entries.map Prod.fst) ++ (node x cs).preorder).Nodup := by
        have hfront := hdistinct.sublist (List.Sublist.cons_cons root ((List.sublist_append_left _ _).map Prod.fst))
        simpa [map_fst_withDepthsAll] using hfront
      obtain ⟨-, -, hne⟩ := List.nodup_append.mp hapart
      have hx : x ∉ (assemble root entries).preorder := fun hx =>
        hne x ((preorder_assemble_perm root entries).mem_iff.mp hx) x (by simp) rfl
      have hp : p ∉ (node x cs).preorder := fun hp =>
        hne p (by simpa using List.mem_map_of_mem (f := Prod.fst) hlast.mem) p hp rfl
      calc assemble root (entries ++ [(x, d + 1)] ++ withDepthsAll (d + 1 + 1) cs ++ withDepthsAll (d + 1) rest)
          _ = (assemble root (entries ++ [(x, d + 1)] ++ withDepthsAll (d + 1 + 1) cs)).extend id (under p rest) :=
            hrest
          _ = (((assemble root entries).extend id (under p [leaf x])).extend id (under x cs)).extend id
              (under p rest) := by rw [hcs, hnode]
          _ = ((assemble root entries).extend id (under p [node x cs])).extend id (under p rest) := by
            rw [extend_under_leaf hx]
          _ = (assemble root entries).extend id (under p (node x cs :: rest)) :=
            extend_under_under (by simpa using hp)

theorem assemble_nil (root : α) : assemble root [] = leaf root := by
  simp [assemble, attachments, pendingFrom, attachmentsOf_nil]

/-- Every tree is the image of one whose labels are pairwise different. -/
theorem exists_numbering (root : α) (cs : List (Rose α)) :
    ∃ (ds : List (Rose Nat)) (label : Nat → α),
      (0 :: ds.flatMap preorder).Nodup ∧ label 0 = root ∧ ds.map (map label) = cs := by
  obtain ⟨entries, hentries⟩ : ∃ l, l = withDepthsAll 1 cs := ⟨_, rfl⟩
  obtain ⟨numbered, hnumbered⟩ : ∃ l : List (Nat × Nat), l = entries.mapIdx fun i e => (i + 1, e.2) := ⟨_, rfl⟩
  have hdepths : numbered.map Prod.snd = entries.map Prod.snd := by
    rw [hnumbered]
    exact List.ext_getElem (by simp) fun i _ _ => by simp
  have hlabels : numbered.map Prod.fst = List.range' 1 entries.length := by
    rw [hnumbered]
    exact List.ext_getElem (by simp) fun i _ _ => by simp [Nat.add_comm]
  have hrestore : numbered.map (fun e => ((root :: entries.map Prod.fst).getD e.1 root, e.2)) = entries := by
    rw [hnumbered]
    exact List.ext_getElem (by simp) fun i _ hi => by simp [hi]
  have hone : ∀ e ∈ numbered, 1 ≤ e.2 := by
    intro e he
    have hmem : e.2 ∈ entries.map Prod.snd := hdepths ▸ List.mem_map_of_mem he
    obtain ⟨e', he', heq⟩ := List.mem_map.mp hmem
    exact heq ▸ le_of_mem_withDepthsAll (hentries ▸ he')
  have hsteps : StepsDown 1 (numbered.map Prod.snd) := by
    rw [hdepths, hentries]
    exact stepsDown_withDepthsAll 1 cs
  obtain ⟨ds, hds⟩ := exists_withDepthsAll hone hsteps
  refine ⟨ds, fun i => (root :: entries.map Prod.fst).getD i root, ?_, rfl, ?_⟩
  · rw [← map_fst_withDepthsAll 1, hds, hlabels, List.nodup_cons]
    exact ⟨by simp, List.nodup_range'⟩
  · refine withDepthsAll_inj 1 ?_
    rw [withDepthsAll_map, hds, hrestore, hentries]

/-- Assembling the listing of a forest gives the forest back. -/
theorem assemble_withDepthsAll (root : α) (cs : List (Rose α)) :
    assemble root (withDepthsAll 1 cs) = node root cs := by
  obtain ⟨ds, label, hdistinct, rfl, rfl⟩ := exists_numbering root cs
  rw [← map_fst_withDepthsAll (0 + 1)] at hdistinct
  have hlast : IsLastAt 0 [] 0 0 := ⟨[], [], rfl, by simp⟩
  have hsupported : Supported (([] : List (Nat × Nat)).map Prod.snd) := supported_nil
  have hgraft := (assemble_append_withDepthsAll hdistinct hsupported hlast).2
  have hassemble : assemble 0 (withDepthsAll 1 ds) = node 0 ds := by
    rw [List.nil_append, assemble_nil, leaf, extend_node] at hgraft
    simpa [under] using hgraft
  rw [withDepthsAll_map, ← map_assemble, hassemble, map_node]

end Rose

end IndentMarkup
