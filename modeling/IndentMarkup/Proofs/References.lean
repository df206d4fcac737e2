import IndentMarkup.Proofs.Escaping
import Mathlib.Data.List.Infix
import Mathlib.Data.List.TakeWhile

/-!
# References that are too long

A decimal reference of more digits than are read as a number is the only thing that keeps a text from being decoded
(`exists_decode_eq_error_iff`). Wherever it stands, it is met: no reference in front of it reaches over an ampersand
(`ampersand_not_mem_take`).
-/

namespace IndentMarkup

namespace Entity

theorem exists_of_reference?_decimal {r run : Text} {length : Nat}
    (h : reference? r = some (.number 10 run, length)) :
    (∃ rest, r = '#' :: (run ++ rest)) ∧ ∀ c ∈ run, c.isDigit := by
  unfold reference? at h
  split at h
  · next behind =>
      split at h
      · next x digits =>
          split at h
          · dsimp only at h
            split at h <;> simp at h
          · dsimp only at h
            split at h
            · simp at h
            · obtain ⟨rfl, -⟩ : (x :: digits).takeWhile Char.isDigit = run ∧ _ := by simpa using h
              exact ⟨⟨(x :: digits).dropWhile Char.isDigit, by rw [List.takeWhile_append_dropWhile]⟩,
                fun c hc => List.mem_takeWhile_imp hc⟩
      · simp at h
  · dsimp only at h
    split at h <;> simp at h

theorem exists_of_value_eq_error {reference : Reference} {digits : Nat}
    (h : reference.value = .error (.tooLong digits)) :
    ∃ run, reference = .number 10 run ∧ run.length = digits ∧ digitLimit < digits := by
  cases reference with
  | name word closed =>
      simp only [Reference.value] at h
      split at h <;> simp at h
  | number base run =>
      rw [Reference.value] at h
      split at h
      · next hlong =>
          obtain rfl : run.length = digits := by simpa using h
          exact ⟨run, by rw [hlong.1], rfl, hlong.2⟩
      · simp at h

theorem eq_error_of_map_eq_error {α β ε : Type} {f : α → β} {x : Except ε α} {fault : ε} (h : x.map f = .error fault) :
    x = .error fault := by
  cases x with
  | error e => exact congrArg _ (Except.error.inj h)
  | ok a => simp [Except.map] at h

theorem exists_of_decode_eq_error {s : Text} {digits : Nat} (h : decode s = .error (.tooLong digits)) :
    digitLimit < digits ∧ ∃ run : Text, run.length = digits ∧ (∀ c ∈ run, c.isDigit) ∧ '&' :: '#' :: run <:+: s := by
  unfold decode at h
  generalize 0 = skip at h
  induction s generalizing skip with
  | nil => simp [decodeFrom] at h
  | cons c r ih =>
      have hlater : ∀ skip, decodeFrom skip r = .error (.tooLong digits) → digitLimit < digits ∧
          ∃ run : Text, run.length = digits ∧ (∀ c ∈ run, c.isDigit) ∧ '&' :: '#' :: run <:+: c :: r := by
        intro skip hr
        obtain ⟨hlong, run, hlength, hdigits, hinfix⟩ := ih skip hr
        exact ⟨hlong, run, hlength, hdigits, hinfix.trans (List.suffix_cons c r).isInfix⟩
      cases skip with
      | succ skip => exact hlater skip h
      | zero =>
          rw [decodeFrom] at h
          split at h
          · next hc =>
              split at h
              · next reference length hread =>
                  split at h
                  · exact hlater length (eq_error_of_map_eq_error h)
                  · next fault hvalue =>
                      obtain rfl := Except.error.inj h
                      obtain ⟨run, rfl, hlength, hlong⟩ := exists_of_value_eq_error hvalue
                      obtain ⟨⟨rest, rfl⟩, hdigits⟩ := exists_of_reference?_decimal hread
                      exact ⟨hlong, run, hlength, hdigits, ⟨[], rest, by simp [hc]⟩⟩
              · exact hlater 0 (eq_error_of_map_eq_error h)
          · exact hlater 0 (eq_error_of_map_eq_error h)

/-- A decimal reference of more digits than are read as a number. -/
def HasLongReference (s : Text) : Prop :=
  ∃ run : Text, digitLimit < run.length ∧ (∀ c ∈ run, c.isDigit) ∧ '&' :: '#' :: run <:+: s

theorem not_hasLongReference_of_length_le {s : Text} (h : s.length ≤ digitLimit) : ¬ HasLongReference s := by
  rintro ⟨run, hlong, -, hinfix⟩
  have hle := hinfix.length_le
  simp only [List.length_cons] at hle
  omega

theorem mem_take_closing {run s : Text} (hrun : run <+: s) {c : Char}
    (hc : c ∈ s.take (run.length + closing (s.drop run.length))) : c ∈ run ∨ c = ';' := by
  obtain ⟨rest, rfl⟩ := hrun
  rw [List.drop_left, List.take_length_add_append, List.mem_append] at hc
  refine hc.imp_right fun hrest => ?_
  rw [closing] at hrest
  split at hrest
  · next hsemicolon =>
      cases rest with
      | nil => simp at hrest
      | cons d rest =>
          obtain rfl : d = ';' := by simpa using hsemicolon
          simpa using hrest
  · simp at hrest

theorem ampersand_not_mem_take {s : Text} {reference : Reference} {length : Nat}
    (h : reference? s = some (reference, length)) : '&' ∉ s.take length := by
  have hdigits : isHexDigit '&' = false ∧ Char.isDigit '&' = false ∧ isNameChar '&' = false := by decide
  have hrun : ∀ (p : Char → Bool) (digits rest : Text), p '&' = false → digits <+: rest →
      (∀ c ∈ digits, p c) → '&' ∉ rest.take (digits.length + closing (rest.drop digits.length)) := by
    intro p digits rest hp hprefix hall hmem
    rcases mem_take_closing hprefix hmem with hmem | heq
    · exact Bool.noConfusion (hp.symm.trans (hall _ hmem))
    · exact absurd heq (by decide)
  unfold reference? at h
  split at h
  · split at h
    · next x behind =>
        split at h
        · next hx =>
            dsimp only at h
            split at h
            · simp at h
            · obtain ⟨-, rfl⟩ := Prod.mk.inj (Option.some.inj h)
              have hbehind := hrun isHexDigit _ behind hdigits.1 (List.takeWhile_prefix _)
                fun c hc => List.mem_takeWhile_imp hc
              rw [Nat.add_assoc, Nat.add_comm 2, List.take_succ_cons, List.take_succ_cons]
              rcases hx with rfl | rfl <;> simpa using hbehind
        · dsimp only at h
          split at h
          · simp at h
          · obtain ⟨-, rfl⟩ := Prod.mk.inj (Option.some.inj h)
            have hbehind := hrun Char.isDigit _ (x :: behind) hdigits.2.1 (List.takeWhile_prefix _)
              fun c hc => List.mem_takeWhile_imp hc
            rw [Nat.add_assoc, Nat.add_comm 1, List.take_succ_cons]
            simpa using hbehind
    · simp at h
  · dsimp only at h
    split at h
    · simp at h
    · obtain ⟨-, rfl⟩ := Prod.mk.inj (Option.some.inj h)
      exact hrun isNameChar _ _ hdigits.2.2 ((List.takeWhile_prefix _).trans (List.take_prefix _ _))
        fun c hc => List.mem_takeWhile_imp hc

/-- Decoding meets every long reference. What is still to be passed over of a reference holds no ampersand. -/
theorem exists_decodeFrom_eq_error {s : Text} (hlong : HasLongReference s) {skip : Nat} (hskip : '&' ∉ s.take skip) :
    ∃ digits, decodeFrom skip s = .error (.tooLong digits) := by
  obtain ⟨run, hlength, hdigits, hinfix⟩ := hlong
  induction s generalizing skip with
  | nil => simp at hinfix
  | cons c r ih =>
      cases skip with
      | succ skip =>
          -- what is passed over is no ampersand, so the long reference begins further behind
          rw [List.take_succ_cons, List.mem_cons, not_or] at hskip
          rcases List.infix_cons_iff.mp hinfix with hprefix | hinfix
          · exact absurd (List.cons_prefix_cons.mp hprefix).1 hskip.1
          · exact ih hskip.2 hinfix
      | zero =>
          rw [decodeFrom]
          rcases List.infix_cons_iff.mp hinfix with hprefix | hinfix
          · obtain ⟨rfl, rest, rfl⟩ := List.cons_prefix_cons.mp hprefix
            have hne : run ≠ [] := List.ne_nil_of_length_pos (Nat.zero_lt_of_lt hlength)
            have hmore : digitLimit < (run ++ rest.takeWhile Char.isDigit).length := by
              rw [List.length_append]
              exact Nat.lt_add_right _ hlength
            rw [if_pos rfl, List.cons_append, reference?_digits hne hdigits rest]
            simp only [Reference.value, hmore, and_self, if_true]
            exact ⟨_, rfl⟩
          · split
            · split
              · next reference length hread =>
                  obtain ⟨digits, hlater⟩ := ih (ampersand_not_mem_take hread) hinfix
                  split
                  · exact ⟨digits, by rw [hlater]; rfl⟩
                  · next fault _ =>
                      obtain ⟨own⟩ := fault
                      exact ⟨own, rfl⟩
              · obtain ⟨digits, hlater⟩ := @ih 0 List.not_mem_nil hinfix
                exact ⟨digits, by rw [hlater]; rfl⟩
            · obtain ⟨digits, hlater⟩ := @ih 0 List.not_mem_nil hinfix
              exact ⟨digits, by rw [hlater]; rfl⟩

/-- A text is decoded unless it has a reference that is too long. -/
theorem exists_decode_eq_error_iff {s : Text} :
    (∃ digits, decode s = .error (.tooLong digits)) ↔ HasLongReference s := by
  refine ⟨?_, fun hlong => exists_decodeFrom_eq_error hlong List.not_mem_nil⟩
  rintro ⟨digits, hdecode⟩
  obtain ⟨hlong, run, rfl, hdigits, hinfix⟩ := exists_of_decode_eq_error hdecode
  exact ⟨run, hlong, hdigits, hinfix⟩

end Entity

end IndentMarkup
