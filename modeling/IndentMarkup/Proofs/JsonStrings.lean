import IndentMarkup.Proofs.JsonRuns

/-!
# Reading strings

A string is held with its characters in reverse and with the first half of a surrogate pair that is not complete yet.
What it holds is told by all that it may become (`Spells`): with whatever units follow, it will be the text of the units
that were read and of those. Entering a unit keeps this (`Spells.enter`), so the parts of a string are read as the text
that they spell (`run_pieces`, `Spells.reverse_settle`).
-/

namespace IndentMarkup.Json

/-! ## Code units -/

variable {units : List (Char ⊕ Nat)} {chars : Text} {high : Option Nat}

theorem joinUnits_of_not_isHigh {unit : Nat} (h : ¬ IsHigh unit) (more : List (Char ⊕ Nat)) :
    joinUnits (.inr unit :: more) = loneChar unit :: joinUnits more := by
  cases more with
  | nil => rfl
  | cons u more =>
      cases u with
      | inl c => rfl
      | inr low => rw [joinUnits, if_neg fun hpair => h hpair.1]

/-- The unit that waits for the second half of its pair. -/
def pending (high : Option Nat) : List (Char ⊕ Nat) := (high.map .inr).toList

def StartsAlone (units : List (Char ⊕ Nat)) : Prop := ∀ unit, .inr unit ∈ units.head? → ¬ IsLow unit

theorem reverse_append_joinUnits_pending (hhigh : ∀ h ∈ high, IsHigh h) {more : List (Char ⊕ Nat)}
    (hmore : StartsAlone more) :
    chars.reverse ++ joinUnits (pending high ++ more) = (settle chars high).reverse ++ joinUnits more := by
  cases high with
  | none => rfl
  | some h =>
      have hlone : loneChar h = '\ufffd' := if_pos (.inl (hhigh h rfl))
      have hjoin : joinUnits (.inr h :: more) = loneChar h :: joinUnits more := by
        cases more with
        | nil => rfl
        | cons u more =>
            cases u with
            | inl c => rfl
            | inr low => rw [joinUnits, if_neg fun hpair => hmore low rfl hpair.2]
      rw [show pending (some h) ++ more = .inr h :: more from rfl, hjoin, hlone, settle, List.reverse_cons,
        List.append_assoc, List.singleton_append]

/-- What a string holds of the units that were read: it becomes their text, whatever units follow. -/
structure Spells (units : List (Char ⊕ Nat)) (chars : Text) (high : Option Nat) : Prop where
  isHigh : ∀ h ∈ high, IsHigh h
  joinUnits_append : ∀ more, joinUnits (units ++ more) = chars.reverse ++ joinUnits (pending high ++ more)

namespace Spells

theorem nil : Spells [] [] none := ⟨by simp, fun _ => rfl⟩

theorem joinUnits_append_of_startsAlone (h : Spells units chars high) {more : List (Char ⊕ Nat)}
    (hmore : StartsAlone more) : joinUnits (units ++ more) = (settle chars high).reverse ++ joinUnits more :=
  (h.joinUnits_append more).trans (reverse_append_joinUnits_pending h.isHigh hmore)

theorem reverse_settle (h : Spells units chars high) : (settle chars high).reverse = joinUnits units := by
  have hend := h.joinUnits_append_of_startsAlone (show StartsAlone [] by simp [StartsAlone])
  simpa [joinUnits] using hend.symm

end Spells

def enter (chars : Text) (high : Option Nat) : Char ⊕ Nat → Inside
  | .inl c => .string (c :: settle chars high) none
  | .inr unit => enterUnit chars high unit

theorem Spells.inl (h : Spells units chars high) (c : Char) :
    Spells (units ++ [.inl c]) (c :: settle chars high) none := by
  refine ⟨by simp, fun more => ?_⟩
  rw [List.append_assoc, h.joinUnits_append_of_startsAlone (by simp [StartsAlone])]
  simp [joinUnits, pending]

theorem Spells.enterPlain (h : Spells units chars high) {unit : Nat} (hunit : high = none ∨ ¬ IsLow unit) :
    ∃ chars' high', enterUnit.enterPlain (settle chars high) unit = .string chars' high' ∧
      Spells (units ++ [.inr unit]) chars' high' := by
  have hjoin : ∀ more, joinUnits (units ++ (.inr unit :: more)) =
      (settle chars high).reverse ++ joinUnits (.inr unit :: more) := by
    rcases hunit with rfl | hlow
    · exact fun more => h.joinUnits_append _
    · exact fun more => h.joinUnits_append_of_startsAlone fun u hu => Sum.inr.inj (Option.some.inj hu) ▸ hlow
  rw [enterUnit.enterPlain]
  split
  · next hhigh =>
      refine ⟨_, _, rfl, ⟨fun u hu => Option.some.inj hu ▸ hhigh, fun more => ?_⟩⟩
      rw [List.append_assoc]
      exact hjoin more
  · next hhigh =>
      have hlone : ∀ c, loneChar unit = c → Spells (units ++ [.inr unit]) (c :: settle chars high) none := by
        rintro c rfl
        refine ⟨by simp, fun more => ?_⟩
        rw [List.append_assoc, List.singleton_append, hjoin, joinUnits_of_not_isHigh hhigh]
        simp [pending]
      split
      · next hlow => exact ⟨_, _, rfl, hlone _ (if_pos (.inr hlow))⟩
      · next hlow => exact ⟨_, _, rfl, hlone _ (if_neg (not_or.mpr ⟨hhigh, hlow⟩))⟩

theorem Spells.enter (h : Spells units chars high) (u : Char ⊕ Nat) :
    ∃ chars' high', enter chars high u = .string chars' high' ∧ Spells (units ++ [u]) chars' high' := by
  cases u with
  | inl c => exact ⟨_, _, rfl, h.inl c⟩
  | inr unit =>
      cases high with
      | none => exact h.enterPlain (.inl rfl)
      | some first =>
          by_cases hlow : IsLow unit
          · refine ⟨_, _, if_pos hlow, by simp, fun more => ?_⟩
            rw [List.append_assoc, h.joinUnits_append]
            have hpair : joinUnits (.inr first :: .inr unit :: more) = pairChar first unit :: joinUnits more := by
              rw [joinUnits, if_pos ⟨h.isHigh first rfl, hlow⟩]
            simp [pending, hpair, pairChar]
          · obtain ⟨chars', high', henter, hspells⟩ := h.enterPlain (.inr hlow)
            exact ⟨chars', high', (if_neg hlow).trans henter, hspells⟩

/-! ## Parts of strings -/

theorem unit?_eq_some_iff {w x y z : Char} {unit : Nat} : unit? w x y z = some unit ↔
    ∃ a b c d, hexValue? w = some a ∧ hexValue? x = some b ∧ hexValue? y = some c ∧ hexValue? z = some d ∧
      unit = ((a * 16 + b) * 16 + c) * 16 + d := by
  simp only [unit?, Option.bind_eq_bind, Option.bind_eq_some_iff, Option.pure_def, Option.some.injEq]
  constructor
  · rintro ⟨a, ha, b, hb, c, hc, d, hd, rfl⟩
    exact ⟨a, b, c, d, ha, hb, hc, hd, rfl⟩
  · rintro ⟨a, b, c, d, ha, hb, hc, hd, rfl⟩
    exact ⟨a, ha, b, hb, c, hc, d, hd, rfl⟩

theorem run_piece (e : Expected) (opened : List Open) (p : Piece) :
    Reader.run ⟨.string chars high, e, opened⟩ p.text = .ok ⟨enter chars high p.unit, e, opened⟩ := by
  cases p with
  | plain c hquote hslash hcontrol =>
      have hstep : Reader.step ⟨.string chars high, e, opened⟩ c =
          .ok ⟨.string (c :: settle chars high) none, e, opened⟩ := by
        simp [Reader.step, hquote, hslash, Nat.not_lt.mpr hcontrol]
      exact Reader.run_cons_of_step hstep []
  | letter c e' h =>
      have hc : c ≠ 'u' := by
        rintro rfl
        simp [escapeChar?] at h
      have hstep : Reader.step ⟨.escape chars high, e, opened⟩ c =
          .ok ⟨.string (e' :: settle chars high) none, e, opened⟩ := by
        simp [Reader.step, hc, h]
      change Reader.run ⟨.escape chars high, e, opened⟩ [c] = _
      exact Reader.run_cons_of_step hstep []
  | code w x y z unit h =>
      obtain ⟨a, b, c, d, ha, hb, hc, hd, rfl⟩ := unit?_eq_some_iff.mp h
      change Reader.run ⟨.code chars high [], e, opened⟩ [w, x, y, z] = _
      simp [Reader.run, Reader.step, ha, hb, hc, hd]
      rfl

theorem run_pieces (h : Spells units chars high) (e : Expected) (opened : List Open) (ps : List Piece) : ∃ chars' high',
    Reader.run ⟨.string chars high, e, opened⟩ (ps.flatMap Piece.text) = .ok ⟨.string chars' high', e, opened⟩ ∧
      Spells (units ++ ps.map Piece.unit) chars' high' := by
  induction ps generalizing units chars high with
  | nil => exact ⟨chars, high, rfl, by simpa using h⟩
  | cons p ps ih =>
      obtain ⟨chars₁, high₁, henter, hspells⟩ := h.enter p.unit
      obtain ⟨chars₂, high₂, hrun, hspells'⟩ := ih hspells
      refine ⟨chars₂, high₂, ?_, by simpa using hspells'⟩
      rw [List.flatMap_cons, Reader.run_append_of_run (run_piece e opened p), henter]
      exact hrun

end IndentMarkup.Json
