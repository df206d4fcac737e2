import IndentMarkup.Proofs.JsonGrammar
import Mathlib.Data.List.TakeDrop
import Mathlib.Data.List.TakeWhile

/-!
# Reading numbers

A number is read exactly if it is one of the grammar, with its value (`readNumber_text`, `exists_of_readNumber_eq_ok`),
unless it is an integer of too many digits. Such an integer is a fault whatever stands behind it, as long as the number
does not go on (`readNumber_overlong`, `exists_of_readNumber_eq_tooLong`).
-/

namespace IndentMarkup.Json

variable {s rest : Text}

/-! ## Digits -/

def StopsDigits (s : Text) : Prop := ∀ c ∈ s.head?, ¬ c.isDigit

theorem takeDigits_append {ds : Text} (hds : ∀ c ∈ ds, c.isDigit) (hrest : StopsDigits rest) :
    takeDigits (ds ++ rest) = (ds, rest) := by
  have hstop : rest.takeWhile Char.isDigit = [] ∧ rest.dropWhile Char.isDigit = rest := by
    cases rest with
    | nil => exact ⟨rfl, rfl⟩
    | cons c r =>
        have hc : ¬ c.isDigit := hrest c rfl
        exact ⟨List.takeWhile_cons_of_neg hc, List.dropWhile_cons_of_neg hc⟩
  rw [takeDigits, List.span_eq_takeWhile_dropWhile, List.takeWhile_append_of_pos hds,
    List.dropWhile_append_of_pos hds, hstop.1, hstop.2, List.append_nil]

theorem takeDigits_spec (s : Text) : s = (takeDigits s).1 ++ (takeDigits s).2 ∧
    (∀ c ∈ (takeDigits s).1, c.isDigit) ∧ StopsDigits (takeDigits s).2 := by
  rw [takeDigits, List.span_eq_takeWhile_dropWhile]
  refine ⟨List.takeWhile_append_dropWhile.symm, fun c hc => List.all_eq_true.mp List.all_takeWhile c hc, ?_⟩
  intro c hc
  have hhead := List.head?_dropWhile_not Char.isDigit s
  rw [Option.mem_def.mp hc] at hhead
  simpa using hhead

/-- Without underscores, a run of digits up to the end is a text of digits. -/
theorem digitRun?_eq_some_nil_iff (hs : '_' ∉ s) {ds : Text} :
    digitRun? s = some (ds, []) ↔ ds = s ∧ s ≠ [] ∧ ∀ c ∈ s, c.isDigit := by
  induction s generalizing ds with
  | nil => simp [digitRun?]
  | cons c r ih =>
      have hr : '_' ∉ r := fun h => hs (.tail _ h)
      rw [digitRun?.eq_3 c r fun r' heq => hr (heq ▸ .head _)]
      by_cases hc : c.isDigit
      · rw [if_pos hc]
        constructor
        · intro h
          split at h
          · next ds' rest hrun =>
              obtain ⟨rfl, rfl⟩ := Prod.mk.inj (Option.some.inj h)
              obtain ⟨rfl, -, hall⟩ := (ih hr).mp hrun
              exact ⟨rfl, by simp, by simpa [hc] using hall⟩
          · split at h
            · simp at h
            · obtain ⟨rfl, rfl⟩ := Prod.mk.inj (Option.some.inj h)
              exact ⟨rfl, by simp, by simpa using hc⟩
        · rintro ⟨rfl, -, hall⟩
          cases r with
          | nil => rfl
          | cons d r => rw [(ih hr).mpr ⟨rfl, by simp, fun x hx => hall x (.tail _ hx)⟩]
      · rw [if_neg hc]
        simp [hc]

/-! ## Signs -/

theorem Digits.ne_cons (ds : Digits) {c : Char} (hc : ¬ c.isDigit) (rest r : Text) : ds.chars ++ rest ≠ c :: r := by
  obtain ⟨chars, hne, hall⟩ := ds
  cases chars with
  | nil => exact absurd rfl hne
  | cons d ds =>
      intro heq
      exact hc ((List.cons.inj heq).1 ▸ hall d (by simp))

def Sign.isMinus : Sign → Bool
  | minus => true
  | _ => false

theorem takeSign_text (sign : Sign) (ds : Digits) : takeSign (sign.text ++ ds.chars) = (sign.isMinus, ds.chars) := by
  cases sign with
  | absent =>
      have hne : ∀ {c : Char} {r : Text}, ¬ c.isDigit → ds.chars ≠ c :: r := fun hc heq =>
        ds.ne_cons hc [] _ ((List.append_nil _).trans heq)
      exact takeSign.eq_3 ds.chars (fun r => hne (by decide)) fun r => hne (by decide)
  | plus => rfl
  | minus => rfl

theorem exists_of_takeSign {negative : Bool} {body : Text} (h : takeSign s = (negative, body)) :
    ∃ sign : Sign, s = sign.text ++ body ∧ negative = sign.isMinus := by
  rw [takeSign.eq_def] at h
  split at h <;> obtain ⟨rfl, rfl⟩ := Prod.mk.inj h
  · exact ⟨.minus, rfl, rfl⟩
  · exact ⟨.plus, rfl, rfl⟩
  · exact ⟨.absent, rfl, rfl⟩

theorem Sign.apply_eq (n : Nat) (sign : Sign) : (if sign.isMinus then -(n : Int) else n) = sign.apply n := by
  cases sign <;> rfl

/-! ## The characters of a number -/

theorem isWordChar_of_isDigit {c : Char} (h : c.isDigit) : isWordChar c := by
  simp [isWordChar, Char.isAlphanum, h]

theorem underscore_notMem (hs : ∀ c ∈ s, isWordChar c) : '_' ∉ s := fun h => absurd (hs _ h) (by decide)

theorem Sign.isWordChar (sign : Sign) {c : Char} (hc : c ∈ sign.text) : isWordChar c := by
  cases sign with
  | absent => simp [text] at hc
  | plus => exact List.mem_singleton.mp hc ▸ by decide
  | minus => exact List.mem_singleton.mp hc ▸ by decide

theorem isWordChar_signText {negative : Bool} {c : Char} (hc : c ∈ signText negative) : isWordChar c := by
  cases negative with
  | false => simp [signText] at hc
  | true =>
      obtain rfl : c = '-' := by simpa [signText] using hc
      decide

theorem isWordChar_fractionText {f : Option Digits} {c : Char} (hc : c ∈ fractionText f) : isWordChar c := by
  cases f with
  | none => simp [fractionText] at hc
  | some ds =>
      rcases List.mem_cons.mp hc with rfl | hc
      · decide
      · exact isWordChar_of_isDigit (ds.isDigit c hc)

theorem isWordChar_exponentText {e : Option Exponent} {c : Char} (hc : c ∈ exponentText e) : isWordChar c := by
  cases e with
  | none => simp [exponentText] at hc
  | some e =>
      obtain ⟨letter, hletter, sign, ds⟩ := e
      rcases List.mem_cons.mp hc with rfl | hc
      · rcases hletter with rfl | rfl <;> decide
      · rcases List.mem_append.mp hc with hc | hc
        · exact sign.isWordChar hc
        · exact isWordChar_of_isDigit (ds.isDigit c hc)

theorem Numeral.isWordChar_text {k : Numeral} {c : Char} (hc : c ∈ k.text) : isWordChar c := by
  simp only [text, List.mem_append] at hc
  rcases hc with hc | hc | hc | hc
  · exact isWordChar_signText hc
  · exact isWordChar_of_isDigit (k.whole.isDigit c hc)
  · exact isWordChar_fractionText hc
  · exact isWordChar_exponentText hc

/-! ## Exponents -/

/-- Without underscores, an exponent is read exactly if it is one of the grammar. -/
theorem readExponent?_eq_some_iff (hs : '_' ∉ s) {n : Int} :
    readExponent? s = some n ↔ ∃ e, s = exponentText e ∧ n = power e := by
  constructor
  · intro h
    cases s with
    | nil => exact ⟨none, rfl, (Option.some.inj h).symm⟩
    | cons c r =>
        rw [readExponent?] at h
        split at h
        · next hc =>
            split at h
            next negative body htake =>
            obtain ⟨sign, rfl, rfl⟩ := exists_of_takeSign htake
            have hbody : '_' ∉ body := fun hmem => hs (.tail _ (List.mem_append_right _ hmem))
            split at h
            · next ds hrun =>
                obtain ⟨rfl, hne, hall⟩ := (digitRun?_eq_some_nil_iff hbody).mp hrun
                rw [Sign.apply_eq] at h
                exact ⟨some ⟨c, hc, sign, ⟨_, hne, hall⟩⟩, rfl, (Option.some.inj h).symm⟩
            · simp at h
        · simp at h
  · rintro ⟨e, rfl, rfl⟩
    cases e with
    | none => rfl
    | some e =>
        obtain ⟨c, hc, sign, ds⟩ := e
        have hword : '_' ∉ ds.chars := underscore_notMem fun c hc => isWordChar_of_isDigit (ds.isDigit c hc)
        have hrun : digitRun? ds.chars = some (ds.chars, []) :=
          (digitRun?_eq_some_nil_iff hword).mpr ⟨rfl, ds.ne_nil, ds.isDigit⟩
        rw [exponentText, readExponent?, if_pos hc, takeSign_text]
        simp only [hrun, Sign.apply_eq]
        rfl

/-! ## Where a number goes on -/

theorem beginsExponent_iff : beginsExponent s ↔ ∃ (letter : Char) (sign : Sign) (d : Char) (r : Text),
    (letter = 'e' ∨ letter = 'E') ∧ d.isDigit ∧ s = letter :: (sign.text ++ d :: r) := by
  constructor
  · intro h
    rw [beginsExponent.eq_def] at h
    split at h
    · split at h
      · exact ⟨'e', .plus, _, _, .inl rfl, h, rfl⟩
      · exact ⟨'e', .minus, _, _, .inl rfl, h, rfl⟩
      · exact ⟨'e', .absent, _, _, .inl rfl, h, rfl⟩
      · simp at h
    · split at h
      · exact ⟨'E', .plus, _, _, .inr rfl, h, rfl⟩
      · exact ⟨'E', .minus, _, _, .inr rfl, h, rfl⟩
      · exact ⟨'E', .absent, _, _, .inr rfl, h, rfl⟩
      · simp at h
    · simp at h
  · rintro ⟨letter, sign, d, r, rfl | rfl, hd, rfl⟩
    all_goals
      have hplus : d ≠ '+' := fun h => by simp [h] at hd
      have hminus : d ≠ '-' := fun h => by simp [h] at hd
      cases sign <;> simp [beginsExponent, Sign.text, hd, hplus, hminus]

theorem takeFraction_spec (s : Text) :
    (∃ (ds : Digits) (rest : Text), s = fractionText (some ds) ++ rest ∧ StopsDigits rest ∧
      takeFraction s = (some ds.chars, rest)) ∨
    (takeFraction s = (none, s) ∧ ∀ d r, s = '.' :: d :: r → ¬ d.isDigit) := by
  rw [takeFraction.eq_def]
  split
  · next r =>
      obtain ⟨hr, hall, hstop⟩ := takeDigits_spec r
      by_cases hnil : (takeDigits r).1 = []
      · refine .inr ⟨by simp [hnil], ?_⟩
        rintro d r' heq hd
        obtain rfl := (List.cons.inj heq).2
        rw [hnil, List.nil_append] at hr
        exact hstop d (by rw [← hr]; rfl) hd
      · exact .inl ⟨⟨_, hnil, hall⟩, _, congrArg ('.' :: ·) hr, hstop, by simp [hnil]⟩
  · next hpoint => exact .inr ⟨rfl, fun d r heq => absurd heq (hpoint _)⟩

theorem takeFraction_append (ds : Digits) (hrest : StopsDigits rest) :
    takeFraction (fractionText (some ds) ++ rest) = (some ds.chars, rest) := by
  rw [fractionText, List.cons_append, takeFraction, takeDigits_append ds.isDigit hrest]
  exact if_neg (by simpa using ds.ne_nil)

theorem not_continues_iff :
    ¬ Continues s ↔ StopsDigits s ∧ takeFraction s = (none, s) ∧ beginsExponent s = false := by
  constructor
  · intro h
    refine ⟨fun d hd hdigit => ?_, ?_, ?_⟩
    · obtain ⟨r, rfl⟩ := List.head?_eq_some_iff.mp hd
      exact h ⟨[], d, r, .nothing, hdigit, rfl⟩
    · rcases takeFraction_spec s with ⟨⟨chars, hne, hall⟩, rest, rfl, -, -⟩ | ⟨hnone, -⟩
      · cases chars with
        | nil => exact absurd rfl hne
        | cons d ds => exact absurd ⟨['.'], d, ds ++ rest, .point, hall d (by simp), rfl⟩ h
      · exact hnone
    · by_contra hexponent
      obtain ⟨letter, sign, d, r, hletter, hd, rfl⟩ := beginsExponent_iff.mp (Bool.not_eq_false _ ▸ hexponent)
      exact h ⟨_, d, r, .exponent hletter sign, hd, rfl⟩
  · rintro ⟨hstop, hfraction, hexponent⟩ ⟨joint, d, r, hjoint, hd, rfl⟩
    cases hjoint with
    | nothing => exact hstop d rfl hd
    | point =>
        rcases takeFraction_spec ('.' :: d :: r) with ⟨ds, rest, -, -, hsome⟩ | ⟨-, hpoint⟩
        · simp [hsome] at hfraction
        · exact hpoint d r rfl hd
    | exponent hletter sign =>
        have hbegins := beginsExponent_iff.mpr ⟨_, sign, d, r, hletter, hd, rfl⟩
        simp [hbegins] at hexponent

/-! ## Numbers -/

def numberOf (negative : Bool) (whole behind : Text) : Except Fault Json :=
  if (takeFraction behind).1.isNone ∧ !beginsExponent (takeFraction behind).2 then
    if digitLimit < whole.length then .error (.tooLong whole.length)
    else if !(takeFraction behind).2.isEmpty then .error .malformed
    else .ok (.int (if negative then -(digitsValue whole : Int) else digitsValue whole))
  else
    match readExponent? (takeFraction behind).2 with
    | some power =>
      let part := (takeFraction behind).1.getD []
      .ok (.float (Binary64.ofDecimal negative (digitsValue (whole ++ part)) (power - part.length)))
    | none => .error .malformed

def unsigned (negative : Bool) (body : Text) : Except Fault Json :=
  if (takeDigits body).1.isEmpty ∨ ((takeDigits body).1.head? = some '0' ∧ (takeDigits body).1 ≠ ['0']) then
    .error .malformed
  else numberOf negative (takeDigits body).1 (takeDigits body).2

theorem readNumber_minus (body : Text) : readNumber ('-' :: body) = unsigned true body := rfl

theorem readNumber_of_ne (h : ∀ r, s ≠ '-' :: r) : readNumber s = unsigned false s := by
  rw [readNumber]
  · rfl
  · exact h

def Digits.IsWhole (whole : Digits) : Prop := whole.chars.head? = some '0' → whole.chars = ['0']

theorem readNumber_append (negative : Bool) {whole : Digits} (hwhole : whole.IsWhole) {behind : Text}
    (hbehind : StopsDigits behind) :
    readNumber (signText negative ++ (whole.chars ++ behind)) = numberOf negative whole.chars behind := by
  have hunsigned : unsigned negative (whole.chars ++ behind) = numberOf negative whole.chars behind := by
    rw [unsigned, takeDigits_append whole.isDigit hbehind]
    refine if_neg ?_
    rintro (hnil | ⟨hzero, hne⟩)
    · exact whole.ne_nil (by simpa using hnil)
    · exact hne (hwhole hzero)
  cases negative with
  | true => exact (readNumber_minus _).trans hunsigned
  | false => exact (readNumber_of_ne fun r => whole.ne_cons (by decide) behind r).trans hunsigned

theorem readNumber_cases (s : Text) : readNumber s = .error .malformed ∨
    ∃ (negative : Bool) (whole : Digits) (behind : Text), whole.IsWhole ∧ StopsDigits behind ∧
      s = signText negative ++ (whole.chars ++ behind) := by
  have hunsigned : ∀ negative body, unsigned negative body = .error .malformed ∨
      ∃ (whole : Digits) (behind : Text), whole.IsWhole ∧ StopsDigits behind ∧ body = whole.chars ++ behind := by
    intro negative body
    obtain ⟨hbody, hall, hstop⟩ := takeDigits_spec body
    rw [unsigned]
    split
    · exact .inl rfl
    · next hparts =>
        rw [not_or] at hparts
        refine .inr ⟨⟨_, by simpa using hparts.1, hall⟩, _, fun hzero => ?_, hstop, hbody⟩
        exact Classical.not_not.mp fun hne => hparts.2 ⟨hzero, hne⟩
  by_cases hminus : ∃ r, s = '-' :: r
  · obtain ⟨r, rfl⟩ := hminus
    rcases hunsigned true r with h | ⟨whole, behind, hwhole, hstop, rfl⟩
    · exact .inl h
    · exact .inr ⟨true, whole, behind, hwhole, hstop, rfl⟩
  · rw [not_exists] at hminus
    rw [readNumber_of_ne hminus]
    rcases hunsigned false s with h | ⟨whole, behind, hwhole, hstop, rfl⟩
    · exact .inl h
    · exact .inr ⟨false, whole, behind, hwhole, hstop, rfl⟩

section

variable {behind : Text}

theorem numberOf_of_not_continues (h : ¬ Continues behind) (negative : Bool) (whole : Text) :
    numberOf negative whole behind =
      if digitLimit < whole.length then .error (.tooLong whole.length)
      else if behind = [] then .ok (.int (if negative then -(digitsValue whole : Int) else digitsValue whole))
      else .error .malformed := by
  obtain ⟨-, hfraction, hexponent⟩ := not_continues_iff.mp h
  rw [numberOf, hfraction, hexponent]
  cases behind <;> simp

theorem numberOf_of_continues (hstop : StopsDigits behind) (h : Continues behind) (negative : Bool) (whole : Text) :
    numberOf negative whole behind =
      match readExponent? (takeFraction behind).2 with
      | some power =>
        let part := (takeFraction behind).1.getD []
        .ok (.float (Binary64.ofDecimal negative (digitsValue (whole ++ part)) (power - part.length)))
      | none => .error .malformed := by
  refine if_neg ?_
  rintro ⟨hnone, hexponent⟩
  rcases takeFraction_spec behind with ⟨ds, rest, -, -, hsome⟩ | ⟨hfraction, -⟩
  · simp [hsome] at hnone
  · rw [hfraction] at hexponent
    exact not_continues_iff.mpr ⟨hstop, hfraction, by simpa using hexponent⟩ h

end

theorem stopsDigits_exponentText (e : Option Exponent) : StopsDigits (exponentText e) := by
  intro c hc
  cases e with
  | none => simp [exponentText] at hc
  | some e =>
      obtain rfl : e.letter = c := by simpa [exponentText] using hc
      rcases e.isLetter with h | h <;> simp [h]

theorem stopsDigits_behind (f : Option Digits) (e : Option Exponent) :
    StopsDigits (fractionText f ++ exponentText e) := by
  cases f with
  | none => exact stopsDigits_exponentText e
  | some ds =>
      intro c hc
      obtain rfl : '.' = c := by simpa [fractionText] using hc
      decide

theorem takeFraction_behind (f : Option Digits) (e : Option Exponent) :
    takeFraction (fractionText f ++ exponentText e) = (f.map Digits.chars, exponentText e) := by
  cases f with
  | some ds => exact takeFraction_append ds (stopsDigits_exponentText e)
  | none =>
      cases e with
      | none => rfl
      | some e =>
          obtain ⟨letter, hletter, sign, ds⟩ := e
          rcases hletter with rfl | rfl <;> rfl

theorem continues_behind {f : Option Digits} {e : Option Exponent} (h : ¬ (f = none ∧ e = none)) :
    Continues (fractionText f ++ exponentText e) := by
  have hcons : ∀ ds : Digits, ∃ d r, ds.chars = d :: r ∧ d.isDigit := by
    intro ds
    obtain ⟨d, r, hdr⟩ := List.exists_cons_of_ne_nil ds.ne_nil
    exact ⟨d, r, hdr, ds.isDigit d (by simp [hdr])⟩
  cases f with
  | some ds =>
      obtain ⟨d, r, hdr, hd⟩ := hcons ds
      exact ⟨['.'], d, r ++ exponentText e, .point, hd, by simp [fractionText, hdr]⟩
  | none =>
      cases e with
      | none => exact absurd ⟨rfl, rfl⟩ h
      | some e =>
          obtain ⟨d, r, hdr, hd⟩ := hcons e.digits
          exact ⟨_, d, r, .exponent e.isLetter e.sign, hd, by simp [fractionText, exponentText, hdr]⟩

theorem not_continues_nil : ¬ Continues [] := by
  rintro ⟨joint, d, r, -, -, h⟩
  simp at h

theorem readNumber_text (k : Numeral) :
    readNumber k.text = if k.IsOverlong then .error (.tooLong k.whole.chars.length) else .ok k.value := by
  obtain ⟨negative, whole, hwhole, f, e⟩ := k
  rw [Numeral.text, readNumber_append negative hwhole (stopsDigits_behind f e), Numeral.value]
  by_cases hinteger : f = none ∧ e = none
  · obtain ⟨rfl, rfl⟩ := hinteger
    rw [show fractionText none ++ exponentText none = [] from rfl, numberOf_of_not_continues not_continues_nil]
    simp [Numeral.IsOverlong, Numeral.IsInteger]
  · have hfloat : ¬ Numeral.IsInteger ⟨negative, whole, hwhole, f, e⟩ := hinteger
    have hshort : ¬ Numeral.IsOverlong ⟨negative, whole, hwhole, f, e⟩ := fun h => hinteger h.1
    have hexponent : readExponent? (exponentText e) = some (power e) :=
      (readExponent?_eq_some_iff (underscore_notMem fun _ => isWordChar_exponentText)).mpr ⟨e, rfl, rfl⟩
    rw [numberOf_of_continues (stopsDigits_behind f e) (continues_behind hinteger), takeFraction_behind]
    simp only [hexponent]
    rw [if_neg hshort, if_neg hfloat]

theorem readNumber_overlong {k : Numeral} (hk : k.IsOverlong) (hrest : ¬ Continues rest) :
    readNumber (k.text ++ rest) = .error (.tooLong k.whole.chars.length) := by
  obtain ⟨negative, whole, hwhole, f, e⟩ := k
  obtain ⟨⟨rfl, rfl⟩, hlong⟩ := hk
  rw [Numeral.text, fractionText, exponentText, List.append_assoc, List.append_assoc, List.append_assoc,
    List.nil_append, List.nil_append, readNumber_append negative hwhole (not_continues_iff.mp hrest).1,
    numberOf_of_not_continues hrest, if_pos hlong]

theorem exists_of_takeFraction (hs : '_' ∉ s) {n : Int} (h : readExponent? (takeFraction s).2 = some n) :
    ∃ f e, s = fractionText f ++ exponentText e := by
  rcases takeFraction_spec s with ⟨ds, rest, rfl, -, hfraction⟩ | ⟨hfraction, -⟩
  · rw [hfraction] at h
    obtain ⟨e, rfl, -⟩ := (readExponent?_eq_some_iff fun hmem => hs (List.mem_append_right _ hmem)).mp h
    exact ⟨some ds, e, rfl⟩
  · rw [hfraction] at h
    obtain ⟨e, rfl, -⟩ := (readExponent?_eq_some_iff hs).mp h
    exact ⟨none, e, rfl⟩

/-- What is read as a number is one of the grammar. -/
theorem exists_of_readNumber_eq_ok (hs : '_' ∉ s) {v : Json} (h : readNumber s = .ok v) :
    ∃ k : Numeral, s = k.text ∧ ¬ k.IsOverlong ∧ v = k.value := by
  have hparts : ∃ k : Numeral, s = k.text := by
    rcases readNumber_cases s with herror | ⟨negative, whole, behind, hwhole, hstop, rfl⟩
    · simp [herror] at h
    · have hbehind : '_' ∉ behind := fun hmem => hs (List.mem_append_right _ (List.mem_append_right _ hmem))
      rw [readNumber_append negative hwhole hstop] at h
      by_cases hcontinues : Continues behind
      · rw [numberOf_of_continues hstop hcontinues] at h
        split at h
        · next n hexponent =>
            obtain ⟨f, e, rfl⟩ := exists_of_takeFraction hbehind hexponent
            exact ⟨⟨negative, whole, hwhole, f, e⟩, rfl⟩
        · simp at h
      · rw [numberOf_of_not_continues hcontinues] at h
        split at h
        · simp at h
        · split at h
          · next hnil => exact ⟨⟨negative, whole, hwhole, none, none⟩, by rw [hnil]; rfl⟩
          · simp at h
  obtain ⟨k, rfl⟩ := hparts
  rw [readNumber_text] at h
  split at h
  · simp at h
  · next hshort => exact ⟨k, rfl, hshort, (Except.ok.inj h).symm⟩

theorem exists_of_readNumber_eq_tooLong {digits : Nat} (h : readNumber s = .error (.tooLong digits)) :
    ∃ (k : Numeral) (rest : Text), s = k.text ++ rest ∧ k.IsOverlong ∧ ¬ Continues rest ∧
      digits = k.whole.chars.length := by
  rcases readNumber_cases s with herror | ⟨negative, whole, behind, hwhole, hstop, rfl⟩
  · simp [herror] at h
  · rw [readNumber_append negative hwhole hstop] at h
    by_cases hcontinues : Continues behind
    · rw [numberOf_of_continues hstop hcontinues] at h
      split at h <;> simp at h
    · rw [numberOf_of_not_continues hcontinues] at h
      split at h
      · next hlong =>
          refine ⟨⟨negative, whole, hwhole, none, none⟩, behind, ?_, ⟨⟨rfl, rfl⟩, hlong⟩, hcontinues, ?_⟩
          · simp [Numeral.text, fractionText, exponentText]
          · simpa using h.symm
      · split at h <;> simp at h

/-! ## Words -/

theorem readWord_of_mem {v : Json} (h : (s, v) ∈ words) : readWord s = .ok v := by
  simp only [words, List.mem_cons, Prod.mk.injEq, List.not_mem_nil, or_false] at h
  rcases h with ⟨rfl, rfl⟩ | ⟨rfl, rfl⟩ | ⟨rfl, rfl⟩ | ⟨rfl, rfl⟩ | ⟨rfl, rfl⟩ | ⟨rfl, rfl⟩ <;> rfl

theorem readWord_cases (hs : '_' ∉ s) : (∃ v, (s, v) ∈ words) ∨ readWord s = readNumber s := by
  have hmem : ∀ {w : String} {v : Json}, (w.toList, v) ∈ words → String.ofList s = w → ∃ v, (s, v) ∈ words := by
    rintro w v hv rfl
    exact ⟨v, by simpa using hv⟩
  rw [readWord.eq_def]
  split
  · next heq => exact .inl (hmem (v := .null) (by simp [words]) heq)
  · next heq => exact .inl (hmem (v := .bool true) (by simp [words]) heq)
  · next heq => exact .inl (hmem (v := .bool false) (by simp [words]) heq)
  · next heq => exact .inl (hmem (v := .float .nan) (by simp [words]) heq)
  · next heq => exact .inl (hmem (v := .float (.infinite false)) (by simp [words]) heq)
  · next heq => exact .inl (hmem (v := .float (.infinite true)) (by simp [words]) heq)
  · exact .inr (if_neg (by simpa using hs))

theorem isWordChar_of_mem_words {v : Json} (h : (s, v) ∈ words) {c : Char} (hc : c ∈ s) : isWordChar c := by
  have hall : words.all fun w => w.1.all isWordChar := by decide
  exact List.all_eq_true.mp (List.all_eq_true.mp hall _ h) c hc

theorem ne_nil_of_mem_words {v : Json} (h : (s, v) ∈ words) : s ≠ [] := by
  have hall : words.all fun w => !w.1.isEmpty := by decide
  simpa using List.all_eq_true.mp hall _ h

theorem Numeral.text_ne_nil (k : Numeral) : k.text ≠ [] := by simp [text, k.whole.ne_nil]

/-- No word begins with a number, as no word has a digit. -/
theorem Numeral.text_append_notMem_words (k : Numeral) (rest : Text) (v : Json) : (k.text ++ rest, v) ∉ words := by
  have hall : words.all fun w => w.1.all fun c => !c.isDigit := by decide
  intro h
  obtain ⟨d, r, hdr⟩ := List.exists_cons_of_ne_nil k.whole.ne_nil
  have hmem : d ∈ k.whole.chars := by simp [hdr]
  have hnone := List.all_eq_true.mp (List.all_eq_true.mp hall _ h) d (by simp [text, hmem])
  simp [k.whole.isDigit d hmem] at hnone

theorem readWord_text (k : Numeral) :
    readWord k.text = if k.IsOverlong then .error (.tooLong k.whole.chars.length) else .ok k.value := by
  rcases readWord_cases (underscore_notMem fun _ => k.isWordChar_text) with ⟨v, hv⟩ | hnumber
  · exact absurd ((List.append_nil k.text).symm ▸ hv) (k.text_append_notMem_words [] v)
  · rw [hnumber, readNumber_text]

theorem readWord_overlong {k : Numeral} (hk : k.IsOverlong) (hrest : ¬ Continues rest)
    (hword : ∀ c ∈ rest, isWordChar c) : readWord (k.text ++ rest) = .error (.tooLong k.whole.chars.length) := by
  have hunderscore : '_' ∉ k.text ++ rest := by
    refine underscore_notMem fun c hc => ?_
    rcases List.mem_append.mp hc with hc | hc
    · exact k.isWordChar_text hc
    · exact hword c hc
  rcases readWord_cases hunderscore with ⟨v, hv⟩ | hnumber
  · exact absurd hv (k.text_append_notMem_words rest v)
  · rw [hnumber, readNumber_overlong hk hrest]

theorem denotes_of_readWord (hs : ∀ c ∈ s, isWordChar c) {v : Json} (h : readWord s = .ok v) : Denotes s v := by
  rcases readWord_cases (underscore_notMem hs) with ⟨w, hw⟩ | hnumber
  · rw [readWord_of_mem hw] at h
    exact .word (Except.ok.inj h ▸ hw)
  · obtain ⟨k, rfl, -, rfl⟩ := exists_of_readNumber_eq_ok (underscore_notMem hs) (hnumber ▸ h)
    exact .number k

theorem exists_of_readWord_eq_tooLong (hs : ∀ c ∈ s, isWordChar c) {digits : Nat}
    (h : readWord s = .error (.tooLong digits)) : ∃ (k : Numeral) (rest : Text), s = k.text ++ rest ∧ k.IsOverlong ∧
      ¬ Continues rest ∧ digits = k.whole.chars.length := by
  rcases readWord_cases (underscore_notMem hs) with ⟨w, hw⟩ | hnumber
  · simp [readWord_of_mem hw] at h
  · exact exists_of_readNumber_eq_tooLong (hnumber ▸ h)

/-! ## Where a word ends -/

def StopsWord (s : Text) : Prop := ∀ c ∈ s.head?, ¬ isWordChar c

theorem Joins.isWordChar {joint : Text} (h : Joins joint) {c : Char} (hc : c ∈ joint) : isWordChar c := by
  cases h with
  | nothing => simp at hc
  | point => exact List.mem_singleton.mp hc ▸ by decide
  | exponent hletter sign =>
      rcases List.mem_cons.mp hc with rfl | hc
      · rcases hletter with rfl | rfl <;> decide
      · exact sign.isWordChar hc

/-- Whether a number goes on is told by the characters up to the end of the word. -/
theorem continues_append_iff (hs : ∀ c ∈ s, isWordChar c) (hrest : StopsWord rest) :
    Continues (s ++ rest) ↔ Continues s := by
  constructor
  · rintro ⟨joint, d, r, hjoint, hd, heq⟩
    have hjoined : ∀ c ∈ joint ++ [d], isWordChar c := by
      intro c hc
      rcases List.mem_append.mp hc with hc | hc
      · exact hjoint.isWordChar hc
      · exact List.mem_singleton.mp hc ▸ isWordChar_of_isDigit hd
    have hsplit : s ++ rest = joint ++ [d] ++ r := by simp [heq]
    rcases List.append_eq_append_iff.mp hsplit with ⟨more, hmore, hstop⟩ | ⟨behind, hbehind, -⟩
    · cases more with
      | nil => exact ⟨joint, d, [], hjoint, hd, by simpa using hmore.symm⟩
      | cons c more => exact absurd (hjoined c (by simp [hmore])) (hrest c (by simp [hstop]))
    · exact ⟨joint, d, behind, hjoint, hd, by simpa using hbehind⟩
  · rintro ⟨joint, d, r, hjoint, hd, rfl⟩
    exact ⟨joint, d, r ++ rest, hjoint, hd, by simp⟩

end IndentMarkup.Json
