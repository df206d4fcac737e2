import IndentMarkup.Proofs.Files
import IndentMarkup.Text.Utf8
import Mathlib.Algebra.Group.Nat.Defs
import Mathlib.Data.List.Basic

/-!
# Text and its bytes

The decoder takes the bytes of a text and no others (`Utf8.decode_eq_ok_iff`). The first byte of a longer character
leaves the code points that it may go on to (`Begun.GoesOn`), and these are code points of characters that begin with
it (`utf8EncodeChar_of_goesOn`).
-/

namespace IndentMarkup

namespace Utf8

variable {c : Begun} {b : UInt8} {v position : Nat} {bytes rest : Bytes} {s : Text}

/-! ## The bytes of a character -/

def continuation : Nat → Nat → Bytes
  | 0, _ => []
  | missing + 1, v => UInt8.ofNat (v / 64 ^ missing % 64 + 128) :: continuation missing v

theorem val_ofNat (hv : v.isValidChar) : (Char.ofNat v).val.toNat = v := by
  rw [Char.ofNat, dif_pos hv]
  rfl

theorem utf8EncodeChar_two (hv : v.isValidChar) (hlow : 128 ≤ v) (hhigh : v < 2048) :
    String.utf8EncodeChar (Char.ofNat v) = UInt8.ofNat (v / 64 + 192) :: continuation 1 v := by
  have hfirst : v / 64 % 32 = v / 64 := by omega
  rw [String.utf8EncodeChar]
  simp only [val_ofNat hv, continuation, hfirst, Nat.reducePow, Nat.div_one]
  rw [if_neg (by omega), if_pos (by omega)]

theorem utf8EncodeChar_three (hv : v.isValidChar) (hlow : 2048 ≤ v) (hhigh : v < 65536) :
    String.utf8EncodeChar (Char.ofNat v) = UInt8.ofNat (v / 4096 + 224) :: continuation 2 v := by
  have hfirst : v / 4096 % 16 = v / 4096 := by omega
  rw [String.utf8EncodeChar]
  simp only [val_ofNat hv, continuation, hfirst, Nat.reducePow, Nat.div_one]
  rw [if_neg (by omega), if_neg (by omega), if_pos (by omega)]

theorem utf8EncodeChar_four (hv : v.isValidChar) (hlow : 65536 ≤ v) :
    String.utf8EncodeChar (Char.ofNat v) = UInt8.ofNat (v / 262144 + 240) :: continuation 3 v := by
  have hfirst : v / 262144 % 8 = v / 262144 := by
    rcases hv with hv | hv <;> omega
  rw [String.utf8EncodeChar]
  simp only [val_ofNat hv, continuation, hfirst, Nat.reducePow, Nat.div_one]
  rw [if_neg (by omega), if_neg (by omega), if_neg (by omega)]

/-! ## The first byte of a character -/

/-- What the first bytes of longer characters begin: how many bytes are missing, and the range of the next one. -/
theorem begin?_eq_some (h : begin? b = some c) :
    (194 ≤ b.toNat ∧ b.toNat ≤ 223 ∧ c.missing = 1 ∧ c.value = b.toNat - 192 ∧
      c.low.toNat = 128 ∧ c.high.toNat = 191) ∨
    (224 ≤ b.toNat ∧ b.toNat ≤ 239 ∧ c.missing = 2 ∧ c.value = b.toNat - 224 ∧
      c.low.toNat = (if b.toNat = 224 then 160 else 128) ∧ c.high.toNat = if b.toNat = 237 then 159 else 191) ∨
    (240 ≤ b.toNat ∧ b.toNat ≤ 244 ∧ c.missing = 3 ∧ c.value = b.toNat - 240 ∧
      c.low.toNat = (if b.toNat = 240 then 144 else 128) ∧ c.high.toNat = if b.toNat = 244 then 143 else 191) := by
  simp only [begin?, UInt8.le_iff_toNat_le, ← UInt8.toNat_inj, UInt8.reduceToNat] at h
  repeat' split at h
  all_goals first | cases h; done | obtain rfl := Option.some.inj h
  all_goals
    simp only [UInt8.reduceToNat, true_and]
    grind

theorem exists_begin? (hlow : 194 ≤ b.toNat) (hhigh : b.toNat ≤ 244) : ∃ c, begin? b = some c := by
  simp only [begin?, UInt8.le_iff_toNat_le, ← UInt8.toNat_inj, UInt8.reduceToNat]
  repeat' split
  all_goals first | exact ⟨_, rfl⟩ | omega

/-- The character of the code point goes on from what was begun. -/
structure Begun.GoesOn (c : Begun) (v : Nat) : Prop where
  value_eq : v / 64 ^ c.missing = c.value
  low_le : c.low.toNat ≤ v / 64 ^ (c.missing - 1) % 64 + 128
  le_high : v / 64 ^ (c.missing - 1) % 64 + 128 ≤ c.high.toNat

theorem utf8EncodeChar_of_goesOn (hb : begin? b = some c) (h : c.GoesOn v) :
    v.isValidChar ∧ String.utf8EncodeChar (Char.ofNat v) = b :: continuation c.missing v := by
  obtain ⟨hvalue, hlow, hhigh⟩ := h
  rcases begin?_eq_some hb with ⟨h1, h2, hm, hv, hl, hh⟩ | ⟨h1, h2, hm, hv, hl, hh⟩ | ⟨h1, h2, hm, hv, hl, hh⟩
  all_goals
    rw [hm] at hvalue hlow hhigh ⊢
    rw [hv] at hvalue
    rw [hl] at hlow
    rw [hh] at hhigh
    simp only [Nat.reducePow, Nat.reduceSub, Nat.div_one] at hvalue hlow hhigh
  · have hvalid : v.isValidChar := .inl (by omega)
    refine ⟨hvalid, ?_⟩
    rw [utf8EncodeChar_two hvalid (by omega) (by omega), show v / 64 + 192 = b.toNat by omega, UInt8.ofNat_toNat]
  · have hvalid : v.isValidChar := by
      simp only [Nat.isValidChar]
      split at hhigh <;> omega
    refine ⟨hvalid, ?_⟩
    rw [utf8EncodeChar_three hvalid (by split at hlow <;> omega) (by omega),
      show v / 4096 + 224 = b.toNat by omega, UInt8.ofNat_toNat]
  · have hlarge : 65536 ≤ v := by split at hlow <;> omega
    have hvalid : v.isValidChar := by
      simp only [Nat.isValidChar]
      split at hhigh <;> omega
    refine ⟨hvalid, ?_⟩
    rw [utf8EncodeChar_four hvalid hlarge, show v / 262144 + 240 = b.toNat by omega, UInt8.ofNat_toNat]

theorem exists_goesOn (hv : v.isValidChar) (hlarge : 128 ≤ v) : ∃ b c, begin? b = some c ∧ c.GoesOn v := by
  -- the first byte holds the highest bits and the number of the other bytes
  obtain ⟨first, hfirst⟩ : ∃ first, first =
      if v < 2048 then v / 64 + 192 else if v < 65536 then v / 4096 + 224 else v / 262144 + 240 := ⟨_, rfl⟩
  have hrange : 194 ≤ first ∧ first ≤ 244 := by
    simp only [Nat.isValidChar] at hv
    split at hfirst
    · omega
    · split at hfirst <;> omega
  have hb : (UInt8.ofNat first).toNat = first := UInt8.toNat_ofNat_of_lt' (by simp only [UInt8.size]; omega)
  obtain ⟨c, hc⟩ := exists_begin? (b := UInt8.ofNat first) (by omega) (by omega)
  have hcases := begin?_eq_some hc
  rw [hb] at hcases
  refine ⟨_, c, hc, ?_⟩
  simp only [Nat.isValidChar] at hv
  rcases hcases with ⟨h1, h2, hm, hvalue, hlow, hhigh⟩ | ⟨h1, h2, hm, hvalue, hlow, hhigh⟩ |
    ⟨h1, h2, hm, hvalue, hlow, hhigh⟩
  all_goals
    constructor <;> simp only [hm, hvalue, hlow, hhigh, Nat.reducePow, Nat.reduceSub, Nat.div_one]
  all_goals grind

/-! ## Decoding a character -/

theorem toNat_continuation (missing v : Nat) :
    (UInt8.ofNat (v / 64 ^ missing % 64 + 128)).toNat = v / 64 ^ missing % 64 + 128 := by
  have hlt : v / 64 ^ missing % 64 < 64 := Nat.mod_lt _ (by decide)
  exact UInt8.toNat_ofNat_of_lt' (by simp only [UInt8.size]; omega)

theorem div_pow_succ (v missing : Nat) : v / 64 ^ (missing + 1) = v / 64 ^ missing / 64 := by
  rw [Nat.pow_succ, Nat.div_div_eq_div_mul]

theorem Begun.goesOn_of_extend {missing : Nat} (hm : c.missing = missing + 1) (hlow : c.low ≤ b) (hhigh : b ≤ c.high)
    (hranged : 128 ≤ c.low.toNat ∧ c.high.toNat ≤ 191) (hv : v / 64 ^ missing = (c.extend b).value) :
    c.GoesOn v ∧ continuation c.missing v = b :: continuation missing v := by
  rw [UInt8.le_iff_toNat_le] at hlow hhigh
  simp only [Begun.extend] at hv
  have hbits : v / 64 ^ missing % 64 + 128 = b.toNat := by omega
  refine ⟨⟨?_, ?_, ?_⟩, ?_⟩
  · rw [hm, div_pow_succ]
    omega
  · rwa [hm, Nat.add_sub_cancel, hbits]
  · rwa [hm, Nat.add_sub_cancel, hbits]
  · rw [hm, continuation, hbits, UInt8.ofNat_toNat]

theorem exists_cons_of_decodeFrom_some (h : decodeFrom position (some c) bytes = .ok s) :
    ∃ b rest, bytes = b :: rest ∧ c.low ≤ b ∧ b ≤ c.high := by
  cases bytes with
  | nil => simp [decodeFrom] at h
  | cons b rest =>
      rw [decodeFrom] at h
      dsimp only at h
      split at h
      · next hb => exact ⟨b, rest, rfl, hb⟩
      · simp at h

theorem decodeFrom_last (hm : c.missing = 1) (hb : c.low ≤ b ∧ b ≤ c.high) : decodeFrom position (some c) (b :: rest) =
    (decodeFrom (position + 1) none rest).map (Char.ofNat (c.extend b).value :: ·) := by
  rw [decodeFrom]
  simp only [if_pos hb, Begun.extend, hm, Nat.sub_self, if_true]

theorem decodeFrom_further {missing : Nat} (hm : c.missing = missing + 2) (hb : c.low ≤ b ∧ b ≤ c.high) :
    decodeFrom position (some c) (b :: rest) = decodeFrom (position + 1) (some (c.extend b)) rest := by
  rw [decodeFrom]
  simp only [if_pos hb, Begun.extend, hm]
  rfl

/-- What is decoded within a character is a character that goes on from what was begun, and a text behind it. -/
theorem exists_of_decodeFrom_some {missing : Nat} (hm : c.missing = missing + 1)
    (hranged : 128 ≤ c.low.toNat ∧ c.high.toNat ≤ 191) (h : decodeFrom position (some c) bytes = .ok s) :
    ∃ v rest position' s', c.GoesOn v ∧ bytes = continuation c.missing v ++ rest ∧ s = Char.ofNat v :: s' ∧
      decodeFrom position' none rest = .ok s' := by
  induction missing generalizing c position bytes with
  | zero =>
      obtain ⟨b, rest, rfl, hlow, hhigh⟩ := exists_cons_of_decodeFrom_some h
      obtain ⟨hgoes, hbytes⟩ := Begun.goesOn_of_extend hm hlow hhigh hranged (v := (c.extend b).value) (by simp)
      rw [decodeFrom_last hm ⟨hlow, hhigh⟩] at h
      obtain ⟨s', hrest, rfl⟩ := map_eq_ok_iff.mp h
      exact ⟨_, rest, _, s', hgoes, by rw [hbytes]; rfl, rfl, hrest⟩
  | succ missing ih =>
      obtain ⟨b, rest, rfl, hlow, hhigh⟩ := exists_cons_of_decodeFrom_some h
      have hextend : (c.extend b).missing = missing + 1 := by simp [Begun.extend, hm]
      rw [decodeFrom_further hm ⟨hlow, hhigh⟩] at h
      have hrange : 128 ≤ (c.extend b).low.toNat ∧ (c.extend b).high.toNat ≤ 191 := by simp [Begun.extend]
      obtain ⟨v, rest', position', s', hgoes, rfl, hs, hrest⟩ := ih hextend hrange h
      obtain ⟨hgoes', hbytes⟩ := Begun.goesOn_of_extend hm hlow hhigh hranged (hextend ▸ hgoes.value_eq)
      exact ⟨v, rest', position', s', hgoes', by rw [hbytes, hextend]; rfl, hs, hrest⟩

theorem Begun.GoesOn.next {missing : Nat} (h : c.GoesOn v) (hm : c.missing = missing + 1) :
    ∃ b, continuation c.missing v = b :: continuation missing v ∧ c.low ≤ b ∧ b ≤ c.high ∧
      (c.extend b).value = v / 64 ^ missing := by
  obtain ⟨hvalue, hlow, hhigh⟩ := h
  have hbits := toNat_continuation missing v
  rw [hm, Nat.add_sub_cancel, ← hbits, ← UInt8.le_iff_toNat_le] at hlow hhigh
  rw [hm, div_pow_succ] at hvalue
  refine ⟨_, by rw [hm, continuation], hlow, hhigh, ?_⟩
  simp only [Begun.extend, hbits]
  omega

theorem decodeFrom_continuation {missing : Nat} (hm : c.missing = missing + 1) (h : c.GoesOn v) (position : Nat)
    (rest : Bytes) : ∃ position', decodeFrom position (some c) (continuation c.missing v ++ rest) =
      (decodeFrom position' none rest).map (Char.ofNat v :: ·) := by
  induction missing generalizing c position with
  | zero =>
      obtain ⟨b, hbytes, hlow, hhigh, hvalue⟩ := h.next hm
      rw [hbytes, continuation, List.cons_append, List.nil_append, decodeFrom_last hm ⟨hlow, hhigh⟩, hvalue,
        Nat.pow_zero, Nat.div_one]
      exact ⟨_, rfl⟩
  | succ missing ih =>
      obtain ⟨b, hbytes, hlow, hhigh, hvalue⟩ := h.next hm
      have hextend : (c.extend b).missing = missing + 1 := congrArg (· - 1) hm
      have hlt : v / 64 ^ missing % 64 < 64 := Nat.mod_lt _ (by decide)
      have hlast : v / 64 ^ ((c.extend b).missing - 1) % 64 + 128 < 192 := by
        rw [hextend]
        exact Nat.add_lt_add_right hlt 128
      have hgoes : (c.extend b).GoesOn v :=
        ⟨by rw [hextend, hvalue], Nat.le_add_left 128 _, Nat.le_of_lt_succ hlast⟩
      rw [hbytes, List.cons_append, decodeFrom_further hm ⟨hlow, hhigh⟩, ← hextend]
      exact ih hextend hgoes _

/-! ## Decoding a text -/

theorem exists_missing_of_begin? (h : begin? b = some c) :
    (∃ missing, c.missing = missing + 1) ∧ 128 ≤ c.low.toNat ∧ c.high.toNat ≤ 191 := by
  rcases begin?_eq_some h with ⟨-, -, hm, -, hlow, hhigh⟩ | ⟨-, -, hm, -, hlow, hhigh⟩ | ⟨-, -, hm, -, hlow, hhigh⟩
  all_goals
    refine ⟨⟨_, hm⟩, ?_⟩
    grind

theorem utf8EncodeChar_one (hb : b < 0x80) : String.utf8EncodeChar (Char.ofNat b.toNat) = [b] := by
  rw [UInt8.lt_iff_toNat_lt] at hb
  have hvalid : b.toNat.isValidChar := .inl (Nat.lt_trans hb (by decide))
  rw [String.utf8EncodeChar]
  simp only [val_ofNat hvalid]
  rw [if_pos (Nat.le_of_lt_succ hb), UInt8.ofNat_toNat]

theorem decodeFrom_utf8EncodeChar (ch : Char) (position : Nat) (rest : Bytes) :
    ∃ position', decodeFrom position none (String.utf8EncodeChar ch ++ rest) =
      (decodeFrom position' none rest).map (ch :: ·) := by
  by_cases hsmall : ch.toNat < 128
  · have hb : (UInt8.ofNat ch.toNat).toNat = ch.toNat :=
      UInt8.toNat_ofNat_of_lt' (Nat.lt_trans hsmall (by decide))
    have hlt : UInt8.ofNat ch.toNat < 0x80 := UInt8.lt_iff_toNat_lt.mpr (hb.symm ▸ hsmall)
    have hbytes := utf8EncodeChar_one hlt
    rw [hb, Char.ofNat_toNat] at hbytes
    rw [hbytes, List.singleton_append, decodeFrom]
    simp only [if_pos hlt, hb, Char.ofNat_toNat]
    exact ⟨_, rfl⟩
  · obtain ⟨b, c, hb, hgoes⟩ := exists_goesOn (v := ch.toNat) ch.valid (Nat.le_of_not_lt hsmall)
    obtain ⟨-, hbytes⟩ := utf8EncodeChar_of_goesOn hb hgoes
    obtain ⟨⟨missing, hm⟩, -⟩ := exists_missing_of_begin? hb
    obtain ⟨position', hdecode⟩ := decodeFrom_continuation hm hgoes (position + 1) rest
    rw [Char.ofNat_toNat] at hbytes hdecode
    have hlarge : ¬ b < 0x80 := by
      rw [UInt8.lt_iff_toNat_lt]
      rcases begin?_eq_some hb with h | h | h
      all_goals exact Nat.not_lt.mpr (Nat.le_trans (by decide) h.1)
    rw [hbytes, List.cons_append, decodeFrom]
    simp only [if_neg hlarge, hb]
    exact ⟨position', hdecode⟩

theorem decodeFrom_none_eq_ok (h : decodeFrom position none bytes = .ok s) :
    (bytes = [] ∧ s = []) ∨ ∃ ch rest position' s', bytes = String.utf8EncodeChar ch ++ rest ∧ s = ch :: s' ∧
      decodeFrom position' none rest = .ok s' := by
  cases bytes with
  | nil => exact .inl ⟨rfl, (Except.ok.inj h).symm⟩
  | cons b rest =>
      rw [decodeFrom] at h
      split at h
      · next hb =>
          obtain ⟨s', hrest, rfl⟩ := map_eq_ok_iff.mp h
          exact .inr ⟨_, rest, _, s', by rw [utf8EncodeChar_one hb]; rfl, rfl, hrest⟩
      · split at h
        · next c hc =>
            obtain ⟨⟨missing, hm⟩, hranged⟩ := exists_missing_of_begin? hc
            obtain ⟨v, rest', position', s', hgoes, rfl, hs, hrest⟩ := exists_of_decodeFrom_some hm hranged h
            obtain ⟨-, hbytes⟩ := utf8EncodeChar_of_goesOn hc hgoes
            exact .inr ⟨_, rest', position', s', by rw [hbytes]; rfl, hs, hrest⟩
        · simp at h

theorem decodeFrom_encode (s : Text) (position : Nat) : decodeFrom position none (encode s) = .ok s := by
  induction s generalizing position with
  | nil => rfl
  | cons ch s ih =>
      obtain ⟨position', hdecode⟩ := decodeFrom_utf8EncodeChar ch position (encode s)
      rw [encode, List.flatMap_cons]
      exact hdecode.trans (by rw [ih]; rfl)

theorem eq_encode_of_decodeFrom (h : decodeFrom position none bytes = .ok s) : bytes = encode s := by
  induction s generalizing bytes position with
  | nil =>
      rcases decodeFrom_none_eq_ok h with ⟨rfl, -⟩ | ⟨ch, rest, position', s', -, hs, -⟩
      · rfl
      · cases hs
  | cons ch s ih =>
      rcases decodeFrom_none_eq_ok h with ⟨-, hs⟩ | ⟨ch', rest, position', s', rfl, hs, hrest⟩
      · cases hs
      · obtain ⟨rfl, rfl⟩ := List.cons.inj hs
        rw [ih hrest]
        rfl

/-- The decoder takes the bytes of a text and no others. -/
theorem decode_eq_ok_iff : decode bytes = .ok s ↔ bytes = encode s :=
  ⟨eq_encode_of_decodeFrom, fun h => h ▸ decodeFrom_encode s 0⟩

end Utf8
end IndentMarkup
