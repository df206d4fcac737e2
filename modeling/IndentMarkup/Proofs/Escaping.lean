import IndentMarkup.Entity.Decode
import Mathlib.Data.List.Basic
import Mathlib.Data.List.TakeWhile

/-!
# Content that is written with references

The content of a line ends at its closing parenthesis, and a line ends at a line feed. Written as references,
these characters may be part of the content all the same: decoding gives the text back (`decode_escape`).
-/

namespace IndentMarkup.Entity

def escapeChar (c : Char) : Text :=
  if c = '&' then "&amp;".toList
  else if c = '(' then "&#40;".toList
  else if c = ')' then "&#41;".toList
  else if c = '\n' then "&#10;".toList
  else [c]

def escape (s : Text) : Text := s.flatMap escapeChar

/-- A character as it is written in content that need not stay on one line of a template. -/
def escapeMark (c : Char) : Text :=
  if c = '&' then "&amp;".toList
  else if c = '(' then "&#40;".toList
  else if c = ')' then "&#41;".toList
  else [c]

def escapeMarks (s : Text) : Text := s.flatMap escapeMark

theorem escapeChar_eq (c : Char) : escapeChar c = if c = '\n' then "&#10;".toList else escapeMark c := by
  rw [escapeChar, escapeMark]
  split_ifs <;> simp_all

theorem decodeFrom_skip (taken s : Text) : decodeFrom taken.length (taken ++ s) = decodeFrom 0 s := by
  induction taken with
  | nil => rfl
  | cons c taken ih => rw [List.length_cons, List.cons_append, decodeFrom, ih]

/-- A closed reference is replaced, whatever follows it. -/
theorem decodeFrom_reference (body : Text) {reference : Reference} {value : Text}
    (hread : ∀ s, reference? (body ++ s) = some (reference, body.length)) (hvalue : reference.value = .ok value)
    (s : Text) : decodeFrom 0 ('&' :: (body ++ s)) = (decodeFrom 0 s).map (value ++ ·) := by
  rw [decodeFrom, if_pos rfl, hread s]
  simp only [hvalue]
  rw [decodeFrom_skip]

theorem decodeFrom_plain {c : Char} (hc : c ≠ '&') (s : Text) :
    decodeFrom 0 (c :: s) = (decodeFrom 0 s).map ([c] ++ ·) := by
  rw [decodeFrom, if_neg hc]
  rfl

def writtenNames : List (Text × Char) :=
  [("amp".toList, '&'), ("lt".toList, '<'), ("gt".toList, '>'), ("quot".toList, '"')]

theorem decodeFrom_name {word : Text} {c : Char} (h : (word, c) ∈ writtenNames) (s : Text) :
    decodeFrom 0 ('&' :: (word ++ ';' :: s)) = (decodeFrom 0 s).map ([c] ++ ·) := by
  have hread : ∀ e ∈ writtenNames, ∀ s, reference? (e.1 ++ [';'] ++ s) =
      some (.name e.1 true, (e.1 ++ [';']).length) := by
    simp [writtenNames, reference?, isNameChar, closing]
  have hnamed : ∀ e ∈ writtenNames, named? e.1 = some [e.2] := by decide +kernel
  have hvalue : (Reference.name word true).value = .ok [c] := by
    simp only [Reference.value, if_true, hnamed _ h]
  have hdecode := decodeFrom_reference (word ++ [';']) (hread _ h) hvalue s
  rwa [List.append_assoc, List.singleton_append] at hdecode

/-- A decimal reference is read with all its digits. -/
theorem reference?_digits {run : Text} (hrun : run ≠ []) (hdigits : ∀ c ∈ run, c.isDigit) (rest : Text) :
    reference? ('#' :: (run ++ rest)) =
      some (.number 10 (run ++ rest.takeWhile Char.isDigit), 1 + (run ++ rest.takeWhile Char.isDigit).length +
        closing ((run ++ rest).drop (run ++ rest.takeWhile Char.isDigit).length)) := by
  have htaken : (run ++ rest).takeWhile Char.isDigit = run ++ rest.takeWhile Char.isDigit :=
    List.takeWhile_append_of_pos hdigits
  rw [← htaken]
  have hne : (run ++ rest).takeWhile Char.isDigit ≠ [] := by simp [htaken, hrun]
  obtain ⟨x, r, rfl⟩ := List.exists_cons_of_ne_nil hrun
  have hx : ¬ (x = 'x' ∨ x = 'X') := by
    have hdigit := hdigits x (by simp)
    rintro (rfl | rfl) <;> exact absurd hdigit (by decide)
  rw [List.cons_append] at hne ⊢
  rw [reference?, if_neg hx, if_neg (by simpa using hne)]

theorem reference?_decimal (run : Text) (hrun : run ≠ []) (hdigits : ∀ c ∈ run, c.isDigit) (s : Text) :
    reference? ('#' :: (run ++ [';']) ++ s) = some (.number 10 run, run.length + 2) := by
  have hend : (';' :: s).takeWhile Char.isDigit = [] := List.takeWhile_cons_of_neg (by decide)
  have hread := reference?_digits hrun hdigits (';' :: s)
  simp only [hend, List.append_nil, List.drop_left, closing, List.head?_cons, if_true] at hread
  rw [List.cons_append, List.append_assoc, List.singleton_append, hread, Nat.add_comm 1]

theorem decodeFrom_twoDigits {x y c : Char} (hx : x.isDigit) (hy : y.isDigit)
    (hvalue : (Reference.number 10 [x, y]).value = .ok [c]) (s : Text) :
    decodeFrom 0 (['&', '#', x, y, ';'] ++ s) = (decodeFrom 0 s).map ([c] ++ ·) :=
  decodeFrom_reference ['#', x, y, ';'] (reference?_decimal [x, y] (by simp) (by simp [hx, hy])) hvalue s

theorem decodeFrom_escapeMark (c : Char) (s : Text) :
    decodeFrom 0 (escapeMark c ++ s) = (decodeFrom 0 s).map ([c] ++ ·) := by
  have hamp : ("amp".toList, '&') ∈ writtenNames := by simp [writtenNames]
  rw [escapeMark]
  split
  · next hc => exact hc ▸ decodeFrom_name hamp s
  · next hplain =>
      split
      · next hc => exact hc ▸ decodeFrom_twoDigits rfl rfl rfl s
      · split
        · next hc => exact hc ▸ decodeFrom_twoDigits rfl rfl rfl s
        · exact decodeFrom_plain hplain s

theorem decodeFrom_escapeChar (c : Char) (s : Text) :
    decodeFrom 0 (escapeChar c ++ s) = (decodeFrom 0 s).map ([c] ++ ·) := by
  rw [escapeChar_eq]
  split
  · next hc => exact hc ▸ decodeFrom_twoDigits rfl rfl rfl s
  · exact decodeFrom_escapeMark c s

/-- If every character is written such that decoding gives it back, decoding gives back the text. -/
theorem decode_flatMap {written : Char → Text}
    (h : ∀ c s, decodeFrom 0 (written c ++ s) = (decodeFrom 0 s).map ([c] ++ ·)) (s : Text) :
    decode (s.flatMap written) = .ok s := by
  unfold decode
  induction s with
  | nil => rfl
  | cons c s ih =>
      rw [List.flatMap_cons, h, ih]
      rfl

theorem decode_escape (s : Text) : decode (escape s) = .ok s := decode_flatMap decodeFrom_escapeChar s

theorem decode_escapeMarks (s : Text) : decode (escapeMarks s) = .ok s := decode_flatMap decodeFrom_escapeMark s

theorem ne_nil_of_decode {written s : Text} (h : decode written = .ok s) (hs : s ≠ []) : written ≠ [] := by
  rintro rfl
  exact hs (Except.ok.inj h).symm

theorem not_mem_escapeMark {c d : Char} (hd : d ∈ escapeMark c) : d ≠ '(' ∧ d ≠ ')' ∧ (d = '\n' → c = '\n') := by
  have hreferences : ∀ d ∈ ["&amp;", "&#40;", "&#41;"].flatMap String.toList, d ≠ '(' ∧ d ≠ ')' ∧ d ≠ '\n' :=
    List.forall_iff_forall_mem.mp (by decide)
  have hreference : ∀ reference ∈ ["&amp;", "&#40;", "&#41;"], d ∈ reference.toList →
      d ≠ '(' ∧ d ≠ ')' ∧ (d = '\n' → c = '\n') := by
    intro reference hmem hd
    obtain ⟨hopen, hclose, hnewline⟩ := hreferences d (List.mem_flatMap_of_mem hmem hd)
    exact ⟨hopen, hclose, fun heq => absurd heq hnewline⟩
  rw [escapeMark] at hd
  split at hd
  · exact hreference _ (by simp) hd
  · split at hd
    · exact hreference _ (by simp) hd
    · next hopen =>
        split at hd
        · exact hreference _ (by simp) hd
        · next hclose =>
            obtain rfl := List.mem_singleton.mp hd
            exact ⟨hopen, hclose, id⟩

theorem not_mem_escapeMarks {s : Text} {c : Char} (hc : c ∈ escapeMarks s) : c ≠ '(' ∧ c ≠ ')' := by
  obtain ⟨d, -, hd⟩ := List.mem_flatMap.mp hc
  exact ⟨(not_mem_escapeMark hd).1, (not_mem_escapeMark hd).2.1⟩

theorem not_mem_escape {s : Text} {c : Char} (hc : c ∈ escape s) : c ≠ '(' ∧ c ≠ ')' ∧ c ≠ '\n' := by
  obtain ⟨d, -, hd⟩ := List.mem_flatMap.mp hc
  rw [escapeChar_eq] at hd
  split at hd
  · have hreference : ∀ c ∈ "&#10;".toList, c ≠ '(' ∧ c ≠ ')' ∧ c ≠ '\n' :=
      List.forall_iff_forall_mem.mp (by decide)
    exact hreference c hd
  · next hnewline =>
      obtain ⟨hopen, hclose, hline⟩ := not_mem_escapeMark hd
      exact ⟨hopen, hclose, fun heq => hnewline (hline heq)⟩

end IndentMarkup.Entity
