import IndentMarkup.Proofs.Files
import IndentMarkup.Proofs.JsonNumbers

/-!
# Runs of the reader

A word or a number ends where a character stands that is none of its own. What is made of a text up to such a place does
not depend on what follows (`Reader.runOut_append_of_stopsWord`), so texts are read part by part. A word in front of
which a value may stand is entered as the value it is read as (`runOut_word`), and an integer of too many digits is met
whatever follows it (`runOut_overlong`).
-/

namespace IndentMarkup.Json

/-! ## Characters in turn -/

namespace Reader

variable {r r' : Reader}

def run (r : Reader) (s : Text) : Except Fault Reader := s.foldlM step r

/-- Takes the characters of a text that ends there, or that goes on with a character that is part of no word. -/
def runOut (r : Reader) (s : Text) : Except Fault Reader := r.run s >>= endWord

theorem run_nil (r : Reader) : r.run [] = .ok r := rfl

theorem run_cons (r : Reader) (c : Char) (s : Text) : r.run (c :: s) = r.step c >>= (run · s) := List.foldlM_cons

theorem run_singleton (r : Reader) (c : Char) : r.run [c] = r.step c := by
  rw [run_cons]
  exact bind_pure _

theorem run_append (r : Reader) (s t : Text) : r.run (s ++ t) = r.run s >>= (run · t) := List.foldlM_append

theorem runOut_append (r : Reader) (s t : Text) : r.runOut (s ++ t) = r.run s >>= (runOut · t) := by
  rw [runOut, run_append, bind_assoc]
  rfl

theorem runOut_cons (r : Reader) (c : Char) (s : Text) : r.runOut (c :: s) = r.step c >>= (runOut · s) := by
  rw [runOut, run_cons, bind_assoc]
  rfl

section

variable {c : Char} {s : Text}

theorem run_cons_of_step (h : r.step c = .ok r') (s : Text) : r.run (c :: s) = r'.run s := by
  rw [run_cons, h]
  rfl

theorem run_append_of_run (h : r.run s = .ok r') (t : Text) : r.run (s ++ t) = r'.run t := by
  rw [run_append, h]
  rfl

theorem runOut_cons_of_step (h : r.step c = .ok r') (s : Text) : r.runOut (c :: s) = r'.runOut s := by
  rw [runOut_cons, h]
  rfl

theorem runOut_append_of_run (h : r.run s = .ok r') (t : Text) : r.runOut (s ++ t) = r'.runOut t := by
  rw [runOut_append, h]
  rfl

end

theorem inside_complete (r : Reader) (v : Json) : (r.complete v).inside = .nothing := by
  obtain ⟨inside, expected, opened⟩ := r
  cases opened with
  | nil => rfl
  | cons a opened => cases a <;> rfl

theorem endWord_of_nothing (h : r.inside = .nothing) : r.endWord = .ok r := by rw [endWord, h]

theorem endWord_complete (r : Reader) (v : Json) : (r.complete v).endWord = .ok (r.complete v) :=
  endWord_of_nothing (r.inside_complete v)

section

variable {chars : Text} {e : Expected} {opened : List Open}

theorem endWord_word_eq_ok (h : endWord ⟨.word chars, e, opened⟩ = .ok r) :
    e.allowsValue ∧ ∃ v, readWord chars.reverse = .ok v ∧ r = complete ⟨.nothing, .value, opened⟩ v := by
  simp only [endWord] at h
  split at h
  · next he =>
      obtain ⟨v, hread, rfl⟩ := map_eq_ok_iff.mp h
      exact ⟨he, v, hread, rfl⟩
  · simp at h

theorem endWord_word_eq_tooLong {digits : Nat} (h : endWord ⟨.word chars, e, opened⟩ = .error (.tooLong digits)) :
    e.allowsValue ∧ readWord chars.reverse = .error (.tooLong digits) := by
  simp only [endWord] at h
  split at h
  · next he =>
      cases hread : readWord chars.reverse with
      | ok v => simp [hread, Except.map] at h
      | error fault => exact ⟨he, by simpa [hread, Except.map] using h⟩
  · simp at h

end

theorem endWord_cases (h : r.endWord = .ok r') : r'.inside = .nothing ∨ r' = r ∧ ∀ chars, r.inside ≠ .word chars := by
  obtain ⟨inside, expected, opened⟩ := r
  cases inside with
  | word chars =>
      obtain ⟨-, v, -, rfl⟩ := endWord_word_eq_ok h
      exact .inl (inside_complete _ v)
  | nothing => exact .inl (Except.ok.inj h ▸ rfl)
  | string chars high => exact .inr ⟨(Except.ok.inj h).symm, by simp⟩
  | escape chars high => exact .inr ⟨(Except.ok.inj h).symm, by simp⟩
  | code chars high digits => exact .inr ⟨(Except.ok.inj h).symm, by simp⟩

theorem endWord_endWord (h : r.endWord = .ok r') : r'.endWord = .ok r' := by
  rcases endWord_cases h with hnothing | ⟨rfl, -⟩
  · exact endWord_of_nothing hnothing
  · exact h

/-- A character that is part of no word ends the word in front of it. -/
theorem step_eq_endWord_bind {c : Char} (hc : ¬ isWordChar c) (r : Reader) : r.step c = r.endWord >>= (step · c) := by
  obtain ⟨inside, expected, opened⟩ := r
  cases inside with
  | word chars =>
      have hstep : step ⟨.word chars, expected, opened⟩ c = endWord ⟨.word chars, expected, opened⟩ >>= (between · c) :=
        if_neg hc
      rw [hstep]
      cases hend : endWord ⟨.word chars, expected, opened⟩ with
      | ok r' =>
          rcases endWord_cases hend with hnothing | ⟨-, hword⟩
          · change r'.between c = r'.step c
            rw [step, hnothing]
          · exact absurd rfl (hword chars)
      | error fault => rfl
  | _ => rfl

theorem run_append_cons {c : Char} (hc : ¬ isWordChar c) (r : Reader) (s t : Text) :
    r.run (s ++ c :: t) = r.runOut s >>= (run · (c :: t)) := by
  rw [run_append, runOut, bind_assoc]
  congr 1
  funext r'
  simp only [run_cons]
  rw [step_eq_endWord_bind hc, bind_assoc]

theorem runOut_append_of_stopsWord {t : Text} (ht : StopsWord t) (r : Reader) (s : Text) :
    r.runOut (s ++ t) = r.runOut s >>= (runOut · t) := by
  cases t with
  | nil =>
      rw [List.append_nil]
      cases hrun : r.runOut s with
      | error fault => rfl
      | ok r' =>
          cases hmid : r.run s with
          | error fault => simp [runOut, hmid, bind, Except.bind] at hrun
          | ok mid =>
              rw [runOut, hmid] at hrun
              exact (endWord_endWord hrun).symm
  | cons c t =>
      rw [runOut, run_append_cons (ht c rfl), bind_assoc]
      rfl

end Reader

/-! ## White space and words -/

section

variable {r : Reader} {e : Expected} {opened : List Open} {s rest : Text}

theorem not_isWordChar_of_isJsonBlank {c : Char} (hc : isJsonBlank c) : ¬ isWordChar c := by
  simp only [isJsonBlank, Bool.or_eq_true, beq_iff_eq] at hc
  rcases hc with ((rfl | rfl) | rfl) | rfl <;> decide

theorem step_blank (hr : r.inside = .nothing) {c : Char} (hc : isJsonBlank c) : r.step c = .ok r := by
  rw [Reader.step, hr]
  exact if_pos hc

theorem run_blanks (hr : r.inside = .nothing) {b : Text} (hb : IsBlanks b) : r.run b = .ok r := by
  induction b with
  | nil => rfl
  | cons c b ih =>
      rw [Reader.run_cons_of_step (step_blank hr (hb c (.head _)))]
      exact ih fun c hc => hb c (.tail _ hc)

theorem run_word (hs : ∀ c ∈ s, isWordChar c) (chars : Text) :
    Reader.run ⟨.word chars, e, opened⟩ s = .ok ⟨.word (s.reverse ++ chars), e, opened⟩ := by
  induction s generalizing chars with
  | nil => rfl
  | cons c s ih =>
      have hstep : Reader.step ⟨.word chars, e, opened⟩ c = .ok ⟨.word (c :: chars), e, opened⟩ :=
        if_pos (hs c (.head _))
      rw [Reader.run_cons_of_step hstep, ih fun c hc => hs c (.tail _ hc)]
      simp

theorem runOut_word (hne : s ≠ []) (hs : ∀ c ∈ s, isWordChar c) (he : e.allowsValue) (opened : List Open) :
    Reader.runOut ⟨.nothing, e, opened⟩ s = (readWord s).map (Reader.complete ⟨.nothing, .value, opened⟩) := by
  cases s with
  | nil => exact absurd rfl hne
  | cons c s =>
      have hblank : ¬ isJsonBlank c := fun h => not_isWordChar_of_isJsonBlank h (hs c (.head _))
      have hstep : Reader.step ⟨.nothing, e, opened⟩ c = .ok ⟨.word [c], e, opened⟩ :=
        (if_neg hblank).trans (if_pos (hs c (.head _)))
      rw [Reader.runOut_cons_of_step hstep, Reader.runOut, run_word fun c hc => hs c (.tail _ hc)]
      change Reader.endWord ⟨.word (s.reverse ++ [c]), e, opened⟩ = _
      rw [Reader.endWord]
      simp only [he, if_true, List.reverse_append, List.reverse_reverse, List.reverse_singleton, List.singleton_append]
      rfl

theorem stopsWord_dropWhile (s : Text) : StopsWord (s.dropWhile isWordChar) := by
  intro c hc
  have hhead := List.head?_dropWhile_not isWordChar s
  rw [Option.mem_def.mp hc] at hhead
  simpa using hhead

/-- An integer of too many digits is met where a value may stand, whatever follows it. -/
theorem runOut_overlong (he : e.allowsValue) (opened : List Open) {k : Numeral} (hk : k.IsOverlong)
    (hrest : ¬ Continues rest) :
    Reader.runOut ⟨.nothing, e, opened⟩ (k.text ++ rest) = .error (.tooLong k.whole.chars.length) := by
  have hall : ∀ c ∈ rest.takeWhile isWordChar, isWordChar c := List.all_eq_true.mp List.all_takeWhile
  have hstops := stopsWord_dropWhile rest
  have hsplit : rest = rest.takeWhile isWordChar ++ rest.dropWhile isWordChar := List.takeWhile_append_dropWhile.symm
  rw [hsplit, continues_append_iff hall hstops] at hrest
  have hword : ∀ c ∈ k.text ++ rest.takeWhile isWordChar, isWordChar c := by
    intro c hc
    rcases List.mem_append.mp hc with hc | hc
    · exact k.isWordChar_text hc
    · exact hall c hc
  rw [hsplit, ← List.append_assoc, Reader.runOut_append_of_stopsWord hstops,
    runOut_word (by simp [k.text_ne_nil]) hword he, readWord_overlong hk hrest hall]
  rfl

end

end IndentMarkup.Json
