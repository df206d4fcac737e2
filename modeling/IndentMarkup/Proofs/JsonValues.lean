import IndentMarkup.Proofs.JsonStrings
import IndentMarkup.Proofs.Tables

/-!
# Reading what a text denotes

A text that denotes a value is read as that value, wherever a value may stand, unless it holds an integer of too many
digits (`Denotes.isReadAs`). By induction on what the text denotes: the items of an array and the members of an object
are read one after the other, and each is entered into what is open. In the same way a text in front of a value leaves
open what it opens (`Opens.run`), so an integer of too many digits behind it keeps the text from being read
(`MeetsOverlongBehind.exists_runOut_eq`).
-/

namespace IndentMarkup.Json

/-! ## Integers of too many digits -/

/-- The first computation ends as the second, unless it meets an integer of too many digits. -/
def UnlessLong {α : Type} (x y : Except Fault α) : Prop := x = y ∨ ∃ digits, x = .error (.tooLong digits)

namespace UnlessLong

variable {α β : Type} {x y : Except Fault α}

theorem refl (x : Except Fault α) : UnlessLong x x := .inl rfl

theorem bind {a : α} (h : UnlessLong x (.ok a)) {next : α → Except Fault β} {z : Except Fault β}
    (hnext : UnlessLong (next a) z) : UnlessLong (x >>= next) z := by
  rcases h with rfl | ⟨digits, rfl⟩
  · exact hnext
  · exact .inr ⟨digits, rfl⟩

end UnlessLong

variable {e : Expected} {opened : List Open} {s p : Text} {v : Json}

/-- Wherever a value may stand, the text is read as the value. -/
def IsReadAs (s : Text) (v : Json) : Prop := ∀ e opened, e.allowsValue →
  UnlessLong (Reader.runOut ⟨.nothing, e, opened⟩ s) (.ok (Reader.complete ⟨.nothing, .value, opened⟩ v))

/-! ## White space, words and strings -/

theorem IsReadAs.blankBefore (h : IsReadAs s v) {c : Char} (hc : isJsonBlank c) : IsReadAs (c :: s) v := by
  intro e opened he
  rw [Reader.runOut_cons_of_step (step_blank rfl hc)]
  exact h e opened he

theorem stopsWord_cons {c : Char} (hc : ¬ isWordChar c) (s : Text) : StopsWord (c :: s) := fun _ hd =>
  Option.some.inj hd ▸ hc

theorem IsReadAs.blankBehind (h : IsReadAs s v) {c : Char} (hc : isJsonBlank c) : IsReadAs (s ++ [c]) v := by
  intro e opened he
  have hnothing := Reader.inside_complete ⟨.nothing, .value, opened⟩ v
  rw [Reader.runOut_append_of_stopsWord (stopsWord_cons (not_isWordChar_of_isJsonBlank hc) [])]
  refine (h e opened he).bind (.inl ?_)
  rw [Reader.runOut_cons_of_step (step_blank hnothing hc)]
  exact Reader.endWord_of_nothing hnothing

theorem isReadAs_word (h : (s, v) ∈ words) : IsReadAs s v := by
  intro e opened he
  rw [runOut_word (ne_nil_of_mem_words h) (fun _ => isWordChar_of_mem_words h) he, readWord_of_mem h]
  exact .refl _

theorem isReadAs_number (k : Numeral) : IsReadAs k.text k.value := by
  intro e opened he
  rw [runOut_word k.text_ne_nil (fun _ => k.isWordChar_text) he, readWord_text]
  split
  · exact .inr ⟨_, rfl⟩
  · exact .refl _

theorem run_quoted (e : Expected) (opened : List Open) (ps : List Piece) : ∃ inside,
    Reader.run ⟨.nothing, e, opened⟩ (quoted ps) = Reader.endString ⟨inside, e, opened⟩ (spelled ps) := by
  obtain ⟨chars, high, hrun, hspells⟩ := run_pieces .nil e opened ps
  refine ⟨.string chars high, ?_⟩
  have hopen : Reader.step ⟨.nothing, e, opened⟩ '"' = .ok ⟨.string [] none, e, opened⟩ := rfl
  have hclose : Reader.step ⟨.string chars high, e, opened⟩ '"' =
      Reader.endString ⟨.string chars high, e, opened⟩ (spelled ps) :=
    congrArg (Reader.endString ⟨.string chars high, e, opened⟩) hspells.reverse_settle
  rw [quoted, Reader.run_cons_of_step hopen, Reader.run_append_of_run hrun, Reader.run_singleton, hclose]

theorem isReadAs_string (ps : List Piece) : IsReadAs (quoted ps) (.str (spelled ps)) := by
  intro e opened he
  obtain ⟨inside, hrun⟩ := run_quoted e opened ps
  have hend : Reader.endString ⟨inside, e, opened⟩ (spelled ps) =
      .ok (Reader.complete ⟨.nothing, .value, opened⟩ (.str (spelled ps))) := by
    cases e with
    | value => rfl
    | firstItem => rfl
    | _ => simp [Expected.allowsValue] at he
  rw [Reader.runOut, hrun, hend]
  exact .inl (Reader.endWord_complete _ _)

/-! ## Arrays -/

theorem step_bracket (he : e.allowsValue) (opened : List Open) :
    Reader.step ⟨.nothing, e, opened⟩ '[' = .ok ⟨.nothing, .firstItem, .arr [] :: opened⟩ := if_pos he

theorem run_commaEnded {items : List (Text × Json)} (hitems : ∀ i ∈ items, IsReadAs i.1 i.2) (e : Expected)
    (he : e.allowsValue) (values : List Json) (opened : List Open) : ∃ e', e'.allowsValue ∧
      UnlessLong (Reader.run ⟨.nothing, e, .arr values :: opened⟩ (commaEnded (items.map Prod.fst)))
        (.ok ⟨.nothing, e', .arr (values ++ items.map Prod.snd) :: opened⟩) := by
  induction items generalizing e values with
  | nil => exact ⟨e, he, .inl (by simp [commaEnded, Reader.run_nil])⟩
  | cons i items ih =>
      obtain ⟨e', he', hrun⟩ := ih (fun j hj => hitems j (.tail _ hj)) .value rfl (values ++ [i.2])
      refine ⟨e', he', ?_⟩
      have htext : commaEnded ((i :: items).map Prod.fst) = i.1 ++ ',' :: commaEnded (items.map Prod.fst) := by
        simp [commaEnded]
      rw [htext, Reader.run_append_cons (by decide)]
      refine (hitems i (.head _) e _ he).bind ?_
      have hvalues : values ++ [i.2] ++ items.map Prod.snd = values ++ (i :: items).map Prod.snd := by simp
      rw [Reader.run_cons, ← hvalues]
      exact hrun

theorem isReadAs_emptyArray {b : Text} (hb : IsBlanks b) : IsReadAs ('[' :: (b ++ [']'])) (.arr []) := by
  intro e opened he
  rw [Reader.runOut_cons_of_step (step_bracket he opened), Reader.runOut_append_of_run (run_blanks rfl hb)]
  exact .inl (Reader.endWord_complete ⟨.nothing, .value, opened⟩ (.arr []))

theorem isReadAs_array {items : List (Text × Json)} (hitems : ∀ i ∈ items, IsReadAs i.1 i.2) {last : Text}
    (hlast : IsReadAs last v) : IsReadAs ('[' :: (commaEnded (items.map Prod.fst) ++ (last ++ [']'])))
      (.arr (items.map Prod.snd ++ [v])) := by
  intro e opened he
  obtain ⟨e', he', hrun⟩ := run_commaEnded hitems .firstItem rfl [] opened
  rw [Reader.runOut_cons_of_step (step_bracket he opened), Reader.runOut_append]
  refine hrun.bind ?_
  rw [Reader.runOut_append_of_stopsWord (stopsWord_cons (by decide) [])]
  refine (hlast e' _ he').bind (.inl ?_)
  exact Reader.endWord_complete ⟨.nothing, .value, opened⟩ _

/-! ## Objects -/

theorem step_brace (he : e.allowsValue) (opened : List Open) :
    Reader.step ⟨.nothing, e, opened⟩ '{' = .ok ⟨.nothing, .firstName [], opened⟩ := if_pos he

def Expected.AllowsName (e : Expected) (members : Pairs Json) : Prop := e = .firstName members ∨ e = .name members

theorem run_key {members : Pairs Json} (he : e.AllowsName members) (k : Key) :
    Reader.run ⟨.nothing, e, opened⟩ k.text = .ok ⟨.nothing, .value, .obj members k.name :: opened⟩ := by
  obtain ⟨inside, hquoted⟩ := run_quoted e opened k.pieces
  have hend : Reader.endString ⟨inside, e, opened⟩ (spelled k.pieces) =
      .ok ⟨.nothing, .colon members k.name, opened⟩ := by
    rcases he with rfl | rfl <;> rfl
  rw [Key.text, Reader.run_append_of_run (run_blanks rfl k.isBlanks_before),
    Reader.run_append_of_run (hquoted.trans hend), Reader.run_append_of_run (run_blanks rfl k.isBlanks_behind)]
  rfl

theorem run_members {members : List Member} (hmembers : ∀ m ∈ members, IsReadAs m.text m.value) (table : Pairs Json)
    (he : e.AllowsName table) (opened : List Open) : ∃ e', e'.AllowsName (table.putAll (members.map Member.entry)) ∧
      UnlessLong (Reader.run ⟨.nothing, e, opened⟩ (commaEnded (members.map Member.written)))
        (.ok ⟨.nothing, e', opened⟩) := by
  induction members generalizing e table with
  | nil => exact ⟨e, he, .inl rfl⟩
  | cons m members ih =>
      obtain ⟨e', he', hrun⟩ := ih (fun n hn => hmembers n (.tail _ hn)) (table.put m.key.name m.value) (.inr rfl)
      refine ⟨e', he', ?_⟩
      have htext : commaEnded ((m :: members).map Member.written) =
          m.key.text ++ (m.text ++ ',' :: commaEnded (members.map Member.written)) := by
        simp [commaEnded, Member.written]
      rw [htext, Reader.run_append_of_run (run_key he m.key), Reader.run_append_cons (by decide)]
      refine (hmembers m (.head _) .value _ rfl).bind ?_
      rw [Reader.run_cons]
      exact hrun

theorem isReadAs_emptyObject {b : Text} (hb : IsBlanks b) : IsReadAs ('{' :: (b ++ ['}'])) (.obj []) := by
  intro e opened he
  rw [Reader.runOut_cons_of_step (step_brace he opened), Reader.runOut_append_of_run (run_blanks rfl hb)]
  exact .inl (Reader.endWord_complete ⟨.nothing, .value, opened⟩ (.obj []))

theorem isReadAs_object {members : List Member} (hmembers : ∀ m ∈ members, IsReadAs m.text m.value) {last : Member}
    (hlast : IsReadAs last.text last.value) :
    IsReadAs ('{' :: (commaEnded (members.map Member.written) ++ (last.written ++ ['}'])))
      (.obj (Pairs.ofList ((members ++ [last]).map Member.entry))) := by
  intro e opened he
  obtain ⟨e', he', hrun⟩ := run_members hmembers [] (.inl rfl) opened
  rw [List.map_append, List.map_singleton, Pairs.ofList_concat,
    Reader.runOut_cons_of_step (step_brace he opened), Reader.runOut_append]
  refine hrun.bind ?_
  rw [Member.written, List.append_assoc, Reader.runOut_append_of_run (run_key he' last.key),
    Reader.runOut_append_of_stopsWord (stopsWord_cons (by decide) [])]
  refine (hlast .value _ rfl).bind (.inl ?_)
  exact Reader.endWord_complete ⟨.nothing, .value, opened⟩ _

/-! ## Values -/

/-- A text that denotes a value is read as that value. -/
theorem Denotes.isReadAs (h : Denotes s v) : IsReadAs s v := by
  induction h with
  | blankBefore hc _ ih => exact ih.blankBefore hc
  | blankBehind hc _ ih => exact ih.blankBehind hc
  | word h => exact isReadAs_word h
  | number k => exact isReadAs_number k
  | string ps => exact isReadAs_string ps
  | emptyArray hb => exact isReadAs_emptyArray hb
  | array _ _ hitems hlast => exact isReadAs_array hitems hlast
  | emptyObject hb => exact isReadAs_emptyObject hb
  | object _ _ hmembers hlast => exact isReadAs_object hmembers hlast

/-- In front of a value, the reader holds what is open. -/
theorem Opens.run (h : Opens p opened) :
    ∃ e, e.allowsValue ∧ UnlessLong (Reader.start.run p) (.ok ⟨.nothing, e, opened⟩) := by
  induction h with
  | nil => exact ⟨.value, rfl, .refl _⟩
  | @blank p c opened hc _ ih =>
      obtain ⟨e, he, hrun⟩ := ih
      refine ⟨e, he, ?_⟩
      rw [Reader.run_append]
      exact hrun.bind (.inl (Reader.run_cons_of_step (step_blank rfl hc) []))
  | @item p items opened hitems _ ih =>
      obtain ⟨e, he, hrun⟩ := ih
      obtain ⟨e', he', hrun'⟩ := run_commaEnded (fun i hi => (hitems i hi).isReadAs) .firstItem rfl [] opened
      refine ⟨e', he', ?_⟩
      rw [Reader.run_append]
      refine hrun.bind ?_
      rw [Reader.run_cons_of_step (step_bracket he opened)]
      exact hrun'
  | @member p members key opened hmembers _ ih =>
      obtain ⟨e, he, hrun⟩ := ih
      obtain ⟨e', he', hrun'⟩ := run_members (fun m hm => (hmembers m hm).isReadAs) [] (.inl rfl) opened
      refine ⟨.value, rfl, ?_⟩
      rw [Reader.run_append]
      refine hrun.bind ?_
      rw [Reader.run_cons_of_step (step_brace he opened), Reader.run_append]
      exact hrun'.bind (.inl (run_key he' key))

/-- An integer of too many digits behind a text that is read leaves the reader with a fault. -/
theorem MeetsOverlongBehind.exists_runOut_eq {digits : Nat} (h : MeetsOverlongBehind p s digits) :
    (∃ other, Reader.start.runOut s = .error (.tooLong other)) ∧
      ((∃ r, Reader.start.run p = .ok r) → Reader.start.runOut s = .error (.tooLong digits)) := by
  obtain ⟨opened, k, rest, rfl, hopens, hk, hrest, rfl⟩ := h
  obtain ⟨e, he, hrun⟩ := hopens.run
  rw [Reader.runOut_append]
  rcases hrun with hrun | ⟨other, hrun⟩
  · rw [hrun]
    have hlong := runOut_overlong he opened hk hrest
    exact ⟨⟨_, hlong⟩, fun _ => hlong⟩
  · rw [hrun]
    exact ⟨⟨other, rfl⟩, fun ⟨r, hr⟩ => by cases hr⟩

end IndentMarkup.Json
