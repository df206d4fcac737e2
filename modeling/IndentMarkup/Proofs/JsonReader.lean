import IndentMarkup.Proofs.JsonValues

/-!
# What the reader has read

Every text that the reader has taken so far is known from its state (`Reads`): what is open is what the text opens
(`Awaits`), and behind that stands the part that the reader is in the middle of. A step keeps this (`Reads.step`), hence
a run does (`reads_of_run`). So a text is read as a value exactly if it denotes the value and meets no integer of too
many digits (`read_eq_ok_iff`), and the first such integer, where a value may stand, is the only other fault than that
of the form (`read_eq_tooLong_iff`).
-/

namespace IndentMarkup.Json

variable {e : Expected} {opened : List Open} {s p : Text} {v : Json} {r r' : Reader}

/-! ## What is open -/

theorem Denotes.blanksBefore {b : Text} (hb : IsBlanks b) (h : Denotes s v) : Denotes (b ++ s) v := by
  induction b with
  | nil => exact h
  | cons c b ih => exact .blankBefore (hb c (.head _)) (ih fun d hd => hb d (.tail _ hd))

theorem IsBlanks.concat {b : Text} (hb : IsBlanks b) {c : Char} (hc : isJsonBlank c) : IsBlanks (b ++ [c]) := by
  intro d hd
  rcases List.mem_append.mp hd with hd | hd
  · exact hb d hd
  · exact List.mem_singleton.mp hd ▸ hc

theorem Opens.isBlanks (h : Opens p []) : IsBlanks p := by
  generalize hopened : ([] : List Open) = opened at h
  induction h with
  | nil => simp [IsBlanks]
  | blank hc _ ih => exact (ih hopened).concat hc
  | item => cases hopened
  | member => cases hopened

theorem Opens.exists_items {values : List Json} (h : Opens p (.arr values :: opened)) :
    ∃ (q : Text) (items : List (Text × Json)) (b : Text), p = q ++ '[' :: (commaEnded (items.map Prod.fst) ++ b) ∧
      values = items.map Prod.snd ∧ (∀ i ∈ items, Denotes i.1 i.2) ∧ IsBlanks b ∧ Opens q opened := by
  generalize hopened : Open.arr values :: opened = all at h
  induction h with
  | nil => cases hopened
  | blank hc _ ih =>
      obtain ⟨q, items, b, rfl, rfl, hitems, hb, hq⟩ := ih hopened
      exact ⟨q, items, b ++ [_], by simp, rfl, hitems, hb.concat hc, hq⟩
  | @item q items opened hitems hq _ =>
      cases hopened
      exact ⟨q, items, [], by simp, rfl, hitems, isBlanks_nil, hq⟩
  | member => cases hopened

theorem Opens.exists_members {table : Pairs Json} {name : Text} (h : Opens p (.obj table name :: opened)) :
    ∃ (q : Text) (members : List Member) (key : Key) (b : Text),
      p = q ++ '{' :: (commaEnded (members.map Member.written) ++ (key.text ++ b)) ∧
      table = Pairs.ofList (members.map Member.entry) ∧ name = key.name ∧
      (∀ m ∈ members, Denotes m.text m.value) ∧ IsBlanks b ∧ Opens q opened := by
  generalize hopened : Open.obj table name :: opened = all at h
  induction h with
  | nil => cases hopened
  | blank hc _ ih =>
      obtain ⟨q, members, key, b, rfl, rfl, rfl, hmembers, hb, hq⟩ := ih hopened
      exact ⟨q, members, key, b ++ [_], by simp, rfl, rfl, hmembers, hb.concat hc, hq⟩
  | item => cases hopened
  | @member q members key opened hmembers hq _ =>
      cases hopened
      exact ⟨q, members, key, [], by simp, rfl, rfl, hmembers, isBlanks_nil, hq⟩

/-! ## What may come next -/

/-- Behind the text, where nothing is begun, something may come next, and something is open. -/
inductive Awaits : Text → Expected → List Open → Prop
  | value {p : Text} {opened : List Open} (h : Opens p opened) : Awaits p .value opened
  | firstItem {p b : Text} {opened : List Open} (hb : IsBlanks b) (h : Opens p opened) :
      Awaits (p ++ '[' :: b) .firstItem (.arr [] :: opened)
  | firstName {p b : Text} {opened : List Open} (hb : IsBlanks b) (h : Opens p opened) :
      Awaits (p ++ '{' :: b) (.firstName []) opened
  | name {p b : Text} {members : List Member} {opened : List Open} (hmembers : ∀ m ∈ members, Denotes m.text m.value)
      (hb : IsBlanks b) (h : Opens p opened) :
      Awaits (p ++ '{' :: (commaEnded (members.map Member.written) ++ b))
        (.name (Pairs.ofList (members.map Member.entry))) opened
  | colon {p : Text} {members : List Member} {key : Key} {opened : List Open}
      (hmembers : ∀ m ∈ members, Denotes m.text m.value) (h : Opens p opened) :
      Awaits (p ++ '{' :: (commaEnded (members.map Member.written) ++
          (key.before ++ (quoted key.pieces ++ key.behind))))
        (.colon (Pairs.ofList (members.map Member.entry)) key.name) opened
  | item {p s : Text} {values : List Json} {v : Json} {opened : List Open} (h : Opens p (.arr values :: opened))
      (hs : Denotes s v) : Awaits (p ++ s) .separator (.arr (values ++ [v]) :: opened)
  | member {p s : Text} {table : Pairs Json} {name : Text} {v : Json} {opened : List Open}
      (h : Opens p (.obj table name :: opened)) (hs : Denotes s v) :
      Awaits (p ++ s) .separator (.obj (table.put name v) name :: opened)
  | whole {p s : Text} {v : Json} (h : Opens p []) (hs : Denotes s v) : Awaits (p ++ s) (.nothing v) []

namespace Awaits

theorem blank (h : Awaits p e opened) {c : Char} (hc : isJsonBlank c) : Awaits (p ++ [c]) e opened := by
  cases h with
  | value h => exact .value (.blank hc h)
  | firstItem hb h => simpa using Awaits.firstItem (hb.concat hc) h
  | firstName hb h => simpa using Awaits.firstName (hb.concat hc) h
  | name hmembers hb h => simpa using Awaits.name hmembers (hb.concat hc) h
  | @colon q members key opened hmembers h =>
      let key' : Key := { key with behind := key.behind ++ [c], isBlanks_behind := key.isBlanks_behind.concat hc }
      have hcolon := @Awaits.colon q members key' opened hmembers h
      simpa [key', Key.name] using hcolon
  | item h hs => simpa using Awaits.item h (.blankBehind hc hs)
  | member h hs => simpa using Awaits.member h (.blankBehind hc hs)
  | whole h hs => simpa using Awaits.whole h (.blankBehind hc hs)

theorem opens (h : Awaits p e opened) (he : e.allowsValue) : Opens p opened := by
  cases h with
  | value h => exact h
  | @firstItem q b opened hb h =>
      have hopens : ∀ b, IsBlanks b → Opens (q ++ '[' :: b) (.arr [] :: opened) := by
        intro b hb
        induction b using List.reverseRecOn with
        | nil => exact @Opens.item q [] opened (by simp) h
        | append_singleton b c ih =>
            have hblank := Opens.blank (hb c (by simp)) (ih fun d hd => hb d (by simp [hd]))
            simpa using hblank
      exact hopens b hb
  | _ => simp [Expected.allowsValue] at he

theorem exists_members {table : Pairs Json} (h : Awaits p e opened) (he : e.AllowsName table) :
    ∃ (q : Text) (members : List Member) (b : Text),
      p = q ++ '{' :: (commaEnded (members.map Member.written) ++ b) ∧
      table = Pairs.ofList (members.map Member.entry) ∧ (∀ m ∈ members, Denotes m.text m.value) ∧ IsBlanks b ∧
      Opens q opened := by
  cases h with
  | @firstName q b opened hb h =>
      rcases he with he | he
      · cases he
        exact ⟨q, [], b, by simp [commaEnded], rfl, by simp, hb, h⟩
      · cases he
  | @name q b members opened hmembers hb h =>
      rcases he with he | he
      · cases he
      · cases he
        exact ⟨q, members, b, rfl, rfl, hmembers, hb, h⟩
  | _ => rcases he with he | he <;> cases he

end Awaits

theorem Opens.awaits_complete (h : Opens p opened) (hs : Denotes s v) :
    ∃ e' opened', Reader.complete ⟨.nothing, .value, opened⟩ v = ⟨.nothing, e', opened'⟩ ∧
      Awaits (p ++ s) e' opened' := by
  cases opened with
  | nil => exact ⟨_, _, rfl, .whole h hs⟩
  | cons a opened =>
      cases a with
      | arr values => exact ⟨_, _, rfl, .item h hs⟩
      | obj table name => exact ⟨_, _, rfl, .member h hs⟩

/-- The items of an array up to a value in it, which takes the white space in front of it. -/
theorem Opens.exists_items_append {values : List Json} (h : Opens p (.arr values :: opened)) (hs : Denotes s v) :
    ∃ (q : Text) (items : List (Text × Json)) (last : Text),
      p ++ s = q ++ '[' :: (commaEnded (items.map Prod.fst) ++ last) ∧ values = items.map Prod.snd ∧
      (∀ i ∈ items, Denotes i.1 i.2) ∧ Denotes last v ∧ Opens q opened := by
  obtain ⟨q, items, b, rfl, rfl, hitems, hb, hq⟩ := h.exists_items
  exact ⟨q, items, b ++ s, by simp, rfl, hitems, hs.blanksBefore hb, hq⟩

theorem Opens.exists_members_append {table : Pairs Json} {name : Text} (h : Opens p (.obj table name :: opened))
    (hs : Denotes s v) : ∃ (q : Text) (members : List Member) (last : Member),
      p ++ s = q ++ '{' :: (commaEnded (members.map Member.written) ++ last.written) ∧
      table.put name v = Pairs.ofList ((members ++ [last]).map Member.entry) ∧
      (∀ m ∈ members, Denotes m.text m.value) ∧ Denotes last.text last.value ∧ Opens q opened := by
  obtain ⟨q, members, key, b, rfl, rfl, rfl, hmembers, hb, hq⟩ := h.exists_members
  refine ⟨q, members, ⟨key, b ++ s, v⟩, by simp [Member.written], ?_, hmembers, hs.blanksBefore hb, hq⟩
  rw [List.map_append, List.map_singleton, Pairs.ofList_concat]
  rfl

theorem Opens.next_item {values : List Json} (h : Opens p (.arr values :: opened)) (hs : Denotes s v) :
    Opens (p ++ s ++ [',']) (.arr (values ++ [v]) :: opened) := by
  obtain ⟨q, items, last, htext, rfl, hitems, hlast, hq⟩ := h.exists_items_append hs
  have hall : ∀ i ∈ items ++ [(last, v)], Denotes i.1 i.2 := by
    intro i hi
    rcases List.mem_append.mp hi with hi | hi
    · exact hitems i hi
    · exact List.mem_singleton.mp hi ▸ hlast
  rw [htext]
  simpa [commaEnded] using Opens.item hall hq

theorem Opens.next_member {table : Pairs Json} {name : Text} (h : Opens p (.obj table name :: opened))
    (hs : Denotes s v) : Awaits (p ++ s ++ [',']) (.name (table.put name v)) opened := by
  obtain ⟨q, members, last, htext, htable, hmembers, hlast, hq⟩ := h.exists_members_append hs
  have hall : ∀ m ∈ members ++ [last], Denotes m.text m.value := by
    intro m hm
    rcases List.mem_append.mp hm with hm | hm
    · exact hmembers m hm
    · exact List.mem_singleton.mp hm ▸ hlast
  rw [htext, htable]
  simpa [commaEnded] using Awaits.name hall isBlanks_nil hq

theorem Opens.close_array {values : List Json} (h : Opens p (.arr values :: opened)) (hs : Denotes s v) :
    ∃ e' opened', Reader.complete ⟨.nothing, .value, opened⟩ (.arr (values ++ [v])) = ⟨.nothing, e', opened'⟩ ∧
      Awaits (p ++ s ++ [']']) e' opened' := by
  obtain ⟨q, items, last, htext, rfl, hitems, hlast, hq⟩ := h.exists_items_append hs
  rw [htext]
  simpa using hq.awaits_complete (.array hitems hlast)

theorem Opens.close_object {table : Pairs Json} {name : Text} (h : Opens p (.obj table name :: opened))
    (hs : Denotes s v) :
    ∃ e' opened', Reader.complete ⟨.nothing, .value, opened⟩ (.obj (table.put name v)) = ⟨.nothing, e', opened'⟩ ∧
      Awaits (p ++ s ++ ['}']) e' opened' := by
  obtain ⟨q, members, last, htext, htable, hmembers, hlast, hq⟩ := h.exists_members_append hs
  have hclose := hq.awaits_complete (.object hmembers hlast)
  rw [htext, htable]
  simpa using hclose

/-- A comma, a colon or a bracket is taken where the grammar has it. -/
theorem Awaits.punctuation (h : Awaits p e opened) {c : Char} (hblank : ¬ isJsonBlank c) (hword : ¬ isWordChar c)
    (hquote : c ≠ '"') (hstep : Reader.between ⟨.nothing, e, opened⟩ c = .ok r) :
    ∃ e' opened', r = ⟨.nothing, e', opened'⟩ ∧ Awaits (p ++ [c]) e' opened' := by
  rw [Reader.between.eq_def, if_neg hblank, if_neg hword] at hstep
  dsimp only at hstep
  split at hstep
  · exact absurd rfl hquote
  · split at hstep
    · next he => exact ⟨_, _, (Except.ok.inj hstep).symm, .firstItem isBlanks_nil (h.opens he)⟩
    · simp at hstep
  · split at hstep
    · next he => exact ⟨_, _, (Except.ok.inj hstep).symm, .firstName isBlanks_nil (h.opens he)⟩
    · simp at hstep
  · cases h with
    | firstItem hb h =>
        rw [← Except.ok.inj hstep]
        simpa using h.awaits_complete (.emptyArray hb)
  · cases h with
    | item h hs => exact Except.ok.inj hstep ▸ h.close_array hs
  · cases h with
    | firstName hb h =>
        rw [← Except.ok.inj hstep]
        simpa using h.awaits_complete (.emptyObject hb)
  · cases h with
    | member h hs => exact Except.ok.inj hstep ▸ h.close_object hs
  · cases h with
    | item h hs => exact ⟨_, _, (Except.ok.inj hstep).symm, .value (h.next_item hs)⟩
  · cases h with
    | member h hs => exact ⟨_, _, (Except.ok.inj hstep).symm, h.next_member hs⟩
  · cases h with
    | @colon q members key _ hmembers h =>
        have hopens := Awaits.value (@Opens.member q members key _ hmembers h)
        exact ⟨_, _, (Except.ok.inj hstep).symm, by simpa [Key.text] using hopens⟩
  · simp at hstep

/-! ## What is begun -/

/-- What the reader has taken, and what it is in the middle of behind that. -/
inductive Reads : Text → Reader → Prop
  | between {p : Text} {e : Expected} {opened : List Open} (h : Awaits p e opened) : Reads p ⟨.nothing, e, opened⟩
  | word {p chars : Text} {e : Expected} {opened : List Open} (h : Awaits p e opened)
      (hrun : Reader.start.run p = .ok ⟨.nothing, e, opened⟩) (hne : chars ≠ []) (hword : ∀ c ∈ chars, isWordChar c) :
      Reads (p ++ chars.reverse) ⟨.word chars, e, opened⟩
  | string {p chars : Text} {high : Option Nat} {ps : List Piece} {e : Expected} {opened : List Open}
      (h : Awaits p e opened) (hspells : Spells (ps.map Piece.unit) chars high) :
      Reads (p ++ '"' :: ps.flatMap Piece.text) ⟨.string chars high, e, opened⟩
  | escape {p chars : Text} {high : Option Nat} {ps : List Piece} {e : Expected} {opened : List Open}
      (h : Awaits p e opened) (hspells : Spells (ps.map Piece.unit) chars high) :
      Reads (p ++ '"' :: (ps.flatMap Piece.text ++ ['\\'])) ⟨.escape chars high, e, opened⟩
  | code {p chars ds : Text} {high : Option Nat} {ps : List Piece} {digits : List Nat} {e : Expected}
      {opened : List Open} (h : Awaits p e opened) (hspells : Spells (ps.map Piece.unit) chars high)
      (hdigits : ds.map hexValue? = digits.reverse.map some) (hlength : digits.length < 4) :
      Reads (p ++ '"' :: (ps.flatMap Piece.text ++ '\\' :: 'u' :: ds)) ⟨.code chars high digits, e, opened⟩

theorem Reads.piece {chars : Text} {high : Option Nat} {ps : List Piece} (h : Awaits p e opened) (x : Piece)
    (hspells : Spells (ps.map Piece.unit ++ [x.unit]) chars high) :
    Reads (p ++ '"' :: (ps.flatMap Piece.text ++ x.text)) ⟨.string chars high, e, opened⟩ := by
  have hstring := @Reads.string p chars high (ps ++ [x]) e opened h (by simpa using hspells)
  simpa using hstring

theorem Awaits.quoted {table : Pairs Json} (h : Awaits p e opened) (he : e.AllowsName table) (ps : List Piece) :
    Awaits (p ++ quoted ps) (.colon table (spelled ps)) opened := by
  obtain ⟨q, members, b, rfl, rfl, hmembers, hb, hq⟩ := h.exists_members he
  let key : Key := ⟨b, ps, [], hb, isBlanks_nil⟩
  have hcolon := @Awaits.colon q members key opened hmembers hq
  simpa [key, Key.name] using hcolon

theorem Opens.reads_complete (h : Opens p opened) (hs : Denotes s v) :
    Reads (p ++ s) (Reader.complete ⟨.nothing, .value, opened⟩ v) := by
  obtain ⟨e', opened', hcomplete, hawaits⟩ := h.awaits_complete hs
  exact hcomplete ▸ .between hawaits

theorem Awaits.reads_endString (h : Awaits p e opened) (ps : List Piece) {inside : Inside}
    (hend : Reader.endString ⟨inside, e, opened⟩ (spelled ps) = .ok r) : Reads (p ++ Json.quoted ps) r := by
  cases e with
  | firstName table => exact Except.ok.inj hend ▸ .between (h.quoted (.inl rfl) ps)
  | name table => exact Except.ok.inj hend ▸ .between (h.quoted (.inr rfl) ps)
  | value => exact Except.ok.inj hend ▸ (h.opens rfl).reads_complete (.string ps)
  | firstItem => exact Except.ok.inj hend ▸ (h.opens rfl).reads_complete (.string ps)
  | _ => simp [Reader.endString, Expected.allowsValue] at hend

namespace Reads

theorem exists_awaits (h : Reads p r) (hr : r.inside = .nothing) :
    ∃ e opened, r = ⟨.nothing, e, opened⟩ ∧ Awaits p e opened := by
  cases h with
  | between h => exact ⟨_, _, rfl, h⟩
  | _ => cases hr

theorem endWord (h : Reads p r) (hend : r.endWord = .ok r') : Reads p r' := by
  cases h with
  | @word p chars e opened h _ _ hword =>
      obtain ⟨he, v, hread, rfl⟩ := Reader.endWord_word_eq_ok hend
      exact (h.opens he).reads_complete (denotes_of_readWord (by simpa using hword) hread)
  | between h => exact Except.ok.inj hend ▸ .between h
  | string h hspells => exact Except.ok.inj hend ▸ .string h hspells
  | escape h hspells => exact Except.ok.inj hend ▸ .escape h hspells
  | code h hspells hdigits hlength => exact Except.ok.inj hend ▸ .code h hspells hdigits hlength

theorem step_between (h : Awaits p e opened) {c : Char}
    (hrun : isWordChar c → Reader.start.run p = .ok ⟨.nothing, e, opened⟩)
    (hstep : Reader.between ⟨.nothing, e, opened⟩ c = .ok r) : Reads (p ++ [c]) r := by
  by_cases hblank : isJsonBlank c
  · rw [Reader.between.eq_def, if_pos hblank] at hstep
    exact Except.ok.inj hstep ▸ .between (h.blank hblank)
  · by_cases hword : isWordChar c
    · rw [Reader.between.eq_def, if_neg hblank, if_pos hword] at hstep
      exact Except.ok.inj hstep ▸ @Reads.word p [c] e opened h (hrun hword) (by simp) (by simpa using hword)
    · by_cases hquote : c = '"'
      · subst hquote
        exact Except.ok.inj hstep ▸ @Reads.string p [] none [] e opened h .nil
      · obtain ⟨e', opened', rfl, hawaits⟩ := h.punctuation hblank hword hquote hstep
        exact .between hawaits

theorem step_string {chars : Text} {high : Option Nat} {ps : List Piece} (h : Awaits p e opened)
    (hspells : Spells (ps.map Piece.unit) chars high) {c : Char}
    (hstep : Reader.step ⟨.string chars high, e, opened⟩ c = .ok r) :
    Reads (p ++ '"' :: ps.flatMap Piece.text ++ [c]) r := by
  simp only [Reader.step] at hstep
  rw [List.append_assoc, List.cons_append]
  split at hstep
  · next hquote =>
      subst hquote
      rw [hspells.reverse_settle] at hstep
      exact h.reads_endString ps hstep
  · next hquote =>
      split at hstep
      · next hslash => exact Except.ok.inj hstep ▸ hslash ▸ .escape h hspells
      · next hslash =>
          split at hstep
          · simp at hstep
          · next hcontrol =>
              exact Except.ok.inj hstep ▸ .piece h (.plain c hquote hslash (Nat.not_lt.mp hcontrol)) (hspells.inl c)

theorem step_escape {chars : Text} {high : Option Nat} {ps : List Piece} (h : Awaits p e opened)
    (hspells : Spells (ps.map Piece.unit) chars high) {c : Char}
    (hstep : Reader.step ⟨.escape chars high, e, opened⟩ c = .ok r) :
    Reads (p ++ '"' :: (ps.flatMap Piece.text ++ ['\\']) ++ [c]) r := by
  simp only [Reader.step] at hstep
  rw [List.append_assoc, List.cons_append, List.append_assoc]
  split at hstep
  · next hcode => exact Except.ok.inj hstep ▸ hcode ▸ .code h hspells rfl (by simp)
  · split at hstep
    · next d hescape => exact Except.ok.inj hstep ▸ .piece h (.letter c d hescape) (hspells.inl d)
    · simp at hstep

theorem step_code {chars ds : Text} {high : Option Nat} {ps : List Piece} {digits : List Nat} (h : Awaits p e opened)
    (hspells : Spells (ps.map Piece.unit) chars high) (hdigits : ds.map hexValue? = digits.reverse.map some)
    (hlength : digits.length < 4) {c : Char}
    (hstep : Reader.step ⟨.code chars high digits, e, opened⟩ c = .ok r) :
    Reads (p ++ '"' :: (ps.flatMap Piece.text ++ '\\' :: 'u' :: ds) ++ [c]) r := by
  rw [List.append_assoc, List.cons_append, List.append_assoc]
  cases hc : hexValue? c with
  | none => simp [Reader.step, hc] at hstep
  | some d =>
      by_cases hthree : digits.length = 3
      · obtain ⟨x, y, z, rfl⟩ := List.length_eq_three.mp hthree
        obtain ⟨c₁, c₂, c₃, rfl⟩ : ∃ c₁ c₂ c₃, ds = [c₁, c₂, c₃] := by
          have hds := congrArg List.length hdigits
          exact List.length_eq_three.mp (by simpa using hds)
        obtain ⟨hz, hy, hx⟩ : hexValue? c₁ = some z ∧ hexValue? c₂ = some y ∧ hexValue? c₃ = some x := by
          simpa using hdigits
        have hunit := unit?_eq_some_iff.mpr ⟨z, y, x, d, hz, hy, hx, hc, rfl⟩
        obtain ⟨chars', high', henter, hspells'⟩ := hspells.enter (.inr (((z * 16 + y) * 16 + x) * 16 + d))
        simp only [Reader.step, hc] at hstep
        rw [← Except.ok.inj hstep, show enterUnit chars high _ = _ from henter]
        exact .piece h (.code c₁ c₂ c₃ c _ hunit) hspells'
      · have hlength' : (d :: digits).length < 4 := by
          rw [List.length_cons]
          omega
        have hcode := @Reads.code p chars (ds ++ [c]) high ps (d :: digits) e opened h hspells (by simp [hdigits, hc])
          hlength'
        have hnext : Reader.step ⟨.code chars high digits, e, opened⟩ c =
            .ok ⟨.code chars high (d :: digits), e, opened⟩ := by
          simp only [Reader.step, hc]
          split
          · exact absurd rfl hthree
          · next hd _ => exact Option.some.inj hd ▸ rfl
          · next hd => cases hd
        rw [hnext] at hstep
        exact Except.ok.inj hstep ▸ hcode

/-- A further character is taken where the grammar has it. -/
theorem step (h : Reads p r) (hrun : Reader.start.run p = .ok r) {c : Char} (hstep : r.step c = .ok r') :
    Reads (p ++ [c]) r' := by
  cases h with
  | between h => exact step_between h (fun _ => hrun) hstep
  | @word p chars e opened h hrun' hne hword =>
      by_cases hc : isWordChar c
      · have hnext : Reader.step ⟨.word chars, e, opened⟩ c = .ok ⟨.word (c :: chars), e, opened⟩ := if_pos hc
        have hlonger := @Reads.word p (c :: chars) e opened h hrun' (by simp) (by simpa [hc] using hword)
        rw [← Except.ok.inj (hnext.symm.trans hstep)]
        simpa using hlonger
      · rw [Reader.step_eq_endWord_bind hc] at hstep
        obtain ⟨middle, hend, hbetween⟩ := bind_eq_ok_iff.mp hstep
        have hmiddle := (Reads.word h hrun' hne hword).endWord hend
        rcases Reader.endWord_cases hend with hnothing | ⟨-, hnone⟩
        · obtain ⟨e', opened', rfl, hawaits⟩ := hmiddle.exists_awaits hnothing
          exact step_between hawaits (fun hword => absurd hword hc) hbetween
        · exact absurd rfl (hnone chars)
  | string h hspells => exact step_string h hspells hstep
  | escape h hspells => exact step_escape h hspells hstep
  | code h hspells hdigits hlength => exact step_code h hspells hdigits hlength hstep

end Reads

/-- What the reader has taken is known from its state. -/
theorem reads_of_run (h : Reader.start.run s = .ok r) : Reads s r := by
  induction s using List.reverseRecOn generalizing r with
  | nil => exact Except.ok.inj h ▸ .between (.value .nil)
  | append_singleton s c ih =>
      rw [Reader.run_append] at h
      obtain ⟨middle, hrun, hstep⟩ := bind_eq_ok_iff.mp h
      exact (ih hrun).step hrun ((Reader.run_singleton middle c).symm.trans hstep)

/-! ## Integers of too many digits -/

namespace Reader

theorem between_ne_tooLong (r : Reader) (c : Char) (digits : Nat) : r.between c ≠ .error (.tooLong digits) := by
  rw [between.eq_def]
  split
  · simp
  · split
    · simp
    · split
      all_goals try split
      all_goals simp

theorem endString_ne_tooLong (r : Reader) (s : Text) (digits : Nat) : r.endString s ≠ .error (.tooLong digits) := by
  rw [endString.eq_def]
  split
  · simp
  · simp
  · split <;> simp

/-- Only where a word or a number ends, an integer of too many digits is met. -/
theorem endWord_of_step_eq_tooLong {c : Char} {digits : Nat} (h : r.step c = .error (.tooLong digits)) :
    ¬ isWordChar c ∧ r.endWord = .error (.tooLong digits) := by
  obtain ⟨inside, e, opened⟩ := r
  cases inside with
  | nothing => exact absurd h (between_ne_tooLong _ c digits)
  | word chars =>
      simp only [step] at h
      split at h
      · simp at h
      · next hc =>
          refine ⟨hc, ?_⟩
          cases hend : endWord ⟨.word chars, e, opened⟩ with
          | error fault =>
              rw [hend] at h
              exact h
          | ok middle =>
              rw [hend] at h
              exact absurd h (between_ne_tooLong _ c digits)
  | string chars high =>
      simp only [step] at h
      split at h
      · exact absurd h (endString_ne_tooLong _ _ digits)
      · split at h
        · simp at h
        · split at h <;> simp at h
  | escape chars high =>
      simp only [step] at h
      split at h
      · simp at h
      · split at h <;> simp at h
  | code chars high ds =>
      simp only [step] at h
      split at h <;> simp at h

theorem endWord_of_run_eq_tooLong {digits : Nat} (h : r.run s = .error (.tooLong digits)) :
    ∃ s₁ s₂ middle, s = s₁ ++ s₂ ∧ StopsWord s₂ ∧ r.run s₁ = .ok middle ∧
      middle.endWord = .error (.tooLong digits) := by
  induction s generalizing r with
  | nil => cases h
  | cons c s ih =>
      rw [run_cons] at h
      cases hstep : r.step c with
      | error fault =>
          rw [hstep] at h
          obtain ⟨hc, hend⟩ := endWord_of_step_eq_tooLong (hstep.trans h)
          exact ⟨[], c :: s, r, rfl, stopsWord_cons hc s, rfl, hend⟩
      | ok r' =>
          rw [hstep] at h
          obtain ⟨s₁, s₂, middle, rfl, hstops, hrun, hend⟩ := ih h
          exact ⟨c :: s₁, s₂, middle, rfl, hstops, (run_cons_of_step hstep s₁).trans hrun, hend⟩

theorem endWord_of_runOut_eq_tooLong {digits : Nat} (h : r.runOut s = .error (.tooLong digits)) :
    ∃ s₁ s₂ middle, s = s₁ ++ s₂ ∧ StopsWord s₂ ∧ r.run s₁ = .ok middle ∧
      middle.endWord = .error (.tooLong digits) := by
  cases hrun : r.run s with
  | error fault =>
      rw [runOut, hrun] at h
      exact endWord_of_run_eq_tooLong (hrun.trans h)
  | ok middle =>
      rw [runOut, hrun] at h
      exact ⟨s, [], middle, by simp, by simp [StopsWord], hrun, h⟩

end Reader

/-- A word or a number that ends with too many digits is an integer behind a text in front of a value. -/
theorem Reads.exists_overlong {digits : Nat} (h : Reads s r) (hend : r.endWord = .error (.tooLong digits)) :
    ∃ (p : Text) (k : Numeral) (rest : Text) (e : Expected) (opened : List Open), s = p ++ (k.text ++ rest) ∧
      k.IsOverlong ∧ ¬ Continues rest ∧ digits = k.whole.chars.length ∧ (∀ c ∈ rest, isWordChar c) ∧
      Opens p opened ∧ Reader.start.run p = .ok ⟨.nothing, e, opened⟩ := by
  cases h with
  | @word p chars e opened h hrun hne hword =>
      obtain ⟨he, hread⟩ := Reader.endWord_word_eq_tooLong hend
      obtain ⟨k, rest, hsplit, hk, hrest, rfl⟩ := exists_of_readWord_eq_tooLong (by simpa using hword) hread
      refine ⟨p, k, rest, e, opened, by rw [hsplit], hk, hrest, rfl, fun c hc => ?_, h.opens he, hrun⟩
      have hmem : c ∈ chars.reverse := by simp [hsplit, hc]
      exact hword c (List.mem_reverse.mp hmem)
  | _ => cases hend

/-- The integer of too many digits that a run meets is the first one where a value may stand: the text in front of it
is read. -/
theorem meetsOverlong_of_runOut {digits : Nat} (h : Reader.start.runOut s = .error (.tooLong digits)) :
    MeetsOverlong s digits := by
  obtain ⟨s₁, s₂, middle, rfl, hstops, hrun, hend⟩ := Reader.endWord_of_runOut_eq_tooLong h
  obtain ⟨p, k, rest, e, opened, rfl, hk, hrest, rfl, hword, hopens, hrun'⟩ := (reads_of_run hrun).exists_overlong hend
  have hcontinues : ¬ Continues (rest ++ s₂) := mt (continues_append_iff hword hstops).mp hrest
  refine ⟨p, ⟨opened, k, rest ++ s₂, by simp, hopens, hk, hcontinues, rfl⟩, fun q other hother => ?_⟩
  obtain ⟨⟨_, hfault⟩, -⟩ := hother.exists_runOut_eq
  rw [Reader.runOut, hrun'] at hfault
  cases hfault

theorem runOut_eq_tooLong_iff {digits : Nat} :
    Reader.start.runOut s = .error (.tooLong digits) ↔ MeetsOverlong s digits := by
  refine ⟨meetsOverlong_of_runOut, ?_⟩
  rintro ⟨p, hmeets, hfirst⟩
  refine hmeets.exists_runOut_eq.2 ?_
  obtain ⟨opened, k, rest, -, hopens, -⟩ := hmeets
  obtain ⟨e, he, hrun | ⟨other, hrun⟩⟩ := hopens.run
  · exact ⟨_, hrun⟩
  · have hfault : Reader.start.runOut p = .error (.tooLong other) := by rw [Reader.runOut, hrun]; rfl
    obtain ⟨q, hq, -⟩ := meetsOverlong_of_runOut hfault
    exact absurd hq (hfirst q other)

/-! ## Texts -/

def Reader.result (r : Reader) : Except Fault Json :=
  match r.inside, r.expected with
  | .nothing, .nothing v => .ok v
  | _, _ => .error .malformed

theorem read_eq_bind (s : Text) : read s = Reader.start.runOut s >>= Reader.result := by
  rw [read, Reader.runOut, bind_assoc]
  rfl

theorem Reader.result_eq_ok (h : r.result = .ok v) : r.inside = .nothing ∧ r.expected = .nothing v := by
  rw [result] at h
  split at h
  · next hinside hexpected => exact ⟨hinside, hexpected.trans (congrArg Expected.nothing (Except.ok.inj h))⟩
  · simp at h

theorem Reader.result_ne_tooLong (r : Reader) (digits : Nat) : r.result ≠ .error (.tooLong digits) := by
  rw [result]
  split <;> simp

theorem read_eq_tooLong_iff {digits : Nat} : read s = .error (.tooLong digits) ↔ MeetsOverlong s digits := by
  rw [← runOut_eq_tooLong_iff, read_eq_bind]
  cases Reader.start.runOut s with
  | error fault => simp [bind, Except.bind]
  | ok r => exact iff_of_false (r.result_ne_tooLong digits) (by simp)

/-- A text is read as a value exactly if it denotes the value and meets no integer of too many digits. -/
theorem read_eq_ok_iff : read s = .ok v ↔ Denotes s v ∧ ∀ digits, ¬ MeetsOverlong s digits := by
  constructor
  · intro h
    refine ⟨?_, fun digits hmeets => by rw [read_eq_tooLong_iff.mpr hmeets] at h; cases h⟩
    rw [read_eq_bind] at h
    obtain ⟨r, hrunOut, hresult⟩ := bind_eq_ok_iff.mp h
    obtain ⟨middle, hrun, hend⟩ := bind_eq_ok_iff.mp hrunOut
    obtain ⟨hinside, hexpected⟩ := Reader.result_eq_ok hresult
    obtain ⟨e, opened, rfl, hawaits⟩ := ((reads_of_run hrun).endWord hend).exists_awaits hinside
    obtain rfl : e = .nothing v := hexpected
    cases hawaits with
    | whole hopens hs => exact hs.blanksBefore hopens.isBlanks
  · rintro ⟨hdenotes, hmeets⟩
    rcases hdenotes.isReadAs .value [] rfl with hrun | ⟨digits, hrun⟩
    · rw [read_eq_bind, show Reader.start.runOut s = _ from hrun]
      rfl
    · exact absurd (runOut_eq_tooLong_iff.mp hrun) (hmeets digits)

end IndentMarkup.Json
