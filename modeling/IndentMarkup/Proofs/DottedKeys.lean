import IndentMarkup.Proofs.Lines
import IndentMarkup.Proofs.Tables
import IndentMarkup.Settings.Basic

/-!
# Settings as a store of dotted keys

A key is a path of names. Putting a value at a path can only be stopped by a value on the way that is no section
(`putAt_eq_error_iff`); otherwise the value is found below its path (`lookUp_putAt`), and whatever lies off the way is
left alone (`lookUp_putAt_of_apart`).
Overriding a key is this with a value that is first converted, so settings are a store of keys
(`Settings.set_isStore`).
-/

namespace IndentMarkup

/-! ## Look-ups along names -/

/-- What the names lead to, if all of them are there. A null that is there is told from nothing. -/
def named? : List Text → Json → Option Json
  | [], v => some v
  | name :: rest, .obj members => (Pairs.get? name members).bind (named? rest)
  | _ :: _, _ => none

theorem lookUp_null (names : List Text) : lookUp names .null = .null := by
  cases names <;> rfl

namespace Settings

/-! ## Putting a value at a path -/

/-- The section of a name. One that is missing is empty, and a value that is no object is no section. -/
def section? (s : Settings) (name : Text) : Option Settings :=
  match s.get? name with
  | none => some []
  | some (.obj inner) => some inner
  | some _ => none

theorem putAt_cons (v : Json) (name next : Text) (rest : List Text) (s : Settings) :
    putAt v name (next :: rest) s =
      match s.section? name with
      | some inner => (putAt v next rest inner).map fun inner => s.put name (.obj inner)
      | none => .error name := by
  rw [putAt, section?]
  cases s.get? name with
  | none => rfl
  | some w => cases w <;> rfl

variable {v : Json} {name : Text} {rest : List Text} {s t : Settings}

theorem exists_of_putAt_cons {next : Text} (h : putAt v name (next :: rest) s = .ok t) :
    ∃ inner changed, s.section? name = some inner ∧ putAt v next rest inner = .ok changed ∧
      t = s.put name (.obj changed) := by
  rw [putAt_cons] at h
  cases hsection : s.section? name with
  | none => simp [hsection] at h
  | some inner =>
      cases hinner : putAt v next rest inner with
      | error blocked => simp [hsection, hinner, Except.map] at h
      | ok changed =>
          simp only [hsection, hinner] at h
          exact ⟨inner, changed, rfl, hinner, (Except.ok.inj h).symm⟩

theorem putAt_putAt (h : putAt v name rest s = .ok t) (w : Json) : putAt w name rest t = putAt w name rest s := by
  induction rest generalizing name s t with
  | nil =>
      obtain rfl := Except.ok.inj h
      rw [putAt, Pairs.put_put, putAt]
  | cons next rest ih =>
      obtain ⟨inner, changed, hsection, hinner, rfl⟩ := exists_of_putAt_cons h
      have hchanged : section? (s.put name (.obj changed)) name = some changed := by
        rw [section?, Pairs.get?_put_self]
      rw [putAt_cons, hchanged, putAt_cons, hsection]
      simp only [ih hinner, Pairs.put_put]

theorem lookUp_cons_of_section {inner : Settings} (h : s.section? name = some inner) (next : Text) (path : List Text) :
    lookUp (name :: next :: path) (.obj s) = lookUp (next :: path) (.obj inner) := by
  rw [section?] at h
  rw [lookUp]
  split at h
  · next hnone =>
      obtain rfl := Option.some.inj h
      rw [hnone, lookUp, Pairs.get?]
      exact (lookUp_null path).symm
  · next hsome =>
      obtain rfl := Option.some.inj h
      rw [hsome]
      rfl
  · simp at h

/-- The value that was put is found at its path, and what it holds below. -/
theorem lookUp_putAt (h : putAt v name rest s = .ok t) (more : List Text) :
    lookUp (name :: (rest ++ more)) (.obj t) = lookUp more v := by
  induction rest generalizing name s t with
  | nil =>
      obtain rfl := Except.ok.inj h
      rw [List.nil_append, lookUp, Pairs.get?_put_self]
      rfl
  | cons next rest ih =>
      obtain ⟨inner, changed, -, hinner, rfl⟩ := exists_of_putAt_cons h
      rw [lookUp, Pairs.get?_put_self]
      exact ih hinner

/-- What is neither on the way to the value nor below it is left alone. -/
theorem lookUp_putAt_of_apart (h : putAt v name rest s = .ok t) {path : List Text}
    (habove : ¬ path <+: name :: rest) (hbelow : ¬ name :: rest <+: path) :
    lookUp path (.obj t) = lookUp path (.obj s) := by
  induction rest generalizing name s t path with
  | nil =>
      obtain rfl := Except.ok.inj h
      cases path with
      | nil => exact absurd (List.nil_prefix) habove
      | cons other path =>
          have hne : name ≠ other := fun heq => hbelow (heq ▸ ⟨path, rfl⟩)
          rw [lookUp, lookUp, Pairs.get?_put_of_ne hne]
  | cons next rest ih =>
      obtain ⟨inner, changed, hsection, hinner, rfl⟩ := exists_of_putAt_cons h
      cases path with
      | nil => exact absurd (List.nil_prefix) habove
      | cons other path =>
          by_cases hother : name = other
          · subst hother
            rw [List.cons_prefix_cons, and_iff_right rfl] at habove hbelow
            cases path with
            | nil => exact absurd (List.nil_prefix) habove
            | cons further path =>
                rw [lookUp_cons_of_section hsection, ← ih hinner habove hbelow, lookUp, Pairs.get?_put_self]
                rfl
          · rw [lookUp, lookUp, Pairs.get?_put_of_ne hother]

/-- A value is in the way to a path: some of the names in front lead to it, and it is no object. -/
def IsBlocked (s : Settings) (names : List Text) : Prop :=
  ∃ front w, front <+: names ∧ front ≠ names ∧ named? front (.obj s) = some w ∧ ∀ members, w ≠ .obj members

theorem not_isBlocked_nil (names : List Text) : ¬ IsBlocked [] names := by
  rintro ⟨front, w, -, -, hnamed, hw⟩
  cases front with
  | nil => exact hw [] (Option.some.inj hnamed).symm
  | cons name front => simp [named?, Pairs.get?] at hnamed

theorem not_isBlocked_singleton : ¬ s.IsBlocked [name] := by
  rintro ⟨front, w, hfront, hne, hnamed, hw⟩
  rcases List.prefix_cons_iff.mp hfront with rfl | ⟨back, rfl, hback⟩
  · exact hw s (Option.some.inj hnamed).symm
  · exact hne (by rw [List.prefix_nil.mp hback])

theorem isBlocked_cons_iff {next : Text} :
    s.IsBlocked (name :: next :: rest) ↔ ∀ inner, s.section? name = some inner → inner.IsBlocked (next :: rest) := by
  -- the front of the path is not empty, and its first name is that of the section
  have hcons : s.IsBlocked (name :: next :: rest) ↔ ∃ back w, back <+: next :: rest ∧ back ≠ next :: rest ∧
      (s.get? name).bind (named? back) = some w ∧ ∀ members, w ≠ .obj members := by
    constructor
    · rintro ⟨front, w, hfront, hne, hnamed, hw⟩
      rcases List.prefix_cons_iff.mp hfront with rfl | ⟨back, rfl, hback⟩
      · exact absurd (Option.some.inj hnamed).symm (hw s)
      · exact ⟨back, w, hback, fun heq => hne (congrArg (List.cons name) heq), hnamed, hw⟩
    · rintro ⟨back, w, hback, hne, hnamed, hw⟩
      exact ⟨name :: back, w, List.cons_prefix_cons.mpr ⟨rfl, hback⟩, fun heq => hne (List.cons.inj heq).2, hnamed, hw⟩
  rw [hcons, section?]
  cases hget : s.get? name with
  | none =>
      simp only [Option.bind_none, reduceCtorEq, false_and, and_false, exists_false, false_iff]
      exact fun h => not_isBlocked_nil _ (h [] rfl)
  | some v =>
      cases v with
      | obj inner =>
          simp only [Option.bind_some, Option.some.injEq, forall_eq']
          exact Iff.rfl
      | _ => exact iff_of_true ⟨[], _, List.nil_prefix, by simp, rfl, by simp⟩ (by simp)

theorem putAt_eq_error_iff : (∃ blocked, putAt v name rest s = .error blocked) ↔ s.IsBlocked (name :: rest) := by
  induction rest generalizing name s with
  | nil => exact iff_of_false (by simp [putAt]) not_isBlocked_singleton
  | cons next rest ih =>
      rw [isBlocked_cons_iff, putAt_cons]
      cases s.section? name with
      | none => simp
      | some inner =>
          simp only [Option.some.injEq, forall_eq']
          rw [← ih]
          cases putAt v next rest inner <;> simp [Except.map]

/-! ## Overriding a key -/

theorem kind_convertLike {like converted : Json} {text : Text} (hlike : like ≠ .null)
    (h : convertLike like text = .ok converted) : converted.kind = like.kind := by
  cases like with
  | null => exact absurd rfl hlike
  | bool _ =>
      rw [convertLike] at h
      split at h
      · exact Except.ok.inj h ▸ rfl
      · simp at h
  | int _ =>
      rw [convertLike] at h
      cases hread : convertInteger text with
      | error fault => simp [hread, Except.map] at h
      | ok i =>
          rw [hread] at h
          exact Except.ok.inj h ▸ rfl
  | float _ =>
      rw [convertLike] at h
      split at h
      · exact Except.ok.inj h ▸ rfl
      · simp at h
  | str _ => exact Except.ok.inj h ▸ rfl
  | arr _ => exact Except.ok.inj h ▸ rfl
  | obj _ =>
      rw [convertLike] at h
      split at h
      · exact Except.ok.inj h ▸ rfl
      · simp at h

/-- What a key is overridden with, given the value that it had. -/
inductive Overrides (old : Option Json) (given : Json) : Json → Prop
  | fresh (hold : old = none) : Overrides old given given
  | value (hgiven : ∀ text, given ≠ .str text) : Overrides old given given
  | kept {like : Json} {text : Text} {fault : ConversionFault} (hold : old = some like) (hgiven : given = .str text)
      (h : convertLike like text = .error fault) : Overrides old given given
  | converted {like v : Json} {text : Text} (hold : old = some like) (hgiven : given = .str text)
      (h : convertLike like text = .ok v) (hkind : v.kind = like.kind) : Overrides old given v

theorem Overrides.ne_null {old : Option Json} {given v : Json} (h : Overrides old given v) (hgiven : given ≠ .null)
    (hold : old ≠ some .null) : v ≠ .null := by
  cases h with
  | fresh | value | kept => exact hgiven
  | @converted like _ _ hlike _ _ hkind =>
      rintro rfl
      cases like with
      | null => exact hold hlike
      | _ => simp [Json.kind] at hkind

theorem value?_eq_none_iff {key : Text} : s.value? key = none ↔ lookUp (keyNames key) (.obj s) = .null := by
  rw [value?]
  cases lookUp (keyNames key) (.obj s) <;> simp

theorem value?_eq_some_iff {key : Text} : s.value? key = some v ↔ lookUp (keyNames key) (.obj s) = v ∧ v ≠ .null := by
  rw [value?]
  cases lookUp (keyNames key) (.obj s) <;> simp <;> rintro rfl <;> simp

theorem value?_congr {key : Text} (h : lookUp (keyNames key) (.obj t) = lookUp (keyNames key) (.obj s)) :
    t.value? key = s.value? key := by
  rw [value?, value?, h]

theorem replacement_str {old : Json} (hold : old ≠ .null) (text : Text) :
    replacement old (.str text) = convertLike old text := by
  cases old with
  | null => exact absurd rfl hold
  | _ => rfl

theorem replacement_of_ne_str {given : Json} (hgiven : ∀ text, given ≠ .str text) (old : Json) :
    replacement old given = .ok given := by
  cases given with
  | str text => exact absurd rfl (hgiven text)
  | _ => cases old <;> rfl

def overriding (s : Settings) (key : Text) (given : Json) : Json :=
  match replacement (lookUp (keyNames key) (.obj s)) given with
  | .ok v => v
  | .error _ => given

theorem overrides_overriding (s : Settings) (key : Text) (given : Json) :
    Overrides (s.value? key) given (s.overriding key given) := by
  rw [overriding]
  by_cases hnull : lookUp (keyNames key) (.obj s) = .null
  · rw [hnull]
    exact .fresh (value?_eq_none_iff.mpr hnull)
  · have hold := value?_eq_some_iff.mpr ⟨rfl, hnull⟩
    by_cases htext : ∃ text, given = .str text
    · obtain ⟨text, rfl⟩ := htext
      rw [replacement_str hnull]
      cases hconvert : convertLike (lookUp (keyNames key) (.obj s)) text with
      | ok v => exact .converted hold rfl hconvert (kind_convertLike hnull hconvert)
      | error fault => exact .kept hold rfl hconvert
    · rw [not_exists] at htext
      rw [replacement_of_ne_str htext]
      exact .value htext

theorem keyNames_eq_cons (key : Text) : keyNames key = (keyNames key).headD [] :: (keyNames key).tail := by
  rw [keyNames]
  cases h : Text.splitAtChar '.' key with
  | nil => exact absurd h (Text.splitAtChar_ne_nil '.' key)
  | cons name rest => rfl

def putKey (s : Settings) (key : Text) (v : Json) : Except Text Settings :=
  putAt v ((keyNames key).headD []) (keyNames key).tail s

theorem putKey_eq_error_iff {key : Text} :
    (∃ blocked, s.putKey key v = .error blocked) ↔ s.IsBlocked (keyNames key) := by
  rw [putKey, putAt_eq_error_iff, ← keyNames_eq_cons]

/-- To override a key is to put its value, unless another one is in the way. -/
theorem set_cases (s : Settings) (key : Text) (given : Json) :
    (∃ t, s.putKey key (s.overriding key given) = .ok t ∧ (s.set key given).1 = t ∧ (s.set key given).2.1 = true) ∨
    s.IsBlocked (keyNames key) ∧ (s.set key given).1 = s ∧ (s.set key given).2.1 = false := by
  have hset : ∀ v, s.overriding key given = v → (s.set key given).1 = (s.putKey key v).toOption.getD s ∧
      (s.set key given).2.1 = (s.putKey key v).toOption.isSome := by
    rintro v rfl
    simp only [set, overriding, putKey]
    cases replacement (lookUp (keyNames key) (.obj s)) given with
    | ok v => cases putAt v ((keyNames key).headD []) (keyNames key).tail s <;> exact ⟨rfl, rfl⟩
    | error fault => cases putAt given ((keyNames key).headD []) (keyNames key).tail s <;> exact ⟨rfl, rfl⟩
  obtain ⟨hchanged, haccepted⟩ := hset _ rfl
  rw [hchanged, haccepted]
  cases hput : s.putKey key (s.overriding key given) with
  | ok t => exact .inl ⟨t, rfl, rfl, rfl⟩
  | error blocked => exact .inr ⟨putKey_eq_error_iff.mp ⟨blocked, hput⟩, rfl, rfl⟩

/-! ## The main result -/

/-- Settings are a store of dotted keys. An override is refused exactly if a value is in the way to its key, also a
null, and then nothing is changed. Otherwise the key has the value that was given or the one that it was converted
to, and every key that is neither above nor below it has the value that it had. -/
theorem set_isStore (s : Settings) (key : Text) (given : Json) (hgiven : given ≠ .null) :
    let t := (s.set key given).1
    ((s.set key given).2.1 = false ↔ s.IsBlocked (keyNames key)) ∧
      ((s.set key given).2.1 = false → t = s) ∧
      ((s.set key given).2.1 = true →
        (∃ v, t.value? key = some v ∧ Overrides (s.value? key) given v) ∧
        ∀ other, ¬ keyNames other <+: keyNames key → ¬ keyNames key <+: keyNames other →
          ∀ default, (t.value? other).getD default = (s.value? other).getD default) := by
  intro t
  rcases set_cases s key given with ⟨t', hput, ht, haccepted⟩ | ⟨hblocked, ht, hrefused⟩
  · obtain rfl : t = t' := ht
    have hfree : ¬ s.IsBlocked (keyNames key) := fun h => by
      obtain ⟨blocked, hrefused⟩ := putKey_eq_error_iff (v := s.overriding key given).mpr h
      rw [hput] at hrefused
      cases hrefused
    have hnames := keyNames_eq_cons key
    have hoverrides := overrides_overriding s key given
    rw [haccepted]
    refine ⟨iff_of_false (by simp) hfree, by simp, fun _ => ⟨⟨_, ?_, hoverrides⟩, ?_⟩⟩
    · refine value?_eq_some_iff.mpr ⟨?_, hoverrides.ne_null hgiven fun hold => (value?_eq_some_iff.mp hold).2 rfl⟩
      have hfound := lookUp_putAt hput []
      rwa [List.append_nil, ← hnames] at hfound
    · intro other habove hbelow default
      rw [hnames] at habove hbelow
      rw [value?_congr (lookUp_putAt_of_apart hput habove hbelow)]
  · rw [hrefused]
    exact ⟨iff_of_true rfl hblocked, fun _ => ht, by simp⟩

def mixed : Settings := [("a".toList, .null), ("b".toList, .obj [("c".toList, .int 3)])]

/-- A text takes the place of the number as a number, and nothing is put below the null. -/
theorem set_isStore_mixed :
    (∃ v, (mixed.set "b.c".toList (.str "7".toList)).1.value? "b.c".toList = some v ∧
        Overrides (some (.int 3)) (.str "7".toList) v) ∧
      ((mixed.set "b.c".toList (.str "7".toList)).1.value? "a".toList).getD (.int 0) = .int 0 ∧
      mixed.IsBlocked ["a".toList, "x".toList] ∧ (mixed.set "a.x".toList (.str "7".toList)).1 = mixed := by
  obtain ⟨-, -, haccepted⟩ := set_isStore mixed "b.c".toList (.str "7".toList) (by simp)
  obtain ⟨hvalue, hothers⟩ := haccepted (by decide +kernel)
  obtain ⟨hblocked, hunchanged, -⟩ := set_isStore mixed "a.x".toList (.str "7".toList) (by simp)
  have hrefused : (mixed.set "a.x".toList (.str "7".toList)).2.1 = false := by decide +kernel
  exact ⟨hvalue, hothers "a".toList (by decide) (by decide) (.int 0), hblocked.mp hrefused, hunchanged hrefused⟩

end Settings

end IndentMarkup
