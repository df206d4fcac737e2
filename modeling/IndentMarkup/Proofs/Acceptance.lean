import IndentMarkup.Proofs.Registrations

/-!
# What a registry accepts

The fields of a binding are looked at three times: for something that counts as true, for their kinds, and, once they
make a binding, for a name that is left without its `on`. The first look refuses nothing that the others would not
refuse (`Registry.accept_fields_eq_ok_iff`). So to register fields is to make a binding of them and to register that,
with the same outcome but for the refusal that is reported (`Registry.acceptsFields`).
-/

namespace IndentMarkup

structure Binding.Agrees (b other : Binding) : Prop where
  name_eq : b.name = other.name
  eventType_eq : b.eventType = other.eventType
  callback_eq : b.callback = other.callback
  options_eq : b.options = other.options

theorem dropOn_eq_nil_iff {name : Text} : dropOn name = [] ↔ name = [] ∨ name = "on".toList := by
  rw [dropOn.eq_def]
  split
  · simp
  · next h => exact ⟨.inl, fun hname => hname.resolve_right fun hon => h [] hon⟩

namespace BindingFields

variable {f : BindingFields}

/-- The fields can be registered: there is a name other than `on`, a type under one of its names, and a callback that
can be called. -/
def IsAcceptable (f : BindingFields) : Prop :=
  ∃ name eventType callback, f.name = some (.str name) ∧ f.resolveType.eventType = some (.str eventType) ∧
    f.callback = some (.callable callback) ∧ name ≠ [] ∧ name ≠ "on".toList ∧ eventType ≠ []

theorem resolveType_of_type_eq_none (h : f.type = none) : f.resolveType = f := by
  obtain ⟨_, eventType, type, _, _⟩ := f
  obtain rfl := h
  cases eventType <;> rfl

theorem name_resolveType (f : BindingFields) : f.resolveType.name = f.name := by
  rw [resolveType]
  split <;> rfl

theorem callback_resolveType (f : BindingFields) : f.resolveType.callback = f.callback := by
  rw [resolveType]
  split <;> rfl

theorem callbackField_eq_ok {field : String} {value : Option CallbackField} {c : Callback}
    (h : callbackField field value = .ok c) : value = some (.callable c) := by
  cases value with
  | none => simp [callbackField] at h
  | some value =>
      cases value with
      | callable given => exact congrArg (fun c => some (CallbackField.callable c)) (Except.ok.inj h)
      | value v => simp [callbackField] at h

/-- The fields make a binding exactly if its name and its type are texts and its callback can be called. -/
theorem validate_eq_ok_iff {handle : Nat} {b : Binding} :
    f.validate handle = .ok b ↔ f.name = some (.str b.name) ∧ f.eventType = some (.str b.eventType) ∧
      f.callback = some (.callable b.callback) ∧ b.handle = handle ∧ b.options = f.options.getD .null := by
  constructor
  · intro h
    simp only [validate] at h
    split at h
    · next hname htype hcallback =>
        obtain rfl := Except.ok.inj h
        exact ⟨Registry.textField_eq_ok hname, Registry.textField_eq_ok htype, callbackField_eq_ok hcallback, rfl,
          rfl⟩
    · simp at h
  · rintro ⟨hname, htype, hcallback, rfl, hoptions⟩
    rw [validate, hname, htype, hcallback, ← hoptions]
    rfl

end BindingFields

namespace Registry

variable {r r' : Registry} {f : BindingFields} {b stored stored' : Binding}

/-! ## Making and storing a binding -/

theorem create_eq_ok_iff : r.create f = .ok (b, r') ↔
    f.validate r.fresh = .ok b ∧ r' = { r with fresh := r.fresh + 1 } := by
  rw [create]
  cases f.validate r.fresh with
  | error reports => simp [Except.map]
  | ok made => simp [Except.map, eq_comm]

theorem storedForm_eq_ok_iff : r.storedForm b = .ok stored ↔
    b.name ≠ [] ∧ b.name ≠ "on".toList ∧ b.eventType ≠ [] ∧
      stored = if dropOn b.name = b.name then b else { b with handle := r.fresh, name := dropOn b.name } := by
  rw [storedForm]
  by_cases hname : b.name = []
  · simp [hname]
  by_cases htype : b.eventType = []
  · simp [hname, htype]
  by_cases hon : b.name = "on".toList
  · simp [hon, htype, dropOn]
  have hdropped : dropOn b.name ≠ [] := fun h => (dropOn_eq_nil_iff.mp h).elim hname hon
  rw [if_neg (by simpa using hname), if_neg (by simpa using htype), and_iff_right hname, and_iff_right hon,
    and_iff_right htype]
  by_cases hsame : dropOn b.name = b.name
  · rw [if_pos hsame, if_pos hsame, Except.ok.injEq, eq_comm]
  · rw [if_neg hsame, if_neg hsame, if_neg (by simpa using hdropped), Except.ok.injEq, eq_comm]

theorem agrees_of_storedForm (h : r.storedForm b = .ok stored) (h' : r'.storedForm b = .ok stored') :
    stored.Agrees stored' := by
  obtain ⟨-, -, -, rfl⟩ := storedForm_eq_ok_iff.mp h
  obtain ⟨-, -, -, rfl⟩ := storedForm_eq_ok_iff.mp h'
  split <;> exact ⟨rfl, rfl, rfl, rfl⟩

theorem exists_storedForm_iff : (∃ stored, r.storedForm b = .ok stored) ↔
    b.name ≠ [] ∧ b.name ≠ "on".toList ∧ b.eventType ≠ [] := by
  simp only [storedForm_eq_ok_iff, exists_and_left, exists_eq, and_true]

/-- What the fields make is registered if it can be stored. The first look at the fields refuses nothing else. -/
theorem accept_fields_eq_ok_iff : r.accept (.fields f) = .ok stored ↔
    ∃ made, f.resolveType.validate r.fresh = .ok made ∧ r.storedForm made = .ok stored := by
  rw [accept]
  constructor
  · intro h
    cases hmade : f.toBinding r.fresh with
    | error fault => simp [hmade, Except.bind] at h
    | ok made => exact ⟨made, toBinding_eq_ok hmade, by simpa [hmade, Except.bind] using h⟩
  · rintro ⟨made, hmade, hstored⟩
    obtain ⟨hname, htype, hcallback, -⟩ := BindingFields.validate_eq_ok_iff.mp hmade
    obtain ⟨hnamed, -, htyped, -⟩ := storedForm_eq_ok_iff.mp hstored
    have hmadeAgain : f.toBinding r.fresh = .ok made := by
      rw [BindingFields.toBinding]
      simp [hname, htype, hcallback, hmade, hnamed, htyped, fieldIsTrue, Json.isTrue, Except.mapError]
    rw [hmadeAgain]
    exact hstored

theorem exists_accept_fields_iff : (∃ stored, r.accept (.fields f) = .ok stored) ↔ f.IsAcceptable := by
  simp only [accept_fields_eq_ok_iff]
  constructor
  · rintro ⟨stored, made, hmade, hstored⟩
    obtain ⟨hname, htype, hcallback, -⟩ := BindingFields.validate_eq_ok_iff.mp hmade
    rw [BindingFields.name_resolveType] at hname
    rw [BindingFields.callback_resolveType] at hcallback
    exact ⟨_, _, _, hname, htype, hcallback, exists_storedForm_iff.mp ⟨stored, hstored⟩⟩
  · rintro ⟨name, eventType, callback, hname, htype, hcallback, hstored⟩
    have hmade : f.resolveType.validate r.fresh =
        .ok ⟨r.fresh, name, eventType, callback, f.resolveType.options.getD .null⟩ :=
      BindingFields.validate_eq_ok_iff.mpr
        ⟨f.name_resolveType ▸ hname, htype, f.callback_resolveType ▸ hcallback, rfl, rfl⟩
    obtain ⟨stored, hstored⟩ :=
      exists_storedForm_iff (r := r) (b := ⟨r.fresh, name, eventType, callback, _⟩).mpr hstored
    exact ⟨stored, _, hmade, hstored⟩

/-- Fields that make a binding are registered as the binding is. -/
theorem accept_fields_of_create {made : Binding} (htype : f.type = none) (hcreate : r.create f = .ok (made, r')) :
    r.accept (.fields f) = .ok stored ↔ r.storedForm made = .ok stored := by
  obtain ⟨hmade, -⟩ := create_eq_ok_iff.mp hcreate
  rw [accept_fields_eq_ok_iff, BindingFields.resolveType_of_type_eq_none htype, hmade]
  simp only [Except.ok.injEq, exists_eq_left']

theorem exists_create_of_accept_fields (htype : f.type = none) (h : r.accept (.fields f) = .ok stored) :
    ∃ made r', r.create f = .ok (made, r') := by
  obtain ⟨made, hmade, -⟩ := accept_fields_eq_ok_iff.mp h
  rw [BindingFields.resolveType_of_type_eq_none htype] at hmade
  exact ⟨made, _, create_eq_ok_iff.mpr ⟨hmade, rfl⟩⟩

/-! ## The main result -/

theorem exists_register_iff {entry : Registration} :
    (∃ done, r.register entry = .ok done) ↔ ∃ stored, r.accept entry = .ok stored := by
  constructor
  · rintro ⟨⟨stored, _⟩, h⟩
    exact ⟨stored, (register_eq_ok_iff.mp h).1⟩
  · rintro ⟨stored, h⟩
    exact ⟨(stored, r.add stored), register_eq_ok_iff.mpr ⟨h, rfl⟩⟩

/-- Fields are registered by what they resolve to, and then the second name of the type does not count. -/
theorem register_fields_congr {other : BindingFields} (h : f.resolveType = { other.resolveType with type := f.type }) :
    r.register (.fields f) = r.register (.fields other) := by
  have hmade : f.toBinding r.fresh = other.toBinding r.fresh := by
    rw [BindingFields.toBinding, BindingFields.toBinding, h]
    rfl
  rw [register, register, accept, accept, hmade]

/-- What registering fields comes to, beside making a binding of them first, and beside giving the type under its other
name. -/
structure AcceptsFields (r : Registry) (f : BindingFields) : Prop where
  one_or_none : (∃ b, r.register (.fields f) = .ok (b, ⟨r.bindings ++ [b], r.fresh + 1⟩)) ∨
    ∃ fault, r.register (.fields f) = .error fault ∧ r.step (.register (.fields f)) = r
  accepted_iff : (∃ done, r.register (.fields f) = .ok done) ↔ f.IsAcceptable
  routes_iff : f.type = none → ((∃ done, r.register (.fields f) = .ok done) ↔
    ∃ made r', r.create f = .ok (made, r') ∧ ∃ done, r'.register (.binding made) = .ok done)
  routes_agree : f.type = none → ∀ done made r' done', r.register (.fields f) = .ok done →
    r.create f = .ok (made, r') → r'.register (.binding made) = .ok done' → done.1.Agrees done'.1
  renamed : ∀ v, f.type = some v → f.eventType = none →
    r.register (.fields f) = r.register (.fields { f with eventType := some v, type := none })
  ignored : f.eventType ≠ none → ∀ other, r.register (.fields f) = r.register (.fields { f with type := other })

/-- Registering fields stores one binding or is refused, exactly as making a binding of them and registering that. -/
theorem acceptsFields (r : Registry) (f : BindingFields) : r.AcceptsFields f where
  one_or_none := by
    cases h : r.register (.fields f) with
    | ok done =>
        obtain ⟨b, r'⟩ := done
        obtain rfl : r' = r.add b := (register_eq_ok_iff.mp h).2
        exact .inl ⟨b, rfl⟩
    | error fault => exact .inr ⟨fault, rfl, by rw [step, h]⟩
  accepted_iff := exists_register_iff.trans exists_accept_fields_iff
  routes_iff htype := by
    simp only [exists_register_iff]
    constructor
    · rintro ⟨stored, hstored⟩
      obtain ⟨made, r', hcreate⟩ := exists_create_of_accept_fields htype hstored
      have hmade := (accept_fields_of_create htype hcreate).mp hstored
      exact ⟨made, r', hcreate, exists_storedForm_iff.mpr (exists_storedForm_iff.mp ⟨stored, hmade⟩)⟩
    · rintro ⟨made, r', hcreate, hstored⟩
      obtain ⟨stored, hmade⟩ := exists_storedForm_iff (r := r).mpr (exists_storedForm_iff.mp hstored)
      exact ⟨stored, (accept_fields_of_create htype hcreate).mpr hmade⟩
  routes_agree htype := by
    rintro ⟨stored, _⟩ made r' ⟨stored', _⟩ hdone hcreate hdone'
    have hstored := (accept_fields_of_create htype hcreate).mp (register_eq_ok_iff.mp hdone).1
    exact agrees_of_storedForm hstored (register_eq_ok_iff.mp hdone').1
  renamed v htype heventType := by
    refine register_fields_congr ?_
    rw [BindingFields.resolveType, heventType, htype]
    rfl
  ignored heventType other := by
    obtain ⟨v, hv⟩ := Option.ne_none_iff_exists'.mp heventType
    refine register_fields_congr ?_
    simp only [BindingFields.resolveType, hv]
    rw [← hv]

end Registry
end IndentMarkup
