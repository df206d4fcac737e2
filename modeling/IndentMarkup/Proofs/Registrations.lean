import IndentMarkup.Proofs.Registry
import Mathlib.Data.List.Find

/-!
# What a registry recalls

A registry that only bindings were made for and registered in, whether that succeeded or not, recalls the
registrations that succeeded, in their order, and nothing else (`Registry.recounts_run`). All look-ups agree on what
is registered, and what a name once stands for it stands for ever after.
-/

namespace IndentMarkup

namespace Registry

inductive Action where
  | create (f : BindingFields)
  | register (entry : Registration)

/-- The registry behind an action. An action that fails leaves it as it is. -/
def step (r : Registry) : Action → Registry
  | .create f =>
    match r.create f with
    | .ok (_, r') => r'
    | .error _ => r
  | .register entry =>
    match r.register entry with
    | .ok (_, r') => r'
    | .error _ => r

def run (r : Registry) (actions : List Action) : Registry := actions.foldl step r

def stored? (r : Registry) : Action → Option (Registration × Binding)
  | .create _ => none
  | .register entry =>
    match r.register entry with
    | .ok (b, _) => some (entry, b)
    | .error _ => none

def stored (r : Registry) : List Action → List (Registration × Binding)
  | [] => []
  | a :: rest => (r.stored? a).toList ++ (r.step a).stored rest

def reports (r : Registry) : Action → List Log.Record
  | .create _ => []
  | .register entry =>
    match r.register entry with
    | .ok (b, _) => r.records b
    | .error _ => []

variable {r : Registry}

/-! ## Look-ups -/

theorem mem_names_iff_contains {name : Text} : name ∈ r.names ↔ r.contains name := by
  simp [names, contains]

theorem mem_names_iff_isSome {name : Text} : name ∈ r.names ↔ (r.resolve name).isSome := by
  simp [names, resolve]

/-! ## One action -/

theorem bindings_step (r : Registry) (a : Action) :
    (r.step a).bindings = r.bindings ++ (r.stored? a).toList.map Prod.snd := by
  cases a with
  | create f =>
      rw [step, create]
      cases f.validate r.fresh <;> simp [stored?, Except.map]
  | register entry =>
      rw [step, stored?]
      cases h : r.register entry with
      | error fault => simp
      | ok made =>
          obtain ⟨b, r'⟩ := made
          obtain ⟨-, rfl⟩ := register_eq_ok_iff.mp h
          rfl

theorem name_of_stored? {a : Action} {e : Registration × Binding} (h : r.stored? a = some e) :
    e.2.name = dropOn e.1.name ∧ e.2.name ≠ [] := by
  cases a with
  | create f => simp [stored?] at h
  | register entry =>
      rw [stored?] at h
      cases hregister : r.register entry with
      | error fault => simp [hregister] at h
      | ok made =>
          rw [hregister] at h
          obtain rfl := Option.some.inj h
          exact (accept_eq_ok (register_eq_ok_iff.mp hregister).1).2

theorem warnings_records (r : Registry) (b : Binding) : (r.records b).filter (·.level = Log.warning) =
    if r.contains b.name then [duplicateRecord b.name] else [] := by
  rw [records]
  split <;> simp [duplicateRecord, registeredRecord, Log.warning, Log.debug]

theorem warnings_reports (a : Action) : (r.reports a).filter (·.level = Log.warning) =
    ((r.stored? a).toList.filter fun e => dropOn e.1.name ∈ r.names).map
      fun e => duplicateRecord (dropOn e.1.name) := by
  cases a with
  | create f => rfl
  | register entry =>
      cases h : r.register entry with
      | error fault => simp [reports, stored?, h]
      | ok made =>
          have hstored : r.stored? (.register entry) = some (entry, made.1) := by rw [stored?, h]
          have hname : dropOn entry.name = made.1.name := (name_of_stored? hstored).1.symm
          rw [reports, h, hstored, warnings_records]
          by_cases hknown : made.1.name ∈ r.names
          · simp [hname, hknown, mem_names_iff_contains.mp hknown]
          · simp [hname, hknown, Bool.eq_false_iff.mpr (mt mem_names_iff_contains.mpr hknown)]

/-! ## Any number of actions -/

theorem bindings_run (r : Registry) (actions : List Action) :
    (r.run actions).bindings = r.bindings ++ (r.stored actions).map Prod.snd := by
  induction actions generalizing r with
  | nil => simp [run, stored]
  | cons a rest ih =>
      rw [run, List.foldl_cons, ← run, ih, bindings_step, stored, List.map_append, List.append_assoc]

theorem name_of_mem_stored {actions : List Action} {e : Registration × Binding} (h : e ∈ r.stored actions) :
    e.2.name = dropOn e.1.name ∧ e.2.name ≠ [] := by
  induction actions generalizing r with
  | nil => simp [stored] at h
  | cons a rest ih =>
      rcases List.mem_append.mp h with h | h
      · exact name_of_stored? (Option.mem_toList.mp h)
      · exact ih h

/-- A name that is registered keeps its binding. -/
theorem resolve_run {name : Text} {b : Binding} (h : r.resolve name = some b) (actions : List Action) :
    (r.run actions).resolve name = some b := by
  rw [resolve, bindings_run, List.find?_append, ← resolve, h, Option.some_or]

/-! ## The main result -/

structure Recounts (actions : List Action) (r : Registry) : Prop where
  names_eq : r.names = (empty.stored actions).map fun e => dropOn e.1.name
  name_ne_nil : ∀ name ∈ r.names, name ≠ []
  length_eq : r.bindings.length = (empty.stored actions).length
  contains_iff : ∀ name, r.contains name ↔ name ∈ r.names
  isSome_iff : ∀ name, (r.resolve name).isSome ↔ name ∈ r.names
  resolve_eq : ∀ name, r.resolve name =
    ((empty.stored actions).find? fun e => dropOn e.1.name = name).map Prod.snd
  refused : ∀ entry fault, r.register entry = .error fault → r.step (.register entry) = r
  kept : ∀ more name b, r.resolve name = some b → (r.run more).resolve name = some b
  warnings_eq : ∀ a, (r.reports a).filter (·.level = Log.warning) =
    ((r.stored? a).toList.filter fun e => dropOn e.1.name ∈ r.names).map fun e => duplicateRecord (dropOn e.1.name)

/-- A registry recalls the registrations that succeeded and nothing else. -/
theorem recounts_run (actions : List Action) : Recounts actions (empty.run actions) := by
  have hbindings : (empty.run actions).bindings = (empty.stored actions).map Prod.snd := bindings_run empty actions
  have hnames : ∀ e ∈ empty.stored actions, e.2.name = dropOn e.1.name ∧ e.2.name ≠ [] := fun _ => name_of_mem_stored
  refine ⟨?_, ?_, ?_, fun _ => mem_names_iff_contains.symm, fun _ => mem_names_iff_isSome.symm, fun name => ?_,
    fun entry fault h => ?_, fun more name b h => resolve_run h more, warnings_reports⟩
  · rw [names, hbindings, List.map_map]
    exact List.map_congr_left fun e he => (hnames e he).1
  · intro name hname
    rw [names, hbindings, List.map_map] at hname
    obtain ⟨e, he, rfl⟩ := List.mem_map.mp hname
    exact (hnames e he).2
  · rw [hbindings, List.length_map]
  · rw [resolve, hbindings, List.find?_map]
    refine congrArg (Option.map Prod.snd) (List.find?_congr fun e he => ?_)
    rw [Function.comp_apply, (hnames e he).1]
  · rw [step, h]

end Registry

end IndentMarkup
