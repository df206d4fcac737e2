import IndentMarkup.Template.Compile
import Mathlib.Data.List.Basic
import Mathlib.Data.List.Nodup

/-!
# Histories of a registry

A binding is known by its handle. Along every history of a registry, starting empty, the handles of the bindings
that were made are pairwise different (`History.coherent`): a new one gets the next free handle, and so does the
copy that is stored under a name without its `on`. So the bindings of pairwise different names are different
objects, and a node that listens to these names listens to all of them (`foldl_listenTo`).
-/

namespace IndentMarkup

def Registration.name : Registration → Text
  | .binding b => b.name
  | .fields ⟨some (.str name), _, _, _, _⟩ => name
  | _ => []

namespace Registry

/-- The registries that registering leads to, each with all bindings that were made on the way. What is registered
is a binding that was made before, or fields that a new binding is made of. -/
inductive History : List Binding → Registry → Prop
  | start : History [] .empty
  | create {made : List Binding} {r r' : Registry} {f : BindingFields} {b : Binding} (h : History made r)
      (hcreate : r.create f = .ok (b, r')) : History (b :: made) r'
  | register {made : List Binding} {r r' : Registry} {entry : Registration} {b : Binding} (h : History made r)
      (hentry : ∀ b, entry = .binding b → b ∈ made) (hregister : r.register entry = .ok (b, r')) :
      History (b :: made) r'

/-- The handles of bindings that were made identify them, and the next one is free. -/
structure Coherent (made : List Binding) (r : Registry) : Prop where
  eq_of_handle : ∀ b ∈ made, ∀ b' ∈ made, b.handle = b'.handle → b = b'
  handle_lt : ∀ b ∈ made, b.handle < r.fresh
  stored : ∀ b ∈ r.bindings, b ∈ made
  name_ne_nil : ∀ b ∈ r.bindings, b.name ≠ []

theorem handle_validate {handle : Nat} {f : BindingFields} {b : Binding} (h : f.validate handle = .ok b) :
    b.handle = handle := by
  simp only [BindingFields.validate] at h
  split at h
  · exact (Except.ok.inj h) ▸ rfl
  · simp at h

theorem textField_eq_ok {field : String} {value : Option Json} {s : Text} (h : textField field value = .ok s) :
    value = some (.str s) := by
  cases value with
  | none => simp [textField] at h
  | some value =>
      cases value with
      | str text => exact congrArg (fun t => some (Json.str t)) (Except.ok.inj h)
      | _ => simp [textField] at h

theorem name_validate {handle : Nat} {f : BindingFields} {b : Binding} (h : f.validate handle = .ok b) :
    f.name = some (.str b.name) := by
  simp only [BindingFields.validate] at h
  split at h
  · next hname _ _ => exact (Except.ok.inj h) ▸ textField_eq_ok hname
  · simp at h

theorem toBinding_eq_ok {handle : Nat} {f : BindingFields} {b : Binding} (h : f.toBinding handle = .ok b) :
    f.resolveType.validate handle = .ok b := by
  simp only [BindingFields.toBinding] at h
  split at h
  · simp at h
  · split at h
    · simp at h
    · split at h
      · simp at h
      · simp at h
      · cases hvalid : f.resolveType.validate handle with
        | error reports => simp [hvalid, Except.mapError] at h
        | ok made =>
            rw [hvalid, Except.mapError, Except.ok.injEq] at h
            exact congrArg Except.ok h

/-- What is stored is the given binding or a new one. It has the given name without a leading `on`, which is not
empty. -/
theorem storedForm_eq_ok {r : Registry} {b b' : Binding} (h : r.storedForm b = .ok b') :
    (b' = b ∨ b'.handle = r.fresh) ∧ b'.name = dropOn b.name ∧ b'.name ≠ [] := by
  rw [storedForm] at h
  split at h
  · simp at h
  · next hname =>
      split at h
      · simp at h
      · split at h
        · next hsame =>
            obtain rfl := Except.ok.inj h
            exact ⟨.inl rfl, hsame.symm, by simpa using hname⟩
        · split at h
          · simp at h
          · next hdropped =>
              obtain rfl := Except.ok.inj h
              exact ⟨.inr rfl, rfl, by simpa using hdropped⟩

theorem accept_eq_ok {r : Registry} {entry : Registration} {b : Binding} (h : r.accept entry = .ok b) :
    (entry = .binding b ∨ b.handle = r.fresh) ∧ b.name = dropOn entry.name ∧ b.name ≠ [] := by
  cases entry with
  | binding given =>
      obtain ⟨hsame, hname⟩ := storedForm_eq_ok h
      exact ⟨hsame.imp_left fun (heq : b = given) => heq ▸ rfl, hname⟩
  | fields f =>
      rw [accept] at h
      cases hmade : f.toBinding r.fresh with
      | error fault => simp [hmade, Except.bind] at h
      | ok made =>
          rw [hmade, Except.bind] at h
          obtain ⟨hsame, hname, hne⟩ := storedForm_eq_ok h
          have hvalid := toBinding_eq_ok hmade
          refine ⟨.inr (hsame.elim (fun (heq : b = made) => heq ▸ handle_validate hvalid) id), ?_, hne⟩
          have hgiven : f.name = some (.str made.name) := by
            rw [← name_validate hvalid, BindingFields.resolveType]
            split <;> rfl
          obtain ⟨_, _, _, _, _⟩ := f
          obtain rfl := hgiven
          exact hname
  | other v => simp [accept] at h

theorem register_eq_ok_iff {r r' : Registry} {entry : Registration} {b : Binding} :
    r.register entry = .ok (b, r') ↔ r.accept entry = .ok b ∧ r' = r.add b := by
  rw [Registry.register]
  cases r.accept entry with
  | error fault => simp [Except.map]
  | ok stored =>
      simp only [Except.map, Except.ok.injEq, Prod.mk.injEq]
      exact ⟨fun h => ⟨h.1, h.1 ▸ h.2.symm⟩, fun h => ⟨h.1, h.1 ▸ h.2.symm⟩⟩

theorem Coherent.cons {made : List Binding} {r r' : Registry} {b : Binding} (h : Coherent made r)
    (hb : b ∈ made ∨ b.handle = r.fresh) (hfresh : r'.fresh = r.fresh + 1)
    (hbindings : ∀ x ∈ r'.bindings, x ∈ r.bindings ∨ x = b ∧ b.name ≠ []) : Coherent (b :: made) r' := by
  have hnew : ∀ x ∈ made, x.handle = b.handle → x = b := by
    intro x hx heq
    rcases hb with hb | hb
    · exact h.eq_of_handle x hx b hb heq
    · exact absurd (heq.trans hb) (Nat.ne_of_lt (h.handle_lt x hx))
  refine ⟨fun x hx y hy heq => ?_, fun x hx => ?_, fun x hx => ?_, fun x hx => ?_⟩
  · rcases List.mem_cons.mp hx with hxb | hxmade
    · rcases List.mem_cons.mp hy with hyb | hymade
      · rw [hxb, hyb]
      · rw [hxb, hnew y hymade (hxb ▸ heq.symm)]
    · rcases List.mem_cons.mp hy with hyb | hymade
      · rw [hyb, hnew x hxmade (hyb ▸ heq)]
      · exact h.eq_of_handle x hxmade y hymade heq
  · rw [hfresh]
    rcases List.mem_cons.mp hx with rfl | hx
    · rcases hb with hb | hb
      · exact Nat.lt_succ_of_lt (h.handle_lt x hb)
      · exact hb ▸ Nat.lt_succ_self _
    · exact Nat.lt_succ_of_lt (h.handle_lt x hx)
  · rcases hbindings x hx with hx | ⟨rfl, -⟩
    · exact .tail _ (h.stored x hx)
    · exact .head _
  · rcases hbindings x hx with hx | ⟨rfl, hname⟩
    · exact h.name_ne_nil x hx
    · exact hname

/-- Along a history the handles of the bindings identify them. -/
theorem History.coherent {made : List Binding} {r : Registry} (h : History made r) : Coherent made r := by
  induction h with
  | start => exact ⟨by simp, by simp, by simp [empty], by simp [empty]⟩
  | @create made r r' f b _ hcreate ih =>
      rw [Registry.create] at hcreate
      cases hvalid : f.validate r.fresh with
      | error reports => simp [hvalid, Except.map] at hcreate
      | ok new =>
          rw [hvalid] at hcreate
          obtain ⟨rfl, rfl⟩ := Prod.mk.inj (Except.ok.inj hcreate)
          exact ih.cons (.inr (handle_validate hvalid)) rfl fun x hx => .inl hx
  | @register made r r' entry b _ hentry hregister ih =>
      obtain ⟨haccept, rfl⟩ := register_eq_ok_iff.mp hregister
      obtain ⟨hsame, -, hname⟩ := accept_eq_ok haccept
      refine ih.cons (hsame.imp_left (hentry b)) rfl fun x hx => ?_
      rcases List.mem_append.mp hx with hx | hx
      · exact .inl hx
      · exact .inr ⟨List.mem_singleton.mp hx, hname⟩

theorem resolve_eq_some {r : Registry} {name : Text} {b : Binding} (h : r.resolve name = some b) :
    b ∈ r.bindings ∧ b.name = name :=
  ⟨List.mem_of_find?_eq_some h, by simpa using List.find?_some h⟩

end Registry

/-- Bindings with pairwise different handles are all attached. -/
theorem foldl_listenTo {r : Registry} {bs : List Binding} (hresolve : ∀ b ∈ bs, r.resolve b.name = some b)
    (n : Node) (hdistinct : ((n.listeners ++ bs).map (·.handle)).Nodup) :
    (bs.map (·.name)).foldl (Node.listenTo r) n = { n with listeners := n.listeners ++ bs } := by
  induction bs generalizing n with
  | nil => simp
  | cons b rest ih =>
      have hnew : n.listeners.any (·.handle = b.handle) = false := by
        rw [List.map_append, List.nodup_append] at hdistinct
        rw [List.any_eq_false]
        intro x hx
        simpa using hdistinct.2.2 x.handle (List.mem_map_of_mem hx) b.handle (by simp)
      have hlisten : n.listenTo r b.name = { n with listeners := n.listeners ++ [b] } := by
        rw [Node.listenTo, hresolve b (by simp)]
        simp [Node.listen, hnew]
      rw [List.map_cons, List.foldl_cons, hlisten, ih (fun x hx => hresolve x (by simp [hx]))]
      · simp
      · simpa using hdistinct

end IndentMarkup
