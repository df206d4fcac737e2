import IndentMarkup.Builder
import IndentMarkup.Proofs.Acceptance
import IndentMarkup.Proofs.Compilation
import IndentMarkup.Proofs.Materialization
import IndentMarkup.Proofs.Rose
import Mathlib.Logic.Equiv.Basic

/-!
# The two forms of an event name

A binding may be registered under a name or under the name with `on` in front of it. A binding that is handed in under
the second form is stored as a copy, so the registries differ in a handle. Handles are compared with each other and
with nothing else: compiling with renamed handles makes the same trees with renamed handles (`compile_rename`). So
the two forms are the same for compiling if the name itself does not begin with `on`
(`Builder.register_eitherForm`); if it does, its own `on` is no part of it either (`Builder.register_once_ne`).
-/

namespace IndentMarkup

variable {φ : Nat → Nat}

/-! ## Other handles -/

def Binding.rename (φ : Nat → Nat) (b : Binding) : Binding := { b with handle := φ b.handle }

theorem Binding.rename_eq_self {b : Binding} (h : φ b.handle = b.handle) : b.rename φ = b := by rw [rename, h]

namespace Node

def rename (φ : Nat → Nat) (n : Node) : Node := { n with listeners := n.listeners.map (Binding.rename φ) }

/-- The node with listeners that are no longer told apart as objects. -/
def anonymous : Node → Node := rename fun _ => 0

theorem anonymous_comp_rename (φ : Nat → Nat) : anonymous ∘ rename φ = anonymous := by
  funext n
  simp [anonymous, rename, Binding.rename]

theorem rename_eq_self {n : Node} (h : ∀ b ∈ n.listeners, φ b.handle = b.handle) : n.rename φ = n := by
  have hlisteners : n.listeners.map (Binding.rename φ) = n.listeners :=
    (List.map_congr_left fun b hb => Binding.rename_eq_self (h b hb)).trans (List.map_id' _)
  rw [rename, hlisteners]

theorem rename_listen (hφ : φ.Injective) (n : Node) (b : Binding) :
    (n.rename φ).listen (b.rename φ) = (n.listen b).rename φ := by
  have hany : (n.rename φ).listeners.any (·.handle = (b.rename φ).handle) = n.listeners.any (·.handle = b.handle) := by
    simp [rename, Binding.rename, hφ.eq_iff, Function.comp_def]
  rw [listen, listen, hany]
  split
  · rfl
  · simp [rename]

end Node

/-- A registry that finds the bindings of another one under other handles, beside a factory whose listeners keep their
handles. -/
structure Registry.Renames (φ : Nat → Nat) (makeNode : Text → Node) (r r' : Registry) : Prop where
  injective : φ.Injective
  resolve_eq : ∀ name, r'.resolve name = (r.resolve name).map (Binding.rename φ)
  keeps : ∀ tag, ∀ b ∈ (makeNode tag).listeners, φ b.handle = b.handle

section

variable {makeNode : Text → Node} {r r' : Registry}

theorem Node.rename_listenTo (h : r.Renames φ makeNode r') (n : Node) (name : Text) :
    (n.rename φ).listenTo r' name = (n.listenTo r name).rename φ := by
  rw [listenTo, listenTo, h.resolve_eq]
  cases r.resolve name with
  | none => rfl
  | some b => exact rename_listen h.injective n b

theorem Descriptor.materialize_rename {dialect : Dialect} (h : dialect.registry.Renames φ dialect.makeNode r')
    (d : Descriptor) : d.materialize { dialect with registry := r' } = (d.materialize dialect).rename φ := by
  have hlisteners : (d.quietNode dialect.makeNode).listeners = (dialect.makeNode d.tag).listeners :=
    apply_quietNode (fun _ _ _ _ _ => rfl) dialect.makeNode d
  have hquiet : (d.quietNode dialect.makeNode).rename φ = d.quietNode dialect.makeNode :=
    Node.rename_eq_self (hlisteners ▸ h.keeps d.tag)
  rw [materialize_eq, materialize_eq,
    ← List.foldl_hom (Node.rename φ) fun n name => Node.rename_listenTo h n name, hquiet]

theorem Line.node_rename {dialect : Dialect} (h : dialect.registry.Renames φ dialect.makeNode r') :
    Line.node { dialect with registry := r' } = Node.rename φ ∘ Line.node dialect := by
  funext l
  rw [Function.comp, node, node, descriptorNode, descriptorNode]
  cases readLine dialect.separator l.descriptor with
  | ok reading => exact reading.descriptor.materialize_rename h
  | error failure => rfl

/-- Compiling with renamed handles makes the same trees with renamed handles. -/
theorem compile_rename (dialect : Dialect) (h : dialect.registry.Renames φ dialect.makeNode r') (template : Text) :
    (compile { dialect with registry := r' } template).fault = (compile dialect template).fault ∧
      (compile { dialect with registry := r' } template).notes.diagnostics =
        (compile dialect template).notes.diagnostics ∧
      (compile { dialect with registry := r' } template).roots =
        (compile dialect template).roots.map (Rose.map (Node.rename φ)) := by
  obtain ⟨hfault, hroots, hnotes⟩ := compile_eq dialect template
  obtain ⟨hfault', hroots', hnotes'⟩ := compile_eq { dialect with registry := r' } template
  refine ⟨hfault'.trans hfault.symm, hnotes'.trans hnotes.symm, ?_⟩
  rw [hroots', hroots, List.map_map, Line.node_rename h]
  exact List.map_congr_left fun b _ => (Rose.map_map _ _ b.layout).symm

end

/-! ## Documents -/

namespace Document

variable {f : Node → Node}

def mapNodes (f : Node → Node) (d : Document) : Document := ⟨d.elements.map fun e => { e with node := f e.node }⟩

theorem mapNodes_insert (f : Node → Node) (d : Document) (n : Node) (refs : List Ref) :
    (d.mapNodes f).insert ⟨f n, refs⟩ = ((d.insert ⟨n, refs⟩).1.mapNodes f, (d.insert ⟨n, refs⟩).2) := by
  simp [insert, mapNodes, size]

theorem mapNodes_mountAll (f : Node → Node) (d : Document) (ts : List Tree) :
    (d.mapNodes f).mountAll (ts.map (Rose.map f)) = ((d.mountAll ts).1.mapNodes f, (d.mountAll ts).2) := by
  induction ts using Rose.induction_forest generalizing d with
  | nil => rfl
  | cons n cs rest ihcs ihrest =>
      simp only [List.map_cons, Rose.map_node, mountAll, mount, ihcs]
      rw [mapNodes_insert, ihrest]

theorem mapNodes_appendChildren (f : Node → Node) (d : Document) (parent : Ref) (more : List Ref) :
    (d.mapNodes f).appendChildren parent more = (d.appendChildren parent more).mapNodes f := by
  refine congrArg Document.mk (List.ext_getElem? fun i => ?_)
  simp only [mapNodes, appendChildren, modifyChildren, List.getElem?_modify, List.getElem?_map]
  cases d.elements[i]? <;> split <;> rfl

theorem element_mapNodes (hf : f default = default) (d : Document) (x : Ref) :
    (d.mapNodes f).element x = ⟨f (d.node x), d.children x⟩ := by
  rw [node, children, element, element, mapNodes, List.getD_eq_getElem?_getD, List.getD_eq_getElem?_getD,
    List.getElem?_map]
  cases d.elements[x]? with
  | none => exact congrArg (fun n => Element.mk n []) hf.symm
  | some e => rfl

theorem self_tree (d : Document) (x : Ref) : (d.tree x).self = d.node x := by
  rw [tree, Rose.self_map, outline]
  cases d.size <;> rfl

theorem tree_mapNodes (hf : f default = default) (d : Document) (x : Ref) :
    (d.mapNodes f).tree x = (d.tree x).map f := by
  have hchildren : (d.mapNodes f).children = d.children := by
    funext y
    rw [children, element_mapNodes hf]
  have hnode : (d.mapNodes f).node = f ∘ d.node := by
    funext y
    rw [node, element_mapNodes hf, Function.comp]
  have houtline : ∀ levels y, (d.mapNodes f).outlineTo levels y = d.outlineTo levels y := by
    intro levels
    induction levels with
    | zero => exact fun y => rfl
    | succ levels ih =>
        intro y
        rw [outlineTo, outlineTo, hchildren, funext ih]
  rw [tree, tree, outline, outline, houtline, hnode, Rose.map_map, size, size, mapNodes, List.length_map]

end Document

/-- Two compilations made the same: the same diagnostics and the same fault, and the same trees under the same
references, with the same listeners in the same order, but for what tells listeners apart as objects. -/
structure Compiled.Alike (c c' : Compiled) : Prop where
  roots_eq : c.roots = c'.roots
  fault_eq : c.fault = c'.fault
  diagnostics_eq : c.builder.diagnostics = c'.builder.diagnostics
  tree_eq : ∀ x, (c.document.tree x).map Node.anonymous = (c'.document.tree x).map Node.anonymous

/-- Elements that are made alike listen alike. -/
theorem Compiled.Alike.listeners_eq {c c' : Compiled} (h : c.Alike c') (x : Ref) :
    (c.document.node x).listeners.map (Binding.rename fun _ => 0) =
      (c'.document.node x).listeners.map (Binding.rename fun _ => 0) := by
  have hself := congrArg (fun t : Tree => t.self.listeners) (h.tree_eq x)
  rwa [Rose.self_map, Rose.self_map, Document.self_tree, Document.self_tree] at hself

namespace Builder

variable {b : Builder}

theorem alike_of_renames {r r' : Registry} (h : r.Renames φ b.makeNode r') (d : Document) (template : Text) :
    ({ b with registry := r }.compile d template).Alike ({ b with registry := r' }.compile d template) := by
  obtain ⟨hfault, hnotes, hroots⟩ := compile_rename { b with registry := r }.dialect h template
  have hanonymous : ((IndentMarkup.compile { b with registry := r' }.dialect template).roots).map
        (Rose.map Node.anonymous) =
      ((IndentMarkup.compile { b with registry := r }.dialect template).roots).map (Rose.map Node.anonymous) := by
    have hcomp : Rose.map Node.anonymous ∘ Rose.map (Node.rename φ) = Rose.map Node.anonymous := by
      funext t
      rw [Function.comp, Rose.map_map, Node.anonymous_comp_rename]
    refine (congrArg (List.map (Rose.map Node.anonymous)) hroots).trans ?_
    rw [List.map_map, hcomp]
  have hmount := (Document.mapNodes_mountAll Node.anonymous d _).symm.trans
    ((congrArg (Document.mountAll (d.mapNodes Node.anonymous)) hanonymous.symm).trans
      (Document.mapNodes_mountAll Node.anonymous d _))
  obtain ⟨hdocument, hrefs⟩ := Prod.mk.inj hmount
  refine ⟨hrefs, hfault.symm, hnotes.symm, fun x => ?_⟩
  rw [← Document.tree_mapNodes rfl, ← Document.tree_mapNodes rfl, compile, compile]
  dsimp only
  rw [← Document.mapNodes_appendChildren, ← Document.mapNodes_appendChildren, hdocument, hrefs]

end Builder

/-! ## Registering under either form -/

namespace BindingFields

def named (f : BindingFields) (name : Text) : BindingFields := { f with name := some (.str name) }

theorem validate_named (f : BindingFields) (m n : Text) (handle : Nat) :
    (f.named m).validate handle = ((f.named n).validate handle).map fun b => { b with name := m } := by
  simp only [validate, named, show ∀ s, textField "name" (some (.str s)) = .ok s from fun _ => rfl]
  cases textField "event_type" f.eventType <;> cases callbackField "callback" f.callback <;> rfl

theorem resolveType_named (f : BindingFields) (name : Text) :
    (f.named name).resolveType = f.resolveType.named name := by
  obtain ⟨_, eventType, _, _, _⟩ := f
  cases eventType <;> rfl

theorem toBinding_named {m n : Text} (hm : m ≠ []) (hn : n ≠ []) (f : BindingFields) (handle : Nat) :
    (f.named m).toBinding handle = ((f.named n).toBinding handle).map fun b => { b with name := m } := by
  have htrue : ∀ name : Text, name ≠ [] → fieldIsTrue (f.resolveType.named name).name := by
    simp [named, fieldIsTrue, Json.isTrue]
  rw [toBinding, toBinding, resolveType_named, resolveType_named, htrue m hm, htrue n hn,
    validate_named f.resolveType m n]
  simp only [named, Bool.not_true, Bool.false_eq_true, if_false]
  by_cases htype : fieldIsTrue f.resolveType.eventType
  · simp only [htype, Bool.not_true, Bool.false_eq_true, if_false]
    split
    · rfl
    · rfl
    · cases validate handle _ <;> rfl
  · simp only [htype]
    rfl

end BindingFields

namespace Registry

variable {made : List Binding} {r : Registry} {n : Text}

theorem dropOn_eq_self {n : Text} (h : ¬ "on".toList <+: n) : dropOn n = n := by
  rw [dropOn.eq_def]
  split
  · exact absurd (List.prefix_append _ _) h
  · rfl

theorem storedForm_named (hn : n ≠ []) (hon : dropOn n = n) {b : Binding} (hb : b.name = n) :
    r.storedForm b = if b.eventType.isEmpty then .error .noType else .ok b := by
  obtain rfl := hb
  rw [storedForm, if_neg (by simpa using hn), if_pos hon]

theorem storedForm_on (hn : n ≠ []) {b : Binding} (hb : b.name = "on".toList ++ n) :
    r.storedForm b = if b.eventType.isEmpty then .error .noType else .ok { b with handle := r.fresh, name := n } := by
  have hdrop : dropOn b.name = n := hb ▸ rfl
  have hne : n ≠ b.name := by
    intro h
    have hlength := congrArg List.length (h.trans hb)
    simp at hlength
    omega
  rw [storedForm, hdrop, if_neg (by simp [hb]), if_neg hne, if_neg (show ¬ n.isEmpty by simpa using hn)]

theorem accept_named_on (hn : n ≠ []) (hon : dropOn n = n) (f : BindingFields) :
    r.accept (.fields (f.named ("on".toList ++ n))) = r.accept (.fields (f.named n)) := by
  rw [accept, accept, BindingFields.toBinding_named (by simp) hn]
  cases hmade : (f.named n).toBinding r.fresh with
  | error fault => rfl
  | ok x =>
      have hvalid := toBinding_eq_ok hmade
      have hname : x.name = n := by
        rw [BindingFields.resolveType_named] at hvalid
        exact (Json.str.inj (Option.some.inj (name_validate hvalid))).symm
      have hhandle := handle_validate hvalid
      refine (storedForm_on hn rfl).trans (.trans ?_ (storedForm_named hn hon hname).symm)
      rw [← hname, ← hhandle]

theorem resolve_add (r : Registry) (b : Binding) (name : Text) :
    (r.add b).resolve name = (r.resolve name).or (if b.name = name then some b else none) := by
  rw [resolve, add, List.find?_append, resolve, List.find?_singleton]
  simp only [decide_eq_true_eq]

/-- A binding and its copy are told apart by their handles alone, and if there is a binding of the name already, not
at all. -/
theorem Coherent.exists_renames (h : Coherent made r) {makeNode : Text → Node}
    (hmake : ∀ tag, ∀ b ∈ (makeNode tag).listeners, b ∈ made) {x : Binding} (hx : x ∈ made)
    (hnew : ∀ tag, x ∉ (makeNode tag).listeners) :
    ∃ φ, (r.add x).Renames φ makeNode (r.add { x with handle := r.fresh }) := by
  cases hresolve : r.resolve x.name with
  | some first =>
      refine ⟨id, Function.injective_id, fun name => ?_, fun _ _ _ => rfl⟩
      rw [resolve_add, resolve_add, show Binding.rename id = id from rfl, Option.map_id]
      by_cases hname : x.name = name
      · rw [← hname, hresolve]
        rfl
      · rw [if_neg hname, if_neg hname]
        rfl
  | none =>
      have hkeeps : ∀ b ∈ made, b ≠ x → Equiv.swap x.handle r.fresh b.handle = b.handle := fun b hb hbx =>
        Equiv.swap_apply_of_ne_of_ne (fun heq => hbx (h.eq_of_handle b hb x hx heq)) (h.handle_lt b hb).ne
      refine ⟨Equiv.swap x.handle r.fresh, (Equiv.swap _ _).injective, fun name => ?_, fun tag b hb =>
        hkeeps b (hmake tag b hb) fun heq => hnew tag (heq ▸ hb)⟩
      rw [resolve_add, resolve_add]
      cases hfirst : r.resolve name with
      | some first =>
          obtain ⟨hmem, hname⟩ := resolve_eq_some hfirst
          have hne : first ≠ x := by
            rintro rfl
            simp [hname, hfirst] at hresolve
          exact congrArg some (Binding.rename_eq_self (hkeeps first (h.stored first hmem) hne)).symm
      | none =>
          by_cases hname : x.name = name
          · simp [hname, Binding.rename]
          · simp [hname]

end Registry

/-- What may be registered under a name and under the name with `on` in front of it: fields, or two bindings that agree
in everything else. The factory does not attach the first one of these itself. -/
inductive Registry.EitherForm (made : List Binding) (makeNode : Text → Node) (n : Text) :
    Registration → Registration → Prop
  | fields (f : BindingFields) :
    EitherForm made makeNode n (.fields (f.named n)) (.fields (f.named ("on".toList ++ n)))
  | binding {x : Binding} (handle : Nat) (hx : x ∈ made) (hname : x.name = n)
      (hnew : ∀ tag, x ∉ (makeNode tag).listeners) :
    EitherForm made makeNode n (.binding x) (.binding { x with handle, name := "on".toList ++ n })

namespace Builder

theorem register_of_accept {b : Builder} {entry : Registration} {x : Binding} (h : b.registry.accept entry = .ok x) :
    b.register entry = .ok (x, { b with registry := b.registry.add x }) := by
  rw [register, Registry.register, h]
  rfl

theorem register_of_refused {b : Builder} {entry : Registration} {fault : RegistrationFault}
    (h : b.registry.accept entry = .error fault) : b.register entry = .error fault := by
  rw [register, Registry.register, h]
  rfl

/-- Two registrations come to the same: both are refused for the same reason, or both are accepted, and then every
template is compiled alike. -/
def RegistersAlike (b : Builder) (entry entry' : Registration) : Prop :=
  (∃ fault, b.register entry = .error fault ∧ b.register entry' = .error fault) ∨
    ∃ x b₁ y b₂, b.register entry = .ok (x, b₁) ∧ b.register entry' = .ok (y, b₂) ∧ x.Agrees y ∧
      ∀ d template, (b₁.compile d template).Alike (b₂.compile d template)

/-- A name that does not begin with `on` may as well be registered with `on` in front of it. -/
theorem register_eitherForm {made : List Binding} {b : Builder} (hregistry : Registry.History made b.registry)
    (hmake : ∀ tag, ∀ l ∈ (b.makeNode tag).listeners, l ∈ made) {n : Text} (hn : n ≠ []) (hon : ¬ "on".toList <+: n)
    {entry entry' : Registration} (h : Registry.EitherForm made b.makeNode n entry entry') :
    b.RegistersAlike entry entry' := by
  have hdrop := Registry.dropOn_eq_self hon
  cases h with
  | fields f =>
      have haccept := Registry.accept_named_on (r := b.registry) hn hdrop f
      cases hfirst : b.registry.accept (.fields (f.named n)) with
      | error fault => exact .inl ⟨fault, register_of_refused hfirst, register_of_refused (haccept.trans hfirst)⟩
      | ok x =>
          exact .inr ⟨x, _, x, _, register_of_accept hfirst, register_of_accept (haccept.trans hfirst),
            ⟨rfl, rfl, rfl, rfl⟩, fun d template => ⟨rfl, rfl, rfl, fun _ => rfl⟩⟩
  | @binding x handle hx hname hnew =>
      obtain rfl := hname
      have hfirst := Registry.storedForm_named (r := b.registry) hn hdrop rfl
      have hsecond := Registry.storedForm_on (r := b.registry) hn
        (b := { x with handle, name := "on".toList ++ x.name }) rfl
      by_cases htype : x.eventType.isEmpty
      · rw [if_pos htype] at hfirst hsecond
        exact .inl ⟨.noType, register_of_refused hfirst, register_of_refused hsecond⟩
      · rw [if_neg htype] at hfirst hsecond
        obtain ⟨φ, hrenames⟩ := hregistry.coherent.exists_renames hmake hx hnew
        exact .inr ⟨x, _, _, _, register_of_accept hfirst, register_of_accept hsecond, ⟨rfl, rfl, rfl, rfl⟩,
          alike_of_renames hrenames⟩

def clickFields : BindingFields :=
  ⟨none, some (.str "click".toList), none, some (.callable (.script ⟨"clicked".toList, none, none⟩)), none⟩

def clickNamed (handle : Nat) (name : Text) : Binding :=
  ⟨handle, name, "click".toList, .script ⟨"clicked".toList, none, none⟩, .null⟩

/-- A builder whose registry has made one binding and holds none. -/
def afterOne (makeNode : Text → Node) : Builder := { new 0 makeNode with registry := ⟨[], 1⟩ }

theorem register_eitherForm_go : ∃ x b₁ y b₂,
    (afterOne Node.ofTag).register (.binding (clickNamed 0 "go".toList)) = .ok (x, b₁) ∧
      (afterOne Node.ofTag).register (.binding (clickNamed 7 "ongo".toList)) = .ok (y, b₂) ∧ x.Agrees y ∧
      ∀ d template, (b₁.compile d template).Alike (b₂.compile d template) := by
  have hregistry : Registry.History [clickNamed 0 "go".toList] (afterOne Node.ofTag).registry :=
    .create (f := clickFields.named "go".toList) .start rfl
  have hquiet : ∀ tag, ∀ l ∈ (Node.ofTag tag).listeners, l ∈ [clickNamed 0 "go".toList] := by simp [Node.ofTag]
  have halike := register_eitherForm hregistry hquiet (n := "go".toList) (by decide) (by decide)
    (.binding 7 (.head _) rfl (by simp [afterOne, new, Node.ofTag]))
  exact halike.resolve_left fun ⟨_, hrefused, _⟩ => by cases hrefused

/-- Registrations do not come to the same if an element of some template listens more often after one of them. -/
theorem not_registersAlike {b b₁ b₂ : Builder} {entry entry' : Registration} {x y : Binding}
    (hfirst : b.register entry = .ok (x, b₁)) (hsecond : b.register entry' = .ok (y, b₂)) (d : Document)
    (template : Text) (r : Ref) (hne : ((b₁.compile d template).document.node r).listeners.length ≠
      ((b₂.compile d template).document.node r).listeners.length) : ¬ b.RegistersAlike entry entry' := by
  rintro (⟨fault, hrefused, -⟩ | ⟨x', b₁', y', b₂', hfirst', hsecond', -, halike⟩)
  · simp [hfirst] at hrefused
  · rw [hfirst] at hfirst'
    rw [hsecond] at hsecond'
    obtain ⟨rfl, rfl⟩ := Prod.mk.inj (Except.ok.inj hfirst')
    obtain ⟨rfl, rfl⟩ := Prod.mk.inj (Except.ok.inj hsecond')
    have hlength := congrArg List.length ((halike d template).listeners_eq r)
    simp only [List.length_map] at hlength
    exact hne hlength

/-- A name that begins with `on` loses it, and does not with another `on` in front of it. A binding that the factory
attaches is attached once, but beside its copy. -/
theorem register_once_ne :
    (Registry.EitherForm [] Node.ofTag "once".toList (.fields (clickFields.named "once".toList))
        (.fields (clickFields.named "ononce".toList)) ∧
      ¬ (new 0 Node.ofTag).RegistersAlike (.fields (clickFields.named "once".toList))
        (.fields (clickFields.named "ononce".toList))) ∧
    ¬ (afterOne fun tag => (Node.ofTag tag).listen (clickNamed 0 "go".toList)).RegistersAlike
      (.binding (clickNamed 0 "go".toList)) (.binding (clickNamed 7 "ongo".toList)) := by
  refine ⟨⟨.fields clickFields, ?_⟩, ?_⟩
  · exact not_registersAlike rfl rfl ⟨[default]⟩ "p@once".toList 1 (by decide +kernel)
  · exact not_registersAlike rfl rfl ⟨[default]⟩ "p@go".toList 1 (by decide +kernel)

end Builder

end IndentMarkup
