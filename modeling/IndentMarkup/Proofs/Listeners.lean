import IndentMarkup.Proofs.Materialization
import IndentMarkup.Proofs.Placement
import IndentMarkup.Proofs.Registry
import IndentMarkup.Proofs.Snapshots

/-!
# The listeners of compiled elements

A line may name an event several times, and a registry may hold many bindings for a name, some of them copies of
others. As the handles of bindings tell them apart, the element of the line listens with the first binding of each name
that the line mentions, in the order of the first mentions (`Line.listeners_node`). An event that is dispatched to the
element reaches the listeners of its type (`Document.Listens.of_listeners_eq`). Nothing that the builder does later
changes the element (`Builder.node_run`).
-/

namespace IndentMarkup

/-! ## Listening -/

namespace Registry

variable {made : List Binding} {r : Registry}

theorem Coherent.any_handle_iff (h : Coherent made r) {name : Text} {b : Binding} (hresolve : r.resolve name = some b)
    (names : List Text) : ((names.filterMap r.resolve).any (·.handle = b.handle)) ↔ name ∈ names := by
  obtain ⟨hb, hname⟩ := resolve_eq_some hresolve
  simp only [List.any_eq_true, List.mem_filterMap, decide_eq_true_eq]
  constructor
  · rintro ⟨x, ⟨other, hother, hx⟩, hhandle⟩
    obtain ⟨hxmem, hxname⟩ := resolve_eq_some hx
    obtain rfl := h.eq_of_handle x (h.stored x hxmem) b (h.stored b hb) hhandle
    rwa [← hname, hxname]
  · exact fun hmem => ⟨b, ⟨name, hmem, hresolve⟩, rfl⟩

/-- Listening to names one after another attaches the first binding of each, in the order of the first mentions. -/
theorem History.listeners_foldl (h : History made r) (names : List Text) {n : Node} (hn : n.listeners = []) :
    (names.foldl (Node.listenTo r) n).listeners = names.eraseDups.filterMap r.resolve := by
  induction names using List.reverseRecOn with
  | nil => exact hn
  | append_singleton names name ih =>
      rw [List.foldl_append, List.foldl_cons, List.foldl_nil, Node.listenTo, eraseDups_concat]
      cases hresolve : r.resolve name with
      | none =>
          dsimp only
          split
          · exact ih
          · simpa [hresolve] using ih
      | some b =>
          have hknown := h.coherent.any_handle_iff hresolve names.eraseDups
          rw [← ih, List.mem_eraseDups] at hknown
          simp only [Node.listen, hknown]
          split
          · exact ih
          · simp [hresolve, ih]

end Registry

def Line.events (l : Line) : List Text := (LineGroups.ofText l.descriptor).events

theorem Line.listeners_node {made : List Binding} {dialect : Dialect}
    (hregistry : Registry.History made dialect.registry) (hmake : ∀ tag, (dialect.makeNode tag).listeners = [])
    {l : Line} (hread : l.IsRead dialect) :
    (l.node dialect).listeners = l.events.eraseDups.filterMap dialect.registry.resolve := by
  obtain ⟨reading, hreading⟩ := hread
  obtain ⟨-, -, text, -, hdescriptor⟩ := LineGroups.read_eq_ok hreading
  have hquiet : (reading.descriptor.quietNode dialect.makeNode).listeners = [] :=
    (Descriptor.apply_quietNode (fun _ _ _ _ _ => rfl) dialect.makeNode reading.descriptor).trans (hmake _)
  have hevents : reading.descriptor.events = l.events := congrArg Descriptor.events hdescriptor
  rw [node, descriptorNode, hreading]
  exact hevents ▸ hregistry.listeners_foldl reading.descriptor.events hquiet

/-! ## Dispatching -/

/-- A binding whose callback records that it is called and does nothing else. -/
def Binding.RecordsOnly (b : Binding) : Prop := ∃ label, b.callback = .script ⟨label, none, none⟩

def Binding.recordOf (b : Binding) (event : Json) : Call :=
  match b.callback with
  | .script s => ⟨s.label, event⟩
  | .button _ _ => ⟨[], event⟩

namespace Workspace

theorem call_of_recordsOnly {b : Binding} (h : b.RecordsOnly) (w : Workspace) (event : Json) :
    w.call event b = ({ w with calls := w.calls ++ [b.recordOf event] }, none) := by
  obtain ⟨label, hcallback⟩ := h
  rw [call, Binding.recordOf, hcallback]
  rfl

/-- Listeners that only record are called one after another, each once. -/
theorem callEach_of_recordsOnly {listeners : List Binding} (h : ∀ b ∈ listeners, b.RecordsOnly) (w : Workspace)
    (event : Json) : callEach (call event) w listeners =
      ({ w with calls := w.calls ++ listeners.map (·.recordOf event) }, .ok listeners.length) := by
  induction listeners generalizing w with
  | nil => simp [callEach]
  | cons b rest ih =>
      rw [callEach_cons_of_eq_none (call_of_recordsOnly (h b (by simp)) w event), ih fun x hx => h x (by simp [hx]),
        List.append_assoc, List.singleton_append, List.map_cons, List.length_cons]
      rfl

end Workspace

/-! ## What a builder does later -/

namespace Builder

inductive Action where
  | create (f : BindingFields)
  | register (entry : Registration)
  | compile (template : Text)

/-- The builder and the document behind an action. An action that fails on bindings changes nothing. -/
def step (s : Builder × Document) : Action → Builder × Document
  | .create f =>
    match s.1.registry.create f with
    | .ok (_, registry) => ({ s.1 with registry }, s.2)
    | .error _ => s
  | .register entry =>
    match s.1.register entry with
    | .ok (_, b) => (b, s.2)
    | .error _ => s
  | .compile template => ((s.1.compile s.2 template).builder, (s.1.compile s.2 template).document)

def run (s : Builder × Document) (actions : List Action) : Builder × Document := actions.foldl step s

/-- An action changes no node of the document, and the builder keeps its container. -/
theorem step_spec {s : Builder × Document} (hcontainer : s.1.container < s.2.size) (a : Action) :
    (step s a).1.container = s.1.container ∧ s.2.size ≤ (step s a).2.size ∧
      ∀ x < s.2.size, (step s a).2.node x = s.2.node x := by
  cases a with
  | create f =>
      rw [step]
      split <;> exact ⟨rfl, Nat.le_refl _, fun _ _ => rfl⟩
  | register entry =>
      rw [step, Builder.register]
      cases s.1.registry.register entry with
      | error fault => exact ⟨rfl, Nat.le_refl _, fun _ _ => rfl⟩
      | ok made => exact ⟨rfl, Nat.le_refl _, fun _ _ => rfl⟩
  | compile template =>
      have hgrows := s.1.growsAt_compile template hcontainer
      exact ⟨rfl, hgrows.size_le, hgrows.node_eq⟩

theorem node_run {s : Builder × Document} (hcontainer : s.1.container < s.2.size) (actions : List Action) {x : Ref}
    (hx : x < s.2.size) : (run s actions).2.node x = s.2.node x := by
  induction actions generalizing s with
  | nil => rfl
  | cons a rest ih =>
      obtain ⟨hsame, hsize, hnode⟩ := step_spec hcontainer a
      have hlater := ih (hsame ▸ Nat.lt_of_lt_of_le hcontainer hsize) (Nat.lt_of_lt_of_le hx hsize)
      exact hlater.trans (hnode x hx)

end Builder

/-! ## The main result -/

/-- An element listens with the first binding of each name, in the order of the names, and an event reaches the
listeners of its type. -/
structure Document.Listens (d : Document) (registry : Registry) (names : List Text) (x : Ref) : Prop where
  listeners_eq : (d.node x).listeners =
    names.eraseDups.filterMap fun name => registry.bindings.find? (·.name = name)
  dispatch_eq : (∀ b ∈ registry.bindings, b.RecordsOnly) → ∀ (w : Workspace) (eventType : Text) (event : Json),
    w.document = d →
      let first? := fun name => registry.bindings.find? (·.name = name)
      let called := (names.eraseDups.filterMap first?).filter (·.eventType = eventType)
      w.dispatch x eventType event =
        ({ w with calls := w.calls ++ called.map (·.recordOf event) }, .ok called.length)

theorem Document.Listens.of_listeners_eq {d : Document} {registry : Registry} {names : List Text} {x : Ref}
    (h : (d.node x).listeners = names.eraseDups.filterMap fun name => registry.bindings.find? (·.name = name)) :
    d.Listens registry names x := by
  refine ⟨h, fun hrecords w eventType event hdocument => ?_⟩
  have hlisteners : (w.document.node x).listenersFor eventType =
      (names.eraseDups.filterMap fun name => registry.bindings.find? (·.name = name)).filter
        (·.eventType = eventType) := by
    rw [hdocument, Node.listenersFor, h]
  rw [Workspace.dispatch, hlisteners]
  refine Workspace.callEach_of_recordsOnly (fun b hb => hrecords b ?_) w event
  obtain ⟨name, -, hfirst⟩ := List.mem_filterMap.mp (List.mem_of_mem_filter hb)
  exact List.mem_of_find?_eq_some hfirst

namespace Builder

/-- The element of every line that is compiled listens with the first bindings of the events of the line. Neither
registering nor compiling changes that later. -/
theorem compile_listens {made : List Binding} (b : Builder) (hregistry : Registry.History made b.registry)
    (hmake : ∀ tag, (b.makeNode tag).listeners = []) {d : Document} (hcontainer : b.container < d.size)
    (template : Text) :
    let c := b.compile d template
    ∃ place, c.document.Shows (Line.node b.dialect) (b.compiledBlocks template) place ∧
      c.roots = (b.compiledBlocks template).map (fun block => place block.root) ∧
      ∀ l ∈ (b.compiledBlocks template).flatMap Block.lines, ∀ later : List Action,
        (run (c.builder, c.document) later).2.Listens b.registry l.events (place l) := by
  intro c
  obtain ⟨place, hshows, hroots, -⟩ := b.exists_shows_compiledBlocks template hcontainer
  refine ⟨place, hshows, hroots, fun l hl later => .of_listeners_eq ?_⟩
  have hgrows := b.growsAt_compile template hcontainer
  have hsize : b.container < c.document.size := Nat.lt_of_lt_of_le hcontainer hgrows.size_le
  obtain ⟨block, hblock, hlblock⟩ := List.mem_flatMap.mp hl
  have hread : l.IsRead b.dialect := isRead_of_mem_compiledBlocks hblock l hlblock
  rw [node_run (s := (c.builder, c.document)) hsize later (hshows.lt_size hl), hshows.node_eq l hl]
  exact @Line.listeners_node made b.dialect hregistry hmake l hread

def knock (handle : Nat) (name : String) : Binding :=
  ⟨handle, name.toList, "click".toList, .script ⟨"knock".toList, none, none⟩, .null⟩

def slam : Binding := ⟨3, "shut".toList, "click".toList, .script ⟨"slam".toList, none, none⟩, .null⟩

def door : Builder := { new 0 Node.ofTag with registry := ⟨[knock 1 "open", knock 2 "open", slam], 4⟩ }

theorem history_door :
    Registry.History [slam, knock 2 "open", knock 1 "open", knock 0 "onopen"] door.registry := by
  have hmade : Registry.create .empty ⟨some (.str "onopen".toList), some (.str "click".toList), none,
      some (.callable (.script ⟨"knock".toList, none, none⟩)), none⟩ = .ok (knock 0 "onopen", ⟨[], 1⟩) := rfl
  have hcopied : Registry.register ⟨[], 1⟩ (.binding (knock 0 "onopen")) =
      .ok (knock 1 "open", ⟨[knock 1 "open"], 2⟩) := rfl
  have hagain : Registry.register ⟨[knock 1 "open"], 2⟩ (.binding (knock 0 "onopen")) =
      .ok (knock 2 "open", ⟨[knock 1 "open", knock 2 "open"], 3⟩) := rfl
  have hslam : Registry.register ⟨[knock 1 "open", knock 2 "open"], 3⟩ (.fields ⟨some (.str "shut".toList),
      some (.str "click".toList), none, some (.callable (.script ⟨"slam".toList, none, none⟩)), none⟩) =
      .ok (slam, door.registry) := rfl
  have hgiven : ∀ b, Registration.binding (knock 0 "onopen") = .binding b → b = knock 0 "onopen" :=
    fun b h => (Registration.binding.inj h).symm
  exact .register (.register (.register (.create .start hmade) (fun b h => by simp [hgiven b h]) hcopied)
    (fun b h => by simp [hgiven b h]) hagain) (fun b h => by simp at h) hslam

def doorLine : Line := ⟨1, 0, "p@shut;open;lost;shut".toList, "p@shut;open;lost;shut".toList⟩

theorem compile_listens_door :
    ∃ x, (door.compile ⟨[⟨Node.ofTag "main".toList, []⟩]⟩ doorLine.raw).document.Listens door.registry
      ["shut".toList, "open".toList, "lost".toList, "shut".toList] x := by
  have hblocks : door.compiledBlocks doorLine.raw = [⟨doorLine, []⟩] := by decide +kernel
  have hevents : doorLine.events = ["shut".toList, "open".toList, "lost".toList, "shut".toList] := by decide +kernel
  have hline : doorLine ∈ (door.compiledBlocks doorLine.raw).flatMap Block.lines := by
    rw [hblocks]
    simp [Block.lines]
  obtain ⟨place, -, -, hlistens⟩ := door.compile_listens history_door (fun _ => rfl)
    (d := ⟨[⟨Node.ofTag "main".toList, []⟩]⟩) (by decide) doorLine.raw
  have hnow := hlistens doorLine hline []
  simp only [run, List.foldl_nil, hevents] at hnow
  exact ⟨place doorLine, hnow⟩

end Builder

end IndentMarkup
