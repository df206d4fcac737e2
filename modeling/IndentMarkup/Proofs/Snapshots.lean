import IndentMarkup.Event.Dispatch
import IndentMarkup.Proofs.Outlines
import IndentMarkup.Proofs.Tables
import Mathlib.Data.Set.Function

/-!
# Dispatching from a snapshot

What is attached to a node listens from then on, once for each binding and in the order in which the bindings came
(`Document.Receives.heeds`). A dispatch calls the listeners that it finds at its start, one after another, until one
fails (`exists_callsInTurn`). Whatever the callbacks attach meanwhile is received by the document as anything else is,
so it listens to later events but not to the one that is dispatched (`Reactions.dispatch_snapshot`).
-/

namespace IndentMarkup

/-! ## Calling one after another -/

section Calling

variable {σ ε : Type} (call : σ → Binding → σ × Option ε)

/-- Bindings are called one after another, and at most the last of them fails. -/
inductive CallsInTurn : σ → List Binding → σ → Option ε → Prop
  | nothing (s : σ) : CallsInTurn s [] s none
  | failed {s s' : σ} {b : Binding} {failure : ε} (hcall : call s b = (s', some failure)) :
      CallsInTurn s [b] s' (some failure)
  | next {s s' s'' : σ} {b : Binding} {rest : List Binding} {outcome : Option ε} (hcall : call s b = (s', none))
      (hrest : CallsInTurn s' rest s'' outcome) : CallsInTurn s (b :: rest) s'' outcome

variable {call}

theorem callEach_cons_of_eq_some {s s' : σ} {b : Binding} {failure : ε} (hcall : call s b = (s', some failure))
    (rest : List Binding) : callEach call s (b :: rest) = (s', .error failure) := by
  rw [callEach, hcall]

theorem callEach_cons_of_eq_none {s s' : σ} {b : Binding} (hcall : call s b = (s', none)) (rest : List Binding) :
    callEach call s (b :: rest) = ((callEach call s' rest).1, (callEach call s' rest).2.map (· + 1)) := by
  simp only [callEach, hcall]
  rcases callEach call s' rest with ⟨s'', _ | _⟩ <;> rfl

variable (call) in
/-- The bindings are called in turn up to the first that fails, and are counted if none does. -/
theorem exists_callsInTurn (s : σ) (bs : List Binding) : ∃ called outcome, called <+: bs ∧
    (outcome = none → called = bs) ∧ CallsInTurn call s called (callEach call s bs).1 outcome ∧
      (callEach call s bs).2 = outcome.elim (.ok bs.length) .error := by
  induction bs generalizing s with
  | nil => exact ⟨[], none, List.prefix_rfl, fun _ => rfl, .nothing s, rfl⟩
  | cons b rest ih =>
      rcases hcall : call s b with ⟨s', _ | failure⟩
      · obtain ⟨called, outcome, hfirst, hall, hturn, hresult⟩ := ih s'
        rw [callEach_cons_of_eq_none hcall, hresult]
        refine ⟨b :: called, outcome, (List.prefix_cons_inj b).mpr hfirst, fun h => by rw [hall h],
          .next hcall hturn, ?_⟩
        cases outcome <;> rfl
      · rw [callEach_cons_of_eq_some hcall]
        exact ⟨[b], some failure, ⟨rest, rfl⟩, nofun, .failed hcall, rfl⟩

/-- Callbacks that do the same in all states that come up are called to the same effect. -/
theorem callEach_congr {call' : σ → Binding → σ × Option ε} {P : σ → Prop}
    (hsame : ∀ s b, P s → call s b = call' s b) (hkept : ∀ s b, P s → P (call s b).1) {s : σ} (hs : P s)
    (bs : List Binding) : callEach call s bs = callEach call' s bs := by
  induction bs generalizing s with
  | nil => rfl
  | cons b rest ih =>
      rcases hcall : call s b with ⟨s', _ | failure⟩
      · have hs' : P s' := by simpa [hcall] using hkept s b hs
        rw [callEach_cons_of_eq_none hcall, callEach_cons_of_eq_none ((hsame s b hs).symm.trans hcall), ih hs']
      · rw [callEach_cons_of_eq_some hcall, callEach_cons_of_eq_some ((hsame s b hs).symm.trans hcall)]

end Calling

/-! ## Attaching -/

namespace Document

variable {d d' : Document} {made more : List (Ref × Binding)} {b : Binding} {x : Ref}

/-- Each node listens to what was attached to it, once for each binding and in the order in which the bindings came. -/
structure Heeds (d : Document) (made : List (Ref × Binding)) : Prop where
  handles_eq : ∀ x, (d.node x).listeners.map (·.handle) =
    ((made.filter (·.1 = x)).map (·.2.handle)).eraseDups
  mem_iff : ∀ x b, b ∈ (d.node x).listeners ↔ (x, b) ∈ made

/-- A document receives attachments one after another. Meanwhile it may grow and change otherwise. -/
inductive Receives (pool : Set Binding) (d : Document) : List (Ref × Binding) → Document → Prop
  | start : Receives pool d [] d
  | attach {made : List (Ref × Binding)} {d' : Document} {x : Ref} {b : Binding} (h : Receives pool d made d')
      (hx : x < d'.size) (hb : b ∈ pool) : Receives pool d (made ++ [(x, b)]) (d'.modifyNode x (·.listen b))
  | change {made : List (Ref × Binding)} {d' d'' : Document} (h : Receives pool d made d')
      (hlisteners : ∀ x, (d''.node x).listeners = (d'.node x).listeners) (hsize : d'.size ≤ d''.size) :
      Receives pool d made d''

theorem listeners_modifyNode_listen (hx : x < d.size) (b : Binding) :
    ((d.modifyNode x (·.listen b)).node x).listeners =
      if b.handle ∈ (d.node x).listeners.map (·.handle) then (d.node x).listeners
      else (d.node x).listeners ++ [b] := by
  rw [node_modifyNode hx, Function.update_self, Node.listen]
  simp only [List.any_eq_true, decide_eq_true_eq, List.mem_map]
  split <;> rfl

theorem Heeds.attach (h : d.Heeds made) (hb : ∀ a ∈ made, a.2.handle = b.handle → a.2 = b) (hx : x < d.size) :
    (d.modifyNode x (·.listen b)).Heeds (made ++ [(x, b)]) where
  handles_eq y := by
    rw [List.filter_append, List.map_append]
    by_cases hxy : x = y
    · subst hxy
      have hknown : b.handle ∈ (made.filter (·.1 = x)).map (·.2.handle) ↔
          b.handle ∈ (d.node x).listeners.map (·.handle) := by
        rw [h.handles_eq x, List.mem_eraseDups]
      have hnew : ([(x, b)].filter (·.1 = x)).map (·.2.handle) = [b.handle] := by simp
      rw [hnew, eraseDups_concat, ← h.handles_eq x, listeners_modifyNode_listen hx b]
      simp only [hknown]
      split <;> simp
    · rw [node_modifyNode_of_ne d (Ne.symm hxy), h.handles_eq y]
      simp [hxy]
  mem_iff y b' := by
    rw [List.mem_append, ← h.mem_iff y b', List.mem_singleton, Prod.mk.injEq]
    by_cases hxy : x = y
    · subst hxy
      rw [listeners_modifyNode_listen hx b]
      split
      · next hmem =>
          -- The binding is known by its handle, so it is the listener that has this handle.
          obtain ⟨other, hother, hhandle⟩ := List.mem_map.mp hmem
          obtain rfl := hb _ ((h.mem_iff x other).mp hother) hhandle
          simp_all
      · simp
    · rw [node_modifyNode_of_ne d (Ne.symm hxy)]
      simp [Ne.symm hxy]

theorem Heeds.nodup (h : d.Heeds made) (x : Ref) : ((d.node x).listeners.map (·.handle)).Nodup := by
  rw [h.handles_eq x]
  exact nodup_eraseDups _

/-- What was attached to a node listens there once, however often it was attached. -/
theorem Heeds.filter_listenersFor (h : d.Heeds made) (hmem : (x, b) ∈ made) :
    ((d.node x).listenersFor b.eventType).filter (·.handle = b.handle) = [b] := by
  obtain ⟨before, after, hlisteners⟩ := List.append_of_mem ((h.mem_iff x b).mpr hmem)
  have hnodup := h.nodup x
  rw [hlisteners, List.map_append, List.map_cons, List.nodup_middle, List.nodup_cons, ← List.map_append] at hnodup
  have hothers : ∀ a ∈ before ++ after, ¬ (a.handle = b.handle && a.eventType = b.eventType) := by
    intro a ha hboth
    rw [Bool.and_eq_true, decide_eq_true_eq] at hboth
    exact hnodup.1 (hboth.1 ▸ List.mem_map_of_mem ha)
  rw [Node.listenersFor, List.filter_filter, hlisteners, List.filter_append, List.filter_cons_of_pos (by simp),
    List.filter_eq_nil_iff.mpr fun a ha => hothers a (List.mem_append_left _ ha),
    List.filter_eq_nil_iff.mpr fun a ha => hothers a (List.mem_append_right _ ha), List.nil_append]

namespace Receives

variable {pool : Set Binding}

theorem mem_pool (h : Receives pool d made d') : ∀ a ∈ made, a.2 ∈ pool := by
  induction h with
  | start => simp
  | attach _ _ hb ih =>
      intro a ha
      obtain ha | ha := List.mem_append.mp ha
      · exact ih a ha
      · exact List.mem_singleton.mp ha ▸ hb
  | change _ _ _ ih => exact ih

theorem trans (h : Receives pool d made d') {d'' : Document} (h' : Receives pool d' more d'') :
    Receives pool d (made ++ more) d'' := by
  induction h' with
  | start => simpa using h
  | attach _ hx hb ih => simpa using ih.attach hx hb
  | change _ hlisteners hsize ih => exact ih.change hlisteners hsize

/-- What a document receives is heeded along with what it heeded before. -/
theorem heeds (hobjects : Set.InjOn Binding.handle pool) (h : Receives pool d more d')
    (hmade : ∀ a ∈ made, a.2 ∈ pool) (hd : d.Heeds made) : d'.Heeds (made ++ more) := by
  induction h with
  | start => simpa using hd
  | @attach more d' x b h hx hb ih =>
      rw [← List.append_assoc]
      refine ih.attach (fun a ha hhandle => hobjects ?_ hb hhandle) hx
      exact (List.mem_append.mp ha).elim (hmade a) (h.mem_pool a)
  | change _ hlisteners _ ih =>
      exact ⟨fun x => hlisteners x ▸ ih.handles_eq x, fun x b => hlisteners x ▸ ih.mem_iff x b⟩

end Receives

def listenAll (d : Document) (more : List (Ref × Binding)) : Document :=
  more.foldl (fun d a => d.modifyNode a.1 (·.listen a.2)) d

theorem receives_listenAll {pool : Set Binding} (h : ∀ a ∈ more, a.1 < d.size ∧ a.2 ∈ pool) :
    Receives pool d more (d.listenAll more) := by
  induction more generalizing d with
  | nil => exact .start
  | cons a rest ih =>
      obtain ⟨hx, hb⟩ := h a (by simp)
      refine (Receives.start.attach hx hb).trans (ih fun a' ha' => ?_)
      rw [size_modifyNode]
      exact h a' (List.mem_cons_of_mem a ha')

end Document

/-! ## Callbacks that attach -/

def Binding.records (b : Binding) (event : Json) : List Call :=
  match b.callback with
  | .script s => [⟨s.label, event⟩]
  | .button _ _ => []

/-- What the callbacks of bindings do when they are called: they attach bindings out of a pool to nodes, and then they
may fail. What they do may depend on the workspace and so on the calls up to then. -/
structure Reactions (pool : Set Binding) where
  attached : Workspace → Json → Binding → List (Ref × Binding)
  failure : Workspace → Json → Binding → Option Text
  known : ∀ w event b, ∀ a ∈ attached w event b, a.1 < w.document.size ∧ a.2 ∈ pool

namespace Reactions

variable {pool : Set Binding} (c : Reactions pool)

def call (event : Json) (w : Workspace) (b : Binding) : Workspace × Option Text :=
  ({ w with document := w.document.listenAll (c.attached w event b), calls := w.calls ++ b.records event },
    c.failure w event b)

def dispatch (w : Workspace) (r : Ref) (eventType : Text) (event : Json) : Workspace × Except Text Nat :=
  callEach (c.call event) w ((w.document.node r).listenersFor eventType)

def attachments (event : Json) : Workspace → List Binding → List (Ref × Binding)
  | _, [] => []
  | w, b :: rest => c.attached w event b ++ attachments event (c.call event w b).1 rest

variable {c}

theorem receives_of_callsInTurn {event : Json} {w w' : Workspace} {called : List Binding} {outcome : Option Text}
    (h : CallsInTurn (c.call event) w called w' outcome) :
    w.document.Receives pool (c.attachments event w called) w'.document := by
  induction h with
  | nothing w => exact .start
  | @failed w w' b failure hcall =>
      obtain ⟨rfl, -⟩ := Prod.mk.inj hcall
      simpa [attachments] using Document.receives_listenAll (c.known w event b)
  | @next w w' w'' b rest outcome hcall hrest ih =>
      obtain ⟨rfl, -⟩ := Prod.mk.inj hcall
      exact (Document.receives_listenAll (c.known w event b)).trans ih

theorem calls_of_callsInTurn {event : Json} {w w' : Workspace} {called : List Binding} {outcome : Option Text}
    (h : CallsInTurn (c.call event) w called w' outcome) :
    w'.calls = w.calls ++ called.flatMap (·.records event) := by
  induction h with
  | nothing w => simp
  | failed hcall =>
      obtain ⟨rfl, -⟩ := Prod.mk.inj hcall
      simp
  | next hcall hrest ih =>
      obtain ⟨rfl, -⟩ := Prod.mk.inj hcall
      simp [ih]

end Reactions

namespace Workspace

variable {nodes : Pairs Ref} {bindings : Pairs Binding}

def named (nodes : Pairs Ref) (bindings : Pairs Binding) (d : Document) (binding node : Text) : List (Ref × Binding) :=
  match bindings.get? binding, nodes.get? node with
  | some b, some r => if r < d.size then [(r, b)] else []
  | _, _ => []

theorem mem_named {d : Document} {binding node : Text} {a : Ref × Binding}
    (h : a ∈ named nodes bindings d binding node) : a.1 < d.size ∧ ∃ name, (name, a.2) ∈ bindings := by
  rw [named] at h
  split at h
  · next hbinding hnode =>
      split at h
      · next hsize =>
          obtain rfl := List.mem_singleton.mp h
          exact ⟨hsize, binding, Pairs.mem_of_get?_eq_some hbinding⟩
      · simp at h
  · simp at h

theorem attach_eq (w : Workspace) (binding node : Text) : w.attach binding node =
    { w with document := w.document.listenAll (named w.nodes w.bindings w.document binding node) } := by
  rw [attach, named]
  rcases w.bindings.get? binding with _ | b
  · rfl
  rcases w.nodes.get? node with _ | r
  · rfl
  dsimp only
  split
  · rfl
  · next hsize => rw [Document.modifyNode_of_size_le (Nat.le_of_not_lt hsize), Document.listenAll, List.foldl_nil]

def reactions (nodes : Pairs Ref) (bindings : Pairs Binding) : Reactions {b | ∃ name, (name, b) ∈ bindings} where
  attached w _ b :=
    match b.callback with
    | .script ⟨_, some (binding, node), _⟩ => named nodes bindings w.document binding node
    | _ => []
  failure _ _ b :=
    match b.callback with
    | .script s => s.failure
    | .button _ _ => none
  known w event b a ha := by
    split at ha
    · exact mem_named ha
    · simp at ha

theorem call_eq (event : Json) (w : Workspace) (b : Binding) :
    w.call event b = (reactions w.nodes w.bindings).call event w b := by
  rw [call, Reactions.call, Binding.records]
  dsimp only [reactions]
  match b.callback with
  | .button window button => simp [Document.listenAll]
  | .script ⟨label, none, failure⟩ => rfl
  | .script ⟨label, some (binding, node), failure⟩ => simp only [run, attach_eq]

/-- A dispatch is one for the callbacks of the workspace, as these leave its tables alone. -/
theorem dispatch_eq (w : Workspace) (r : Ref) (eventType : Text) (event : Json) :
    w.dispatch r eventType event = (reactions w.nodes w.bindings).dispatch w r eventType event := by
  refine callEach_congr (P := fun w' => w'.nodes = w.nodes ∧ w'.bindings = w.bindings) ?_ ?_ ⟨rfl, rfl⟩ _
  · rintro w' b ⟨hnodes, hbindings⟩
    rw [call_eq, hnodes, hbindings]
  · rintro w' b ⟨hnodes, hbindings⟩
    rw [call_eq]
    exact ⟨hnodes, hbindings⟩

end Workspace

/-! ## The main result -/

namespace Reactions

variable {pool : Set Binding}

/-- A dispatch calls listeners of its snapshot, and what they attach is heeded afterwards. The document has received
attachments before. -/
structure CallsListeners (c : Reactions pool) (made : List (Ref × Binding)) (w : Workspace) (r : Ref)
    (eventType : Text) (event : Json) (called : List Binding) (outcome : Option Text) : Prop where
  heeds : w.document.Heeds made
  first : called <+: (w.document.node r).listenersFor eventType
  all : outcome = none → called = (w.document.node r).listenersFor eventType
  once : (called.map (·.handle)).Nodup
  in_turn : CallsInTurn (c.call event) w called (c.dispatch w r eventType event).1 outcome
  result_eq : (c.dispatch w r eventType event).2 =
    outcome.elim (.ok ((w.document.node r).listenersFor eventType).length) .error
  calls_eq : (c.dispatch w r eventType event).1.calls = w.calls ++ called.flatMap (·.records event)
  heeds_later : ∀ more d, (c.dispatch w r eventType event).1.document.Receives pool more d →
    d.Heeds (made ++ c.attachments event w called ++ more)
  kept : ∀ a ∈ c.attachments event w called, ∀ more d,
    (c.dispatch w r eventType event).1.document.Receives pool more d →
      ((d.node a.1).listenersFor a.2.eventType).filter (·.handle = a.2.handle) = [a.2]

/-- Whatever callbacks attach and wherever they fail, a dispatch calls in order the listeners that were attached before
it, each once, up to the first that fails. What the callbacks attached is kept, and it listens to later events. The
scripts of a workspace are callbacks of this kind. -/
theorem dispatch_snapshot (hobjects : pool.InjOn Binding.handle) (c : Reactions pool) {start : Document}
    (hquiet : ∀ x, (start.node x).listeners = []) {made : List (Ref × Binding)} {w : Workspace}
    (hmade : start.Receives pool made w.document) (r : Ref) (eventType : Text) (event : Json) :
    w.dispatch r eventType event = (Workspace.reactions w.nodes w.bindings).dispatch w r eventType event ∧
      ∃ called outcome, c.CallsListeners made w r eventType event called outcome := by
  have hstart : start.Heeds [] := ⟨fun x => by simp [hquiet x], fun x b => by simp [hquiet x]⟩
  have hheeds : w.document.Heeds made := hmade.heeds hobjects (by simp) hstart
  obtain ⟨called, outcome, hfirst, hall, hturn, hresult⟩ :=
    exists_callsInTurn (c.call event) w ((w.document.node r).listenersFor eventType)
  have hreceives := receives_of_callsInTurn hturn
  have hlater : ∀ more d, (c.dispatch w r eventType event).1.document.Receives pool more d →
      d.Heeds (made ++ c.attachments event w called ++ more) := by
    intro more d hmore
    rw [List.append_assoc]
    exact (hreceives.trans hmore).heeds hobjects hmade.mem_pool hheeds
  refine ⟨w.dispatch_eq r eventType event, called, outcome, ?_⟩
  exact
    { heeds := hheeds
      first := hfirst
      all := hall
      once := (hheeds.nodup r).sublist ((hfirst.sublist.trans List.filter_sublist).map _)
      in_turn := hturn
      result_eq := hresult
      calls_eq := calls_of_callsInTurn hturn
      heeds_later := hlater
      kept := fun a ha more d hmore =>
        (hlater more d hmore).filter_listenersFor
          (List.mem_append_left more (List.mem_append_right made ha)) }

def ring : Binding :=
  ⟨0, "ring".toList, "click".toList, .script ⟨"ring".toList, some ("echo".toList, "bell".toList), none⟩, .null⟩

def echo : Binding :=
  ⟨1, "echo".toList, "click".toList,
    .script ⟨"echo".toList, some ("echo".toList, "bell".toList), some "cracked".toList⟩, .null⟩

def mute : Document := ⟨[⟨Node.ofTag "button".toList, []⟩]⟩

def bell : Workspace :=
  ⟨mute.modifyNode 0 (·.listen ring), [("bell".toList, 0)], [("ring".toList, ring), ("echo".toList, echo)], []⟩

theorem dispatch_snapshot_bell : (bell.dispatch 0 "click".toList .null).2 = .ok 1 ∧ ∃ called outcome,
    (Workspace.reactions bell.nodes bell.bindings).CallsListeners [(0, ring)] bell 0 "click".toList .null called
      outcome := by
  have hobjects : Set.InjOn Binding.handle {b | ∃ name, (name, b) ∈ bell.bindings} := by
    rintro b ⟨name, hb⟩ b' ⟨name', hb'⟩ hhandle
    simp only [bell, List.mem_cons, Prod.mk.injEq, List.not_mem_nil, or_false] at hb hb'
    obtain ⟨-, rfl⟩ | ⟨-, rfl⟩ := hb <;> obtain ⟨-, rfl⟩ | ⟨-, rfl⟩ := hb' <;> simp_all [ring, echo]
  have hquiet : ∀ x, (mute.node x).listeners = []
    | 0 => rfl
    | _ + 1 => rfl
  have hmade : mute.Receives {b | ∃ name, (name, b) ∈ bell.bindings} [(0, ring)] bell.document :=
    Document.Receives.start.attach (by decide) ⟨"ring".toList, by simp [bell]⟩
  exact ⟨rfl, (dispatch_snapshot hobjects (Workspace.reactions bell.nodes bell.bindings) hquiet hmade 0 _ _).2⟩

example : ((bell.dispatch 0 "click".toList .null).1.dispatch 0 "click".toList .null).2 = .error "cracked".toList := rfl

end Reactions

end IndentMarkup
