import IndentMarkup.Proofs.Operations

/-!
# Runs of a window on its desk

After a window is built, requests are made of it, its buttons are clicked, and others may change the children of the
element that it was built into. A click on a button does what the request of this button does
(`Desk.Operates.act_click`), so that all of this is a run of steps of the window and its document
(`Desk.Operates.after`), whatever else is on the desk.
-/

namespace IndentMarkup

def WindowButton.request : WindowButton → Request
  | minify => .minify
  | extend => .extend
  | close => .close

theorem press_eq (w : Window) (d : Document) (b : WindowButton) : w.press d b = b.request.step w d := by
  cases b <;> rfl

inductive Action where
  | request (q : Request)
  | click (b : WindowButton) (event : Json)
  /-- The children of the element that the window was built into are changed by others. -/
  | rearrange (change : List Ref → List Ref)

def Action.step (w : Window) (d : Document) : Action → WindowStep
  | request q => q.step w d
  | click b _ => b.request.step w d
  | rearrange change => .done w (d.modifyChildren w.builder.container change)

namespace Action

variable {w : Window} {r : Ref} {d : Document}

theorem effect (hnode : w.node = some r) (d : Document) (a : Action) :
    Effect w r d (a.step w d) ∨
      ∃ change, a.step w d = .done w (d.modifyChildren w.builder.container change) := by
  cases a with
  | request q => exact .inl (q.effect hnode d)
  | click b event => exact .inl (b.request.effect hnode d)
  | rearrange change => exact .inr ⟨change, rfl⟩

theorem built_eq (hnode : w.node = some r) (d : Document) (a : Action) :
    (a.step w d).window.node = w.node ∧ (a.step w d).window.builder = w.builder := by
  rcases a.effect hnode d with h | ⟨change, h⟩
  · exact h.built_eq
  · rw [h]
    exact ⟨rfl, rfl⟩

theorem apply_node {α : Type} {g : Node → α} (hg : ∀ n style text, g { n with style, text } = g n)
    (hnode : w.node = some r) (d : Document) (a : Action) (x : Ref) :
    g ((a.step w d).document.node x) = g (d.node x) := by
  rcases a.effect hnode d with h | ⟨change, h⟩
  · exact h.apply_node hg x
  · rw [h]
    exact congrArg g (congrFun (d.node_modifyChildren _ _) x)

theorem size_eq (hnode : w.node = some r) (d : Document) (a : Action) : (a.step w d).document.size = d.size := by
  rcases a.effect hnode d with h | ⟨change, h⟩
  · exact h.size_eq
  · rw [h]
    exact d.size_modifyChildren _ _

theorem hasOutline (hnode : w.node = some r) (a : Action) {x : Ref} {o : Rose Ref} (ho : d.HasOutline x o)
    (hcontainer : w.builder.container ∉ o.preorder) : (a.step w d).document.HasOutline x o := by
  rcases a.effect hnode d with h | ⟨change, h⟩
  · exact h.hasOutline ho hcontainer
  · rw [h]
    refine ⟨ho.self_eq, ho.follows.congr fun y hy => ?_, fun y hy => ?_⟩
    · exact (d.children_modifyChildren_of_ne (ne_of_mem_of_not_mem hy hcontainer) _).symm
    · exact (d.size_modifyChildren _ _).symm ▸ ho.lt_size y hy

end Action

namespace Window

/-! ## Runs of steps -/

def run (w : Window) (d : Document) : List Action → Window × Document
  | [] => (w, d)
  | a :: rest => (a.step w d).window.run (a.step w d).document rest

theorem run_append (w : Window) (d : Document) (before later : List Action) :
    w.run d (before ++ later) = (w.run d before).1.run (w.run d before).2 later := by
  induction before generalizing w d with
  | nil => rfl
  | cons a before ih => exact ih _ _

theorem run_invariant {P : Window → Document → Prop}
    (hstep : ∀ w d a, P w d → P (Action.step w d a).window (Action.step w d a).document) {w : Window} {d : Document}
    (h : P w d) (actions : List Action) : P (w.run d actions).1 (w.run d actions).2 := by
  induction actions generalizing w d with
  | nil => exact h
  | cons a rest ih => exact ih (hstep w d a h)

end Window

/-! ## What happens on the desk -/

def Handler.calls : Handler → List Call
  | .script s => [⟨s.label, .null⟩]
  | .value _ => []

def Handler.failure? : Handler → Option Failure
  | .script s => s.failure.map .script
  | .value v => some (.kind (.noCall v))

namespace WindowStep

/-- The handler that a step calls, unless it fails by itself. -/
def handler? (s : WindowStep) : Option Handler :=
  if s.failure.isSome then none else s.occasion.bind s.window.handler

def calls (s : WindowStep) : List Call := s.handler?.toList.flatMap Handler.calls

/-- The failure that a step ends with: its own, or that of the handler that it calls. -/
def outcome (s : WindowStep) : Option Failure := s.failure <|> s.handler?.bind Handler.failure?

end WindowStep

def WindowButton.binding (window : Nat) : WindowButton → Binding
  | minify => Desk.buttonBinding window 0 "minify" .minify
  | extend => Desk.buttonBinding window 1 "extend" .extend
  | close => Desk.buttonBinding window 2 "close" .close

theorem WindowButton.callback_binding (window : Nat) (b : WindowButton) :
    (b.binding window).callback = .button window b := by
  cases b <;> rfl

namespace Desk

def advance (desk : Desk) (i : Nat) (s : WindowStep) : Desk :=
  { desk with windows := desk.windows.set i s.window, document := s.document, calls := desk.calls ++ s.calls }

theorem windows_advance_self {desk : Desk} {i : Nat} {w : Window} (h : desk.windows[i]? = some w) (s : WindowStep) :
    (desk.advance i s).windows[i]? = some s.window :=
  List.getElem?_set_self (List.getElem?_eq_some_iff.mp h).1

theorem operate_eq {desk : Desk} {i : Nat} {w : Window} (h : desk.windows[i]? = some w)
    (operation : Window → Document → WindowStep) :
    desk.operate i operation =
      (desk.advance i (operation w desk.document), (operation w desk.document).outcome) := by
  simp only [operate, h, advance, WindowStep.calls, WindowStep.outcome, WindowStep.handler?]
  cases (operation w desk.document).failure with
  | some f => simp
  | none =>
      cases (operation w desk.document).occasion.bind (operation w desk.document).window.handler with
      | none => simp
      | some handler => cases handler <;> simp [handle, run, Handler.calls, Handler.failure?]

theorem windows_operate {desk : Desk} {i : Nat} {w : Window} (h : desk.windows[i]? = some w)
    (operation : Window → Document → WindowStep) :
    (desk.operate i operation).1.windows[i]? = some (operation w desk.document).window := by
  rw [operate_eq h]
  exact windows_advance_self h _

theorem document_operate {desk : Desk} {i : Nat} {w : Window} (h : desk.windows[i]? = some w)
    (operation : Window → Document → WindowStep) :
    (desk.operate i operation).1.document = (operation w desk.document).document := by
  rw [operate_eq h]
  rfl

/-- Carries out an action on a window whose buttons are the given elements. -/
def act (desk : Desk) (i : Nat) (button : WindowButton → Ref) : Action → Desk × Option Failure
  | .request q => desk.operate i fun w d => q.step w d
  | .click b event =>
    match desk.dispatch (button b) "click".toList event with
    | (desk, .ok _) => (desk, none)
    | (desk, .error failure) => (desk, some failure)
  | .rearrange change => desk.operate i fun w d => .done w (d.modifyChildren w.builder.container change)

def after (desk : Desk) (i : Nat) (button : WindowButton → Ref) (actions : List Action) : Desk :=
  actions.foldl (fun desk a => (desk.act i button a).1) desk

theorem after_request (desk : Desk) (i : Nat) (button : WindowButton → Ref) (q : Request) :
    desk.after i button [.request q] = (desk.operate i fun w d => q.step w d).1 := rfl

/-- The occasion on which a window calls back when an action is carried out. -/
def occasion? (desk : Desk) (i : Nat) (a : Action) : Option Occasion :=
  desk.windows[i]?.bind fun w => (a.step w desk.document).occasion

def occasions (desk : Desk) (i : Nat) (button : WindowButton → Ref) : List Action → List Occasion
  | [] => []
  | a :: rest => (desk.occasion? i a).toList ++ (desk.act i button a).1.occasions i button rest

theorem operate_press (desk : Desk) (i : Nat) (b : WindowButton) :
    (desk.operate i fun w d => w.press d b) = desk.operate i fun w d => b.request.step w d := by
  have hpress : (fun (w : Window) d => w.press d b) = fun w d => b.request.step w d :=
    funext fun w => funext fun d => press_eq w d b
  rw [hpress]

/-- A window of the desk that is built as the element `r` and whose buttons listen to clicks. -/
structure Operates (desk : Desk) (i : Nat) (w : Window) (r : Ref) (button : WindowButton → Ref) : Prop where
  window : desk.windows[i]? = some w
  node : w.node = some r
  listens : ∀ b, (desk.document.node (button b)).listenersFor "click".toList = [b.binding i]

namespace Operates

variable {desk : Desk} {i : Nat} {w : Window} {r : Ref} {button : WindowButton → Ref}

/-- A click on a button does what the request of the button does. -/
theorem act_click (h : desk.Operates i w r button) (b : WindowButton) (event : Json) :
    desk.act i button (.click b event) = desk.act i button (.request b.request) := by
  have hcall : desk.call event (b.binding i) = desk.operate i fun w d => b.request.step w d := by
    rw [call, b.callback_binding]
    exact desk.operate_press i b
  simp only [Desk.act, Desk.dispatch, h.listens, callEach, hcall, operate_eq h.window]
  cases (b.request.step w desk.document).outcome <;> rfl

/-- What an action leaves is what the step of the window leaves. -/
theorem act_eq (h : desk.Operates i w r button) (a : Action) :
    desk.act i button a = (desk.advance i (a.step w desk.document), (a.step w desk.document).outcome) := by
  cases a with
  | request q => exact operate_eq h.window fun w d => q.step w d
  | click b event => exact (h.act_click b event).trans (operate_eq h.window fun w d => b.request.step w d)
  | rearrange change =>
      exact operate_eq h.window fun w d => .done w (d.modifyChildren w.builder.container change)

theorem occasion?_eq (h : desk.Operates i w r button) (a : Action) :
    desk.occasion? i a = (a.step w desk.document).occasion := by
  rw [occasion?, h.window, Option.bind_some]

theorem act (h : desk.Operates i w r button) (a : Action) :
    (desk.act i button a).1.Operates i (a.step w desk.document).window r button := by
  rw [h.act_eq]
  have hlisteners : ∀ x, (((a.step w desk.document).document.node x).listenersFor "click".toList) =
      (desk.document.node x).listenersFor "click".toList :=
    Action.apply_node (g := fun n => n.listenersFor "click".toList) (fun _ _ _ => rfl) h.node desk.document a
  refine ⟨?_, (Action.built_eq h.node _ a).1.trans h.node, fun b => (hlisteners _).trans (h.listens b)⟩
  exact windows_advance_self h.window _

theorem document_act (h : desk.Operates i w r button) (a : Action) :
    (desk.act i button a).1.document = (a.step w desk.document).document := by
  rw [h.act_eq]
  rfl

/-- After a run the desk has the window and the document that the steps of the run lead to. -/
theorem after (h : desk.Operates i w r button) (actions : List Action) :
    (desk.after i button actions).Operates i (w.run desk.document actions).1 r button ∧
      (desk.after i button actions).document = (w.run desk.document actions).2 := by
  induction actions generalizing desk w with
  | nil => exact ⟨h, rfl⟩
  | cons a rest ih =>
      have hrest := ih (h.act a)
      rw [h.document_act] at hrest
      exact hrest

end Operates

end Desk

end IndentMarkup
