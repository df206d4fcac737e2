import IndentMarkup.Proofs.Buttons

/-!
# When a window calls back

A window that is built calls back by a fixed protocol, whatever is asked of it and in whatever order
(`Desk.HasUnbuilt.keepsProtocol`). It is minimized and extended by turns, it is closed only while it is shown, and the
state that it is in never depends on what is called back. Once it is killed it calls back no more.
-/

namespace IndentMarkup

/-! ## Turns -/

def Occasion.isResizing : Occasion → Bool
  | minify => true
  | extension => true
  | close => false
  | kill => false

def turns : WindowStatus → Nat → List Occasion
  | _, 0 => []
  | .normal, n + 1 => .minify :: turns .minimized n
  | .minimized, n + 1 => .extension :: turns .normal n

namespace Effect

variable {w : Window} {r : Ref} {d : Document} {s : WindowStep}

/-- The status changes exactly when the window calls back for it. -/
inductive Turns (w : Window) (s : WindowStep) : Prop
  | same (status : s.window.status = w.status) (occasion : s.occasion.toList.filter Occasion.isResizing = [])
  | minified (before : w.status = .normal) (status : s.window.status = .minimized)
      (occasion : s.occasion = some .minify)
  | extended (before : w.status = .minimized) (status : s.window.status = .normal)
      (occasion : s.occasion = some .extension)

theorem turns (h : Effect w r d s) : Turns w s := by
  cases h with
  | minified living status => exact .minified status rfl rfl
  | extended living status => exact .extended status rfl rfl
  | _ => exact .same rfl rfl

theorem hides (h : Effect w r d s) (hr : r < d.size) :
    (s.occasion = some .close ∧ ¬ d.IsHidden r ∧ s.document.IsHidden r) ∨
      s.occasion ≠ some .close ∧ (s.document.IsHidden r → d.IsHidden r) := by
  have hother : ∀ side : String, side.toList ≠ "display".toList → ∀ (n : Node) (v : Text),
      (n.setStyle side.toList v).style.get? "display".toList = n.style.get? "display".toList :=
    fun side hne n v => Pairs.get?_put_of_ne hne v n.style
  have hsize : ∀ width height, (d.setSize r width height).IsHidden r → d.IsHidden r := fun width height =>
    (Document.apply_node_setSize (g := fun n => n.style.get? "display".toList) (hother "width" (by decide))
      (hother "height" (by decide)) d r r width height).symm.trans
  have hside : ∀ side size, side.toList ≠ "display".toList → (w.showSize d side size).IsHidden r → d.IsHidden r :=
    fun side size hne => (Window.apply_node_showSize (g := fun n => n.style.get? "display".toList) (hother side hne)
      w d size r).symm.trans
  have hnone : none ≠ some Occasion.close := (Option.some_ne_none _).symm
  cases h with
  | refused f => exact .inr ⟨hnone, id⟩
  | kept => exact .inr ⟨hnone, id⟩
  | minified => exact .inr ⟨by simp [WindowStep.calling], hsize w.minWidth w.minHeight⟩
  | extended => exact .inr ⟨by simp [WindowStep.calling], hsize w.width w.height⟩
  | closed living shown =>
      refine .inl ⟨rfl, shown, ?_⟩
      rw [WindowStep.calling, Document.IsHidden, Window.display, Document.node_modifyNode_self hr]
      exact Pairs.get?_put_self _ _ _
  | reappeared living hidden => exact .inr ⟨hnone, fun _ => hidden⟩
  | removed =>
      refine .inr ⟨by simp [WindowStep.calling], ?_⟩
      rw [WindowStep.calling, Document.IsHidden, Document.node_modifyChildren]
      exact id
  | titled =>
      exact .inr ⟨hnone, (Document.apply_node_modifyNode (g := fun n => n.style.get? "display".toList)
        (by exact fun _ => rfl) d _ r).symm.trans⟩
  | untitled => exact .inr ⟨hnone, id⟩
  | widened width => exact .inr ⟨hnone, hside "width" width (by decide)⟩
  | heightened height => exact .inr ⟨hnone, hside "height" height (by decide)⟩
  | adjusted => exact .inr ⟨hnone, id⟩

/-- An operation that calls back does not fail by itself, and keeps what is called back. -/
theorem failure_of_occasion (h : Effect w r d s) {o : Occasion} (ho : s.occasion = some o) :
    s.failure = none ∧ s.window.handler = w.handler := by
  cases h with
  | minified => exact ⟨rfl, rfl⟩
  | extended => exact ⟨rfl, rfl⟩
  | closed => exact ⟨rfl, rfl⟩
  | removed => exact ⟨rfl, rfl⟩
  | _ => exact absurd ho (Option.some_ne_none o).symm

/-- What a window that was killed still may do: its title, its sizes and its handlers may be changed. -/
theorem of_killed (h : Effect w r d s) (hkilled : w.killed = true) :
    s.window.killed = true ∧ s.occasion = none ∧ s.document.children = d.children := by
  have hkept : s.window.killed = true ∧ s.occasion = none := by
    cases h with
    | minified living => simp [hkilled] at living
    | extended living => simp [hkilled] at living
    | closed living => simp [hkilled] at living
    | reappeared living => simp [hkilled] at living
    | removed living => simp [hkilled] at living
    | _ => exact ⟨hkilled, rfl⟩
  refine ⟨hkept.1, hkept.2, funext fun x => h.children_eq fun _ => ?_⟩
  rw [hkept.2]
  exact (Option.some_ne_none _).symm

end Effect

/-! ## Other handlers -/

def Window.mapHandlers (φ : Handler → Handler) (w : Window) : Window :=
  { w with
    onMinify := w.onMinify.map φ
    onExtension := w.onExtension.map φ
    onClose := w.onClose.map φ
    onKill := w.onKill.map φ }

def WindowStep.mapHandlers (φ : Handler → Handler) (s : WindowStep) : WindowStep :=
  { s with window := s.window.mapHandlers φ }

def Request.mapHandlers (φ : Handler → Handler) : Request → Request
  | setHandler occasion h => setHandler occasion (φ h)
  | q => q

def Action.mapHandlers (φ : Handler → Handler) : Action → Action
  | request q => request (q.mapHandlers φ)
  | click b event => click b event
  | rearrange change => rearrange change

namespace Window

variable (φ : Handler → Handler) (w : Window) (d : Document)

theorem living_mapHandlers : (w.mapHandlers φ).living = w.living := rfl

theorem isClosed_mapHandlers : (w.mapHandlers φ).isClosed d = w.isClosed d := rfl

theorem minify_mapHandlers : (w.mapHandlers φ).minify d = (w.minify d).mapHandlers φ := by
  have hstatus : (w.mapHandlers φ).status = w.status := rfl
  rw [minify, minify, living_mapHandlers, hstatus]
  cases w.living with
  | error f => rfl
  | ok r => cases w.status <;> rfl

theorem extend_mapHandlers : (w.mapHandlers φ).extend d = (w.extend d).mapHandlers φ := by
  have hstatus : (w.mapHandlers φ).status = w.status := rfl
  rw [extend, extend, living_mapHandlers, hstatus]
  cases w.living with
  | error f => rfl
  | ok r => cases w.status <;> rfl

theorem close_mapHandlers : (w.mapHandlers φ).close d = (w.close d).mapHandlers φ := by
  rw [close, close, living_mapHandlers, isClosed_mapHandlers]
  cases w.living with
  | error f => rfl
  | ok r =>
      cases w.isClosed d with
      | error f => rfl
      | ok hidden => cases hidden <;> rfl

theorem reappear_mapHandlers : (w.mapHandlers φ).reappear d = (w.reappear d).mapHandlers φ := by
  rw [reappear, reappear, living_mapHandlers, isClosed_mapHandlers]
  cases w.living with
  | error f => rfl
  | ok r =>
      cases w.isClosed d with
      | error f => rfl
      | ok hidden => cases hidden <;> rfl

theorem kill_mapHandlers : (w.mapHandlers φ).kill d = (w.kill d).mapHandlers φ := by
  have hbuilder : (w.mapHandlers φ).builder = w.builder := rfl
  rw [kill, kill, living_mapHandlers, hbuilder]
  cases w.living with
  | error f => rfl
  | ok r => cases hremoved : d.removeChild? w.builder.container r <;> simp only [hremoved] <;> rfl

theorem setTitle_mapHandlers {w : Window} {r : Ref} (hnode : w.node = some r) (title : Json) :
    (w.mapHandlers φ).setTitle d title = (w.setTitle d title).mapHandlers φ := by
  have hnode' : (w.mapHandlers φ).node = some r := hnode
  cases htitle : titleOf title with
  | error f =>
      rw [setTitle, setTitle, htitle]
      rfl
  | ok text =>
      have hshown' : (Window.mapHandlers φ { w with title := text }).applyTitle d r =
          Window.applyTitle { w with title := text } d r := rfl
      cases hshown : Window.applyTitle { w with title := text } d r with
      | error f =>
          rw [setTitle_of_not_shown hnode htitle hshown]
          exact setTitle_of_not_shown hnode' htitle (hshown'.trans hshown)
      | ok d' =>
          rw [setTitle_of_shown hnode htitle hshown]
          exact setTitle_of_shown hnode' htitle (hshown'.trans hshown)

end Window

/-- No operation looks at the handlers of a window that is built. -/
theorem Request.step_mapHandlers {w : Window} {r : Ref} (hnode : w.node = some r) (φ : Handler → Handler)
    (d : Document) (q : Request) : (q.mapHandlers φ).step (w.mapHandlers φ) d = (q.step w d).mapHandlers φ := by
  cases q with
  | build body =>
      have hnode' : (w.mapHandlers φ).node = some r := hnode
      have hbuild : (w.mapHandlers φ).build d body = (w.build d body).mapHandlers φ := by
        rw [Window.build, Window.build, hnode, hnode']
        rfl
      exact hbuild
  | minify => exact w.minify_mapHandlers φ d
  | extend => exact w.extend_mapHandlers φ d
  | close => exact w.close_mapHandlers φ d
  | reappear => exact w.reappear_mapHandlers φ d
  | kill => exact w.kill_mapHandlers φ d
  | setTitle title => exact Window.setTitle_mapHandlers φ d hnode title
  | setWidth width => rfl
  | setHeight height => rfl
  | setMinWidth minWidth => rfl
  | setMinHeight minHeight => rfl
  | setParent parent => rfl
  | setHandler occasion h => cases occasion <;> rfl

theorem Action.step_mapHandlers {w : Window} {r : Ref} (hnode : w.node = some r) (φ : Handler → Handler)
    (d : Document) (a : Action) : (a.mapHandlers φ).step (w.mapHandlers φ) d = (a.step w d).mapHandlers φ := by
  cases a with
  | request q => exact q.step_mapHandlers hnode φ d
  | click b event =>
      cases b with
      | minify => exact w.minify_mapHandlers φ d
      | extend => exact w.extend_mapHandlers φ d
      | close => exact w.close_mapHandlers φ d
  | rearrange change => rfl

/-! ## Runs -/

namespace Window

def occasions (w : Window) (d : Document) : List Action → List Occasion
  | [] => []
  | a :: rest => (a.step w d).occasion.toList ++ (a.step w d).window.occasions (a.step w d).document rest

variable {w : Window} {r : Ref} {d : Document}

theorem turns_step (hnode : w.node = some r) (d : Document) (a : Action) : Effect.Turns w (a.step w d) := by
  rcases a.effect hnode d with h | ⟨change, h⟩
  · exact h.turns
  · rw [h]
    exact .same rfl rfl

theorem exists_turns (hnode : w.node = some r) (d : Document) (actions : List Action) :
    ∃ n, (w.occasions d actions).filter Occasion.isResizing = turns w.status n := by
  induction actions generalizing w d with
  | nil => exact ⟨0, by cases w.status <;> rfl⟩
  | cons a rest ih =>
      obtain ⟨n, hrest⟩ := ih ((a.built_eq hnode d).1.trans hnode) (a.step w d).document
      rw [occasions, List.filter_append, hrest]
      cases turns_step hnode d a with
      | same hstatus hnone => exact ⟨n, by rw [hnone, List.nil_append, hstatus]⟩
      | minified hbefore hstatus hoccasion => exact ⟨n + 1, by rw [hoccasion, hstatus, hbefore]; rfl⟩
      | extended hbefore hstatus hoccasion => exact ⟨n + 1, by rw [hoccasion, hstatus, hbefore]; rfl⟩

/-- A run with other handlers leads to the same window, but for its handlers, and to the same document. -/
theorem run_mapHandlers (hnode : w.node = some r) (φ : Handler → Handler) (d : Document) (actions : List Action) :
    (w.mapHandlers φ).run d (actions.map (Action.mapHandlers φ)) =
        ((w.run d actions).1.mapHandlers φ, (w.run d actions).2) ∧
      (w.mapHandlers φ).occasions d (actions.map (Action.mapHandlers φ)) = w.occasions d actions := by
  induction actions generalizing w d with
  | nil => exact ⟨rfl, rfl⟩
  | cons a rest ih =>
      obtain ⟨hrun, hoccasions⟩ := ih ((a.built_eq hnode d).1.trans hnode) (a.step w d).document
      rw [List.map_cons, run, run, occasions, occasions, a.step_mapHandlers hnode φ d]
      exact ⟨hrun, congrArg _ hoccasions⟩

theorem killed_run (hnode : w.node = some r) (hkilled : w.killed = true) (d : Document) (actions : List Action) :
    (w.run d actions).1.killed = true := by
  refine (run_invariant (P := fun w _ => w.node = some r ∧ w.killed = true) (fun w d a h => ?_)
    ⟨hnode, hkilled⟩ actions).2
  refine ⟨(a.built_eq h.1 d).1.trans h.1, ?_⟩
  rcases a.effect h.1 d with heffect | ⟨change, heq⟩
  · exact (heffect.of_killed h.2).1
  · rw [heq]
    exact h.2

/-- What a run keeps: the window is built as an element of the document, and into the same element. -/
theorem built_run (hnode : w.node = some r) (hr : r < d.size) (actions : List Action) :
    (w.run d actions).1.builder = w.builder ∧ r < (w.run d actions).2.size := by
  refine (run_invariant (P := fun v d => v.node = some r ∧ v.builder = w.builder ∧ r < d.size) (fun v d a h => ?_)
    ⟨hnode, rfl, hr⟩ actions).2
  obtain ⟨hnode', hbuilder⟩ := a.built_eq h.1 d
  exact ⟨hnode'.trans h.1, hbuilder.trans h.2.1, (a.size_eq h.1 d).symm ▸ h.2.2⟩

end Window

/-! ## The protocol -/

namespace Desk

theorem Operates.occasions {desk : Desk} {i : Nat} {w : Window} {r : Ref} {button : WindowButton → Ref}
    (h : desk.Operates i w r button) (actions : List Action) :
    desk.occasions i button actions = w.occasions desk.document actions := by
  induction actions generalizing desk w with
  | nil => rfl
  | cons a rest ih => rw [Desk.occasions, Window.occasions, h.occasion?_eq, ih (h.act a), h.document_act]

def mapHandlers (desk : Desk) (i : Nat) (φ : Handler → Handler) : Desk :=
  { desk with windows := desk.windows.modify i (Window.mapHandlers φ) }

/-- It is over with a window: it calls nothing back, refuses what it is asked, and does not come back. -/
structure IsOver (desk : Desk) (i : Nat) (button : WindowButton → Ref) : Prop where
  silent : ∀ a, desk.occasion? i a = none ∧ (desk.act i button a).1.calls = desk.calls
  built : ∀ body, desk.act i button (.request (.build body)) = (desk, some (.window .alreadyBuilt))
  refused : ∀ q ∈ [Request.minify, .extend, .close, .reappear, .kill],
    desk.act i button (.request q) = (desk, some (.window .killed))
  isClosed : ∃ w, desk.windows[i]? = some w ∧ w.isClosed desk.document = .error .killed
  children_eq : ∀ q, (desk.act i button (.request q)).1.document.children = desk.document.children

/-- How a window that was built as the element `r`, into the element `container`, calls back on its desk. -/
structure KeepsProtocol (built : Desk) (i : Nat) (r container : Ref) (button : WindowButton → Ref) : Prop where
  /-- The window remains the one that was built. -/
  stays : ∀ before, ∃ w, (built.after i button before).windows[i]? = some w ∧ w.node = some r ∧
    w.builder.container = container
  /-- A click on a button does what the request of the button does. -/
  clicks : ∀ before b event,
    (built.after i button before).act i button (.click b event) =
      (built.after i button before).act i button (.request b.request)
  /-- On its occasions the window calls its handlers, and on no other. -/
  calls : ∀ before a, ∃ w, (built.after i button before).windows[i]? = some w ∧
    ((built.after i button before).act i button a).1.calls = (built.after i button before).calls ++
      (((built.after i button before).occasion? i a).bind w.handler).toList.flatMap Handler.calls
  /-- The window is minimized and extended by turns. -/
  alternates : ∀ actions, ∃ n,
    (built.occasions i button actions).filter Occasion.isResizing = turns .normal n
  /-- The window calls back for being closed when it becomes hidden. -/
  closes : ∀ before a, (built.after i button before).occasion? i a = some .close ↔
    ¬ (built.after i button before).document.IsHidden r ∧
      ((built.after i button before).act i button a).1.document.IsHidden r
  /-- The state of the window does not depend on what its handlers do. -/
  independent : ∀ φ actions, ∃ w, (built.after i button actions).windows[i]? = some w ∧
    ((built.mapHandlers i φ).after i button (actions.map (Action.mapHandlers φ))).windows[i]? =
      some (w.mapHandlers φ) ∧
    ((built.mapHandlers i φ).after i button (actions.map (Action.mapHandlers φ))).document =
      (built.after i button actions).document
  /-- To be killed the window must be where it was built, and one occurrence of it is taken away. -/
  kills : ∀ before w, (built.after i button before).windows[i]? = some w → w.killed = false →
    let desk := built.after i button before
    let killing := desk.act i button (.request .kill)
    (r ∈ desk.document.children container →
      killing.1.windows[i]? = some { w with killed := true } ∧
        killing.1.document = desk.document.modifyChildren container (·.erase r) ∧
        desk.occasion? i (.request .kill) = some .kill) ∧
      (r ∉ desk.document.children container →
        killing = (desk, some (.notAChild (notAChildMessage desk.document container r))))
  /-- Once the window is killed, it is over for good. -/
  final : ∀ before later w, (built.after i button before).windows[i]? = some w → w.killed = true →
    (built.after i button (before ++ later)).IsOver i button

namespace Operates

variable {desk : Desk} {i : Nat} {w : Window} {r : Ref} {button : WindowButton → Ref}

theorem advance_failed (h : desk.windows[i]? = some w) (f : Failure) :
    desk.advance i (.failed w desk.document f) = desk := by
  have hwindows : desk.windows.set i w = desk.windows := by
    obtain ⟨hi, rfl⟩ := List.getElem?_eq_some_iff.mp h
    exact List.set_getElem_self hi
  have hcalls : desk.calls ++ (WindowStep.failed w desk.document f).calls = desk.calls := List.append_nil _
  rw [advance, hcalls]
  exact congrArg (fun windows => { desk with windows }) hwindows

theorem calls_act (h : desk.Operates i w r button) (a : Action) :
    (desk.act i button a).1.calls =
      desk.calls ++ ((desk.occasion? i a).bind w.handler).toList.flatMap Handler.calls := by
  have hhandler : (a.step w desk.document).handler? = (a.step w desk.document).occasion.bind w.handler := by
    cases hoccasion : (a.step w desk.document).occasion with
    | none => simp [WindowStep.handler?, hoccasion]
    | some o =>
        rcases a.effect h.node desk.document with heffect | ⟨change, heq⟩
        · obtain ⟨hfailure, hhandler⟩ := heffect.failure_of_occasion hoccasion
          simp [WindowStep.handler?, hfailure, hoccasion, hhandler]
        · rw [heq] at hoccasion
          exact absurd hoccasion (Option.some_ne_none o).symm
  rw [h.act_eq, h.occasion?_eq, advance, WindowStep.calls, hhandler]

theorem close_iff (h : desk.Operates i w r button) (hr : r < desk.document.size) (a : Action) :
    desk.occasion? i a = some .close ↔
      ¬ desk.document.IsHidden r ∧ (desk.act i button a).1.document.IsHidden r := by
  rw [h.occasion?_eq, h.document_act]
  rcases a.effect h.node desk.document with heffect | ⟨change, heq⟩
  · rcases heffect.hides hr with ⟨hclose, hhides⟩ | ⟨hclose, hkept⟩
    · exact ⟨fun _ => hhides, fun _ => hclose⟩
    · exact ⟨fun hclose' => absurd hclose' hclose, fun hhides => absurd (hkept hhides.2) hhides.1⟩
  · rw [heq, WindowStep.done, Document.IsHidden, Document.IsHidden, Document.node_modifyChildren]
    exact ⟨fun hclose => absurd hclose (Option.some_ne_none _).symm, fun hhides => absurd hhides.2 hhides.1⟩

theorem kill_of_child (h : desk.Operates i w r button) (hliving : w.killed = false)
    (hchild : r ∈ desk.document.children w.builder.container) :
    (desk.act i button (.request .kill)).1.windows[i]? = some { w with killed := true } ∧
      (desk.act i button (.request .kill)).1.document =
        desk.document.modifyChildren w.builder.container (·.erase r) ∧
      desk.occasion? i (.request .kill) = some .kill := by
  have hstep : Action.step w desk.document (.request .kill) = _ :=
    (Window.kill_of_not_killed h.node hliving desk.document).trans (if_pos hchild)
  have hwindow := (h.act (.request .kill)).window
  have hdocument := h.document_act (.request .kill)
  have hoccasion := h.occasion?_eq (.request .kill)
  rw [hstep] at hwindow hdocument hoccasion
  exact ⟨hwindow, hdocument, hoccasion⟩

theorem act_of_failed (h : desk.Operates i w r button) {a : Action} {f : Failure}
    (hstep : a.step w desk.document = .failed w desk.document f) : desk.act i button a = (desk, some f) := by
  rw [h.act_eq, hstep, advance_failed h.window]
  rfl

theorem kill_of_not_child (h : desk.Operates i w r button) (hliving : w.killed = false)
    (hchild : r ∉ desk.document.children w.builder.container) :
    desk.act i button (.request .kill) =
      (desk, some (.notAChild (notAChildMessage desk.document w.builder.container r))) :=
  h.act_of_failed ((Window.kill_of_not_killed h.node hliving desk.document).trans (if_neg hchild))

theorem mapHandlers (h : desk.Operates i w r button) (φ : Handler → Handler) :
    (desk.mapHandlers i φ).Operates i (w.mapHandlers φ) r button where
  window := by simp [Desk.mapHandlers, h.window]
  node := h.node
  listens := h.listens

theorem isOver (h : desk.Operates i w r button) (hkilled : w.killed = true) : desk.IsOver i button := by
  have hnone : ∀ a, desk.occasion? i a = none := by
    intro a
    rw [h.occasion?_eq]
    rcases a.effect h.node desk.document with heffect | ⟨change, heq⟩
    · exact (heffect.of_killed hkilled).2.1
    · rw [heq]
      rfl
  obtain ⟨hminify, hextend, hclose, hreappear, hkill, hisClosed⟩ :=
    Window.refused_of_killed h.node hkilled desk.document
  constructor
  case silent =>
    intro a
    refine ⟨hnone a, ?_⟩
    rw [h.calls_act, hnone]
    exact List.append_nil _
  case built =>
    intro body
    refine h.act_of_failed ?_
    rw [Action.step, Request.step, Window.build, h.node]
  case refused =>
    intro q hq
    refine h.act_of_failed ?_
    simp only [List.mem_cons, List.not_mem_nil, or_false] at hq
    rcases hq with rfl | rfl | rfl | rfl | rfl
    · exact hminify
    · exact hextend
    · exact hclose
    · exact hreappear
    · exact hkill
  case isClosed => exact ⟨w, h.window, hisClosed⟩
  case children_eq =>
    intro q
    rw [h.document_act]
    exact ((q.effect h.node desk.document).of_killed hkilled).2.2

theorem protocol (h : desk.Operates i w r button) (hr : r < desk.document.size) (hstatus : w.status = .normal) :
    desk.KeepsProtocol i r w.builder.container button := by
  have hafter : ∀ actions, ∃ w', (desk.after i button actions).Operates i w' r button ∧
      w'.builder = w.builder ∧ r < (desk.after i button actions).document.size := by
    intro actions
    obtain ⟨hoperates, hdocument⟩ := h.after actions
    obtain ⟨hbuilder, hsize⟩ := Window.built_run h.node hr actions
    exact ⟨_, hoperates, hbuilder, hdocument.symm ▸ hsize⟩
  constructor
  case stays =>
    intro before
    obtain ⟨w', hoperates, hbuilder, -⟩ := hafter before
    exact ⟨w', hoperates.window, hoperates.node, congrArg Builder.container hbuilder⟩
  case clicks =>
    intro before b event
    obtain ⟨w', hoperates, -⟩ := hafter before
    exact hoperates.act_click b event
  case calls =>
    intro before a
    obtain ⟨w', hoperates, -⟩ := hafter before
    exact ⟨w', hoperates.window, hoperates.calls_act a⟩
  case alternates =>
    intro actions
    rw [h.occasions, ← hstatus]
    exact Window.exists_turns h.node desk.document actions
  case closes =>
    intro before a
    obtain ⟨w', hoperates, -, hsize⟩ := hafter before
    exact hoperates.close_iff hsize a
  case independent =>
    intro φ actions
    obtain ⟨hoperates, hdocument⟩ := h.after actions
    obtain ⟨hother, hdocument'⟩ := (h.mapHandlers φ).after (actions.map (Action.mapHandlers φ))
    have hrun : (w.mapHandlers φ).run (desk.mapHandlers i φ).document (actions.map (Action.mapHandlers φ)) = _ :=
      (Window.run_mapHandlers h.node φ desk.document actions).1
    rw [hrun] at hother hdocument'
    exact ⟨_, hoperates.window, hother.window, hdocument'.trans hdocument.symm⟩
  case kills =>
    intro before w' hwindow hliving
    obtain ⟨w'', hoperates, hbuilder, -⟩ := hafter before
    obtain rfl := Option.some.inj (hwindow.symm.trans hoperates.window)
    rw [← hbuilder]
    exact ⟨hoperates.kill_of_child hliving, hoperates.kill_of_not_child hliving⟩
  case final =>
    intro before later w' hwindow hkilled
    obtain ⟨w₀, hoperates, -⟩ := hafter before
    obtain rfl := Option.some.inj (hwindow.symm.trans hoperates.window)
    have hlater := (hoperates.after later).1
    rw [Desk.after, List.foldl_append]
    exact hlater.isOver (Window.killed_run hoperates.node hkilled _ later)

end Operates

theorem KeepsProtocol.refuses_clicks {built : Desk} {i : Nat} {r container : Ref} {button : WindowButton → Ref}
    (h : built.KeepsProtocol i r container button) {w : Window} (hwindow : built.windows[i]? = some w)
    (hliving : w.killed = false) (hchild : r ∈ built.document.children container) (b : WindowButton) (event : Json) :
    ((built.after i button [.request .kill]).act i button (.click b event)).2 = some (.window .killed) := by
  obtain ⟨hkilled, -, -⟩ := (h.kills [] w hwindow hliving).1 hchild
  have hover := h.final [.request .kill] [] _ hkilled rfl
  rw [List.append_nil] at hover
  rw [h.clicks, hover.refused _ (by cases b <;> simp [WindowButton.request])]

end Desk

/-! ## Windows that are built -/

namespace Window

/-- What is neither style nor text is the same once the title and the sizes are applied. -/
theorem apply_node_applySizes {α : Type} {g : Node → α} (hg : ∀ n style text, g { n with style, text } = g n)
    (w : Window) (d : Document) (t r x : Ref) :
    g ((w.applySizes (d.modifyNode t fun n => { n with text := w.titleText }) r).node x) = g (d.node x) := by
  refine (Document.apply_node_modifyNode (fun n => ?_) _ _ _).trans
    ((Document.apply_node_modifyNode (fun n => ?_) _ _ _).trans (Document.apply_node_modifyNode (fun n => ?_) _ _ _))
  · exact hg n _ n.text
  · exact hg n _ n.text
  · exact hg n n.style _

theorem size_applySizes (w : Window) (d : Document) (t r : Ref) :
    (w.applySizes (d.modifyNode t fun n => { n with text := w.titleText }) r).size = d.size := by
  rw [applySizes, Document.setSize, Document.size_modifyNode, Document.size_modifyNode, Document.size_modifyNode]

/-- The line of the bar with another marker than the default one: it is top-level. -/
theorem ofPiece?_bar {marker : Text} (hmarker : marker ≠ defaultMarker) (number : Nat) :
    Line.ofPiece? marker number ">div.window-bar".toList =
      some ⟨number, 0, ">div.window-bar".toList, ">div.window-bar".toList⟩ := by
  have hvisible : Text.IsVisibleLine ">div.window-bar".toList :=
    ⟨by decide +kernel, by decide, by decide⟩
  have hdepth : depthOf marker ">div.window-bar".toList = 0 := by
    have hnot : ¬ decide (marker = ['>']) = true := fun heq => hmarker (of_decide_eq_true heq)
    change (('>' :: "div.window-bar".toList).takeWhile fun c => marker = [c]).length = 0
    exact congrArg List.length (List.takeWhile_cons_of_neg (p := fun c => marker = [c]) hnot)
  have htrimmed : Text.trimStart ">div.window-bar".toList = ">div.window-bar".toList := by decide +kernel
  rw [ofPiece?_of_isVisibleLine hvisible, lineEntry, hdepth, List.drop_zero, htrimmed]

/-- A window is built only with the default marker, as the line of the bar has no tag otherwise. -/
theorem marker_of_fault_eq_none {w : Window} {d : Document} {body : Text} (hkey : Chrome.IsKey w.key)
    (hfault : (w.compiled d body).fault = none) : w.builder.marker = defaultMarker := by
  by_contra hmarker
  have hpiece : (chromeTemplate w.key).lines[1]? = some ">div.window-bar".toList := by
    rw [Chrome.lines_chromeTemplate hkey]
    rfl
  have hline := mem_linesFrom_iff.mpr ⟨1, _, hpiece, ofPiece?_bar hmarker (1 + 1)⟩
  rw [← templateLines] at hline
  have htemplate : Line.mk (1 + 1) 0 ">div.window-bar".toList ">div.window-bar".toList ∈
      templateLines w.builder.marker (w.template body) := by
    rw [template]
    split
    · exact hline
    · rw [templateLines_append]
      exact List.mem_append_left _ hline
  have hread : ∀ b ∈ blocksOf w.builder.marker (w.template body), ∀ l ∈ b.lines, l.IsRead w.builder.dialect :=
    compile_fault_eq_none_iff.mp hfault
  obtain ⟨b, hb, hl⟩ := List.mem_flatMap.mp (mem_blocksOf_of_depth_eq_zero htemplate rfl)
  have htag : (LineGroups.ofText ">div.window-bar".toList).tag.isEmpty := by decide +kernel
  exact Line.not_isRead_of_tag htag (hread b hb _ hl)

end Window

namespace Desk

/-- A window that is built keeps the protocol, whatever its settings, its handlers and its surroundings are: the
buttons are the elements of the button lines, and the window is the element that is found by its key. -/
theorem HasUnbuilt.keepsProtocol {desk : Desk} {i : Nat} {w : Window} (h : desk.HasUnbuilt i w) {o : Rose Ref}
    (hparent : desk.document.HasOutline w.parent o) (body : Text)
    (hbuilt : (w.build desk.document body).failure = none) :
    ∃ (bodyLines : List Line) (place : Line → Ref) (r : Ref),
      blocksOf w.builder.marker (w.template body) = [Chrome.block w.key bodyLines] ∧
      (w.compiled desk.document body).document.Shows (Line.node w.builder.dialect) [Chrome.block w.key bodyLines]
        place ∧
      (w.compiled desk.document body).document.findById? w.parent (some w.key) = some r ∧
      (desk.operate i fun w d => w.build d body).1.KeepsProtocol i r w.parent fun b => place (Chrome.button b) := by
  obtain ⟨hfault, r, t, rest, hr, -, hwindow, hdocument⟩ := Window.of_build_failure_eq_none hbuilt
  have hmarker := Window.marker_of_fault_eq_none h.key hfault
  obtain ⟨bodyLines, hblocks, -⟩ := Window.exists_blocksOf_template hmarker h.key body
  rw [← hmarker] at hblocks
  obtain ⟨cs, rfl⟩ : ∃ cs, o = .node w.parent cs := ⟨o.children, by rw [← hparent.self_eq, Rose.eta]⟩
  have hcontainer : w.parent < desk.document.size := hparent.lt_size _ (by simp)
  obtain ⟨place, hshows, hroots, -⟩ := w.parentBuilder.exists_shows_compile hcontainer hfault
  have hgrows := w.parentBuilder.growsAt_compile (w.template body) hcontainer
  have hparentBlocks : blocksOf w.parentBuilder.marker (w.template body) = [Chrome.block w.key bodyLines] := hblocks
  rw [hroots] at hgrows
  have houtline := hgrows.hasOutline_of_shows hparent hshows
  rw [hparentBlocks] at hshows
  have hsize : r < (w.build desk.document body).document.size := by
    rw [hdocument, Window.size_applySizes]
    exact Document.lt_size_of_findById? houtline hr
  have hbutton : ∀ b, ((w.build desk.document body).document.node (place (Chrome.button b))).listeners =
      ((Chrome.button b).node w.builder.dialect).listeners := by
    intro b
    rw [hdocument, Window.apply_node_applySizes (g := Node.listeners) (by exact fun _ _ _ => rfl)]
    exact congrArg Node.listeners (hshows.node_eq _ (Window.mem_block_upper (.tail _ (Chrome.button_mem_upper b))))
  have hnode : (w.build desk.document body).window.node = some r := by rw [hwindow]
  have hoperates := h.operates hbuilt hblocks hnode hbutton
  have hstatus : (w.build desk.document body).window.status = .normal := by
    rw [hwindow]
    exact h.status
  have hparent' : (w.build desk.document body).window.builder.container = w.parent := by
    rw [hwindow]
    rfl
  refine ⟨bodyLines, place, r, hblocks, hshows, hr, ?_⟩
  rw [operate_eq h.window, ← hparent']
  exact hoperates.protocol hsize hstatus

/-- A window that was killed refuses the clicks on its buttons. -/
theorem HasUnbuilt.keepsProtocol_killed : ∃ button : WindowButton → Ref, ∀ event,
    (((plainDesk.operate 0 fun w d => w.build d "p".toList).1.after 0 button [.request .kill]).act 0 button
      (.click .minify event)).2 = some (.window .killed) := by
  have hparent : plainDesk.document.HasOutline 0 (.leaf 0) := ⟨rfl, .mk 0 [] rfl (by simp), by decide⟩
  have hbuilt : (Window.plainWindow.build plainDesk.document "p".toList).failure = none := by decide +kernel
  obtain ⟨bodyLines, place, r, -, -, hr, hprotocol⟩ := hasUnbuilt_plainDesk.keepsProtocol hparent _ hbuilt
  obtain ⟨-, x, -, -, -, -, hwindow, -⟩ := Window.of_build_failure_eq_none hbuilt
  have hfound : (Window.plainWindow.compiled plainDesk.document "p".toList).document.findById? 0
      (some Window.plainWindow.key) = some 11 := by decide +kernel
  obtain rfl := Option.some.inj (hr.symm.trans hfound)
  have hdesk := windows_operate hasUnbuilt_plainDesk.window fun w d => w.build d "p".toList
  rw [hwindow] at hdesk
  have hchild : 11 ∈ (plainDesk.operate 0 fun w d => w.build d "p".toList).1.document.children 0 := by
    rw [document_operate hasUnbuilt_plainDesk.window]
    decide +kernel
  exact ⟨_, hprotocol.refuses_clicks hdesk rfl hchild .minify⟩

end Desk

end IndentMarkup
