import IndentMarkup.Proofs.Materialization
import IndentMarkup.Proofs.Runs
import IndentMarkup.Proofs.WindowBody

/-!
# The buttons of a window

A button of the chrome listens to clicks with the binding of its window, and to nothing else
(`Chrome.listeners_button`). This holds for any separator of attributes and any further bindings, as the events of a
line are read after its attributes and a look-up finds the first binding of a name.
-/

namespace IndentMarkup

theorem listeners_materialize {dialect : Dialect} (hmake : dialect.makeNode = Node.ofTag) {d : Descriptor} {name : Text}
    (hevents : d.events = [name]) {b : Binding} (hresolve : dialect.registry.resolve name = some b) :
    (d.materialize dialect).listeners = [b] := by
  have hquiet : (d.quietNode dialect.makeNode).listeners = [] := by
    rw [Descriptor.apply_quietNode (g := Node.listeners) fun _ _ _ _ _ => rfl, hmake]
    rfl
  rw [Descriptor.materialize_eq, hevents, List.foldl_cons, List.foldl_nil, Node.listenTo, hresolve]
  simp [Node.listen, hquiet]

namespace Chrome

def button : WindowButton → Line
  | .minify => line 6 3 "button(&#150;)[type=button]@minify"
  | .extend => line 7 3 "button(&#8597;)[type=button; disabled]@extend"
  | .close => line 8 3 "button(&times;)[type=button]@close"

theorem button_mem_upper (b : WindowButton) : button b ∈ upper := by
  cases b <;> simp [button, upper]

theorem events_button (i : Nat) (b : WindowButton) :
    (LineGroups.ofText (button b).descriptor).events = [(b.binding i).name] := by
  cases b with
  | minify => exact (by decide +kernel : (LineGroups.ofText (button .minify).descriptor).events = ["minify".toList])
  | extend => exact (by decide +kernel : (LineGroups.ofText (button .extend).descriptor).events = ["extend".toList])
  | close => exact (by decide +kernel : (LineGroups.ofText (button .close).descriptor).events = ["close".toList])

/-- The bindings of the buttons are found, whatever is registered after them. -/
theorem resolve_binding {registry : Registry} {i : Nat} (h : Desk.buttonBindings i <+: registry.bindings)
    (b : WindowButton) : registry.resolve (b.binding i).name = some (b.binding i) := by
  obtain ⟨rest, hrest⟩ := h
  have hfound : (Desk.buttonBindings i).find? (fun a => a.name = (b.binding i).name) = some (b.binding i) := by
    cases b <;> rfl
  rw [Registry.resolve, ← hrest, List.find?_append, hfound, Option.some_or]

theorem listeners_button {dialect : Dialect} (hmake : dialect.makeNode = Node.ofTag) {i : Nat}
    (hregistry : Desk.buttonBindings i <+: dialect.registry.bindings) {b : WindowButton}
    (hread : (button b).IsRead dialect) : ((button b).node dialect).listeners = [b.binding i] := by
  obtain ⟨reading, hreading⟩ := hread
  obtain ⟨-, -, text, -, hdescriptor⟩ := LineGroups.read_eq_ok hreading
  rw [Line.node, descriptorNode, hreading]
  exact listeners_materialize hmake (hdescriptor ▸ events_button i b) (resolve_binding hregistry b)

end Chrome

/-! ## Windows that are made -/

namespace Desk

/-- A window of the desk that is not built, as windows are made: it has a key of its own and the bindings of its
buttons, to which others may have been added. -/
structure HasUnbuilt (desk : Desk) (i : Nat) (w : Window) : Prop where
  window : desk.windows[i]? = some w
  key : Chrome.IsKey w.key
  makeNode : w.builder.makeNode = Node.ofTag
  registry : buttonBindings i <+: w.builder.registry.bindings
  node : w.node = none
  status : w.status = .normal
  living : w.killed = false

def plainDesk : Desk := ⟨Window.plainDocument, [Window.plainWindow], [], ⟨"1234567890".toList, 6⟩⟩

theorem hasUnbuilt_plainDesk : plainDesk.HasUnbuilt 0 Window.plainWindow :=
  ⟨rfl, by decide +kernel, rfl, List.prefix_refl _, rfl, rfl, rfl⟩

/-- Building changes the builder of a window and the element that is found, whether it succeeds or not. -/
theorem exists_window_build {w : Window} (hnode : w.node = none) (d : Document) (body : Text) :
    ∃ node, (w.build d body).window = { w with builder := (w.compiled d body).builder, node } := by
  have hadopt : ∀ (w : Window) (d : Document), ∃ node, (w.adopt d).window = { w with node } := by
    intro w d
    rw [Window.adopt]
    split
    · exact ⟨none, rfl⟩
    · next r _ =>
        refine ⟨some r, ?_⟩
        dsimp only
        split <;> rfl
  cases hfault : (w.compiled d body).fault with
  | none =>
      obtain ⟨node, hwindow⟩ := hadopt { w with builder := (w.compiled d body).builder } (w.compiled d body).document
      exact ⟨node, (Window.build_of_fault_eq_none hnode hfault).1.trans hwindow⟩
  | some f =>
      rw [Window.compiled, Window.parentBuilder] at hfault
      refine ⟨none, ?_⟩
      simp only [Window.build, hnode, hfault, WindowStep.failed]
      rfl

end Desk

def Request.parent? : Request → Option Ref
  | setParent parent => some parent
  | _ => none

def Request.minWidth? : Request → Option Json
  | setMinWidth minWidth => some minWidth
  | _ => none

def Request.minHeight? : Request → Option Json
  | setMinHeight minHeight => some minHeight
  | _ => none

/-- The key of a window is never changed, and its parent and its minimum sizes are the ones that were set. -/
theorem Request.settings_step (w : Window) (d : Document) (q : Request) :
    (q.step w d).window.key = w.key ∧ (q.step w d).window.parent = q.parent?.getD w.parent ∧
      (q.step w d).window.minWidth = q.minWidth?.getD w.minWidth ∧
      (q.step w d).window.minHeight = q.minHeight?.getD w.minHeight := by
  cases q with
  | build body =>
      rw [step]
      cases hnode : w.node with
      | some r =>
          rw [Window.build, hnode]
          exact ⟨rfl, rfl, rfl, rfl⟩
      | none =>
          obtain ⟨node, hwindow⟩ := Desk.exists_window_build hnode d body
          rw [hwindow]
          exact ⟨rfl, rfl, rfl, rfl⟩
  | minify =>
      rw [step, Window.minify]
      split
      · exact ⟨rfl, rfl, rfl, rfl⟩
      · split <;> exact ⟨rfl, rfl, rfl, rfl⟩
  | extend =>
      rw [step, Window.extend]
      split
      · exact ⟨rfl, rfl, rfl, rfl⟩
      · split <;> exact ⟨rfl, rfl, rfl, rfl⟩
  | close =>
      rw [step, Window.close]
      split <;> exact ⟨rfl, rfl, rfl, rfl⟩
  | reappear =>
      rw [step, Window.reappear]
      split <;> exact ⟨rfl, rfl, rfl, rfl⟩
  | kill =>
      rw [step, Window.kill]
      split
      · exact ⟨rfl, rfl, rfl, rfl⟩
      · split <;> exact ⟨rfl, rfl, rfl, rfl⟩
  | setTitle title =>
      rw [step, Window.setTitle]
      split
      · exact ⟨rfl, rfl, rfl, rfl⟩
      · dsimp only
        split
        · exact ⟨rfl, rfl, rfl, rfl⟩
        · split <;> exact ⟨rfl, rfl, rfl, rfl⟩
  | setHandler occasion h => cases occasion <;> exact ⟨rfl, rfl, rfl, rfl⟩
  | _ => exact ⟨rfl, rfl, rfl, rfl⟩

namespace Desk

/-- Whatever else than to be built is asked of a window that is not built, it stays so, and the document is left
alone. -/
theorem step_of_unbuilt {w : Window} (hnode : w.node = none) (d : Document) {q : Request}
    (hq : ∀ body, q ≠ .build body) :
    (q.step w d).document = d ∧ (q.step w d).window.node = none ∧ (q.step w d).window.builder = w.builder ∧
      (q.step w d).window.status = w.status ∧ (q.step w d).window.killed = w.killed := by
  have hliving : w.living = .error .notBuilt := by rw [Window.living, hnode]
  have hclosed : w.isClosed d = .error .notBuilt := by rw [Window.isClosed, hliving]; rfl
  cases q with
  | build body => exact absurd rfl (hq body)
  | minify => simp [Request.step, Window.minify, hliving, hnode, WindowStep.failed]
  | extend => simp [Request.step, Window.extend, hliving, hnode, WindowStep.failed]
  | close => simp [Request.step, Window.close, hliving, hnode, WindowStep.failed]
  | reappear => simp [Request.step, Window.reappear, hliving, hnode, WindowStep.failed]
  | kill => simp [Request.step, Window.kill, hliving, hnode, WindowStep.failed]
  | setTitle title =>
      cases htitle : titleOf title <;>
        simp [Request.step, Window.setTitle, htitle, hnode, WindowStep.failed, WindowStep.done]
  | setWidth width => simp [Request.step, Window.setWidth, Window.showSize, hnode, WindowStep.done]
  | setHeight height => simp [Request.step, Window.setHeight, Window.showSize, hnode, WindowStep.done]
  | setMinWidth minWidth => exact ⟨rfl, hnode, rfl, rfl, rfl⟩
  | setMinHeight minHeight => exact ⟨rfl, hnode, rfl, rfl, rfl⟩
  | setParent parent => exact ⟨rfl, hnode, rfl, rfl, rfl⟩
  | setHandler occasion handler => cases occasion <;> exact ⟨rfl, hnode, rfl, rfl, rfl⟩

theorem hasUnbuilt_newWindow {desk : Desk} {spec : WindowSpec} {i : Nat}
    (hdigits : ∀ c ∈ desk.supply.digits, isNameChar c) (h : (desk.newWindow spec).2 = .ok i) :
    ∃ w, (desk.newWindow spec).1.HasUnbuilt i w := by
  have hkey := Chrome.isKey_nextKey hdigits
  rw [newWindow] at h ⊢
  cases htitle : titleOf spec.title with
  | error f => simp [htitle] at h
  | ok title =>
      simp only [htitle, addWindow, Except.ok.injEq] at h ⊢
      subst h
      exact ⟨_, List.getElem?_concat_length, hkey, rfl, List.prefix_refl _, rfl, rfl, rfl⟩

theorem HasUnbuilt.advance {desk : Desk} {i : Nat} {w : Window} (h : desk.HasUnbuilt i w) (q : Request)
    (hnode : (q.step w desk.document).window.node = none) :
    (desk.advance i (q.step w desk.document)).HasUnbuilt i (q.step w desk.document).window := by
  have hwindow := windows_advance_self h.window (q.step w desk.document)
  by_cases hq : ∃ body, q = .build body
  · obtain ⟨body, rfl⟩ := hq
    obtain ⟨node, heq⟩ := exists_window_build h.node desk.document body
    rw [Request.step] at hwindow hnode ⊢
    rw [heq] at hwindow hnode ⊢
    exact ⟨hwindow, h.key, h.makeNode, h.registry, hnode, h.status, h.living⟩
  · rw [not_exists] at hq
    obtain ⟨-, -, hbuilder, hstatus, hliving⟩ := step_of_unbuilt h.node desk.document hq
    exact ⟨hwindow, (q.settings_step w desk.document).1 ▸ h.key, hbuilder ▸ h.makeNode, hbuilder ▸ h.registry, hnode,
      hstatus.trans h.status, hliving.trans h.living⟩

theorem HasUnbuilt.listeners_button {desk : Desk} {i : Nat} {w : Window} (h : desk.HasUnbuilt i w) {body : Text}
    (hbuilt : (w.build desk.document body).failure = none) {bodyLines : List Line}
    (hblocks : blocksOf w.builder.marker (w.template body) = [Chrome.block w.key bodyLines]) (b : WindowButton) :
    ((Chrome.button b).node w.builder.dialect).listeners = [b.binding i] := by
  have hlines := compile_fault_eq_none_iff.mp (Window.fault_eq_none_of_build hbuilt).2
  refine Chrome.listeners_button h.makeNode h.registry (hlines (Chrome.block w.key bodyLines) ?_ _ ?_)
  · exact hblocks ▸ List.mem_singleton_self _
  · exact .tail _ (List.mem_append_left _ (Chrome.button_mem_upper b))

theorem HasUnbuilt.operates {desk : Desk} {i : Nat} {w : Window} (h : desk.HasUnbuilt i w) {body : Text}
    (hbuilt : (w.build desk.document body).failure = none) {bodyLines : List Line}
    (hblocks : blocksOf w.builder.marker (w.template body) = [Chrome.block w.key bodyLines]) {r : Ref}
    (hnode : (w.build desk.document body).window.node = some r) {button : WindowButton → Ref}
    (hbutton : ∀ b, ((w.build desk.document body).document.node (button b)).listeners =
      ((Chrome.button b).node w.builder.dialect).listeners) :
    (desk.advance i (w.build desk.document body)).Operates i (w.build desk.document body).window r button := by
  refine ⟨windows_advance_self h.window _, hnode, fun b => ?_⟩
  rw [Desk.advance, Node.listenersFor, (hbutton b).trans (h.listeners_button hbuilt hblocks b)]
  cases b <;> rfl

end Desk

end IndentMarkup
