import IndentMarkup.Proofs.Appearance
import IndentMarkup.Proofs.Callbacks

/-!
# The minimum sizes of a window

The minimum sizes are written into the style of a window when it is built, and never again: no operation sets these
properties (`Effect.get?_style`). So a minimum size that is set later is known to the window and shows as its size when
it is next minimized, but the style keeps the minimum sizes of the time of building
(`Desk.HasUnbuilt.shows_minimumSizes`).
-/

namespace IndentMarkup

/-- No operation sets other properties of a style than these three. -/
theorem Effect.get?_style {w : Window} {r : Ref} {d : Document} {s : WindowStep} (h : Effect w r d s) {name : Text}
    (hwidth : "width".toList ≠ name) (hheight : "height".toList ≠ name) (hdisplay : "display".toList ≠ name)
    (x : Ref) : (s.document.node x).style.get? name = (d.node x).style.get? name := by
  have hset : ∀ side : String, side.toList ≠ name → ∀ (n : Node) (v : Text),
      (n.setStyle side.toList v).style.get? name = n.style.get? name :=
    fun side hne n v => Pairs.get?_put_of_ne hne v n.style
  have hsize : ∀ width height,
      ((d.setSize r width height).node x).style.get? name = (d.node x).style.get? name :=
    Document.apply_node_setSize (g := fun n => n.style.get? name) (hset "width" hwidth) (hset "height" hheight) d r x
  have hside : ∀ side size, side.toList ≠ name →
      ((w.showSize d side size).node x).style.get? name = (d.node x).style.get? name := fun side size hne =>
    Window.apply_node_showSize (g := fun n => n.style.get? name) (hset side hne) w d size x
  have hshow : ∀ value, ((Window.display d r value).node x).style.get? name = (d.node x).style.get? name :=
    fun value => Document.apply_node_modifyNode (g := fun n => n.style.get? name)
      (fun n => hset "display" hdisplay n _) d r x
  cases h with
  | minified => exact hsize w.minWidth w.minHeight
  | extended => exact hsize w.width w.height
  | closed => exact hshow "none"
  | reappeared => exact hshow "block"
  | removed => exact congrArg (fun n : Node => n.style.get? name) (congrFun (d.node_modifyChildren _ _) x)
  | titled =>
      exact Document.apply_node_modifyNode (g := fun n => n.style.get? name) (by exact fun _ => rfl) d _ x
  | widened width => exact hside "width" width hwidth
  | heightened height => exact hside "height" height hheight
  | _ => rfl

namespace Action

def minWidth? : Action → Option Json
  | request q => q.minWidth?
  | _ => none

def minHeight? : Action → Option Json
  | request q => q.minHeight?
  | _ => none

theorem minimumSizes_step (w : Window) (d : Document) (a : Action) :
    (a.step w d).window.minWidth = a.minWidth?.getD w.minWidth ∧
      (a.step w d).window.minHeight = a.minHeight?.getD w.minHeight := by
  cases a with
  | request q => exact (q.settings_step w d).2.2
  | click b event => cases b <;> exact (Request.settings_step w d _).2.2
  | rearrange change => exact ⟨rfl, rfl⟩

theorem get?_style {w : Window} {r : Ref} (hnode : w.node = some r) (d : Document) (a : Action) {name : Text}
    (hwidth : "width".toList ≠ name) (hheight : "height".toList ≠ name) (hdisplay : "display".toList ≠ name)
    (x : Ref) : ((a.step w d).document.node x).style.get? name = (d.node x).style.get? name := by
  rcases a.effect hnode d with h | ⟨change, h⟩
  · exact h.get?_style hwidth hheight hdisplay x
  · rw [h]
    exact congrArg (fun n : Node => n.style.get? name) (congrFun (d.node_modifyChildren _ _) x)

end Action

/-- The minimum width after actions: the last one that was set, or else the first. -/
def minWidthAfter (first : Json) (actions : List Action) : Json :=
  actions.foldl (fun minWidth a => a.minWidth?.getD minWidth) first

def minHeightAfter (first : Json) (actions : List Action) : Json :=
  actions.foldl (fun minHeight a => a.minHeight?.getD minHeight) first

namespace Window

variable {w : Window} {r : Ref} {d : Document}

theorem minimumSizes_run (w : Window) (d : Document) (actions : List Action) :
    (w.run d actions).1.minWidth = minWidthAfter w.minWidth actions ∧
      (w.run d actions).1.minHeight = minHeightAfter w.minHeight actions := by
  induction actions generalizing w d with
  | nil => exact ⟨rfl, rfl⟩
  | cons a rest ih =>
      obtain ⟨hwidth, hheight⟩ := a.minimumSizes_step w d
      obtain ⟨hwidth', hheight'⟩ := ih (a.step w d).window (a.step w d).document
      rw [hwidth] at hwidth'
      rw [hheight] at hheight'
      exact ⟨hwidth', hheight'⟩

theorem get?_style_run (hnode : w.node = some r) (d : Document) {name : Text} (hwidth : "width".toList ≠ name)
    (hheight : "height".toList ≠ name) (hdisplay : "display".toList ≠ name) (actions : List Action) (x : Ref) :
    ((w.run d actions).2.node x).style.get? name = (d.node x).style.get? name := by
  refine (run_invariant (P := fun v e => v.node = some r ∧
    (e.node x).style.get? name = (d.node x).style.get? name) (fun v e a h => ?_) ⟨hnode, rfl⟩ actions).2
  exact ⟨(a.built_eq h.1 e).1.trans h.1, (a.get?_style h.1 e hwidth hheight hdisplay x).trans h.2⟩

end Window

namespace Desk

/-- A window that is built operates, whatever its settings and its surroundings are: its buttons are the elements of
the button lines, and it is the element that is found by its key. -/
theorem HasUnbuilt.exists_operates {desk : Desk} {i : Nat} {w : Window} (h : desk.HasUnbuilt i w) {o : Rose Ref}
    (hparent : desk.document.HasOutline w.parent o) {body : Text}
    (hbuilt : (w.build desk.document body).failure = none) :
    ∃ (bodyLines : List Line) (place : Line → Ref) (r : Ref),
      blocksOf w.builder.marker (w.template body) = [Chrome.block w.key bodyLines] ∧
      (w.compiled desk.document body).document.Shows (Line.node w.builder.dialect) [Chrome.block w.key bodyLines]
        place ∧
      (w.compiled desk.document body).document.findById? w.parent (some w.key) = some r ∧
      r < (w.build desk.document body).document.size ∧
      (desk.advance i (w.build desk.document body)).Operates i (w.build desk.document body).window r
        fun b => place (Chrome.button b) := by
  obtain ⟨hfault, r, t, rest, hr, -, hwindow, hdocument⟩ := Window.of_build_failure_eq_none hbuilt
  have hmarker := Window.marker_of_fault_eq_none h.key hfault
  obtain ⟨cs, rfl⟩ := hparent.exists_children
  obtain ⟨bodyLines, place, hblocks, -, hshows, -, hgrows⟩ :=
    Window.exists_grows_compiled hmarker h.key hparent.self_lt_size hfault
  have hsize : r < (w.build desk.document body).document.size := by
    rw [hdocument, Window.size_applySizes]
    exact Document.lt_size_of_findById? (Document.GrowsAt.hasOutline_of_shows hgrows hparent hshows) hr
  refine ⟨bodyLines, place, r, hmarker ▸ hblocks, hshows, hr, hsize,
    h.operates hbuilt (hmarker ▸ hblocks) (by rw [hwindow]) fun b => ?_⟩
  rw [hdocument, Window.apply_node_applySizes (g := Node.listeners) (by exact fun _ _ _ => rfl)]
  exact congrArg Node.listeners (hshows.node_eq _ (Window.mem_block_upper (.tail _ (Chrome.button_mem_upper b))))

/-- The minimum sizes that show. After a window is built, in any run of requests, clicks on its buttons and changes of
its surroundings, its minimum sizes are the last ones that were set, but its style keeps those that it was built with.
When it is minimized, there is a last action that minimized it, and its size consists of the minimum sizes that were
set by then. -/
theorem HasUnbuilt.shows_minimumSizes {desk : Desk} {i : Nat} {w : Window} (h : desk.HasUnbuilt i w) {o : Rose Ref}
    (hparent : desk.document.HasOutline w.parent o) (body : Text)
    (hbuilt : (w.build desk.document body).failure = none) :
    ∃ (bodyLines : List Line) (place : Line → Ref) (r : Ref),
      blocksOf w.builder.marker (w.template body) = [Chrome.block w.key bodyLines] ∧
      (w.compiled desk.document body).document.Shows (Line.node w.builder.dialect) [Chrome.block w.key bodyLines]
        place ∧
      let run := (desk.operate i fun w d => w.build d body).1.after i fun b => place (Chrome.button b)
      ∀ actions, ∃ w', (run actions).windows[i]? = some w' ∧ w'.node = some r ∧
        w'.minWidth = minWidthAfter w.minWidth actions ∧ w'.minHeight = minHeightAfter w.minHeight actions ∧
        ((run actions).document.node r).style.get? "min-width".toList = some (w.minWidth.display ++ "px".toList) ∧
        ((run actions).document.node r).style.get? "min-height".toList = some (w.minHeight.display ++ "px".toList) ∧
        (w'.status = .minimized → ∃ before a later w₀, actions = before ++ a :: later ∧
          (run before).windows[i]? = some w₀ ∧ w₀.status = .normal ∧
          (∀ mid, mid <+: later →
            ∃ w₁, (run (before ++ a :: mid)).windows[i]? = some w₁ ∧ w₁.status = .minimized) ∧
          (run actions).document.ShowsSize r (minWidthAfter w.minWidth before)
            (minHeightAfter w.minHeight before)) := by
  obtain ⟨bodyLines, place, r, hblocks, hshows, -, hsize, hoperates⟩ := h.exists_operates hparent hbuilt
  obtain ⟨howns, n, hn⟩ := Window.exists_showsOwnSize_build hbuilt hoperates.node hsize
  obtain ⟨-, -, hminWidth, hminHeight⟩ := w.style_sized n
  obtain ⟨-, x, -, -, -, -, hwindow, -⟩ := Window.of_build_failure_eq_none hbuilt
  have hstatus : (w.build desk.document body).window.status = .normal := by
    rw [hwindow]
    exact h.status
  have hsizes : (w.build desk.document body).window.minWidth = w.minWidth ∧
      (w.build desk.document body).window.minHeight = w.minHeight := by
    rw [hwindow]
    exact ⟨rfl, rfl⟩
  have hrun := fun actions => hoperates.after actions
  have hmin := fun actions =>
    (w.build desk.document body).window.minimumSizes_run (w.build desk.document body).document actions
  rw [hsizes.1, hsizes.2] at hmin
  rw [operate_eq h.window]
  refine ⟨bodyLines, place, r, hblocks, hshows, fun actions => ?_⟩
  refine ⟨_, (hrun actions).1.window, (hrun actions).1.node, (hmin actions).1, (hmin actions).2, ?_, ?_,
    fun hminimized => ?_⟩
  · rw [(hrun actions).2]
    refine (Window.get?_style_run hoperates.node _ (by decide) (by decide) (by decide) actions r).trans ?_
    exact hn ▸ hminWidth
  · rw [(hrun actions).2]
    refine (Window.get?_style_run hoperates.node _ (by decide) (by decide) (by decide) actions r).trans ?_
    exact hn ▸ hminHeight
  · obtain ⟨before, a, later, hactions, hbefore, hlater, hshown⟩ := howns.frozen hstatus actions hminimized
    refine ⟨before, a, later, _, hactions, (hrun before).1.window, hbefore, fun mid hmid => ?_, ?_⟩
    · exact ⟨_, (hrun _).1.window, hlater mid hmid⟩
    · rw [(hrun actions).2, ← (hmin before).1, ← (hmin before).2]
      exact hshown

/-- A minimum width that is set after a window is built does not show in its style. -/
theorem HasUnbuilt.shows_minimumSizes_changed :
    ∃ (button : WindowButton → Ref) (r : Ref) (w : Window),
      let desk := (plainDesk.operate 0 fun w d => w.build d "p".toList).1.after 0 button
        [.request (.setMinWidth (.int 200))]
      desk.windows[0]? = some w ∧ w.node = some r ∧ w.minWidth = .int 200 ∧
        (desk.document.node r).style.get? "min-width".toList = some "300px".toList := by
  have hparent : plainDesk.document.HasOutline 0 (.leaf 0) := ⟨rfl, .mk 0 [] rfl (by simp), by decide⟩
  have hbuilt : (Window.plainWindow.build plainDesk.document "p".toList).failure = none := by decide +kernel
  obtain ⟨bodyLines, place, r, -, -, hrun⟩ := hasUnbuilt_plainDesk.shows_minimumSizes hparent _ hbuilt
  obtain ⟨w, hwindow, hnode, hminWidth, -, hstyle, -⟩ := hrun [.request (.setMinWidth (.int 200))]
  have htext : Json.display (.int 300) ++ "px".toList = "300px".toList := by decide +kernel
  exact ⟨_, r, w, hwindow, hnode, hminWidth, htext ▸ hstyle⟩

end Desk

end IndentMarkup
