import IndentMarkup.Proofs.Outlines
import IndentMarkup.Proofs.Tables
import IndentMarkup.Window.Desk

/-!
# What an operation does to a window that is built

Whatever is asked of a window that is built, there are twelve things that may come of it (`Request.effect`). Each of
them sets at most two properties of the style of the window's element and the text of its title, and only `kill`
changes what is below an element (`Effect.children_eq`). So the outlines of a document, its classes and its listeners
are the same after any operation.
-/

namespace IndentMarkup

namespace Document

/-! ## What is shown of an element -/

/-- The element shows at a size, in pixels. -/
def ShowsSize (d : Document) (r : Ref) (width height : Json) : Prop :=
  (d.node r).style.get? "width".toList = some (width.display ++ "px".toList) ∧
    (d.node r).style.get? "height".toList = some (height.display ++ "px".toList)

def IsHidden (d : Document) (r : Ref) : Prop := (d.node r).style.get? "display".toList = some "none".toList

instance (d : Document) (r : Ref) : Decidable (d.IsHidden r) := inferInstanceAs (Decidable (_ = _))

theorem node_modifyNode_self {d : Document} {r : Ref} (h : r < d.size) (f : Node → Node) :
    (d.modifyNode r f).node r = f (d.node r) := by
  rw [node_modifyNode h, Function.update_self]

/-- What a change of nodes does not touch is the same for all elements. -/
theorem apply_node_modifyNode {α : Type} {g : Node → α} {f : Node → Node} (h : ∀ n, g (f n) = g n) (d : Document)
    (r x : Ref) : g ((d.modifyNode r f).node x) = g (d.node x) := by
  simp only [node, element, modifyNode, List.getD_eq_getElem?_getD, List.getElem?_modify]
  cases d.elements[x]? with
  | none => rfl
  | some e => by_cases hx : r = x <;> simp [hx, h]

theorem size_modifyChildren (d : Document) (r : Ref) (f : List Ref → List Ref) :
    (d.modifyChildren r f).size = d.size := by
  simp [modifyChildren, size]

@[simp] theorem node_modifyChildren (d : Document) (r : Ref) (f : List Ref → List Ref) :
    (d.modifyChildren r f).node = d.node := by
  funext x
  simp only [node, element, modifyChildren, List.getD_eq_getElem?_getD, List.getElem?_modify]
  cases d.elements[x]? with
  | none => rfl
  | some e => by_cases hx : r = x <;> simp [hx]

theorem children_modifyChildren_of_ne (d : Document) {r x : Ref} (h : x ≠ r) (f : List Ref → List Ref) :
    (d.modifyChildren r f).children x = d.children x := by
  simp [children, element, modifyChildren, List.getD_eq_getElem?_getD, Ne.symm h]

theorem children_modifyChildren_self {d : Document} {r : Ref} (h : r < d.size) (f : List Ref → List Ref) :
    (d.modifyChildren r f).children r = f (d.children r) := by
  rw [size] at h
  simp [children, element, modifyChildren, List.getD_eq_getElem?_getD, h]

theorem apply_node_setSize {α : Type} {g : Node → α} (hwidth : ∀ n v, g (n.setStyle "width".toList v) = g n)
    (hheight : ∀ n v, g (n.setStyle "height".toList v) = g n) (d : Document) (r x : Ref) (width height : Json) :
    g ((d.setSize r width height).node x) = g (d.node x) :=
  apply_node_modifyNode (fun n => (hheight _ _).trans (hwidth n _)) d r x

theorem showsSize_setSize {d : Document} {r : Ref} (h : r < d.size) (width height : Json) :
    (d.setSize r width height).ShowsSize r width height := by
  rw [ShowsSize, setSize, node_modifyNode_self h]
  exact ⟨(Pairs.get?_put_of_ne (by decide) _ _).trans (Pairs.get?_put_self _ _ _), Pairs.get?_put_self _ _ _⟩

end Document

/-! ## Requests -/

inductive Request where
  | build (body : Text)
  | minify
  | extend
  | close
  | reappear
  | kill
  | setTitle (title : Json)
  | setWidth (width : Json)
  | setHeight (height : Json)
  | setMinWidth (minWidth : Json)
  | setMinHeight (minHeight : Json)
  | setParent (parent : Ref)
  | setHandler (occasion : Occasion) (h : Handler)

def Request.step (w : Window) (d : Document) : Request → WindowStep
  | build body => w.build d body
  | minify => w.minify d
  | extend => w.extend d
  | close => w.close d
  | reappear => w.reappear d
  | kill => w.kill d
  | setTitle title => w.setTitle d title
  | setWidth width => w.setWidth d width
  | setHeight height => w.setHeight d height
  | setMinWidth minWidth => .done (w.setMinWidth minWidth) d
  | setMinHeight minHeight => .done (w.setMinHeight minHeight) d
  | setParent parent => .done (w.setParent parent) d
  | setHandler occasion h => .done (w.setHandler occasion h) d

/-- What may come of an operation on a window that was built as the element `r`. -/
inductive Effect (w : Window) (r : Ref) (d : Document) : WindowStep → Prop
  | refused (f : Failure) : Effect w r d (.failed w d f)
  | kept : Effect w r d (.done w d)
  | minified (living : w.killed = false) (status : w.status = .normal) :
      Effect w r d (.calling { w with status := .minimized } (d.setSize r w.minWidth w.minHeight) .minify)
  | extended (living : w.killed = false) (status : w.status = .minimized) :
      Effect w r d (.calling { w with status := .normal } (d.setSize r w.width w.height) .extension)
  | closed (living : w.killed = false) (shown : ¬ d.IsHidden r) :
      Effect w r d (.calling w (Window.display d r "none") .close)
  | reappeared (living : w.killed = false) (hidden : d.IsHidden r) :
      Effect w r d (.done w (Window.display d r "block"))
  | removed (living : w.killed = false) (child : r ∈ d.children w.builder.container) :
      Effect w r d
        (.calling { w with killed := true } (d.modifyChildren w.builder.container (·.erase r)) .kill)
  | titled (title : Text) {t : Ref} {rest : List Ref} (found : d.findByClass r "window-title".toList = t :: rest) :
      Effect w r d
        (.done { w with title } (d.modifyNode t fun n => { n with text := Window.titleText { w with title } }))
  | untitled (title : Text) (missing : d.findByClass r "window-title".toList = []) :
      Effect w r d (.failed { w with title } d (.window .builtIncorrectly))
  | widened (width : Json) : Effect w r d (.done { w with width } (w.showSize d "width" width))
  | heightened (height : Json) : Effect w r d (.done { w with height } (w.showSize d "height" height))
  | adjusted (minWidth minHeight : Json) (parent : Ref) (onMinify onExtension onClose onKill : Option Handler) :
      Effect w r d (.done { w with minWidth, minHeight, parent, onMinify, onExtension, onClose, onKill } d)

namespace Window

variable {w : Window} {r : Ref}

theorem apply_node_showSize {α : Type} {g : Node → α} {side : String}
    (h : ∀ n v, g (n.setStyle side.toList v) = g n) (w : Window) (d : Document) (size : Json) (x : Ref) :
    g ((w.showSize d side size).node x) = g (d.node x) := by
  rw [showSize]
  split
  · exact Document.apply_node_modifyNode (fun n => h n _) d _ x
  · rfl

theorem living_of_killed (hnode : w.node = some r) (hkilled : w.killed = true) : w.living = .error .killed := by
  rw [living, hnode, hkilled]
  rfl

theorem living_of_not_killed (hnode : w.node = some r) (hkilled : w.killed = false) : w.living = .ok r := by
  rw [living, hnode, hkilled]
  rfl

theorem isClosed_of_not_killed (hnode : w.node = some r) (hkilled : w.killed = false) (d : Document) :
    w.isClosed d = .ok (decide (d.IsHidden r)) := by
  rw [isClosed, living_of_not_killed hnode hkilled]
  rfl

theorem refused_of_killed (hnode : w.node = some r) (hkilled : w.killed = true) (d : Document) :
    w.minify d = .failed w d (.window .killed) ∧ w.extend d = .failed w d (.window .killed) ∧
      w.close d = .failed w d (.window .killed) ∧ w.reappear d = .failed w d (.window .killed) ∧
      w.kill d = .failed w d (.window .killed) ∧ w.isClosed d = .error .killed := by
  have hliving := living_of_killed hnode hkilled
  simp only [minify, extend, close, reappear, kill, isClosed, hliving, Except.map, and_self]

theorem effect_minify (hnode : w.node = some r) (d : Document) : Effect w r d (w.minify d) := by
  cases hkilled : w.killed with
  | true => exact (refused_of_killed hnode hkilled d).1 ▸ .refused _
  | false =>
      rw [minify, living_of_not_killed hnode hkilled]
      cases hstatus : w.status with
      | minimized => exact .kept
      | normal => exact .minified hkilled hstatus

theorem effect_extend (hnode : w.node = some r) (d : Document) : Effect w r d (w.extend d) := by
  cases hkilled : w.killed with
  | true => exact (refused_of_killed hnode hkilled d).2.1 ▸ .refused _
  | false =>
      rw [extend, living_of_not_killed hnode hkilled]
      cases hstatus : w.status with
      | normal => exact .kept
      | minimized => exact .extended hkilled hstatus

theorem effect_close (hnode : w.node = some r) (d : Document) : Effect w r d (w.close d) := by
  cases hkilled : w.killed with
  | true => exact (refused_of_killed hnode hkilled d).2.2.1 ▸ .refused _
  | false =>
      rw [close, living_of_not_killed hnode hkilled, isClosed_of_not_killed hnode hkilled]
      by_cases hhidden : d.IsHidden r
      · rw [decide_eq_true hhidden]
        exact .kept
      · rw [decide_eq_false hhidden]
        exact .closed hkilled hhidden

theorem effect_reappear (hnode : w.node = some r) (d : Document) : Effect w r d (w.reappear d) := by
  cases hkilled : w.killed with
  | true => exact (refused_of_killed hnode hkilled d).2.2.2.1 ▸ .refused _
  | false =>
      rw [reappear, living_of_not_killed hnode hkilled, isClosed_of_not_killed hnode hkilled]
      by_cases hhidden : d.IsHidden r
      · rw [decide_eq_true hhidden]
        exact .reappeared hkilled hhidden
      · rw [decide_eq_false hhidden]
        exact .kept

theorem kill_of_not_killed (hnode : w.node = some r) (hkilled : w.killed = false) (d : Document) :
    w.kill d =
      if r ∈ d.children w.builder.container then
        .calling { w with killed := true } (d.modifyChildren w.builder.container (·.erase r)) .kill
      else .failed w d (.notAChild (notAChildMessage d w.builder.container r)) := by
  rw [kill, living_of_not_killed hnode hkilled]
  by_cases hchild : r ∈ d.children w.builder.container
  · simp only [Document.removeChild?, if_pos hchild]
  · simp only [Document.removeChild?, if_neg hchild]

theorem effect_kill (hnode : w.node = some r) (d : Document) : Effect w r d (w.kill d) := by
  cases hkilled : w.killed with
  | true => exact (refused_of_killed hnode hkilled d).2.2.2.2.1 ▸ .refused _
  | false =>
      rw [kill_of_not_killed hnode hkilled]
      split
      · next hchild => exact .removed hkilled hchild
      · exact .refused _

theorem setTitle_of_shown (hnode : w.node = some r) {d d' : Document} {title : Json} {text : Text}
    (htitle : titleOf title = .ok text) (hshown : Window.applyTitle { w with title := text } d r = .ok d') :
    w.setTitle d title = .done { w with title := text } d' := by
  simp only [hnode] at hshown
  simp only [setTitle, htitle, hnode, hshown]

theorem setTitle_of_not_shown (hnode : w.node = some r) {d : Document} {title : Json} {text : Text}
    (htitle : titleOf title = .ok text) {f : WindowFault}
    (hshown : Window.applyTitle { w with title := text } d r = .error f) :
    w.setTitle d title = .failed { w with title := text } d (.window f) := by
  simp only [hnode] at hshown
  simp only [setTitle, htitle, hnode, hshown]

theorem effect_setTitle (hnode : w.node = some r) (d : Document) (title : Json) :
    Effect w r d (w.setTitle d title) := by
  cases htitle : titleOf title with
  | error f =>
      rw [setTitle, htitle]
      exact .refused _
  | ok text =>
      cases hfound : d.findByClass r "window-title".toList with
      | nil =>
          rw [setTitle_of_not_shown hnode htitle (by rw [applyTitle, hfound])]
          exact .untitled text hfound
      | cons t rest =>
          rw [setTitle_of_shown hnode htitle (by rw [applyTitle, hfound])]
          exact .titled text hfound

end Window

/-- What a request does to a window that is built. -/
theorem Request.effect {w : Window} {r : Ref} (hnode : w.node = some r) (d : Document) (q : Request) :
    Effect w r d (q.step w d) := by
  cases q with
  | build body =>
      rw [step, Window.build, hnode]
      exact .refused _
  | minify => exact Window.effect_minify hnode d
  | extend => exact Window.effect_extend hnode d
  | close => exact Window.effect_close hnode d
  | reappear => exact Window.effect_reappear hnode d
  | kill => exact Window.effect_kill hnode d
  | setTitle title => exact Window.effect_setTitle hnode d title
  | setWidth width => exact .widened width
  | setHeight height => exact .heightened height
  | setMinWidth minWidth => exact .adjusted minWidth _ _ _ _ _ _
  | setMinHeight minHeight => exact .adjusted _ minHeight _ _ _ _ _
  | setParent parent => exact .adjusted _ _ parent _ _ _ _
  | setHandler occasion h =>
      cases occasion with
      | minify => exact .adjusted _ _ _ h _ _ _
      | extension => exact .adjusted _ _ _ _ h _ _
      | close => exact .adjusted _ _ _ _ _ h _
      | kill => exact .adjusted _ _ _ _ _ _ h

namespace Effect

variable {w : Window} {r : Ref} {d : Document} {s : WindowStep}

theorem built_eq (h : Effect w r d s) : s.window.node = w.node ∧ s.window.builder = w.builder := by
  cases h <;> exact ⟨rfl, rfl⟩

/-- A change of a node that leaves all but its style and its text as it is. -/
def Retouches (f : Node → Node) : Prop := ∀ n, ∃ style text, f n = { n with style, text }

theorem retouches_setStyle (property value : Text) : Retouches (·.setStyle property value) :=
  fun n => ⟨n.style.put property value, n.text, rfl⟩

/-- An operation changes one node, or the children of the element that the window was built into, or nothing. -/
theorem document_cases (h : Effect w r d s) :
    s.document = d ∨ (∃ x f, Retouches f ∧ s.document = d.modifyNode x f) ∨
      s.occasion = some .kill ∧ s.document = d.modifyChildren w.builder.container (·.erase r) := by
  have hsize : ∀ width height, ∃ x f, Retouches f ∧ d.setSize r width height = d.modifyNode x f :=
    fun width height => ⟨r, _, fun n => ⟨_, n.text, rfl⟩, rfl⟩
  have hside : ∀ side size,
      w.showSize d side size = d ∨ ∃ x f, Retouches f ∧ w.showSize d side size = d.modifyNode x f := by
    intro side size
    rw [Window.showSize]
    split
    · exact .inr ⟨_, _, retouches_setStyle _ _, rfl⟩
    · exact .inl rfl
  cases h with
  | refused f => exact .inl rfl
  | kept => exact .inl rfl
  | minified => exact .inr (.inl (hsize _ _))
  | extended => exact .inr (.inl (hsize _ _))
  | closed => exact .inr (.inl ⟨r, _, retouches_setStyle _ _, rfl⟩)
  | reappeared => exact .inr (.inl ⟨r, _, retouches_setStyle _ _, rfl⟩)
  | removed => exact .inr (.inr ⟨rfl, rfl⟩)
  | titled => exact .inr (.inl ⟨_, _, fun n => ⟨n.style, _, rfl⟩, rfl⟩)
  | untitled => exact .inl rfl
  | widened width => exact (hside "width" width).imp_right .inl
  | heightened height => exact (hside "height" height).imp_right .inl
  | adjusted => exact .inl rfl

/-- What does not depend on the style and the text of a node is the same after an operation. -/
theorem apply_node {α : Type} {g : Node → α} (hg : ∀ n style text, g { n with style, text } = g n)
    (h : Effect w r d s) (x : Ref) : g (s.document.node x) = g (d.node x) := by
  rcases h.document_cases with heq | ⟨y, f, hf, heq⟩ | ⟨-, heq⟩
  · rw [heq]
  · rw [heq]
    refine Document.apply_node_modifyNode (fun n => ?_) d y x
    obtain ⟨style, text, hn⟩ := hf n
    rw [hn, hg]
  · rw [heq, Document.node_modifyChildren]

theorem size_eq (h : Effect w r d s) : s.document.size = d.size := by
  rcases h.document_cases with heq | ⟨y, f, -, heq⟩ | ⟨-, heq⟩
  · rw [heq]
  · rw [heq, Document.size_modifyNode]
  · rw [heq, Document.size_modifyChildren]

/-- Only the element that the window was built into may lose a child, and only to `kill`. -/
theorem children_eq (h : Effect w r d s) {x : Ref} (hx : x = w.builder.container → s.occasion ≠ some .kill) :
    s.document.children x = d.children x := by
  rcases h.document_cases with heq | ⟨y, f, -, heq⟩ | ⟨hkill, heq⟩
  · rw [heq]
  · rw [heq, Document.children_modifyNode]
  · rw [heq, Document.children_modifyChildren_of_ne _ fun hcontainer => hx hcontainer hkill]

/-- An outline without the element that the window was built into is the same after an operation. -/
theorem hasOutline (h : Effect w r d s) {x : Ref} {o : Rose Ref} (ho : d.HasOutline x o)
    (hcontainer : w.builder.container ∉ o.preorder) : s.document.HasOutline x o where
  self_eq := ho.self_eq
  follows := ho.follows.congr fun y hy => (h.children_eq fun heq => absurd (heq ▸ hy) hcontainer).symm
  lt_size y hy := by
    rw [h.size_eq]
    exact ho.lt_size y hy

theorem children_subset (h : Effect w r d s) {x : Ref} (hx : x < d.size) : s.document.children x ⊆ d.children x := by
  rcases h.document_cases with heq | ⟨y, f, -, heq⟩ | ⟨-, heq⟩
  · rw [heq]
    exact List.Subset.refl _
  · rw [heq, Document.children_modifyNode]
    exact List.Subset.refl _
  · rw [heq]
    by_cases hcontainer : x = w.builder.container
    · subst hcontainer
      rw [Document.children_modifyChildren_self hx]
      exact List.erase_subset
    · rw [Document.children_modifyChildren_of_ne _ hcontainer]
      exact List.Subset.refl _

theorem exists_hasOutline (h : Effect w r d s) {x : Ref} {o : Rose Ref} (ho : d.HasOutline x o) :
    ∃ o, s.document.HasOutline x o :=
  ho.exists_of_children (Nat.le_of_eq h.size_eq.symm) fun _ hy _ hc => .inl (h.children_subset hy hc)

end Effect

end IndentMarkup
