import IndentMarkup.Proofs.Buttons

/-!
# What a window shows

Whatever happens to a window after it is built, its title element shows its title and its element shows its size
(`Desk.HasUnbuilt.shows_fields`). While the window is minimized this size is frozen: it consists of the minimum sizes
that the window had when it was minimized, and none of the sizes that are set meanwhile shows.
-/

namespace IndentMarkup

namespace Document

variable {d : Document} {r : Ref} {width height : Json}

theorem ShowsSize.modifyNode (h : d.ShowsSize r width height) {f : Node → Node}
    (hwidth : ∀ n, (f n).style.get? "width".toList = n.style.get? "width".toList)
    (hheight : ∀ n, (f n).style.get? "height".toList = n.style.get? "height".toList) (x : Ref) :
    (d.modifyNode x f).ShowsSize r width height :=
  ⟨(apply_node_modifyNode (g := fun n => n.style.get? "width".toList) hwidth d x r).trans h.1,
    (apply_node_modifyNode (g := fun n => n.style.get? "height".toList) hheight d x r).trans h.2⟩

theorem ShowsSize.setWidth (h : d.ShowsSize r width height) (hr : r < d.size) (size : Json) :
    (d.modifyNode r (·.setStyle "width".toList (sizeText size))).ShowsSize r size height := by
  rw [ShowsSize, node_modifyNode_self hr]
  exact ⟨Pairs.get?_put_self _ _ _, (Pairs.get?_put_of_ne (by decide) _ _).trans h.2⟩

theorem ShowsSize.setHeight (h : d.ShowsSize r width height) (hr : r < d.size) (size : Json) :
    (d.modifyNode r (·.setStyle "height".toList (sizeText size))).ShowsSize r width size := by
  rw [ShowsSize, node_modifyNode_self hr]
  exact ⟨(Pairs.get?_put_of_ne (by decide) _ _).trans h.1, Pairs.get?_put_self _ _ _⟩

theorem ShowsSize.display (h : d.ShowsSize r width height) (x : Ref) (value : String) :
    (Window.display d x value).ShowsSize r width height :=
  h.modifyNode (fun _ => Pairs.get?_put_of_ne (by decide) _ _) (fun _ => Pairs.get?_put_of_ne (by decide) _ _) x

theorem ShowsSize.modifyChildren (h : d.ShowsSize r width height) (x : Ref) (f : List Ref → List Ref) :
    (d.modifyChildren x f).ShowsSize r width height := by
  rwa [ShowsSize, node_modifyChildren]

end Document

namespace Window

variable {w : Window} {r : Ref}

theorem showSize_of_normal (hnode : w.node = some r) (hstatus : w.status = .normal) (d : Document) (side : String)
    (size : Json) : w.showSize d side size = d.modifyNode r (·.setStyle side.toList (sizeText size)) := by
  rw [showSize, hnode, hstatus]

theorem showSize_of_minimized (hstatus : w.status = .minimized) (d : Document) (side : String) (size : Json) :
    w.showSize d side size = d := by
  rw [showSize, hstatus]
  cases w.node <;> rfl

end Window

namespace Effect

variable {w : Window} {r : Ref} {d : Document} {s : WindowStep}

theorem text_title (h : Effect w r d s) {t : Ref} {rest : List Ref} (ht : t < d.size)
    (hfound : d.findByClass r "window-title".toList = t :: rest) (htext : (d.node t).text = w.titleText) :
    (s.document.node t).text = s.window.titleText := by
  have hdisplay : ∀ value, ((Window.display d r value).node t).text = w.titleText := fun value =>
    (Document.apply_node_modifyNode (g := Node.text) (by exact fun _ => rfl) d r t).trans htext
  have hsize : ∀ width height, ((d.setSize r width height).node t).text = w.titleText := fun width height =>
    (Document.apply_node_setSize (g := Node.text) (fun _ _ => rfl) (fun _ _ => rfl) d r t width height).trans htext
  have hside : ∀ side size, ((w.showSize d side size).node t).text = w.titleText := fun side size =>
    (Window.apply_node_showSize (g := Node.text) (fun _ _ => rfl) w d size t).trans htext
  cases h with
  | refused f => exact htext
  | kept => exact htext
  | minified => exact hsize w.minWidth w.minHeight
  | extended => exact hsize w.width w.height
  | closed => exact hdisplay "none"
  | reappeared => exact hdisplay "block"
  | removed => exact (congrArg Node.text (congrFun (d.node_modifyChildren _ _) t)).trans htext
  | titled title found =>
      obtain ⟨rfl, -⟩ := List.cons.inj (hfound.symm.trans found)
      rw [WindowStep.done, Document.node_modifyNode_self ht]
  | untitled title missing => exact absurd (hfound.symm.trans missing) (List.cons_ne_nil t rest)
  | widened width => exact hside "width" width
  | heightened height => exact hside "height" height
  | adjusted => exact htext

/-- A window is at its own size and shows it, or is just minimized and shows its minimum size, or was minimized before
and shows the size that it showed. -/
inductive SizeShown (w : Window) (r : Ref) (d : Document) (s : WindowStep) : Prop
  | own (status : s.window.status = .normal) (size : s.document.ShowsSize r s.window.width s.window.height)
  | minimum (before : w.status = .normal) (status : s.window.status = .minimized)
      (size : s.document.ShowsSize r w.minWidth w.minHeight)
  | frozen (before : w.status = .minimized) (status : s.window.status = .minimized)
      (size : ∀ width height, d.ShowsSize r width height → s.document.ShowsSize r width height)

theorem SizeShown.of_same (hsize : w.status = .normal → d.ShowsSize r w.width w.height)
    (hstatus : s.window.status = w.status) (hwidth : s.window.width = w.width) (hheight : s.window.height = w.height)
    (hsame : ∀ width height, d.ShowsSize r width height → s.document.ShowsSize r width height) :
    SizeShown w r d s := by
  cases hw : w.status with
  | normal => exact .own (hstatus.trans hw) (hwidth ▸ hheight ▸ hsame _ _ (hsize hw))
  | minimized => exact .frozen hw (hstatus.trans hw) hsame

/-- A side that is set shows at once, unless the window is minimized. -/
theorem SizeShown.of_side (hnode : w.node = some r) (side : String) (size width height : Json)
    (hown : w.status = .normal →
      (d.modifyNode r (·.setStyle side.toList (sizeText size))).ShowsSize r width height) :
    SizeShown w r d (.done { w with width, height } (w.showSize d side size)) := by
  have hcases : w.status = .normal ∨ w.status = .minimized := by cases w.status <;> simp
  rcases hcases with hw | hw
  · refine .own hw ?_
    rw [WindowStep.done, Window.showSize_of_normal hnode hw]
    exact hown hw
  · exact .frozen hw hw fun _ _ h => (Window.showSize_of_minimized hw d _ _).symm ▸ h

theorem sizeShown (h : Effect w r d s) (hr : r < d.size) (hnode : w.node = some r)
    (hsize : w.status = .normal → d.ShowsSize r w.width w.height) : SizeShown w r d s := by
  cases h with
  | refused f => exact .of_same hsize rfl rfl rfl fun _ _ => id
  | kept => exact .of_same hsize rfl rfl rfl fun _ _ => id
  | minified living status => exact .minimum status rfl (Document.showsSize_setSize hr _ _)
  | extended living status => exact .own rfl (Document.showsSize_setSize hr _ _)
  | closed living shown => exact .of_same hsize rfl rfl rfl fun _ _ h => h.display r "none"
  | reappeared living hidden => exact .of_same hsize rfl rfl rfl fun _ _ h => h.display r "block"
  | removed living child => exact .of_same hsize rfl rfl rfl fun _ _ h => h.modifyChildren _ _
  | titled title found =>
      exact .of_same hsize rfl rfl rfl fun _ _ h => h.modifyNode (by exact fun _ => rfl) (by exact fun _ => rfl) _
  | untitled title missing => exact .of_same hsize rfl rfl rfl fun _ _ => id
  | widened width => exact .of_side hnode "width" width width w.height fun hw => (hsize hw).setWidth hr width
  | heightened height => exact .of_side hnode "height" height w.width height fun hw => (hsize hw).setHeight hr height
  | adjusted => exact .of_same hsize rfl rfl rfl fun _ _ => id

end Effect

namespace Window

/-! ## Runs -/

/-- A window that is built as `r` shows its own size, while it is at this size. -/
structure ShowsOwnSize (w : Window) (d : Document) (r : Ref) : Prop where
  node : w.node = some r
  lt_size : r < d.size
  size : w.status = .normal → d.ShowsSize r w.width w.height

/-- The elements of a window also show its title, in the element `t`. The outline of the window is not met by what is
changed around it. -/
structure Displays (w : Window) (d : Document) (r t : Ref) (o : Rose Ref) : Prop extends ShowsOwnSize w d r where
  hasOutline : d.HasOutline r o
  container : w.builder.container ∉ o.preorder
  title : ∃ rest, d.findByClass r "window-title".toList = t :: rest
  text : (d.node t).text = w.titleText

variable {w : Window} {d : Document} {r t : Ref} {o : Rose Ref}

/-- A change of the children of the element that the window was built into is no operation of the window. -/
theorem ShowsOwnSize.sizeShown (h : w.ShowsOwnSize d r) (a : Action) : Effect.SizeShown w r d (a.step w d) := by
  rcases a.effect h.node d with heffect | ⟨change, hstep⟩
  · exact heffect.sizeShown h.lt_size h.node h.size
  · rw [hstep]
    exact .of_same h.size rfl rfl rfl fun _ _ hsize => hsize.modifyChildren _ _

theorem ShowsOwnSize.step (h : w.ShowsOwnSize d r) (a : Action) :
    (a.step w d).window.ShowsOwnSize (a.step w d).document r := by
  refine ⟨(a.built_eq h.node d).1.trans h.node, (a.size_eq h.node d).symm ▸ h.lt_size, fun hstatus => ?_⟩
  cases h.sizeShown a with
  | own _ hsize => exact hsize
  | minimum _ hminimized => simp [hminimized] at hstatus
  | frozen _ hminimized => simp [hminimized] at hstatus

theorem ShowsOwnSize.run (h : w.ShowsOwnSize d r) (actions : List Action) :
    (w.run d actions).1.ShowsOwnSize (w.run d actions).2 r := by
  exact run_invariant (P := fun w d => w.ShowsOwnSize d r) (fun _ _ a h => h.step a) h actions

/-- A minimized window shows the minimum sizes that it had when it was last minimized. -/
theorem ShowsOwnSize.frozen (h : w.ShowsOwnSize d r) (hnormal : w.status = .normal) (actions : List Action)
    (hminimized : (w.run d actions).1.status = .minimized) :
    ∃ before a later, actions = before ++ a :: later ∧ (w.run d before).1.status = .normal ∧
      (∀ mid, mid <+: later → (w.run d (before ++ a :: mid)).1.status = .minimized) ∧
      (w.run d actions).2.ShowsSize r (w.run d before).1.minWidth (w.run d before).1.minHeight := by
  -- the last action either minimizes the window or leaves it minimized
  induction actions using List.reverseRecOn with
  | nil => exact absurd (hnormal.symm.trans hminimized) (by decide)
  | append_singleton actions a ih =>
      have hlast : w.run d (actions ++ [a]) = ((a.step (w.run d actions).1 (w.run d actions).2).window,
          (a.step (w.run d actions).1 (w.run d actions).2).document) := run_append w d actions [a]
      rw [hlast] at hminimized ⊢
      cases (h.run actions).sizeShown a with
      | own hstatus => exact absurd (hstatus.symm.trans hminimized) (by decide)
      | minimum hbefore _ hsize =>
          refine ⟨actions, a, [], rfl, hbefore, fun mid hmid => ?_, hsize⟩
          rw [List.prefix_nil.mp hmid, hlast]
          exact hminimized
      | frozen hbefore _ hsize =>
          obtain ⟨before, first, later, rfl, hstatus, hlater, hshown⟩ := ih hbefore
          refine ⟨before, first, later ++ [a], by simp, hstatus, fun mid hmid => ?_, hsize _ _ hshown⟩
          rcases List.prefix_concat_iff.mp hmid with rfl | hmid
          · have heq : before ++ first :: (later ++ [a]) = before ++ first :: later ++ [a] := by simp
            rw [heq, hlast]
            exact hminimized
          · exact hlater mid hmid

theorem Displays.title_lt_size (h : w.Displays d r t o) : t < d.size := by
  obtain ⟨rest, htitle⟩ := h.title
  have hmem : t ∈ d.findByClass r "window-title".toList := htitle ▸ List.mem_cons_self
  rw [Document.findByClass, h.hasOutline.walk_eq] at hmem
  exact h.hasOutline.lt_size t (List.mem_filter.mp hmem).1

theorem Displays.step (h : w.Displays d r t o) (a : Action) :
    (a.step w d).window.Displays (a.step w d).document r t o := by
  have houtline := a.hasOutline h.node h.hasOutline h.container
  obtain ⟨rest, htitle⟩ := h.title
  refine ⟨h.toShowsOwnSize.step a, houtline, (a.built_eq h.node d).2 ▸ h.container, ⟨rest, ?_⟩, ?_⟩
  · rw [← htitle, Document.findByClass, Document.findByClass, houtline.walk_eq, h.hasOutline.walk_eq]
    refine List.filter_congr fun x _ => ?_
    rw [Action.apply_node (g := Node.classes) (fun _ _ _ => rfl) h.node d a x]
  · rcases a.effect h.node d with heffect | ⟨change, hstep⟩
    · exact heffect.text_title h.title_lt_size htitle h.text
    · rw [hstep]
      exact (congrArg Node.text (congrFun (d.node_modifyChildren _ _) t)).trans h.text

theorem Displays.run (h : w.Displays d r t o) (actions : List Action) :
    (w.run d actions).1.Displays (w.run d actions).2 r t o := by
  exact run_invariant (P := fun w d => w.Displays d r t o) (fun _ _ a h => h.step a) h actions

/-! ## Windows that are built -/

theorem apply_shown {α : Type} {g : Node → α} (hg : ∀ n style text, g { n with style, text } = g n) (w : Window)
    (l : Line) : g (w.shown l) = g (l.node w.builder.dialect) := by
  have hsized : ∀ n, g (w.sized n) = g n := fun n => hg n (w.sized n).style n.text
  have htitled : ∀ n, g { n with text := w.titleText } = g n := fun n => hg n n.style w.titleText
  rw [shown]
  split
  · exact hsized _
  · split
    · exact htitled _
    · rfl

theorem text_shown_title (w : Window) : (w.shown Chrome.title).text = w.titleText := by
  rw [shown, if_neg (Chrome.title_ne_window w.key), if_pos rfl]

theorem style_sized (w : Window) (n : Node) :
    (w.sized n).style.get? "width".toList = some (sizeText w.width) ∧
      (w.sized n).style.get? "height".toList = some (sizeText w.height) ∧
      (w.sized n).style.get? "min-width".toList = some (sizeText w.minWidth) ∧
      (w.sized n).style.get? "min-height".toList = some (sizeText w.minHeight) := by
  have hminimum : ∀ (name : Text) (style : Pairs Text), "min-width".toList ≠ name → "min-height".toList ≠ name →
      ((style.put "min-width".toList (sizeText w.minWidth)).put "min-height".toList (sizeText w.minHeight)).get? name =
        style.get? name := fun name style hwidth hheight =>
    (Pairs.get?_put_of_ne hheight _ _).trans (Pairs.get?_put_of_ne hwidth _ _)
  refine ⟨?_, ?_, ?_, Pairs.get?_put_self _ _ _⟩
  · exact (hminimum _ _ (by decide) (by decide)).trans
      ((Pairs.get?_put_of_ne (by decide) _ _).trans (Pairs.get?_put_self _ _ _))
  · exact (hminimum _ _ (by decide) (by decide)).trans (Pairs.get?_put_self _ _ _)
  · exact (Pairs.get?_put_of_ne (by decide) _ _).trans (Pairs.get?_put_self _ _ _)

theorem node_applySizes_self (w : Window) {d : Document} {r : Ref} (hr : r < d.size) :
    (w.applySizes d r).node r = w.sized (d.node r) := by
  rw [applySizes, Document.node_modifyNode_self (by rwa [Document.setSize, Document.size_modifyNode]),
    Document.setSize, Document.node_modifyNode_self hr]
  rfl

theorem exists_showsOwnSize_build {body : Text} {r : Ref} (hbuilt : (w.build d body).failure = none)
    (hnode : (w.build d body).window.node = some r) (hr : r < (w.build d body).document.size) :
    (w.build d body).window.ShowsOwnSize (w.build d body).document r ∧
      ∃ n, (w.build d body).document.node r = w.sized n := by
  obtain ⟨-, x, t, -, -, -, hwindow, hdocument⟩ := of_build_failure_eq_none hbuilt
  obtain rfl : x = r := by
    rw [hwindow] at hnode
    exact Option.some.inj hnode
  have hsized : ∃ n, (w.build d body).document.node x = w.sized n := by
    have hx : x < (w.compiled d body).document.size := by
      rwa [hdocument, applySizes, Document.setSize, Document.size_modifyNode, Document.size_modifyNode,
        Document.size_modifyNode] at hr
    rw [hdocument]
    exact ⟨_, w.node_applySizes_self (by rwa [Document.size_modifyNode])⟩
  obtain ⟨n, hn⟩ := hsized
  refine ⟨⟨hnode, hr, fun _ => ?_⟩, n, hn⟩
  rw [Document.ShowsSize, hn, hwindow]
  exact ⟨(w.style_sized n).1, (w.style_sized n).2.1⟩

theorem exists_displays_build {body : Text} {o : Rose Ref} (hseparator : w.builder.separator = defaultSeparator)
    (hmarker : w.builder.marker = defaultMarker) (hmake : w.builder.makeNode = Node.ofTag) (hkey : Chrome.IsKey w.key)
    (hparent : d.HasOutline w.parent o) (hfree : d.findById? w.parent (some w.key) = none)
    (hbuilt : (w.build d body).failure = none) :
    ∃ bodyLines place, blocksOf defaultMarker (w.template body) = [Chrome.block w.key bodyLines] ∧
      (w.build d body).document.Shows w.shown [Chrome.block w.key bodyLines] place ∧
      (w.build d body).window.Displays (w.build d body).document (place (Chrome.window w.key)) (place Chrome.title)
        ((Chrome.block w.key bodyLines).layout.map place) := by
  obtain ⟨bodyLines, place, hblocks, -, hnode, hshows, hfresh⟩ :=
    exists_fresh_shows_build hseparator hmarker hmake hkey hparent hfree hbuilt
  obtain ⟨-, r, -, -, -, -, hwindow, -⟩ := of_build_failure_eq_none hbuilt
  have hnested := Chrome.depth_ne_zero_of_blocksOf hblocks
  have hsize := (exists_showsOwnSize_build hbuilt hnode (hshows.lt_size (mem_block_upper (List.mem_cons_self ..)))).1
  refine ⟨bodyLines, place, hblocks, hshows, hsize, hshows.hasOutline _ (List.mem_singleton_self _), ?_,
    findByClass_title hseparator hmake hkey hnested
      (fun l _ => apply_shown (g := Node.classes) (fun _ _ _ => rfl) w l) hshows, ?_⟩
  · -- the elements of the window are new, and its parent is not
    have hcontainer : (w.build d body).window.builder.container = w.parent := by
      rw [hwindow]
      rfl
    rw [hcontainer, Rose.preorder_map]
    intro hmem
    obtain ⟨l, hl, hplace⟩ := List.mem_map.mp hmem
    have hlines : l ∈ [Chrome.block w.key bodyLines].flatMap Block.lines := by
      rw [List.flatMap_singleton]
      exact (preorder_layout_perm _).mem_iff.mp hl
    have hold := hparent.lt_size w.parent (hparent.self_eq ▸ Rose.self_mem_preorder o)
    exact Nat.lt_irrefl _ (Nat.lt_of_lt_of_le hold (hplace ▸ hfresh l hlines))
  · rw [hshows.node_eq _ (mem_block_upper (by simp [Chrome.upper])), text_shown_title, hwindow]
    rfl

end Window

namespace Desk

/-- The title and the size of a window always show. After a window is built, in any run of requests, clicks on its
buttons and changes of its surroundings, the title element has the title of the window as its text, or none if it is
empty. At its own size, the window shows its width and height. When it is minimized, there is a last action that
minimized it, and it shows the minimum sizes that were set by then. -/
theorem HasUnbuilt.shows_fields {desk : Desk} {i : Nat} {w : Window} (h : desk.HasUnbuilt i w)
    (hseparator : w.builder.separator = defaultSeparator) (hmarker : w.builder.marker = defaultMarker) {o : Rose Ref}
    (hparent : desk.document.HasOutline w.parent o)
    (hfree : desk.document.findById? w.parent (some w.key) = none) (body : Text)
    (hbuilt : (w.build desk.document body).failure = none) :
    ∃ (bodyLines : List Line) (place : Line → Ref),
      blocksOf w.builder.marker (w.template body) = [Chrome.block w.key bodyLines] ∧
      let run := (desk.operate i fun w d => w.build d body).1.after i fun b => place (Chrome.button b)
      (run []).document.Shows w.shown [Chrome.block w.key bodyLines] place ∧
      ∀ actions, ∃ w', (run actions).windows[i]? = some w' ∧ w'.node = some (place (Chrome.window w.key)) ∧
        ((run actions).document.node (place Chrome.title)).text =
          (if w'.title.isEmpty then none else some w'.title) ∧
        (w'.status = .normal →
          (run actions).document.ShowsSize (place (Chrome.window w.key)) w'.width w'.height) ∧
        (w'.status = .minimized → ∃ before a later w₀, actions = before ++ a :: later ∧
          (run before).windows[i]? = some w₀ ∧ w₀.status = .normal ∧
          (∀ mid, mid <+: later →
            ∃ w₁, (run (before ++ a :: mid)).windows[i]? = some w₁ ∧ w₁.status = .minimized) ∧
          (run actions).document.ShowsSize (place (Chrome.window w.key)) w₀.minWidth w₀.minHeight) := by
  obtain ⟨bodyLines, place, hblocks, hshows, hdisplays⟩ :=
    Window.exists_displays_build hseparator hmarker h.makeNode h.key hparent hfree hbuilt
  obtain ⟨-, r, -, -, -, -, hwindow, -⟩ := Window.of_build_failure_eq_none hbuilt
  have hbutton : ∀ b, ((w.build desk.document body).document.node (place (Chrome.button b))).listeners =
      ((Chrome.button b).node w.builder.dialect).listeners := by
    intro b
    rw [hshows.node_eq _ (Window.mem_block_upper (.tail _ (Chrome.button_mem_upper b)))]
    exact Window.apply_shown (g := Node.listeners) (fun _ _ _ => rfl) w _
  have hoperates := h.operates hbuilt (hmarker ▸ hblocks) hdisplays.node hbutton
  have hstatus : (w.build desk.document body).window.status = .normal := by
    rw [hwindow]
    exact h.status
  have hrun := fun actions => hoperates.after actions
  rw [operate_eq h.window]
  refine ⟨bodyLines, place, hmarker ▸ hblocks, hshows, fun actions => ?_⟩
  have hend := hdisplays.run actions
  refine ⟨_, (hrun actions).1.window, hend.node, ?_, ?_, fun hminimized => ?_⟩
  · rw [(hrun actions).2]
    exact hend.text
  · rw [(hrun actions).2]
    exact hend.size
  · obtain ⟨before, a, later, hactions, hbefore, hlater, hsize⟩ := hdisplays.frozen hstatus actions hminimized
    refine ⟨before, a, later, _, hactions, (hrun before).1.window, hbefore, fun mid hmid => ?_, ?_⟩
    · exact ⟨_, (hrun _).1.window, hlater mid hmid⟩
    · rw [(hrun actions).2]
      exact hsize

theorem HasUnbuilt.shows_fields_minimized :
    ∃ place : Line → Ref,
      let document := ((plainDesk.operate 0 fun w d => w.build d "p".toList).1.after 0
        (fun b => place (Chrome.button b)) [.request .minify]).document
      (document.node (place Chrome.title)).text = some "Window".toList ∧
        document.ShowsSize (place (Chrome.window Window.plainWindow.key)) (.int 300) (.int 100) := by
  have hparent : plainDesk.document.HasOutline 0 (.leaf 0) := ⟨rfl, .mk 0 [] rfl (by simp), by decide⟩
  have hbuilt : (Window.plainWindow.build plainDesk.document "p".toList).failure = none := by decide +kernel
  obtain ⟨bodyLines, place, -, -, hrun⟩ :=
    hasUnbuilt_plainDesk.shows_fields rfl rfl hparent (by decide +kernel) _ hbuilt
  obtain ⟨-, r, -, -, -, -, hwindow, -⟩ := Window.of_build_failure_eq_none hbuilt
  have hdesk := windows_operate hasUnbuilt_plainDesk.window fun w d => w.build d "p".toList
  rw [hwindow] at hdesk
  have hminify := windows_operate hdesk fun w d => Request.minify.step w d
  obtain ⟨w', hw', -, htext, -, hminimized⟩ := hrun [.request .minify]
  rw [after_request, hminify] at hw'
  obtain rfl := Option.some.inj hw'
  refine ⟨place, htext.trans rfl, ?_⟩
  obtain ⟨before, a, later, w₀, hactions, hw₀, -, -, hsize⟩ := hminimized rfl
  obtain rfl : before = [] := by
    cases before with
    | nil => rfl
    | cons first before => simp at hactions
  rw [after, List.foldl_nil, hdesk] at hw₀
  obtain rfl := Option.some.inj hw₀
  exact hsize

end Desk

end IndentMarkup
