import IndentMarkup.Proofs.Appearance
import IndentMarkup.Proofs.Faults

/-!
# Which windows are built, and as what

The lines of the chrome are always read, so a window is built exactly if every line of its body is
(`Window.build_failure_eq_none_iff`). What building adds to the document is `Desk.IsBuilt`: one new child of the parent,
whose elements show the lines of the template, with buttons that operate this window, and with a title that is text
and nothing else (`Desk.HasUnbuilt.isBuilt`).
-/

namespace IndentMarkup

/-- A line has no defect if it begins with a word character and its content has no reference that is too long. -/
theorem Line.defect?_eq_none_iff {l : Line} :
    l.defect? = none ↔ l.descriptor.head?.any isWord ∧ ∀ digits, l.defect? ≠ some (.referenceTooLong digits) := by
  rw [defect?]
  cases l.descriptor.head?.any isWord with
  | false => simp
  | true =>
      cases (LineGroups.ofText l.descriptor).text with
      | ok text => simp
      | error fault =>
          obtain ⟨digits⟩ := fault
          simp

theorem forall_isRead_congr {dialect : Dialect} {ks ls : List Line}
    (h : ks.map (·.descriptor) = ls.map (·.descriptor)) :
    (∀ k ∈ ks, k.IsRead dialect) ↔ ∀ l ∈ ls, l.IsRead dialect := by
  have hmap : ∀ lines : List Line, (∀ l ∈ lines, l.IsRead dialect) ↔
      ∀ s ∈ lines.map (·.descriptor), ∃ reading, readLine dialect.separator s = .ok reading := by
    intro lines
    rw [List.forall_mem_map]
    rfl
  rw [hmap, hmap, h]

namespace Document

/-! ## Changes of elements that are new -/

theorem GrowsAt.modifyNode {container : Ref} {roots : List Ref} {d d' : Document} (h : GrowsAt container roots d d')
    {r : Ref} (hr : d.size ≤ r) (f : Node → Node) : GrowsAt container roots d (d'.modifyNode r f) where
  size_le := by
    rw [size_modifyNode]
    exact h.size_le
  node_eq x hx := by
    rw [node_modifyNode_of_ne d' (Nat.ne_of_lt (Nat.lt_of_lt_of_le hx hr)), h.node_eq x hx]
  children_eq x hx hne := by
    rw [children_modifyNode]
    exact h.children_eq x hx hne
  children_container := by
    rw [children_modifyNode]
    exact h.children_container

theorem modifyNode_modifyNode (d : Document) (r : Ref) (f g : Node → Node) :
    (d.modifyNode r f).modifyNode r g = d.modifyNode r fun n => g (f n) := by
  rw [modifyNode, modifyNode, modifyNode, List.modify_modify_eq]
  rfl

theorem modifyNode_comm (d : Document) {r x : Ref} (h : r ≠ x) (f g : Node → Node) :
    (d.modifyNode r f).modifyNode x g = (d.modifyNode x g).modifyNode r f := by
  rw [modifyNode, modifyNode, modifyNode, modifyNode, List.modify_modify_ne _ _ _ h]

end Document

namespace Chrome

/-! ## Lines that are always read -/

theorem isRead_window {dialect : Dialect} (hseparator : dialect.separator ≠ []) {key : Text} (h : IsKey key) :
    (window key).IsRead dialect := by
  have hreading := Node.readLine_groups (Node.isWritable_bare h.isBareName dialect.registry) (by simp [Node.bare])
  rw [written_window] at hreading
  have hread : (window key).IsRead { dialect with separator := defaultSeparator } := ⟨_, hreading⟩
  rw [Line.isRead_iff_defect? hseparator]
  exact (Line.isRead_iff_defect? (List.cons_ne_nil _ _)).mp hread

theorem isRead_of_mem {dialect : Dialect} (hseparator : dialect.separator ≠ []) {l : Line}
    (hl : l ∈ upper ++ [body]) : l.IsRead dialect := by
  have hdefects : ∀ k ∈ upper ++ [body], k.defect? = none := by decide +kernel
  exact (Line.isRead_iff_defect? hseparator).mpr (hdefects l hl)

end Chrome

namespace Window

variable {w : Window} {d : Document} {body : Text}

/-! ## When a window is built -/

theorem fault_compiled_eq_none_iff (hseparator : w.builder.separator ≠ []) (hmarker : w.builder.marker = defaultMarker)
    (hkey : Chrome.IsKey w.key) :
    (w.compiled d body).fault = none ↔ ∀ l ∈ templateLines defaultMarker body, l.defect? = none := by
  obtain ⟨bodyLines, hblocks, hmoved⟩ := exists_blocksOf_template hmarker hkey body
  have hdescriptors := congrArg (List.map Prod.fst) hmoved
  rw [List.map_map, List.map_map] at hdescriptors
  have hcompiled : (w.compiled d body).fault = none ↔
      ∀ b ∈ blocksOf w.builder.marker (w.template body), ∀ l ∈ b.lines, l.IsRead w.builder.dialect :=
    compile_fault_eq_none_iff
  have hdefects : (∀ l ∈ templateLines defaultMarker body, l.IsRead w.builder.dialect) ↔
      ∀ l ∈ templateLines defaultMarker body, l.defect? = none :=
    forall₂_congr fun _ _ => Line.isRead_iff_defect? hseparator
  rw [hcompiled, hmarker, hblocks, List.forall_mem_singleton, ← hdefects, ← forall_isRead_congr hdescriptors]
  constructor
  · exact fun h l hl => h l (.tail _ (List.mem_append_right _ (.tail _ hl)))
  · intro h l hl
    rw [Block.lines, Chrome.block, List.append_cons, List.mem_cons, List.mem_append] at hl
    rcases hl with rfl | hl | hl
    · exact Chrome.isRead_window hseparator hkey
    · exact Chrome.isRead_of_mem hseparator hl
    · exact h l hl

theorem adopt_of_found {r t : Ref} {rest : List Ref} (hfound : d.findById? w.parent (some w.key) = some r)
    (htitle : d.findByClass r "window-title".toList = t :: rest) : (w.adopt d).failure = none := by
  simp only [adopt, hfound, applyTitle, htitle, WindowStep.done]

/-- A window whose template is compiled is found, and so it is built. -/
theorem build_failure_eq_none_iff (hnode : w.node = none) (hseparator : w.builder.separator = defaultSeparator)
    (hmarker : w.builder.marker = defaultMarker) (hmake : w.builder.makeNode = Node.ofTag)
    (hkey : Chrome.IsKey w.key) {o : Rose Ref} (hparent : d.HasOutline w.parent o)
    (hfree : d.findById? w.parent (some w.key) = none) :
    (w.build d body).failure = none ↔ ∀ l ∈ templateLines defaultMarker body, l.defect? = none := by
  rw [← fault_compiled_eq_none_iff (hseparator ▸ List.cons_ne_nil _ _) hmarker hkey]
  refine ⟨fun h => (fault_eq_none_of_build h).2, fun h => ?_⟩
  obtain ⟨bodyLines, place, later, -, -, -, -, -, hfound, htitle⟩ :=
    exists_shows_compiled hseparator hmarker hmake hkey hparent hfree h
  exact (build_of_fault_eq_none hnode h).2.2.trans (adopt_of_found hfound htitle)

/-! ## Other titles -/

theorem applySizes_modifyNode (w : Window) (d : Document) {r t : Ref} (h : t ≠ r) (f : Node → Node) :
    (w.applySizes d r).modifyNode t f = w.applySizes (d.modifyNode t f) r := by
  rw [applySizes, applySizes, Document.setSize, Document.setSize, Document.modifyNode_comm _ h.symm,
    Document.modifyNode_comm _ h.symm]

/-- A window with another title is built as well, and the text of the title element is all that is different. -/
theorem build_retitled {r t : Ref} {rest : List Ref} (hbuilt : (w.build d body).failure = none)
    (hfound : (w.compiled d body).document.findById? w.parent (some w.key) = some r)
    (htitle : (w.compiled d body).document.findByClass r "window-title".toList = t :: rest) (hne : t ≠ r)
    (title : Text) :
    (Window.build { w with title } d body).failure = none ∧
      (Window.build { w with title } d body).window.node = some r ∧
      (Window.build { w with title } d body).document = (w.build d body).document.modifyNode t fun n =>
        { n with text := Window.titleText { w with title } } := by
  obtain ⟨hnode, hfault⟩ := fault_eq_none_of_build hbuilt
  have hother : (Window.build { w with title } d body).failure = none :=
    (build_of_fault_eq_none (w := { w with title }) hnode hfault).2.2.trans (adopt_of_found hfound htitle)
  obtain ⟨-, r', t', rest', hr', ht', hwindow, hdocument⟩ := of_build_failure_eq_none hother
  obtain rfl := Option.some.inj (hr'.symm.trans hfound)
  obtain rfl := (List.cons.inj (ht'.symm.trans htitle)).1
  obtain ⟨-, r₀, t₀, rest₀, hr₀, ht₀, -, hdocument₀⟩ := of_build_failure_eq_none hbuilt
  obtain rfl := Option.some.inj (hr₀.symm.trans hfound)
  obtain rfl := (List.cons.inj (ht₀.symm.trans htitle)).1
  refine ⟨hother, by rw [hwindow], ?_⟩
  rw [hdocument, hdocument₀, applySizes_modifyNode _ _ hne, Document.modifyNode_modifyNode]
  rfl

end Window

namespace Desk

/-! ## The main result -/

theorem Operates.dispatch_click {desk : Desk} {i : Nat} {w : Window} {r : Ref} {button : WindowButton → Ref}
    (h : desk.Operates i w r button) (b : WindowButton) (event : Json) :
    desk.dispatch (button b) "click".toList event =
      ((desk.operate i fun w d => w.press d b).1, (desk.operate i fun w d => w.press d b).2.elim (.ok 1) .error) := by
  have hcall : desk.call event (b.binding i) = desk.operate i fun w d => w.press d b := by
    rw [call, b.callback_binding]
  simp only [dispatch, h.listens, callEach, hcall, operate_eq h.window]
  cases (w.press desk.document b).outcome <;> rfl

/-- A window of the desk is built: the lines of its template stand at places of the document, and the parent of the
window has got the place of its first line as one child more. -/
structure IsBuilt (desk : Desk) (i : Nat) (w : Window) (body : Text) (bodyLines : List Line) (place : Line → Ref) :
    Prop where
  blocks : blocksOf w.builder.marker (w.template body) = [Chrome.block w.key bodyLines]
  /-- The lines of the body, two levels deeper. -/
  moved : bodyLines.map (fun l => (l.descriptor, l.depth)) =
    (templateLines defaultMarker body).map fun l => (l.descriptor, l.depth + 2)
  shows : (w.build desk.document body).document.Shows w.shown [Chrome.block w.key bodyLines] place
  /-- The elements of the window are new. -/
  fresh : ∀ l ∈ [Chrome.block w.key bodyLines].flatMap Block.lines, desk.document.size ≤ place l
  /-- The elements that were there are the same, except for the new child of the parent. -/
  grows : Document.GrowsAt w.parent [place (Chrome.window w.key)] desk.document
    (w.build desk.document body).document
  /-- What was below the parent is unchanged. -/
  trees_eq : (desk.document.children w.parent).map (w.build desk.document body).document.tree =
    (desk.document.children w.parent).map desk.document.tree
  node : (w.build desk.document body).window.node = some (place (Chrome.window w.key))
  id : ((w.build desk.document body).document.node (place (Chrome.window w.key))).id = some w.key
  listeners : ∀ b : WindowButton,
    ((w.build desk.document body).document.node (place (Chrome.button b))).listeners = [b.binding i]
  /-- A click on a button is a call of the operation of this button. -/
  click : ∀ (b : WindowButton) (event : Json),
    let built := (desk.operate i fun w d => w.build d body).1
    built.dispatch (place (Chrome.button b)) "click".toList event =
      ((built.operate i fun w d => w.press d b).1, (built.operate i fun w d => w.press d b).2.elim (.ok 1) .error)
  text : ((w.build desk.document body).document.node (place Chrome.title)).text =
    if w.title.isEmpty then none else some w.title
  /-- Any other title makes the same document, up to the text of the title element. -/
  retitled : ∀ s title, titleOf (.str s) = .ok title →
    (Window.build { w with title } desk.document body).failure = none ∧
      (Window.build { w with title } desk.document body).document =
        (w.build desk.document body).document.modifyNode (place Chrome.title) fun n =>
          { n with text := if s.trim.isEmpty then none else some s.trim }

/-- Whatever bindings are registered besides those of its buttons, and whatever ids and classes are used in its body,
the elements that are found of a window are its own. -/
theorem HasUnbuilt.exists_isBuilt {desk : Desk} {i : Nat} {w : Window} (h : desk.HasUnbuilt i w)
    (hseparator : w.builder.separator = defaultSeparator) (hmarker : w.builder.marker = defaultMarker) {o : Rose Ref}
    (hparent : desk.document.HasOutline w.parent o)
    (hfree : desk.document.findById? w.parent (some w.key) = none) {body : Text}
    (hbuilt : (w.build desk.document body).failure = none) :
    ∃ bodyLines place, desk.IsBuilt i w body bodyLines place := by
  obtain ⟨hfault, r, t, rest, hr, ht, hwindow, hdocument⟩ := Window.of_build_failure_eq_none hbuilt
  obtain ⟨bodyLines, place, later, hblocks, hmoved, hcompiled, hfresh, hgrows, hfound, htitle⟩ :=
    Window.exists_shows_compiled hseparator hmarker h.makeNode h.key hparent hfree hfault
  -- the elements that get the title and the sizes are those of the title line and of the first line
  obtain rfl := Option.some.inj (hr.symm.trans hfound)
  obtain rfl := (List.cons.inj (ht.symm.trans htitle)).1
  have hshows := Window.shows_applySizes hcompiled
  rw [← hdocument] at hshows
  have hwindowLine : Chrome.window w.key ∈ [Chrome.block w.key bodyLines].flatMap Block.lines :=
    Window.mem_block_upper (List.mem_cons_self ..)
  have htitleLine : Chrome.title ∈ [Chrome.block w.key bodyLines].flatMap Block.lines :=
    Window.mem_block_upper (by simp [Chrome.upper])
  have hnode : (w.build desk.document body).window.node = some (place (Chrome.window w.key)) := by rw [hwindow]
  have hbutton : ∀ b, ((w.build desk.document body).document.node (place (Chrome.button b))).listeners =
      ((Chrome.button b).node w.builder.dialect).listeners := by
    intro b
    rw [hshows.node_eq _ (Window.mem_block_upper (.tail _ (Chrome.button_mem_upper b)))]
    exact Window.apply_shown (g := Node.listeners) (fun _ _ _ => rfl) w _
  have hoperates := h.operates hbuilt (hmarker ▸ hblocks) hnode hbutton
  have hgrown : Document.GrowsAt w.parent [place (Chrome.window w.key)] desk.document
      (w.build desk.document body).document := by
    have hwindowFresh := hfresh _ hwindowLine
    rw [hdocument, Window.applySizes, Document.setSize]
    exact ((hgrows.modifyNode (hfresh _ htitleLine) _).modifyNode hwindowFresh _).modifyNode hwindowFresh _
  refine ⟨bodyLines, place, hmarker ▸ hblocks, hmoved, hshows, hfresh, hgrown,
    List.map_congr_left fun x hx => hgrown.tree_eq hparent hx, hnode, ?_, fun b => ?_, fun b event => ?_, ?_, ?_⟩
  · rw [hshows.node_eq _ hwindowLine, Window.apply_shown (g := Node.id) (fun _ _ _ => rfl),
      Chrome.node_window hseparator h.makeNode h.key]
    rfl
  · exact (hbutton b).trans (h.listeners_button hbuilt (hmarker ▸ hblocks) b)
  · rw [operate_eq h.window]
    exact hoperates.dispatch_click b event
  · rw [hshows.node_eq _ htitleLine, Window.text_shown_title, Window.titleText]
  · rintro s _ ⟨⟩
    have hne : place Chrome.title ≠ place (Chrome.window w.key) := fun heq =>
      Chrome.title_ne_window w.key (hshows.place_inj htitleLine hwindowLine heq)
    obtain ⟨hfailure, -, hretitled⟩ := Window.build_retitled hbuilt hfound htitle hne s.trim
    exact ⟨hfailure, hretitled⟩

/-- When a window is built, and as what. It is built exactly if every line of its body begins with a word character
and no content has a reference that is too long. Nothing else that may be found in the body or in the registry stands
in its way. -/
theorem HasUnbuilt.isBuilt {desk : Desk} {i : Nat} {w : Window} (h : desk.HasUnbuilt i w)
    (hseparator : w.builder.separator = defaultSeparator) (hmarker : w.builder.marker = defaultMarker) {o : Rose Ref}
    (hparent : desk.document.HasOutline w.parent o)
    (hfree : desk.document.findById? w.parent (some w.key) = none) (body : Text) :
    ((w.build desk.document body).failure = none ↔ ∀ l ∈ templateLines defaultMarker body,
      l.descriptor.head?.any isWord ∧ ∀ digits, l.defect? ≠ some (.referenceTooLong digits)) ∧
    (∀ l digits, Line.defect? l = some (.referenceTooLong digits) → digitLimit < digits ∧ ∃ run : Text,
      run.length = digits ∧ (∀ c ∈ run, c.isDigit) ∧ '&' :: '#' :: run <:+: l.descriptor) ∧
    ((w.build desk.document body).failure = none → ∃ bodyLines place, desk.IsBuilt i w body bodyLines place) := by
  refine ⟨?_, fun l _ => l.exists_of_defect?_eq_referenceTooLong,
    fun hbuilt => h.exists_isBuilt hseparator hmarker hparent hfree hbuilt⟩
  rw [Window.build_failure_eq_none_iff h.node hseparator hmarker h.makeNode h.key hparent hfree]
  exact forall₂_congr fun l _ => Line.defect?_eq_none_iff

def boundWindow : Window :=
  { Window.plainWindow with
    builder := { Window.plainWindow.builder with
      registry := (buttonRegistry 0).add ⟨3, "close".toList, "click".toList,
        .script ⟨"closing".toList, none, none⟩, .null⟩ } }

def boundDesk : Desk := { plainDesk with windows := [boundWindow] }

theorem hasUnbuilt_boundDesk : boundDesk.HasUnbuilt 0 boundWindow :=
  ⟨rfl, by decide +kernel, rfl, ⟨_, rfl⟩, rfl, rfl, rfl⟩

/-- The body has an element of the class of the title, and the name of a button is taken: the window is the only child
of its parent all the same, its title shows in the chrome, and a click on the button closes it. -/
theorem HasUnbuilt.isBuilt_bound : ∃ place : Line → Ref,
    let built := (boundDesk.operate 0 fun w d => w.build d "p.window-title\n>>b".toList).1
    built.document.children 0 = [place (Chrome.window boundWindow.key)] ∧
      (built.document.node (place Chrome.title)).text = some "Window".toList ∧
      ∀ event, (built.dispatch (place (Chrome.button .close)) "click".toList event).1 =
        (built.operate 0 fun w d => w.close d).1 := by
  have hparent : boundDesk.document.HasOutline 0 (.leaf 0) := ⟨rfl, .mk 0 [] rfl (by simp), by decide⟩
  obtain ⟨-, -, hbuilds⟩ := hasUnbuilt_boundDesk.isBuilt rfl rfl hparent (by decide +kernel)
    "p.window-title\n>>b".toList
  obtain ⟨bodyLines, place, hbuilt⟩ := hbuilds (by decide +kernel)
  have hdocument := document_operate hasUnbuilt_boundDesk.window fun w d => w.build d "p.window-title\n>>b".toList
  refine ⟨place, ?_, ?_, fun event => ?_⟩
  · rw [hdocument]
    exact hbuilt.grows.children_container
  · rw [hdocument]
    exact hbuilt.text
  · have hclick := hbuilt.click .close event
    have hpress : (fun (w : Window) d => w.press d .close) = fun w d => w.close d := rfl
    rw [hpress] at hclick
    rw [hclick]

end Desk

end IndentMarkup
