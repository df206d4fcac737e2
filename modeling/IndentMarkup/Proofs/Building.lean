import IndentMarkup.Proofs.Chrome

/-!
# What building a window makes

A window that is built is the last child of its parent. Its elements hang together as the lines of its template say,
and show the nodes of these lines, except that the title element has the title as its text and the element of the
window has the four sizes (`Window.exists_shows_build`).
-/

namespace IndentMarkup

namespace Document

/-! ## Finding elements -/

theorem HasOutline.walk_eq {d : Document} {r : Ref} {o : Rose Ref} (h : d.HasOutline r o) :
    d.walk r = o.preorder := by
  rw [walk, h.outline_eq]

theorem lt_size_of_findById? {d : Document} {r x : Ref} {o : Rose Ref} (h : d.HasOutline r o) {id : Option Text}
    (hfound : d.findById? r id = some x) : x < d.size := by
  rw [findById?, h.walk_eq] at hfound
  exact h.lt_size x (List.mem_of_find?_eq_some hfound)

/-- What is new below an element that gets a block as its last child are the places of the lines of this block. -/
theorem GrowsAt.walk_eq_of_shows {d d' : Document} {p : Ref} {content : Line → Node} {b : Block} {place : Line → Ref}
    (h : GrowsAt p [place b.root] d d') {o : Rose Ref} (ho : d.HasOutline p o) (hshows : d'.Shows content [b] place) :
    d'.walk p = d.walk p ++ (b.layout.map place).preorder := by
  obtain ⟨cs, rfl⟩ := ho.exists_children
  rw [(h.hasOutline_of_shows ho hshows).walk_eq, ho.walk_eq, Rose.preorder_node, Rose.preorder_node,
    List.flatMap_append, List.map_singleton, List.flatMap_singleton, List.cons_append]

theorem findById?_append {d : Document} {r x : Ref} {cs : List (Rose Ref)} {new : Rose Ref} {id : Text}
    (h : d.HasOutline r (.node r (cs ++ [new]))) (hself : new.self = x)
    (hold : ∀ y ∈ (Rose.node r cs).preorder, (d.node y).id ≠ some id) (hnew : (d.node x).id = some id) :
    d.findById? r (some id) = some x := by
  have hwalk : d.walk r = (Rose.node r cs).preorder ++ new.preorder := by
    rw [h.walk_eq, Rose.preorder_node, Rose.preorder_node, List.flatMap_append, List.flatMap_singleton,
      List.cons_append]
  have hfirst : ∃ rest, new.preorder = x :: rest := by
    obtain ⟨a, ds⟩ := new
    obtain rfl : a = x := hself
    exact ⟨_, Rose.preorder_node a ds⟩
  obtain ⟨rest, hrest⟩ := hfirst
  rw [findById?, hwalk, hrest, List.find?_append, List.find?_eq_none.mpr (by simpa using hold), Option.none_or,
    List.find?_cons_of_pos (by simpa using hnew)]

theorem id_ne_of_findById?_eq_none {d : Document} {r : Ref} {o : Rose Ref} (h : d.HasOutline r o) {id : Text}
    (hnone : d.findById? r (some id) = none) : ∀ x ∈ o.preorder, (d.node x).id ≠ some id := by
  rw [findById?, h.walk_eq] at hnone
  simpa using hnone

end Document

namespace Window

/-! ## What the elements show -/

def sized (w : Window) (n : Node) : Node :=
  (((n.setStyle "width".toList (sizeText w.width)).setStyle "height".toList (sizeText w.height)).setStyle
    "min-width".toList (sizeText w.minWidth)).setStyle "min-height".toList (sizeText w.minHeight)

/-- What the element of a line of the template shows once the window is built. -/
def shown (w : Window) (l : Line) : Node :=
  if l = Chrome.window w.key then w.sized (l.node w.builder.dialect)
  else if l = Chrome.title then { l.node w.builder.dialect with text := w.titleText }
  else l.node w.builder.dialect

def parentBuilder (w : Window) : Builder := { w.builder with container := w.parent }

def compiled (w : Window) (d : Document) (body : Text) : Compiled := w.parentBuilder.compile d (w.template body)

theorem of_adopt_failure_eq_none {w : Window} {d : Document} (h : (w.adopt d).failure = none) :
    ∃ r t rest, d.findById? w.parent (some w.key) = some r ∧ d.findByClass r "window-title".toList = t :: rest ∧
      (w.adopt d).window = { w with node := some r } ∧
      (w.adopt d).document = w.applySizes (d.modifyNode t fun n => { n with text := w.titleText }) r := by
  cases hr : d.findById? w.parent (some w.key) with
  | none => simp [adopt, hr, WindowStep.failed] at h
  | some r =>
      cases ht : d.findByClass r "window-title".toList with
      | nil => simp only [adopt, hr, applyTitle, ht, WindowStep.failed, reduceCtorEq] at h
      | cons t rest =>
          refine ⟨r, t, rest, rfl, ht, ?_, ?_⟩
          · simp only [adopt, hr, applyTitle, ht, WindowStep.done]
          · simp only [adopt, hr, applyTitle, ht, WindowStep.done]
            rfl

theorem build_of_fault_eq_none {w : Window} {d : Document} {body : Text} (hnode : w.node = none)
    (hfault : (w.compiled d body).fault = none) :
    (w.build d body).window =
        ({ w with builder := (w.compiled d body).builder }.adopt (w.compiled d body).document).window ∧
      (w.build d body).document =
        ({ w with builder := (w.compiled d body).builder }.adopt (w.compiled d body).document).document ∧
      (w.build d body).failure =
        ({ w with builder := (w.compiled d body).builder }.adopt (w.compiled d body).document).failure := by
  rw [compiled, parentBuilder] at hfault
  simp only [build, hnode, hfault]
  exact ⟨rfl, rfl, rfl⟩

theorem fault_eq_none_of_build {w : Window} {d : Document} {body : Text} (h : (w.build d body).failure = none) :
    w.node = none ∧ (w.compiled d body).fault = none := by
  cases hnode : w.node with
  | some r => simp [build, hnode, WindowStep.failed] at h
  | none =>
      cases hfault : (w.compiled d body).fault with
      | none => exact ⟨rfl, rfl⟩
      | some f =>
          rw [compiled, parentBuilder] at hfault
          simp [build, hnode, hfault, WindowStep.failed] at h

/-- A window is built if its template is compiled and both its element and its title element are found. -/
theorem of_build_failure_eq_none {w : Window} {d : Document} {body : Text} (h : (w.build d body).failure = none) :
    (w.compiled d body).fault = none ∧
      ∃ r t rest, (w.compiled d body).document.findById? w.parent (some w.key) = some r ∧
        (w.compiled d body).document.findByClass r "window-title".toList = t :: rest ∧
        (w.build d body).window = { w with builder := (w.compiled d body).builder, node := some r } ∧
        (w.build d body).document =
          w.applySizes ((w.compiled d body).document.modifyNode t fun n => { n with text := w.titleText }) r := by
  obtain ⟨hnode, hfault⟩ := fault_eq_none_of_build h
  obtain ⟨hwindow, hdocument, hfailure⟩ := build_of_fault_eq_none hnode hfault
  obtain ⟨r, t, rest, hr, ht, hadopted, happlied⟩ := of_adopt_failure_eq_none (hfailure ▸ h)
  exact ⟨hfault, r, t, rest, hr, ht, hwindow.trans hadopted, hdocument.trans happlied⟩

/-! ## The main result -/

section

variable {w : Window} {d : Document} {body : Text} {bodyLines : List Line} {place : Line → Ref}

theorem mem_block_upper {key : Text} {l : Line} (hl : l ∈ Chrome.window key :: Chrome.upper) :
    l ∈ [Chrome.block key bodyLines].flatMap Block.lines := by
  rw [List.flatMap_singleton, Block.lines, Chrome.block, ← List.cons_append]
  exact List.mem_append_left _ hl

/-- The first element of the title class is the one of the chrome. -/
theorem findByClass_title {dialect : Dialect} (hseparator : dialect.separator = defaultSeparator)
    (hmake : dialect.makeNode = Node.ofTag) {key : Text} (hkey : Chrome.IsKey key)
    (hnested : ∀ l ∈ (Chrome.block key bodyLines).children, l.depth ≠ 0) {content : Line → Node}
    (hclasses : ∀ l ∈ [Chrome.window key, Chrome.bar, Chrome.titleContainer, Chrome.title],
      (content l).classes = (l.node dialect).classes)
    (h : d.Shows content [Chrome.block key bodyLines] place) :
    ∃ rest, d.findByClass (place (Chrome.window key)) "window-title".toList = place Chrome.title :: rest := by
  obtain ⟨rest, hrest⟩ := Chrome.exists_preorder_layout hnested
  have houtline : d.HasOutline (place (Chrome.window key)) ((Chrome.block key bodyLines).layout.map place) :=
    h.hasOutline _ (List.mem_singleton_self _)
  have hnode : ∀ l ∈ [Chrome.window key, Chrome.bar, Chrome.titleContainer, Chrome.title],
      (d.node (place l)).classes = (l.node dialect).classes := by
    intro l hl
    have hupper : l ∈ Chrome.window key :: Chrome.upper :=
      (List.take_prefix 4 (Chrome.window key :: Chrome.upper)).subset hl
    exact (congrArg Node.classes (h.node_eq l (mem_block_upper hupper))).trans (hclasses l hl)
  have hwindow := (hnode (Chrome.window key) (by simp)).trans
    (congrArg Node.classes (Chrome.node_window hseparator hmake hkey))
  have hbar := (hnode Chrome.bar (by simp)).trans (congrArg Node.classes (Chrome.node_bar hseparator hmake))
  have hcontainer := (hnode Chrome.titleContainer (by simp)).trans
    (congrArg Node.classes (Chrome.node_titleContainer hseparator hmake))
  have htitle := (hnode Chrome.title (by simp)).trans (congrArg Node.classes (Chrome.node_title hseparator hmake))
  rw [Document.findByClass, houtline.walk_eq, Rose.preorder_map, hrest]
  simp only [List.map_cons]
  rw [List.filter_cons_of_neg (by rw [hwindow, Node.classes_bare]; decide),
    List.filter_cons_of_neg (by rw [hbar]; decide), List.filter_cons_of_neg (by rw [hcontainer]; decide),
    List.filter_cons_of_pos (by rw [htitle]; decide)]
  exact ⟨_, rfl⟩

/-- The element of the window has its key, which no other element below the parent has. -/
theorem findById?_key {d' : Document} {cs : List (Rose Ref)} (hparent : d.HasOutline w.parent (.node w.parent cs))
    (hfree : d.findById? w.parent (some w.key) = none) {content : Line → Node}
    (h : d'.Shows content [Chrome.block w.key bodyLines] place)
    (hid : (content (Chrome.window w.key)).id = some w.key)
    (hgrows : Document.GrowsAt w.parent [place (Chrome.window w.key)] d d') :
    d'.findById? w.parent (some w.key) = some (place (Chrome.window w.key)) := by
  have houtline := Document.GrowsAt.hasOutline_of_shows hgrows hparent h
  refine Document.findById?_append houtline (Block.self_map_layout _ place) (fun y hy => ?_) ?_
  · rw [hgrows.node_eq y (hparent.lt_size y hy)]
    exact Document.id_ne_of_findById?_eq_none hparent hfree y hy
  · rw [h.node_eq _ (mem_block_upper (List.mem_cons_self ..)), hid]

theorem shows_applySizes (h : d.Shows (Line.node w.builder.dialect) [Chrome.block w.key bodyLines] place) :
    (w.applySizes (d.modifyNode (place Chrome.title) fun n => { n with text := w.titleText })
      (place (Chrome.window w.key))).Shows w.shown [Chrome.block w.key bodyLines] place := by
  have htitle : Chrome.title ∈ [Chrome.block w.key bodyLines].flatMap Block.lines :=
    mem_block_upper (by simp [Chrome.upper])
  have hwindow : Chrome.window w.key ∈ [Chrome.block w.key bodyLines].flatMap Block.lines :=
    mem_block_upper (List.mem_cons_self ..)
  refine ((((h.modifyNode htitle _).modifyNode hwindow _).modifyNode hwindow _).congr fun l _ => ?_)
  rw [shown]
  by_cases hl : l = Chrome.window w.key
  · rw [if_pos hl, hl, Function.update_self, Function.update_self,
      Function.update_of_ne (Chrome.title_ne_window w.key).symm]
    rfl
  · rw [if_neg hl, Function.update_of_ne hl, Function.update_of_ne hl]
    by_cases hl' : l = Chrome.title
    · rw [if_pos hl', hl', Function.update_self]
    · rw [if_neg hl', Function.update_of_ne hl']

theorem exists_grows_compiled (hmarker : w.builder.marker = defaultMarker) (hkey : Chrome.IsKey w.key)
    (hparent : w.parent < d.size) (hfault : (w.compiled d body).fault = none) :
    ∃ bodyLines place, blocksOf defaultMarker (w.template body) = [Chrome.block w.key bodyLines] ∧
      bodyLines.map (fun l => (l.descriptor, l.depth)) =
        (templateLines defaultMarker body).map (fun l => (l.descriptor, l.depth + 2)) ∧
      (w.compiled d body).document.Shows (Line.node w.builder.dialect) [Chrome.block w.key bodyLines] place ∧
      (∀ l ∈ [Chrome.block w.key bodyLines].flatMap Block.lines, d.size ≤ place l) ∧
      Document.GrowsAt w.parent [place (Chrome.window w.key)] d (w.compiled d body).document := by
  obtain ⟨bodyLines, hblocks, hmoved⟩ := exists_blocksOf_template hmarker hkey body
  obtain ⟨place, hshows, hroots, hfresh⟩ := w.parentBuilder.exists_shows_compile hparent hfault
  have hgrows := w.parentBuilder.growsAt_compile (w.template body) hparent
  have hparentBlocks : blocksOf w.parentBuilder.marker (w.template body) = [Chrome.block w.key bodyLines] := by
    rw [← hblocks, ← hmarker]
    rfl
  rw [hparentBlocks] at hshows hroots hfresh
  rw [hroots] at hgrows
  exact ⟨bodyLines, place, hblocks, hmoved, hshows, hfresh, hgrows⟩

/-- The element and the title element of a window are found among those that are compiled. -/
theorem exists_shows_compiled (hseparator : w.builder.separator = defaultSeparator)
    (hmarker : w.builder.marker = defaultMarker) (hmake : w.builder.makeNode = Node.ofTag)
    (hkey : Chrome.IsKey w.key) {o : Rose Ref} (hparent : d.HasOutline w.parent o)
    (hfree : d.findById? w.parent (some w.key) = none) (hfault : (w.compiled d body).fault = none) :
    ∃ bodyLines place later, blocksOf defaultMarker (w.template body) = [Chrome.block w.key bodyLines] ∧
      bodyLines.map (fun l => (l.descriptor, l.depth)) =
        (templateLines defaultMarker body).map (fun l => (l.descriptor, l.depth + 2)) ∧
      (w.compiled d body).document.Shows (Line.node w.builder.dialect) [Chrome.block w.key bodyLines] place ∧
      (∀ l ∈ [Chrome.block w.key bodyLines].flatMap Block.lines, d.size ≤ place l) ∧
      Document.GrowsAt w.parent [place (Chrome.window w.key)] d (w.compiled d body).document ∧
      (w.compiled d body).document.findById? w.parent (some w.key) = some (place (Chrome.window w.key)) ∧
      (w.compiled d body).document.findByClass (place (Chrome.window w.key)) "window-title".toList =
        place Chrome.title :: later := by
  obtain ⟨cs, rfl⟩ := hparent.exists_children
  obtain ⟨bodyLines, place, hblocks, hmoved, hshows, hfresh, hgrows⟩ :=
    exists_grows_compiled hmarker hkey hparent.self_lt_size hfault
  have hid : ((Chrome.window w.key).node w.builder.dialect).id = some w.key := by
    rw [Chrome.node_window hseparator hmake hkey]
    rfl
  obtain ⟨later, htitle⟩ := findByClass_title hseparator hmake hkey (Chrome.depth_ne_zero_of_blocksOf hblocks)
    (fun _ _ => rfl) hshows
  exact ⟨bodyLines, place, later, hblocks, hmoved, hshows, hfresh, hgrows,
    findById?_key hparent hfree hshows hid hgrows, htitle⟩

theorem exists_fresh_shows_build (hseparator : w.builder.separator = defaultSeparator)
    (hmarker : w.builder.marker = defaultMarker) (hmake : w.builder.makeNode = Node.ofTag)
    (hkey : Chrome.IsKey w.key) {o : Rose Ref} (hparent : d.HasOutline w.parent o)
    (hfree : d.findById? w.parent (some w.key) = none) (hbuilt : (w.build d body).failure = none) :
    ∃ bodyLines place, blocksOf defaultMarker (w.template body) = [Chrome.block w.key bodyLines] ∧
      bodyLines.map (fun l => (l.descriptor, l.depth)) =
        (templateLines defaultMarker body).map (fun l => (l.descriptor, l.depth + 2)) ∧
      (w.build d body).window.node = some (place (Chrome.window w.key)) ∧
      (w.build d body).document.Shows w.shown [Chrome.block w.key bodyLines] place ∧
      ∀ l ∈ [Chrome.block w.key bodyLines].flatMap Block.lines, d.size ≤ place l := by
  obtain ⟨hfault, r, t, rest, hr, ht, hwindow, hdocument⟩ := of_build_failure_eq_none hbuilt
  obtain ⟨bodyLines, place, later, hblocks, hmoved, hshows, hfresh, -, hfound, htitle⟩ :=
    exists_shows_compiled hseparator hmarker hmake hkey hparent hfree hfault
  obtain rfl := Option.some.inj (hr.symm.trans hfound)
  obtain rfl := (List.cons.inj (ht.symm.trans htitle)).1
  refine ⟨bodyLines, place, hblocks, hmoved, ?_, ?_, hfresh⟩
  · rw [hwindow]
  · rw [hdocument]
    exact shows_applySizes hshows

theorem exists_shows_build (hseparator : w.builder.separator = defaultSeparator)
    (hmarker : w.builder.marker = defaultMarker) (hmake : w.builder.makeNode = Node.ofTag)
    (hkey : Chrome.IsKey w.key) {o : Rose Ref} (hparent : d.HasOutline w.parent o)
    (hfree : d.findById? w.parent (some w.key) = none) (hbuilt : (w.build d body).failure = none) :
    ∃ bodyLines place, blocksOf defaultMarker (w.template body) = [Chrome.block w.key bodyLines] ∧
      bodyLines.map (fun l => (l.descriptor, l.depth)) =
        (templateLines defaultMarker body).map (fun l => (l.descriptor, l.depth + 2)) ∧
      (w.build d body).window.node = some (place (Chrome.window w.key)) ∧
      (w.build d body).document.Shows w.shown [Chrome.block w.key bodyLines] place := by
  obtain ⟨bodyLines, place, hblocks, hmoved, hnode, hshows, -⟩ :=
    exists_fresh_shows_build hseparator hmarker hmake hkey hparent hfree hbuilt
  exact ⟨bodyLines, place, hblocks, hmoved, hnode, hshows⟩

end

end Window

end IndentMarkup
