import IndentMarkup.Proofs.BuiltWindow
import IndentMarkup.Proofs.Callbacks
import Mathlib.Data.List.Find

/-!
# What a failure leaves behind

Building a window may fail, and so may giving it a title. Neither changes an element that was there, but not every
failure is without a trace (`Window.History.failed`). The lines of the chrome are written with the default marker, so
that with another one the first line alone is compiled and stays in the parent. And a window may find an older element
with its key, which has no title to show.
-/

namespace IndentMarkup

/-! ## Windows with a history -/

/-- What the settings of a builder never lose. -/
structure Builder.IsSound (b : Builder) : Prop where
  separator : b.separator ≠ []
  makeNode : b.makeNode = Node.ofTag

/-- What a window and its document may become from when the window is made: requests are made of the window, its
builder is set, where a setting that is refused leaves it as it is, and classes of elements are changed. -/
inductive Window.History : Window → Document → Prop
  | made {desk : Desk} {i : Nat} {w : Window} {o : Rose Ref} (h : desk.HasUnbuilt i w)
      (separator : w.builder.separator = defaultSeparator) (marker : w.builder.marker = defaultMarker)
      (parent : desk.document.HasOutline w.parent o) : History w desk.document
  | request {w : Window} {d : Document} (h : History w d) (q : Request)
      (parent : ∀ p, q.parent? = some p → ∃ o, d.HasOutline p o) : History (q.step w d).window (q.step w d).document
  | separator {w : Window} {d : Document} (h : History w d) (symbol : Text) :
      History { w with builder := (w.builder.setSeparator symbol).toOption.getD w.builder } d
  | marker {w : Window} {d : Document} (h : History w d) (symbol : Text) :
      History { w with builder := (w.builder.setMarker symbol).toOption.getD w.builder } d
  | container {w : Window} {d : Document} (h : History w d) (container : Ref) :
      History { w with builder := { w.builder with container } } d
  | register {w : Window} {d : Document} (h : History w d) (entry : Registration) :
      History { w with builder := ((w.builder.register entry).toOption.map Prod.snd).getD w.builder } d
  | classes {w : Window} {d : Document} (h : History w d) (x : Ref) (change : List Text → List Text) :
      History w (d.modifyNode x fun n => { n with classes := change n.classes })

namespace Builder

variable {b : Builder}

theorem IsSound.setSeparator (h : b.IsSound) (symbol : Text) :
    ((b.setSeparator symbol).toOption.getD b).IsSound := by
  cases hset : b.setSeparator symbol with
  | error fault => exact h
  | ok b' =>
      obtain ⟨hsymbol, rfl⟩ := eq_of_setSeparator hset
      exact ⟨hsymbol, h.makeNode⟩

theorem IsSound.setMarker (h : b.IsSound) (symbol : Text) : ((b.setMarker symbol).toOption.getD b).IsSound := by
  cases hset : b.setMarker symbol with
  | error fault => exact h
  | ok b' =>
      obtain ⟨-, rfl⟩ := eq_of_setMarker hset
      exact ⟨h.separator, h.makeNode⟩

theorem IsSound.register (h : b.IsSound) (entry : Registration) :
    (((b.register entry).toOption.map Prod.snd).getD b).IsSound := by
  cases hset : b.register entry with
  | error fault => exact h
  | ok out =>
      obtain ⟨registry, heq⟩ := eq_of_register hset
      have hsound : Builder.IsSound { b with registry } := ⟨h.separator, h.makeNode⟩
      exact (heq ▸ hsound : out.2.IsSound)

end Builder

namespace Window

variable {w : Window} {d : Document} {body : Text}

/-! ## What building leaves -/

/-- A window that is not built takes its builder back from the compilation, and then it looks for its element. -/
theorem build_of_unbuilt (hnode : w.node = none) :
    w.build d body =
      match (w.compiled d body).fault with
      | some f =>
          { WindowStep.failed { w with builder := (w.compiled d body).builder } (w.compiled d body).document
            (.compile f) with records := (w.compiled d body).records }
      | none =>
          { adopt { w with builder := (w.compiled d body).builder } (w.compiled d body).document with
            records := (w.compiled d body).records ++
              (adopt { w with builder := (w.compiled d body).builder } (w.compiled d body).document).records } := by
  simp only [build, hnode]
  rfl

theorem build_of_fault (hnode : w.node = none) {f : CompileFault} (hfault : (w.compiled d body).fault = some f) :
    (w.build d body).window = { w with builder := (w.compiled d body).builder } ∧
      (w.build d body).document = (w.compiled d body).document := by
  rw [build_of_unbuilt hnode, hfault]
  exact ⟨rfl, rfl⟩

/-- A window may find no element, or one without a title element. Otherwise nothing fails. -/
theorem adopt_cases (w : Window) (d : Document) :
    (d.findById? w.parent (some w.key) = none ∧
        w.adopt d = .failed { w with node := none } d (.window .builtIncorrectly)) ∨
      (∃ r, d.findById? w.parent (some w.key) = some r ∧ d.findByClass r "window-title".toList = [] ∧
        w.adopt d = .failed { w with node := some r } d (.window .builtIncorrectly)) ∨
      (w.adopt d).failure = none := by
  cases hfound : d.findById? w.parent (some w.key) with
  | none =>
      refine .inl ⟨rfl, ?_⟩
      simp only [adopt, hfound]
  | some r =>
      refine .inr ?_
      cases htitle : d.findByClass r "window-title".toList with
      | nil =>
          refine .inl ⟨r, rfl, htitle, ?_⟩
          simp only [adopt, hfound, applyTitle, htitle]
      | cons t rest => exact .inr (adopt_of_found hfound htitle)

theorem hasOutline_adopt {x : Ref} {o : Rose Ref} (h : d.HasOutline x o) : (w.adopt d).document.HasOutline x o := by
  rcases w.adopt_cases d with ⟨-, heq⟩ | ⟨r, -, -, heq⟩ | hfailure
  · rw [heq]
    exact h
  · rw [heq]
    exact h
  · obtain ⟨r, t, -, -, -, -, hdocument⟩ := of_adopt_failure_eq_none hfailure
    rw [hdocument, applySizes, Document.setSize]
    exact ((h.modifyNode t _).modifyNode r _).modifyNode r _

theorem exists_hasOutline_build (hparent : w.parent < d.size) {x : Ref} {o : Rose Ref} (h : d.HasOutline x o) :
    ∃ o, (w.build d body).document.HasOutline x o := by
  cases hnode : w.node with
  | some r =>
      rw [build, hnode]
      exact ⟨o, h⟩
  | none =>
      obtain ⟨o', ho'⟩ := w.parentBuilder.exists_hasOutline_compile (w.template body) hparent h
      refine ⟨o', ?_⟩
      cases hfault : (w.compiled d body).fault with
      | some f =>
          rw [(build_of_fault hnode hfault).2]
          exact ho'
      | none =>
          rw [(build_of_fault_eq_none hnode hfault).2.1]
          exact hasOutline_adopt ho'

end Window

namespace Window

/-! ## What every step keeps -/

variable {w : Window} {d : Document}

/-- The key of a window can be written, its builder is sound, and its parent is an element of the document. -/
structure IsSound (w : Window) (d : Document) : Prop where
  key : Chrome.IsKey w.key
  builder : w.builder.IsSound
  parent : ∃ o, d.HasOutline w.parent o

theorem IsSound.parent_lt (h : w.IsSound d) : w.parent < d.size := by
  obtain ⟨o, ho⟩ := h.parent
  exact ho.self_lt_size

theorem IsSound.exists_hasOutline_step (h : w.IsSound d) (q : Request) {x : Ref} {o : Rose Ref}
    (ho : d.HasOutline x o) : ∃ o, (q.step w d).document.HasOutline x o := by
  cases hnode : w.node with
  | some r => exact (q.effect hnode d).exists_hasOutline ho
  | none =>
      by_cases hq : ∃ body, q = .build body
      · obtain ⟨body, rfl⟩ := hq
        exact exists_hasOutline_build h.parent_lt ho
      · rw [not_exists] at hq
        exact ⟨o, (Desk.step_of_unbuilt hnode d hq).1.symm ▸ ho⟩

theorem IsSound.step (h : w.IsSound d) (q : Request) (hparent : ∀ p, q.parent? = some p → ∃ o, d.HasOutline p o) :
    (q.step w d).window.IsSound (q.step w d).document := by
  obtain ⟨hkey, hset, -⟩ := q.settings_step w d
  have hbuilder : (q.step w d).window.builder.IsSound := by
    cases hnode : w.node with
    | some r => exact (q.effect hnode d).built_eq.2 ▸ h.builder
    | none =>
        by_cases hq : ∃ body, q = .build body
        · obtain ⟨body, rfl⟩ := hq
          obtain ⟨node, hwindow⟩ := Desk.exists_window_build hnode d body
          rw [Request.step, hwindow]
          exact ⟨h.builder.separator, h.builder.makeNode⟩
        · rw [not_exists] at hq
          exact (Desk.step_of_unbuilt hnode d hq).2.2.1 ▸ h.builder
  refine ⟨hkey ▸ h.key, hbuilder, ?_⟩
  rw [hset]
  cases hq : q.parent? with
  | some p =>
      obtain ⟨o, ho⟩ := hparent p hq
      exact h.exists_hasOutline_step q ho
  | none =>
      obtain ⟨o, ho⟩ := h.parent
      exact h.exists_hasOutline_step q ho

theorem History.isSound (h : History w d) : w.IsSound d := by
  induction h with
  | made h hseparator _ hparent =>
      exact ⟨h.key, ⟨hseparator ▸ List.cons_ne_nil _ _, h.makeNode⟩, _, hparent⟩
  | request _ q hparent ih => exact ih.step q hparent
  | separator _ symbol ih => exact ⟨ih.key, ih.builder.setSeparator symbol, ih.parent⟩
  | marker _ symbol ih => exact ⟨ih.key, ih.builder.setMarker symbol, ih.parent⟩
  | container _ container ih => exact ⟨ih.key, ⟨ih.builder.separator, ih.builder.makeNode⟩, ih.parent⟩
  | register _ entry ih => exact ⟨ih.key, ih.builder.register entry, ih.parent⟩
  | classes _ x change ih =>
      obtain ⟨o, ho⟩ := ih.parent
      exact ⟨ih.key, ih.builder, o, ho.modifyNode x _⟩

end Window

namespace Chrome

/-! ## With another marker -/

/-- The line of the bar as it is read with another marker than the default one: it is top-level. -/
def topLevelBar : Line := ⟨2, 0, ">div.window-bar".toList, ">div.window-bar".toList⟩

theorem not_isRead_topLevelBar (dialect : Dialect) : ¬ topLevelBar.IsRead dialect :=
  Line.not_isRead_of_tag (by decide +kernel)

theorem depthOf_window (marker key : Text) :
    depthOf marker ("div.window#".toList ++ key) = if marker = ['d'] then 1 else 0 := by
  change (('d' :: 'i' :: ("v.window#".toList ++ key)).takeWhile fun c => marker = [c]).length = _
  by_cases hmarker : marker = ['d']
  · simp [hmarker]
  · simp [hmarker]

theorem exists_ofPiece?_window {key : Text} (h : IsKey key) (marker : Text) :
    ∃ l, Line.ofPiece? marker 1 ("div.window#".toList ++ key) = some l ∧ (marker = ['d'] → l.depth ≠ 0) ∧
      (marker ≠ ['d'] → l = window key) := by
  have hwritable := Node.isWritable_bare h.isBareName .empty
  have hvisible := Node.isVisibleLine_groups hwritable
  have hentry := Node.lineEntry_written hwritable 0
  rw [Node.written_eq, List.replicate_zero, List.nil_append, written_window] at hentry
  rw [written_window] at hvisible
  refine ⟨_, ofPiece?_of_isVisibleLine hvisible marker 1, fun hmarker => ?_, fun hmarker => ?_⟩
  · change depthOf marker ("div.window#".toList ++ key) ≠ 0
    rw [depthOf_window, if_pos hmarker]
    exact Nat.one_ne_zero
  · have hsame : lineEntry marker ("div.window#".toList ++ key) =
        lineEntry defaultMarker ("div.window#".toList ++ key) := by
      rw [lineEntry, lineEntry, depthOf_window, depthOf_window, if_neg hmarker, if_neg (by decide)]
    rw [hsame, hentry]
    rfl

end Chrome

namespace Window

variable {w : Window} {d : Document}

/-- With another marker than the default one, the first line of the chrome is followed by a top-level line. -/
theorem exists_templateLines_of_marker (hkey : Chrome.IsKey w.key) (hmarker : w.builder.marker ≠ defaultMarker)
    (body : Text) {l : Line}
    (hl : Line.ofPiece? w.builder.marker 1 ("div.window#".toList ++ w.key) = some l) :
    ∃ rest, templateLines w.builder.marker (w.template body) = l :: Chrome.topLevelBar :: rest := by
  have hchrome : ∃ rest, templateLines w.builder.marker (chromeTemplate w.key) = l :: Chrome.topLevelBar :: rest := by
    rw [templateLines, Chrome.lines_chromeTemplate hkey, linesFrom, hl, chromeLines, List.map_cons, linesFrom,
      ofPiece?_bar hmarker]
    exact ⟨_, rfl⟩
  obtain ⟨rest, hrest⟩ := hchrome
  rw [template]
  split
  · exact ⟨rest, hrest⟩
  · rw [templateLines_append, hrest]
    exact ⟨_, rfl⟩

/-- The blocks that are compiled with another marker than the default one: that of the first line, if this line is
top-level, and then one that is not compiled. -/
theorem takeWhile_isRead_of_marker (h : w.IsSound d) (hmarker : w.builder.marker ≠ defaultMarker) (body : Text) :
    ((blocksOf w.builder.marker (w.template body)).takeWhile fun b => b.IsRead w.builder.dialect) =
      if w.builder.marker = ['d'] then [] else [⟨Chrome.window w.key, []⟩] := by
  obtain ⟨l, hl, hnested, htop⟩ := Chrome.exists_ofPiece?_window h.key w.builder.marker
  obtain ⟨rest, hlines⟩ := exists_templateLines_of_marker h.key hmarker body hl
  have hbar : ∀ nested, ¬ Block.IsRead w.builder.dialect ⟨Chrome.topLevelBar, nested⟩ := fun nested hread =>
    Chrome.not_isRead_topLevelBar _ (hread _ List.mem_cons_self)
  have hwindow : Block.IsRead w.builder.dialect ⟨Chrome.window w.key, []⟩ := by
    intro l hl
    obtain rfl := List.mem_singleton.mp hl
    exact Chrome.isRead_window h.builder.separator h.key
  rw [blocksOf, hlines]
  by_cases hd : w.builder.marker = ['d']
  · -- a nested first line belongs to no block
    rw [splitBlocks_cons_ne_zero (hnested hd), splitBlocks_cons_zero rfl, if_pos hd,
      List.takeWhile_cons_of_neg (by simpa using hbar _)]
  · rw [htop hd, splitBlocks_cons_zero rfl, splitBlocks_cons_zero rfl, if_neg hd,
      List.takeWhile_cons_of_pos (by simpa using hwindow), List.takeWhile_cons_of_neg (by simpa using hbar _)]

/-! ## What is compiled -/

/-- The trees of the blocks in front of the first one that is not compiled are what is added to the parent. -/
theorem document_compiled (w : Window) (d : Document) (body : Text) :
    let trees := ((blocksOf w.builder.marker (w.template body)).takeWhile fun b => b.IsRead w.builder.dialect).map
      fun b => b.layout.map (Line.node w.builder.dialect)
    (w.compiled d body).document = (d.mountAll trees).1.appendChildren w.parent (d.mountAll trees).2 := by
  intro trees
  have htrees : (IndentMarkup.compile w.builder.dialect (w.template body)).roots = trees :=
    (compile_eq w.builder.dialect (w.template body)).2.1
  rw [← htrees]
  rfl

theorem document_compiled_of_nil {body : Text}
    (h : ((blocksOf w.builder.marker (w.template body)).takeWhile fun b => b.IsRead w.builder.dialect) = []) :
    (w.compiled d body).document = d := by
  rw [document_compiled, h]
  exact d.appendChildren_nil w.parent

theorem document_compiled_of_marker (h : w.IsSound d) (hmarker : w.builder.marker ≠ defaultMarker) (body : Text) :
    (w.compiled d body).document =
      if w.builder.marker = ['d'] then d
      else (d.insert ⟨(Chrome.window w.key).node w.builder.dialect, []⟩).1.appendChildren w.parent [d.size] := by
  have hblocks := takeWhile_isRead_of_marker h hmarker body
  by_cases hd : w.builder.marker = ['d']
  · rw [if_pos hd] at hblocks ⊢
    exact document_compiled_of_nil hblocks
  · rw [if_neg hd] at hblocks ⊢
    rw [document_compiled, hblocks, List.map_singleton, Block.layout, List.map_nil, Rose.assemble_nil, Rose.map_leaf]
    rfl

end Window

/-! ## With another separator -/

theorem Line.node_of_no_attributes {l : Line} (h : (LineGroups.ofText l.descriptor).attributes = .absent)
    (dialect : Dialect) (separator : Text) : l.node { dialect with separator } = l.node dialect := by
  have hread : ∀ separator, readLine separator l.descriptor = readLine defaultSeparator l.descriptor := by
    intro separator
    simp [readLine, LineGroups.read, LineGroups.hasItems, LineGroups.items, LineGroups.attributeDiagnostics, h]
  rw [node, descriptorNode, node, descriptorNode, hread, hread dialect.separator]
  rfl

theorem Chrome.node_separator {key : Text} (h : IsKey key) (dialect : Dialect) (separator : Text) {l : Line}
    (hl : l ∈ [window key, bar, titleContainer, title]) : l.node { dialect with separator } = l.node dialect := by
  refine Line.node_of_no_attributes ?_ dialect separator
  simp only [List.mem_cons, List.not_mem_nil, or_false] at hl
  rcases hl with rfl | rfl | rfl | rfl
  · have hwritten := LineGroups.ofText_written (Node.isWritable_bare h.isBareName .empty).isRegular
    rw [written_window] at hwritten
    exact congrArg LineGroups.attributes hwritten
  · exact (by decide +kernel : (LineGroups.ofText bar.descriptor).attributes = .absent)
  · exact (by decide +kernel : (LineGroups.ofText titleContainer.descriptor).attributes = .absent)
  · exact (by decide +kernel : (LineGroups.ofText title.descriptor).attributes = .absent)

namespace Window

variable {w : Window} {d : Document} {body : Text}

/-! ## With the default marker -/

theorem document_compiled_of_defect (h : w.IsSound d) (hmarker : w.builder.marker = defaultMarker)
    (hfault : (w.compiled d body).fault ≠ none) : (w.compiled d body).document = d := by
  obtain ⟨bodyLines, hblocks, -⟩ := exists_blocksOf_template hmarker h.key body
  rw [← hmarker] at hblocks
  refine document_compiled_of_nil ?_
  rw [hblocks, List.takeWhile_cons_of_neg]
  rw [decide_eq_true_iff]
  intro hread
  refine hfault (compile_fault_eq_none_iff.mpr fun b hb => ?_)
  obtain rfl := List.mem_singleton.mp (hblocks ▸ hb : b ∈ [Chrome.block w.key bodyLines])
  exact hread

theorem findById?_of_grows {d' : Document} {place : Line → Ref} {content : Line → Node} {b : Block} {r p : Ref}
    {o : Rose Ref} (hparent : d.HasOutline p o) (hshows : d'.Shows content [b] place)
    (hgrows : Document.GrowsAt p [place b.root] d d') {id : Option Text} (hfound : d.findById? p id = some r) :
    d'.findById? p id = some r := by
  have hold : (d.walk p).find? (fun x => (d'.node x).id = id) = (d.walk p).find? fun x => (d.node x).id = id := by
    refine List.find?_congr fun x hx => ?_
    rw [hgrows.node_eq x (hparent.lt_size x (hparent.walk_eq ▸ hx))]
  rw [Document.findById?, hgrows.walk_eq_of_shows hparent hshows, List.find?_append, hold]
  exact congrArg (Option.or · _) hfound

/-- A window whose template is compiled is built, unless an older element with its key is found that has no title
element. -/
theorem exists_of_failed_adopt (h : w.IsSound d) (hnode : w.node = none) (hmarker : w.builder.marker = defaultMarker)
    (hfault : (w.compiled d body).fault = none) (hfailure : (w.build d body).failure ≠ none) :
    ∃ r x, d.findById? w.parent (some w.key) = some r ∧
      (w.build d body).document.findByClass r "window-title".toList = [] ∧
      (w.build d body).window = { w with builder := (w.compiled d body).builder, node := some r } ∧
      Document.GrowsAt w.parent [x] d (w.build d body).document := by
  obtain ⟨hwindow, hdocument, hadopted⟩ := build_of_fault_eq_none hnode hfault
  obtain ⟨o, hparent⟩ := h.parent
  obtain ⟨cs, rfl⟩ := hparent.exists_children
  obtain ⟨bodyLines, place, hblocks, -, hshows, -, hgrows⟩ := exists_grows_compiled hmarker h.key h.parent_lt hfault
  have hnodes : ∀ l ∈ [Chrome.window w.key, Chrome.bar, Chrome.titleContainer, Chrome.title],
      l.node { w.builder.dialect with separator := defaultSeparator } = l.node w.builder.dialect :=
    fun l hl => Chrome.node_separator h.key w.builder.dialect defaultSeparator hl
  cases hold : d.findById? w.parent (some w.key) with
  | none =>
      -- the new element is found, and it has a title element
      have hid : ((Chrome.window w.key).node w.builder.dialect).id = some w.key := by
        rw [← hnodes _ List.mem_cons_self, Chrome.node_window rfl h.builder.makeNode h.key]
        rfl
      have hfound := findById?_key hparent hold hshows hid hgrows
      have hclasses : ∀ l ∈ [Chrome.window w.key, Chrome.bar, Chrome.titleContainer, Chrome.title],
          (l.node w.builder.dialect).classes =
            (l.node { w.builder.dialect with separator := defaultSeparator }).classes :=
        fun l hl => congrArg Node.classes (hnodes l hl).symm
      obtain ⟨later, htitle⟩ := findByClass_title (by exact rfl) (by exact h.builder.makeNode) h.key
        (Chrome.depth_ne_zero_of_blocksOf hblocks) hclasses hshows
      exact absurd (hadopted.trans (adopt_of_found hfound htitle)) hfailure
  | some r =>
      have hfound := findById?_of_grows hparent hshows hgrows hold
      rcases adopt_cases { w with builder := (w.compiled d body).builder } (w.compiled d body).document with
        ⟨hnone, -⟩ | ⟨x, hx, htitle, heq⟩ | hdone
      · exact absurd (hfound.symm.trans hnone) (Option.some_ne_none r)
      · obtain rfl := Option.some.inj (hfound.symm.trans hx)
        rw [heq, WindowStep.failed] at hwindow hdocument
        refine ⟨r, place (Chrome.window w.key), rfl, ?_, hwindow, ?_⟩
        · rw [hdocument]
          exact htitle
        · rw [hdocument]
          exact hgrows
      · exact absurd (hadopted.trans hdone) hfailure

/-! ## The main result -/

/-- What a build that fails leaves behind. -/
inductive FailedBuild (w : Window) (d : Document) (body : Text) (s : WindowStep) : Prop
  /-- The window is built already, and nothing is changed. -/
  | refused (node : w.node ≠ none) (window : s.window = w) (document : s.document = d)
  /-- Nothing is compiled, and only the builder of the window has been used. -/
  | untouched (node : w.node = none)
      (cause : w.builder.marker = ['d'] ∨
        w.builder.marker = defaultMarker ∧ ∃ l ∈ templateLines defaultMarker body, l.defect? ≠ none)
      (window : s.window = { w with builder := (w.compiled d body).builder }) (document : s.document = d)
  /-- The first line of the chrome is compiled alone, and its element stays in the parent. -/
  | strayed (node : w.node = none) (marker : w.builder.marker ≠ defaultMarker) (letter : w.builder.marker ≠ ['d'])
      (window : s.window = { w with builder := (w.compiled d body).builder })
      (document : s.document =
        (d.insert ⟨(Chrome.window w.key).node w.builder.dialect, []⟩).1.appendChildren w.parent [d.size])
  /-- All is compiled, but the element that is found is an older one, which has no title element. -/
  | mistaken (node : w.node = none) (marker : w.builder.marker = defaultMarker)
      (lines : ∀ l ∈ templateLines defaultMarker body, l.defect? = none) (r x : Ref)
      (older : d.findById? w.parent (some w.key) = some r)
      (untitled : s.document.findByClass r "window-title".toList = [])
      (window : s.window = { w with builder := (w.compiled d body).builder, node := some r })
      (document : Document.GrowsAt w.parent [x] d s.document)

theorem IsSound.failedBuild (h : w.IsSound d) (hfailure : (w.build d body).failure ≠ none) :
    FailedBuild w d body (w.build d body) := by
  cases hnode : w.node with
  | some r =>
      have hrefused : w.build d body = .failed w d (.window .alreadyBuilt) := by rw [build, hnode]
      rw [hrefused]
      exact .refused (hnode ▸ Option.some_ne_none r) rfl rfl
  | none =>
      cases hfault : (w.compiled d body).fault with
      | some f =>
          obtain ⟨hwindow, hdocument⟩ := build_of_fault hnode hfault
          by_cases hmarker : w.builder.marker = defaultMarker
          · -- the lines of the chrome are read, so a line of the body is not
            have hdefect := (fault_compiled_eq_none_iff h.builder.separator hmarker h.key).not.mp
              (hfault ▸ Option.some_ne_none f)
            simp only [not_forall] at hdefect
            obtain ⟨l, hl, hdefect⟩ := hdefect
            exact .untouched hnode (.inr ⟨hmarker, l, hl, hdefect⟩) hwindow
              (hdocument.trans (document_compiled_of_defect h hmarker (hfault ▸ Option.some_ne_none f)))
          · have hcompiled := hdocument.trans (document_compiled_of_marker h hmarker body)
            by_cases hd : w.builder.marker = ['d']
            · exact .untouched hnode (.inl hd) hwindow (hcompiled.trans (if_pos hd))
            · exact .strayed hnode hmarker hd hwindow (hcompiled.trans (if_neg hd))
      | none =>
          have hmarker := marker_of_fault_eq_none h.key hfault
          obtain ⟨r, x, hfound, htitle, hwindow, hgrows⟩ := exists_of_failed_adopt h hnode hmarker hfault hfailure
          exact .mistaken hnode hmarker ((fault_compiled_eq_none_iff h.builder.separator hmarker h.key).mp hfault) r x
            hfound htitle hwindow hgrows

theorem IsSound.exists_growsAt_build (h : w.IsSound d) (hfailure : (w.build d body).failure ≠ none) :
    ∃ roots, Document.GrowsAt w.parent roots d (w.build d body).document := by
  cases hnode : w.node with
  | some r =>
      rw [build, hnode]
      exact ⟨[], .refl w.parent d⟩
  | none =>
      cases hfault : (w.compiled d body).fault with
      | some f =>
          rw [(build_of_fault hnode hfault).2]
          exact ⟨_, w.parentBuilder.growsAt_compile (w.template body) h.parent_lt⟩
      | none =>
          have hmarker := marker_of_fault_eq_none h.key hfault
          obtain ⟨r, x, -, -, -, hgrows⟩ := exists_of_failed_adopt h hnode hmarker hfault hfailure
          exact ⟨[x], hgrows⟩

theorem build_congr {w' : Window} (hnode : w.node = none) (hnode' : w'.node = none)
    (hcompiled : w'.compiled d body = w.compiled d body)
    (hwindow : { w' with builder := (w.compiled d body).builder } = { w with builder := (w.compiled d body).builder }) :
    w'.build d body = w.build d body := by
  rw [build_of_unbuilt hnode, build_of_unbuilt hnode', hcompiled, hwindow]

/-- What was left of an earlier build in the builder alone does not matter for a build. -/
theorem build_again (hnode : w.node = none) (body body' : Text) :
    Window.build { w with builder := (w.compiled d body).builder } d body' = w.build d body' := by
  have hcompile : ∀ (b : Builder) diagnostics template,
      Builder.compile { b with diagnostics } d template = b.compile d template := fun _ _ _ => rfl
  exact build_congr hnode hnode (hcompile w.parentBuilder _ _) rfl

end Window

/-- The step leaves the document as it is, and the window except for its builder. -/
def WindowStep.IsTraceless (s : WindowStep) (w : Window) (d : Document) : Prop :=
  s.document = d ∧ s.window = { w with builder := s.window.builder }

namespace Window

variable {w : Window} {d : Document} {body : Text} {s : WindowStep}

/-- A build that fails is without a trace if the window is built already, or if nothing is compiled. -/
theorem FailedBuild.isTraceless_iff (h : FailedBuild w d body s) :
    s.IsTraceless w d ↔ w.node ≠ none ∨ w.builder.marker = ['d'] ∨
      w.builder.marker = defaultMarker ∧ ∃ l ∈ templateLines defaultMarker body, l.defect? ≠ none := by
  cases h with
  | refused hnode hwindow hdocument =>
      refine iff_of_true ⟨hdocument, ?_⟩ (.inl hnode)
      rw [hwindow]
  | untouched hnode hcause hwindow hdocument =>
      refine iff_of_true ⟨hdocument, ?_⟩ (.inr hcause)
      rw [hwindow]
  | strayed hnode hmarker hletter hwindow hdocument =>
      refine iff_of_false (fun htraceless => ?_) ?_
      · have hsize := congrArg Document.size (hdocument.symm.trans htraceless.1)
        rw [Document.size_appendChildren] at hsize
        simp [Document.insert, Document.size] at hsize
      · simp [hnode, hmarker, hletter]
  | mistaken hnode hmarker hlines r x holder huntitled hwindow hdocument =>
      refine iff_of_false (fun htraceless => ?_) ?_
      · have hchildren := hdocument.children_container
        simp [htraceless.1] at hchildren
      · simp only [hnode, ne_eq, not_true_eq_false, hmarker, false_or, true_and, not_or, not_exists, not_and, not_not]
        exact ⟨by decide, hlines⟩

/-- If a build fails without a trace, the window can be built again as if nothing had happened. -/
theorem FailedBuild.again (h : FailedBuild w d body s) (htraceless : s.IsTraceless w d) (body' : Text) :
    s.window.build d body' = w.build d body' := by
  have hcause := h.isTraceless_iff.mp htraceless
  cases h with
  | refused hnode hwindow hdocument => rw [hwindow]
  | untouched hnode _ hwindow hdocument =>
      rw [hwindow]
      exact build_again hnode body body'
  | strayed hnode hmarker hletter hwindow hdocument => simp [hnode, hmarker, hletter] at hcause
  | mistaken hnode hmarker hlines r x holder huntitled hwindow hdocument =>
      have hchildren := hdocument.children_container
      simp [htraceless.1] at hchildren

theorem setTitle_of_failure {title : Json} {f : Failure} (h : (w.setTitle d title).failure = some f) :
    (w.setTitle d title).document = d ∧
      (w.setTitle d title).window = { w with title := (titleOf title).toOption.getD w.title } := by
  cases htitle : titleOf title with
  | error fault =>
      rw [setTitle, htitle]
      exact ⟨rfl, rfl⟩
  | ok text =>
      rcases Option.eq_none_or_eq_some w.node with hnode | ⟨r, hnode⟩
      · simp [setTitle, htitle, hnode, WindowStep.done] at h
      · cases hshown : Window.applyTitle { w with title := text } d r with
        | error fault =>
            rw [setTitle_of_not_shown hnode htitle hshown]
            exact ⟨rfl, rfl⟩
        | ok d' =>
            rw [setTitle_of_shown hnode htitle hshown, WindowStep.done] at h
            exact absurd h (Option.some_ne_none f).symm

/-- What a failure leaves, whatever was asked of the window before, however its builder is set and whichever classes
were changed. A title that fails is kept by the window if it is a text, and no element is changed. A build that fails
changes no element either, except that the parent may get children. It is without a trace exactly if the window is
built already, if the marker makes a nested line of the first one, or if a line of the body is not read; then the
window can be built again. -/
theorem History.failed (h : History w d) :
    (∀ title f, (w.setTitle d title).failure = some f →
      (w.setTitle d title).document = d ∧
        (w.setTitle d title).window = { w with title := (titleOf title).toOption.getD w.title }) ∧
    ∀ body f, (w.build d body).failure = some f →
      FailedBuild w d body (w.build d body) ∧
      (∃ roots, Document.GrowsAt w.parent roots d (w.build d body).document) ∧
      ((w.build d body).IsTraceless w d ↔ w.node ≠ none ∨ w.builder.marker = ['d'] ∨
        w.builder.marker = defaultMarker ∧ ∃ l ∈ templateLines defaultMarker body, l.defect? ≠ none) ∧
      ((w.build d body).IsTraceless w d → ∀ body', (w.build d body).window.build d body' = w.build d body') := by
  refine ⟨fun title f => setTitle_of_failure, fun body f hfailure => ?_⟩
  have hne : (w.build d body).failure ≠ none := hfailure ▸ Option.some_ne_none f
  have hfailed := h.isSound.failedBuild hne
  exact ⟨hfailed, h.isSound.exists_growsAt_build hne, hfailed.isTraceless_iff, hfailed.again⟩

def starredWindow : Window := { plainWindow with builder := { plainWindow.builder with marker := ['*'] } }

/-- The window is not built, and an element with its key stays in the parent. -/
theorem History.failed_starred :
    (starredWindow.build plainDocument []).failure ≠ none ∧
      ¬ (starredWindow.build plainDocument []).IsTraceless starredWindow plainDocument ∧
      (starredWindow.build plainDocument []).document.children 0 = [2] := by
  have hparent : plainDocument.HasOutline 0 (.leaf 0) := ⟨rfl, .mk 0 [] rfl (by simp), by decide⟩
  have hmade : History plainWindow plainDocument := .made Desk.hasUnbuilt_plainDesk rfl rfl hparent
  have hstarred : History starredWindow plainDocument := hmade.marker ['*']
  have hfails : (starredWindow.build plainDocument []).failure ≠ none := fun hbuilt =>
    absurd (marker_of_fault_eq_none hstarred.isSound.key (fault_eq_none_of_build hbuilt).2) (by decide)
  obtain ⟨f, hfailure⟩ := Option.ne_none_iff_exists'.mp hfails
  obtain ⟨hfailed, -, htraceless, -⟩ := hstarred.failed.2 [] f hfailure
  have hletter : starredWindow.builder.marker ≠ ['d'] := by decide
  have hdefault : starredWindow.builder.marker ≠ defaultMarker := by decide
  refine ⟨hfails, fun h => ?_, ?_⟩
  · rcases htraceless.mp h with hnode | hmarker | ⟨hmarker, -⟩
    · exact hnode rfl
    · exact hletter hmarker
    · exact hdefault hmarker
  · cases hfailed with
    | refused hnode => exact absurd rfl hnode
    | untouched _ hcause => exact absurd hcause (by simp [hletter, hdefault])
    | strayed _ _ _ _ hdocument =>
        rw [hdocument]
        rfl
    | mistaken _ hmarker => exact absurd hmarker hdefault

end Window

end IndentMarkup
