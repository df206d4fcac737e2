import IndentMarkup.Proofs.Regions
import IndentMarkup.Proofs.Snapshots

/-!
# Windows that share a parent

Several windows are built into one parent, in any order, and are operated by requests and by clicks. Each of them
keeps to what is below its own element: these regions of the document are disjoint (`Desk.IsShared`), no element but
the one of a window has its key as its id, and the buttons below an element operate its window. So whatever happens to
one window leaves all others alone, and the other children of the parent stay in their order
(`Interleaving.leavesAlone`).
-/

namespace IndentMarkup

/-! ## What may happen -/

inductive Happening where
  | request (i : Nat) (q : Request)
  | click (x : Ref) (event : Json)

def Binding.window? (b : Binding) : Option Nat :=
  match b.callback with
  | .button i _ => some i
  | .script _ => none

namespace Desk

def happen (desk : Desk) : Happening → Desk
  | .request i q => (desk.operate i fun w d => q.step w d).1
  | .click x event => (desk.dispatch x "click".toList event).1

/-- The windows that are operated by what happens. -/
def operated (desk : Desk) : Happening → List Nat
  | .request i _ => [i]
  | .click x _ => ((desk.document.node x).listenersFor "click".toList).filterMap Binding.window?

/-- A window is built into the common parent, and no line of its body has the key of a window as its id. -/
def Allows (desk : Desk) (p : Ref) : Happening → Prop
  | .request i (.build body) => ∀ w, desk.windows[i]? = some w → w.node = none →
      w.parent = p ∧ ∀ l ∈ templateLines defaultMarker body, ∀ v ∈ desk.windows,
        (l.node w.builder.dialect).id ≠ some v.key
  | _ => True

structure HasDefault (desk : Desk) (i : Nat) (w : Window) : Prop extends desk.HasUnbuilt i w where
  separator : w.builder.separator = defaultSeparator
  marker : w.builder.marker = defaultMarker

/-- No window is built yet, they have different keys, and no element of the parent has one of them as its id. -/
structure IsFresh (desk : Desk) (p : Ref) : Prop where
  windows : ∀ i w, desk.windows[i]? = some w → desk.HasDefault i w
  keys : (desk.windows.map (·.key)).Nodup
  parent : ∃ o, desk.document.HasOutline p o
  free : ∀ w ∈ desk.windows, desk.document.findById? p (some w.key) = none

def nodeOf (desk : Desk) (i : Nat) : Option Ref := desk.windows[i]?.bind (·.node)

/-- The children of an element that are not the elements of the given windows. -/
def others (desk : Desk) (p : Ref) (windows : List Nat) : List Ref :=
  (desk.document.children p).filter fun x => ∀ i ∈ windows, desk.nodeOf i ≠ some x

/-- All windows but the given ones are the same, with their elements and all that is below them, and so are the other
children of the parent, in their order. -/
structure LeavesAlone (p : Ref) (windows : List Nat) (desk desk' : Desk) : Prop where
  window_eq : ∀ j ∉ windows, desk'.windows[j]? = desk.windows[j]?
  tree_eq : ∀ j ∉ windows, ∀ r, desk.nodeOf j = some r →
    desk'.document.outline r = desk.document.outline r ∧ desk'.document.tree r = desk.document.tree r
  others_eq : desk'.others p windows = desk.others p windows

end Desk

/-- What a desk becomes when one thing happens after another. -/
inductive Interleaving (p : Ref) (start : Desk) : Desk → Prop
  | start : Interleaving p start start
  | step {desk : Desk} (h : Interleaving p start desk) (e : Happening) (allowed : desk.Allows p e) :
      Interleaving p start (desk.happen e)

/-- One binding is called, and then the others, unless it fails. -/
theorem callEach_cons {σ ε : Type} (call : σ → Binding → σ × Option ε) (s : σ) (b : Binding) (rest : List Binding) :
    (callEach call s (b :: rest)).1 = (call s b).1 ∨
      (callEach call s (b :: rest)).1 = (callEach call (call s b).1 rest).1 := by
  rcases hcall : call s b with ⟨s', _ | failure⟩
  · right
    rw [callEach_cons_of_eq_none hcall]
  · left
    rw [callEach_cons_of_eq_some hcall]

namespace Desk

/-! ## What is left alone -/

section

variable {p : Ref} {windows : List Nat} {desk desk' : Desk}

theorem LeavesAlone.nodeOf_eq (h : LeavesAlone p windows desk desk') {j : Nat} (hj : j ∉ windows) :
    desk'.nodeOf j = desk.nodeOf j := by
  rw [nodeOf, nodeOf, h.window_eq j hj]

theorem LeavesAlone.of_eq (hwindows : desk'.windows = desk.windows) (hdocument : desk'.document = desk.document) :
    LeavesAlone p windows desk desk' := by
  obtain ⟨document, _, _, _⟩ := desk
  obtain ⟨document', _, _, _⟩ := desk'
  subst hwindows
  obtain rfl : document' = document := hdocument
  exact ⟨fun _ _ => rfl, fun _ _ _ _ => ⟨rfl, rfl⟩, rfl⟩

theorem LeavesAlone.trans {desk'' : Desk} (h : LeavesAlone p windows desk desk')
    (h' : LeavesAlone p windows desk' desk'') : LeavesAlone p windows desk desk'' where
  window_eq j hj := (h'.window_eq j hj).trans (h.window_eq j hj)
  tree_eq j hj r hr := by
    obtain ⟨houtline, htree⟩ := h.tree_eq j hj r hr
    obtain ⟨houtline', htree'⟩ := h'.tree_eq j hj r ((h.nodeOf_eq hj).trans hr)
    exact ⟨houtline'.trans houtline, htree'.trans htree⟩
  others_eq := h'.others_eq.trans h.others_eq

theorem LeavesAlone.mono {more : List Nat} (h : LeavesAlone p windows desk desk') (hsub : windows ⊆ more) :
    LeavesAlone p more desk desk' where
  window_eq j hj := h.window_eq j fun hmem => hj (hsub hmem)
  tree_eq j hj := h.tree_eq j fun hmem => hj (hsub hmem)
  others_eq := by
    have hfilter : ∀ desk : Desk, desk.others p more =
        (desk.others p windows).filter fun x => ∀ i ∈ more, desk.nodeOf i ≠ some x := by
      intro desk
      rw [others, others, List.filter_filter]
      refine List.filter_congr fun x _ => ?_
      have hboth : (∀ i ∈ more, desk.nodeOf i ≠ some x) ↔
          (∀ i ∈ more, desk.nodeOf i ≠ some x) ∧ ∀ i ∈ windows, desk.nodeOf i ≠ some x :=
        ⟨fun hmore => ⟨hmore, fun i hi => hmore i (hsub hi)⟩, And.left⟩
      rw [← Bool.decide_and]
      exact decide_eq_decide.mpr hboth
    rw [hfilter, hfilter desk, h.others_eq]
    refine List.filter_congr fun x hx => decide_eq_decide.mpr (forall₂_congr fun i _ => ?_)
    -- an operated window has another element than `x` before and after, and any other window is the same
    by_cases hi : i ∈ windows
    · have hold := of_decide_eq_true (List.mem_filter.mp hx).2 i hi
      rw [← h.others_eq] at hx
      have hnew := of_decide_eq_true (List.mem_filter.mp hx).2 i hi
      exact iff_of_true hnew hold
    · rw [h.nodeOf_eq hi]

end

end Desk

/-! ## Windows side by side -/

namespace Document

/-- The lines of a template of the window stand at places of the document, the first one at the element of the window
and the others below it. -/
def LaysOut (d : Document) (w : Window) (r : Ref) (place : Line → Ref) : Prop :=
  ∃ (body : Text) (bodyLines : List Line),
    blocksOf w.builder.marker (w.template body) = [Chrome.block w.key bodyLines] ∧
      d.outline r = (Chrome.block w.key bodyLines).layout.map place

/-- The element of a window: it is not above the parent, and the buttons of its chrome operate the window. -/
structure HasWindow (d : Document) (p : Ref) (i : Nat) (w : Window) (r : Ref) : Prop where
  hasOutline : d.HasOutline r (d.outline r)
  apart : p ∉ d.walk r
  chrome : ∃ place, d.LaysOut w r place ∧
    ∀ b : WindowButton, (d.node (place (Chrome.button b))).listenersFor "click".toList = [b.binding i]

section

variable {d d' : Document} {p r : Ref} {i : Nat} {w w' : Window} {place : Line → Ref}

/-- The places of the lines of a block are all that is met below an element that is laid out as the block is. -/
theorem mem_walk_iff_of_layout {b : Block} (h : d.outline r = b.layout.map place) {x : Ref} :
    x ∈ d.walk r ↔ ∃ l ∈ b.lines, place l = x := by
  rw [walk, h, Rose.preorder_map, List.mem_map]
  exact exists_congr fun l => and_congr_left fun _ => (preorder_layout_perm b).mem_iff

theorem LaysOut.button_mem_walk (h : d.LaysOut w r place) (b : WindowButton) :
    place (Chrome.button b) ∈ d.walk r := by
  obtain ⟨body, bodyLines, -, houtline⟩ := h
  have hbutton : Chrome.button b ∈ (Chrome.block w.key bodyLines).lines :=
    .tail _ (List.mem_append_left _ (Chrome.button_mem_upper b))
  exact (mem_walk_iff_of_layout houtline).mpr ⟨_, hbutton, rfl⟩

/-- The template of a window is made from its key and its marker. -/
theorem LaysOut.of_window (h : d.LaysOut w r place) (hkey : w'.key = w.key)
    (hmarker : w'.builder.marker = w.builder.marker) : d.LaysOut w' r place := by
  obtain ⟨body, bodyLines, hblocks, houtline⟩ := h
  refine ⟨body, bodyLines, ?_, hkey ▸ houtline⟩
  rw [Window.template, hkey, hmarker]
  exact hblocks

theorem HasWindow.of_window (h : d.HasWindow p i w r) (hkey : w'.key = w.key)
    (hmarker : w'.builder.marker = w.builder.marker) : d.HasWindow p i w' r := by
  obtain ⟨place, hplace, hbutton⟩ := h.chrome
  exact ⟨h.hasOutline, h.apart, place, hplace.of_window hkey hmarker, hbutton⟩

theorem HasWindow.of_changesWithin {region : List Ref} (h : d.HasWindow p i w r)
    (hchanges : ChangesWithin p region d d') : d'.HasWindow p i w r ∧ d'.outline r = d.outline r := by
  have houtline := hchanges.hasOutline h.hasOutline h.apart
  have heq := houtline.outline_eq
  obtain ⟨place, hplace, hbutton⟩ := h.chrome
  refine ⟨⟨heq.symm ▸ houtline, ?_, place, ?_, fun b => ?_⟩, heq⟩
  · rw [walk, heq]
    exact h.apart
  · rw [LaysOut, heq]
    exact hplace
  · rw [← hbutton b]
    exact hchanges.apply_node (g := fun n => n.listenersFor "click".toList) (fun _ _ _ => rfl)
      (h.hasOutline.lt_size _ (hplace.button_mem_walk b))

end

end Document

namespace Desk

inductive IsPlaced (desk : Desk) (p : Ref) (i : Nat) (w : Window) : Prop
  | unbuilt (h : desk.HasDefault i w)
  | built (r : Ref) (node : w.node = some r) (container : w.builder.container = p)
      (h : desk.document.HasWindow p i w r)

/-- Windows that share a parent: their keys are different, they stand side by side, and no element below the parent has
a key as its id but the element of its window. -/
structure IsShared (desk : Desk) (p : Ref) : Prop where
  parent : ∃ o, desk.document.HasOutline p o
  keys : (desk.windows.map (·.key)).Nodup
  placed : ∀ i w, desk.windows[i]? = some w → desk.IsPlaced p i w
  disjoint : ∀ i j r t, i ≠ j → desk.nodeOf i = some r → desk.nodeOf j = some t →
    (desk.document.walk r).Disjoint (desk.document.walk t)
  ids : ∀ x ∈ desk.document.walk p, ∀ (i : Nat) (w : Window), desk.windows[i]? = some w →
    (desk.document.node x).id = some w.key → w.node = some x

section

variable {desk : Desk} {p : Ref} {i : Nat} {w : Window}

theorem HasDefault.of_window (h : desk.HasDefault i w) {desk' : Desk} (hw : desk'.windows[i]? = some w) :
    desk'.HasDefault i w :=
  ⟨⟨hw, h.key, h.makeNode, h.registry, h.node, h.status, h.living⟩, h.separator, h.marker⟩

theorem IsPlaced.hasDefault (h : desk.IsPlaced p i w) (hnode : w.node = none) : desk.HasDefault i w := by
  cases h with
  | unbuilt h => exact h
  | built r hr => exact absurd (hr.symm.trans hnode) (Option.some_ne_none r)

theorem IsPlaced.hasWindow (h : desk.IsPlaced p i w) {r : Ref} (hnode : w.node = some r) :
    w.builder.container = p ∧ desk.document.HasWindow p i w r := by
  cases h with
  | unbuilt h => exact absurd (hnode.symm.trans h.node) (Option.some_ne_none r)
  | built r' hr' hcontainer h =>
      obtain rfl := Option.some.inj (hr'.symm.trans hnode)
      exact ⟨hcontainer, h⟩

theorem IsFresh.isShared (h : desk.IsFresh p) : desk.IsShared p where
  parent := h.parent
  keys := h.keys
  placed i w hw := .unbuilt (h.windows i w hw)
  disjoint i j r t _ hr _ := by
    obtain ⟨w, hw, hnode⟩ := Option.bind_eq_some_iff.mp hr
    exact absurd (hnode.symm.trans (h.windows i w hw).node) (Option.some_ne_none r)
  ids x hx i w hw hid := by
    obtain ⟨o, ho⟩ := h.parent
    rw [ho.walk_eq] at hx
    exact absurd hid (Document.id_ne_of_findById?_eq_none ho (h.free w (List.mem_of_getElem? hw)) x hx)

theorem IsShared.of_eq (h : desk.IsShared p) {desk' : Desk} (hwindows : desk'.windows = desk.windows)
    (hdocument : desk'.document = desk.document) : desk'.IsShared p := by
  obtain ⟨document, _, _, _⟩ := desk
  obtain ⟨document', _, _, _⟩ := desk'
  subst hwindows
  obtain rfl : document' = document := hdocument
  refine ⟨h.parent, h.keys, fun i w hw => ?_, h.disjoint, h.ids⟩
  cases h.placed i w hw with
  | unbuilt hdefault => exact .unbuilt (hdefault.of_window hw)
  | built r hr hcontainer hwindow => exact .built r hr hcontainer hwindow

theorem IsShared.findById?_eq_none (h : desk.IsShared p) (hw : desk.windows[i]? = some w) (hnode : w.node = none) :
    desk.document.findById? p (some w.key) = none := by
  rw [Document.findById?, List.find?_eq_none]
  intro x hx hid
  have hx' := h.ids x hx i w hw (of_decide_eq_true hid)
  exact absurd (hx'.symm.trans hnode) (Option.some_ne_none x)

/-! ## A step of one window -/

/-- A step of a window that keeps to its own part of the document: what is below its element, or what it adds to the
parent if it is built by this step. -/
structure IsConfined (desk : Desk) (p : Ref) (i : Nat) (w : Window) (s : WindowStep) : Prop where
  key : s.window.key = w.key
  node : ∀ r, w.node = some r → s.window.node = some r
  fresh : w.node = none → ∀ r, s.window.node = some r → ∀ x ∈ s.document.walk r, desk.document.size ≤ x
  changes : Document.ChangesWithin p (w.node.elim [] desk.document.walk) desk.document s.document
  parent : ∃ o, s.document.HasOutline p o
  children : (s.document.children p).filter (s.window.node ≠ some ·) =
    (desk.document.children p).filter (w.node ≠ some ·)
  ids : ∀ x ∈ s.document.walk p, x ∈ desk.document.walk p ∨
    (s.document.node x).id = some w.key ∧ s.window.node = some x ∨
    ∀ v ∈ desk.windows, (s.document.node x).id ≠ some v.key
  placed : (desk.advance i s).IsPlaced p i s.window

variable {s : WindowStep}

theorem windows_advance_of_ne {j : Nat} (hj : j ≠ i) : (desk.advance i s).windows[j]? = desk.windows[j]? :=
  List.getElem?_set_ne hj.symm

theorem nodeOf_advance_of_ne {j : Nat} (hj : j ≠ i) : (desk.advance i s).nodeOf j = desk.nodeOf j := by
  rw [nodeOf, nodeOf, windows_advance_of_ne hj]

theorem nodeOf_advance_self (hw : desk.windows[i]? = some w) : (desk.advance i s).nodeOf i = s.window.node := by
  rw [nodeOf, windows_advance_self hw s]
  rfl

theorem map_key_advance (hw : desk.windows[i]? = some w) (hkey : s.window.key = w.key) :
    (desk.advance i s).windows.map (·.key) = desk.windows.map (·.key) := by
  obtain ⟨hi, rfl⟩ := List.getElem?_eq_some_iff.mp hw
  have hi' : i < (desk.windows.map Window.key).length := by rwa [List.length_map]
  have hset : (desk.windows.map Window.key).set i (desk.windows.map Window.key)[i] = desk.windows.map Window.key :=
    List.set_getElem_self hi'
  rw [List.getElem_map, ← hkey, ← List.map_set] at hset
  exact hset

/-- The elements of other windows are below other elements than those that are changed. -/
theorem IsShared.kept (h : desk.IsShared p) (hw : desk.windows[i]? = some w) (hs : desk.IsConfined p i w s) {j : Nat}
    (hj : j ≠ i) {t : Ref} (ht : desk.nodeOf j = some t) :
    desk.document.HasOutline t (desk.document.outline t) ∧ s.document.outline t = desk.document.outline t ∧
      s.document.tree t = desk.document.tree t := by
  obtain ⟨v, hv, hnode⟩ := Option.bind_eq_some_iff.mp ht
  obtain ⟨-, hwindow⟩ := (h.placed j v hv).hasWindow hnode
  refine ⟨hwindow.hasOutline, (hwindow.of_changesWithin hs.changes).2,
    hs.changes.tree_eq hwindow.hasOutline hwindow.apart ?_⟩
  cases hr : w.node with
  | none => exact List.disjoint_nil_right _
  | some r => exact h.disjoint j i t r hj ht (by rw [nodeOf, hw]; exact hr)

theorem IsShared.leavesAlone_advance (h : desk.IsShared p) (hw : desk.windows[i]? = some w)
    (hs : desk.IsConfined p i w s) : LeavesAlone p [i] desk (desk.advance i s) where
  window_eq j hj := windows_advance_of_ne (List.ne_of_not_mem_cons hj)
  tree_eq j hj t ht := (h.kept hw hs (List.ne_of_not_mem_cons hj) ht).2
  others_eq := by
    simp only [others, List.forall_mem_singleton, nodeOf_advance_self hw]
    rw [nodeOf, hw]
    exact hs.children

theorem IsShared.disjoint_advance (h : desk.IsShared p) (hw : desk.windows[i]? = some w)
    (hs : desk.IsConfined p i w s) {j : Nat} (hj : j ≠ i) {r t : Ref} (hr : s.window.node = some r)
    (ht : desk.nodeOf j = some t) : (s.document.walk r).Disjoint (s.document.walk t) := by
  obtain ⟨hold, houtline, -⟩ := h.kept hw hs hj ht
  rw [Document.walk, Document.walk, houtline]
  cases hnode : w.node with
  | none =>
      -- all that is below the element of the window is new
      intro x hx hx'
      exact Nat.lt_irrefl _ (Nat.lt_of_lt_of_le (hold.lt_size x hx') (hs.fresh hnode r hr x hx))
  | some r' =>
      obtain rfl := Option.some.inj ((hs.node r' hnode).symm.trans hr)
      obtain ⟨-, hown⟩ := (h.placed i w hw).hasWindow hnode
      rw [(hown.of_changesWithin hs.changes).2]
      exact h.disjoint i j r' t hj.symm (by rw [nodeOf, hw]; exact hnode) ht

theorem IsShared.node_of_id (h : desk.IsShared p) (hs : desk.IsConfined p i w s) {j : Nat} {v : Window}
    (hv : desk.windows[j]? = some v) {x : Ref} (hx : x ∈ desk.document.walk p)
    (hid : (s.document.node x).id = some v.key) : v.node = some x := by
  obtain ⟨o, ho⟩ := h.parent
  have hsame : (s.document.node x).id = (desk.document.node x).id :=
    hs.changes.apply_node (g := Node.id) (fun _ _ _ => rfl) (ho.lt_size x (ho.walk_eq ▸ hx))
  exact h.ids x hx j v hv (hsame.symm.trans hid)

/-- A step that keeps to its own part leaves the windows side by side. -/
theorem IsShared.advance (h : desk.IsShared p) (hw : desk.windows[i]? = some w) (hs : desk.IsConfined p i w s) :
    (desk.advance i s).IsShared p where
  parent := hs.parent
  keys := by
    rw [map_key_advance hw hs.key]
    exact h.keys
  placed j v hv := by
    by_cases hj : j = i
    · subst hj
      obtain rfl := Option.some.inj ((windows_advance_self hw s).symm.trans hv)
      exact hs.placed
    · have hold := (windows_advance_of_ne hj).symm.trans hv
      cases h.placed j v hold with
      | unbuilt hdefault => exact .unbuilt (hdefault.of_window hv)
      | built t ht hcontainer hwindow => exact .built t ht hcontainer (hwindow.of_changesWithin hs.changes).1
  disjoint j k r t hjk hr ht := by
    by_cases hj : j = i
    · subst hj
      rw [nodeOf_advance_self hw] at hr
      rw [nodeOf_advance_of_ne hjk.symm] at ht
      exact h.disjoint_advance hw hs hjk.symm hr ht
    · rw [nodeOf_advance_of_ne hj] at hr
      by_cases hk : k = i
      · subst hk
        rw [nodeOf_advance_self hw] at ht
        exact fun x hx hx' => h.disjoint_advance hw hs hj ht hr hx' hx
      · rw [nodeOf_advance_of_ne hk] at ht
        change (s.document.walk r).Disjoint (s.document.walk t)
        rw [Document.walk, Document.walk, (h.kept hw hs hj hr).2.1, (h.kept hw hs hk ht).2.1]
        exact h.disjoint j k r t hjk hr ht
  ids x hx j v hv hid := by
    by_cases hj : j = i
    · subst hj
      obtain rfl := Option.some.inj ((windows_advance_self hw s).symm.trans hv)
      have hkey := hid.trans (congrArg some hs.key)
      rcases hs.ids x hx with hmem | ⟨-, hnode⟩ | hnone
      · exact hs.node x (h.node_of_id hs hw hmem hkey)
      · exact hnode
      · exact absurd hkey (hnone w (List.mem_of_getElem? hw))
    · rw [windows_advance_of_ne hj] at hv
      rcases hs.ids x hx with hmem | ⟨hkey, -⟩ | hnone
      · exact h.node_of_id hs hv hmem hid
      · -- two windows with one key are the same
        refine absurd ((List.getElem?_inj ?_ h.keys).mp ?_) hj
        · rw [List.length_map]
          exact (List.getElem?_eq_some_iff.mp hv).1
        · rw [List.getElem?_map, List.getElem?_map, hv, hw]
          exact hid.symm.trans hkey
      · exact absurd hid (hnone v (List.mem_of_getElem? hv))

/-! ## Requests -/

theorem IsShared.isConfined_of_node (h : desk.IsShared p) (hw : desk.windows[i]? = some w) {r : Ref}
    (hnode : w.node = some r) (q : Request) : desk.IsConfined p i w (q.step w desk.document) := by
  obtain ⟨hcontainer, hwindow⟩ := (h.placed i w hw).hasWindow hnode
  obtain ⟨o, ho⟩ := h.parent
  have heffect := q.effect hnode desk.document
  obtain ⟨hkept, hbuilder⟩ := heffect.built_eq
  obtain ⟨o', ho'⟩ := heffect.exists_hasOutline ho
  have hchanges := heffect.changesWithin hnode
  rw [hcontainer] at hchanges
  refine ⟨(q.settings_step w desk.document).1, fun r' hr' => hkept.trans hr', fun hnone => ?_, ?_, ⟨o', ho'⟩, ?_,
    fun x hx => .inl ?_, ?_⟩
  · exact absurd (hnode.symm.trans hnone) (Option.some_ne_none r)
  · rw [hnode]
    exact hchanges
  · rw [hkept]
    exact heffect.filter_children_eq hnode ho.self_lt_size
  · exact ho.walk_subset ho' (fun y hy => heffect.children_subset hy) hx
  · exact .built r (hkept.trans hnode) (hbuilder ▸ hcontainer)
      ((hwindow.of_changesWithin hchanges).1.of_window (q.settings_step w desk.document).1 (hbuilder ▸ rfl))

/-- A step that leaves the document as it is, and after which the window is still not built. -/
theorem IsShared.isConfined_of_unbuilt (h : desk.IsShared p) (hnode : w.node = none) (hkey : s.window.key = w.key)
    (hdocument : s.document = desk.document) (hplaced : (desk.advance i s).HasDefault i s.window) :
    desk.IsConfined p i w s where
  key := hkey
  node r hr := absurd (hr.symm.trans hnode) (Option.some_ne_none r)
  fresh _ r hr := absurd (hr.symm.trans hplaced.node) (Option.some_ne_none r)
  changes := by
    rw [hdocument]
    exact .refl p _ desk.document
  parent := hdocument ▸ h.parent
  children := by rw [hdocument, hplaced.node, hnode]
  ids x hx := .inl (hdocument ▸ hx)
  placed := .unbuilt hplaced

/-! ## Builds -/

section

variable {body : Text} {bodyLines : List Line} {place : Line → Ref}

theorem IsBuilt.hasOutline (h : desk.IsBuilt i w body bodyLines place) :
    (w.build desk.document body).document.HasOutline (place (Chrome.window w.key))
      ((Chrome.block w.key bodyLines).layout.map place) :=
  h.shows.hasOutline _ (List.mem_singleton_self _)

theorem IsBuilt.size_le_of_mem_walk (h : desk.IsBuilt i w body bodyLines place) {x : Ref}
    (hx : x ∈ (w.build desk.document body).document.walk (place (Chrome.window w.key))) :
    desk.document.size ≤ x := by
  obtain ⟨l, hl, rfl⟩ := (Document.mem_walk_iff_of_layout h.hasOutline.outline_eq).mp hx
  exact h.fresh l (by rwa [List.flatMap_singleton])

theorem IsBuilt.hasWindow (h : desk.IsBuilt i w body bodyLines place) {p : Ref} (hp : p < desk.document.size) :
    (w.build desk.document body).document.HasWindow p i w (place (Chrome.window w.key)) where
  hasOutline := h.hasOutline.outline_eq.symm ▸ h.hasOutline
  apart hmem := Nat.lt_irrefl _ (Nat.lt_of_lt_of_le hp (h.size_le_of_mem_walk hmem))
  chrome := by
    refine ⟨place, ⟨body, bodyLines, h.blocks, h.hasOutline.outline_eq⟩, fun b => ?_⟩
    rw [Node.listenersFor, h.listeners b]
    cases b <;> rfl

/-- A window that is built has its key as its id, and any other element of it has none or one from its body. -/
theorem IsBuilt.id_cases (h : desk.IsBuilt i w body bodyLines place) (hdefault : desk.HasDefault i w) {x : Ref}
    (hx : x ∈ (w.build desk.document body).document.walk (place (Chrome.window w.key))) :
    x = place (Chrome.window w.key) ∨ ((w.build desk.document body).document.node x).id = none ∨
      ∃ l ∈ templateLines defaultMarker body,
        ((w.build desk.document body).document.node x).id = (l.node w.builder.dialect).id := by
  obtain ⟨l, hl, rfl⟩ := (Document.mem_walk_iff_of_layout h.hasOutline.outline_eq).mp hx
  have hid : ((w.build desk.document body).document.node (place l)).id = (l.node w.builder.dialect).id := by
    rw [h.shows.node_eq l (by rwa [List.flatMap_singleton])]
    exact Window.apply_shown (g := Node.id) (fun _ _ _ => rfl) w l
  rw [hid]
  rw [Block.lines, Chrome.block, List.append_cons, List.mem_cons, List.mem_append] at hl
  rcases hl with rfl | hl | hl
  · exact .inl rfl
  · exact .inr (.inl (Chrome.id_node hdefault.separator hdefault.makeNode hl))
  · obtain ⟨k, hk, hdescriptor, -⟩ := exists_of_mem_moved h.moved hl
    refine .inr (.inr ⟨k, hk, ?_⟩)
    rw [Line.node, Line.node, hdescriptor]

theorem IsShared.isConfined_build (h : desk.IsShared p) (hdefault : desk.HasDefault i w) (hparent : w.parent = p)
    (hids : ∀ l ∈ templateLines defaultMarker body, ∀ v ∈ desk.windows, (l.node w.builder.dialect).id ≠ some v.key)
    (hbuilt : (w.build desk.document body).failure = none) :
    desk.IsConfined p i w (w.build desk.document body) := by
  subst hparent
  obtain ⟨o, ho⟩ := h.parent
  obtain ⟨bodyLines, place, hb⟩ := hdefault.exists_isBuilt hdefault.separator hdefault.marker ho
    (h.findById?_eq_none hdefault.window hdefault.node) hbuilt
  obtain ⟨-, _, _, _, -, -, hwindow, -⟩ := Window.of_build_failure_eq_none hbuilt
  have hplaced : (desk.advance i (w.build desk.document body)).IsPlaced w.parent i
      (w.build desk.document body).window :=
    .built _ hb.node (by rw [hwindow]; rfl)
      ((hb.hasWindow ho.self_lt_size).of_window (by rw [hwindow]) (by rw [hwindow]; rfl))
  refine ⟨(Request.settings_step w desk.document (.build body)).1, fun r hr => ?_, fun _ r hr x hx => ?_,
    hb.grows.changesWithin _, Window.exists_hasOutline_build ho.self_lt_size ho, ?_, fun x hx => ?_, hplaced⟩
  · exact absurd (hr.symm.trans hdefault.node) (Option.some_ne_none r)
  · obtain rfl := Option.some.inj (hb.node.symm.trans hr)
    exact hb.size_le_of_mem_walk hx
  · -- the new child is not among the old ones
    have hnew : place (Chrome.window w.key) ∉ desk.document.children w.parent := fun hmem =>
      Nat.lt_irrefl _ (Nat.lt_of_lt_of_le (ho.lt_size_of_mem_children hmem)
        (hb.size_le_of_mem_walk (Document.self_mem_walk _ _)))
    rw [hb.node, hb.grows.children_container, hdefault.node, List.filter_append]
    have hsame : (desk.document.children w.parent).filter (some (place (Chrome.window w.key)) ≠ some ·) =
        (desk.document.children w.parent).filter (none ≠ some ·) :=
      List.filter_congr fun x hx => decide_eq_decide.mpr
        (iff_of_true (fun heq => hnew (Option.some.inj heq ▸ hx)) (Option.some_ne_none x).symm)
    rw [hsame]
    simp
  · rw [hb.grows.walk_eq_of_shows ho hb.shows, ← hb.hasOutline.walk_eq] at hx
    rcases List.mem_append.mp hx with hx | hx
    · exact .inl hx
    · rcases hb.id_cases hdefault hx with rfl | hnone | ⟨l, hl, heq⟩
      · exact .inr (.inl ⟨hb.id, hb.node⟩)
      · exact .inr (.inr fun v _ => hnone ▸ (Option.some_ne_none _).symm)
      · exact .inr (.inr fun v hv => heq ▸ hids l hl v hv)

end

theorem IsShared.isConfined_of_failed_build (h : desk.IsShared p) (hdefault : desk.HasDefault i w)
    (hparent : w.parent = p) {body : Text} (hfailure : (w.build desk.document body).failure ≠ none) :
    desk.IsConfined p i w (w.build desk.document body) := by
  subst hparent
  have hsound : w.IsSound desk.document :=
    ⟨hdefault.key, ⟨hdefault.separator ▸ List.cons_ne_nil _ _, hdefault.makeNode⟩, h.parent⟩
  -- with the default settings nothing but a line that is not read stands in the way
  cases hsound.failedBuild hfailure with
  | refused hnode => exact absurd hdefault.node hnode
  | untouched _ _ hwindow hdocument =>
      have hunbuilt := hdefault.advance (.build body) (by rw [Request.step, hwindow]; exact hdefault.node)
      refine h.isConfined_of_unbuilt hdefault.node (by rw [hwindow]) hdocument ⟨hunbuilt, ?_, ?_⟩
      · rw [hwindow]
        exact hdefault.separator
      · rw [hwindow]
        exact hdefault.marker
  | strayed _ hmarker => exact absurd hdefault.marker hmarker
  | mistaken _ _ _ r _ holder =>
      exact absurd ((h.findById?_eq_none hdefault.window hdefault.node).symm.trans holder) (Option.some_ne_none r).symm

theorem IsShared.isConfined (h : desk.IsShared p) (hw : desk.windows[i]? = some w) {q : Request}
    (hallowed : desk.Allows p (.request i q)) : desk.IsConfined p i w (q.step w desk.document) := by
  cases hnode : w.node with
  | some r => exact h.isConfined_of_node hw hnode q
  | none =>
      have hdefault := (h.placed i w hw).hasDefault hnode
      by_cases hq : ∃ body, q = .build body
      · obtain ⟨body, rfl⟩ := hq
        obtain ⟨hparent, hids⟩ := hallowed w hw hnode
        by_cases hbuilt : (w.build desk.document body).failure = none
        · exact h.isConfined_build hdefault hparent hids hbuilt
        · exact h.isConfined_of_failed_build hdefault hparent hbuilt
      · rw [not_exists] at hq
        obtain ⟨hdocument, hnode', hbuilder, -, -⟩ := step_of_unbuilt hnode desk.document hq
        exact h.isConfined_of_unbuilt hnode (q.settings_step w desk.document).1 hdocument
          ⟨hdefault.advance q hnode', hbuilder ▸ hdefault.separator, hbuilder ▸ hdefault.marker⟩

theorem IsShared.operate (h : desk.IsShared p) (i : Nat) {q : Request} (hallowed : desk.Allows p (.request i q)) :
    (desk.operate i fun w d => q.step w d).1.IsShared p ∧
      LeavesAlone p [i] desk (desk.operate i fun w d => q.step w d).1 := by
  cases hw : desk.windows[i]? with
  | none =>
      simp only [Desk.operate, hw]
      exact ⟨h, .of_eq rfl rfl⟩
  | some w =>
      have hs := h.isConfined hw hallowed
      rw [operate_eq hw]
      exact ⟨h.advance hw hs, h.leavesAlone_advance hw hs⟩

/-! ## Clicks -/

/-- A binding operates its window alone, or none. -/
theorem IsShared.call (h : desk.IsShared p) (event : Json) (b : Binding) {windows : List Nat}
    (hwindows : ∀ j, b.window? = some j → j ∈ windows) :
    (desk.call event b).1.IsShared p ∧ LeavesAlone p windows desk (desk.call event b).1 := by
  rw [Desk.call]
  cases hcallback : b.callback with
  | script s => exact ⟨h.of_eq rfl rfl, .of_eq rfl rfl⟩
  | button j button =>
      have hj : j ∈ windows := hwindows j (by rw [Binding.window?, hcallback])
      have hallowed : desk.Allows p (.request j button.request) := by cases button <;> trivial
      obtain ⟨hshared, halone⟩ := h.operate j hallowed
      change (desk.operate j fun w d => w.press d button).1.IsShared p ∧
        LeavesAlone p windows desk (desk.operate j fun w d => w.press d button).1
      rw [operate_press]
      exact ⟨hshared, halone.mono fun k hk => List.mem_singleton.mp hk ▸ hj⟩

theorem IsShared.callEach (h : desk.IsShared p) (event : Json) {bindings : List Binding} {windows : List Nat}
    (hwindows : ∀ b ∈ bindings, ∀ j, b.window? = some j → j ∈ windows) :
    (callEach (Desk.call event) desk bindings).1.IsShared p ∧
      LeavesAlone p windows desk (callEach (Desk.call event) desk bindings).1 := by
  induction bindings generalizing desk with
  | nil => exact ⟨h, .of_eq rfl rfl⟩
  | cons b rest ih =>
      -- the first binding that fails ends the calls
      obtain ⟨hshared, halone⟩ := h.call event b (hwindows b List.mem_cons_self)
      obtain ⟨hshared', halone'⟩ := ih hshared fun b' hb' => hwindows b' (.tail _ hb')
      rcases callEach_cons (Desk.call event) desk b rest with heq | heq
      · rw [heq]
        exact ⟨hshared, halone⟩
      · rw [heq]
        exact ⟨hshared', halone.trans halone'⟩

/-! ## The main result -/

theorem IsShared.happen (h : desk.IsShared p) {e : Happening} (hallowed : desk.Allows p e) :
    (desk.happen e).IsShared p ∧ LeavesAlone p (desk.operated e) desk (desk.happen e) := by
  cases e with
  | request i q => exact h.operate i hallowed
  | click x event =>
      exact h.callEach event fun b hb j hj => List.mem_filterMap.mpr ⟨b, hb, hj⟩

end

end Desk

theorem Interleaving.isShared {p : Ref} {start desk : Desk} (hstart : start.IsFresh p)
    (h : Interleaving p start desk) : desk.IsShared p := by
  induction h with
  | start => exact hstart.isShared
  | step _ e hallowed ih => exact (ih.happen hallowed).1

/-- Windows that share a parent do not interfere. However their builds, operations, settings and clicks follow one
another, what happens to some of them leaves the other windows as they are, with their elements and all that is below
them, and the other children of the parent in their order; and a click on a button of the chrome of a window operates
this window alone. -/
theorem Interleaving.leavesAlone {p : Ref} {start desk : Desk} (hstart : start.IsFresh p)
    (h : Interleaving p start desk) :
    (∀ e, desk.Allows p e → Desk.LeavesAlone p (desk.operated e) desk (desk.happen e)) ∧
    ∀ i w r, desk.windows[i]? = some w → w.node = some r →
      ∃ place, desk.document.LaysOut w r place ∧ ∀ b : WindowButton,
        place (Chrome.button b) ∈ desk.document.walk r ∧
        (desk.document.node (place (Chrome.button b))).listenersFor "click".toList = [b.binding i] ∧
        ∀ event, desk.operated (.click (place (Chrome.button b)) event) = [i] := by
  have hshared := h.isShared hstart
  refine ⟨fun e hallowed => (hshared.happen hallowed).2, fun i w r hw hnode => ?_⟩
  obtain ⟨place, hplace, hbutton⟩ := ((hshared.placed i w hw).hasWindow hnode).2.chrome
  refine ⟨place, hplace, fun b => ⟨hplace.button_mem_walk b, hbutton b, fun event => ?_⟩⟩
  rw [Desk.operated, hbutton b, List.filterMap_cons, Binding.window?, b.callback_binding]
  rfl

namespace Desk

def secondWindow : Window :=
  { Window.plainWindow with
    key := "windowkey-789012".toList
    builder := { Window.plainWindow.builder with registry := buttonRegistry 1 } }

def pairDesk : Desk := { plainDesk with windows := [Window.plainWindow, secondWindow] }

theorem isFresh_pairDesk : pairDesk.IsFresh 0 where
  windows i w hw := by
    cases i with
    | zero =>
        obtain rfl := Option.some.inj hw
        exact ⟨⟨hw, by decide +kernel, rfl, List.prefix_refl _, rfl, rfl, rfl⟩, rfl, rfl⟩
    | succ i =>
        cases i with
        | zero =>
            obtain rfl := Option.some.inj hw
            exact ⟨⟨hw, by decide +kernel, rfl, List.prefix_refl _, rfl, rfl, rfl⟩, rfl, rfl⟩
        | succ i => cases hw
  keys := by decide +kernel
  parent := ⟨.leaf 0, rfl, .mk 0 [] rfl (by simp), by decide⟩
  free := by decide +kernel

end Desk

/-- Both windows are built, and then the first one is minimized: the second one is left alone. -/
theorem Interleaving.leavesAlone_pair :
    let desk := (Desk.pairDesk.happen (.request 0 (.build "p".toList))).happen (.request 1 (.build []))
    desk.nodeOf 0 ≠ none ∧ desk.nodeOf 1 ≠ none ∧ Desk.LeavesAlone 0 [0] desk (desk.happen (.request 0 .minify)) := by
  have hstart := Desk.isFresh_pairDesk
  have hfirst : Desk.pairDesk.Allows 0 (.request 0 (.build "p".toList)) := by
    intro w hw _
    obtain rfl := Option.some.inj hw
    exact ⟨rfl, by decide +kernel⟩
  have hsecond : (Desk.pairDesk.happen (.request 0 (.build "p".toList))).Allows 0 (.request 1 (.build [])) := by
    intro w hw _
    have hkept := ((Interleaving.start.leavesAlone hstart).1 _ hfirst).window_eq 1 (by decide)
    obtain rfl := Option.some.inj (hkept.symm.trans hw)
    refine ⟨rfl, fun l hl => absurd hl ?_⟩
    rw [templateLines_of_blank rfl]
    exact List.not_mem_nil
  have hbuilt := (Interleaving.start.step _ hfirst).step _ hsecond
  exact ⟨by decide +kernel, by decide +kernel, (hbuilt.leavesAlone hstart).1 (.request 0 .minify) trivial⟩

end IndentMarkup
