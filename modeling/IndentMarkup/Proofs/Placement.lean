import IndentMarkup.Proofs.Compilation
import IndentMarkup.Proofs.Mounting
import Mathlib.Logic.Relation

/-!
# Where lines stand in a document

After a template is compiled, every line of its blocks stands for an element of the document, and the elements of a
block hang together as the layout of the block says (`Shows`). The elements that were there before keep their nodes
and, except for the container, their children (`GrowsAt`). Both together are all there is to say about the document
(`Builder.exists_shows_compile`), so that later changes of single nodes can be followed line by line.
-/

namespace IndentMarkup

namespace Document

/-- The blocks are outlines in the document, with every line at its own place. The content of a line is the node of
its element. -/
structure Shows (d : Document) (content : Line → Node) (blocks : List Block) (place : Line → Ref) : Prop where
  hasOutline : ∀ b ∈ blocks, d.HasOutline (place b.root) (b.layout.map place)
  node_eq : ∀ l ∈ blocks.flatMap Block.lines, d.node (place l) = content l
  distinct : ((blocks.flatMap Block.lines).map place).Nodup

/-- The second document holds the elements of the first one unchanged, except that the container has further
children. -/
structure GrowsAt (container : Ref) (roots : List Ref) (d d' : Document) : Prop where
  size_le : d.size ≤ d'.size
  node_eq : ∀ x < d.size, d'.node x = d.node x
  children_eq : ∀ x < d.size, x ≠ container → d'.children x = d.children x
  children_container : d'.children container = d.children container ++ roots

section

variable {d d' : Document} {content content' : Line → Node} {blocks : List Block} {place : Line → Ref}

theorem Shows.place_inj (h : d.Shows content blocks place) {k l : Line} (hk : k ∈ blocks.flatMap Block.lines)
    (hl : l ∈ blocks.flatMap Block.lines) (heq : place k = place l) : k = l :=
  List.inj_on_of_nodup_map h.distinct hk hl heq

theorem Shows.lt_size (h : d.Shows content blocks place) {l : Line} (hl : l ∈ blocks.flatMap Block.lines) :
    place l < d.size := by
  obtain ⟨b, hb, hl⟩ := List.mem_flatMap.mp hl
  refine (h.hasOutline b hb).lt_size (place l) ?_
  rw [Rose.preorder_map]
  exact List.mem_map_of_mem ((preorder_layout_perm b).mem_iff.mpr hl)

theorem Shows.mem_children_iff (h : d.Shows content blocks place) {b : Block} (hb : b ∈ blocks) {k : Line}
    (hk : k ∈ b.lines) {x : Ref} :
    x ∈ d.children (place k) ↔ ∃ l ∈ b.lines, b.layout.IsChild k l ∧ place l = x := by
  have hlines : ∀ l ∈ b.layout.preorder, l ∈ blocks.flatMap Block.lines := fun l hl =>
    List.mem_flatMap.mpr ⟨b, hb, (preorder_layout_perm b).mem_iff.mp hl⟩
  have hchild := (h.hasOutline b hb).follows.isChild_iff (x := place k) (y := x)
  have hmem : place k ∈ (b.layout.map place).preorder := by
    rw [Rose.preorder_map]
    exact List.mem_map_of_mem ((preorder_layout_perm b).mem_iff.mpr hk)
  rw [and_iff_right hmem, Rose.isChild_map_iff] at hchild
  rw [← hchild]
  constructor
  · rintro ⟨k', l, hkl, heq, rfl⟩
    obtain ⟨hk', hl⟩ := hkl.mem_preorder
    obtain rfl := h.place_inj (hlines k' hk') (List.mem_flatMap.mpr ⟨b, hb, hk⟩) heq
    exact ⟨l, (preorder_layout_perm b).mem_iff.mp hl, hkl, rfl⟩
  · rintro ⟨l, -, hkl, rfl⟩
    exact ⟨k, l, hkl, rfl, rfl⟩

theorem Shows.transGen_children_iff (h : d.Shows content blocks place) {b : Block} (hb : b ∈ blocks) {k l : Line}
    (hk : k ∈ b.lines) (hl : l ∈ b.lines) :
    Relation.TransGen (fun x y => y ∈ d.children x) (place k) (place l) ↔
      Relation.TransGen b.layout.IsChild k l := by
  have hmem : ∀ j ∈ b.lines, j ∈ blocks.flatMap Block.lines := fun j hj => List.mem_flatMap.mpr ⟨b, hb, hj⟩
  constructor
  · intro hbelow
    have hlines : ∀ x, Relation.TransGen (fun x y => y ∈ d.children x) (place k) x →
        ∃ j ∈ b.lines, place j = x ∧ Relation.TransGen b.layout.IsChild k j := by
      intro x hx
      induction hx with
      | single hchild =>
          obtain ⟨j, hj, hkj, hplace⟩ := (h.mem_children_iff hb hk).mp hchild
          exact ⟨j, hj, hplace, .single hkj⟩
      | tail _ hchild ih =>
          obtain ⟨i, hi, rfl, hki⟩ := ih
          obtain ⟨j, hj, hij, hplace⟩ := (h.mem_children_iff hb hi).mp hchild
          exact ⟨j, hj, hplace, hki.tail hij⟩
    obtain ⟨j, hj, hplace, hkj⟩ := hlines (place l) hbelow
    exact h.place_inj (hmem j hj) (hmem l hl) hplace ▸ hkj
  · refine Relation.TransGen.lift place (fun i j hij => ?_) k l
    obtain ⟨hi, hj⟩ := hij.mem_preorder
    rw [(preorder_layout_perm b).mem_iff] at hi hj
    exact (h.mem_children_iff hb hi).mpr ⟨j, hj, hij, rfl⟩

theorem Shows.modifyNode (h : d.Shows content blocks place) {l : Line} (hl : l ∈ blocks.flatMap Block.lines)
    (f : Node → Node) :
    (d.modifyNode (place l) f).Shows (Function.update content l (f (content l))) blocks place where
  hasOutline b hb := (h.hasOutline b hb).modifyNode (place l) f
  node_eq k hk := by
    rw [node_modifyNode (h.lt_size hl), h.node_eq l hl]
    by_cases heq : k = l
    · rw [heq, Function.update_self, Function.update_self]
    · rw [Function.update_of_ne heq, Function.update_of_ne fun hplace => heq (h.place_inj hk hl hplace),
        h.node_eq k hk]
  distinct := h.distinct

theorem Shows.congr (h : d.Shows content blocks place)
    (hcontent : ∀ l ∈ blocks.flatMap Block.lines, content l = content' l) : d.Shows content' blocks place where
  hasOutline := h.hasOutline
  node_eq l hl := (h.node_eq l hl).trans (hcontent l hl)
  distinct := h.distinct

theorem GrowsAt.refl (container : Ref) (d : Document) : GrowsAt container [] d d :=
  ⟨Nat.le_refl _, fun _ _ => rfl, fun _ _ _ => rfl, (List.append_nil _).symm⟩

/-- An outline without the container is kept. -/
theorem GrowsAt.hasOutline_of_not_mem {container : Ref} {roots : List Ref} (h : GrowsAt container roots d d') {r : Ref}
    {o : Rose Ref} (ho : d.HasOutline r o) (hcontainer : container ∉ o.preorder) : d'.HasOutline r o where
  self_eq := ho.self_eq
  follows := ho.follows.congr fun x hx =>
    (h.children_eq x (ho.lt_size x hx) fun (heq : x = container) => hcontainer (heq ▸ hx)).symm
  lt_size x hx := Nat.lt_of_lt_of_le (ho.lt_size x hx) h.size_le

/-- The outline of the container of a document that has grown: the new outlines are put behind its children. -/
theorem GrowsAt.hasOutline {container : Ref} {roots : List Ref} (h : GrowsAt container roots d d')
    {cs : List (Rose Ref)} (ho : d.HasOutline container (.node container cs)) {os : List (Rose Ref)}
    (hroots : os.map Rose.self = roots) (hos : ∀ o ∈ os, d'.HasOutline o.self o) :
    d'.HasOutline container (.node container (cs ++ os)) := by
  have hbelow : ∀ c ∈ cs ++ os, d'.HasOutline c.self c := by
    intro c hc
    rcases List.mem_append.mp hc with hc | hc
    · exact h.hasOutline_of_not_mem (ho.child hc) fun hmem => ho.follows.not_mem_preorder_child hc hmem
    · exact hos c hc
  refine ⟨rfl, Rose.follows_node_iff.mpr ⟨?_, fun c hc => (hbelow c hc).follows⟩, fun x hx => ?_⟩
  · rw [List.map_append, (Rose.follows_node_iff.mp ho.follows).1, hroots, h.children_container]
  · rw [Rose.preorder_node] at hx
    rcases List.mem_cons.mp hx with rfl | hx
    · exact Nat.lt_of_lt_of_le (ho.lt_size x (by simp)) h.size_le
    · obtain ⟨c, hc, hx⟩ := List.mem_flatMap.mp hx
      exact (hbelow c hc).lt_size x hx

theorem GrowsAt.hasOutline_of_shows {container : Ref}
    (h : GrowsAt container (blocks.map fun b => place b.root) d d') {cs : List (Rose Ref)}
    (ho : d.HasOutline container (.node container cs)) (hshows : d'.Shows content blocks place) :
    d'.HasOutline container (.node container (cs ++ blocks.map fun b => b.layout.map place)) := by
  refine h.hasOutline ho ?_ fun o hnew => ?_
  · rw [List.map_map]
    exact List.map_congr_left fun b _ => b.self_map_layout place
  · obtain ⟨b, hb, rfl⟩ := List.mem_map.mp hnew
    rw [b.self_map_layout]
    exact hshows.hasOutline b hb

theorem GrowsAt.tree_eq {container : Ref} {roots : List Ref} (h : GrowsAt container roots d d') {o : Rose Ref}
    (ho : d.HasOutline container o) {x : Ref} (hx : x ∈ d.children container) : d'.tree x = d.tree x := by
  obtain ⟨a, cs⟩ := o
  obtain rfl : a = container := ho.self_eq
  rw [← (Rose.follows_node_iff.mp ho.follows).1] at hx
  obtain ⟨c, hc, rfl⟩ := List.mem_map.mp hx
  have hkept := h.hasOutline_of_not_mem (ho.child hc) fun hmem => ho.follows.not_mem_preorder_child hc hmem
  rw [hkept.tree_eq, (ho.child hc).tree_eq]
  exact Rose.map_congr fun y hy => h.node_eq y ((ho.child hc).lt_size y hy)

end

end Document

namespace Builder

/-- What a builder leaves of the elements that were there. -/
theorem growsAt_compile (b : Builder) {d : Document} (template : Text) (hcontainer : b.container < d.size) :
    Document.GrowsAt b.container (b.compile d template).roots d (b.compile d template).document := by
  obtain ⟨d', os, hos, hdocument⟩ := b.compile_mounted d template
  rw [hdocument]
  have hsize := Document.size_le_of_grows hos.grows
  refine ⟨?_, fun x hx => ?_, fun x hx hne => ?_, ?_⟩
  · rwa [Document.size_appendChildren]
  · rw [Document.node_appendChildren, Document.node_of_grows hos.grows hx]
  · rw [Document.children_appendChildren_of_ne d' _ (Ne.symm hne),
      Document.children_of_grows hos.grows hx]
  · rw [Document.children_appendChildren_self _ (Nat.lt_of_lt_of_le hcontainer hsize),
      Document.children_of_grows hos.grows hcontainer]

/-- The blocks of a template that are compiled: those in front of the first line that is not read. -/
def compiledBlocks (b : Builder) (template : Text) : List Block :=
  (blocksOf b.marker template).takeWhile fun block => block.IsRead b.dialect

theorem compiledBlocks_of_fault_eq_none {b : Builder} {template : Text}
    (h : (IndentMarkup.compile b.dialect template).fault = none) :
    b.compiledBlocks template = blocksOf b.marker template :=
  List.takeWhile_eq_self_iff.mpr fun block hblock => decide_eq_true (compile_fault_eq_none_iff.mp h block hblock)

theorem isRead_of_mem_compiledBlocks {b : Builder} {template : Text} {block : Block}
    (h : block ∈ b.compiledBlocks template) : block.IsRead b.dialect := by
  simpa using List.mem_takeWhile_imp h

theorem lines_compiledBlocks_nodup (b : Builder) (template : Text) :
    ((b.compiledBlocks template).flatMap Block.lines).Nodup := by
  have hnodup := lines_blocksOf_nodup b.marker template
  have hsplit : b.compiledBlocks template ++ (blocksOf b.marker template).dropWhile _ = blocksOf b.marker template :=
    List.takeWhile_append_dropWhile
  rw [← hsplit, List.flatMap_append] at hnodup
  exact (List.nodup_append.mp hnodup).1

/-- What a builder adds: every line of the blocks that are compiled stands at a new place, and the roots are the places
of the top-level lines. -/
theorem exists_shows_compiledBlocks (b : Builder) {d : Document} (template : Text) (hcontainer : b.container < d.size) :
    ∃ place, (b.compile d template).document.Shows (Line.node b.dialect) (b.compiledBlocks template) place ∧
      (b.compile d template).roots = (b.compiledBlocks template).map (fun block => place block.root) ∧
      ∀ l ∈ (b.compiledBlocks template).flatMap Block.lines, d.size ≤ place l := by
  obtain ⟨d', os, hos, hdocument⟩ := b.compile_mounted d template
  have hperm := preorder_layouts_perm (b.compiledBlocks template)
  have htrees : os.map (Rose.map d'.node) =
      ((b.compiledBlocks template).map Block.layout).map (Rose.map (Line.node b.dialect)) := by
    rw [hos.trees_eq, (compile_eq b.dialect template).2.1, List.map_map]
    rfl
  obtain ⟨place, rfl, hplace⟩ := Rose.exists_map_eq htrees
    (hperm.nodup_iff.mpr (b.lines_compiledBlocks_nodup template))
  have hplaces := hperm.map place
  rw [← Rose.flatMap_preorder_map] at hplaces
  have hmem : ∀ l ∈ (b.compiledBlocks template).flatMap Block.lines, d.size ≤ place l := fun l hl =>
    (hos.mem_lt (hplaces.mem_iff.mpr (List.mem_map_of_mem hl))).1
  refine ⟨place, ⟨fun block hblock => ?_, fun l hl => ?_, hplaces.nodup_iff.mp hos.distinct⟩, ?_, hmem⟩
  · have ho : block.layout.map place ∈ ((b.compiledBlocks template).map Block.layout).map (Rose.map place) :=
      List.mem_map_of_mem (List.mem_map_of_mem hblock)
    rw [hdocument, ← block.self_map_layout place]
    refine (hos.hasOutline _ ho).appendChildren _ fun hcontained => ?_
    exact Nat.lt_irrefl _ (Nat.lt_of_lt_of_le hcontainer (hos.fresh _ ho _ hcontained))
  · rw [hdocument, Document.node_appendChildren]
    exact hplace l (hperm.mem_iff.mpr hl)
  · rw [← hos.refs_eq, List.map_map, List.map_map]
    exact List.map_congr_left fun block _ => block.self_map_layout place

theorem exists_shows_compile (b : Builder) {d : Document} {template : Text} (hcontainer : b.container < d.size)
    (hfault : (b.compile d template).fault = none) :
    ∃ place, (b.compile d template).document.Shows (Line.node b.dialect) (blocksOf b.marker template) place ∧
      (b.compile d template).roots = (blocksOf b.marker template).map (fun block => place block.root) ∧
      ∀ l ∈ (blocksOf b.marker template).flatMap Block.lines, d.size ≤ place l := by
  rw [← compiledBlocks_of_fault_eq_none hfault]
  exact b.exists_shows_compiledBlocks template hcontainer

theorem exists_hasOutline_compile (b : Builder) {d : Document} (template : Text) (hcontainer : b.container < d.size)
    {r : Ref} {o : Rose Ref} (h : d.HasOutline r o) : ∃ o, (b.compile d template).document.HasOutline r o := by
  obtain ⟨d', os, hos, hdocument⟩ := b.compile_mounted d template
  have hgrows := b.growsAt_compile template hcontainer
  refine h.exists_of_children hgrows.size_le fun x hx c hc => ?_
  by_cases hxc : x = b.container
  · rw [hxc, hgrows.children_container] at hc
    rcases List.mem_append.mp hc with hc | hc
    · exact .inl (hxc ▸ hc)
    · rw [← hos.refs_eq] at hc
      obtain ⟨o, ho, rfl⟩ := List.mem_map.mp hc
      refine .inr ⟨o, ?_⟩
      rw [hdocument]
      refine (hos.hasOutline o ho).appendChildren _ fun hmem => ?_
      exact Nat.lt_irrefl _ (Nat.lt_of_lt_of_le hcontainer (hos.fresh o ho _ hmem))
  · exact .inl (hgrows.children_eq x hx hxc ▸ hc)

end Builder

end IndentMarkup
