import IndentMarkup.Proofs.BuiltWindow
import IndentMarkup.Proofs.FailedBuilds

/-!
# Where a document is changed

A document is *changed within a region* if no element outside of it looks different, and if no other element than a
single one, the container, has other children (`Document.ChangesWithin`). So what does not meet the region or the
container is the same, element by element and as a tree. An operation on a window that is built changes the document
within what is below the element of the window (`Effect.changesWithin`), and building a window changes no element at
all.
-/

namespace IndentMarkup

namespace Document

/-- Elements may be added, the elements of the region may have another style and another text, and the container may
have other children. -/
structure ChangesWithin (container : Ref) (region : List Ref) (d d' : Document) : Prop where
  size_le : d.size ≤ d'.size
  node_eq : ∀ x < d.size, x ∉ region → d'.node x = d.node x
  retouched : ∀ x < d.size, ∃ style text, d'.node x = { d.node x with style, text }
  children_eq : ∀ x < d.size, x ≠ container → d'.children x = d.children x

section

variable {container : Ref} {region : List Ref} {d d' : Document}

theorem ChangesWithin.refl (container : Ref) (region : List Ref) (d : Document) :
    ChangesWithin container region d d :=
  ⟨Nat.le_refl _, fun _ _ _ => rfl, fun x _ => ⟨(d.node x).style, (d.node x).text, rfl⟩, fun _ _ _ => rfl⟩

theorem GrowsAt.changesWithin {roots : List Ref} (h : GrowsAt container roots d d') (region : List Ref) :
    ChangesWithin container region d d' where
  size_le := h.size_le
  node_eq x hx _ := h.node_eq x hx
  retouched x hx := ⟨(d.node x).style, (d.node x).text, h.node_eq x hx⟩
  children_eq := h.children_eq

namespace ChangesWithin

theorem apply_node (h : ChangesWithin container region d d') {α : Type} {g : Node → α}
    (hg : ∀ n style text, g { n with style, text } = g n) {x : Ref} (hx : x < d.size) :
    g (d'.node x) = g (d.node x) := by
  obtain ⟨style, text, heq⟩ := h.retouched x hx
  rw [heq, hg]

variable {x : Ref} {o : Rose Ref}

theorem hasOutline (h : ChangesWithin container region d d') (ho : d.HasOutline x o)
    (hcontainer : container ∉ o.preorder) : d'.HasOutline x o where
  self_eq := ho.self_eq
  follows := ho.follows.congr fun y hy =>
    (h.children_eq y (ho.lt_size y hy) fun (heq : y = container) => hcontainer (heq ▸ hy)).symm
  lt_size y hy := Nat.lt_of_lt_of_le (ho.lt_size y hy) h.size_le

theorem tree_eq (h : ChangesWithin container region d d') (ho : d.HasOutline x o) (hcontainer : container ∉ o.preorder)
    (hregion : o.preorder.Disjoint region) : d'.tree x = d.tree x := by
  rw [(h.hasOutline ho hcontainer).tree_eq, ho.tree_eq]
  exact Rose.map_congr fun y hy => h.node_eq y (ho.lt_size y hy) (hregion hy)

end ChangesWithin

/-! ## Walks -/

theorem self_mem_walk (d : Document) (r : Ref) : r ∈ d.walk r := by
  rw [walk, outline]
  cases d.size with
  | zero => exact List.mem_singleton_self r
  | succ levels =>
      rw [outlineTo, Rose.preorder_node]
      exact List.mem_cons_self

/-- If no element gets another child, nothing new is met below an element. -/
theorem HasOutline.walk_subset {r : Ref} {o o' : Rose Ref} (h : d.HasOutline r o) (h' : d'.HasOutline r o')
    (hchildren : ∀ x < d.size, d'.children x ⊆ d.children x) : d'.walk r ⊆ d.walk r := by
  rw [h.walk_eq, h'.walk_eq]
  induction o using Rose.induction generalizing r o' with
  | h a cs ih =>
      obtain rfl : a = r := h.self_eq
      obtain ⟨cs', rfl⟩ := h'.exists_children
      intro x hx
      rw [Rose.preorder_node] at hx ⊢
      rcases List.mem_cons.mp hx with rfl | hx
      · exact List.mem_cons_self
      · obtain ⟨c', hc', hx⟩ := List.mem_flatMap.mp hx
        have hself : c'.self ∈ d.children a := by
          refine hchildren a (h.lt_size a (by simp)) ?_
          rw [← (Rose.follows_node_iff.mp h'.follows).1]
          exact List.mem_map_of_mem hc'
        rw [← (Rose.follows_node_iff.mp h.follows).1] at hself
        obtain ⟨c, hc, heq⟩ := List.mem_map.mp hself
        exact .tail _ (List.mem_flatMap.mpr ⟨c, hc, ih c hc (h.child hc) (heq ▸ h'.child hc') hx⟩)

end

end Document

namespace Effect

variable {w : Window} {r : Ref} {d : Document} {s : WindowStep}

/-- Only the element of the window and the title elements below it may look different after an operation. -/
theorem node_eq (h : Effect w r d s) (hnode : w.node = some r) {x : Ref} (hx : x ≠ r)
    (htitle : x ∉ d.findByClass r "window-title".toList) : s.document.node x = d.node x := by
  have hside : ∀ side size, (w.showSize d side size).node x = d.node x := by
    intro side size
    rw [Window.showSize, hnode]
    cases w.status with
    | normal => exact d.node_modifyNode_of_ne hx _
    | minimized => rfl
  cases h with
  | minified => exact d.node_modifyNode_of_ne hx _
  | extended => exact d.node_modifyNode_of_ne hx _
  | closed => exact d.node_modifyNode_of_ne hx _
  | reappeared => exact d.node_modifyNode_of_ne hx _
  | removed => exact congrFun (d.node_modifyChildren _ _) x
  | titled title found =>
      refine d.node_modifyNode_of_ne (fun heq => htitle ?_) _
      rw [found, heq]
      exact List.mem_cons_self
  | widened width => exact hside "width" width
  | heightened height => exact hside "height" height
  | _ => rfl

/-- An operation on a window changes nothing but what is below its element, and the children of the element that the
window was built into. -/
theorem changesWithin (h : Effect w r d s) (hnode : w.node = some r) :
    Document.ChangesWithin w.builder.container (d.walk r) d s.document where
  size_le := Nat.le_of_eq h.size_eq.symm
  node_eq x _ hx := by
    refine h.node_eq hnode (fun heq => hx (heq ▸ d.self_mem_walk r)) fun htitle => hx ?_
    exact List.mem_of_mem_filter htitle
  retouched x hx := by
    rcases h.document_cases with heq | ⟨y, f, hf, heq⟩ | ⟨-, heq⟩
    · exact ⟨(d.node x).style, (d.node x).text, congrArg (Document.node · x) heq⟩
    · rw [heq]
      by_cases hxy : x = y
      · subst hxy
        rw [Document.node_modifyNode_self hx]
        exact hf (d.node x)
      · exact ⟨(d.node x).style, (d.node x).text, d.node_modifyNode_of_ne hxy f⟩
    · rw [heq, Document.node_modifyChildren]
      exact ⟨(d.node x).style, (d.node x).text, rfl⟩
  children_eq x _ hne := h.children_eq fun heq => absurd heq hne

/-- The element of the window may be taken out of the one that the window was built into. The other children of this
one stay, in their order. -/
theorem filter_children_eq (h : Effect w r d s) (hnode : w.node = some r) {p : Ref} (hp : p < d.size) :
    (s.document.children p).filter (w.node ≠ some ·) = (d.children p).filter (w.node ≠ some ·) := by
  rw [hnode]
  rcases h.document_cases with heq | ⟨y, f, -, heq⟩ | ⟨-, heq⟩
  · rw [heq]
  · rw [heq, Document.children_modifyNode]
  · rw [heq]
    by_cases hcontainer : p = w.builder.container
    · subst hcontainer
      rw [Document.children_modifyChildren_self hp, ← List.erase_filter, List.erase_of_not_mem (by simp)]
    · rw [Document.children_modifyChildren_of_ne _ hcontainer]

end Effect

/-! ## The ids of a window -/

theorem Line.id_node (dialect : Dialect) (registry : Registry) (l : Line) :
    (l.node dialect).id = (l.node { dialect with registry }).id := by
  rw [node, node, descriptorNode, descriptorNode]
  cases readLine dialect.separator l.descriptor with
  | error failure => rfl
  | ok reading =>
      have hquiet : ∀ dialect : Dialect, (reading.descriptor.materialize dialect).id =
          (reading.descriptor.quietNode dialect.makeNode).id :=
        fun dialect => Descriptor.apply_materialize (fun _ _ => rfl) dialect reading.descriptor
      exact (hquiet dialect).trans (hquiet { dialect with registry }).symm

namespace Chrome

/-- No element of the chrome has an id, apart from the one of the window. -/
theorem id_node {dialect : Dialect} (hseparator : dialect.separator = defaultSeparator)
    (hmake : dialect.makeNode = Node.ofTag) {l : Line} (hl : l ∈ upper ++ [body]) : (l.node dialect).id = none := by
  have hids : ∀ l ∈ upper ++ [body], (l.node ⟨defaultSeparator, defaultMarker, .empty, Node.ofTag⟩).id = none := by
    decide +kernel
  obtain ⟨separator, marker, registry, makeNode⟩ := dialect
  obtain rfl : separator = defaultSeparator := hseparator
  obtain rfl : makeNode = Node.ofTag := hmake
  rw [Line.id_node _ .empty]
  exact hids l hl

end Chrome

end IndentMarkup
