import IndentMarkup.Proofs.Rose
import IndentMarkup.Tree.Document

/-!
# Outlines

An element *has an outline* when what is below it is finite and in use; this outline is then the one that a walk
through the document finds (`HasOutline.outline_eq`). Elements that are added keep the outlines that are there
(`HasOutline.of_grows`), and so does what changes nodes alone (`HasOutline.modifyNode`).
-/

namespace IndentMarkup

namespace Document

/-! ## Outlines -/

/-- The tree of references below an element: it is finite, and all its elements are in use. -/
structure HasOutline (d : Document) (r : Ref) (o : Rose Ref) : Prop where
  self_eq : o.self = r
  follows : o.Follows d.children
  lt_size : ∀ x ∈ o.preorder, x < d.size

/-- A walk over as many levels as there are references to meet sees the whole outline. -/
theorem outlineTo_eq {d : Document} {levels : Nat} {o : Rose Ref} (refs : List Ref)
    (hfollows : o.Follows d.children) (hmem : ∀ x ∈ o.preorder, x ∈ refs) (hlength : refs.length ≤ levels) :
    d.outlineTo levels o.self = o := by
  induction o using Rose.induction generalizing levels refs with
  | h r cs ih =>
      have hr : r ∈ refs := hmem r (by simp)
      obtain ⟨below, rfl⟩ : ∃ n, levels = n + 1 :=
        ⟨levels - 1, by have := List.length_pos_of_mem hr; omega⟩
      obtain ⟨hlabels, hbelow⟩ := Rose.follows_node_iff.mp hfollows
      have hcs : cs.map (d.outlineTo below ∘ Rose.self) = cs := by
        conv_rhs => rw [← List.map_id cs]
        refine List.map_congr_left fun c hc => ?_
        refine ih c hc (refs.erase r) (hbelow c hc) (fun x hx => ?_) ?_
        · have hne : x ≠ r := fun heq => hfollows.not_mem_preorder_child hc (heq ▸ hx)
          refine (List.mem_erase_of_ne hne).mpr (hmem x ?_)
          rw [Rose.preorder_node]
          exact .tail _ (List.mem_flatMap.mpr ⟨c, hc, hx⟩)
        · rw [List.length_erase_of_mem hr]
          omega
      rw [Rose.self_node, outlineTo, ← hlabels, List.map_map, hcs]

theorem HasOutline.outline_eq {d : Document} {r : Ref} {o : Rose Ref} (h : d.HasOutline r o) :
    d.outline r = o := by
  have heq := outlineTo_eq (List.range d.size) h.follows
    (fun x hx => List.mem_range.mpr (h.lt_size x hx)) (Nat.le_of_eq List.length_range)
  rwa [h.self_eq] at heq

theorem HasOutline.tree_eq {d : Document} {r : Ref} {o : Rose Ref} (h : d.HasOutline r o) :
    d.tree r = o.map d.node := by
  rw [tree, h.outline_eq]

theorem HasOutline.exists_children {d : Document} {r : Ref} {o : Rose Ref} (h : d.HasOutline r o) :
    ∃ cs, o = .node r cs :=
  ⟨o.children, by rw [← h.self_eq, Rose.eta]⟩

theorem HasOutline.self_lt_size {d : Document} {r : Ref} {o : Rose Ref} (h : d.HasOutline r o) : r < d.size :=
  h.lt_size r (h.self_eq ▸ o.self_mem_preorder)

theorem HasOutline.child {d : Document} {r : Ref} {cs : List (Rose Ref)} (h : d.HasOutline r (.node r cs))
    {c : Rose Ref} (hc : c ∈ cs) : d.HasOutline c.self c where
  self_eq := rfl
  follows := (Rose.follows_node_iff.mp h.follows).2 c hc
  lt_size x hx := h.lt_size x (by
    rw [Rose.preorder_node]
    exact .tail _ (List.mem_flatMap.mpr ⟨c, hc, hx⟩))

theorem HasOutline.lt_size_of_mem_children {d : Document} {r x : Ref} {o : Rose Ref} (h : d.HasOutline r o)
    (hx : x ∈ d.children r) : x < d.size := by
  obtain ⟨cs, rfl⟩ := h.exists_children
  rw [← (Rose.follows_node_iff.mp h.follows).1] at hx
  obtain ⟨c, hc, rfl⟩ := List.mem_map.mp hx
  exact (h.child hc).self_lt_size

theorem exists_hasOutline {d : Document} {r : Ref} (hr : r < d.size)
    (hchildren : ∀ c ∈ d.children r, ∃ o, d.HasOutline c o) : ∃ o, d.HasOutline r o := by
  have houtline : ∀ c ∈ d.children r, d.HasOutline c (d.outline c) := by
    intro c hc
    obtain ⟨o, ho⟩ := hchildren c hc
    exact ho.outline_eq.symm ▸ ho
  refine ⟨.node r ((d.children r).map d.outline), rfl, Rose.follows_node_iff.mpr ⟨?_, fun o ho => ?_⟩, fun x hx => ?_⟩
  · rw [List.map_map]
    conv_rhs => rw [← List.map_id (d.children r)]
    exact List.map_congr_left fun c hc => (houtline c hc).self_eq
  · obtain ⟨c, hc, rfl⟩ := List.mem_map.mp ho
    exact (houtline c hc).follows
  · rw [Rose.preorder_node] at hx
    rcases List.mem_cons.mp hx with rfl | hx
    · exact hr
    · obtain ⟨o, ho, hx⟩ := List.mem_flatMap.mp hx
      obtain ⟨c, hc, rfl⟩ := List.mem_map.mp ho
      exact (houtline c hc).lt_size x hx

/-- An element keeps an outline, though not the same one, if all children that are new have outlines. -/
theorem HasOutline.exists_of_children {d d' : Document} {r : Ref} {o : Rose Ref} (h : d.HasOutline r o)
    (hsize : d.size ≤ d'.size)
    (hchildren : ∀ x < d.size, ∀ c ∈ d'.children x, c ∈ d.children x ∨ ∃ o, d'.HasOutline c o) :
    ∃ o, d'.HasOutline r o := by
  induction o using Rose.induction generalizing r with
  | h a cs ih =>
      obtain rfl : a = r := h.self_eq
      have ha : a < d.size := h.lt_size a (by simp)
      refine exists_hasOutline (Nat.lt_of_lt_of_le ha hsize) fun c hc => ?_
      rcases hchildren a ha c hc with hold | hnew
      · rw [← (Rose.follows_node_iff.mp h.follows).1] at hold
        obtain ⟨o, ho, rfl⟩ := List.mem_map.mp hold
        exact ih o ho (h.child ho)
      · exact hnew

/-! ## Documents that only grow -/

theorem element_of_grows {d d' : Document} (h : d.elements <+: d'.elements) {x : Ref} (hx : x < d.size) :
    d'.element x = d.element x := by
  obtain ⟨more, hmore⟩ := h
  rw [element, element, ← hmore, List.getD_eq_getElem?_getD, List.getD_eq_getElem?_getD,
    List.getElem?_append_left hx]

theorem size_le_of_grows {d d' : Document} (h : d.elements <+: d'.elements) : d.size ≤ d'.size := h.length_le

theorem children_of_grows {d d' : Document} (h : d.elements <+: d'.elements) {x : Ref} (hx : x < d.size) :
    d'.children x = d.children x := by
  rw [children, children, element_of_grows h hx]

theorem node_of_grows {d d' : Document} (h : d.elements <+: d'.elements) {x : Ref} (hx : x < d.size) :
    d'.node x = d.node x := by
  rw [node, node, element_of_grows h hx]

theorem HasOutline.of_grows {d d' : Document} (h : d.elements <+: d'.elements) {r : Ref} {o : Rose Ref}
    (ho : d.HasOutline r o) : d'.HasOutline r o where
  self_eq := ho.self_eq
  follows := ho.follows.congr fun x hx => (children_of_grows h (ho.lt_size x hx)).symm
  lt_size x hx := Nat.lt_of_lt_of_le (ho.lt_size x hx) (size_le_of_grows h)

theorem map_node_of_grows {d d' : Document} (h : d.elements <+: d'.elements) {o : Rose Ref}
    (ho : ∀ x ∈ o.preorder, x < d.size) : o.map d'.node = o.map d.node :=
  Rose.map_congr fun x hx => node_of_grows h (ho x hx)

/-! ## Changes in place -/

theorem appendChildren_nil (d : Document) (parent : Ref) : d.appendChildren parent [] = d := by
  have hsame : (fun e : Element => { e with children := e.children ++ [] }) = id := by
    funext e
    rw [List.append_nil]
    rfl
  rw [appendChildren, modifyChildren, hsame, List.modify_id]

theorem size_appendChildren (d : Document) (parent : Ref) (more : List Ref) :
    (d.appendChildren parent more).size = d.size := by
  simp [appendChildren, modifyChildren, size]

@[simp] theorem node_appendChildren (d : Document) (parent : Ref) (more : List Ref) :
    (d.appendChildren parent more).node = d.node := by
  funext x
  simp only [node, element, appendChildren, modifyChildren, List.getD_eq_getElem?_getD, List.getElem?_modify]
  cases d.elements[x]? with
  | none => rfl
  | some e =>
      by_cases h : parent = x <;> simp [h]

theorem children_appendChildren_of_ne (d : Document) {parent : Ref} (more : List Ref) {x : Ref} (h : parent ≠ x) :
    (d.appendChildren parent more).children x = d.children x := by
  simp [children, element, appendChildren, modifyChildren, List.getD_eq_getElem?_getD, h]

theorem children_appendChildren_self {d : Document} {parent : Ref} (more : List Ref) (h : parent < d.size) :
    (d.appendChildren parent more).children parent = d.children parent ++ more := by
  rw [size] at h
  simp [children, element, appendChildren, modifyChildren, List.getD_eq_getElem?_getD, h]

theorem HasOutline.appendChildren {d : Document} {r : Ref} {o : Rose Ref} (h : d.HasOutline r o) {parent : Ref}
    (more : List Ref) (hparent : parent ∉ o.preorder) : (d.appendChildren parent more).HasOutline r o where
  self_eq := h.self_eq
  follows := h.follows.congr fun x hx =>
    (children_appendChildren_of_ne d more fun (heq : parent = x) => hparent (heq ▸ hx)).symm
  lt_size x hx := by
    rw [size_appendChildren]
    exact h.lt_size x hx

theorem size_modifyNode (d : Document) (r : Ref) (f : Node → Node) : (d.modifyNode r f).size = d.size := by
  simp [modifyNode, size]

@[simp] theorem children_modifyNode (d : Document) (r : Ref) (f : Node → Node) :
    (d.modifyNode r f).children = d.children := by
  funext x
  simp only [children, element, modifyNode, List.getD_eq_getElem?_getD, List.getElem?_modify]
  cases d.elements[x]? with
  | none => rfl
  | some e =>
      by_cases h : r = x <;> simp [h]

theorem node_modifyNode_of_ne (d : Document) {r x : Ref} (h : x ≠ r) (f : Node → Node) :
    (d.modifyNode r f).node x = d.node x := by
  simp [node, element, modifyNode, List.getD_eq_getElem?_getD, Ne.symm h]

theorem modifyNode_of_size_le {d : Document} {r : Ref} (h : d.size ≤ r) (f : Node → Node) : d.modifyNode r f = d := by
  rw [modifyNode, List.modify_eq_self h]

theorem node_modifyNode {d : Document} {r : Ref} (h : r < d.size) (f : Node → Node) :
    (d.modifyNode r f).node = Function.update d.node r (f (d.node r)) := by
  rw [size] at h
  funext x
  by_cases hx : r = x
  · subst hx
    simp [node, element, modifyNode, List.getD_eq_getElem?_getD, h]
  · rw [Function.update_of_ne (Ne.symm hx), node_modifyNode_of_ne d (Ne.symm hx)]

theorem HasOutline.modifyNode {d : Document} {r : Ref} {o : Rose Ref} (h : d.HasOutline r o) (x : Ref)
    (f : Node → Node) : (d.modifyNode x f).HasOutline r o where
  self_eq := h.self_eq
  follows := by
    rw [children_modifyNode]
    exact h.follows
  lt_size y hy := by
    rw [size_modifyNode]
    exact h.lt_size y hy

end Document

end IndentMarkup
