import IndentMarkup.Builder
import IndentMarkup.Proofs.Outlines

/-!
# Trees as elements of a document

The trees of a template become elements of a document. Mounting trees adds elements behind those that are there and
gives them outlines that look like the trees (`mountAll_mounted`). So the roots that a builder returns are the trees
of the template in the document (`trees_compile`).
-/

namespace IndentMarkup

namespace Document

/-! ## Mounting -/

/-- New outlines behind the elements of a document: they share no element with it nor with each other. -/
structure Mounted (d d' : Document) (refs : List Ref) (ts : List Tree) (os : List (Rose Ref)) : Prop where
  grows : d.elements <+: d'.elements
  refs_eq : os.map Rose.self = refs
  trees_eq : os.map (Rose.map d'.node) = ts
  hasOutline : ∀ o ∈ os, d'.HasOutline o.self o
  fresh : ∀ o ∈ os, ∀ x ∈ o.preorder, d.size ≤ x
  distinct : (os.flatMap Rose.preorder).Nodup

theorem Mounted.mem_lt {d d' : Document} {refs : List Ref} {ts : List Tree} {os : List (Rose Ref)}
    (h : Mounted d d' refs ts os) {x : Ref} (hx : x ∈ os.flatMap Rose.preorder) : d.size ≤ x ∧ x < d'.size := by
  obtain ⟨o, ho, hxo⟩ := List.mem_flatMap.mp hx
  exact ⟨h.fresh o ho x hxo, (h.hasOutline o ho).lt_size x hxo⟩

theorem Mounted.append {d d₁ d₂ : Document} {refs refs' : List Ref} {ts ts' : List Tree}
    {os os' : List (Rose Ref)} (h : Mounted d d₁ refs ts os) (h' : Mounted d₁ d₂ refs' ts' os') :
    Mounted d d₂ (refs ++ refs') (ts ++ ts') (os ++ os') where
  grows := h.grows.trans h'.grows
  refs_eq := by rw [List.map_append, h.refs_eq, h'.refs_eq]
  trees_eq := by
    have hfront : os.map (Rose.map d₂.node) = os.map (Rose.map d₁.node) :=
      List.map_congr_left fun o ho => map_node_of_grows h'.grows (h.hasOutline o ho).lt_size
    rw [List.map_append, hfront, h.trees_eq, h'.trees_eq]
  hasOutline o ho := by
    rcases List.mem_append.mp ho with ho | ho
    · exact (h.hasOutline o ho).of_grows h'.grows
    · exact h'.hasOutline o ho
  fresh o ho x hx := by
    rcases List.mem_append.mp ho with ho | ho
    · exact h.fresh o ho x hx
    · exact Nat.le_trans (size_le_of_grows h.grows) (h'.fresh o ho x hx)
  distinct := by
    rw [List.flatMap_append, List.nodup_append]
    refine ⟨h.distinct, h'.distinct, ?_⟩
    rintro x hx _ hx' rfl
    exact Nat.lt_irrefl _ (Nat.lt_of_lt_of_le (h.mem_lt hx).2 (h'.mem_lt hx').1)

theorem Mounted.insert {d d₁ : Document} {refs : List Ref} {cs : List Tree} {os : List (Rose Ref)}
    (h : Mounted d d₁ refs cs os) (n : Node) :
    Mounted d (d₁.insert ⟨n, refs⟩).1 [(d₁.insert ⟨n, refs⟩).2] [.node n cs] [.node d₁.size os] := by
  have hgrows : d₁.elements <+: (d₁.insert ⟨n, refs⟩).1.elements := List.prefix_append _ _
  have hsize : (d₁.insert ⟨n, refs⟩).1.size = d₁.size + 1 := by simp [Document.insert, size]
  have helement : (d₁.insert ⟨n, refs⟩).1.element d₁.size = ⟨n, refs⟩ := by
    simp [Document.insert, element, size]
  have hmem : ∀ x ∈ (Rose.node d₁.size os).preorder, x = d₁.size ∨ x ∈ os.flatMap Rose.preorder := by
    simp
  refine ⟨h.grows.trans hgrows, rfl, ?_, ?_, ?_, ?_⟩
  · have hbelow : os.map (Rose.map (d₁.insert ⟨n, refs⟩).1.node) = os.map (Rose.map d₁.node) :=
      List.map_congr_left fun o ho => map_node_of_grows hgrows (h.hasOutline o ho).lt_size
    rw [List.map_singleton, Rose.map_node, hbelow, h.trees_eq, node, helement]
  · intro o ho
    obtain rfl := List.mem_singleton.mp ho
    refine ⟨rfl, ?_, fun x hx => ?_⟩
    · rw [Rose.follows_node_iff, children, helement]
      exact ⟨h.refs_eq, fun c hc => ((h.hasOutline c hc).of_grows hgrows).follows⟩
    · rw [hsize]
      rcases hmem x hx with rfl | hx
      · exact Nat.lt_succ_self _
      · exact Nat.lt_succ_of_lt (h.mem_lt hx).2
  · intro o ho x hx
    obtain rfl := List.mem_singleton.mp ho
    rcases hmem x hx with rfl | hx
    · exact size_le_of_grows h.grows
    · exact (h.mem_lt hx).1
  · rw [List.flatMap_singleton, Rose.preorder_node, List.nodup_cons]
    exact ⟨fun hx => Nat.lt_irrefl _ (h.mem_lt hx).2, h.distinct⟩

/-- Mounting adds new elements that make up the trees. -/
theorem mountAll_mounted (d : Document) (ts : List Tree) :
    ∃ os, Mounted d (d.mountAll ts).1 (d.mountAll ts).2 ts os := by
  induction ts using Rose.induction_forest generalizing d with
  | nil => exact ⟨[], ⟨List.prefix_refl _, rfl, rfl, by simp, by simp, by simp⟩⟩
  | cons n cs rest ihcs ihrest =>
      obtain ⟨os, hcs⟩ := ihcs d
      obtain ⟨os', hrest⟩ := ihrest ((d.mountAll cs).1.insert ⟨n, (d.mountAll cs).2⟩).1
      exact ⟨_, (hcs.insert n).append hrest⟩

end Document

/-! ## The trees of a builder -/

/-- The trees that were added, as they stand in the document. -/
def Compiled.trees (c : Compiled) : List Tree := c.roots.map c.document.tree

namespace Builder

/-- What a builder adds to its document: new elements that make up the trees of the template, put behind the
children of its container. -/
theorem compile_mounted (b : Builder) (d : Document) (template : Text) :
    ∃ d' os, Document.Mounted d d' (b.compile d template).roots (IndentMarkup.compile b.dialect template).roots os ∧
      (b.compile d template).document = d'.appendChildren b.container (b.compile d template).roots := by
  obtain ⟨os, hos⟩ := d.mountAll_mounted (IndentMarkup.compile b.dialect template).roots
  exact ⟨_, os, hos, rfl⟩

theorem trees_compile (b : Builder) (d : Document) (template : Text) (hcontainer : b.container < d.size) :
    (b.compile d template).trees = (IndentMarkup.compile b.dialect template).roots := by
  obtain ⟨d', os, hos, hdocument⟩ := b.compile_mounted d template
  rw [Compiled.trees, hdocument, ← hos.trees_eq, ← hos.refs_eq, List.map_map]
  refine List.map_congr_left fun o ho => ?_
  have hparent : b.container ∉ o.preorder := fun hmem =>
    Nat.lt_irrefl _ (Nat.lt_of_lt_of_le hcontainer (hos.fresh o ho _ hmem))
  rw [Function.comp, ((hos.hasOutline o ho).appendChildren _ hparent).tree_eq, Document.node_appendChildren]

end Builder

end IndentMarkup
