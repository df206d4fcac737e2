import IndentMarkup.Proofs.Tables
import IndentMarkup.Template.Compile
import Mathlib.Data.List.TakeDrop

/-!
# The node of a line

A line that is read says what its groups say (`LineGroups.read_eq_ok`). The node is made without listeners first
(`Descriptor.quietNode`), and its events add nothing but listeners (`Descriptor.apply_materialize`). So its tag is that
of the line, and the names of its attributes are those of the line besides `class` and `id`
(`Descriptor.mem_names_materialize`).
-/

namespace IndentMarkup

/-! ## Lines that are read -/

namespace LineGroups

variable {g : LineGroups} {separator : Text} {reading : LineReading}

theorem read_eq_ok (h : g.read separator = .ok reading) :
    g.tag ≠ [] ∧ (g.hasItems → separator ≠ []) ∧ ∃ text, g.text = .ok text ∧ reading.descriptor =
      ⟨g.tag, g.classes, g.id, text, (g.items separator).filterMap Item.attribute?, g.events⟩ := by
  rw [read] at h
  split at h
  · simp at h
  · next htag =>
      split at h
      · simp at h
      · next text htext =>
          split at h
          · simp at h
          · next hitems =>
              obtain rfl := Except.ok.inj h
              exact ⟨by simpa using htag, by simpa using hitems, text, htext, rfl⟩

theorem isWord_of_mem_tag {line : Text} {c : Char} (hc : c ∈ (ofText line).tag) : isWord c := by
  have htag : (ofText line).tag = line.takeWhile isWord :=
    congrArg Prod.fst (List.span_eq_takeWhile_dropWhile isWord line)
  rw [htag] at hc
  exact List.all_eq_true.mp List.all_takeWhile c hc

end LineGroups

theorem filter_ne_nil_eq_self {token : Option Text} (h : token ≠ some []) : token.filter (· ≠ []) = token := by
  rcases token with _ | _ | ⟨c, r⟩
  · rfl
  · exact absurd rfl h
  · rfl

/-! ## Nodes without their listeners -/

/-- What no step changes is the same after all of them. -/
theorem apply_foldl {α β : Type} {g : Node → β} {f : Node → α → Node} (hf : ∀ n x, g (f n x) = g n) (items : List α)
    (n : Node) : g (items.foldl f n) = g n := by
  induction items generalizing n with
  | nil => rfl
  | cons x rest ih => rw [List.foldl_cons, ih, hf]

namespace Node

section

variable {β : Type} {g : Node → β}

theorem apply_setAttribute (hg : ∀ n classes id attrs, g { n with classes, id, attrs } = g n) (n : Node)
    (name value : Text) : g (n.setAttribute name value) = g n := by
  rw [setAttribute]
  split
  · exact hg n _ n.id n.attrs
  · split
    · exact hg n n.classes _ n.attrs
    · exact hg n n.classes n.id _

theorem apply_setAttributes (hg : ∀ n classes id attrs, g { n with classes, id, attrs } = g n) (n : Node)
    (attributes : List (Text × Option Text)) : g (n.setAttributes attributes) = g n := by
  rw [setAttributes]
  exact apply_foldl (fun n entry => apply_setAttribute hg n entry.1 _) attributes n

theorem apply_setId (hg : ∀ n id, g { n with id } = g n) (n : Node) (id : Option Text) : g (n.setId id) = g n := by
  cases id with
  | none => rfl
  | some value =>
      rw [setId]
      split
      · rfl
      · rw [setAttribute, if_neg (by decide), if_pos rfl, hg]

theorem apply_setText (hg : ∀ n text, g { n with text } = g n) (n : Node) (text : Option Text) :
    g (n.setText text) = g n := by
  rw [setText]
  split
  · rfl
  · exact hg n text

theorem apply_listenTo (hg : ∀ n listeners, g { n with listeners } = g n) (registry : Registry) (n : Node)
    (name : Text) : g (n.listenTo registry name) = g n := by
  rw [listenTo]
  split
  · rw [listen]
    split
    · rfl
    · exact hg n _
  · rfl

end

theorem mem_names_setAttribute {n : Node} {name value other : Text} :
    other ∈ (n.setAttribute name value).attrs.map Prod.fst ↔
      other ∈ n.attrs.map Prod.fst ∨ (other = name ∧ other ≠ "class".toList ∧ other ≠ "id".toList) := by
  rw [setAttribute]
  split
  · next hclass => exact ⟨.inl, fun h => h.resolve_right fun hname => hname.2.1 (hname.1.trans hclass)⟩
  · next hclass =>
      split
      · next hid => exact ⟨.inl, fun h => h.resolve_right fun hname => hname.2.2 (hname.1.trans hid)⟩
      · next hid =>
          rw [Pairs.mem_map_fst_put, or_comm]
          exact or_congr_right ⟨fun heq => ⟨heq, heq ▸ hclass, heq ▸ hid⟩, And.left⟩

theorem mem_names_setAttributes {n : Node} {attributes : List (Text × Option Text)} {name : Text} :
    name ∈ (n.setAttributes attributes).attrs.map Prod.fst ↔
      name ∈ n.attrs.map Prod.fst ∨
        (name ∈ attributes.map Prod.fst ∧ name ≠ "class".toList ∧ name ≠ "id".toList) := by
  rw [setAttributes]
  induction attributes generalizing n with
  | nil => simp
  | cons entry more ih =>
      rw [List.foldl_cons, ih, mem_names_setAttribute, List.map_cons, List.mem_cons, or_and_right, or_assoc]

end Node

namespace Descriptor

variable {β : Type} {g : Node → β}

/-- The node that a descriptor describes, without the listeners of its events. -/
def quietNode (makeNode : Text → Node) (d : Descriptor) : Node :=
  (((d.classes.foldl Node.addClass (makeNode d.tag)).setAttributes d.attributes).setId d.id).setText d.text

theorem materialize_eq (dialect : Dialect) (d : Descriptor) :
    d.materialize dialect = d.events.foldl (Node.listenTo dialect.registry) (d.quietNode dialect.makeNode) := rfl

/-- The tag, the style and the listeners of a node are those that it is made with. -/
theorem apply_quietNode (hg : ∀ n classes id text attrs, g { n with classes, id, text, attrs } = g n)
    (makeNode : Text → Node) (d : Descriptor) : g (d.quietNode makeNode) = g (makeNode d.tag) := by
  rw [quietNode, Node.apply_setText fun n text => hg n n.classes n.id text n.attrs,
    Node.apply_setId fun n id => hg n n.classes id n.text n.attrs,
    Node.apply_setAttributes fun n classes id attrs => hg n classes id n.text attrs]
  exact apply_foldl (fun n name => hg n _ n.id n.text n.attrs) d.classes _

/-- The events of a line add nothing but listeners. -/
theorem apply_materialize (hg : ∀ n listeners, g { n with listeners } = g n) (dialect : Dialect) (d : Descriptor) :
    g (d.materialize dialect) = g (d.quietNode dialect.makeNode) :=
  apply_foldl (Node.apply_listenTo hg dialect.registry) d.events _

theorem tag_materialize (dialect : Dialect) (d : Descriptor) :
    (d.materialize dialect).tag = (dialect.makeNode d.tag).tag :=
  (apply_materialize (fun _ _ => rfl) dialect d).trans (apply_quietNode (fun _ _ _ _ _ => rfl) dialect.makeNode d)

theorem mem_names_materialize {dialect : Dialect} {d : Descriptor} {name : Text} :
    name ∈ (d.materialize dialect).attrs.map Prod.fst ↔
      name ∈ (dialect.makeNode d.tag).attrs.map Prod.fst ∨
        (name ∈ d.attributes.map Prod.fst ∧ name ≠ "class".toList ∧ name ≠ "id".toList) := by
  rw [apply_materialize (g := Node.attrs) fun _ _ => rfl, quietNode,
    Node.apply_setText (g := Node.attrs) fun _ _ => rfl, Node.apply_setId (g := Node.attrs) fun _ _ => rfl, Node.mem_names_setAttributes,
    apply_foldl (g := Node.attrs) (f := Node.addClass) fun _ _ => rfl]

end Descriptor

end IndentMarkup
