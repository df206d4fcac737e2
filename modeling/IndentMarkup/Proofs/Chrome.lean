import IndentMarkup.Proofs.Containment
import IndentMarkup.Proofs.Placement
import IndentMarkup.Proofs.Printing
import IndentMarkup.Window.Desk

/-!
# The lines of a window

The template of a window is the chrome with the body behind it, two levels deeper, so all of it is one block
(`Window.exists_blocksOf_template`). The first four lines of the chrome go down level by level. So they come first in
the tree of the window, whatever the body is (`Chrome.exists_preorder_layout`).
-/

namespace IndentMarkup

/-! ## Nodes of a few words -/

def Node.bare (tag : Text) (classes : List Text) (id : Option Text) : Node := ⟨tag, classes, id, none, [], [], []⟩

namespace Node

@[simp] theorem classes_bare (tag : Text) (classes : List Text) (id : Option Text) :
    (bare tag classes id).classes = classes := rfl

/-- The words of a bare node are such that they can be written. -/
structure IsBareName (tag : Text) (classes : List Text) (id : Option Text) : Prop where
  tag_ne_nil : tag ≠ []
  tag_chars : tag.all isWord
  class_chars : ∀ name ∈ classes, name ≠ [] ∧ name.all isNameChar ∧ startsWithDigit name = false
  classes_distinct : classes.Nodup
  id_chars : ∀ name, id = some name → name ≠ [] ∧ name.all isNameChar

theorem isWritable_bare {tag : Text} {classes : List Text} {id : Option Text} (h : IsBareName tag classes id)
    (registry : Registry) : (bare tag classes id).IsWritable registry :=
  ⟨h.tag_ne_nil, List.all_eq_true.mp h.tag_chars,
    fun name hname => (h.class_chars name hname).imp_right (And.imp_left List.all_eq_true.mp), h.classes_distinct,
    fun name hname => (h.id_chars name hname).imp_right List.all_eq_true.mp, by simp [bare], by simp [bare],
    by simp [bare], rfl, by simp [bare], by simp [bare], by simp [bare]⟩

/-- The line of a bare node makes this node, whatever the registry holds. -/
theorem descriptorNode_bare {dialect : Dialect} (hseparator : dialect.separator = defaultSeparator)
    (hmake : dialect.makeNode = Node.ofTag) {tag : Text} {classes : List Text} {id : Option Text}
    (h : IsBareName tag classes id) :
    descriptorNode dialect (bare tag classes id).groups.written = bare tag classes id := by
  have hwritable := isWritable_bare h dialect.registry
  rw [descriptorNode, hseparator, readLine_groups hwritable (by simp [bare])]
  exact materialize_writtenDescriptor hmake hwritable (by simp [bare])

end Node

namespace Chrome

/-! ## The lines of the chrome -/

def line (number depth : Nat) (descriptor : String) : Line :=
  ⟨number, depth, List.replicate depth '>' ++ descriptor.toList, descriptor.toList⟩

def window (key : Text) : Line := ⟨1, 0, "div.window#".toList ++ key, "div.window#".toList ++ key⟩

def bar : Line := line 2 1 "div.window-bar"

def titleContainer : Line := line 3 2 "div.window-container-title"

def title : Line := line 4 3 "span.window-title"

def upper : List Line := [bar, titleContainer, title,
  line 5 2 "div.window-main-buttons",
  line 6 3 "button(&#150;)[type=button]@minify",
  line 7 3 "button(&#8597;)[type=button; disabled]@extend",
  line 8 3 "button(&times;)[type=button]@close"]

def body : Line := line 9 1 "div.window-body"

def block (key : Text) (bodyLines : List Line) : Block := ⟨window key, upper ++ body :: bodyLines⟩

theorem title_ne_window (key : Text) : title ≠ window key := fun heq => by
  simpa [title, line, window] using congrArg Line.number heq

theorem depth_ne_zero_of_blocksOf {marker template key : Text} {bodyLines : List Line}
    (h : blocksOf marker template = [block key bodyLines]) : ∀ l ∈ (block key bodyLines).children, l.depth ≠ 0 :=
  (block_depths (by rw [← blocksOf, h]; simp)).2

/-- A key that can be written as the id of a line. The keys of new windows are of this kind. -/
def IsKey (key : Text) : Prop := key ≠ [] ∧ key.all isNameChar

instance (key : Text) : Decidable (IsKey key) := inferInstanceAs (Decidable (_ ∧ _))

/-- The keys of new windows can be written, if the supply holds nothing but digits or other such characters. -/
theorem isKey_nextKey {s : DigitSupply} (h : ∀ c ∈ s.digits, isNameChar c) : IsKey s.nextKey.1 := by
  have hfixed : "windowkey-".toList.all isNameChar := by decide +kernel
  have hzero : isNameChar '0' := by decide +kernel
  have hdigit : ∀ i, isNameChar (s.digitAt i) := by
    intro i
    rw [DigitSupply.digitAt, List.getD_eq_getElem?_getD]
    cases hdigit : s.digits[i % s.digits.length]? with
    | none => exact hzero
    | some d => exact h d (List.mem_of_getElem? hdigit)
  have hkey : s.nextKey.1 = "windowkey-".toList ++ (List.range 6).map fun i => s.digitAt (s.used + i) := rfl
  refine hkey ▸ ⟨List.append_ne_nil_of_left_ne_nil (by decide) _, ?_⟩
  rw [List.all_append, hfixed, Bool.true_and, List.all_eq_true]
  intro c hc
  obtain ⟨i, -, rfl⟩ := List.mem_map.mp hc
  exact hdigit (s.used + i)

theorem IsKey.isBareName {key : Text} (h : IsKey key) :
    Node.IsBareName "div".toList ["window".toList] (some key) where
  tag_ne_nil := by decide
  tag_chars := by decide +kernel
  class_chars := by decide +kernel
  classes_distinct := by decide
  id_chars := by
    rintro _ ⟨⟩
    exact h

theorem written_window (key : Text) :
    (Node.bare "div".toList ["window".toList] (some key)).groups.written = "div.window#".toList ++ key := by
  simp [Node.bare, Node.groups, LineGroups.written, LineGroups.writtenClasses, LineGroups.writtenId,
    LineGroups.writtenBetween, LineGroups.writtenEvents]

theorem lines_chromeTemplate {key : Text} (h : IsKey key) :
    (chromeTemplate key).lines = ("div.window#".toList ++ key) :: chromeLines.map String.toList := by
  have hvisible := Node.isVisibleLine_groups (Node.isWritable_bare h.isBareName .empty)
  refine Text.splitAtChar_join (by simp) ?_
  rw [List.forall_mem_cons, ← written_window]
  exact ⟨hvisible.on_one_line, by decide +kernel⟩

theorem templateLines_chromeTemplate {key : Text} (h : IsKey key) :
    templateLines defaultMarker (chromeTemplate key) = (block key []).lines := by
  have hwritable := Node.isWritable_bare h.isBareName .empty
  have hvisible := Node.isVisibleLine_groups hwritable
  have hentry := Node.lineEntry_written hwritable 0
  rw [Node.written_eq, List.replicate_zero, List.nil_append] at hentry
  have hfirst := ofPiece?_of_isVisibleLine hvisible defaultMarker 1
  rw [hentry, written_window] at hfirst
  have hrest : linesFrom defaultMarker 2 (chromeLines.map String.toList) = upper ++ [body] := by decide +kernel
  rw [templateLines, lines_chromeTemplate h, linesFrom, hfirst, hrest]
  rfl

theorem blocksOf_chromeTemplate {key : Text} (h : IsKey key) :
    blocksOf defaultMarker (chromeTemplate key) = [block key []] := by
  have hnested : ∀ l ∈ upper ++ [body], l.depth ≠ 0 := by decide +kernel
  have hsplit := splitBlocks_append_of_nested hnested []
  rw [List.append_nil] at hsplit
  rw [blocksOf, templateLines_chromeTemplate h, Block.lines, splitBlocks_cons_zero rfl, block, hsplit]
  simp [splitBlocks]

/-! ## What the lines show -/

section

variable {dialect : Dialect}

theorem node_window (hseparator : dialect.separator = defaultSeparator) (hmake : dialect.makeNode = Node.ofTag)
    {key : Text} (h : IsKey key) :
    (window key).node dialect = Node.bare "div".toList ["window".toList] (some key) := by
  rw [← Node.descriptorNode_bare hseparator hmake h.isBareName, written_window]
  rfl

theorem node_of_descriptor (hseparator : dialect.separator = defaultSeparator)
    (hmake : dialect.makeNode = Node.ofTag) {tag name : Text} (h : Node.IsBareName tag [name] none) {l : Line}
    (hl : l.descriptor = tag ++ '.' :: name) : l.node dialect = Node.bare tag [name] none := by
  have hwritten : (Node.bare tag [name] none).groups.written = tag ++ '.' :: name := by
    simp [Node.bare, Node.groups, LineGroups.written, LineGroups.writtenClasses, LineGroups.writtenId,
      LineGroups.writtenBetween, LineGroups.writtenEvents]
  rw [← Node.descriptorNode_bare hseparator hmake h, hwritten, ← hl]
  rfl

theorem node_bar (hseparator : dialect.separator = defaultSeparator) (hmake : dialect.makeNode = Node.ofTag) :
    bar.node dialect = Node.bare "div".toList ["window-bar".toList] none :=
  node_of_descriptor hseparator hmake ⟨by decide, by decide +kernel, by decide +kernel, by decide, by simp⟩
    (by decide +kernel)

theorem node_titleContainer (hseparator : dialect.separator = defaultSeparator)
    (hmake : dialect.makeNode = Node.ofTag) :
    titleContainer.node dialect = Node.bare "div".toList ["window-container-title".toList] none :=
  node_of_descriptor hseparator hmake ⟨by decide, by decide +kernel, by decide +kernel, by decide, by simp⟩
    (by decide +kernel)

theorem node_title (hseparator : dialect.separator = defaultSeparator) (hmake : dialect.makeNode = Node.ofTag) :
    title.node dialect = Node.bare "span".toList ["window-title".toList] none :=
  node_of_descriptor hseparator hmake ⟨by decide, by decide +kernel, by decide +kernel, by decide, by simp⟩
    (by decide +kernel)

end

/-! ## The lines of a window with a body -/

/-- The tree of a window begins with the title and what is above it. -/
theorem exists_preorder_layout {key : Text} {bodyLines : List Line}
    (hnested : ∀ l ∈ (block key bodyLines).children, l.depth ≠ 0) :
    ∃ rest, (block key bodyLines).layout.preorder = window key :: bar :: titleContainer :: title :: rest := by
  have hentries : (block key bodyLines).children.map (fun l => (l, l.depth)) =
      [bar, titleContainer, title].zipIdx 1 ++ (upper.drop 3 ++ body :: bodyLines).map fun l => (l, l.depth) := rfl
  have hdeep : ∀ e ∈ (upper.drop 3 ++ body :: bodyLines).map fun l => (l, l.depth), 1 ≤ e.2 := by
    intro e he
    obtain ⟨l, hl, rfl⟩ := List.mem_map.mp he
    exact Nat.one_le_iff_ne_zero.mpr (hnested l (.tail _ (.tail _ (.tail _ hl))))
  obtain ⟨rest, hrest⟩ := Rose.prefix_preorder_assemble (window key) hdeep
  rw [← hentries] at hrest
  exact ⟨rest, hrest.symm⟩

end Chrome

namespace Window

/-- All lines of a window make up one block: behind the chrome come those of the body, two levels deeper. -/
theorem exists_blocksOf_template {w : Window} (hmarker : w.builder.marker = defaultMarker)
    (hkey : Chrome.IsKey w.key) (body : Text) :
    ∃ bodyLines, blocksOf defaultMarker (w.template body) = [Chrome.block w.key bodyLines] ∧
      bodyLines.map (fun l => (l.descriptor, l.depth)) =
        (templateLines defaultMarker body).map fun l => (l.descriptor, l.depth + 2) := by
  have hchrome := Chrome.blocksOf_chromeTemplate hkey
  rw [template]
  by_cases hblank : body.trim.isEmpty
  · refine ⟨[], ?_, ?_⟩
    · rw [if_pos hblank, hchrome]
    · rw [templateLines_of_blank (List.isEmpty_iff.mp hblank)]
      rfl
  · have hlast : blocksOf ['>'] (chromeTemplate w.key) = [] ++ [Chrome.block w.key []] := hchrome
    obtain ⟨bodyLines, -, hblocks, hmoved⟩ :=
      exists_blocksOf_append_reindent (by decide) (Nat.succ_ne_zero 1) hlast body
    refine ⟨bodyLines, ?_, hmoved⟩
    rw [if_neg hblank, hmarker]
    exact hblocks

end Window

end IndentMarkup
