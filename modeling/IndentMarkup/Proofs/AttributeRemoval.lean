import IndentMarkup.Proofs.AttributeNames
import IndentMarkup.Proofs.ClosedForms

/-!
# Removing attributes

What is set is removed again: to set an attribute and to remove it is to remove it alone, and no start tag shows it
afterwards, whatever was done to the node before (`Node.forgetsAttribute_iff`). This holds of every name but `class` and
`id`. To set one of these is to set the classes or the id of the node, which removing does not reach, so a node that has
been changed in any way keeps them (`Node.IsReflecting.removeAttribute_eq`).
-/

namespace IndentMarkup

/-! ## Tables -/

namespace Pairs

variable {α : Type}

theorem erase_put (name : Text) (value : α) (table : Pairs α) :
    (table.put name value).erase name = table.erase name := by
  induction table with
  | nil => exact if_pos rfl
  | cons entry rest ih =>
      obtain ⟨n, v⟩ := entry
      rw [put]
      by_cases hn : n = name
      · rw [if_pos hn, erase, if_pos hn, erase, if_pos hn]
      · rw [if_neg hn, erase, if_neg hn, ih, erase, if_neg hn]

theorem map_fst_erase (name : Text) (table : Pairs α) :
    (table.erase name).map Prod.fst = (table.map Prod.fst).erase name := by
  induction table with
  | nil => rfl
  | cons entry rest ih =>
      obtain ⟨n, v⟩ := entry
      rw [erase, List.map_cons]
      by_cases hn : n = name
      · rw [if_pos hn, hn, List.erase_cons_head]
      · rw [if_neg hn, List.map_cons, ih, List.erase_cons_tail (by simpa using hn)]

theorem erase_of_not_mem {name : Text} {table : Pairs α} (h : name ∉ table.map Prod.fst) :
    table.erase name = table := by
  induction table with
  | nil => rfl
  | cons entry rest ih =>
      obtain ⟨n, v⟩ := entry
      rw [List.map_cons, List.mem_cons, not_or] at h
      rw [erase, if_neg (Ne.symm h.1), ih h.2]

end Pairs

/-! ## Changing a node -/

inductive AttributeChange where
  | addClass (name : Text)
  | set (name value : Text)
  | remove (name : Text)

def AttributeChange.apply (n : Node) : AttributeChange → Node
  | addClass name => n.addClass name
  | set name value => n.setAttribute name value
  | remove name => n.removeAttribute name

namespace Node

variable {n : Node} {name : Text}

/-- The attributes of a node have different names, the class and the id are kept apart from them, and there is no style
that could be shown under the name of one. -/
structure IsReflecting (n : Node) : Prop where
  nodup : (n.attrs.map Prod.fst).Nodup
  plain : ∀ name ∈ n.attrs.map Prod.fst, isPlainName name
  style_eq : n.style = []

theorem isPlainName_iff : isPlainName name ↔ name ≠ "class".toList ∧ name ≠ "id".toList := decide_eq_true_iff

theorem setAttribute_of_isPlainName (h : isPlainName name) (n : Node) (value : Text) :
    n.setAttribute name value = { n with attrs := n.attrs.put name value } := by
  obtain ⟨hclass, hid⟩ := isPlainName_iff.mp h
  rw [setAttribute, if_neg hclass, if_neg hid]

theorem attrs_setAttribute_of_not_isPlainName (h : ¬ isPlainName name) (n : Node) (value : Text) :
    (n.setAttribute name value).attrs = n.attrs ∧ (n.setAttribute name value).style = n.style := by
  rw [setAttribute]
  split
  · exact ⟨rfl, rfl⟩
  · split
    · exact ⟨rfl, rfl⟩
    · next hclass hid => exact absurd (isPlainName_iff.mpr ⟨hclass, hid⟩) h

theorem isReflecting_ofTag (tag : Text) : (ofTag tag).IsReflecting := ⟨List.nodup_nil, by simp [ofTag], rfl⟩

theorem IsReflecting.setAttribute (h : n.IsReflecting) (name value : Text) :
    (n.setAttribute name value).IsReflecting := by
  by_cases hname : isPlainName name
  · rw [setAttribute_of_isPlainName hname]
    refine ⟨Pairs.nodup_map_fst_put h.nodup name value, fun other hother => ?_, h.style_eq⟩
    rcases Pairs.mem_map_fst_put.mp hother with rfl | hother
    · exact hname
    · exact h.plain other hother
  · obtain ⟨hattrs, hstyle⟩ := attrs_setAttribute_of_not_isPlainName hname n value
    exact ⟨hattrs ▸ h.nodup, hattrs ▸ h.plain, hstyle.trans h.style_eq⟩

theorem IsReflecting.removeAttribute (h : n.IsReflecting) (name : Text) : (n.removeAttribute name).IsReflecting := by
  have hnames : (n.removeAttribute name).attrs.map Prod.fst = (n.attrs.map Prod.fst).erase name :=
    Pairs.map_fst_erase name n.attrs
  refine ⟨hnames ▸ h.nodup.erase name, fun other hother => ?_, h.style_eq⟩
  rw [hnames] at hother
  exact h.plain other (List.mem_of_mem_erase hother)

theorem IsReflecting.apply (h : n.IsReflecting) (a : AttributeChange) : (a.apply n).IsReflecting := by
  cases a with
  | addClass name => exact ⟨h.nodup, h.plain, h.style_eq⟩
  | set name value => exact h.setAttribute name value
  | remove name => exact h.removeAttribute name

theorem IsReflecting.foldl_apply (h : n.IsReflecting) (changes : List AttributeChange) :
    (changes.foldl AttributeChange.apply n).IsReflecting := by
  induction changes generalizing n with
  | nil => exact h
  | cons a rest ih => exact ih (h.apply a)

/-! ## Setting and removing -/

/-- Behind removing an attribute it does not count whether it was set. -/
theorem removeAttribute_setAttribute (h : isPlainName name) (n : Node) (value : Text) :
    (n.setAttribute name value).removeAttribute name = n.removeAttribute name := by
  rw [setAttribute_of_isPlainName h, removeAttribute, removeAttribute, Pairs.erase_put]

theorem IsReflecting.removeAttribute_eq (h : n.IsReflecting) (hname : ¬ isPlainName name) :
    n.removeAttribute name = n := by
  rw [Node.removeAttribute, Pairs.erase_of_not_mem fun hmem => hname (h.plain name hmem)]

/-- The names of the attributes that a start tag shows. -/
def shownNames (n : Node) : List Text := n.startTag.attributes.map Prod.fst

theorem IsReflecting.mem_shownNames (h : n.IsReflecting) : name ∈ n.shownNames ↔
    (name = "id".toList ∧ n.id.getD [] ≠ []) ∨ (name = "class".toList ∧ n.classes ≠ []) ∨
      name ∈ n.attrs.map Prod.fst := by
  have hshown : name ∈ n.shownNames ↔ name ∈ n.mergedAttributes.map Prod.fst := mem_names_writtenAttributes
  rw [hshown, mem_names_mergedAttributes]
  simp only [h.style_eq, ne_eq, not_true_eq_false, and_false, or_false]

theorem IsReflecting.mem_shownNames_removeAttribute (h : n.IsReflecting) {other : Text} :
    other ∈ (n.removeAttribute name).shownNames ↔ other ∈ n.shownNames ∧ ¬ (other = name ∧ isPlainName name) := by
  have hnames : (n.removeAttribute name).attrs.map Prod.fst = (n.attrs.map Prod.fst).erase name :=
    Pairs.map_fst_erase name n.attrs
  by_cases hname : isPlainName name
  · obtain ⟨hclass, hid⟩ := isPlainName_iff.mp hname
    rw [(h.removeAttribute name).mem_shownNames, h.mem_shownNames, hnames, h.nodup.mem_erase_iff]
    by_cases hother : other = name
    · subst hother
      simp only [hclass, hid, hname, ne_eq, not_true_eq_false, false_and, false_or, and_self, and_false]
    · simp only [hother, ne_eq, not_false_eq_true, true_and, false_and, and_true]
      exact Iff.rfl
  · simp only [h.removeAttribute_eq hname, hname, and_false, not_false_eq_true, and_true, Bool.false_eq_true]

theorem exists_startTag_markup (n : Node) (pretty : Bool) (children : List Tree) :
    ∃ start, (start = n.openTag ∨ start = n.voidTag) ∧ start <+: Tree.markup pretty [.node n children] := by
  cases pretty with
  | false =>
      rw [Tree.markup, if_neg Bool.false_ne_true, Tree.compactAll, Tree.compactAll, List.append_nil, Tree.compact]
      split
      · exact ⟨n.voidTag, .inr rfl, List.prefix_rfl⟩
      · exact ⟨n.openTag, .inl rfl, List.prefix_append _ _⟩
  | true =>
      rw [Tree.markup, if_pos rfl, Tree.prettyAllAt, Tree.prettyAllAt, List.append_nil, Tree.prettyAt]
      split
      · exact ⟨n.voidTag, .inr rfl, List.prefix_append _ _⟩
      · split
        · exact ⟨n.openTag, .inl rfl, by simp [Tree.prettyLine]⟩
        · exact ⟨n.openTag, .inl rfl, by simp [Tree.prettyLine]⟩

/-! ## The main result -/

/-- An attribute that is removed is gone: it does not count whether it was set, and no start tag shows it. -/
structure ForgetsAttribute (n : Node) (name : Text) : Prop where
  removeAttribute_set : ∀ value, (n.setAttribute name value).removeAttribute name = n.removeAttribute name
  not_shown : name ∉ (n.removeAttribute name).shownNames

theorem IsReflecting.forgetsAttribute_iff (h : n.IsReflecting) : n.ForgetsAttribute name ↔ isPlainName name := by
  constructor
  · intro hforgets
    by_contra hname
    have hset : ∀ value, n.setAttribute name value = n := fun value => by
      have hremoved := hforgets.removeAttribute_set value
      rwa [(h.setAttribute name value).removeAttribute_eq hname, h.removeAttribute_eq hname] at hremoved
    -- two values cannot both be what the node has
    have hsame : n.setAttribute name ['x'] = n.setAttribute name [] := (hset ['x']).trans (hset []).symm
    by_cases hclass : name = "class".toList
    · rw [Node.setAttribute, Node.setAttribute, if_pos hclass, if_pos hclass] at hsame
      have hclasses : (Text.words ['x']).foldl insertClass [] = (Text.words []).foldl insertClass [] :=
        congrArg Node.classes hsame
      exact absurd hclasses (by decide +kernel)
    · by_cases hid : name = "id".toList
      · rw [Node.setAttribute, Node.setAttribute, if_neg hclass, if_neg hclass, if_pos hid, if_pos hid] at hsame
        exact absurd (congrArg Node.id hsame) (by simp)
      · exact hname (isPlainName_iff.mpr ⟨hclass, hid⟩)
  · intro hname
    refine ⟨removeAttribute_setAttribute hname n, fun hshown => ?_⟩
    exact (h.mem_shownNames_removeAttribute.mp hshown).2 ⟨rfl, hname⟩

/-- The markup of a node begins with a start tag that is read as what the start tag of the node shows, if the tag is a
word and the attributes have names of attributes. -/
theorem exists_read_startTag_markup (n : Node) (pretty : Bool) (children : List Tree) :
    ∃ start, start <+: Tree.markup pretty [.node n children] ∧
      (n.HasWordTag → (∀ entry ∈ n.attrs, IsAttributeName entry.1) →
        ∃ tag, Markup.readStartTag start = some tag ∧ tag.attributes.map Prod.fst = n.shownNames) := by
  obtain ⟨start, hstart, hmarkup⟩ := n.exists_startTag_markup pretty children
  refine ⟨start, hmarkup, fun htag hnames => ⟨n.startTag, ?_, rfl⟩⟩
  rcases hstart with rfl | rfl
  · exact (Markup.readStartTag_openTag_iff htag).mpr hnames
  · exact (Markup.readStartTag_voidTag_iff htag).mpr hnames

/-- Whatever is done to a new node, exactly the attributes other than the class and the id are gone when they are
removed. Removing one of these two leaves the node as it is, whether it was set just before or not, and no removal
reaches another attribute. What the start tag shows is what is read of the markup. -/
theorem removeAttribute_forgets (tag : Text) (changes : List AttributeChange) (name : Text) :
    let n := changes.foldl AttributeChange.apply (ofTag tag)
    let removed := n.removeAttribute name
    (n.ForgetsAttribute name ↔ name ≠ "class".toList ∧ name ≠ "id".toList) ∧
    (name = "class".toList ∨ name = "id".toList → removed = n ∧
      ∀ value, (n.setAttribute name value).removeAttribute name = n.setAttribute name value) ∧
    (∀ other ≠ name, other ∈ removed.shownNames ↔ other ∈ n.shownNames) ∧
    (name ∈ removed.shownNames ↔
      (name = "class".toList ∧ n.classes ≠ []) ∨ (name = "id".toList ∧ n.id.getD [] ≠ [])) ∧
    ∀ pretty children, ∃ start, start <+: Tree.markup pretty [.node removed children] ∧
      (removed.HasWordTag → (∀ entry ∈ removed.attrs, IsAttributeName entry.1) →
        ∃ shown, Markup.readStartTag start = some shown ∧ shown.attributes.map Prod.fst = removed.shownNames) := by
  intro n removed
  have hn : n.IsReflecting := (isReflecting_ofTag tag).foldl_apply changes
  have hkept : name = "class".toList ∨ name = "id".toList → ¬ isPlainName name := fun h hname =>
    h.elim (isPlainName_iff.mp hname).1 (isPlainName_iff.mp hname).2
  refine ⟨hn.forgetsAttribute_iff.trans isPlainName_iff, fun h => ⟨hn.removeAttribute_eq (hkept h), fun value =>
    (hn.setAttribute name value).removeAttribute_eq (hkept h)⟩, fun other hother => ?_, ?_,
    removed.exists_read_startTag_markup⟩
  · rw [hn.mem_shownNames_removeAttribute, and_iff_left fun h => hother h.1]
  · by_cases hname : isPlainName name
    · obtain ⟨hclass, hid⟩ := isPlainName_iff.mp hname
      refine iff_of_false (fun h => (hn.mem_shownNames_removeAttribute.mp h).2 ⟨rfl, hname⟩) ?_
      exact fun h => h.elim (fun h => hclass h.1) fun h => hid h.1
    · have hattrs : name ∉ n.attrs.map Prod.fst := fun hmem => hname (hn.plain name hmem)
      have hsame : removed = n := hn.removeAttribute_eq hname
      rw [hsame, hn.mem_shownNames, or_iff_left hattrs, or_comm]

/-- A node whose class, id and title are removed: only the title goes. -/
theorem removeAttribute_forgets_title :
    let changes : List AttributeChange := [.set "title".toList "t".toList, .set "class".toList "x y".toList,
      .addClass "x".toList, .set "id".toList "a".toList]
    let n := changes.foldl AttributeChange.apply (ofTag "p".toList)
    n.ForgetsAttribute "title".toList ∧ n.removeAttribute "class".toList = n ∧
      "class".toList ∈ (n.removeAttribute "class".toList).shownNames ∧
      "id".toList ∈ (n.removeAttribute "id".toList).shownNames ∧
      ∃ start shown, start <+: Tree.markup false [.node (n.removeAttribute "title".toList) []] ∧
        Markup.readStartTag start = some shown ∧
        shown.attributes.map Prod.fst = (n.removeAttribute "title".toList).shownNames := by
  intro changes n
  obtain ⟨htitle, -, -, -, hmarkup⟩ := removeAttribute_forgets "p".toList changes "title".toList
  obtain ⟨-, hclass, -, hclassShown, -⟩ := removeAttribute_forgets "p".toList changes "class".toList
  obtain ⟨-, -, -, hidShown, -⟩ := removeAttribute_forgets "p".toList changes "id".toList
  obtain ⟨start, hstart, hread⟩ := hmarkup false []
  obtain ⟨shown, hshown, hnames⟩ := hread (by decide +kernel) (by decide +kernel)
  exact ⟨htitle.mpr (by decide), (hclass (.inl rfl)).1, hclassShown.mpr (.inl ⟨rfl, by decide +kernel⟩),
    hidShown.mpr (.inr ⟨rfl, by decide +kernel⟩), start, shown, hstart, hshown, hnames⟩

end Node

end IndentMarkup
