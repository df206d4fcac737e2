import IndentMarkup.Markup.Attribute
import IndentMarkup.Proofs.Tables

/-!
# The attributes of a start tag as a table

A start tag shows one attribute for each name of its node (`mem_names_mergedAttributes`), with the value that the name
has once lists of words and encodings are rewritten (`get?_writtenAttributes`). Sorting the names changes neither.
-/

namespace IndentMarkup

theorem map_fst_withEncoding (attributes : Pairs Text) :
    (withEncoding attributes).map Prod.fst = attributes.map Prod.fst := by
  rw [withEncoding]
  split
  · next hcharset => exact Pairs.map_fst_put_of_mem (Pairs.isSome_get?_iff.mp hcharset) _
  · split
    · next content _ hcontent _ =>
        split
        · exact Pairs.map_fst_put_of_mem (Pairs.isSome_get?_iff.mp (by rw [hcontent]; rfl)) _
        · rfl
    · rfl

namespace Node

/-- The attributes of a start tag with the values that are written, before they are sorted. -/
def rewrittenAttributes (n : Node) : Pairs Text :=
  let attributes := n.mergedAttributes.map fun (name, value) => (name, normalizedValue n.tag name value)
  if n.tag = "meta".toList then withEncoding attributes else attributes

theorem writtenAttributes_perm (n : Node) : n.writtenAttributes.Perm n.rewrittenAttributes :=
  List.mergeSort_perm _ _

theorem map_fst_rewrittenAttributes (n : Node) :
    n.rewrittenAttributes.map Prod.fst = n.mergedAttributes.map Prod.fst := by
  have hvalues : (n.mergedAttributes.map fun e => (e.1, normalizedValue n.tag e.1 e.2)).map Prod.fst =
      n.mergedAttributes.map Prod.fst := by
    rw [List.map_map]
    rfl
  rw [rewrittenAttributes]
  split
  · exact (map_fst_withEncoding _).trans hvalues
  · exact hvalues

def idAttribute (n : Node) : Pairs Text :=
  if (n.id.getD []).isEmpty then [] else [("id".toList, n.id.getD [])]

def putUnless (absent : Bool) (name value : Text) (table : Pairs Text) : Pairs Text :=
  if absent then table else table.put name value

theorem mergedAttributes_eq (n : Node) :
    n.mergedAttributes = putUnless n.style.isEmpty "style".toList (styleText n.style)
      ((putUnless n.classes.isEmpty "class".toList (Text.join [' '] n.classes) n.idAttribute).putAll n.attrs) := by
  rw [mergedAttributes, idAttribute]
  cases n.id <;> rfl

theorem nodup_putUnless {table : Pairs Text} (h : (table.map Prod.fst).Nodup) (absent : Bool) (name value : Text) :
    ((putUnless absent name value table).map Prod.fst).Nodup := by
  cases absent with
  | false => exact Pairs.nodup_map_fst_put h name value
  | true => exact h

theorem mem_map_fst_putUnless {absent : Bool} {name other value : Text} {table : Pairs Text} :
    other ∈ (putUnless absent name value table).map Prod.fst ↔
      other ∈ table.map Prod.fst ∨ (other = name ∧ absent = false) := by
  cases absent with
  | false => simp [putUnless, Pairs.mem_map_fst_put, or_comm]
  | true => simp [putUnless]

theorem get?_putUnless (absent : Bool) (name other value : Text) (table : Pairs Text) :
    (putUnless absent name value table).get? other =
      if other = name ∧ absent = false then some value else table.get? other := by
  cases absent with
  | true => simp [putUnless]
  | false =>
      by_cases h : other = name
      · rw [h, if_pos ⟨rfl, rfl⟩]
        exact Pairs.get?_put_self name value table
      · rw [if_neg fun hand => h hand.1]
        exact Pairs.get?_put_of_ne (Ne.symm h) value table

/-- The style of a node counts over its attributes, these over its classes and these over its id. -/
theorem get?_mergedAttributes (n : Node) (name : Text) :
    n.mergedAttributes.get? name =
      if name = "style".toList ∧ n.style ≠ [] then some (styleText n.style)
      else (Pairs.last? name n.attrs).or
        (if name = "class".toList ∧ n.classes ≠ [] then some (Text.join [' '] n.classes)
          else if name = "id".toList ∧ n.id.getD [] ≠ [] then n.id else none) := by
  have hid : n.idAttribute.get? name = if name = "id".toList ∧ n.id.getD [] ≠ [] then n.id else none := by
    rw [idAttribute]
    cases n.id with
    | none => simp [Pairs.get?]
    | some value => cases value <;> simp [Pairs.get?, eq_comm]
  rw [mergedAttributes_eq, get?_putUnless, Pairs.get?_putAll, get?_putUnless, hid]
  simp only [List.isEmpty_eq_false_iff]

theorem nodup_names_mergedAttributes (n : Node) : (n.mergedAttributes.map Prod.fst).Nodup := by
  have hid : (n.idAttribute.map Prod.fst).Nodup := by
    rw [idAttribute]
    split <;> simp
  rw [mergedAttributes_eq]
  exact nodup_putUnless (Pairs.nodup_map_fst_putAll (nodup_putUnless hid _ _ _) n.attrs) _ _ _

theorem mem_names_mergedAttributes {n : Node} {name : Text} :
    name ∈ n.mergedAttributes.map Prod.fst ↔
      (name = "id".toList ∧ n.id.getD [] ≠ []) ∨ (name = "class".toList ∧ n.classes ≠ []) ∨
        name ∈ n.attrs.map Prod.fst ∨ (name = "style".toList ∧ n.style ≠ []) := by
  have hid : name ∈ n.idAttribute.map Prod.fst ↔ name = "id".toList ∧ n.id.getD [] ≠ [] := by
    rw [idAttribute]
    split
    · next hempty => simpa using fun _ => List.isEmpty_iff.mp hempty
    · next hempty => simpa using fun _ => mt List.isEmpty_iff.mpr hempty
  rw [mergedAttributes_eq, mem_map_fst_putUnless, Pairs.mem_map_fst_putAll, mem_map_fst_putUnless, hid,
    List.isEmpty_eq_false_iff, List.isEmpty_eq_false_iff, or_assoc, or_assoc]

theorem nodup_names_writtenAttributes (n : Node) : (n.writtenAttributes.map Prod.fst).Nodup := by
  rw [(n.writtenAttributes_perm.map Prod.fst).nodup_iff, map_fst_rewrittenAttributes]
  exact n.nodup_names_mergedAttributes

theorem mem_names_writtenAttributes {n : Node} {name : Text} :
    name ∈ n.writtenAttributes.map Prod.fst ↔ name ∈ n.mergedAttributes.map Prod.fst := by
  rw [(n.writtenAttributes_perm.map Prod.fst).mem_iff, map_fst_rewrittenAttributes]

theorem get?_writtenAttributes (n : Node) (name : Text) :
    n.writtenAttributes.get? name = n.rewrittenAttributes.get? name :=
  Pairs.get?_eq_of_perm n.writtenAttributes_perm n.nodup_names_writtenAttributes name

end Node

end IndentMarkup
