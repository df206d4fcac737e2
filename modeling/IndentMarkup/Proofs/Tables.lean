import IndentMarkup.Pairs
import Mathlib.Data.List.Induction
import Mathlib.Data.List.Nodup

/-!
# Tables and their names

Putting a value keeps the names of a table different, and looks up as it should. A table whose names are different
is the same table in any order (`get?_eq_of_perm`), as a look-up then finds what is in it (`get?_eq_some_iff`). The
table of a list of pairs has the names in the order of their first places, each with its last value (`ofList_eq`).
-/

namespace IndentMarkup

/-! ## Lists of names -/

theorem eraseDups_concat {α : Type} [BEq α] [LawfulBEq α] (names : List α) (name : α) :
    (names ++ [name]).eraseDups = if name ∈ names then names.eraseDups else names.eraseDups ++ [name] := by
  rw [List.eraseDups_append, List.removeAll]
  split
  · next hmem => simp [hmem]
  · next hmem => simp [hmem, List.eraseDups_cons]

theorem nodup_eraseDups {α : Type} [BEq α] [LawfulBEq α] (names : List α) : names.eraseDups.Nodup := by
  induction names using List.reverseRecOn with
  | nil => exact List.nodup_nil
  | append_singleton names name ih =>
      rw [eraseDups_concat]
      split
      · exact ih
      · next hmem => exact List.concat_eq_append ▸ ih.concat (mt List.mem_eraseDups.mp hmem)

theorem eraseDups_eq_self {names : List Text} (h : names.Nodup) : names.eraseDups = names := by
  induction names using List.reverseRecOn with
  | nil => rfl
  | append_singleton names name ih =>
      obtain ⟨hnames, -, hnew⟩ := List.nodup_append.mp h
      rw [eraseDups_concat, if_neg fun hmem => hnew name hmem name (List.mem_singleton_self name) rfl, ih hnames]

namespace Pairs

variable {α : Type}

/-! ## Look-ups -/

theorem get?_put_self (name : Text) (value : α) (table : Pairs α) : (table.put name value).get? name = some value := by
  induction table with
  | nil => exact if_pos rfl
  | cons entry rest ih =>
      obtain ⟨n, v⟩ := entry
      rw [put]
      by_cases hn : n = name
      · rw [if_pos hn, get?, if_pos hn]
      · rw [if_neg hn, get?, if_neg hn, ih]

theorem get?_put_of_ne {name other : Text} (h : name ≠ other) (value : α) (table : Pairs α) :
    (table.put name value).get? other = table.get? other := by
  induction table with
  | nil => exact if_neg h
  | cons entry rest ih =>
      obtain ⟨n, v⟩ := entry
      rw [put]
      by_cases hn : n = name
      · rw [if_pos hn, get?, get?, if_neg (hn ▸ h), if_neg (hn ▸ h)]
      · rw [if_neg hn, get?, get?, ih]

theorem put_put (name : Text) (value other : α) (table : Pairs α) :
    (table.put name value).put name other = table.put name other := by
  induction table with
  | nil => exact if_pos rfl
  | cons entry rest ih =>
      obtain ⟨n, v⟩ := entry
      rw [put]
      by_cases hn : n = name
      · rw [if_pos hn, put, if_pos hn, put, if_pos hn]
      · rw [if_neg hn, put, if_neg hn, ih, put, if_neg hn]

theorem isSome_get?_iff {name : Text} {table : Pairs α} :
    (table.get? name).isSome ↔ name ∈ table.map Prod.fst := by
  induction table with
  | nil => simp [get?]
  | cons entry rest ih =>
      obtain ⟨n, v⟩ := entry
      rw [get?]
      by_cases hn : n = name
      · simp [hn]
      · simp [hn, Ne.symm hn, ih]

/-- In a table of different names a look-up finds what is in it. -/
theorem get?_eq_some_iff {name : Text} {value : α} {table : Pairs α} (h : (table.map Prod.fst).Nodup) :
    table.get? name = some value ↔ (name, value) ∈ table := by
  induction table with
  | nil => simp [get?]
  | cons entry rest ih =>
      obtain ⟨n, v⟩ := entry
      rw [List.map_cons, List.nodup_cons] at h
      rw [get?, List.mem_cons, Prod.mk.injEq]
      by_cases hn : n = name
      · have hrest : (name, value) ∉ rest := fun hmem => h.1 (List.mem_map.mpr ⟨_, hmem, hn.symm⟩)
        simp [hn, hrest, eq_comm]
      · simp [hn, Ne.symm hn, ih h.2]

theorem get?_eq_of_perm {table other : Pairs α} (hperm : table.Perm other) (h : (table.map Prod.fst).Nodup)
    (name : Text) : table.get? name = other.get? name := by
  have hother : (other.map Prod.fst).Nodup := (hperm.map Prod.fst).nodup_iff.mp h
  refine Option.ext fun value => ?_
  rw [get?_eq_some_iff h, get?_eq_some_iff hother, hperm.mem_iff]

theorem mem_of_get?_eq_some {name : Text} {value : α} {table : Pairs α} (h : table.get? name = some value) :
    (name, value) ∈ table := by
  induction table with
  | nil => simp [get?] at h
  | cons entry rest ih =>
      obtain ⟨n, v⟩ := entry
      rw [get?] at h
      split at h
      · next hn =>
          obtain rfl := Option.some.inj h
          exact hn ▸ .head _
      · exact .tail _ (ih h)

theorem mem_of_mem_put {name : Text} {value : α} {table : Pairs α} {entry : Text × α}
    (h : entry ∈ table.put name value) : entry ∈ table ∨ entry = (name, value) := by
  induction table with
  | nil => exact .inr (List.mem_singleton.mp h)
  | cons first rest ih =>
      obtain ⟨n, v⟩ := first
      rw [put] at h
      split at h
      · next hn =>
          rcases List.mem_cons.mp h with rfl | hrest
          · exact .inr (by rw [hn])
          · exact .inl (.tail _ hrest)
      · rcases List.mem_cons.mp h with rfl | hrest
        · exact .inl (.head _)
        · exact (ih hrest).imp_left (.tail _)

/-! ## Names -/

theorem put_of_not_mem {table : Pairs α} {name : Text} (h : name ∉ table.map Prod.fst) (value : α) :
    table.put name value = table ++ [(name, value)] := by
  induction table with
  | nil => rfl
  | cons e rest ih =>
      have hne : e.1 ≠ name := fun heq => h (by simp [heq])
      rw [put, if_neg hne, ih fun hmem => h (by simp [hmem]), List.cons_append]

theorem map_fst_put_of_mem {table : Pairs α} {name : Text} (h : name ∈ table.map Prod.fst) (value : α) :
    (table.put name value).map Prod.fst = table.map Prod.fst := by
  induction table with
  | nil => simp at h
  | cons e rest ih =>
      obtain ⟨n, v⟩ := e
      rw [put]
      by_cases hn : n = name
      · rw [if_pos hn, List.map_cons, List.map_cons]
      · have hrest : name ∈ rest.map Prod.fst := by simpa [Ne.symm hn] using h
        rw [if_neg hn, List.map_cons, List.map_cons, ih hrest]

theorem mem_map_fst_put {table : Pairs α} {name other : Text} {value : α} :
    other ∈ (table.put name value).map Prod.fst ↔ other = name ∨ other ∈ table.map Prod.fst := by
  by_cases h : name ∈ table.map Prod.fst
  · rw [map_fst_put_of_mem h]
    exact ⟨.inr, fun hor => hor.elim (fun heq => heq ▸ h) id⟩
  · rw [put_of_not_mem h, List.map_append, List.mem_append, List.map_singleton, List.mem_singleton, or_comm]

theorem nodup_map_fst_put {table : Pairs α} (h : (table.map Prod.fst).Nodup) (name : Text) (value : α) :
    ((table.put name value).map Prod.fst).Nodup := by
  by_cases hmem : name ∈ table.map Prod.fst
  · rwa [map_fst_put_of_mem hmem]
  · rw [put_of_not_mem hmem, List.map_append, List.map_singleton, List.nodup_append]
    refine ⟨h, List.nodup_singleton name, fun n hn m hm => ?_⟩
    rw [List.mem_singleton.mp hm]
    exact ne_of_mem_of_not_mem hn hmem

theorem mem_map_fst_putAll {table more : Pairs α} {name : Text} :
    name ∈ (table.putAll more).map Prod.fst ↔ name ∈ table.map Prod.fst ∨ name ∈ more.map Prod.fst := by
  rw [putAll]
  induction more generalizing table with
  | nil => simp
  | cons e rest ih => rw [List.foldl_cons, ih, mem_map_fst_put, List.map_cons, List.mem_cons, or_assoc, or_left_comm]

theorem nodup_map_fst_putAll {table : Pairs α} (h : (table.map Prod.fst).Nodup) (more : Pairs α) :
    ((table.putAll more).map Prod.fst).Nodup := by
  rw [putAll]
  induction more generalizing table with
  | nil => exact h
  | cons e rest ih => exact ih (nodup_map_fst_put h e.1 e.2)

/-- A table of different names is known by its names and their values. -/
theorem eq_map_get? (default : α) {table : Pairs α} (h : (table.map Prod.fst).Nodup) :
    table = (table.map Prod.fst).map fun name => (name, (table.get? name).getD default) := by
  induction table with
  | nil => rfl
  | cons entry rest ih =>
      obtain ⟨n, v⟩ := entry
      rw [List.map_cons, List.nodup_cons] at h
      have hrest : ∀ name ∈ rest.map Prod.fst, get? name ((n, v) :: rest) = get? name rest :=
        fun name hname => if_neg (ne_of_mem_of_not_mem hname h.1).symm
      have htail : (rest.map Prod.fst).map (fun name => (name, (get? name ((n, v) :: rest)).getD default)) = rest := by
        conv_rhs => rw [ih h.2]
        exact List.map_congr_left fun name hname => by rw [hrest name hname]
      rw [List.map_cons, List.map_cons, htail, get?, if_pos rfl, Option.getD_some]

/-! ## The table of a list of pairs -/

/-- The last value that a list of pairs gives to a name. -/
def last? (name : Text) (entries : List (Text × α)) : Option α :=
  (entries.filter (·.1 = name)).getLast?.map Prod.snd

theorem last?_concat (name : Text) (entries : List (Text × α)) (entry : Text × α) :
    last? name (entries ++ [entry]) = if entry.1 = name then some entry.2 else last? name entries := by
  rw [last?, List.filter_append]
  by_cases hname : entry.1 = name
  · simp [hname]
  · simp [hname, last?]

theorem last?_eq_none_iff {name : Text} {entries : List (Text × α)} :
    last? name entries = none ↔ name ∉ entries.map Prod.fst := by
  simp only [last?, Option.map_eq_none_iff, List.getLast?_eq_none_iff, List.filter_eq_nil_iff, List.mem_map,
    decide_eq_true_eq, not_exists, not_and]

theorem last?_filter {keep : Text → Bool} {name : Text} (hname : keep name) (entries : List (Text × α)) :
    last? name (entries.filter fun entry => keep entry.1) = last? name entries := by
  rw [last?, last?, List.filter_filter]
  refine congrArg (fun kept : List (Text × α) => kept.getLast?.map Prod.snd) (List.filter_congr fun entry _ => ?_)
  by_cases heq : entry.1 = name
  · simp [heq, hname]
  · simp [heq]

theorem ofList_concat (entries : List (Text × α)) (entry : Text × α) :
    ofList (entries ++ [entry]) = (ofList entries).put entry.1 entry.2 := by
  rw [ofList, putAll, List.foldl_append]
  rfl

/-- What is put counts over what is there, and the last value put under a name over the earlier ones. -/
theorem get?_putAll (name : Text) (table more : Pairs α) :
    (table.putAll more).get? name = (last? name more).or (table.get? name) := by
  induction more using List.reverseRecOn with
  | nil => rfl
  | append_singleton more entry ih =>
      have hlast : table.putAll (more ++ [entry]) = (table.putAll more).put entry.1 entry.2 := by
        rw [putAll, List.foldl_concat, putAll]
      rw [hlast, last?_concat]
      by_cases hname : entry.1 = name
      · rw [if_pos hname, hname, get?_put_self, Option.some_or]
      · rw [if_neg hname, get?_put_of_ne hname, ih]

theorem get?_ofList (name : Text) (entries : List (Text × α)) : (ofList entries).get? name = last? name entries :=
  (get?_putAll name [] entries).trans Option.or_none

theorem map_fst_ofList (entries : List (Text × α)) :
    (ofList entries).map Prod.fst = (entries.map Prod.fst).eraseDups := by
  induction entries using List.reverseRecOn with
  | nil => rfl
  | append_singleton entries entry ih =>
      have hknown : entry.1 ∈ (ofList entries).map Prod.fst ↔ entry.1 ∈ entries.map Prod.fst := by
        rw [ih, List.mem_eraseDups]
      rw [ofList_concat, List.map_append, List.map_singleton, eraseDups_concat]
      split
      · next hmem => rw [map_fst_put_of_mem (hknown.mpr hmem), ih]
      · next hmem => rw [put_of_not_mem (mt hknown.mp hmem), List.map_append, ih, List.map_singleton]

/-- The table of a list of pairs in closed form: the names in the order of their first places, each with its last
value. -/
theorem ofList_eq (default : α) (entries : List (Text × α)) :
    ofList entries =
      (entries.map Prod.fst).eraseDups.map fun name => (name, (last? name entries).getD default) := by
  have hnodup : ((ofList entries).map Prod.fst).Nodup :=
    @nodup_map_fst_putAll α [] List.nodup_nil entries
  rw [eq_map_get? default hnodup, map_fst_ofList]
  simp only [get?_ofList]

theorem ofList_eq_self {entries : Pairs α} (h : (entries.map Prod.fst).Nodup) : ofList entries = entries := by
  induction entries using List.reverseRecOn with
  | nil => rfl
  | append_singleton entries entry ih =>
      rw [List.map_append, List.map_singleton] at h
      obtain ⟨hentries, -, hnew⟩ := List.nodup_append.mp h
      rw [ofList_concat, ih hentries,
        put_of_not_mem fun hmem => hnew entry.1 hmem entry.1 (List.mem_singleton_self entry.1) rfl]

end Pairs

end IndentMarkup
