import IndentMarkup.Proofs.Lines
import IndentMarkup.Template.Descriptor

/-!
# The items of an attribute group

An item stands for a name and perhaps a value. It is trimmed first and cut at its first equals sign then, and the
order does not count: the name is what stands in front of the equals sign in the item as it is written, the value what
stands behind it, both trimmed (`Item.ofText_eq`). So a name is trimmed, is not empty, does not begin with a digit and
holds no equals sign (`Item.isItemName_of_ofText`), and an item that is written of such a name stands for it
(`Item.ofText_of_isItemName`, `Item.ofText_valued`).
-/

namespace IndentMarkup

/-! ## Cutting a text -/

namespace Text

theorem takeWhile_ne_of_not_mem {sep : Char} {s : Text} (h : sep ∉ s) : s.takeWhile (· ≠ sep) = s :=
  List.takeWhile_eq_self_iff.mpr fun c hc => by simpa using ne_of_mem_of_not_mem hc h

theorem takeWhile_ne_append {sep : Char} {s : Text} (h : sep ∉ s) (t : Text) :
    (s ++ sep :: t).takeWhile (· ≠ sep) = s := by
  have htaken : ∀ c ∈ s, (decide (c ≠ sep)) = true := fun c hc => by simpa using ne_of_mem_of_not_mem hc h
  rw [List.takeWhile_append_of_pos htaken, List.takeWhile_cons_of_neg (by simp), List.append_nil]

theorem drop_dropWhile_ne_append {sep : Char} {s : Text} (h : sep ∉ s) (t : Text) :
    ((s ++ sep :: t).dropWhile (· ≠ sep)).drop 1 = t := by
  have htaken : ∀ c ∈ s, (decide (c ≠ sep)) = true := fun c hc => by simpa using ne_of_mem_of_not_mem hc h
  rw [List.dropWhile_append_of_pos htaken, List.dropWhile_cons_of_neg (by simp), List.drop_one, List.tail_cons]

theorem cutAt?_eq (sep : Char) (s : Text) :
    cutAt? sep s = if sep ∈ s then some (s.takeWhile (· ≠ sep), (s.dropWhile (· ≠ sep)).drop 1) else none := by
  induction s with
  | nil => rfl
  | cons c s ih =>
      rw [cutAt?]
      by_cases hc : c = sep
      · simp [hc]
      · rw [if_neg hc, ih]
        by_cases hmem : sep ∈ s
        · simp [hmem, hc]
        · simp [hmem, Ne.symm hc]

end Text

/-! ## What an item stands for -/

namespace Item

/-- The name that is written in an item: what stands in front of its first equals sign. -/
def writtenName (written : Text) : Text := Text.trim (written.takeWhile (· ≠ '='))

/-- The value that is written in an item: what stands behind its first equals sign, if there is one. -/
def writtenValue? (written : Text) : Option Text :=
  if '=' ∈ written then some (Text.trim ((written.dropWhile (· ≠ '=')).drop 1)) else none

theorem not_mem_writtenName (written : Text) : '=' ∉ writtenName written := by
  intro hmem
  have hne := List.mem_takeWhile_imp (Text.mem_of_mem_trim hmem)
  simp at hne

theorem mem_of_mem_writtenName {written : Text} {c : Char} (hc : c ∈ writtenName written) : c ∈ written :=
  (List.takeWhile_sublist _).mem (Text.mem_of_mem_trim hc)

theorem mem_of_mem_writtenValue? {written value : Text} (hvalue : writtenValue? written = some value) {c : Char}
    (hc : c ∈ value) : c ∈ written := by
  rw [writtenValue?] at hvalue
  split at hvalue
  · rw [← Option.some.inj hvalue] at hc
    exact (List.dropWhile_sublist _).mem (List.mem_of_mem_drop (Text.mem_of_mem_trim hc))
  · simp at hvalue

/-- The name and the value of an item are those of the trimmed item. -/
theorem written_trim (written : Text) :
    writtenName written.trim = writtenName written ∧ writtenValue? written.trim = writtenValue? written := by
  obtain ⟨before, behind, hwritten, hbefore, hbehind⟩ := Text.exists_blanks_trim written
  have hvisible : ¬ isBlank '=' := by decide
  have hinside : '=' ∈ written ↔ '=' ∈ written.trim := by
    refine ⟨fun hmem => ?_, Text.mem_of_mem_trim⟩
    rw [hwritten, List.mem_append, List.mem_append] at hmem
    rcases hmem with (hmem | hmem) | hmem
    · exact absurd (hbefore _ hmem) hvisible
    · exact hmem
    · exact absurd (hbehind _ hmem) hvisible
  by_cases hmem : '=' ∈ written.trim
  · -- the item is cut at the same place, and the blanks around it are trimmed off its parts
    obtain ⟨name, value, hcut, hname⟩ := List.eq_append_cons_of_mem hmem
    have hfront : '=' ∉ before ++ name := by
      rw [List.mem_append]
      rintro (h | h)
      · exact hvisible (hbefore _ h)
      · exact hname h
    have hparts : written = (before ++ name) ++ '=' :: (value ++ behind) := by
      conv_lhs => rw [hwritten, hcut]
      simp
    constructor
    · rw [writtenName, writtenName, hcut, Text.takeWhile_ne_append hname, hparts, Text.takeWhile_ne_append hfront,
        Text.trim_append_of_blank hbefore]
    · rw [writtenValue?, writtenValue?, if_pos hmem, if_pos (hinside.mpr hmem), hcut,
        Text.drop_dropWhile_ne_append hname, hparts, Text.drop_dropWhile_ne_append hfront,
        Text.trim_append_blank _ hbehind]
  · have hnone : '=' ∉ written := fun h => hmem (hinside.mp h)
    constructor
    · rw [writtenName, writtenName, Text.takeWhile_ne_of_not_mem hmem, Text.takeWhile_ne_of_not_mem hnone,
        Text.trim_trim]
    · rw [writtenValue?, writtenValue?, if_neg hmem, if_neg hnone]

/-- An item stands for the name and the value that are written in it, unless it begins with a digit or its name is
blank. -/
theorem ofText_eq (written : Text) :
    ofText written =
      if written.trim = [] then .blank
      else if startsWithDigit written.trim then .malformed (.attributeName written.trim)
      else if writtenName written = [] then .malformed (.missingName written.trim)
      else .named (writtenName written) (writtenValue? written) := by
  obtain ⟨hname, hvalue⟩ := written_trim written
  have htrim := Text.trim_trim written
  rw [ofText, ← hname, ← hvalue]
  generalize written.trim = item at htrim
  by_cases hmem : '=' ∈ item
  · simp only [Text.cutAt?_eq, hmem, if_true, List.isEmpty_iff, writtenName, writtenValue?]
  · have hwritten : writtenName item = item := by rw [writtenName, Text.takeWhile_ne_of_not_mem hmem, htrim]
    simp only [Text.cutAt?_eq, hmem, if_false, List.isEmpty_iff, hwritten, writtenValue?]
    by_cases hne : item = []
    · rw [if_pos hne, if_pos hne]
    · rw [if_neg hne, if_neg hne, if_neg hne]

/-! ## What is read of an item -/

def writtenAttribute? (written : Text) : Option (Text × Option Text) :=
  if startsWithDigit written.trim ∨ writtenName written = [] then none
  else some (writtenName written, writtenValue? written)

/-- What is noted of an item: it begins with a digit, or it is not blank and has no name. -/
def writtenDiagnostic? (written : Text) : Option Diagnostic :=
  if startsWithDigit written.trim then some (.attributeName written.trim)
  else if written.trim ≠ [] ∧ writtenName written = [] then some (.missingName written.trim)
  else none

theorem writtenName_of_blank {written : Text} (h : written.trim = []) : writtenName written = [] := by
  rw [← (written_trim written).1, h]
  rfl

theorem attribute?_ofText (written : Text) : (ofText written).attribute? = writtenAttribute? written := by
  rw [ofText_eq, writtenAttribute?]
  by_cases hblank : written.trim = []
  · simp [hblank, writtenName_of_blank hblank, attribute?]
  · by_cases hdigit : startsWithDigit written.trim
    · simp [hblank, hdigit, attribute?]
    · by_cases hname : writtenName written = [] <;> simp [hblank, hdigit, hname, attribute?]

theorem diagnostic?_ofText (written : Text) : (ofText written).diagnostic? = writtenDiagnostic? written := by
  rw [ofText_eq, writtenDiagnostic?]
  by_cases hblank : written.trim = []
  · simp [hblank, startsWithDigit, diagnostic?]
  · by_cases hdigit : startsWithDigit written.trim
    · simp [hblank, hdigit, diagnostic?]
    · by_cases hname : writtenName written = [] <;> simp [hblank, hdigit, hname, diagnostic?]

end Item

/-! ## Names of items -/

/-- A text that can be the name of an attribute on a line. -/
structure IsItemName (name : Text) : Prop where
  ne_nil : name ≠ []
  trim_eq : name.trim = name
  not_mem : '=' ∉ name
  start : startsWithDigit name = false

namespace Item

theorem head?_writtenName {written : Text} (h : writtenName written ≠ []) :
    (writtenName written).head? = written.trim.head? := by
  obtain ⟨c, r, hname⟩ := List.exists_cons_of_ne_nil h
  have hhead : (writtenName written).head? = some c := by rw [hname, List.head?_cons]
  rw [hhead, Text.head?_trim_eq_find?, eq_comm]
  rw [writtenName, Text.head?_trim_eq_find?] at hhead
  exact (List.takeWhile_prefix _).find?_eq_some hhead

theorem ofText_eq_named_iff {written name : Text} {value : Option Text} :
    ofText written = .named name value ↔
      writtenName written ≠ [] ∧ startsWithDigit written.trim = false ∧ writtenName written = name ∧
        writtenValue? written = value := by
  rw [ofText_eq]
  split
  · next hblank =>
      have hname : writtenName written = [] := by rw [← (written_trim written).1, hblank]; rfl
      simp [hname]
  · split
    · next hdigit => simp [hdigit]
    · next hdigit =>
        split
        · next hname => simp [hname]
        · next hname => simp [hname, hdigit]

theorem isItemName_of_ofText {written name : Text} {value : Option Text} (h : ofText written = .named name value) :
    IsItemName name ∧ ∀ c ∈ name, c ∈ written := by
  obtain ⟨hne, hdigit, rfl, -⟩ := ofText_eq_named_iff.mp h
  refine ⟨⟨hne, Text.trim_trim _, not_mem_writtenName written, ?_⟩, fun c hc => mem_of_mem_writtenName hc⟩
  rwa [startsWithDigit, head?_writtenName hne]

theorem ofText_of_isItemName {name : Text} (h : IsItemName name) : ofText name = .named name none := by
  have hname : writtenName name = name := by rw [writtenName, Text.takeWhile_ne_of_not_mem h.not_mem, h.trim_eq]
  have hvalue : writtenValue? name = none := if_neg h.not_mem
  refine ofText_eq_named_iff.mpr ⟨by rw [hname]; exact h.ne_nil, ?_, hname, hvalue⟩
  rw [h.trim_eq, h.start]

theorem ofText_valued {name value : Text} (h : IsItemName name) (hvalue : value.trim = value) :
    ofText (name ++ '=' :: value) = .named name (some value) := by
  have hname : writtenName (name ++ '=' :: value) = name := by
    rw [writtenName, Text.takeWhile_ne_append h.not_mem, h.trim_eq]
  have hwritten : writtenValue? (name ++ '=' :: value) = some value := by
    rw [writtenValue?, if_pos (by simp), Text.drop_dropWhile_ne_append h.not_mem, hvalue]
  have hne : writtenName (name ++ '=' :: value) ≠ [] := by
    rw [hname]
    exact h.ne_nil
  refine ofText_eq_named_iff.mpr ⟨hne, ?_, hname, hwritten⟩
  rw [startsWithDigit, ← head?_writtenName hne, hname, ← startsWithDigit, h.start]

end Item

end IndentMarkup
