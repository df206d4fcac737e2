import IndentMarkup.Log.Level
import Mathlib.Data.List.Basic

/-!
# What logging makes of its settings

Settings for logging that hold nothing but texts and sections can be applied unless one of the levels is a reserved
word or a text stands in the place of a section (`Log.Levels.configure_eq_none_iff`). A setting that is no name of a
level stands for the usual level. So the root has the usual level then, unless its level is set by name as well
(`Log.Levels.root_configure`).
-/

namespace IndentMarkup

/-- A value that is made of texts and sections, down to the last one. -/
inductive Json.IsTextual : Json → Prop
  | null : IsTextual .null
  | str (s : Text) : IsTextual (.str s)
  | obj {members : List (Text × Json)} (h : ∀ m ∈ members, IsTextual m.2) : IsTextual (.obj members)

namespace Log

/-! ## Words for levels -/

def levelWord (s : Text) : String := String.ofList (Text.upper s)

/-- The words that stand for something else than a level. -/
def reservedWords : List String := ["BASIC_FORMAT", "_STYLES"]

def IsReserved (v : Json) : Prop := ∃ s, v = .str s ∧ levelWord s ∈ reservedWords

def IsLevelName (v : Json) : Prop := ∃ s, v = .str s ∧ (levelWords.lookup (levelWord s)).isSome

theorem isReserved_str {s : Text} : IsReserved (.str s) ↔ levelWord s ∈ reservedWords := by
  simp [IsReserved]

theorem isLevelName_str {s : Text} : IsLevelName (.str s) ↔ (levelWords.lookup (levelWord s)).isSome := by
  simp [IsLevelName]

theorem readLevel_of_reserved {v : Json} (h : IsReserved v) (fallback : Int) :
    ∃ f, readLevel fallback v = .error f := by
  obtain ⟨s, rfl, hword⟩ := h
  simp only [reservedWords, List.mem_cons, List.not_mem_nil, or_false] at hword
  rw [readLevel]
  · split
    · exact ⟨_, rfl⟩
    · exact ⟨_, rfl⟩
    · next hformat hstyles => exact absurd hword (not_or.mpr ⟨hformat, hstyles⟩)
  · simp
  · simp

theorem readLevel_of_word {v : Json} (hint : ∀ i, v ≠ .int i) (hbool : ∀ b, v ≠ .bool b)
    (h : levelWord v.display ∉ reservedWords) (fallback : Int) :
    readLevel fallback v = .ok ((levelWords.lookup (levelWord v.display)).getD fallback) := by
  simp only [reservedWords, List.mem_cons, List.not_mem_nil, or_false, not_or] at h
  rw [readLevel]
  · split
    · next hformat => exact absurd hformat h.1
    · next hstyles => exact absurd hstyles h.2
    · rfl
  · exact hint
  · exact hbool

/-- A section is shown in brackets, which no word begins with. -/
theorem head?_levelWord_obj (members : List (Text × Json)) :
    (levelWord (Json.obj members).display).toList.head? = some '{' := by
  have hshown : (Json.obj members).display = '{' :: (Json.shownMembers members ++ ['}']) := rfl
  have hupper : upperChar '{' = ['{'] := by decide +kernel
  rw [hshown, levelWord, String.toList_ofList, Text.upper, List.flatMap_cons, hupper]
  rfl

theorem readLevel_obj (members : List (Text × Json)) (fallback : Int) :
    readLevel fallback (.obj members) = .ok fallback := by
  have hhead := head?_levelWord_obj members
  have hreserved : levelWord (Json.obj members).display ∉ reservedWords := fun h =>
    (by decide +kernel : ∀ word ∈ reservedWords, word.toList.head? ≠ some '{') _ h hhead
  have hlookup : levelWords.lookup (levelWord (Json.obj members).display) = none := by
    rw [List.lookup_eq_none_iff]
    intro p hp
    have hne := (by decide +kernel : ∀ p ∈ levelWords, p.1.toList.head? ≠ some '{') p hp
    exact bne_iff_ne.mpr fun heq => hne (heq ▸ hhead)
  rw [readLevel_of_word (by simp) (by simp) hreserved, hlookup]
  rfl

theorem exists_readLevel {v : Json} (hv : v.IsTextual) (h : ¬ IsReserved v) (fallback : Int) :
    ∃ level, readLevel fallback v = .ok level ∧ (¬ IsLevelName v → level = fallback) := by
  cases hv with
  | null => exact ⟨fallback, readLevel_of_word (by simp) (by simp) (by decide +kernel) fallback, fun _ => rfl⟩
  | str s =>
      have hword : levelWord s ∉ reservedWords := isReserved_str.not.mp h
      refine ⟨_, readLevel_of_word (v := .str s) (by simp) (by simp) hword fallback, fun hname => ?_⟩
      have hnone : levelWords.lookup (levelWord s) = none :=
        Option.not_isSome_iff_eq_none.mp (isLevelName_str.not.mp hname)
      exact congrArg (·.getD fallback) hnone
  | @obj members _ => exact ⟨fallback, readLevel_obj members fallback, fun _ => rfl⟩

/-! ## Applying settings -/

/-- A setting that gives levels by name: nothing, or a section in which no level is a reserved word. -/
def IsUsable (v : Json) : Prop :=
  v = .null ∨ v = .str [] ∨ ∃ members, v = .obj members ∧ ∀ m ∈ members, ¬ IsReserved m.2

namespace Levels

variable {fallback : Int} {members : List (Text × Json)} {v : Json}

theorem setEach_eq_none_iff (h : ∀ m ∈ members, m.2.IsTextual) (l : Levels) :
    (setEach fallback l members).2 = none ↔ ∀ m ∈ members, ¬ IsReserved m.2 := by
  induction members generalizing l with
  | nil => simp [setEach]
  | cons m rest ih =>
      obtain ⟨name, v⟩ := m
      obtain ⟨hv, hrest⟩ := List.forall_mem_cons.mp h
      rw [List.forall_mem_cons, setEach]
      by_cases hreserved : IsReserved v
      · obtain ⟨f, hread⟩ := readLevel_of_reserved hreserved fallback
        rw [hread]
        exact iff_of_false (by simp) fun hnone => hnone.1 hreserved
      · obtain ⟨level, hread, -⟩ := exists_readLevel hv hreserved fallback
        rw [hread, and_iff_right hreserved]
        exact ih hrest _

theorem setAll_eq_none_iff (hv : v.IsTextual) (fallback : Int) (l : Levels) :
    (setAll fallback l v).2 = none ↔ IsUsable v := by
  cases hv with
  | null => exact iff_of_true rfl (.inl rfl)
  | str s => cases s <;> simp [setAll, Json.isTrue, IsUsable]
  | @obj members h =>
      rw [setAll, setEach_eq_none_iff h]
      exact ⟨fun hnone => .inr (.inr ⟨members, rfl, hnone⟩), by simp [IsUsable]⟩

theorem configure_eq (l : Levels) {general : Json} {level : Int} (h : readLevel warning general = .ok level)
    (modules silenced : Json) :
    let first := setAll info { l with shown := true, root := level } modules
    l.configure general modules silenced =
      if first.2 = none then setAll critical first.1 silenced else first := by
  intro first
  have hfirst : setAll info { l with shown := true, root := level } modules = (first.1, first.2) := rfl
  simp only [configure, h, hfirst]
  cases hfault : first.2 with
  | none => rfl
  | some f => exact (Prod.ext rfl hfault.symm : (first.1, some f) = first)

theorem configure_eq_none_iff {general modules silenced : Json} (hgeneral : general.IsTextual)
    (hmodules : modules.IsTextual) (hsilenced : silenced.IsTextual) (l : Levels) :
    (l.configure general modules silenced).2 = none ↔
      ¬ IsReserved general ∧ IsUsable modules ∧ IsUsable silenced := by
  by_cases hreserved : IsReserved general
  · obtain ⟨f, hread⟩ := readLevel_of_reserved hreserved warning
    simp [configure, hread, hreserved]
  · obtain ⟨level, hread, -⟩ := exists_readLevel hgeneral hreserved warning
    rw [configure_eq l hread, ← setAll_eq_none_iff hmodules info { l with shown := true, root := level }]
    split
    · next hnone => rw [setAll_eq_none_iff hsilenced]; simp [hreserved, hnone]
    · next hsome => simp [hsome]

/-! ## The level of the root -/

theorem root_enter (l : Levels) (name : Text) : (l.enter name).root = l.root := by
  rw [enter]
  split <;> rfl

theorem root_setLevel {name : Text} (h : isRoot name = false) (level : Int) (l : Levels) :
    (l.setLevel name level).root = l.root := by
  rw [setLevel, if_neg (by simp [h])]
  exact root_enter l name

theorem root_setEach (h : ∀ m ∈ members, isRoot m.1 = false) (l : Levels) :
    (setEach fallback l members).1.root = l.root := by
  induction members generalizing l with
  | nil => rfl
  | cons m rest ih =>
      obtain ⟨name, v⟩ := m
      obtain ⟨hname, hrest⟩ := List.forall_mem_cons.mp h
      rw [setEach]
      cases readLevel fallback v with
      | ok level => exact (ih hrest _).trans (root_setLevel hname level l)
      | error f => exact root_enter l name

/-- A setting that sets no level for the root by name. -/
def NamesNoRoot (v : Json) : Prop := ∀ members, v = .obj members → ∀ m ∈ members, isRoot m.1 = false

theorem root_setAll (h : NamesNoRoot v) (l : Levels) : (setAll fallback l v).1.root = l.root := by
  unfold setAll
  split
  · next members => exact root_setEach (h members rfl) l
  · split <;> rfl

/-- A setting that is no name of a level stands for the usual level. -/
theorem root_configure {general modules silenced : Json} (hgeneral : general.IsTextual)
    (hreserved : ¬ IsReserved general) (hname : ¬ IsLevelName general) (hmodules : NamesNoRoot modules)
    (hsilenced : NamesNoRoot silenced) (l : Levels) :
    (l.configure general modules silenced).1.root = warning := by
  obtain ⟨level, hread, hlevel⟩ := exists_readLevel hgeneral hreserved warning
  obtain rfl := hlevel hname
  rw [configure_eq l hread]
  split
  · rw [root_setAll hsilenced, root_setAll hmodules]
  · exact root_setAll hmodules _

end Levels

end Log

end IndentMarkup
