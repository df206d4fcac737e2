import IndentMarkup.File.System
import Mathlib.Data.List.Basic

/-!
# What file operations keep

Directories that stand go on to stand, whatever is made or written. So a path that leads to a place leads there later as
well (`ChangesOnly.locate`). To make directories changes no file (`changesOnly_of_makeDirectories`), and to write
changes the file at one place alone (`exists_of_write`).
-/

namespace IndentMarkup

theorem toOption_eq_some_iff {ε α : Type} {x : Except ε α} {a : α} : x.toOption = some a ↔ x = .ok a := by
  cases x <;> simp [Except.toOption]

theorem bind_eq_ok_iff {ε α β : Type} {x : Except ε α} {next : α → Except ε β} {b : β} :
    (x >>= next) = .ok b ↔ ∃ a, x = .ok a ∧ next a = .ok b := by
  cases x <;> simp [bind, Except.bind]

theorem map_eq_ok_iff {ε α β : Type} {x : Except ε α} {f : α → β} {b : β} :
    x.map f = .ok b ↔ ∃ a, x = .ok a ∧ f a = b := by
  cases x <;> simp [Except.map]

theorem mapError_eq_ok_iff {ε ε' α : Type} {x : Except ε α} {f : ε → ε'} {a : α} :
    x.mapError f = .ok a ↔ x = .ok a := by
  cases x <;> simp [Except.mapError]

namespace FileSystem

variable {fs fs' : FileSystem} {p : Path} {place other : Place} {content : Bytes} {entry : Entry}

/-! ## What stands at a place -/

theorem entry?_put_self (h : place ≠ []) (fs : FileSystem) (entry : Entry) :
    FileSystem.entry? (fs.put place entry) place = some entry := by
  rw [ entry?, if_neg (by simpa using h)]
  exact List.lookup_cons_self

theorem lookup_filter_ne (entries : List (Place × Entry)) (h : other ≠ place) :
    (entries.filter (·.1 ≠ place)).lookup other = entries.lookup other := by
  induction entries with
  | nil => rfl
  | cons e rest ih =>
      obtain ⟨here, entry⟩ := e
      by_cases hhere : here = place
      · have hne : (other == here) = false := by simpa [hhere] using h
        simpa [hhere, List.lookup_cons, hhere ▸ hne] using ih
      · rw [List.filter_cons_of_pos (by simpa using hhere), List.lookup_cons, List.lookup_cons, ih]

theorem entry?_put_of_ne (h : other ≠ place) (fs : FileSystem) (entry : Entry) :
    FileSystem.entry? (fs.put place entry) other = fs.entry? other := by
  have hne : (other == place) = false := by simpa using h
  rw [ entry?, entry?, put, List.lookup_cons, hne, ← lookup_filter_ne fs.entries h]

def place? (fs : FileSystem) (p : Path) : Option Place := (fs.locate p).toOption

theorem place?_of_locate (h : fs.locate p = .ok place) : fs.place? p = some place := toOption_eq_some_iff.mpr h

/-! ## Changes -/

/-- Files are changed at some places only, and directories at none. -/
structure ChangesOnly (places : List Place) (fs fs' : FileSystem) : Prop where
  workingDirectory : fs'.workingDirectory = fs.workingDirectory
  directory : ∀ {place}, fs.entry? place = some .directory → fs'.entry? place = some .directory
  file : ∀ {place content}, place ∉ places → fs.entry? place = some (.file content) →
    fs'.entry? place = some (.file content)

namespace ChangesOnly

theorem refl (places : List Place) (fs : FileSystem) : ChangesOnly places fs fs := ⟨rfl, id, fun _ => id⟩

theorem trans {places places' : List Place} {fs'' : FileSystem} (h : ChangesOnly places fs fs')
    (h' : ChangesOnly places' fs' fs'') : ChangesOnly (places ++ places') fs fs'' where
  workingDirectory := h'.workingDirectory.trans h.workingDirectory
  directory hplace := h'.directory (h.directory hplace)
  file hnew hplace := by
    rw [List.mem_append, not_or] at hnew
    exact h'.file hnew.2 (h.file hnew.1 hplace)

variable {places : List Place}

theorem walk (h : ChangesOnly places fs fs') {here : Place} {names : List Text}
    (hwalk : fs.walk here names = .ok place) : fs'.walk here names = .ok place := by
  induction names generalizing here with
  | nil => exact hwalk
  | cons name rest ih =>
      rw [FileSystem.walk] at hwalk ⊢
      split at hwalk
      · simp at hwalk
      · simp at hwalk
      · next hhere =>
          rw [h.directory hhere]
          dsimp only
          split at hwalk
          · simp at hwalk
          · next hshort => rw [if_neg hshort, ih hwalk]

theorem locate (h : ChangesOnly places fs fs') (hlocate : fs.locate p = .ok place) : fs'.locate p = .ok place := by
  rw [FileSystem.locate] at hlocate ⊢
  split at hlocate
  · simp at hlocate
  · next hnul =>
      rw [if_neg hnul]
      split at hlocate
      · simp at hlocate
      · next hshort =>
          rw [if_neg hshort, h.workingDirectory]
          exact mapError_eq_ok_iff.mpr (h.walk (mapError_eq_ok_iff.mp hlocate))

end ChangesOnly

/-- To put something where no directory stands changes this place alone. -/
theorem changesOnly_put (h : fs.entry? place ≠ some .directory) (entry : Entry) :
    ChangesOnly [place] fs (fs.put place entry) where
  workingDirectory := rfl
  directory := by
    intro other hother
    have hne : other ≠ place := fun heq => h (by rw [← heq, hother])
    rw [entry?_put_of_ne hne, hother]
  file := by
    intro other content hne hother
    rw [entry?_put_of_ne (by simpa using hne), hother]

/-! ## Reading and writing -/

theorem read_eq_ok_iff :
    fs.read p = .ok content ↔ ∃ place, fs.locate p = .ok place ∧ fs.entry? place = some (.file content) := by
  rw [read, bind_eq_ok_iff]
  refine exists_congr fun place => and_congr_right fun _ => ?_
  cases fs.entry? place with
  | none => simp
  | some entry => cases entry <;> simp

theorem find?_eq_some_iff :
    fs.find? p = .ok (some entry) ↔ ∃ place, fs.locate p = .ok place ∧ fs.entry? place = some entry := by
  rw [find?]
  cases fs.locate p with
  | ok place => simp
  | error fault =>
      cases fault with
      | nul => simp
      | refused error path => cases error <;> simp

theorem isFile_eq_true_iff : fs.isFile p = .ok true ↔ ∃ content, fs.read p = .ok content := by
  have hfound : fs.isFile p = .ok true ↔ ∃ content, fs.find? p = .ok (some (.file content)) := by
    rw [isFile, bind_eq_ok_iff]
    constructor
    · rintro ⟨found, hfound, htrue⟩
      split at htrue
      · next content => exact ⟨content, hfound⟩
      · cases htrue
    · rintro ⟨content, hfound⟩
      exact ⟨_, hfound, rfl⟩
  simp only [hfound, find?_eq_some_iff, read_eq_ok_iff]

theorem exists_of_write (h : fs.write p content = .ok fs') :
    ∃ place, fs.locate p = .ok place ∧ fs'.entry? place = some (.file content) ∧ ChangesOnly [place] fs fs' := by
  obtain ⟨place, hlocate, h⟩ := bind_eq_ok_iff.mp h
  split at h
  · cases h
  · next hentry =>
      obtain rfl := Except.ok.inj h
      have hplace : place ≠ [] := by
        rintro rfl
        exact hentry rfl
      exact ⟨place, hlocate, entry?_put_self hplace fs _, changesOnly_put hentry _⟩

/-! ## Making directories -/

theorem changesOnly_of_makeDirectory (h : fs.makeDirectory p = .ok fs') : ChangesOnly [] fs fs' := by
  obtain ⟨place, -, h⟩ := bind_eq_ok_iff.mp h
  split at h
  · cases h
  · next hentry =>
      obtain rfl := Except.ok.inj h
      have hput : ChangesOnly [place] fs (fs.put place .directory) := changesOnly_put (by simp [hentry]) _
      refine ⟨rfl, hput.directory, fun {other _} _ hother => ?_⟩
      have hne : other ≠ place := by
        rintro rfl
        simp [hentry] at hother
      exact hput.file (by simpa using hne) hother

theorem changesOnly_of_ensureDirectory (h : fs.ensureDirectory p = .ok fs') : ChangesOnly [] fs fs' := by
  rw [ensureDirectory] at h
  split at h
  · exact Except.ok.inj h ▸ .refl [] fs
  · exact changesOnly_of_makeDirectory h

theorem changesOnly_of_makeDirectoriesTo {count : Nat} (h : fs.makeDirectoriesTo p count = .ok fs') :
    ChangesOnly [] fs fs' := by
  induction count generalizing fs' with
  | zero => exact changesOnly_of_ensureDirectory h
  | succ count ih =>
      rw [makeDirectoriesTo] at h
      split at h
      · obtain ⟨middle, hrest, hlast⟩ := bind_eq_ok_iff.mp h
        exact (ih hrest).trans (changesOnly_of_ensureDirectory hlast)
      · exact changesOnly_of_ensureDirectory h

theorem changesOnly_of_makeDirectories (h : fs.makeDirectories p = .ok fs') : ChangesOnly [] fs fs' :=
  changesOnly_of_makeDirectoriesTo h

end FileSystem

end IndentMarkup
