import IndentMarkup.Proofs.JsonReader
import IndentMarkup.Proofs.Utf8
import IndentMarkup.Settings.Load

/-!
# Loading settings from files

To the reader a carriage return is a line feed (`Json.read_unifyLineEnds`), so what counts is what the bytes of the
settings file are the text of, and what this text denotes. The members of the object that it denotes are the settings;
anything else gives empty settings, as a file that is missing does. Three faults remain
(`FileSystem.loadSettings_endings`): a name on the way to the file that is too long, bytes of no text, and an integer of
too many digits.
-/

namespace IndentMarkup

namespace Json

variable {r r' : Reader} {s : Text} {digits : Nat}

/-! ## Ends of lines -/

theorem step_return (r : Reader) : r.step '\r' = r.step '\n' := by
  obtain ⟨inside, e, opened⟩ := r
  cases inside <;> rfl

/-- A line ends where nothing is begun, and behind a word or a number. -/
theorem inside_of_step_newline (h : r.step '\n' = .ok r') : r'.inside = .nothing := by
  rw [Reader.step_eq_endWord_bind (by decide)] at h
  obtain ⟨middle, hend, hstep⟩ := bind_eq_ok_iff.mp h
  rcases Reader.endWord_cases hend with hnothing | ⟨rfl, hword⟩
  · rw [step_blank hnothing (by decide)] at hstep
    exact Except.ok.inj hstep ▸ hnothing
  · obtain ⟨inside, e, opened⟩ := middle
    cases inside with
    | nothing => exact Except.ok.inj hstep ▸ rfl
    | word chars => exact absurd rfl (hword chars)
    | _ => cases hstep

theorem run_unifyLineEnds (r : Reader) (s : Text) : r.run s.unifyLineEnds = r.run s := by
  induction s using Text.unifyLineEnds.induct generalizing r with
  | case1 => rfl
  | case2 s ih =>
      rw [Text.unifyLineEnds, Reader.run_cons, Reader.run_cons, step_return]
      cases hstep : r.step '\n' with
      | error fault => rfl
      | ok r' =>
          change r'.run (Text.unifyLineEnds s) = r'.run ('\n' :: s)
          rw [ih, Reader.run_cons, step_blank (inside_of_step_newline hstep) (by decide)]
          rfl
  | case3 c s hpair ih =>
      have hstep : r.step (if c = '\r' then '\n' else c) = r.step c := by
        split
        · next hc => rw [hc, step_return]
        · rfl
      rw [Text.unifyLineEnds, Reader.run_cons, Reader.run_cons, hstep]
      · exact bind_congr fun r' => ih r'
      · exact hpair

theorem read_unifyLineEnds (s : Text) : read s.unifyLineEnds = read s := by
  have hrun := run_unifyLineEnds Reader.start s
  rw [read, read, show s.unifyLineEnds.foldlM Reader.step Reader.start = _ from hrun]
  rfl

/-! ## Short texts -/

theorem MeetsOverlongBehind.digitLimit_lt_length {p : Text} (h : MeetsOverlongBehind p s digits) :
    digitLimit < s.length := by
  obtain ⟨opened, k, rest, rfl, -, hk, -⟩ := h
  have hlong := hk.2
  simp only [Numeral.text, List.length_append]
  omega

theorem not_meetsOverlong_of_length_le (hs : s.length ≤ digitLimit) : ¬ MeetsOverlong s digits := by
  rintro ⟨p, hmeets, -⟩
  exact absurd hmeets.digitLimit_lt_length (Nat.not_lt.mpr hs)

theorem meetsOverlong_text {k : Numeral} (hk : k.IsOverlong) : MeetsOverlong k.text k.whole.chars.length := by
  refine ⟨[], ⟨[], k, [], by simp, .nil, hk, not_continues_nil, rfl⟩, fun q other hother => ?_⟩
  simpa using hother.digitLimit_lt_length

end Json

/-! ## Loading -/

theorem exists_encoding_iff (name : Text) (content : Bytes) :
    (∃ f, loadSettings name (some (.file content)) = .error (.encoding f)) ↔ ¬ ∃ s, content = Utf8.encode s := by
  have hdecode : (∃ s, content = Utf8.encode s) ↔ ∃ s, Utf8.decode content = .ok s :=
    exists_congr fun s => Utf8.decode_eq_ok_iff.symm
  rw [hdecode, loadSettings, readText]
  cases Utf8.decode content with
  | error f => exact iff_of_true ⟨f, rfl⟩ (by simp)
  | ok s =>
      refine iff_of_false ?_ (by simp)
      rintro ⟨f, h⟩
      simp only [Except.map] at h
      split at h <;> cases h

theorem loadSettings_encode (name s : Text) : loadSettings name (some (.file (Utf8.encode s))) =
    match Json.read s with
    | .ok v => .ok (.ofJson name v)
    | .error .malformed => .ok (.unreadable name)
    | .error (.tooLong digits) => .error (.integerTooLong digits) := by
  have hread : readText (Utf8.encode s) = .ok s.unifyLineEnds := by
    rw [readText, Utf8.decode_eq_ok_iff.mpr rfl]
    rfl
  rw [← Json.read_unifyLineEnds s]
  rcases hvalue : Json.read s.unifyLineEnds with (_ | digits) | v <;> simp only [loadSettings, hread, hvalue]

theorem loadSettings_eq_integerTooLong_iff {name s : Text} {digits : Nat} :
    loadSettings name (some (.file (Utf8.encode s))) = .error (.integerTooLong digits) ↔
      Json.MeetsOverlong s digits := by
  rw [loadSettings_encode, ← Json.read_eq_tooLong_iff]
  split <;> simp [*]

/-- The settings are the members of the object that the text denotes. -/
theorem loadSettings_of_denotes {name s : Text} {members : Settings} (hdenotes : Json.Denotes s (.obj members))
    (hmeets : ∀ digits, ¬ Json.MeetsOverlong s digits) :
    (loadSettings name (some (.file (Utf8.encode s)))).map Prod.fst = .ok members := by
  rw [loadSettings_encode, Json.read_eq_ok_iff.mpr ⟨hdenotes, hmeets⟩]
  rfl

/-- A text that denotes no object gives empty settings. -/
theorem loadSettings_of_not_denotes {name s : Text} (hdenotes : ∀ members, ¬ Json.Denotes s (.obj members))
    (hmeets : ∀ digits, ¬ Json.MeetsOverlong s digits) :
    (loadSettings name (some (.file (Utf8.encode s)))).map Prod.fst = .ok [] := by
  rw [loadSettings_encode]
  split
  · next v hread =>
      cases v with
      | obj members => exact absurd (Json.read_eq_ok_iff.mp hread).1 (hdenotes members)
      | _ => rfl
  · rfl
  · next digits hread => exact absurd (Json.read_eq_tooLong_iff.mp hread) (hmeets digits)

namespace FileSystem

variable {fs : FileSystem} {p : Path}

theorem exists_find?_eq_error_iff :
    (∃ fault, fs.find? p = .error fault) ↔ ∃ q, fs.locate p = .error (.refused .nameTooLong q) := by
  rw [find?]
  cases fs.locate p with
  | ok place => simp
  | error fault =>
      cases fault with
      | nul => simp
      | refused error path => cases error <;> simp

section

variable {entry : Option Entry}

theorem loadSettings_of_find? (h : fs.find? p = .ok entry) :
    fs.loadSettings p = (IndentMarkup.loadSettings p.text entry).mapError .content := by rw [loadSettings, h]

theorem loadSettings_eq_path_iff {fault : FileFault} :
    (fs.loadSettings p).map Prod.fst = .error (.path fault) ↔ fs.find? p = .error fault := by
  cases hfind : fs.find? p with
  | error f => simp [loadSettings, hfind, Except.map]
  | ok entry =>
      rw [loadSettings_of_find? hfind]
      cases IndentMarkup.loadSettings p.text entry <;> simp [Except.map, Except.mapError]

theorem loadSettings_eq_content_iff (h : fs.find? p = .ok entry) {fault : LoadFault} :
    (fs.loadSettings p).map Prod.fst = .error (.content fault) ↔
      IndentMarkup.loadSettings p.text entry = .error fault := by
  rw [loadSettings_of_find? h]
  cases IndentMarkup.loadSettings p.text entry <;> simp [Except.map, Except.mapError]

theorem loadSettings_eq_ok_iff (h : fs.find? p = .ok entry) {settings : Settings} :
    (fs.loadSettings p).map Prod.fst = .ok settings ↔
      (IndentMarkup.loadSettings p.text entry).map Prod.fst = .ok settings := by
  rw [loadSettings_of_find? h]
  cases IndentMarkup.loadSettings p.text entry <;> simp [Except.map, Except.mapError]

end

/-- How the settings at a path are loaded: the members of the object that the text of the file denotes, or empty
settings, unless a name is too long, the bytes are those of no text, or the text meets an integer of too many digits. -/
theorem loadSettings_endings (fs : FileSystem) (p : Path) :
    let settings := (fs.loadSettings p).map Prod.fst
    ((∃ fault, settings = .error (.path fault)) ↔ ∃ q, fs.locate p = .error (.refused .nameTooLong q)) ∧
    (fs.find? p = .ok none ∨ fs.find? p = .ok (some .directory) → settings = .ok []) ∧
    ∀ content, fs.find? p = .ok (some (.file content)) →
      ((∃ f, settings = .error (.content (.encoding f))) ↔ ¬ ∃ s, content = Utf8.encode s) ∧
      ∀ s, content = Utf8.encode s →
        (∀ digits, settings = .error (.content (.integerTooLong digits)) ↔ Json.MeetsOverlong s digits) ∧
        ((∀ digits, ¬ Json.MeetsOverlong s digits) →
          (∀ members, Json.Denotes s (.obj members) → settings = .ok members) ∧
          ((∀ members, ¬ Json.Denotes s (.obj members)) → settings = .ok [])) := by
  intro settings
  refine ⟨(exists_congr fun _ => loadSettings_eq_path_iff).trans exists_find?_eq_error_iff, ?_, ?_⟩
  · rintro (hmissing | hdirectory)
    · exact (loadSettings_eq_ok_iff hmissing).mpr rfl
    · exact (loadSettings_eq_ok_iff hdirectory).mpr rfl
  · intro content hfile
    refine ⟨(exists_congr fun _ => loadSettings_eq_content_iff hfile).trans (exists_encoding_iff p.text content), ?_⟩
    rintro s rfl
    refine ⟨fun digits => (loadSettings_eq_content_iff hfile).trans loadSettings_eq_integerTooLong_iff, ?_⟩
    intro hmeets
    exact ⟨fun members hdenotes => (loadSettings_eq_ok_iff hfile).mpr (loadSettings_of_denotes hdenotes hmeets),
      fun hdenotes => (loadSettings_eq_ok_iff hfile).mpr (loadSettings_of_not_denotes hdenotes hmeets)⟩

/-- Files with settings of one member, with another value, with no text and with an integer of too many digits, and a
directory. -/
def settingsFiles : FileSystem :=
  ⟨[], [(["one".toList], .file (Utf8.encode "\x7b\"a\": 1\x7d".toList)),
    (["list".toList], .file (Utf8.encode "[]".toList)), (["bytes".toList], .file [255]),
    (["digits".toList], .file (Utf8.encode (List.replicate (digitLimit + 1) '7'))), (["directory".toList], .directory)]⟩

def sevens (count : Nat) : Json.Numeral where
  negative := false
  whole := ⟨List.replicate (count + 1) '7', by simp, fun c hc => List.eq_of_mem_replicate hc ▸ by decide⟩
  head_ne_zero := by simp [List.replicate_succ]
  fraction := none
  exponent := none

theorem denotes_one : Json.Denotes "\x7b\"a\": 1\x7d".toList (.obj [("a".toList, .int 1)]) := by
  let key : Json.Key :=
    ⟨[], [.plain 'a' (by decide) (by decide) (by decide)], [], Json.isBlanks_nil, Json.isBlanks_nil⟩
  let one : Json.Numeral := ⟨false, ⟨['1'], by simp, by simp⟩, by simp, none, none⟩
  have hnumber : Json.Denotes " 1".toList (.int 1) := .blankBefore (by decide) (.number one)
  exact @Json.Denotes.object [] ⟨key, " 1".toList, .int 1⟩ (by simp) hnumber

theorem loadSettings_endings_files :
    let settings := fun p => (settingsFiles.loadSettings (.ofText p)).map Prod.fst
    settings "one".toList = .ok [("a".toList, .int 1)] ∧ settings "list".toList = .ok [] ∧
      settings "directory".toList = .ok [] ∧ settings "missing".toList = .ok [] ∧
      (∃ f, settings "bytes".toList = .error (.content (.encoding f))) ∧
      settings "digits".toList = .error (.content (.integerTooLong (digitLimit + 1))) ∧
      ∃ fault, settings (List.replicate (nameLimit + 1) 'n') = .error (.path fault) := by
  intro settings
  have hshort : ∀ {s : Text}, s.length ≤ 8 → ∀ digits, ¬ Json.MeetsOverlong s digits := fun hs digits =>
    Json.not_meetsOverlong_of_length_le (hs.trans (by decide))
  refine ⟨?_, ?_, ?_, ?_, ?_, ?_, ?_⟩
  · obtain ⟨-, -, hfile⟩ := loadSettings_endings settingsFiles (.ofText "one".toList)
    exact (((hfile _ rfl).2 _ rfl).2 (hshort (by decide))).1 _ denotes_one
  · obtain ⟨-, -, hfile⟩ := loadSettings_endings settingsFiles (.ofText "list".toList)
    refine (((hfile _ rfl).2 _ rfl).2 (hshort (by decide))).2 fun members hdenotes => ?_
    have hread := Json.read_eq_ok_iff.mpr ⟨hdenotes, hshort (by decide)⟩
    rw [show Json.read "[]".toList = .ok (.arr []) from rfl] at hread
    cases hread
  · exact (loadSettings_endings settingsFiles (.ofText "directory".toList)).2.1 (.inr rfl)
  · exact (loadSettings_endings settingsFiles (.ofText "missing".toList)).2.1 (.inl rfl)
  · obtain ⟨-, -, hfile⟩ := loadSettings_endings settingsFiles (.ofText "bytes".toList)
    refine (hfile _ rfl).1.mpr ?_
    rintro ⟨s, hs⟩
    have hdecode := Utf8.decode_eq_ok_iff.mpr hs
    rw [show Utf8.decode [255] = .error ⟨[255], 0, .startByte⟩ from rfl] at hdecode
    cases hdecode
  · obtain ⟨-, -, hfile⟩ := loadSettings_endings settingsFiles (.ofText "digits".toList)
    have hmeets := @Json.meetsOverlong_text (sevens digitLimit) ⟨⟨rfl, rfl⟩, by simp [sevens]⟩
    refine ((hfile _ rfl).2 _ rfl).1 _ |>.mpr ?_
    simpa [sevens, Json.Numeral.text, Json.signText, Json.fractionText, Json.exponentText] using hmeets
  · obtain ⟨hpath, -⟩ := loadSettings_endings settingsFiles (.ofText (List.replicate (nameLimit + 1) 'n'))
    exact hpath.mpr ⟨.ofText (List.replicate (nameLimit + 1) 'n'), by decide +kernel⟩

end FileSystem

end IndentMarkup
