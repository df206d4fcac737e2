import IndentMarkup.Command.Session
import IndentMarkup.Proofs.DottedKeys
import IndentMarkup.Proofs.LoggerLevels

/-!
# Overrides in front of a command

Overrides are texts, so they leave nothing but texts and sections in the settings for logging
(`Settings.HasTextualLogging.foldlM_override?`), whatever they are and however many. Some of these settings cannot be
applied all the same: a text in the place of a section, and a level that is a reserved word. A command line ends with
an exit code exactly if there is none of these (`Command.Session.run_overrides`).
-/

namespace IndentMarkup

open Json (IsTextual)

theorem Json.IsTextual.lookUp {v : Json} (h : v.IsTextual) (names : List Text) : (lookUp names v).IsTextual := by
  induction names generalizing v with
  | nil => exact h
  | cons name rest ih =>
      cases h with
      | null => exact .null
      | str s => exact .null
      | @obj members hmembers =>
          rw [IndentMarkup.lookUp]
          cases hget : Pairs.get? name members with
          | none => exact ih .null
          | some v => exact ih (hmembers _ (Pairs.mem_of_get?_eq_some hget))

namespace Settings

/-! ## Settings that stay textual -/

def HasTextualLogging (s : Settings) : Prop := ∀ m ∈ s, m.1 = "debug".toList → m.2.IsTextual

theorem hasTextualLogging_shipped : HasTextualLogging shipped := by
  rintro m hm hname
  rcases List.mem_cons.mp hm with rfl | hrest
  · refine .obj fun m hm => ?_
    simp only [List.mem_cons, List.not_mem_nil, or_false] at hm
    rcases hm with rfl | rfl | rfl
    · exact .str _
    · refine .obj fun m hm => ?_
      obtain rfl := List.mem_singleton.mp hm
      exact .str _
    · exact .obj (by simp)
  · have hothers : ∀ m ∈ shipped.tail, m.1 ≠ "debug".toList := by decide +kernel
    exact absurd hname (hothers m hrest)

/-- To put a value at a path is to put one under its first name, which is textual if the value and what stood there
are. -/
theorem exists_put_of_putAt {v : Json} {name : Text} {rest : List Text} {s t : Settings}
    (h : putAt v name rest s = .ok t) :
    ∃ w, t = s.put name w ∧ ((∀ m ∈ s, m.1 = name → m.2.IsTextual) → v.IsTextual → w.IsTextual) := by
  induction rest generalizing name s t with
  | nil => exact ⟨v, (Except.ok.inj h).symm, fun _ hv => hv⟩
  | cons next rest ih =>
      obtain ⟨inner, changed, hsection, hinner, rfl⟩ := exists_of_putAt_cons h
      refine ⟨.obj changed, rfl, fun hs hv => .obj fun m hm => ?_⟩
      have htextual : ∀ m ∈ inner, m.2.IsTextual := by
        rw [section?] at hsection
        split at hsection
        · obtain rfl := Option.some.inj hsection
          simp
        · next hget =>
            obtain rfl := Option.some.inj hsection
            cases hs _ (Pairs.mem_of_get?_eq_some hget) rfl with
            | obj h => exact h
        · simp at hsection
      obtain ⟨w, rfl, hw⟩ := ih hinner
      rcases Pairs.mem_of_mem_put hm with hold | rfl
      · exact htextual m hold
      · exact hw (fun m hm _ => htextual m hm) hv

theorem isTextual_overriding {s : Settings} {key : Text} (h : (lookUp (keyNames key) (.obj s)).IsTextual)
    (text : Text) : (s.overriding key (.str text)).IsTextual := by
  rw [overriding]
  generalize lookUp (keyNames key) (.obj s) = old at h ⊢
  cases h with
  | null => exact .str text
  | str _ => exact .str text
  | obj _ =>
      rw [replacement_str (by simp), convertLike]
      cases text with
      | nil => exact .obj (by simp)
      | cons c rest => exact .str _

/-! ## Overrides in a row -/

/-- The settings after an override, unless it is malformed or a value is in its way. -/
def override? (s : Settings) (item : Text) : Option Settings :=
  match item.cutAt? '=' with
  | none => none
  | some (key, v) =>
    let (t, accepted, _) := s.set key.trim (.str v)
    if accepted then some t else none

variable {s t : Settings}

theorem exists_putKey_of_override? {item : Text} (h : s.override? item = some t) :
    ∃ key text, s.putKey key (s.overriding key (.str text)) = .ok t := by
  rw [override?] at h
  split at h
  · simp at h
  · next key v _ =>
      rcases set_cases s key.trim (.str v) with ⟨t', hput, ht, haccepted⟩ | ⟨-, -, hrefused⟩
      · obtain rfl : t' = t := by simpa [haccepted, ht] using h
        exact ⟨key.trim, v, hput⟩
      · simp [hrefused] at h

namespace HasTextualLogging

theorem lookUp (h : s.HasTextualLogging) (rest : List Text) :
    (lookUp ("debug".toList :: rest) (.obj s)).IsTextual := by
  rw [IndentMarkup.lookUp]
  cases hget : Pairs.get? "debug".toList s with
  | none => exact IsTextual.lookUp .null rest
  | some v => exact (h _ (Pairs.mem_of_get?_eq_some hget) rfl).lookUp rest

theorem valueOr (h : s.HasTextualLogging) {key : String} (rest : List Text)
    (hkey : keyNames key.toList = "debug".toList :: rest) {other : Json} (hother : other.IsTextual) :
    (s.valueOr key other).IsTextual := by
  rw [Settings.valueOr]
  cases hvalue : s.value? key.toList with
  | none => exact hother
  | some v =>
      obtain ⟨rfl, -⟩ := value?_eq_some_iff.mp hvalue
      exact hkey ▸ h.lookUp rest

theorem override? {item : Text} (h : s.HasTextualLogging) (hitem : s.override? item = some t) :
    t.HasTextualLogging := by
  obtain ⟨key, text, hput⟩ := exists_putKey_of_override? hitem
  obtain ⟨w, rfl, hw⟩ := exists_put_of_putAt hput
  intro m hm hname
  rcases Pairs.mem_of_mem_put hm with hold | rfl
  · exact h m hold hname
  · have hdebug : (keyNames key).headD [] = "debug".toList := hname
    refine hw (fun m hm hname => h m hm (hname.trans hdebug)) (isTextual_overriding ?_ text)
    rw [keyNames_eq_cons, hdebug]
    exact h.lookUp _

theorem foldlM_override? {items : List Text} (h : s.HasTextualLogging)
    (hitems : items.foldlM Settings.override? s = some t) : t.HasTextualLogging := by
  induction items generalizing s with
  | nil => exact Option.some.inj hitems ▸ h
  | cons item rest ih =>
      rw [List.foldlM_cons] at hitems
      obtain ⟨next, hnext, hrest⟩ := Option.bind_eq_some_iff.mp hitems
      exact ih (h.override? hnext) hrest

end HasTextualLogging

/-! ## Levels that can be applied -/

def generalLevel (s : Settings) : Json := s.valueOr "debug.level" (.str "WARNING".toList)

def moduleLevels (s : Settings) : Json := s.valueOr "debug.modules" .null

def silencedLevels (s : Settings) : Json := s.valueOr "debug.silenced" .null

/-- The settings for logging can be applied: no level is a reserved word, and levels by name stand in sections. -/
def HasUsableLevels (s : Settings) : Prop :=
  ¬ Log.IsReserved s.generalLevel ∧ Log.IsUsable s.moduleLevels ∧ Log.IsUsable s.silencedLevels

namespace HasTextualLogging

theorem generalLevel (h : s.HasTextualLogging) : s.generalLevel.IsTextual :=
  h.valueOr ["level".toList] (by decide) (.str _)

theorem moduleLevels (h : s.HasTextualLogging) : s.moduleLevels.IsTextual :=
  h.valueOr ["modules".toList] (by decide) .null

theorem silencedLevels (h : s.HasTextualLogging) : s.silencedLevels.IsTextual :=
  h.valueOr ["silenced".toList] (by decide) .null

end HasTextualLogging

end Settings

namespace Command

/-! ## Command lines -/

def overrideArguments (items : List Text) : List Text := items.flatMap fun item => ["--set".toList, item]

theorem overrideArguments_cons (item : Text) (items : List Text) :
    overrideArguments (item :: items) = "--set".toList :: item :: overrideArguments items := rfl

def listArguments : List Text := ["config".toList, "list".toList]

theorem applyOverrides_overrideArguments (s : Settings) (items : List Text) {rest : List Text}
    (hrest : rest.head? ≠ some "--set".toList) :
    let o := applyOverrides s (overrideArguments items ++ rest)
    (∃ t, items.foldlM Settings.override? s = some t ∧ o.settings = t ∧ o.rest = .ok rest) ∨
      items.foldlM Settings.override? s = none ∧ ∃ lines, o.rest = .error lines := by
  induction items generalizing s with
  | nil =>
      refine .inl ⟨s, rfl, ?_⟩
      cases rest with
      | nil => exact ⟨rfl, rfl⟩
      | cons first rest =>
          have hfirst : first ≠ "--set".toList := fun heq => hrest (congrArg some heq)
          have happly : applyOverrides s (first :: rest) = ⟨s, [], .ok (first :: rest)⟩ := by
            rw [applyOverrides.eq_def]
            exact if_neg hfirst
          exact ⟨congrArg Overrides.settings happly, congrArg Overrides.rest happly⟩
  | cons item items ih =>
      rw [overrideArguments_cons, List.cons_append, List.cons_append, applyOverrides, if_pos rfl, List.foldlM_cons]
      cases hcut : item.cutAt? '=' with
      | none => exact .inr ⟨by simp [Settings.override?, hcut], _, rfl⟩
      | some cut =>
          obtain ⟨key, v⟩ := cut
          rcases hset : s.set key.trim (.str v) with ⟨t, accepted, records⟩
          cases accepted with
          | false => exact .inr ⟨by simp [Settings.override?, hcut, hset], [], by simp [hset]⟩
          | true =>
              have hitem : s.override? item = some t := by simp [Settings.override?, hcut, hset]
              rw [hitem]
              simpa [hset] using ih t

namespace Session

variable (s : Session)

theorem dispatch_listArguments :
    s.dispatch listArguments =
      { s.resources.reply [(Json.obj s.settings).indented] 0 with
        records := [runningRecord "config".toList ["list".toList]] } := rfl

theorem runCommand_listArguments :
    let levels := s.levels.configure s.settings.generalLevel s.settings.moduleLevels s.settings.silencedLevels
    let answer := s.runCommand listArguments
    answer.session.settings = s.settings ∧ answer.session.levels = levels.1 ∧
      match levels.2 with
      | some f => answer.ending = .error (.levels f)
      | none => answer.ending = .ok 0 ∧ answer.output = (Json.obj s.settings).indented ++ ['\n'] := by
  intro levels answer
  have hlevels : s.configureLevels = ({ s with levels := levels.1 }, levels.2) := rfl
  simp only [answer, runCommand, hlevels]
  cases levels.2 with
  | some f => exact ⟨rfl, rfl, rfl⟩
  | none =>
      have hreply := dispatch_listArguments { s with levels := levels.1 }
      exact ⟨rfl, rfl, congrArg Reply.ending hreply,
        (congrArg Reply.output hreply).trans (List.append_nil _)⟩

/-- Overrides never stop the listing of the settings but by a level that is a reserved word or a text in the place of
levels by name. If none is refused, then the settings are listed as the overrides left them, and a level of the root
that is no name of a level counts as the usual level, as long as the root has no level by name. -/
theorem run_overrides (hsettings : s.settings = .shipped) (items : List Text) :
    let answer := s.run (overrideArguments items ++ listArguments)
    (items.foldlM Settings.override? .shipped = none → answer.ending = .ok 1) ∧
      ∀ t, items.foldlM Settings.override? .shipped = some t →
        ((∃ f, answer.ending = .error f) ↔ ¬ t.HasUsableLevels) ∧
        (t.HasUsableLevels →
          answer.ending = .ok 0 ∧ answer.output = (Json.obj t).indented ++ ['\n'] ∧ answer.session.settings = t) ∧
        (¬ Log.IsReserved t.generalLevel → ¬ Log.IsLevelName t.generalLevel →
          Log.Levels.NamesNoRoot t.moduleLevels → Log.Levels.NamesNoRoot t.silencedLevels →
          answer.session.levels.root = Log.warning) := by
  intro answer
  have hword : listArguments.head? ≠ some "--set".toList := by decide
  obtain ⟨t, hitems, hsettled, hrest⟩ | ⟨hitems, lines, hrest⟩ :=
    applyOverrides_overrideArguments s.settings items hword
  · rw [hsettings] at hitems
    refine ⟨by simp [hitems], fun t' ht' => ?_⟩
    obtain rfl : t = t' := Option.some.inj (hitems.symm.trans ht')
    have htextual : t.HasTextualLogging := Settings.hasTextualLogging_shipped.foldlM_override? hitems
    have hlevels := Log.Levels.configure_eq_none_iff htextual.generalLevel htextual.moduleLevels
      htextual.silencedLevels s.levels
    -- the reports apart, the answer is that of the command under the settings that the overrides left
    have hanswer : answer = { runCommand { s with settings := t } listArguments with
        records := answer.records } := by
      simp only [answer, run, hrest, hsettled]
    obtain ⟨hkept, happlied, hending⟩ := runCommand_listArguments { s with settings := t }
    rw [hanswer]
    refine ⟨?_, fun husable => ?_, fun hreserved hname hmodules hsilenced => ?_⟩
    · rw [Settings.HasUsableLevels, ← hlevels]
      split at hending
      · next f hfault => exact iff_of_true ⟨_, hending⟩ (hfault ▸ by simp)
      · next hfault => exact iff_of_false (by simp [hending.1]) (not_not.mpr hfault)
    · rw [hlevels.mpr husable] at hending
      exact ⟨hending.1, hending.2, hkept⟩
    · rw [happlied]
      exact Log.Levels.root_configure htextual.generalLevel hreserved hname hmodules hsilenced s.levels
  · rw [hsettings] at hitems
    refine ⟨fun _ => ?_, by simp [hitems]⟩
    simp only [answer, run, hrest]

def fresh : Session := ⟨.shipped, .initial, false, .empty [], ⟨[], 0⟩⟩

def logging (level : Text) (modules : Json) : Settings :=
  ("debug".toList, .obj [
    ("level".toList, .str level),
    ("modules".toList, modules),
    ("silenced".toList, .obj [])]) :: Settings.shipped.tail

/-- A text in the place of the levels of modules ends the program with a fault, and an unknown level is no fault. -/
theorem run_overrides_logging :
    (∃ f, (fresh.run (overrideArguments ["debug.modules=x".toList] ++ listArguments)).ending = .error f) ∧
      (fresh.run (overrideArguments ["debug.level=loud".toList] ++ listArguments)).ending = .ok 0 ∧
      (fresh.run (overrideArguments ["debug.level=loud".toList] ++ listArguments)).session.levels.root =
        Log.warning := by
  obtain ⟨-, htext⟩ := run_overrides fresh rfl ["debug.modules=x".toList]
  obtain ⟨-, hlevel⟩ := run_overrides fresh rfl ["debug.level=loud".toList]
  obtain ⟨hfault, -⟩ := htext (logging "WARNING".toList (.str "x".toList)) rfl
  obtain ⟨-, hlisted, hroot⟩ :=
    hlevel (logging "loud".toList (.obj [("htmlbuilder".toList, .str "WARNING".toList)])) rfl
  have hloud : ¬ Log.IsReserved (.str "loud".toList) := Log.isReserved_str.not.mpr (by decide +kernel)
  have hwarning : ¬ Log.IsReserved (.str "WARNING".toList) := Log.isReserved_str.not.mpr (by decide +kernel)
  refine ⟨hfault.mpr ?_, (hlisted ⟨hloud, ?_, ?_⟩).1, hroot hloud ?_ ?_ ?_⟩
  · rintro ⟨-, hmodules, -⟩
    have htext : Log.IsUsable (.str "x".toList) := hmodules
    simp [Log.IsUsable] at htext
  · exact .inr (.inr ⟨_, rfl, by simpa using hwarning⟩)
  · exact .inr (.inr ⟨[], rfl, by simp⟩)
  · exact Log.isLevelName_str.not.mpr (by decide +kernel)
  · rintro members ⟨rfl⟩ m hm
    rw [List.mem_singleton.mp hm]
    decide
  · rintro members ⟨rfl⟩
    simp

end Session

end Command
end IndentMarkup
