import IndentMarkup.Proofs.Groups
import IndentMarkup.Proofs.Items
import IndentMarkup.Proofs.References

/-!
# Lines that are put together of parts

A line of the grammar is a tag and up to five groups of tokens, whether the tokens are good, malformed or empty
(`LineParts`). What is read of it is known token by token (`readLine_line`): a token that is good goes into the
descriptor, a malformed one into the diagnostics, an empty one nowhere, and no token disturbs another. All that keeps
such a line from being read is a reference in its content that is too long.
-/

namespace IndentMarkup

/-! ## Parts of a line -/

/-- The parts of a line. A group that the line does not have is `none`; the tokens of a group may be empty. -/
structure LineParts where
  tag : Text
  classes : List Text
  id : Option Text
  content : Option Text
  items : Option (List Text)
  events : Option (List Text)
  deriving DecidableEq, Repr

namespace LineParts

variable {separator : Char} {p : LineParts}

def line (p : LineParts) (separator : Char) : Text :=
  p.tag ++ p.classes.flatMap ('.' :: ·) ++ p.id.elim [] ('#' :: ·) ++
    p.content.elim [] (fun content => '(' :: content ++ [')']) ++
    p.items.elim [] (fun items => '[' :: Text.join [separator] items ++ [']']) ++
    p.events.elim [] (fun events => '@' :: Text.join [';'] events)

/-- The tokens hold only characters that do not end them. -/
structure IsGrammatical (separator : Char) (p : LineParts) : Prop where
  tag_ne_nil : p.tag ≠ []
  tag : ∀ c ∈ p.tag, isWord c
  classes : ∀ t ∈ p.classes, ∀ c ∈ t, isNameChar c
  id : ∀ t ∈ p.id, ∀ c ∈ t, isNameChar c
  content : ∀ s ∈ p.content, LineGroups.IsBalanced s
  items : ∀ items ∈ p.items, ∀ item ∈ items, separator ∉ item
  events : ∀ events ∈ p.events, ∀ t ∈ events, ∀ c ∈ t, isWord c

theorem isGrammatical_iff :
    p.IsGrammatical separator ↔ p.tag ≠ [] ∧ p.tag.all isWord ∧ p.classes.all (·.all isNameChar) ∧
      p.id.all (·.all isNameChar) ∧ p.content.all (fun s => LineGroups.openBehind 0 s = some 0) ∧
      p.items.all (·.all fun item => separator ∉ item) ∧ p.events.all (·.all (·.all isWord)) := by
  simp only [List.all_eq_true, Option.all_eq_true, decide_eq_true_eq]
  exact ⟨fun h => ⟨h.tag_ne_nil, h.tag, h.classes, h.id, h.content, h.items, h.events⟩,
    fun ⟨hne, htag, hclasses, hid, hcontent, hitems, hevents⟩ =>
      ⟨hne, htag, hclasses, hid, hcontent, hitems, hevents⟩⟩

instance : Decidable (p.IsGrammatical separator) := decidable_of_iff _ isGrammatical_iff.symm

def text (p : LineParts) : Except Entity.DecodeFault (Option Text) :=
  match p.content with
  | none | some [] => .ok none
  | some content => (Entity.decode content).map some

def descriptor (p : LineParts) (text : Option Text) : Descriptor where
  tag := p.tag
  classes := p.classes.filter fun t => t ≠ [] ∧ ¬ startsWithDigit t
  id := p.id.filter (· ≠ [])
  text := text
  attributes := (p.items.getD []).filterMap Item.writtenAttribute?
  events := (p.events.getD []).filter fun t => t ≠ [] ∧ ¬ startsWithDigit t

def classDiagnostics (p : LineParts) : List Diagnostic := (p.classes.filter startsWithDigit).map .className

def diagnostics (p : LineParts) : List Diagnostic :=
  p.classDiagnostics ++ (p.items.getD []).filterMap Item.writtenDiagnostic? ++
    ((p.events.getD []).filter startsWithDigit).map .eventName

/-! ## Reading the line -/

/-- The groups that the parts are. Events that are none have an empty token. -/
def groups (p : LineParts) (separator : Char) : LineGroups where
  tag := p.tag
  classTokens := p.classes
  idToken := p.id
  content := p.content.elim .absent .closed
  attributes := p.items.elim .absent fun items => .closed (Text.join [separator] items)
  eventTokens := p.events.elim [] fun events => if events = [] then [[]] else events
  trailing := []

theorem written_groups (p : LineParts) (separator : Char) : (p.groups separator).written = p.line separator := by
  obtain ⟨tag, classes, id, content, items, events⟩ := p
  have hid : LineGroups.writtenId id = id.elim [] ('#' :: ·) := by cases id <;> rfl
  have hcontent : LineGroups.writtenBetween '(' ')' (content.elim .absent .closed) =
      content.elim [] fun content => '(' :: content ++ [')'] := by cases content <;> rfl
  have hitems : LineGroups.writtenBetween '[' ']'
      (items.elim .absent fun items => .closed (Text.join [separator] items)) =
      items.elim [] fun items => '[' :: Text.join [separator] items ++ [']'] := by cases items <;> rfl
  have hevents : LineGroups.writtenEvents (events.elim [] fun events => if events = [] then [[]] else events) =
      events.elim [] fun events => '@' :: Text.join [';'] events := by
    rcases events with _ | _ | ⟨t, rest⟩ <;> rfl
  simp only [LineGroups.written, groups, line, hid, hcontent, hitems, hevents, LineGroups.writtenClasses,
    List.append_assoc]

theorem IsGrammatical.isRegular (h : p.IsGrammatical separator) : (p.groups separator).IsRegular where
  tag := h.tag
  classes := h.classes
  id t ht := h.id t ht
  content := by cases hcontent : p.content <;> simp [groups, hcontent]
  balanced s hs := by
    cases hcontent : p.content with
    | none => simp [groups, hcontent] at hs
    | some content =>
        obtain rfl : content = s := by simpa [groups, hcontent] using hs
        exact h.content content hcontent
  attributes := by cases hitems : p.items <;> simp [groups, hitems]
  events t ht := by
    cases hevents : p.events with
    | none => simp [groups, hevents] at ht
    | some events =>
        simp only [groups, hevents, Option.elim_some] at ht
        split at ht
        · simp [List.mem_singleton.mp ht]
        · exact h.events events hevents t ht
  trailing := rfl

theorem text_groups (p : LineParts) (separator : Char) : (p.groups separator).text = p.text := by
  rw [LineGroups.text, text]
  rcases hcontent : p.content with _ | _ | ⟨c, r⟩ <;> simp [groups, hcontent]

theorem filterMap_items {α : Type} (h : p.IsGrammatical separator) (f : Item → Option α) (hblank : f .blank = none) :
    ((p.groups separator).items [separator]).filterMap f =
      (p.items.getD []).filterMap fun item => f (Item.ofText item) := by
  cases hitems : p.items with
  | none => simp [LineGroups.items, groups, hitems]
  | some items =>
      simp only [LineGroups.items, groups, hitems, Option.elim_some, Option.getD_some, Text.splitOn_singleton,
        Text.splitAtChar_join_eq (h.items items hitems), List.filterMap_map]
      split
      · next hnone =>
          rw [hnone]
          exact List.filterMap_cons_none hblank
      · rfl

/-- An empty token is no good one, and it is not malformed either. -/
theorem filter_eventTokens (p : LineParts) (separator : Char) {keep : Text → Bool} (hkeep : keep [] = false) :
    (p.groups separator).eventTokens.filter keep = (p.events.getD []).filter keep := by
  rcases hevents : p.events with _ | _ | ⟨t, rest⟩ <;> simp [groups, hevents, hkeep]

theorem isNameToken_eq : isNameToken = fun t => decide (t ≠ [] ∧ ¬ startsWithDigit t) := by
  funext t
  cases t <;> simp [isNameToken]

theorem readLine_eq_ok (h : p.IsGrammatical separator) {text : Option Text} (htext : p.text = .ok text) :
    readLine [separator] (p.line separator) = .ok ⟨p.descriptor text, p.diagnostics, []⟩ := by
  have htag : (p.groups separator).tag.isEmpty = false := by simpa [groups] using h.tag_ne_nil
  have hid : (p.groups separator).id = p.id.filter (· ≠ []) := by
    rcases hid : p.id with _ | _ | ⟨c, r⟩ <;> simp only [LineGroups.id, groups, hid] <;> rfl
  have hattributes : ((p.groups separator).items [separator]).filterMap Item.attribute? =
      (p.items.getD []).filterMap Item.writtenAttribute? := by
    rw [filterMap_items h _ rfl, funext Item.attribute?_ofText]
  have hitems : ((p.groups separator).items [separator]).filterMap Item.diagnostic? =
      (p.items.getD []).filterMap Item.writtenDiagnostic? := by
    rw [filterMap_items h _ rfl, funext Item.diagnostic?_ofText]
  have hevents : (p.groups separator).events = (p.descriptor text).events := by
    rw [LineGroups.events, p.filter_eventTokens separator rfl, isNameToken_eq, descriptor]
  have hmalformed : (p.groups separator).eventDiagnostics =
      ((p.events.getD []).filter startsWithDigit).map .eventName := by
    rw [LineGroups.eventDiagnostics, p.filter_eventTokens separator rfl]
  have hregular := h.isRegular
  rw [← written_groups, readLine, LineGroups.ofText_written hregular, LineGroups.read, htag, text_groups, htext]
  simp only [List.isEmpty_cons, Bool.and_false, Bool.false_eq_true, if_false, LineGroups.contentDiagnostics,
    LineGroups.attributeDiagnostics, hregular.content, hregular.attributes, hid, hattributes, hitems, hevents,
    hmalformed, List.append_nil]
  simp only [LineGroups.classes, isNameToken_eq, LineGroups.classDiagnostics, groups, descriptor, diagnostics,
    classDiagnostics]

theorem readLine_eq_error (h : p.IsGrammatical separator) {digits : Nat} (htext : p.text = .error (.tooLong digits)) :
    readLine [separator] (p.line separator) = .error ⟨.referenceTooLong digits, p.classDiagnostics⟩ := by
  have htag : (p.groups separator).tag.isEmpty = false := by simpa [groups] using h.tag_ne_nil
  rw [← written_groups, readLine, LineGroups.ofText_written h.isRegular, LineGroups.read, htag, text_groups, htext]
  rfl

/-- The content is decoded unless it has a reference that is too long. -/
theorem exists_text_eq_error_iff :
    (∃ digits, p.text = .error (.tooLong digits)) ↔ ∃ s ∈ p.content, Entity.HasLongReference s := by
  rw [text]
  rcases hcontent : p.content with _ | _ | ⟨c, r⟩
  · simp
  · simp [Entity.not_hasLongReference_of_length_le]
  · simp only [Option.mem_some_iff, exists_eq_left', ← Entity.exists_decode_eq_error_iff]
    refine exists_congr fun digits => ⟨Entity.eq_error_of_map_eq_error, fun hdecode => ?_⟩
    rw [hdecode]
    rfl

end LineParts

/-! ## The main result -/

/-- A line that is put together of parts is read as its good tokens say, in order, and its malformed tokens are
reported, in order: whatever tokens, whatever content that balances its parentheses, and whatever separator. The
exception is a line whose content has a decimal reference of more digits than are read as a number. -/
theorem readLine_line {separator : Char} {p : LineParts} (h : p.IsGrammatical separator) :
    ((∀ s ∈ p.content, ¬ Entity.HasLongReference s) → ∃ text, p.text = .ok text ∧
      readLine [separator] (p.line separator) = .ok ⟨p.descriptor text, p.diagnostics, []⟩) ∧
    ((∃ s ∈ p.content, Entity.HasLongReference s) → ∃ digits, p.text = .error (.tooLong digits) ∧
      readLine [separator] (p.line separator) = .error ⟨.referenceTooLong digits, p.classDiagnostics⟩) := by
  constructor
  · intro hshort
    cases htext : p.text with
    | ok text => exact ⟨text, rfl, LineParts.readLine_eq_ok h htext⟩
    | error fault =>
        obtain ⟨digits⟩ := fault
        obtain ⟨s, hs, hlong⟩ := LineParts.exists_text_eq_error_iff.mp ⟨digits, htext⟩
        exact absurd hlong (hshort s hs)
  · intro hlong
    obtain ⟨digits, htext⟩ := LineParts.exists_text_eq_error_iff.mpr hlong
    exact ⟨digits, htext, LineParts.readLine_eq_error h htext⟩

/-- A line with tokens of every kind, and one whose content has a reference that is too long. -/
theorem readLine_line_mixed :
    readLine ['/'] "p..1bad.ok-a.-#(a (b) &amp; c)[/ 1x = 2 /=v/ n = a=b /flag/[]]@;2go;go;;no".toList =
      .ok ⟨⟨"p".toList, ["ok-a".toList, "-".toList], none, some "a (b) & c".toList,
          [("n".toList, some "a=b".toList), ("flag".toList, none), ("[]".toList, none)], ["go".toList, "no".toList]⟩,
        [.className "1bad".toList, .attributeName "1x = 2".toList, .missingName "=v".toList,
          .eventName "2go".toList], []⟩ ∧
    ∃ digits, readLine ['/'] ("p.1(&#".toList ++ (List.replicate (digitLimit + 1) '1' ++ ";)".toList)) =
      .error ⟨.referenceTooLong digits, [.className ['1']]⟩ := by
  constructor
  · let p : LineParts := {
      tag := "p".toList
      classes := [[], "1bad".toList, "ok-a".toList, "-".toList]
      id := some []
      content := some "a (b) &amp; c".toList
      items := some [[], " 1x = 2 ".toList, "=v".toList, " n = a=b ".toList, "flag".toList, "[]".toList]
      events := some [[], "2go".toList, "go".toList, [], "no".toList] }
    have hp : p.IsGrammatical '/' := by decide +kernel
    have hshort : ∀ s ∈ p.content, ¬ Entity.HasLongReference s := by
      rintro s ⟨⟩
      exact Entity.not_hasLongReference_of_length_le (by decide)
    obtain ⟨text, htext, hread⟩ := (readLine_line hp).1 hshort
    have hdecoded : p.text = .ok (some "a (b) & c".toList) := by decide +kernel
    obtain rfl := Except.ok.inj (htext.symm.trans hdecoded)
    have hline : p.line '/' =
        "p..1bad.ok-a.-#(a (b) &amp; c)[/ 1x = 2 /=v/ n = a=b /flag/[]]@;2go;go;;no".toList := by decide +kernel
    rw [hline] at hread
    exact hread.trans (by decide +kernel)
  · let digits := List.replicate (digitLimit + 1) '1'
    let content := '&' :: '#' :: (digits ++ [';'])
    let p : LineParts := ⟨['p'], [['1']], none, some content, none, none⟩
    have hdigits : ∀ c ∈ digits, c = '1' := fun c hc => (List.mem_replicate.mp hc).2
    have hbalanced : LineGroups.IsBalanced content := by
      refine LineGroups.isBalanced_of_not_mem fun c hc => ?_
      simp only [content, List.mem_cons, List.mem_append, List.not_mem_nil, or_false] at hc
      rcases hc with rfl | rfl | hc | rfl
      · decide
      · decide
      · exact hdigits c hc ▸ by decide
      · decide
    have hempty : (LineParts.mk ['p'] [['1']] none none none none).IsGrammatical '/' := by decide +kernel
    have hp : p.IsGrammatical '/' := { hempty with content := by rintro _ ⟨⟩; exact hbalanced }
    have hlong : Entity.HasLongReference content :=
      ⟨digits, by simp [digits], fun c hc => hdigits c hc ▸ by decide, [], [';'], by simp [content]⟩
    obtain ⟨count, -, hread⟩ := (readLine_line hp).2 ⟨content, rfl, hlong⟩
    have hline : p.line '/' = "p.1(&#".toList ++ (digits ++ ";)".toList) := by simp [LineParts.line, p, content]
    have hnoted : p.classDiagnostics = [.className ['1']] := by decide +kernel
    rw [hline, hnoted] at hread
    exact ⟨count, hread⟩

end IndentMarkup
