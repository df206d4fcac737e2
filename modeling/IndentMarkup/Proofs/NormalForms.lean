import IndentMarkup.Proofs.Grammar
import IndentMarkup.Proofs.Materialization

/-!
# The normal form of a line

What a line says lies among the descriptors in which every token is a good one (`isNormal_of_readLine`), however
malformed the line is. Such a descriptor is written as a line in one way, the groups that would say nothing left out,
and that line says the same without a diagnostic (`Descriptor.IsNormal.readLine_parts`). So reading normalises: what is
written of a reading is read as that reading.
-/

namespace IndentMarkup

/-! ## Tokens that are read -/

namespace LineGroups

theorem isNameChar_of_mem_takeClasses {s t : Text} (ht : t ∈ (takeClasses s).1) {c : Char} (hc : c ∈ t) :
    isNameChar c := by
  rw [takeClasses] at ht
  split at ht
  · rw [List.span_eq_takeWhile_dropWhile] at ht
    have hpiece := List.mem_of_mem_drop ht
    have hgroup := List.mem_takeWhile_imp (Text.mem_of_mem_splitAtChar hpiece hc)
    have hdot : c ≠ '.' := fun heq => Text.not_mem_of_mem_splitAtChar hpiece (heq ▸ hc)
    simpa [hdot] using hgroup
  · simp at ht

theorem isNameChar_of_mem_takeId {s t : Text} (ht : (takeId s).1 = some t) {c : Char} (hc : c ∈ t) : isNameChar c := by
  unfold takeId at ht
  split at ht
  · rw [List.span_eq_takeWhile_dropWhile] at ht
    exact List.mem_takeWhile_imp (Option.some.inj ht ▸ hc)
  · simp at ht

theorem isWord_of_mem_takeEvents {s t : Text} (ht : t ∈ (takeEvents s).1) {c : Char} (hc : c ∈ t) : isWord c := by
  unfold takeEvents at ht
  split at ht
  · rw [List.span_eq_takeWhile_dropWhile] at ht
    have hgroup := List.mem_takeWhile_imp (Text.mem_of_mem_splitAtChar ht hc)
    have hsemicolon : c ≠ ';' := fun heq => Text.not_mem_of_mem_splitAtChar ht (heq ▸ hc)
    simpa [hsemicolon] using hgroup
  · simp at ht

end LineGroups

theorem exists_piece_of_mem_attributes {separator line : Text} {reading : LineReading}
    (h : readLine separator line = .ok reading) {a : Text × Option Text} (ha : a ∈ reading.descriptor.attributes) :
    ∃ piece, (∀ c, separator = [c] → c ∉ piece) ∧ Item.ofText piece = .named a.1 a.2 := by
  obtain ⟨-, -, text, -, hdescriptor⟩ := LineGroups.read_eq_ok h
  rw [hdescriptor] at ha
  obtain ⟨item, hitem, hattribute⟩ := List.mem_filterMap.mp ha
  rw [LineGroups.items] at hitem
  split at hitem
  · obtain ⟨piece, hpiece, rfl⟩ := List.mem_map.mp hitem
    refine ⟨piece, fun c hc => ?_, ?_⟩
    · rw [hc, Text.splitOn_singleton] at hpiece
      exact Text.not_mem_of_mem_splitAtChar hpiece
    · cases hread : Item.ofText piece with
      | blank => simp [hread, Item.attribute?] at hattribute
      | malformed diagnostic => simp [hread, Item.attribute?] at hattribute
      | named name value =>
          rw [hread] at hattribute
          rw [← Option.some.inj hattribute]
  · simp at hitem

/-! ## Descriptors of good tokens -/

/-- An attribute that an item can give, with a separator between the items. -/
structure IsItemAttribute (separator : Char) (a : Text × Option Text) : Prop where
  name : IsItemName a.1
  separator_not_mem : separator ∉ a.1
  value_trim : ∀ value ∈ a.2, value.trim = value
  separator_not_mem_value : ∀ value ∈ a.2, separator ∉ value
  separator_ne : a.2.isSome → separator ≠ '='

/-- A descriptor in which every token is a good one. -/
structure Descriptor.IsNormal (separator : Char) (d : Descriptor) : Prop where
  tag_ne_nil : d.tag ≠ []
  tag_chars : ∀ c ∈ d.tag, isWord c
  classes : ∀ name ∈ d.classes, name ≠ [] ∧ (∀ c ∈ name, isNameChar c) ∧ startsWithDigit name = false
  id : ∀ name ∈ d.id, name ≠ [] ∧ ∀ c ∈ name, isNameChar c
  attributes : ∀ a ∈ d.attributes, IsItemAttribute separator a
  events : ∀ name ∈ d.events, name ≠ [] ∧ (∀ c ∈ name, isWord c) ∧ startsWithDigit name = false

theorem isItemAttribute_of_ofText {separator : Char} {piece name : Text} {value : Option Text}
    (hpiece : separator ∉ piece) (h : Item.ofText piece = .named name value) :
    IsItemAttribute separator (name, value) := by
  obtain ⟨hname, hpart⟩ := Item.isItemName_of_ofText h
  obtain ⟨-, -, -, rfl⟩ := Item.ofText_eq_named_iff.mp h
  refine ⟨hname, fun hmem => hpiece (hpart _ hmem), fun value hvalue => ?_,
    fun value hvalue hmem => hpiece (Item.mem_of_mem_writtenValue? hvalue hmem), fun hvalued => ?_⟩
  · rw [Option.mem_def, Item.writtenValue?] at hvalue
    split at hvalue
    · rw [← Option.some.inj hvalue, Text.trim_trim]
    · simp at hvalue
  · rintro rfl
    rw [Item.writtenValue?, if_neg hpiece] at hvalued
    exact Bool.noConfusion hvalued

theorem isNormal_of_readLine {separator : Char} {line : Text} {reading : LineReading}
    (h : readLine [separator] line = .ok reading) : reading.descriptor.IsNormal separator := by
  -- an item is a piece between separators, so no part of it holds one
  have hattributes : ∀ a ∈ reading.descriptor.attributes, IsItemAttribute separator a := by
    intro a ha
    obtain ⟨piece, hpiece, hread⟩ := exists_piece_of_mem_attributes h ha
    exact isItemAttribute_of_ofText (hpiece separator rfl) hread
  obtain ⟨hne, -, text, -, hdescriptor⟩ := LineGroups.read_eq_ok h
  rw [hdescriptor] at hattributes ⊢
  refine ⟨hne, fun c hc => LineGroups.isWord_of_mem_tag hc, fun name hname => ?_, fun name hname => ?_,
    hattributes, fun name hname => ?_⟩
  · obtain ⟨htoken, hkept⟩ := List.mem_filter.mp hname
    obtain ⟨hname, hstart⟩ : name ≠ [] ∧ startsWithDigit name = false := by simpa [isNameToken] using hkept
    exact ⟨hname, fun c hc => LineGroups.isNameChar_of_mem_takeClasses htoken hc, hstart⟩
  · obtain ⟨htoken, hkept⟩ := Option.filter_eq_some_iff.mp hname
    exact ⟨by simpa using hkept, fun c hc => LineGroups.isNameChar_of_mem_takeId htoken hc⟩
  · obtain ⟨htoken, hkept⟩ := List.mem_filter.mp hname
    obtain ⟨hname, hstart⟩ : name ≠ [] ∧ startsWithDigit name = false := by simpa [isNameToken] using hkept
    exact ⟨hname, fun c hc => LineGroups.isWord_of_mem_takeEvents htoken hc, hstart⟩

/-! ## Writing a descriptor -/

def writtenItem (a : Text × Option Text) : Text := a.1 ++ a.2.elim [] ('=' :: ·)

namespace Descriptor

/-- The parts of the line that a descriptor is written as, with a way to write content. Groups that would say nothing
are left out. -/
def parts (d : Descriptor) (write : Text → Text) : LineParts where
  tag := d.tag
  classes := d.classes
  id := d.id
  content := (d.text.filter (· ≠ [])).map write
  items := if d.attributes = [] then none else some (d.attributes.map writtenItem)
  events := if d.events = [] then none else some d.events

def withoutEmptyText (d : Descriptor) : Descriptor := { d with text := d.text.filter (· ≠ []) }

variable {separator : Char} {d : Descriptor} {write : Text → Text}

theorem items_parts (d : Descriptor) (write : Text → Text) :
    (d.parts write).items.getD [] = d.attributes.map writtenItem := by
  by_cases hnone : d.attributes = [] <;> simp [parts, hnone]

theorem events_parts (d : Descriptor) (write : Text → Text) : (d.parts write).events.getD [] = d.events := by
  by_cases hnone : d.events = [] <;> simp [parts, hnone]

theorem text_parts (d : Descriptor) (hdecode : ∀ s, Entity.decode (write s) = .ok s) :
    (d.parts write).text = .ok d.withoutEmptyText.text := by
  rw [LineParts.text, parts, withoutEmptyText]
  rcases htext : d.text with _ | _ | ⟨c, r⟩
  · rfl
  · rfl
  · obtain ⟨x, s, hwritten⟩ :=
      List.exists_cons_of_ne_nil (Entity.ne_nil_of_decode (hdecode (c :: r)) (List.cons_ne_nil c r))
    have hdecoded := hdecode (c :: r)
    rw [hwritten] at hdecoded
    simp only [Option.filter_some_pos, ne_eq, reduceCtorEq, not_false_eq_true, decide_true, Option.map_some, hwritten,
      hdecoded, Except.map]

end Descriptor

theorem IsItemAttribute.ofText_writtenItem {separator : Char} {a : Text × Option Text}
    (h : IsItemAttribute separator a) : Item.ofText (writtenItem a) = .named a.1 a.2 := by
  obtain ⟨name, _ | value⟩ := a
  · rw [writtenItem, Option.elim_none, List.append_nil]
    exact Item.ofText_of_isItemName h.name
  · exact Item.ofText_valued h.name (h.value_trim value rfl)

theorem IsItemAttribute.not_mem_writtenItem {separator : Char} {a : Text × Option Text}
    (h : IsItemAttribute separator a) : separator ∉ writtenItem a := by
  obtain ⟨name, _ | value⟩ := a
  · rw [writtenItem, Option.elim_none, List.append_nil]
    exact h.separator_not_mem
  · rw [writtenItem, Option.elim_some, List.mem_append, List.mem_cons]
    rintro (hmem | heq | hmem)
    · exact h.separator_not_mem hmem
    · exact h.separator_ne rfl heq
    · exact h.separator_not_mem_value value rfl hmem

namespace Descriptor.IsNormal

variable {separator : Char} {d : Descriptor} {write : Text → Text}

theorem isGrammatical_parts (h : d.IsNormal separator) (hbalanced : ∀ s, LineGroups.IsBalanced (write s)) :
    (d.parts write).IsGrammatical separator where
  tag_ne_nil := h.tag_ne_nil
  tag := h.tag_chars
  classes name hname := (h.classes name hname).2.1
  id name hname := (h.id name hname).2
  content s hs := by
    obtain ⟨text, -, rfl⟩ := Option.map_eq_some_iff.mp hs
    exact hbalanced text
  items items hitems item hitem := by
    have hwritten := d.items_parts write
    rw [hitems, Option.getD_some] at hwritten
    obtain ⟨a, ha, rfl⟩ := List.mem_map.mp (hwritten ▸ hitem)
    exact (h.attributes a ha).not_mem_writtenItem
  events events hevents name hname := by
    have hwritten := d.events_parts write
    rw [hevents, Option.getD_some] at hwritten
    exact (h.events name (hwritten ▸ hname)).2.1

theorem filter_good {names : List Text} (h : ∀ name ∈ names, name ≠ [] ∧ startsWithDigit name = false) :
    names.filter (fun t => t ≠ [] ∧ ¬ startsWithDigit t) = names ∧ names.filter startsWithDigit = [] := by
  constructor
  · rw [List.filter_eq_self]
    exact fun name hname => by simp [(h name hname).1, (h name hname).2]
  · rw [List.filter_eq_nil_iff]
    exact fun name hname => by simp [(h name hname).2]

theorem filterMap_writtenItem (h : d.IsNormal separator) {α : Type} (f : Item → Option α) :
    (d.attributes.map writtenItem).filterMap (fun item => f (Item.ofText item)) =
      d.attributes.filterMap fun a => f (.named a.1 a.2) := by
  rw [List.filterMap_map]
  refine List.filterMap_congr fun a ha => ?_
  rw [Function.comp, (h.attributes a ha).ofText_writtenItem]

/-- The parts of a normal descriptor say what it says, and nothing is noted of them. -/
theorem descriptor_parts (h : d.IsNormal separator) (write : Text → Text) :
    (d.parts write).descriptor d.withoutEmptyText.text = d.withoutEmptyText ∧ (d.parts write).diagnostics = [] := by
  obtain ⟨hclasses, hclassFaults⟩ := filter_good fun name hname => ⟨(h.classes name hname).1, (h.classes name hname).2.2⟩
  obtain ⟨hevents, heventFaults⟩ := filter_good fun name hname => ⟨(h.events name hname).1, (h.events name hname).2.2⟩
  have hid : d.id.filter (· ≠ []) = d.id := filter_ne_nil_eq_self fun hnil => (h.id [] hnil).1 rfl
  have hattributes : (d.attributes.map writtenItem).filterMap Item.writtenAttribute? = d.attributes := by
    rw [← funext Item.attribute?_ofText, h.filterMap_writtenItem]
    exact List.filterMap_some
  have hitems : (d.attributes.map writtenItem).filterMap Item.writtenDiagnostic? = [] := by
    rw [← funext Item.diagnostic?_ofText, h.filterMap_writtenItem]
    exact List.filterMap_eq_nil_iff.mpr fun _ _ => rfl
  constructor
  · simp only [LineParts.descriptor, items_parts, events_parts, hattributes, hevents]
    simp only [parts, hclasses, hid, withoutEmptyText]
  · simp only [LineParts.diagnostics, LineParts.classDiagnostics, items_parts, events_parts, hitems, heventFaults]
    simp only [parts, hclassFaults]
    rfl

/-- What is written of a normal descriptor is read as that descriptor, and nothing is left out of it. -/
theorem readLine_parts (h : d.IsNormal separator) (hdecode : ∀ s, Entity.decode (write s) = .ok s)
    (hbalanced : ∀ s, LineGroups.IsBalanced (write s)) :
    readLine [separator] ((d.parts write).line separator) = .ok ⟨d.withoutEmptyText, [], []⟩ := by
  obtain ⟨hdescriptor, hdiagnostics⟩ := h.descriptor_parts write
  rw [LineParts.readLine_eq_ok (h.isGrammatical_parts hbalanced) (d.text_parts hdecode), hdescriptor, hdiagnostics]

end Descriptor.IsNormal

/-- The line that a descriptor is written as, with references for the ampersands and the parentheses of its text. -/
def Descriptor.normalLine (d : Descriptor) (separator : Char) : Text := (d.parts Entity.escapeMarks).line separator

theorem Descriptor.IsNormal.readLine_normalLine {separator : Char} {d : Descriptor} (h : d.IsNormal separator) :
    readLine [separator] (d.normalLine separator) = .ok ⟨d.withoutEmptyText, [], []⟩ :=
  h.readLine_parts Entity.decode_escapeMarks fun _ =>
    LineGroups.isBalanced_of_not_mem fun _ hc => Entity.not_mem_escapeMarks hc

/-! ## The main result -/

/-- Reading normalises. Whatever line is read, all tokens of what it says are good ones, and the line that is written
of what it says is read as the same, except that an empty text is none, without a diagnostic and without a rest. -/
theorem readLine_normalises {separator : Char} {line : Text} {reading : LineReading}
    (h : readLine [separator] line = .ok reading) :
    reading.descriptor.IsNormal separator ∧
      readLine [separator] (reading.descriptor.normalLine separator) =
        .ok ⟨reading.descriptor.withoutEmptyText, [], []⟩ := by
  have hnormal := isNormal_of_readLine h
  exact ⟨hnormal, hnormal.readLine_normalLine⟩

/-- A line with malformed and empty tokens, a rest, a separator that is blank, and a text that looks like a reference
when it is decoded. -/
theorem readLine_normalises_malformed :
    ∃ reading, readLine [' '] "p..1a.b-c#(&#40;f&amp;amp;)[ x=1,2  flag =c 2d ]@9;;ok tail".toList = .ok reading ∧
      reading.descriptor.normalLine ' ' = "p.b-c(&#40;f&amp;amp;)[x=1,2 flag]@ok".toList ∧
      reading.descriptor.IsNormal ' ' ∧
      readLine [' '] (reading.descriptor.normalLine ' ') = .ok ⟨reading.descriptor.withoutEmptyText, [], []⟩ := by
  let reading : LineReading := {
    descriptor := ⟨"p".toList, ["b-c".toList], none, some "(f&amp;".toList,
      [("x".toList, some "1,2".toList), ("flag".toList, none)], ["ok".toList]⟩
    diagnostics := [.className "1a".toList, .missingName "=c".toList, .attributeName "2d".toList,
      .eventName ['9']]
    trailing := "tail".toList }
  have hread : readLine [' '] "p..1a.b-c#(&#40;f&amp;amp;)[ x=1,2  flag =c 2d ]@9;;ok tail".toList = .ok reading := by
    decide +kernel
  exact ⟨reading, hread, by decide +kernel, readLine_normalises hread⟩

end IndentMarkup
