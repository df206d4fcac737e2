import IndentMarkup.Proofs.Faults

/-!
# Where content ends

The group that a parenthesis opens ends as soon as it has closed as many parentheses as it has opened
(`LineGroups.content_firstLevel`). Reading it keeps nothing but a count, which says how many are open
(`openBehind_eq_some_iff`). There is no such place exactly if the text behind the parenthesis never closes more than it
opens (`closeContent?_eq_none_iff`), and then the group takes all that is left of the line.
-/

namespace IndentMarkup

namespace LineGroups

/-! ## Counting parentheses -/

/-- The text closes as many parentheses as it opens. -/
def IsLevel (s : Text) : Prop := s.count '(' = s.count ')'

instance (s : Text) : Decidable (IsLevel s) := inferInstanceAs (Decidable (_ = _))

/-- No beginning of the text closes more parentheses than it opens and a number of others. -/
def ClosesAtMost (opened : Nat) (s : Text) : Prop := ∀ p, p <+: s → p.count ')' ≤ opened + p.count '('

theorem closesAtMost_nil (opened : Nat) : ClosesAtMost opened [] := by
  intro p hp
  rw [List.prefix_nil.mp hp]
  exact Nat.zero_le _

theorem forall_beginning_cons {P : Text → Prop} {c : Char} {s : Text} :
    (∀ p, p <+: c :: s → P p) ↔ P [] ∧ ∀ p, p <+: s → P (c :: p) := by
  constructor
  · exact fun h => ⟨h [] List.nil_prefix, fun p hp => h (c :: p) (List.cons_prefix_cons.mpr ⟨rfl, hp⟩)⟩
  · rintro ⟨hnil, hcons⟩ p hp
    rcases List.prefix_cons_iff.mp hp with rfl | ⟨q, rfl, hq⟩
    · exact hnil
    · exact hcons q hq

theorem count_closing (s : Text) : (')' :: s).count ')' = s.count ')' + 1 ∧ (')' :: s).count '(' = s.count '(' :=
  ⟨List.count_cons_self, List.count_cons_of_ne (by decide)⟩

theorem count_opening (s : Text) : ('(' :: s).count '(' = s.count '(' + 1 ∧ ('(' :: s).count ')' = s.count ')' :=
  ⟨List.count_cons_self, List.count_cons_of_ne (by decide)⟩

theorem not_closesAtMost_zero (s : Text) : ¬ ClosesAtMost 0 (')' :: s) := by
  intro h
  have hfirst := h [')'] (by simp)
  simp at hfirst

theorem closesAtMost_closing (opened : Nat) (s : Text) :
    ClosesAtMost (opened + 1) (')' :: s) ↔ ClosesAtMost opened s := by
  rw [ClosesAtMost, forall_beginning_cons]
  simp only [count_closing, List.count_nil, Nat.zero_le, true_and]
  exact forall₂_congr fun p _ => by omega

theorem closesAtMost_of_ne (opened : Nat) {c : Char} (hc : c ≠ ')') (s : Text) :
    ClosesAtMost opened (c :: s) ↔ ClosesAtMost (if c = '(' then opened + 1 else opened) s := by
  rw [ClosesAtMost, forall_beginning_cons]
  by_cases hopening : c = '('
  · subst hopening
    simp only [count_opening, List.count_nil, Nat.zero_le, true_and, if_true]
    exact forall₂_congr fun p _ => by omega
  · simp [ClosesAtMost, hc, hopening]

/-- So many parentheses are open behind a text as it opens more than it closes, if it never closes too many. -/
theorem openBehind_eq_some_iff {opened behind : Nat} {s : Text} :
    openBehind opened s = some behind ↔
      opened + s.count '(' = behind + s.count ')' ∧ ClosesAtMost opened s := by
  induction s generalizing opened with
  | nil => simp [openBehind, closesAtMost_nil]
  | cons c s ih =>
      rw [openBehind]
      by_cases hc : c = ')'
      · subst hc
        cases opened with
        | zero => simp [not_closesAtMost_zero]
        | succ opened =>
            rw [if_pos rfl, if_neg (Nat.succ_ne_zero opened), Nat.add_sub_cancel, ih, closesAtMost_closing,
              (count_closing s).1, (count_closing s).2]
            exact and_congr_left fun _ => by omega
      · rw [if_neg hc, ih, closesAtMost_of_ne opened hc, List.count_cons_of_ne hc]
        refine and_congr_left fun _ => ?_
        by_cases hopening : c = '('
        · rw [if_pos hopening, hopening, (count_opening s).1]
          omega
        · rw [if_neg hopening, List.count_cons_of_ne hopening]

theorem isBalanced_iff {s : Text} : IsBalanced s ↔ IsLevel s ∧ ClosesAtMost 0 s := by
  rw [IsBalanced, openBehind_eq_some_iff, Nat.zero_add, Nat.zero_add, IsLevel]

/-! ## The end of the group -/

theorem closeContent?_eq_some_iff {opened : Nat} {s inside rest : Text} :
    closeContent? opened s = some (inside, rest) ↔
      s = inside ++ ')' :: rest ∧ openBehind opened inside = some 0 := by
  constructor
  · intro h
    refine ⟨closeContent?_eq_some h, ?_⟩
    induction s generalizing opened inside with
    | nil => simp [closeContent?] at h
    | cons c s ih =>
        by_cases hc : c = ')'
        · subst hc
          cases opened with
          | zero =>
              obtain ⟨rfl, -⟩ : [] = inside ∧ s = rest := by simpa [closeContent?] using h
              rfl
          | succ opened =>
              rw [closeContent?_closing] at h
              obtain ⟨⟨later, rest'⟩, hlater, heq⟩ := Option.map_eq_some_iff.mp h
              obtain ⟨rfl, rfl⟩ := Prod.mk.inj heq
              simpa [openBehind] using ih hlater
        · rw [closeContent?_of_ne opened hc] at h
          obtain ⟨⟨later, rest'⟩, hlater, heq⟩ := Option.map_eq_some_iff.mp h
          obtain ⟨rfl, rfl⟩ := Prod.mk.inj heq
          simpa [openBehind, hc] using ih hlater
  · rintro ⟨rfl, hopen⟩
    rw [closeContent?_append hopen]
    simp [closeContent?]

theorem closeContent?_eq_none_iff {opened : Nat} {s : Text} :
    closeContent? opened s = none ↔ ClosesAtMost opened s := by
  induction s generalizing opened with
  | nil => simp [closeContent?, closesAtMost_nil]
  | cons c s ih =>
      by_cases hc : c = ')'
      · subst hc
        cases opened with
        | zero => simp [closeContent?, not_closesAtMost_zero]
        | succ opened => rw [closeContent?_closing, Option.map_eq_none_iff, ih, closesAtMost_closing]
      · rw [closeContent?_of_ne opened hc, Option.map_eq_none_iff, ih, closesAtMost_of_ne opened hc]

/-- The shortest beginning of a text that is level, besides the empty one. -/
structure IsFirstLevel (group s : Text) : Prop where
  begins : group <+: s
  ne_nil : group ≠ []
  level : IsLevel group
  length_le : ∀ p, p <+: s → p ≠ [] → IsLevel p → group.length ≤ p.length

/-- No beginning of an opened group is level as long as no more is closed than was opened in it. -/
theorem not_isLevel_of_closesAtMost {s p : Text} (h : ClosesAtMost 0 s) (hp : p <+: '(' :: s) (hne : p ≠ []) :
    ¬ IsLevel p := by
  rcases List.prefix_cons_iff.mp hp with rfl | ⟨q, rfl, hq⟩
  · exact absurd rfl hne
  · have hle := h q hq
    rw [IsLevel, (count_opening q).1, (count_opening q).2]
    omega

theorem isFirstLevel_of_isBalanced {inside : Text} (h : IsBalanced inside) (rest : Text) :
    IsFirstLevel ('(' :: (inside ++ [')'])) ('(' :: (inside ++ ')' :: rest)) := by
  obtain ⟨hlevel, hclosed⟩ := isBalanced_iff.mp h
  refine ⟨⟨rest, by simp⟩, by simp, ?_, fun p hp hne hpl => ?_⟩
  · rw [IsLevel] at hlevel
    simp [IsLevel, hlevel]
  · by_contra! hshort
    -- a shorter beginning ends in front of the last parenthesis, so what it opens first stays open
    have hinside : p <+: '(' :: inside := by
      refine List.prefix_of_prefix_length_le hp ⟨')' :: rest, by simp⟩ ?_
      simp only [List.length_cons, List.length_append, List.length_nil] at hshort ⊢
      omega
    exact not_isLevel_of_closesAtMost hclosed hinside hne hpl

/-- The group that a parenthesis opens is the first level beginning, if there is one. -/
theorem takeContent_of_level {r : Text} (h : ∃ p, p <+: '(' :: r ∧ p ≠ [] ∧ IsLevel p) :
    ∃ inside rest, r = inside ++ ')' :: rest ∧ IsBalanced inside ∧ takeContent ('(' :: r) = (.closed inside, rest) := by
  cases hclose : closeContent? 0 r with
  | none =>
      obtain ⟨p, hp, hne, hlevel⟩ := h
      exact absurd hlevel (not_isLevel_of_closesAtMost (closeContent?_eq_none_iff.mp hclose) hp hne)
  | some ends =>
      obtain ⟨inside, rest⟩ := ends
      obtain ⟨hr, hbalanced⟩ := closeContent?_eq_some_iff.mp hclose
      exact ⟨inside, rest, hr, hbalanced, by rw [takeContent, hclose]⟩

theorem takeContent_of_not_level {r : Text} (h : ¬ ∃ p, p <+: '(' :: r ∧ p ≠ [] ∧ IsLevel p) :
    takeContent ('(' :: r) = (.unterminated, []) := by
  cases hclose : closeContent? 0 r with
  | none => rw [takeContent, hclose]
  | some ends =>
      obtain ⟨inside, rest⟩ := ends
      obtain ⟨rfl, hbalanced⟩ := closeContent?_eq_some_iff.mp hclose
      have hfirst := isFirstLevel_of_isBalanced hbalanced rest
      exact absurd ⟨_, hfirst.begins, hfirst.ne_nil, hfirst.level⟩ h

/-! ## The line -/

/-- What is left of a line where its content may begin. -/
def behindId (line : Text) : Text := (takeId (takeClasses (line.span isWord).2).2).2

theorem content_of_behindId {line s rest : Text} {group : Bracketed} (hline : behindId line = s)
    (htake : takeContent s = (group, rest)) :
    (ofText line).content = group ∧ (ofText line).attributes = (takeAttributes rest).1 ∧
      (ofText line).eventTokens = (takeEvents (takeAttributes rest).2).1 ∧
      (ofText line).trailing = (takeEvents (takeAttributes rest).2).2.trim := by
  have hcontent : (ofText line).content = (takeContent (behindId line)).1 := rfl
  have hattributes : (ofText line).attributes = (takeAttributes (takeContent (behindId line)).2).1 := rfl
  have hevents : (ofText line).eventTokens =
      (takeEvents (takeAttributes (takeContent (behindId line)).2).2).1 := rfl
  have htrailing : (ofText line).trailing =
      (takeEvents (takeAttributes (takeContent (behindId line)).2).2).2.trim := rfl
  rw [hcontent, hattributes, hevents, htrailing, hline, htake]
  exact ⟨rfl, rfl, rfl, rfl⟩

def decodedContent (inside : Text) : Except Entity.DecodeFault (Option Text) :=
  if inside = [] then .ok none else (Entity.decode inside).map some

theorem text_of_closed {g : LineGroups} {inside : Text} (h : g.content = .closed inside) :
    g.text = decodedContent inside := by
  rw [text, h, decodedContent]
  simp only [List.isEmpty_iff]

theorem contentDiagnostics_of_closed {g : LineGroups} {inside : Text} (h : g.content = .closed inside) :
    g.contentDiagnostics = [] := by
  rw [contentDiagnostics, h]
  exact if_neg nofun

theorem exists_decodedContent_eq_error_iff {inside : Text} :
    (∃ digits, decodedContent inside = .error (.tooLong digits)) ↔ Entity.HasLongReference inside := by
  rw [← Entity.exists_decode_eq_error_iff, decodedContent]
  by_cases hne : inside = []
  · subst hne
    simp [Entity.decode, Entity.decodeFrom]
  · rw [if_neg hne]
    refine exists_congr fun digits => ⟨Entity.eq_error_of_map_eq_error, fun hdecode => ?_⟩
    rw [hdecode]
    rfl

theorem readLine_of_text_eq_error {line : Text} (htag : (ofText line).tag ≠ []) {digits : Nat}
    (htext : (ofText line).text = .error (.tooLong digits)) (separator : Text) :
    readLine separator line = .error ⟨.referenceTooLong digits, (ofText line).classDiagnostics⟩ := by
  rw [readLine, read, if_neg (by simpa using htag), htext]

/-- Content that is never closed hides what stands behind it. -/
theorem readLine_of_unterminated {line : Text} (htag : (ofText line).tag ≠ [])
    (htake : takeContent (behindId line) = (.unterminated, [])) (separator : Text) :
    readLine separator line =
      .ok ⟨⟨(ofText line).tag, (ofText line).classes, (ofText line).id, none, [], []⟩,
        (ofText line).classDiagnostics ++ [.contentGroup], []⟩ := by
  obtain ⟨hcontent, hattributes, hevents, htrailing⟩ := content_of_behindId rfl htake
  have htext : (ofText line).text = .ok none := by rw [text, hcontent]
  have hattributes : (ofText line).attributes = .absent := hattributes
  have hevents : (ofText line).eventTokens = [] := hevents
  have htrailing : (ofText line).trailing = [] := htrailing
  rw [readLine, read, if_neg (by simpa using htag), htext]
  simp [hasItems, items, events, contentDiagnostics, attributeDiagnostics, eventDiagnostics, hcontent, hattributes,
    hevents, htrailing]

/-! ## The main result -/

/-- What is read of a line whose content is closed, with what stands between its parentheses and what follows them. -/
structure ClosesContent (line inside rest : Text) : Prop where
  attributes_eq : (ofText line).attributes = (takeAttributes rest).1
  contentDiagnostics_eq : (ofText line).contentDiagnostics = []
  text_of_nil : inside = [] → (ofText line).text = .ok none
  text_of_decoded : inside ≠ [] → ¬ Entity.HasLongReference inside →
    ∃ decoded, Entity.decode inside = .ok decoded ∧ (ofText line).text = .ok (some decoded)
  readLine_of_long : Entity.HasLongReference inside → (ofText line).tag ≠ [] → ∃ digits, ∀ separator,
    readLine separator line = .error ⟨.referenceTooLong digits, (ofText line).classDiagnostics⟩

/-- What is read of a line whose content is never closed. -/
structure LeavesContentOpen (line : Text) : Prop where
  text_eq : (ofText line).text = .ok none
  contentDiagnostics_eq : (ofText line).contentDiagnostics = [.contentGroup]
  readLine_eq : (ofText line).tag ≠ [] → ∀ separator, readLine separator line =
    .ok ⟨⟨(ofText line).tag, (ofText line).classes, (ofText line).id, none, [], []⟩,
      (ofText line).classDiagnostics ++ [.contentGroup], []⟩

theorem closesContent_of_behindId {line s inside rest : Text} (hline : behindId line = s)
    (htake : takeContent s = (.closed inside, rest)) : ClosesContent line inside rest := by
  obtain ⟨hcontent, hattributes, -⟩ := content_of_behindId hline htake
  have htext := text_of_closed hcontent
  refine ⟨hattributes, contentDiagnostics_of_closed hcontent, fun hnil => ?_, fun hne hshort => ?_,
    fun hlong htag => ?_⟩
  · rw [htext, decodedContent, if_pos hnil]
  · cases hdecode : Entity.decode inside with
    | error fault =>
        obtain ⟨digits⟩ := fault
        exact absurd (Entity.exists_decode_eq_error_iff.mp ⟨digits, hdecode⟩) hshort
    | ok decoded => exact ⟨decoded, rfl, by rw [htext, decodedContent, if_neg hne, hdecode]; rfl⟩
  · obtain ⟨digits, herror⟩ := exists_decodedContent_eq_error_iff.mpr hlong
    exact ⟨digits, readLine_of_text_eq_error htag (htext.trans herror)⟩

theorem leavesContentOpen_of_behindId {line s : Text} (hline : behindId line = s)
    (htake : takeContent s = (.unterminated, [])) : LeavesContentOpen line := by
  obtain ⟨hcontent, -⟩ := content_of_behindId hline htake
  refine ⟨by rw [text, hcontent], by rw [contentDiagnostics, if_pos hcontent], fun htag => ?_⟩
  exact readLine_of_unterminated htag (hline.symm ▸ htake)

/-- Wherever a parenthesis opens content, the content ends at the first place where as many parentheses are closed as
were opened. What stands between is balanced, and once it is decoded it is what the content stands for; the exception
is content with a reference that is too long, which keeps its line from being read. If there is no such place, this is
the one thing that is noted of the content, and the line has no content, no attributes and no events. -/
theorem content_firstLevel (r : Text) :
    ((∃ p, p <+: '(' :: r ∧ p ≠ [] ∧ IsLevel p) → ∃ inside rest,
      '(' :: r = '(' :: (inside ++ [')']) ++ rest ∧ IsFirstLevel ('(' :: (inside ++ [')'])) ('(' :: r) ∧
      (IsLevel inside ∧ ClosesAtMost 0 inside) ∧ takeContent ('(' :: r) = (.closed inside, rest) ∧
      ∀ line, behindId line = '(' :: r → ClosesContent line inside rest) ∧
    ((¬ ∃ p, p <+: '(' :: r ∧ p ≠ [] ∧ IsLevel p) → takeContent ('(' :: r) = (.unterminated, []) ∧
      ∀ line, behindId line = '(' :: r → LeavesContentOpen line) := by
  constructor
  · intro hlevel
    obtain ⟨inside, rest, rfl, hbalanced, htake⟩ := takeContent_of_level hlevel
    exact ⟨inside, rest, by simp, isFirstLevel_of_isBalanced hbalanced rest, isBalanced_iff.mp hbalanced, htake,
      fun line hline => closesContent_of_behindId hline htake⟩
  · intro hnone
    have htake := takeContent_of_not_level hnone
    exact ⟨htake, fun line hline => leavesContentOpen_of_behindId hline htake⟩

/-- Content with parentheses inside and behind it, content that is never closed, and content that is not decoded. -/
theorem content_firstLevel_nested :
    IsFirstLevel "(a (b))".toList "(a (b)) c)[x]".toList ∧
    takeContent "(a (b)) c)[x]".toList = (.closed "a (b)".toList, " c)[x]".toList) ∧
    readLine [';'] "p.1(a (b)[x=1]@go".toList =
      .ok ⟨⟨"p".toList, [], none, none, [], []⟩, [.className "1".toList, .contentGroup], []⟩ ∧
    ∃ digits, readLine [';'] (Builder.referenceLine (digitLimit + 1)) = .error ⟨.referenceTooLong digits, []⟩ := by
  have hclosed : takeContent "(a (b)) c)[x]".toList = (.closed "a (b)".toList, " c)[x]".toList) := by decide +kernel
  obtain ⟨inside, rest, -, hfirst, -, htake, -⟩ := (content_firstLevel "a (b)) c)[x]".toList).1
    ⟨"(a (b))".toList, by decide, by decide, by decide⟩
  obtain ⟨hinside, -⟩ := Prod.mk.inj (htake.symm.trans hclosed)
  obtain rfl := Bracketed.closed.inj hinside
  refine ⟨hfirst, hclosed, ?_, ?_⟩
  · have hopen : ¬ ∃ p, p <+: "(a (b)[x=1]@go".toList ∧ p ≠ [] ∧ IsLevel p := by
      simp only [← List.mem_inits]
      decide +kernel
    obtain ⟨-, hline⟩ := (content_firstLevel "a (b)[x=1]@go".toList).2 hopen
    have hread := (hline "p.1(a (b)[x=1]@go".toList (by decide +kernel)).readLine_eq (by decide +kernel) [';']
    exact hread.trans (by decide +kernel)
  · let digits := List.replicate (digitLimit + 1) '1'
    have hdigits : digits.count '(' = 0 ∧ digits.count ')' = 0 := by simp [digits, List.count_replicate]
    have hlevel : IsLevel ('(' :: '&' :: '#' :: (digits ++ [';', ')'])) := by simp [IsLevel, hdigits]
    obtain ⟨inside, rest, -, -, -, htake, hline⟩ := (content_firstLevel ('&' :: '#' :: (digits ++ [';', ')']))).1
      ⟨_, List.prefix_rfl, by simp, hlevel⟩
    have hgroups := Builder.ofText_referenceLine (digitLimit + 1)
    have htag : (Builder.referenceLine (digitLimit + 1)).span isWord =
        (['p'], '(' :: '&' :: '#' :: (digits ++ [';', ')'])) :=
      span_append (List.forall_mem_singleton.mpr (by decide)) fun c hc => Option.some.inj hc ▸ by decide
    have hplace : behindId (Builder.referenceLine (digitLimit + 1)) = '(' :: '&' :: '#' :: (digits ++ [';', ')']) := by
      rw [behindId, htag]
      rfl
    have hinside : inside = '&' :: '#' :: (digits ++ [';']) := by
      have hcontent := (content_of_behindId hplace htake).1
      rw [hgroups] at hcontent
      exact (Bracketed.closed.inj hcontent).symm
    have hlong : Entity.HasLongReference inside :=
      ⟨digits, by simp [digits], fun c hc => List.eq_of_mem_replicate hc ▸ by decide, [], [';'], by simp [hinside]⟩
    obtain ⟨count, hread⟩ := (hline _ hplace).readLine_of_long hlong (by simp [hgroups])
    refine ⟨count, (hread [';']).trans ?_⟩
    rw [hgroups]
    rfl

end LineGroups

end IndentMarkup
