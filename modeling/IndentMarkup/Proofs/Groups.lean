import IndentMarkup.Proofs.Lines
import IndentMarkup.Template.Group
import Mathlib.Data.List.TakeDrop

/-!
# Groups that are written on a line

Writing the groups of a line one after another and reading the line gives the groups back (`ofText_written`),
as long as every group holds only what it may hold. Each group ends where the next one begins: the characters
that open a group are no characters of the groups in front of it. The content may hold parentheses that balance,
and the attributes may hold anything, since no group behind them has a closing bracket.
-/

namespace IndentMarkup

/-! ## Characters -/

theorem mem_of_inRanges {table : List (Nat × Nat)} {n : Nat} (h : inRanges table n) :
    n ∈ table.flatMap fun r => List.range' r.1 (r.2 + 1 - r.1) := by
  induction table with
  | nil => simp [inRanges] at h
  | cons r rest ih =>
      rw [inRanges] at h
      rw [List.flatMap_cons, List.mem_append]
      split at h
      · simp at h
      · split at h
        · exact .inl (List.mem_range'_1.mpr (by omega))
        · exact .inr (ih h)

theorem isWord_of_isBlank {c : Char} (hc : isBlank c) : isWord c = false := by
  have hblanks : ∀ n ∈ blankRanges.flatMap fun r => List.range' r.1 (r.2 + 1 - r.1),
      inRanges wordRanges n = false := by
    decide +kernel
  exact hblanks _ (mem_of_inRanges hc)

theorem not_isBlank_of_isWord {c : Char} (hc : isWord c) : ¬ isBlank c := by
  intro hblank
  rw [isWord_of_isBlank hblank] at hc
  exact Bool.noConfusion hc

theorem isWord_mark : ∀ c ∈ ['.', '#', '(', ')', '[', ']', '@', ';', '=', '>', '-', '&'], isWord c = false :=
  List.forall_iff_forall_mem.mp (by decide +kernel)

theorem isNameChar_mark : ∀ c ∈ ['.', '#', '(', '[', '@'], isNameChar c = false :=
  List.forall_iff_forall_mem.mp (by decide +kernel)

/-! ## Groups -/

namespace LineGroups

def StartsWithMark (marks : List Char) (s : Text) : Prop := ∀ c, s.head? = some c → c ∈ marks

theorem StartsWithMark.nil (marks : List Char) : StartsWithMark marks [] := by
  intro c hc
  simp at hc

theorem StartsWithMark.mono {marks more : List Char} {s : Text} (h : StartsWithMark marks s)
    (hsub : ∀ c ∈ marks, c ∈ more) : StartsWithMark more s := fun c hc => hsub c (h c hc)

theorem span_append {p : Char → Bool} {taken rest : Text} (htaken : ∀ c ∈ taken, p c)
    (hrest : ∀ c, rest.head? = some c → p c = false) : (taken ++ rest).span p = (taken, rest) := by
  have hstop : rest.takeWhile p = [] ∧ rest.dropWhile p = rest := by
    cases rest with
    | nil => simp
    | cons c rest => simp [hrest c rfl]
  rw [List.span_eq_takeWhile_dropWhile, List.takeWhile_append_of_pos htaken, List.dropWhile_append_of_pos htaken,
    hstop.1, hstop.2, List.append_nil]

def writtenClasses (tokens : List Text) : Text := tokens.flatMap ('.' :: ·)

def writtenId : Option Text → Text
  | some token => '#' :: token
  | none => []

def writtenBetween (opening closing : Char) : Bracketed → Text
  | .absent => []
  | .unterminated => [opening]
  | .closed inside => opening :: inside ++ [closing]

def writtenEvents : List Text → Text
  | [] => []
  | tokens => '@' :: Text.join [';'] tokens

theorem writtenClasses_cons (t : Text) (rest : List Text) :
    writtenClasses (t :: rest) = '.' :: Text.join ['.'] (t :: rest) := by
  induction rest generalizing t with
  | nil => rw [writtenClasses, List.flatMap_singleton, Text.join_singleton]
  | cons u rest ih =>
      have hu := ih u
      rw [writtenClasses] at hu
      rw [writtenClasses, List.flatMap_cons, hu, Text.join_cons_cons, List.cons_append, List.singleton_append]

theorem takeClasses_written {tokens : List Text} {rest : Text} (htokens : ∀ t ∈ tokens, ∀ c ∈ t, isNameChar c)
    (hrest : StartsWithMark ['#', '(', '[', '@'] rest) :
    takeClasses (writtenClasses tokens ++ rest) = (tokens, rest) := by
  have hdot : ∀ t ∈ tokens, '.' ∉ t := by
    intro t ht hmem
    have := htokens t ht '.' hmem
    rw [isNameChar_mark '.' (by simp)] at this
    exact Bool.noConfusion this
  cases htoken : tokens with
  | nil =>
      have hhead : rest.head? ≠ some '.' := fun h => absurd (hrest '.' h) (by decide)
      rw [writtenClasses, List.flatMap_nil, List.nil_append, takeClasses, if_neg hhead]
  | cons t more =>
      rw [← htoken]
      have htaken : ∀ c ∈ writtenClasses tokens, isNameChar c || c == '.' := by
        intro c hc
        obtain ⟨u, hu, hcu⟩ := List.mem_flatMap.mp hc
        rcases List.mem_cons.mp hcu with rfl | hcu
        · simp
        · simp [htokens u hu c hcu]
      have hstop : ∀ c, rest.head? = some c → (isNameChar c || c == '.') = false := by
        intro c hc
        have hmark := hrest c hc
        rw [isNameChar_mark c (by simp_all), Bool.false_or, beq_eq_false_iff_ne]
        rintro rfl
        simp at hmark
      have hhead : (writtenClasses tokens ++ rest).head? = some '.' := by
        rw [htoken, writtenClasses_cons]
        rfl
      have hsplit : (Text.splitAtChar '.' (writtenClasses tokens)).drop 1 = tokens := by
        rw [htoken, writtenClasses_cons, Text.splitAtChar, if_pos rfl, ← htoken,
          Text.splitAtChar_join (by simp [htoken]) hdot, List.drop_one, List.tail_cons]
      rw [takeClasses, if_pos hhead, span_append htaken hstop]
      exact congrArg (·, rest) hsplit

theorem takeId_written {token : Option Text} {rest : Text} (htoken : ∀ t, token = some t → ∀ c ∈ t, isNameChar c)
    (hrest : StartsWithMark ['(', '[', '@'] rest) : takeId (writtenId token ++ rest) = (token, rest) := by
  have hstop : ∀ c, rest.head? = some c → isNameChar c = false := by
    intro c hc
    exact isNameChar_mark c (hrest.mono (by simp) c hc)
  cases token with
  | none =>
      cases rest with
      | nil => rfl
      | cons c rest =>
          have hc : c ≠ '#' := fun h => absurd (hrest c rfl) (by simp [h])
          rw [writtenId, List.nil_append, takeId]
          exact fun _ heq => hc (List.cons.inj heq).1
  | some t => rw [writtenId, List.cons_append, takeId, span_append (htoken t rfl) hstop]

/-- The number of parentheses that are open behind a text, when so many are open in front of it, or `none` if it
closes more than are open. -/
def openBehind : Nat → Text → Option Nat
  | opened, [] => some opened
  | opened, c :: r =>
    if c = ')' then if opened = 0 then none else openBehind (opened - 1) r
    else openBehind (if c = '(' then opened + 1 else opened) r

/-- No beginning of the text closes more parentheses than it opens, and the whole text closes them all. -/
def IsBalanced (s : Text) : Prop := openBehind 0 s = some 0

theorem isBalanced_of_not_mem {s : Text} (h : ∀ c ∈ s, c ≠ '(' ∧ c ≠ ')') : IsBalanced s := by
  unfold IsBalanced
  induction s with
  | nil => rfl
  | cons c r ih =>
      obtain ⟨hopen, hclose⟩ := h c (by simp)
      rw [openBehind, if_neg hclose, if_neg hopen]
      exact ih fun d hd => h d (by simp [hd])

theorem closeContent?_closing (inner : Nat) (r : Text) :
    closeContent? (inner + 1) (')' :: r) =
      (closeContent? inner r).map fun (inside, rest) => (')' :: inside, rest) := by
  simp [closeContent?]

theorem closeContent?_of_ne (opened : Nat) {c : Char} (hc : c ≠ ')') (r : Text) :
    closeContent? opened (c :: r) =
      (closeContent? (if c = '(' then opened + 1 else opened) r).map fun (inside, rest) => (c :: inside, rest) := by
  simp [closeContent?, hc]

/-- Reading content passes over a text and keeps count of its parentheses. -/
theorem closeContent?_append {opened behind : Nat} {s : Text} (h : openBehind opened s = some behind) (t : Text) :
    closeContent? opened (s ++ t) = (closeContent? behind t).map fun (inside, rest) => (s ++ inside, rest) := by
  induction s generalizing opened with
  | nil =>
      obtain rfl := Option.some.inj h
      simp
  | cons c r ih =>
      rw [openBehind] at h
      rw [List.cons_append]
      by_cases hc : c = ')'
      · rw [if_pos hc] at h
        cases opened with
        | zero => simp at h
        | succ inner =>
            rw [if_neg (Nat.succ_ne_zero inner), Nat.add_sub_cancel] at h
            rw [hc, closeContent?_closing, ih h, Option.map_map]
            rfl
      · rw [if_neg hc] at h
        rw [closeContent?_of_ne opened hc, ih h, Option.map_map]
        rfl

theorem takeContent_written {content : Bracketed} {rest : Text} (hcontent : content ≠ .unterminated)
    (hbalanced : ∀ s, content = .closed s → IsBalanced s) (hrest : StartsWithMark ['[', '@'] rest) :
    takeContent (writtenBetween '(' ')' content ++ rest) = (content, rest) := by
  cases content with
  | absent =>
      cases rest with
      | nil => rfl
      | cons c rest =>
          have hc : c ≠ '(' := fun h => absurd (hrest c rfl) (by simp [h])
          rw [writtenBetween, List.nil_append, takeContent]
          exact fun _ heq => hc (List.cons.inj heq).1
  | unterminated => exact absurd rfl hcontent
  | closed inside =>
      have hclose := closeContent?_append (hbalanced inside rfl) (')' :: rest)
      rw [writtenBetween, List.append_assoc, List.cons_append, takeContent, List.singleton_append, hclose]
      simp [closeContent?]

theorem cutAtLast?_append {sep : Char} {s rest : Text} (hrest : sep ∉ rest) :
    Text.cutAtLast? sep (s ++ sep :: rest) = some (s, rest) := by
  have hnone : ∀ t : Text, sep ∉ t → Text.cutAtLast? sep t = none := by
    intro t ht
    induction t with
    | nil => rfl
    | cons c t ih =>
        have hc : c ≠ sep := fun h => ht (by simp [h])
        rw [Text.cutAtLast?, ih fun h => ht (by simp [h])]
        exact if_neg hc
  induction s with
  | nil => rw [List.nil_append, Text.cutAtLast?, hnone rest hrest, if_pos rfl]
  | cons c s ih => rw [List.cons_append, Text.cutAtLast?, ih]

theorem takeAttributes_written {attributes : Bracketed} {rest : Text} (hattributes : attributes ≠ .unterminated)
    (hrest : StartsWithMark ['@'] rest) (hclosing : ']' ∉ rest) :
    takeAttributes (writtenBetween '[' ']' attributes ++ rest) = (attributes, rest) := by
  cases attributes with
  | absent =>
      cases rest with
      | nil => rfl
      | cons c rest =>
          have hc : c ≠ '[' := fun h => absurd (hrest c rfl) (by simp [h])
          rw [writtenBetween, List.nil_append, takeAttributes]
          exact fun _ heq => hc (List.cons.inj heq).1
  | unterminated => exact absurd rfl hattributes
  | closed inside =>
      rw [writtenBetween, List.append_assoc, List.cons_append, takeAttributes, List.singleton_append,
        cutAtLast?_append hclosing]

theorem takeEvents_written {tokens : List Text} (htokens : ∀ t ∈ tokens, ∀ c ∈ t, isWord c) :
    takeEvents (writtenEvents tokens) = (tokens, []) := by
  cases htoken : tokens with
  | nil => rfl
  | cons t more =>
      rw [← htoken]
      have hsemicolon : ∀ u ∈ tokens, ';' ∉ u := by
        intro u hu hmem
        have := htokens u hu ';' hmem
        rw [isWord_mark ';' (by simp)] at this
        exact Bool.noConfusion this
      have htaken : ∀ c ∈ Text.join [';'] tokens, isWord c || c == ';' := by
        intro c hc
        rcases Text.mem_join hc with ⟨u, hu, hcu⟩ | hc
        · simp [htokens u hu c hcu]
        · simp_all
      have hwritten : writtenEvents tokens = '@' :: (Text.join [';'] tokens ++ []) := by
        rw [htoken, writtenEvents, List.append_nil]
        simp
      rw [hwritten, takeEvents, span_append htaken (by simp)]
      exact congrArg (·, []) (Text.splitAtChar_join (by simp [htoken]) hsemicolon)

/-! ## The whole line -/

def written (g : LineGroups) : Text :=
  g.tag ++ (writtenClasses g.classTokens ++ (writtenId g.idToken ++ (writtenBetween '(' ')' g.content ++
    (writtenBetween '[' ']' g.attributes ++ writtenEvents g.eventTokens))))

/-- Groups that hold only what they may hold: what is written of them is read again. -/
structure IsRegular (g : LineGroups) : Prop where
  tag : ∀ c ∈ g.tag, isWord c
  classes : ∀ t ∈ g.classTokens, ∀ c ∈ t, isNameChar c
  id : ∀ t, g.idToken = some t → ∀ c ∈ t, isNameChar c
  content : g.content ≠ .unterminated
  balanced : ∀ s, g.content = .closed s → IsBalanced s
  attributes : g.attributes ≠ .unterminated
  events : ∀ t ∈ g.eventTokens, ∀ c ∈ t, isWord c
  trailing : g.trailing = []

theorem startsWithMark_events (tokens : List Text) : StartsWithMark ['@'] (writtenEvents tokens) := by
  cases tokens with
  | nil => exact .nil _
  | cons t rest => simp [StartsWithMark, writtenEvents]

theorem startsWithMark_between (opening closing : Char) (group : Bracketed) {marks : List Char} {rest : Text}
    (hrest : StartsWithMark marks rest) :
    StartsWithMark (opening :: marks) (writtenBetween opening closing group ++ rest) := by
  cases group with
  | absent => exact hrest.mono fun c hc => by simp [hc]
  | unterminated => simp [StartsWithMark, writtenBetween]
  | closed inside => simp [StartsWithMark, writtenBetween]

theorem startsWithMark_id (token : Option Text) {marks : List Char} {rest : Text}
    (hrest : StartsWithMark marks rest) : StartsWithMark ('#' :: marks) (writtenId token ++ rest) := by
  cases token with
  | none => exact hrest.mono fun c hc => by simp [hc]
  | some t => simp [StartsWithMark, writtenId]

theorem startsWithMark_classes (tokens : List Text) {marks : List Char} {rest : Text}
    (hrest : StartsWithMark marks rest) : StartsWithMark ('.' :: marks) (writtenClasses tokens ++ rest) := by
  cases tokens with
  | nil => exact hrest.mono fun c hc => by simp [hc]
  | cons t more => simp [StartsWithMark, writtenClasses]

theorem bracket_not_mem_events {tokens : List Text} (htokens : ∀ t ∈ tokens, ∀ c ∈ t, isWord c) :
    ']' ∉ writtenEvents tokens := by
  cases tokens with
  | nil => simp [writtenEvents]
  | cons t rest =>
      rw [writtenEvents, List.mem_cons]
      rintro (heq | hmem)
      · exact absurd heq (by decide)
      · rcases Text.mem_join hmem with ⟨u, hu, hcu⟩ | hmem
        · have := htokens u hu ']' hcu
          rw [isWord_mark ']' (by simp)] at this
          exact Bool.noConfusion this
        · simp at hmem
      · simp

/-- Writing the groups of a line and reading the line gives the groups back. -/
theorem ofText_written {g : LineGroups} (h : g.IsRegular) : ofText g.written = g := by
  have hevents := startsWithMark_events g.eventTokens
  have hattributes := startsWithMark_between '[' ']' g.attributes hevents
  have hcontent := startsWithMark_between '(' ')' g.content hattributes
  have hid := startsWithMark_id g.idToken hcontent
  have hclasses := startsWithMark_classes g.classTokens hid
  have hstop : ∀ c, (writtenClasses g.classTokens ++ (writtenId g.idToken ++ (writtenBetween '(' ')' g.content ++
      (writtenBetween '[' ']' g.attributes ++ writtenEvents g.eventTokens)))).head? = some c → isWord c = false :=
    fun c hc => isWord_mark c (hclasses.mono (by simp) c hc)
  rw [ofText, written, span_append h.tag hstop]
  simp only [takeClasses_written h.classes hid, takeId_written h.id hcontent,
    takeContent_written h.content h.balanced hattributes,
    takeAttributes_written h.attributes hevents (bracket_not_mem_events h.events), takeEvents_written h.events]
  have htrailing : Text.trim [] = g.trailing := by rw [h.trailing]; rfl
  rw [htrailing]

end LineGroups

end IndentMarkup
