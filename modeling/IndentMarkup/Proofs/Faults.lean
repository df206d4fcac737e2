import IndentMarkup.Proofs.Escaping
import IndentMarkup.Proofs.Groups
import IndentMarkup.Proofs.Placement
import IndentMarkup.Proofs.References

/-!
# Where compiling ends

A builder compiles up to the first line of a block that is not read (`Builder.compile_until_fault`): the blocks in
front of that line's block stay, and the fault says what is wrong with the line. Almost always the line has no tag.
The other fault is that of a decimal reference whose digits are more than are read as a number; a line of this kind
has a tag, and ends the compiling all the same.
-/

namespace IndentMarkup

/-! ## Lines that are not read -/

namespace LineGroups

theorem takeClasses_isSuffix (s : Text) : (takeClasses s).2 <:+ s := by
  rw [takeClasses]
  split
  · rw [List.span_eq_takeWhile_dropWhile]
    exact List.dropWhile_suffix _
  · exact List.suffix_refl s

theorem takeId_isSuffix (s : Text) : (takeId s).2 <:+ s := by
  unfold takeId
  split
  · rw [List.span_eq_takeWhile_dropWhile]
    exact (List.dropWhile_suffix _).trans (List.suffix_cons _ _)
  · exact List.suffix_refl _

theorem closeContent?_eq_some {depth : Nat} {s inside rest : Text} (h : closeContent? depth s = some (inside, rest)) :
    s = inside ++ ')' :: rest := by
  induction s generalizing depth inside with
  | nil => simp [closeContent?] at h
  | cons c r ih =>
      have hlater : ∀ depth', (closeContent? depth' r).map (fun p => (c :: p.1, p.2)) = some (inside, rest) →
          c :: r = inside ++ ')' :: rest := by
        intro depth' hr
        obtain ⟨⟨later, rest'⟩, hclose, heq⟩ := Option.map_eq_some_iff.mp hr
        obtain ⟨rfl, rfl⟩ := Prod.mk.inj heq
        rw [ih hclose, List.cons_append]
      by_cases hc : c = ')'
      · subst hc
        cases depth with
        | zero =>
            obtain ⟨rfl, rfl⟩ : [] = inside ∧ r = rest := by simpa [closeContent?] using h
            rfl
        | succ inner => exact hlater inner (closeContent?_closing inner r ▸ h)
      · exact hlater _ (closeContent?_of_ne depth hc r ▸ h)

theorem takeContent_isInfix {s inside : Text} (h : (takeContent s).1 = .closed inside) : inside <:+: s := by
  unfold takeContent at h
  split at h
  · next r =>
      split at h
      · next rest hclose =>
          obtain rfl := Bracketed.closed.inj h
          rw [closeContent?_eq_some hclose]
          exact ⟨['('], ')' :: rest, by simp⟩
      · simp at h
  · simp at h

theorem content_isInfix {line inside : Text} (h : (ofText line).content = .closed inside) : inside <:+: line := by
  have hcontent : (ofText line).content = (takeContent (takeId (takeClasses (line.span isWord).2).2).2).1 := rfl
  have hbehind : (takeId (takeClasses (line.span isWord).2).2).2 <:+ line := by
    refine (takeId_isSuffix _).trans ((takeClasses_isSuffix _).trans ?_)
    rw [List.span_eq_takeWhile_dropWhile]
    exact List.dropWhile_suffix _
  exact (takeContent_isInfix (hcontent ▸ h)).trans hbehind.isInfix

theorem tag_isEmpty (line : Text) : (ofText line).tag.isEmpty = !line.head?.any isWord := by
  have htag : (ofText line).tag = (line.span isWord).1 := rfl
  rw [htag, List.span_eq_takeWhile_dropWhile]
  cases line with
  | nil => rfl
  | cons c r => cases hc : isWord c <;> simp [hc]

end LineGroups

/-- What is wrong with a line, whatever the separator is: it does not begin with a word character, or its content
has a reference that is too long. -/
def Line.defect? (l : Line) : Option CompileFault :=
  if l.descriptor.head?.any isWord then
    match (LineGroups.ofText l.descriptor).text with
    | .ok _ => none
    | .error (.tooLong digits) => some (.referenceTooLong digits)
  else some (.malformedLine l.raw l.number)

theorem Line.fault?_eq_defect? {dialect : Dialect} (hseparator : dialect.separator ≠ []) (l : Line) :
    l.fault? dialect = l.defect? := by
  have hnonempty : dialect.separator.isEmpty = false := by simpa using hseparator
  rw [fault?, defect?, readLine, LineGroups.read, LineGroups.tag_isEmpty]
  cases l.descriptor.head?.any isWord with
  | false => rfl
  | true =>
      simp only [Bool.not_true, Bool.false_eq_true, if_false, if_true]
      cases (LineGroups.ofText l.descriptor).text with
      | error fault =>
          obtain ⟨digits⟩ := fault
          rfl
      | ok text => simp [hnonempty]

theorem Line.isRead_iff_defect? {dialect : Dialect} (hseparator : dialect.separator ≠ []) {l : Line} :
    l.IsRead dialect ↔ l.defect? = none := by
  rw [← fault?_eq_none_iff, fault?_eq_defect? hseparator]

/-- A line with a reference that is too long holds its digits. -/
theorem Line.exists_of_defect?_eq_referenceTooLong {l : Line} {digits : Nat}
    (h : l.defect? = some (.referenceTooLong digits)) :
    digitLimit < digits ∧
      ∃ run : Text, run.length = digits ∧ (∀ c ∈ run, c.isDigit) ∧ '&' :: '#' :: run <:+: l.descriptor := by
  rw [defect?, LineGroups.text] at h
  split at h
  · cases hcontent : (LineGroups.ofText l.descriptor).content with
    | absent => simp [hcontent] at h
    | unterminated => simp [hcontent] at h
    | closed inside =>
        have hdecode : Entity.decode inside = .error (.tooLong digits) := by
          cases hdecode : Entity.decode inside with
          | ok text => cases hempty : inside.isEmpty <;> simp [hcontent, hempty, hdecode, Except.map] at h
          | error fault =>
              obtain ⟨n⟩ := fault
              cases hempty : inside.isEmpty with
              | true => simp [hcontent, hempty] at h
              | false =>
                  obtain rfl : n = digits := by simpa [hcontent, hempty, hdecode, Except.map] using h
                  rfl
        obtain ⟨hlong, run, hlength, hdigits, hinfix⟩ := Entity.exists_of_decode_eq_error hdecode
        exact ⟨hlong, run, hlength, hdigits, hinfix.trans (LineGroups.content_isInfix hcontent)⟩
  · simp at h

/-! ## Builders that were made -/

namespace Builder

/-- The builders that a new one may become: its settings are changed, where a setting that is refused leaves the
builder as it is, bindings are registered, and templates are compiled. -/
inductive History : Builder → Prop
  | start {container : Ref} {makeNode : Text → Node} {separator marker : Text} {b : Builder}
      (h : newWith container makeNode separator marker = .ok b) : History b
  | separator {b : Builder} (h : History b) (symbol : Text) : History ((b.setSeparator symbol).toOption.getD b)
  | marker {b : Builder} (h : History b) (symbol : Text) : History ((b.setMarker symbol).toOption.getD b)
  | container {b : Builder} (h : History b) (container : Ref) : History { b with container }
  | register {b : Builder} (h : History b) (entry : Registration) :
      History (((b.register entry).toOption.map Prod.snd).getD b)
  | compile {b : Builder} (h : History b) (d : Document) (template : Text) : History (b.compile d template).builder

theorem eq_of_setSeparator {b b' : Builder} {symbol : Text} (h : b.setSeparator symbol = .ok b') :
    symbol ≠ [] ∧ b' = { b with separator := symbol } := by
  rw [setSeparator, checkSeparator] at h
  split at h
  · simp [Except.map] at h
  · next hsymbol => exact ⟨by simpa using hsymbol, (Except.ok.inj h).symm⟩

theorem eq_of_setMarker {b b' : Builder} {symbol : Text} (h : b.setMarker symbol = .ok b') :
    (∃ c, symbol = [c] ∧ ¬ isBlank c) ∧ b' = { b with marker := symbol } := by
  rw [setMarker] at h
  cases hmarker : checkMarker symbol with
  | error fault => simp [hmarker, Except.map] at h
  | ok marker =>
      rw [hmarker] at h
      unfold checkMarker at hmarker
      split at hmarker
      · next c =>
          by_cases hblank : isBlank c
          · simp [hblank] at hmarker
          · rw [if_neg hblank] at hmarker
            obtain rfl := Except.ok.inj hmarker
            exact ⟨⟨c, rfl, hblank⟩, (Except.ok.inj h).symm⟩
      · simp at hmarker

theorem eq_of_register {b b' : Builder} {entry : Registration} {binding : Binding}
    (h : b.register entry = .ok (binding, b')) : ∃ registry, b' = { b with registry } := by
  rw [register] at h
  cases hregister : b.registry.register entry with
  | error fault => simp [hregister, Except.map] at h
  | ok out =>
      rw [hregister] at h
      exact ⟨out.2, (Prod.mk.inj (Except.ok.inj h)).2.symm⟩

theorem History.separator_ne_nil {b : Builder} (h : b.History) : b.separator ≠ [] := by
  induction h with
  | @start container makeNode separator marker b hnew =>
      rw [newWith] at hnew
      cases hseparator : (new container makeNode).setSeparator separator with
      | error fault => simp [hseparator, bind, Except.bind] at hnew
      | ok made =>
          rw [hseparator] at hnew
          obtain ⟨hsymbol, rfl⟩ := eq_of_setSeparator hseparator
          obtain ⟨-, rfl⟩ := eq_of_setMarker hnew
          exact hsymbol
  | @separator b _ symbol ih =>
      cases hset : b.setSeparator symbol with
      | error fault => exact ih
      | ok b' =>
          obtain ⟨hsymbol, rfl⟩ := eq_of_setSeparator hset
          exact hsymbol
  | @marker b _ symbol ih =>
      cases hset : b.setMarker symbol with
      | error fault => exact ih
      | ok b' =>
          obtain ⟨-, rfl⟩ := eq_of_setMarker hset
          exact ih
  | container _ container ih => exact ih
  | @register b _ entry ih =>
      cases hset : b.register entry with
      | error fault => exact ih
      | ok out =>
          obtain ⟨registry, heq⟩ := eq_of_register hset
          exact congrArg Builder.separator heq ▸ ih
  | compile _ d template ih => exact ih

/-! ## The main result -/

/-- Compiling a template goes exactly as far as its first fault. The fault is that of the first line of a block that
has one: the line does not begin with a word character, and is then reported trimmed and with its number, or it has a
decimal reference of more digits than are read. The blocks in front of the block of this line are appended to the
container, whose old children stay as they are, and the diagnostics are those of the lines in front of this line.
Nothing else of the builder is changed, and nested lines in front of the first block are not looked at. -/
theorem compile_until_fault (b : Builder) (hb : b.History) (d : Document) (o : Rose Ref)
    (hcontainer : d.HasOutline b.container o) (template : Text) :
    let lines := (blocksOf b.marker template).flatMap Block.lines
    let c := b.compile d template
    c.fault = lines.findSome? Line.defect? ∧
      c.document.children b.container = d.children b.container ++ c.roots ∧
      (d.children b.container).map c.document.tree = (d.children b.container).map d.tree ∧
      c.trees = ((blocksOf b.marker template).takeWhile fun block => block.lines.all (·.defect?.isNone)).map
        (fun block => block.layout.map (Line.node b.dialect)) ∧
      c.builder =
        { b with diagnostics := (lines.takeWhile (·.defect?.isNone)).flatMap (Line.diagnostics b.dialect) } ∧
      (∀ l ∈ lines, 1 ≤ l.number ∧ ∃ piece, template.lines[l.number - 1]? = some piece ∧ l.raw = piece.trim) ∧
      ∀ digits, c.fault = some (.referenceTooLong digits) → digitLimit < digits ∧ ∃ l ∈ lines, ∃ run : Text,
        run.length = digits ∧ (∀ c ∈ run, c.isDigit) ∧ '&' :: '#' :: run <:+: l.descriptor := by
  intro lines c
  have hseparator : b.dialect.separator ≠ [] := hb.separator_ne_nil
  have hsize : b.container < d.size := hcontainer.lt_size _ (hcontainer.self_eq ▸ Rose.self_mem_preorder o)
  obtain ⟨hfault, hroots, hdiagnostics⟩ := compile_eq b.dialect template
  have hgrows := b.growsAt_compile template hsize
  have hdefect : Line.fault? b.dialect = Line.defect? := funext (Line.fault?_eq_defect? hseparator)
  have hread : (fun l : Line => decide (l.IsRead b.dialect)) = fun l => l.defect?.isNone := by
    funext l
    rw [Bool.eq_iff_iff, decide_eq_true_iff, Line.isRead_iff_defect? hseparator, Option.isNone_iff_eq_none]
  have hblock : (fun block : Block => decide (block.IsRead b.dialect)) =
      fun block => block.lines.all (·.defect?.isNone) := by
    funext block
    rw [← hread, Bool.eq_iff_iff, decide_eq_true_iff, List.all_eq_true]
    exact forall₂_congr fun l _ => decide_eq_true_iff.symm
  rw [hdefect] at hfault
  rw [hblock] at hroots
  rw [hread] at hdiagnostics
  refine ⟨hfault, hgrows.children_container, List.map_congr_left fun x hx => hgrows.tree_eq hcontainer hx,
    (b.trees_compile d template hsize).trans hroots,
    congrArg (fun diagnostics => { b with diagnostics }) hdiagnostics, fun l hl => ?_, fun digits hlong => ?_⟩
  · obtain ⟨block, hb, hl⟩ := List.mem_flatMap.mp hl
    obtain ⟨i, piece, hnumber, hpiece, hraw⟩ := exists_piece_of_mem_linesFrom (mem_templateLines_of_mem_block hb hl)
    exact ⟨by omega, piece, by rwa [hnumber, Nat.add_sub_cancel_left], hraw⟩
  · obtain ⟨l, hl, hdefect⟩ := List.exists_of_findSome?_eq_some (hfault.symm.trans hlong)
    obtain ⟨hlimit, hrun⟩ := l.exists_of_defect?_eq_referenceTooLong hdefect
    exact ⟨hlimit, l, hl, hrun⟩

def referenceLine (count : Nat) : Text := 'p' :: '(' :: '&' :: '#' :: (List.replicate count '1' ++ [';', ')'])

theorem templateLines_referenceLine (count : Nat) :
    templateLines defaultMarker (referenceLine count) = [⟨1, 0, referenceLine count, referenceLine count⟩] := by
  have hlast : referenceLine count = ('p' :: '(' :: '&' :: '#' :: (List.replicate count '1' ++ [';'])) ++ [')'] := by
    simp [referenceLine]
  have hvisible : Text.IsVisibleLine (referenceLine count) := by
    refine ⟨Text.trim_eq_self (fun c hc => ?_) (fun c hc => ?_), by simp [referenceLine], by simp [referenceLine]⟩
    · obtain rfl : 'p' = c := by simpa [referenceLine] using hc
      decide
    · rw [hlast, List.getLast?_concat] at hc
      obtain rfl := Option.some.inj hc
      decide
  rw [templateLines_of_isVisibleLine hvisible]
  rfl

theorem ofText_referenceLine (count : Nat) : LineGroups.ofText (referenceLine count) =
    ⟨['p'], [], none, .closed ('&' :: '#' :: (List.replicate count '1' ++ [';'])), .absent, [], []⟩ := by
  have hwritten : referenceLine count = LineGroups.written
      ⟨['p'], [], none, .closed ('&' :: '#' :: (List.replicate count '1' ++ [';'])), .absent, [], []⟩ := by
    simp [LineGroups.written, LineGroups.writtenClasses, LineGroups.writtenId, LineGroups.writtenBetween,
      LineGroups.writtenEvents, referenceLine]
  rw [hwritten]
  refine LineGroups.ofText_written
    ⟨fun c hc => ?_, by simp, by simp, by simp, fun s hs => ?_, by simp, by simp, rfl⟩
  · obtain rfl := List.mem_singleton.mp hc
    decide
  · obtain rfl := Bracketed.closed.inj hs
    refine LineGroups.isBalanced_of_not_mem fun c hc => ?_
    simp only [List.mem_cons, List.mem_append, List.mem_replicate, List.not_mem_nil, or_false] at hc
    rcases hc with rfl | rfl | ⟨-, rfl⟩ | rfl <;> decide

theorem defect?_referenceLine {count : Nat} (h : digitLimit < count) (number : Nat) (raw : Text) :
    (Line.mk number 0 raw (referenceLine count)).defect? = some (.referenceTooLong count) := by
  have hread := Entity.reference?_decimal (List.replicate count '1') (by simp; omega)
    (fun c hc => List.eq_of_mem_replicate hc ▸ by decide) []
  have hdecode : Entity.decode ('&' :: '#' :: (List.replicate count '1' ++ [';'])) = .error (.tooLong count) := by
    rw [List.append_nil] at hread
    rw [Entity.decode, Entity.decodeFrom, if_pos rfl, hread]
    simp [Entity.Reference.value, h]
  rw [Line.defect?, ofText_referenceLine]
  simp [referenceLine, LineGroups.text, hdecode, Except.map, show isWord 'p' = true by decide]

theorem blocksOf_referenceLine (count : Nat) :
    blocksOf defaultMarker (referenceLine count) = [⟨⟨1, 0, referenceLine count, referenceLine count⟩, []⟩] := by
  rw [blocksOf, templateLines_referenceLine]
  rfl

theorem findSome?_defect?_referenceLine {count : Nat} (h : digitLimit < count) :
    ((blocksOf defaultMarker (referenceLine count)).flatMap Block.lines).findSome? Line.defect? =
      some (.referenceTooLong count) := by
  rw [blocksOf_referenceLine, List.flatMap_singleton, Block.lines, List.findSome?_cons, defect?_referenceLine h]

theorem takeWhile_referenceLine {count : Nat} (h : digitLimit < count) :
    ((blocksOf defaultMarker (referenceLine count)).takeWhile fun block => block.lines.all (·.defect?.isNone)) =
      [] := by
  rw [blocksOf_referenceLine, List.takeWhile_cons_of_neg]
  simp [Block.lines, defect?_referenceLine h]

/-- A line with a tag whose reference is too long: compiling ends there, and the container is left as it was. -/
theorem compile_until_fault_too_long :
    (new 0 Node.ofTag).History ∧ (Document.mk [default]).HasOutline 0 (.node 0 []) ∧
      ((new 0 Node.ofTag).compile ⟨[default]⟩ (referenceLine 4301)).fault = some (.referenceTooLong 4301) ∧
      ((new 0 Node.ofTag).compile ⟨[default]⟩ (referenceLine 4301)).trees = [] := by
  have hb : (new 0 Node.ofTag).History :=
    .start (rfl : newWith 0 Node.ofTag defaultSeparator defaultMarker = .ok (new 0 Node.ofTag))
  have ho : (Document.mk [default]).HasOutline 0 (.node 0 []) := ⟨rfl, .mk 0 [] rfl (by simp), by decide⟩
  have hlimit : digitLimit < 4301 := Nat.lt_succ_self 4300
  have hcompile := (new 0 Node.ofTag).compile_until_fault hb ⟨[default]⟩ (.node 0 []) ho (referenceLine 4301)
  exact ⟨hb, ho, hcompile.1.trans (findSome?_defect?_referenceLine hlimit),
    hcompile.2.2.2.1.trans (congrArg (List.map _) (takeWhile_referenceLine hlimit))⟩

end Builder

end IndentMarkup
