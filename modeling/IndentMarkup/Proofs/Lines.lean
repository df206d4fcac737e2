import IndentMarkup.Template.Line
import IndentMarkup.Template.Reindent
import Mathlib.Data.List.Basic
import Mathlib.Data.List.Induction
import Mathlib.Data.List.TakeWhile

/-!
# The visible lines of a template

Of a template only its visible lines count: the pieces between line feeds, trimmed, without the blank ones.
Depths and descriptors of the lines are functions of these (`map_templateLines`). Joining visible lines gives
them back (`visibleLines_join`), blanks around a template change nothing (`visibleLines_trim`), and re-indenting
a template only makes its lines deeper (`map_templateLines_append_reindent`).
-/

namespace IndentMarkup

namespace Text

/-! ## Trimming -/

theorem trimEnd_concat_of_blank (s : Text) {c : Char} (hc : isBlank c) : trimEnd (s ++ [c]) = trimEnd s := by
  induction s with
  | nil => simp [trimEnd, hc]
  | cons d s ih => rw [List.cons_append, trimEnd, ih, trimEnd]

theorem trimEnd_concat_of_visible (s : Text) {c : Char} (hc : ¬ isBlank c) : trimEnd (s ++ [c]) = s ++ [c] := by
  induction s with
  | nil => simp [trimEnd, hc]
  | cons d s ih =>
      rw [List.cons_append, trimEnd, ih]
      split
      · next h => simp at h
      · rfl

theorem trim_cons_of_blank {c : Char} (hc : isBlank c) (s : Text) : trim (c :: s) = trim s := by
  rw [trim, trim, trimStart, trimStart, List.dropWhile_cons_of_pos hc]

theorem trim_concat_of_blank (s : Text) {c : Char} (hc : isBlank c) : trim (s ++ [c]) = trim s := by
  rw [trim, trim, trimStart, trimStart, List.dropWhile_append]
  by_cases h : s.dropWhile isBlank = []
  · simp [h, hc]
  · rw [if_neg (by simpa using h), trimEnd_concat_of_blank _ hc]

theorem trim_append_of_blank {before : Text} (h : ∀ c ∈ before, isBlank c) (s : Text) :
    trim (before ++ s) = trim s := by
  rw [trim, trim, trimStart, trimStart, List.dropWhile_append_of_pos h]

theorem trim_append_blank (s : Text) {behind : Text} (h : ∀ c ∈ behind, isBlank c) : trim (s ++ behind) = trim s := by
  induction behind using List.reverseRecOn with
  | nil => rw [List.append_nil]
  | append_singleton behind c ih =>
      rw [← List.append_assoc, trim_concat_of_blank _ (h c (by simp)), ih fun d hd => h d (by simp [hd])]

theorem trim_eq_self {s : Text} (hfirst : ∀ c, s.head? = some c → ¬ isBlank c)
    (hlast : ∀ c, s.getLast? = some c → ¬ isBlank c) : trim s = s := by
  have hstart : trimStart s = s := by
    cases s with
    | nil => rfl
    | cons c r => exact List.dropWhile_cons_of_neg (hfirst c rfl)
  rw [trim, hstart]
  rcases List.eq_nil_or_concat' s with rfl | ⟨front, c, rfl⟩
  · rfl
  · exact trimEnd_concat_of_visible front (hlast c (by simp))

theorem trimEnd_spec (s : Text) :
    ∃ behind : Text, s = trimEnd s ++ behind ∧ (∀ c ∈ behind, isBlank c) ∧
      ∀ c, (trimEnd s).getLast? = some c → ¬ isBlank c := by
  induction s using List.reverseRecOn with
  | nil => exact ⟨[], rfl, by simp, by simp [trimEnd]⟩
  | append_singleton s c ih =>
      by_cases hc : isBlank c
      · obtain ⟨behind, heq, hbehind, hlast⟩ := ih
        rw [trimEnd_concat_of_blank s hc]
        refine ⟨behind ++ [c], by rw [← List.append_assoc, ← heq], fun d hd => ?_, hlast⟩
        rcases List.mem_append.mp hd with hd | hd
        · exact hbehind d hd
        · exact List.mem_singleton.mp hd ▸ hc
      · rw [trimEnd_concat_of_visible s hc]
        exact ⟨[], by rw [List.append_nil], by simp, by simpa using hc⟩

theorem exists_blanks_trim (s : Text) :
    ∃ before behind : Text, s = before ++ trim s ++ behind ∧ (∀ c ∈ before, isBlank c) ∧ ∀ c ∈ behind, isBlank c := by
  obtain ⟨behind, heq, hbehind, -⟩ := trimEnd_spec (trimStart s)
  refine ⟨s.takeWhile isBlank, behind, ?_, fun c hc => List.all_eq_true.mp List.all_takeWhile c hc, hbehind⟩
  rw [List.append_assoc, trim, ← heq, trimStart, List.takeWhile_append_dropWhile]

theorem mem_of_mem_trim {s : Text} {c : Char} (hc : c ∈ trim s) : c ∈ s := by
  obtain ⟨before, behind, heq, -, -⟩ := exists_blanks_trim s
  rw [heq]
  simp [hc]

theorem head?_trimStart {s : Text} {c : Char} (h : (trimStart s).head? = some c) : ¬ isBlank c := by
  have hfirst := List.head?_dropWhile_not isBlank s
  rw [← trimStart, h] at hfirst
  simpa using hfirst

theorem head?_trim_eq_find? (s : Text) : (trim s).head? = s.find? fun c => !isBlank c := by
  have hfind : s.find? (fun c => !isBlank c) = (trimStart s).head? := by
    rw [List.find?_eq_head?_dropWhile_not, trimStart]
    simp only [Bool.not_not]
  rw [hfind, trim]
  cases h : trimStart s with
  | nil => rfl
  | cons c r =>
      have hc : ¬ isBlank c := head?_trimStart (by rw [h, List.head?_cons])
      rw [trimEnd, List.head?_cons]
      split
      · rw [if_neg hc, List.head?_cons]
      · rfl

theorem head?_trim {s : Text} {c : Char} (hc : (trim s).head? = some c) : ¬ isBlank c := by
  rw [head?_trim_eq_find?] at hc
  simpa using List.find?_some hc

theorem getLast?_trim {s : Text} {c : Char} (hc : (trim s).getLast? = some c) : ¬ isBlank c := by
  obtain ⟨_, -, -, hlast⟩ := trimEnd_spec (trimStart s)
  exact hlast c hc

theorem trim_trim (s : Text) : trim (trim s) = trim s :=
  trim_eq_self (fun _ => head?_trim) fun _ => getLast?_trim

theorem isEmpty_trim (s : Text) : (trim s).isEmpty = s.all isBlank := by
  rw [Bool.eq_iff_iff, List.isEmpty_iff, List.all_eq_true]
  constructor
  · intro h c hc
    obtain ⟨before, behind, heq, hbefore, hbehind⟩ := exists_blanks_trim s
    rw [heq, h, List.append_nil] at hc
    rcases List.mem_append.mp hc with hc | hc
    · exact hbefore c hc
    · exact hbehind c hc
  · intro h
    exact trim_append_blank [] h

def EndsVisible (s : Text) : Prop := ∀ c, s.getLast? = some c → ¬ isBlank c

theorem EndsVisible.append {s t : Text} (hs : EndsVisible s) (ht : EndsVisible t) : EndsVisible (s ++ t) := by
  intro c hc
  cases t with
  | nil => exact hs c (by rwa [List.append_nil] at hc)
  | cons d t =>
      rw [List.getLast?_append_of_ne_nil _ (by simp)] at hc
      exact ht c hc

theorem endsVisible_concat (s : Text) {c : Char} (hc : ¬ isBlank c) : EndsVisible (s ++ [c]) := by
  intro d hd
  rw [List.getLast?_concat, Option.some.injEq] at hd
  exact hd ▸ hc

theorem endsVisible_of_all {s : Text} (h : ∀ c ∈ s, ¬ isBlank c) : EndsVisible s :=
  fun c hc => h c (List.mem_of_getLast? hc)

/-! ## Splitting at a character -/

theorem splitAtChar_ne_nil (sep : Char) (s : Text) : splitAtChar sep s ≠ [] := by
  induction s with
  | nil => simp [splitAtChar]
  | cons c r ih =>
      rw [splitAtChar]
      split
      · simp
      · cases h : splitAtChar sep r with
        | nil => exact absurd h ih
        | cons p ps => simp [consHead]

theorem splitAtChar_of_not_mem {sep : Char} {s : Text} (h : sep ∉ s) : splitAtChar sep s = [s] := by
  induction s with
  | nil => rfl
  | cons c r ih =>
      have hc : c ≠ sep := fun heq => h (by simp [heq])
      rw [splitAtChar, if_neg hc, ih fun hr => h (by simp [hr]), consHead]

theorem splitAtChar_append (sep : Char) (s t : Text) :
    splitAtChar sep (s ++ sep :: t) = splitAtChar sep s ++ splitAtChar sep t := by
  induction s with
  | nil => simp [splitAtChar]
  | cons c r ih =>
      rw [List.cons_append, splitAtChar, splitAtChar, ih]
      split
      · rfl
      · cases h : splitAtChar sep r with
        | nil => exact absurd h (splitAtChar_ne_nil sep r)
        | cons p ps => rfl

theorem join_singleton (sep p : Text) : join sep [p] = p := by
  simp [join]

theorem join_cons_cons (sep p q : Text) (rest : List Text) :
    join sep (p :: q :: rest) = p ++ (sep ++ join sep (q :: rest)) := by
  simp [join, List.intercalate]

theorem mem_join {sep : Text} {parts : List Text} {c : Char} (hc : c ∈ join sep parts) :
    (∃ p ∈ parts, c ∈ p) ∨ c ∈ sep := by
  induction parts with
  | nil => simp [join] at hc
  | cons p rest ih =>
      cases rest with
      | nil => exact .inl ⟨p, by simp, by rwa [join_singleton] at hc⟩
      | cons q qs =>
          rw [join_cons_cons, List.mem_append, List.mem_append] at hc
          rcases hc with hc | hc | hc
          · exact .inl ⟨p, by simp, hc⟩
          · exact .inr hc
          · rcases ih hc with ⟨r, hr, hcr⟩ | hsep
            · exact .inl ⟨r, by simp [hr], hcr⟩
            · exact .inr hsep

theorem splitAtChar_join {sep : Char} {parts : List Text} (hne : parts ≠ []) (hsep : ∀ p ∈ parts, sep ∉ p) :
    splitAtChar sep (join [sep] parts) = parts := by
  induction parts with
  | nil => exact absurd rfl hne
  | cons p rest ih =>
      have hp := splitAtChar_of_not_mem (hsep p (by simp))
      cases rest with
      | nil => rwa [join_singleton]
      | cons q qs =>
          rw [join_cons_cons, List.singleton_append, splitAtChar_append, hp,
            ih (by simp) fun r hr => hsep r (by simp [hr])]
          rfl

/-- Pieces that are joined are told apart again. No pieces at all are joined to what an empty one is. -/
theorem splitAtChar_join_eq {sep : Char} {parts : List Text} (hsep : ∀ p ∈ parts, sep ∉ p) :
    splitAtChar sep (join [sep] parts) = if parts = [] then [[]] else parts := by
  split
  · next hparts =>
      rw [hparts]
      rfl
  · next hparts => exact splitAtChar_join hparts hsep

theorem join_splitAtChar (sep : Char) (s : Text) : join [sep] (splitAtChar sep s) = s := by
  induction s with
  | nil => rfl
  | cons c r ih =>
      obtain ⟨p, ps, hr⟩ := List.exists_cons_of_ne_nil (splitAtChar_ne_nil sep r)
      rw [hr] at ih
      rw [splitAtChar, hr]
      split
      · next hc => rw [join_cons_cons, ih, hc, List.nil_append, List.singleton_append]
      · rw [consHead, ← ih]
        cases ps with
        | nil => rw [join_singleton, join_singleton]
        | cons q qs => rw [join_cons_cons, join_cons_cons, List.cons_append]

theorem splitOn_singleton (sep : Char) (s : Text) : splitOn [sep] s = splitAtChar sep s := by
  rw [splitOn]
  induction s with
  | nil => rfl
  | cons c r ih =>
      rw [splitOnFrom, splitAtChar, ih]
      by_cases hc : c = sep
      · simp [hc, ih]
      · simp [hc, Ne.symm hc]

theorem splitAtChar_concat {sep c : Char} (hc : c ≠ sep) {s last : Text} {front : List Text}
    (h : splitAtChar sep s = front ++ [last]) : splitAtChar sep (s ++ [c]) = front ++ [last ++ [c]] := by
  induction s generalizing front last with
  | nil =>
      obtain ⟨rfl, rfl⟩ : front = [] ∧ last = [] := by
        cases front with
        | nil => simpa [splitAtChar, eq_comm] using h
        | cons p ps => simp [splitAtChar] at h
      simp [splitAtChar, hc, consHead]
  | cons d s ih =>
      rw [splitAtChar] at h
      rw [List.cons_append, splitAtChar]
      obtain ⟨front', last', h'⟩ : ∃ f l, splitAtChar sep s = f ++ [l] :=
        (List.eq_nil_or_concat' _).resolve_left (splitAtChar_ne_nil sep s)
      rw [h'] at h
      rw [ih h']
      by_cases hd : d = sep
      · rw [if_pos hd, ← List.cons_append] at h
        obtain ⟨hfront, hlast⟩ := List.append_inj' h rfl
        rw [if_pos hd, ← hfront, List.singleton_inj.mp hlast, List.cons_append]
      · rw [if_neg hd] at h
        rw [if_neg hd]
        cases front' with
        | nil =>
            have heq : [] ++ [d :: last'] = front ++ [last] := h
            obtain ⟨rfl, hlast⟩ := List.append_inj' heq rfl
            rw [← List.singleton_inj.mp hlast]
            rfl
        | cons p ps =>
            have heq : (d :: p) :: ps ++ [last'] = front ++ [last] := h
            obtain ⟨rfl, hlast⟩ := List.append_inj' heq rfl
            rw [← List.singleton_inj.mp hlast]
            rfl

theorem not_mem_of_mem_splitAtChar {sep : Char} {s p : Text} (hp : p ∈ splitAtChar sep s) : sep ∉ p := by
  induction s generalizing p with
  | nil =>
      rw [splitAtChar, List.mem_singleton] at hp
      simp [hp]
  | cons c r ih =>
      rw [splitAtChar] at hp
      split at hp
      · rcases List.mem_cons.mp hp with rfl | hp
        · simp
        · exact ih hp
      · next hc =>
          cases h : splitAtChar sep r with
          | nil => exact absurd h (splitAtChar_ne_nil sep r)
          | cons q qs =>
              rw [h] at ih
              rw [h, consHead] at hp
              rcases List.mem_cons.mp hp with rfl | hp
              · rw [List.mem_cons]
                rintro (heq | hq)
                · exact hc heq.symm
                · exact ih (by simp) hq
              · exact ih (by simp [hp])

theorem mem_of_mem_splitAtChar {sep : Char} {s p : Text} (hp : p ∈ splitAtChar sep s) {c : Char} (hc : c ∈ p) :
    c ∈ s := by
  induction s generalizing p with
  | nil =>
      rw [splitAtChar, List.mem_singleton] at hp
      simp [hp] at hc
  | cons d r ih =>
      rw [splitAtChar] at hp
      split at hp
      · rcases List.mem_cons.mp hp with rfl | hp
        · simp at hc
        · exact .tail _ (ih hp hc)
      · cases h : splitAtChar sep r with
        | nil => exact absurd h (splitAtChar_ne_nil sep r)
        | cons q qs =>
            rw [h] at ih
            rw [h, consHead] at hp
            rcases List.mem_cons.mp hp with rfl | hp
            · rcases List.mem_cons.mp hc with rfl | hc
              · exact List.mem_cons_self
              · exact .tail _ (ih (by simp) hc)
            · exact .tail _ (ih (by simp [hp]) hc)

/-! ## Visible lines -/

/-- The lines of a text, trimmed, without the blank ones. -/
def visibleLines (s : Text) : List Text := ((lines s).map trim).filter fun line => !line.isEmpty

theorem isBlank_newline : isBlank '\n' := by decide

theorem visibleLines_append (s t : Text) : visibleLines (s ++ '\n' :: t) = visibleLines s ++ visibleLines t := by
  rw [visibleLines, lines, splitAtChar_append, List.map_append, List.filter_append]
  rfl

theorem visibleLines_cons_of_blank {c : Char} (hc : isBlank c) (s : Text) :
    visibleLines (c :: s) = visibleLines s := by
  rw [visibleLines, visibleLines, lines, lines, splitAtChar]
  split
  · simp [trim, trimStart, trimEnd]
  · cases h : splitAtChar '\n' s with
    | nil => exact absurd h (splitAtChar_ne_nil _ s)
    | cons p ps => rw [consHead, List.map_cons, trim_cons_of_blank hc, List.map_cons]

theorem visibleLines_concat_of_blank (s : Text) {c : Char} (hc : isBlank c) :
    visibleLines (s ++ [c]) = visibleLines s := by
  by_cases hnewline : c = '\n'
  · rw [hnewline, visibleLines_append]
    simp [visibleLines, lines, splitAtChar, trim, trimStart, trimEnd]
  · obtain ⟨front, last, h⟩ : ∃ f l, splitAtChar '\n' s = f ++ [l] :=
      (List.eq_nil_or_concat' _).resolve_left (splitAtChar_ne_nil _ s)
    rw [visibleLines, visibleLines, lines, lines, splitAtChar_concat hnewline h, h, List.map_append, List.map_append,
      List.map_singleton, List.map_singleton, trim_concat_of_blank last hc]

theorem visibleLines_trim (s : Text) : visibleLines (trim s) = visibleLines s := by
  obtain ⟨before, behind, heq, hbefore, hbehind⟩ := exists_blanks_trim s
  have hend : ∀ t : Text, visibleLines (t ++ behind) = visibleLines t := by
    clear heq
    induction behind using List.reverseRecOn with
    | nil => simp
    | append_singleton behind c ih =>
        intro t
        rw [← List.append_assoc, visibleLines_concat_of_blank _ (hbehind c (by simp)),
          ih (fun d hd => hbehind d (by simp [hd])) t]
  have hstart : ∀ t : Text, visibleLines (before ++ t) = visibleLines t := by
    clear heq
    induction before with
    | nil => simp
    | cons c before ih =>
        intro t
        rw [List.cons_append, visibleLines_cons_of_blank (hbefore c (by simp)),
          ih (fun d hd => hbefore d (by simp [hd])) t]
  conv_rhs => rw [heq]
  rw [hend, hstart]

/-- A text that is trimmed, is not empty and stays on one line. -/
structure IsVisibleLine (line : Text) : Prop where
  trim_eq : trim line = line
  ne_nil : line ≠ []
  on_one_line : '\n' ∉ line

theorem isVisibleLine_of_mem {s line : Text} (h : line ∈ visibleLines s) : IsVisibleLine line := by
  rw [visibleLines, List.mem_filter, List.mem_map] at h
  obtain ⟨⟨piece, hpiece, rfl⟩, hne⟩ := h
  refine ⟨trim_trim piece, by simpa using hne, fun hmem => ?_⟩
  exact not_mem_of_mem_splitAtChar hpiece (mem_of_mem_trim hmem)

theorem visibleLines_join {parts : List Text} (h : ∀ p ∈ parts, IsVisibleLine p) :
    visibleLines (join ['\n'] parts) = parts := by
  cases hparts : parts with
  | nil => rfl
  | cons p rest =>
      rw [← hparts]
      have hne : parts ≠ [] := by simp [hparts]
      have htrim : parts.map trim = parts := by
        conv_rhs => rw [← List.map_id parts]
        exact List.map_congr_left fun q hq => (h q hq).trim_eq
      rw [visibleLines, lines, splitAtChar_join hne fun q hq => (h q hq).on_one_line, htrim, List.filter_eq_self]
      exact fun q hq => by simpa using (h q hq).ne_nil

end Text

/-! ## The lines of a template -/

def lineEntry (marker line : Text) : Text × Nat :=
  (Text.trimStart (line.drop (depthOf marker line)), depthOf marker line)

theorem ofPiece?_of_isVisibleLine {line : Text} (h : Text.IsVisibleLine line) (marker : Text) (number : Nat) :
    Line.ofPiece? marker number line =
      some ⟨number, (lineEntry marker line).2, line, (lineEntry marker line).1⟩ := by
  have hne : line.isEmpty = false := by simpa using h.ne_nil
  simp only [Line.ofPiece?, h.trim_eq, hne, Bool.false_eq_true, if_false, lineEntry]

theorem templateLines_of_isVisibleLine {line : Text} (h : Text.IsVisibleLine line) (marker : Text) :
    templateLines marker line = [⟨1, (lineEntry marker line).2, line, (lineEntry marker line).1⟩] := by
  rw [templateLines, Text.lines, Text.splitAtChar_of_not_mem h.on_one_line, linesFrom,
    ofPiece?_of_isVisibleLine h marker 1]
  rfl

theorem map_linesFrom (marker : Text) (number : Nat) (pieces : List Text) :
    (linesFrom marker number pieces).map (fun l => (l.descriptor, l.depth)) =
      ((pieces.map Text.trim).filter fun line => !line.isEmpty).map (lineEntry marker) := by
  induction pieces generalizing number with
  | nil => rfl
  | cons piece rest ih =>
      rw [linesFrom, Line.ofPiece?, List.map_cons]
      by_cases h : piece.trim.isEmpty
      · simp only [h, if_true]
        rw [ih, List.filter_cons_of_neg (by simp [h])]
      · simp only [h, Bool.false_eq_true, if_false]
        rw [List.map_cons, ih, List.filter_cons_of_pos (by simp [h]), List.map_cons, lineEntry]

/-- The descriptors and the depths of a template are those of its visible lines. -/
theorem map_templateLines (marker template : Text) :
    (templateLines marker template).map (fun l => (l.descriptor, l.depth)) =
      template.visibleLines.map (lineEntry marker) :=
  map_linesFrom marker 1 _

theorem templateLines_of_blank {template : Text} (h : template.trim = []) (marker : Text) :
    templateLines marker template = [] := by
  have hlines := map_templateLines marker template
  rw [← Text.visibleLines_trim, h] at hlines
  exact List.map_eq_nil_iff.mp hlines

theorem linesFrom_eq_filterMap (marker : Text) (number : Nat) (pieces : List Text) :
    linesFrom marker number pieces = (pieces.zipIdx number).filterMap fun p => Line.ofPiece? marker p.2 p.1 := by
  induction pieces generalizing number with
  | nil => rfl
  | cons piece rest ih =>
      rw [linesFrom, ih, List.zipIdx_cons, List.filterMap_cons]
      cases Line.ofPiece? marker number piece <;> rfl

theorem linesFrom_append (marker : Text) (number : Nat) (front rest : List Text) :
    linesFrom marker number (front ++ rest) =
      linesFrom marker number front ++ linesFrom marker (number + front.length) rest := by
  rw [linesFrom_eq_filterMap, linesFrom_eq_filterMap, linesFrom_eq_filterMap, List.zipIdx_append,
    List.filterMap_append]

theorem templateLines_append (marker s t : Text) :
    templateLines marker (s ++ '\n' :: t) =
      templateLines marker s ++ linesFrom marker (1 + s.lines.length) t.lines := by
  rw [templateLines, templateLines, Text.lines, Text.splitAtChar_append, linesFrom_append]
  rfl

theorem of_ofPiece? {marker piece : Text} {number : Nat} {l : Line}
    (h : Line.ofPiece? marker number piece = some l) : l.number = number ∧ l.raw = piece.trim := by
  rw [Line.ofPiece?] at h
  split at h
  · simp at h
  · rw [← Option.some.inj h]
    exact ⟨rfl, rfl⟩

theorem mem_linesFrom_iff {marker : Text} {number : Nat} {pieces : List Text} {l : Line} :
    l ∈ linesFrom marker number pieces ↔
      ∃ i piece, pieces[i]? = some piece ∧ Line.ofPiece? marker (number + i) piece = some l := by
  rw [linesFrom_eq_filterMap, List.mem_filterMap]
  constructor
  · rintro ⟨⟨piece, n⟩, hmem, hl⟩
    obtain ⟨hle, hpiece⟩ := List.mk_mem_zipIdx_iff_le_and_getElem?_sub.mp hmem
    exact ⟨n - number, piece, hpiece, by rwa [Nat.add_sub_of_le hle]⟩
  · rintro ⟨i, piece, hpiece, hl⟩
    exact ⟨(piece, number + i), List.mk_add_mem_zipIdx_iff_getElem?.mpr hpiece, hl⟩

theorem le_number_of_mem_linesFrom {marker : Text} {number : Nat} {pieces : List Text} {l : Line}
    (h : l ∈ linesFrom marker number pieces) : number ≤ l.number := by
  obtain ⟨i, piece, -, hl⟩ := mem_linesFrom_iff.mp h
  rw [(of_ofPiece? hl).1]
  exact Nat.le_add_right number i

/-- A line is a trimmed piece of the template, and its number is the place of this piece. -/
theorem exists_piece_of_mem_linesFrom {marker : Text} {number : Nat} {pieces : List Text} {l : Line}
    (h : l ∈ linesFrom marker number pieces) :
    ∃ i piece, l.number = number + i ∧ pieces[i]? = some piece ∧ l.raw = piece.trim := by
  obtain ⟨i, piece, hpiece, hl⟩ := mem_linesFrom_iff.mp h
  obtain ⟨hnumber, hraw⟩ := of_ofPiece? hl
  exact ⟨i, piece, hnumber, hpiece, hraw⟩

theorem linesFrom_pairwise (marker : Text) (number : Nat) (pieces : List Text) :
    (linesFrom marker number pieces).Pairwise fun k l => k.number < l.number := by
  induction pieces generalizing number with
  | nil => exact .nil
  | cons piece rest ih =>
      rw [linesFrom]
      split
      · next line hline =>
          refine .cons (fun l hl => ?_) (ih (number + 1))
          rw [(of_ofPiece? hline).1]
          exact le_number_of_mem_linesFrom hl
      · exact ih (number + 1)

/-- The lines of a template are pairwise different, as their numbers are. -/
theorem templateLines_nodup (marker template : Text) : (templateLines marker template).Nodup :=
  (linesFrom_pairwise marker 1 _).imp fun hlt heq => absurd (heq ▸ hlt) (Nat.lt_irrefl _)

/-! ## Re-indenting -/

theorem depthOf_replicate_append (c : Char) (levels : Nat) (line : Text) :
    depthOf [c] (List.replicate levels c ++ line) = depthOf [c] line + levels := by
  induction levels with
  | zero => simp
  | succ levels ih =>
      rw [List.replicate_succ, List.cons_append, depthOf, List.takeWhile_cons_of_pos (by simp), List.length_cons,
        ← depthOf, ih, Nat.add_assoc]

theorem lineEntry_replicate_append (c : Char) (levels : Nat) (line : Text) :
    lineEntry [c] (List.replicate levels c ++ line) =
      ((lineEntry [c] line).1, (lineEntry [c] line).2 + levels) := by
  rw [lineEntry, depthOf_replicate_append, lineEntry, Nat.add_comm (depthOf [c] line) levels]
  simp [List.drop_append]

theorem Text.IsVisibleLine.replicate_append {c : Char} {line : Text} (hc : ¬ isBlank c) (levels : Nat)
    (h : Text.IsVisibleLine line) : Text.IsVisibleLine (List.replicate levels c ++ line) := by
  refine ⟨Text.trim_eq_self (fun d hd => ?_) (fun d hd => ?_), by simp [h.ne_nil], ?_⟩
  · cases levels with
    | zero => exact Text.head?_trim (by rwa [h.trim_eq])
    | succ levels =>
        rw [List.replicate_succ, List.cons_append, List.head?_cons, Option.some.injEq] at hd
        exact hd ▸ hc
  · rw [List.getLast?_append_of_ne_nil _ h.ne_nil] at hd
    exact Text.getLast?_trim (by rwa [h.trim_eq])
  · rw [List.mem_append]
    rintro (hmem | hmem)
    · exact hc (List.eq_of_mem_replicate hmem ▸ Text.isBlank_newline)
    · exact h.on_one_line hmem

theorem reindent_eq (c : Char) {levels : Nat} (h : levels ≠ 0) (template : Text) :
    reindent [c] levels template =
      Text.trim (Text.join ['\n'] (template.visibleLines.map (List.replicate levels c ++ ·))) := by
  rw [reindent, if_neg h, List.flatten_replicate_singleton, ← Text.visibleLines, Text.visibleLines_trim]

theorem visibleLines_reindent {c : Char} (hc : ¬ isBlank c) (levels : Nat) (template : Text) :
    (reindent [c] levels template).visibleLines = template.visibleLines.map (List.replicate levels c ++ ·) := by
  have hvisible : ∀ p ∈ template.visibleLines.map (List.replicate levels c ++ ·), Text.IsVisibleLine p := by
    intro p hp
    obtain ⟨line, hline, rfl⟩ := List.mem_map.mp hp
    exact (Text.isVisibleLine_of_mem hline).replicate_append hc levels
  by_cases h : levels = 0
  · simp [reindent, h, Text.visibleLines_trim]
  · rw [reindent_eq c h, Text.visibleLines_trim, Text.visibleLines_join hvisible]

/-- Re-indenting a template leaves its descriptors as they are and makes all its lines so many levels deeper. -/
theorem map_linesFrom_reindent {c : Char} (hc : ¬ isBlank c) (number levels : Nat) (template : Text) :
    (linesFrom [c] number (reindent [c] levels template).lines).map (fun l => (l.descriptor, l.depth)) =
      (templateLines [c] template).map fun l => (l.descriptor, l.depth + levels) := by
  have hentries := congrArg (List.map fun e : Text × Nat => (e.1, e.2 + levels)) (map_templateLines [c] template)
  rw [List.map_map, List.map_map] at hentries
  rw [map_linesFrom, ← Text.visibleLines, visibleLines_reindent hc, List.map_map]
  refine Eq.trans (List.map_congr_left fun line _ => ?_) hentries.symm
  exact lineEntry_replicate_append c levels line

/-- A template that is re-indented and put below another one adds lines with its own descriptors, so many
levels deeper. -/
theorem map_templateLines_append_reindent {c : Char} (hc : ¬ isBlank c) (levels : Nat) (host body : Text) :
    ∃ lines, templateLines [c] (host ++ '\n' :: reindent [c] levels body) = templateLines [c] host ++ lines ∧
      lines.map (fun l => (l.descriptor, l.depth)) =
        (templateLines [c] body).map fun l => (l.descriptor, l.depth + levels) :=
  ⟨_, templateLines_append [c] host _, map_linesFrom_reindent hc _ levels body⟩

theorem exists_of_mem_moved {levels : Nat} {moved lines : List Line}
    (hmoved : moved.map (fun l => (l.descriptor, l.depth)) = lines.map fun l => (l.descriptor, l.depth + levels))
    {l : Line} (hl : l ∈ moved) : ∃ k ∈ lines, k.descriptor = l.descriptor ∧ k.depth + levels = l.depth := by
  have hmem : (l.descriptor, l.depth) ∈ moved.map fun l => (l.descriptor, l.depth) := List.mem_map_of_mem hl
  rw [hmoved] at hmem
  obtain ⟨k, hk, heq⟩ := List.mem_map.mp hmem
  exact ⟨k, hk, Prod.mk.inj heq⟩

end IndentMarkup
