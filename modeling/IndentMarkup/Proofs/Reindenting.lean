import IndentMarkup.Proofs.Splicing

/-!
# Templates that are moved twice

To move a template by some levels and then by some more is to move it by all of them at once
(`reindent_reindent`). This holds although a template that is moved by no level is only trimmed, while a template
that is moved loses its blank lines and the white space around its lines: what counts of a template are its visible
lines, and they are the same for the trimmed template. As the first character of a moved line is its marker, nothing
is trimmed off when it is moved again.
-/

namespace IndentMarkup

theorem trim_reindent (marker : Text) (levels : Nat) (template : Text) :
    (reindent marker levels template).trim = reindent marker levels template := by
  rw [reindent]
  split <;> exact Text.trim_trim _

theorem reindent_reindent {c : Char} (hc : ¬ isBlank c) (levels more : Nat) (template : Text) :
    reindent [c] more (reindent [c] levels template) = reindent [c] (levels + more) template := by
  by_cases h : more = 0
  · rw [h, Nat.add_zero, reindent, if_pos rfl, trim_reindent]
  · have hmarkers : ∀ line : Text, List.replicate more c ++ (List.replicate levels c ++ line) =
        List.replicate (levels + more) c ++ line := by
      intro line
      rw [← List.append_assoc, List.replicate_append_replicate, Nat.add_comm]
    have hmoved : levels + more ≠ 0 := by omega
    rw [reindent_eq c h, visibleLines_reindent hc, List.map_map, reindent_eq c hmoved]
    exact congrArg (Text.trim <| Text.join ['\n'] ·) (List.map_congr_left fun line _ => hmarkers line)

namespace Builder

theorem reindent_natCast (b : Builder) (template : Text) (levels : Nat) :
    b.reindent template levels = .ok (IndentMarkup.reindent b.marker levels template) := by
  rw [reindent, if_neg (Int.not_lt.mpr (Int.natCast_nonneg levels)), Int.toNat_natCast]

/-- Re-indenting adds up, and it is a shift: the lines of the template that is moved have the descriptors of the
template in their order, each so many levels deeper. -/
theorem reindent_isShift (b : Builder) (hmarker : checkMarker b.marker = .ok b.marker) (template : Text)
    (levels more : Nat) :
    ∃ moved further, b.reindent template levels = .ok moved ∧ b.reindent moved more = .ok further ∧
      b.reindent template (levels + more : Nat) = .ok further ∧
      (templateLines b.marker moved).map (fun l => (l.descriptor, l.depth)) =
        (templateLines b.marker template).map fun l => (l.descriptor, l.depth + levels) := by
  obtain ⟨c, hc, hvisible⟩ := exists_of_checkMarker hmarker
  refine ⟨_, _, b.reindent_natCast template levels, b.reindent_natCast _ more, ?_, ?_⟩
  · rw [b.reindent_natCast, hc, reindent_reindent hvisible]
  · rw [hc]
    exact map_linesFrom_reindent hvisible 1 levels template

/-- A template with blank lines, with white space around its lines and between its markers, which is moved by two
levels at once or one after the other. -/
theorem reindent_isShift_blanks :
    let template := "\n\t div(a)\n \n>  > p (b)\x0b\n".toList
    ∃ moved further, (new 0 Node.ofTag).reindent template (1 : Nat) = .ok moved ∧
      (new 0 Node.ofTag).reindent moved (1 : Nat) = .ok further ∧
      (new 0 Node.ofTag).reindent template (2 : Nat) = .ok further ∧ further = ">>div(a)\n>>>  > p (b)".toList ∧
      (templateLines defaultMarker moved).map (fun l => (l.descriptor, l.depth)) =
        [("div(a)".toList, 1), ("> p (b)".toList, 2)] := by
  intro template
  obtain ⟨moved, further, hmoved, hfurther, hsum, hlines⟩ := (new 0 Node.ofTag).reindent_isShift rfl template 1 1
  have hboth : (new 0 Node.ofTag).reindent template (2 : Nat) = .ok ">>div(a)\n>>>  > p (b)".toList := by
    decide +kernel
  have hentries : (templateLines defaultMarker template).map (fun l => (l.descriptor, l.depth + 1)) =
      [("div(a)".toList, 1), ("> p (b)".toList, 2)] := by
    decide +kernel
  exact ⟨moved, further, hmoved, hfurther, hsum, Except.ok.inj (hsum.symm.trans hboth), hlines.trans hentries⟩

end Builder

end IndentMarkup
