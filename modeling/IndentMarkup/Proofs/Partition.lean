import IndentMarkup.Proofs.Splicing

/-!
# From a template to lines and blocks

No text gets lost on the way from a template to its blocks, and none is made up (`templateLines_isLossless`). The pieces
between line feeds that are not blank are the lines, each with its place and its text (`AreLinesOf`). The text of a line
falls into its markers, blanks and its descriptor (`Line.IsDivided`). Apart from the nested lines in front of the first
top-level line, the blocks are the lines one after another (`AreBlocksOf`).
-/

namespace IndentMarkup

/-! ## Lines and pieces -/

/-- The text of a line is as many markers as it is deep, blanks, and the descriptor. There is no further marker behind
these markers, and no blank at either end of the descriptor. -/
structure Line.IsDivided (marker : Text) (l : Line) : Prop where
  exists_blanks : ∃ blanks : Text, (∀ c ∈ blanks, isBlank c) ∧
    l.raw = (List.replicate l.depth marker).flatten ++ (blanks ++ l.descriptor) ∧
    ¬ marker <+: blanks ++ l.descriptor
  head_visible : ∀ c, l.descriptor.head? = some c → ¬ isBlank c
  last_visible : ∀ c, l.descriptor.getLast? = some c → ¬ isBlank c

structure AreLinesOf (marker template : Text) (lines : List Line) : Prop where
  /-- There is a line for each piece between line feeds that is not blank, in the order of the pieces. It has the place
  of the piece, counted from one, and the trimmed text of the piece. -/
  exists_pieces : ∃ pieces : List Text, Text.join ['\n'] pieces = template ∧ (∀ p ∈ pieces, '\n' ∉ p) ∧
    lines.map (fun l => (l.number, l.raw)) =
      ((pieces.zipIdx 1).filter fun p => !p.1.all isBlank).map fun p => (p.2, p.1.trim)
  isDivided : ∀ l ∈ lines, l.IsDivided marker

theorem map_ofPiece? (marker : Text) (number : Nat) (piece : Text) :
    (Line.ofPiece? marker number piece).map (fun l => (l.number, l.raw)) =
      if piece.all isBlank then none else some (number, piece.trim) := by
  rw [Line.ofPiece?, ← Text.isEmpty_trim]
  split <;> rfl

theorem map_number_raw_linesFrom (marker : Text) (number : Nat) (pieces : List Text) :
    (linesFrom marker number pieces).map (fun l => (l.number, l.raw)) =
      ((pieces.zipIdx number).filter fun p => !p.1.all isBlank).map fun p => (p.2, p.1.trim) := by
  rw [linesFrom_eq_filterMap, List.map_filterMap, ← List.filterMap_eq_map, List.filterMap_filter]
  refine List.filterMap_congr fun p _ => ?_
  rw [map_ofPiece?]
  cases p.1.all isBlank <;> rfl

theorem drop_depthOf (marker line : Text) :
    line.drop (depthOf marker line) = line.dropWhile fun c => marker = [c] := by
  calc line.drop (depthOf marker line)
      = ((line.takeWhile fun c => marker = [c]) ++ line.dropWhile fun c => marker = [c]).drop (depthOf marker line) := by
        rw [List.takeWhile_append_dropWhile]
    _ = line.dropWhile fun c => marker = [c] := List.drop_left

theorem replicate_depthOf_append (c : Char) (line : Text) :
    List.replicate (depthOf [c] line) c ++ line.drop (depthOf [c] line) = line := by
  have hmarkers : (line.takeWhile fun d => [c] = [d]) = List.replicate (depthOf [c] line) c := by
    refine List.eq_replicate_of_mem fun d hd => ?_
    have hcd := List.mem_takeWhile_imp hd
    simpa [eq_comm] using hcd
  rw [drop_depthOf, ← hmarkers, List.takeWhile_append_dropWhile]

theorem not_isPrefix_drop_depthOf (c : Char) (line : Text) : ¬ [c] <+: line.drop (depthOf [c] line) := by
  rintro ⟨rest, hrest⟩
  have hfirst := List.head?_dropWhile_not (fun d => decide ([c] = [d])) line
  rw [← drop_depthOf, ← hrest] at hfirst
  simp at hfirst

/-- A trimmed text is divided by its markers. Its descriptor ends visibly, as it is an end of this text. -/
theorem isDivided_of_trim_eq (c : Char) (number : Nat) {line : Text} (h : line.trim = line) :
    Line.IsDivided [c] ⟨number, depthOf [c] line, line, Text.trimStart (line.drop (depthOf [c] line))⟩ := by
  have hmarkers := replicate_depthOf_append c line
  have hblanks : (line.drop (depthOf [c] line)).takeWhile isBlank ++
      Text.trimStart (line.drop (depthOf [c] line)) = line.drop (depthOf [c] line) :=
    List.takeWhile_append_dropWhile
  refine ⟨⟨(line.drop (depthOf [c] line)).takeWhile isBlank, fun d hd => List.mem_takeWhile_imp hd, ?_, ?_⟩,
    fun d hd => Text.head?_trimStart hd, fun d hd => ?_⟩
  · rw [hblanks, List.flatten_replicate_singleton, hmarkers]
  · rw [hblanks]
    exact not_isPrefix_drop_depthOf c line
  · have hlast : line.getLast? = some d := by
      rw [← hmarkers, ← hblanks, List.getLast?_append, List.getLast?_append, hd]
      rfl
    exact Text.getLast?_trim (h.symm ▸ hlast)

theorem isDivided_of_ofPiece? {c : Char} {number : Nat} {piece : Text} {l : Line}
    (h : Line.ofPiece? [c] number piece = some l) : l.IsDivided [c] := by
  rw [Line.ofPiece?] at h
  split at h
  · simp at h
  · exact Option.some.inj h ▸ isDivided_of_trim_eq c number (Text.trim_trim piece)

theorem areLinesOf_templateLines (c : Char) (template : Text) :
    AreLinesOf [c] template (templateLines [c] template) := by
  refine ⟨⟨template.lines, Text.join_splitAtChar '\n' template, fun p hp => Text.not_mem_of_mem_splitAtChar hp,
    map_number_raw_linesFrom [c] 1 template.lines⟩, fun l hl => ?_⟩
  obtain ⟨_, _, -, hpiece⟩ := mem_linesFrom_iff.mp hl
  exact isDivided_of_ofPiece? hpiece

/-! ## Blocks and lines -/

structure AreBlocksOf (lines : List Line) (blocks : List Block) : Prop where
  /-- The blocks are the lines, without the nested lines in front of the first top-level line. -/
  flatMap_lines : (blocks.flatMap fun b => b.root :: b.children) = lines.dropWhile fun l => 0 < l.depth
  root_depth : ∀ b ∈ blocks, b.root.depth = 0
  children_depth : ∀ b ∈ blocks, ∀ l ∈ b.children, 1 ≤ l.depth

theorem flatMap_lines_splitBlocks (lines : List Line) :
    (splitBlocks lines).2.flatMap Block.lines = lines.dropWhile fun l => 0 < l.depth := by
  induction lines with
  | nil => rfl
  | cons l rest ih =>
      by_cases hl : l.depth = 0
      · have hlines := splitBlocks_lines (l :: rest)
        rw [splitBlocks_cons_zero hl, List.nil_append] at hlines
        rw [splitBlocks_cons_zero hl, hlines, List.dropWhile_cons_of_neg (by simp [hl])]
      · rw [splitBlocks_cons_ne_zero hl, ih, List.dropWhile_cons_of_pos (by simpa using Nat.pos_of_ne_zero hl)]

theorem areBlocksOf_splitBlocks (lines : List Line) : AreBlocksOf lines (splitBlocks lines).2 where
  flatMap_lines := flatMap_lines_splitBlocks lines
  root_depth _ hb := (block_depths hb).1
  children_depth _ hb l hl := Nat.one_le_iff_ne_zero.mpr ((block_depths hb).2 l hl)

/-! ## The main result -/

/-- The lines of a template are its pieces that are not blank, and its blocks are these lines without the nested ones in
front of the first block. -/
theorem templateLines_isLossless {marker : Text} (hmarker : checkMarker marker = .ok marker) (template : Text) :
    AreLinesOf marker template (templateLines marker template) ∧
      AreBlocksOf (templateLines marker template) (blocksOf marker template) := by
  obtain ⟨c, rfl, -⟩ := exists_of_checkMarker hmarker
  exact ⟨areLinesOf_templateLines c template, areBlocksOf_splitBlocks _⟩

/-- A template with a nested line in front of its first block, with blank lines, with blanks around its lines and behind
its markers, and with a line of nothing but markers. -/
theorem templateLines_isLossless_blanks :
    let template := ">a\n\t \n div \x0b\n>\u00a0>p (b)\n\n>>\n".toList
    checkMarker defaultMarker = .ok defaultMarker ∧
      AreLinesOf defaultMarker template (templateLines defaultMarker template) ∧
      AreBlocksOf (templateLines defaultMarker template) (blocksOf defaultMarker template) ∧
      templateLines defaultMarker template =
        [⟨1, 1, ">a".toList, "a".toList⟩, ⟨3, 0, "div".toList, "div".toList⟩,
          ⟨4, 1, ">\u00a0>p (b)".toList, ">p (b)".toList⟩, ⟨6, 2, ">>".toList, []⟩] ∧
      (blocksOf defaultMarker template).map (fun b => (b.root.number, b.children.map (·.number))) = [(3, [4, 6])] := by
  intro template
  have hmarker : checkMarker defaultMarker = .ok defaultMarker := rfl
  obtain ⟨hlines, hblocks⟩ := templateLines_isLossless hmarker template
  exact ⟨hmarker, hlines, hblocks, by decide +kernel, by decide +kernel⟩

end IndentMarkup
