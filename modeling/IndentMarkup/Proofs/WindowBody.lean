import IndentMarkup.Proofs.Building

/-!
# Whether the body stays in the body of a window

The lines of the body look for their parents among all lines in front of them, those of the chrome included. So the
body is kept together below its element only if each of its lines finds its parent before the search leaves the body
(`Window.keepsBody_iff`). A body that starts with a nested line, or that skips a level, puts elements below the bar,
the title or the buttons.
-/

namespace IndentMarkup

namespace Window

/-- The elements of the body are below the body element, and what is above it in the window has no children besides
those of the chrome. -/
structure KeepsBody (d : Document) (place : Line → Ref) (bodyLines : List Line) : Prop where
  below : ∀ l ∈ bodyLines, Relation.TransGen (fun x y => y ∈ d.children x) (place Chrome.body) (place l)
  chrome_children : ∀ k ∈ Chrome.upper, ∀ x ∈ d.children (place k), ∃ c ∈ Chrome.upper, place c = x

section

variable {d : Document} {content : Line → Node} {key : Text} {bodyLines : List Line} {place : Line → Ref}

theorem layout_block (key : Text) (bodyLines : List Line) :
    (Chrome.block key bodyLines).layout = Rose.assemble (Chrome.window key)
      (Chrome.upper.map (fun l => (l, l.depth)) ++ (Chrome.body, 1) :: bodyLines.map fun l => (l, l.depth)) := by
  rw [Block.layout, Chrome.block, List.map_append, List.map_cons]
  rfl

theorem lines_block_nodup (h : d.Shows content [Chrome.block key bodyLines] place) :
    (Chrome.window key :: (Chrome.upper ++ Chrome.body :: bodyLines)).Nodup := by
  have hdistinct := h.distinct.of_map
  rwa [List.flatMap_singleton] at hdistinct

theorem entries_block_nodup (h : d.Shows content [Chrome.block key bodyLines] place) :
    (Chrome.window key :: (Chrome.upper.map (fun l => (l, l.depth)) ++
      (Chrome.body, 1) :: bodyLines.map fun l => (l, l.depth)).map Prod.fst).Nodup := by
  have hlabels : (Chrome.upper.map (fun l => (l, l.depth)) ++
      (Chrome.body, 1) :: bodyLines.map fun l => (l, l.depth)).map Prod.fst =
      Chrome.upper ++ Chrome.body :: bodyLines := by
    simp [Function.comp_def]
  rw [hlabels]
  exact lines_block_nodup h

theorem chrome_children_of_supported (h : d.Shows content [Chrome.block key bodyLines] place) {depths : List Nat}
    (hdepths : (bodyLines.map fun l => (l, l.depth)).map Prod.snd = depths.map (· + 1))
    (hsupported : Supported depths) :
    ∀ k ∈ Chrome.upper, ∀ x ∈ d.children (place k), ∃ c ∈ Chrome.upper, place c = x := by
  have hdistinct := entries_block_nodup h
  have hnodup := (List.nodup_cons.mp (lines_block_nodup h)).2
  have hnested : ∀ k ∈ Chrome.upper, k.depth ≠ 0 := by decide +kernel
  intro k hk x hx
  have hlines : k ∈ (Chrome.block key bodyLines).lines := .tail _ (List.mem_append_left _ hk)
  obtain ⟨l, -, hkl, rfl⟩ := (h.mem_children_iff (List.mem_singleton_self _) hlines).mp hx
  rw [layout_block] at hkl
  have hentry := Rose.mem_of_isChild hdistinct (List.mem_append_left _ (List.mem_map_of_mem hk)) hkl
  rcases List.mem_append.mp hentry with hl | hl
  · obtain ⟨c, hc, heq⟩ := List.mem_map.mp hl
    exact ⟨c, hc, congrArg place (Prod.mk.inj heq).1⟩
  · rcases List.mem_cons.mp hl with heq | hl
    · exact absurd (Nat.succ.inj (Prod.mk.inj heq).2) (hnested k hk)
    · -- a line of the body has its parent in the body, and no line of the chrome is there
      have hapart := (List.nodup_append.mp hnodup).2.2 k hk
      rcases Rose.mem_behind_of_isChild hdistinct hdepths hsupported hl hkl with hk' | ⟨depth, hk'⟩
      · exact absurd hk' (hapart Chrome.body (.head _))
      · obtain ⟨l', hl', heq⟩ := List.mem_map.mp hk'
        exact absurd (Prod.mk.inj heq).1.symm (hapart l' (.tail _ hl'))

/-- A body is kept in its element exactly if its depths, counted from this element, are supported. -/
theorem keepsBody_iff (h : d.Shows content [Chrome.block key bodyLines] place) {depths : List Nat}
    (hdepths : (bodyLines.map fun l => (l, l.depth)).map Prod.snd = depths.map (· + 1)) :
    KeepsBody d place bodyLines ↔ Supported depths := by
  have hbelow := Rose.forall_transGen_isChild_iff (entries_block_nodup h) hdepths
  rw [← layout_block] at hbelow
  have hbody : Chrome.body ∈ (Chrome.block key bodyLines).lines := .tail _ (List.mem_append_right _ (.head _))
  have hlines : ∀ l ∈ bodyLines, l ∈ (Chrome.block key bodyLines).lines := fun l hl =>
    .tail _ (List.mem_append_right _ (.tail _ hl))
  constructor
  · intro hkeeps
    refine hbelow.mp fun e he => ?_
    obtain ⟨l, hl, rfl⟩ := List.mem_map.mp he
    exact (h.transGen_children_iff (List.mem_singleton_self _) hbody (hlines l hl)).mp (hkeeps.below l hl)
  · intro hsupported
    refine ⟨fun l hl => ?_, chrome_children_of_supported h hdepths hsupported⟩
    exact (h.transGen_children_iff (List.mem_singleton_self _) hbody (hlines l hl)).mpr
      (hbelow.mpr hsupported (l, l.depth) (List.mem_map.mpr ⟨l, hl, rfl⟩))

end

/-! ## The main result -/

/-- What becomes of the body of a window. A window is built into the lines of its template, those of the body behind
those of the chrome, and its elements show these lines. The elements of the body are below the body element, and the
bar, the title and the buttons are left alone, exactly if every line of the body is top-level or has an earlier line
of the body one level above it. -/
theorem build_keepsBody_iff (w : Window) (d : Document) (body : Text) (o : Rose Ref)
    (hseparator : w.builder.separator = defaultSeparator) (hmarker : w.builder.marker = defaultMarker)
    (hmake : w.builder.makeNode = Node.ofTag) (hkey : Chrome.IsKey w.key) (hparent : d.HasOutline w.parent o)
    (hfree : d.findById? w.parent (some w.key) = none) (hbuilt : (w.build d body).failure = none) :
    ∃ (bodyLines : List Line) (place : Line → Ref),
      blocksOf w.builder.marker (w.template body) = [Chrome.block w.key bodyLines] ∧
      bodyLines.map (·.descriptor) = (templateLines w.builder.marker body).map (·.descriptor) ∧
      (w.build d body).window.node = some (place (Chrome.window w.key)) ∧
      (w.build d body).document.Shows w.shown [Chrome.block w.key bodyLines] place ∧
      (KeepsBody (w.build d body).document place bodyLines ↔ IsGrounded (templateLines w.builder.marker body)) := by
  obtain ⟨bodyLines, place, hblocks, hmoved, hnode, hshows⟩ :=
    exists_shows_build hseparator hmarker hmake hkey hparent hfree hbuilt
  have hdescriptors := congrArg (List.map Prod.fst) hmoved
  rw [List.map_map, List.map_map] at hdescriptors
  have hdepths : (bodyLines.map fun l => (l, l.depth)).map Prod.snd =
      ((templateLines defaultMarker body).map (·.depth + 1)).map (· + 1) := by
    have hsecond := congrArg (List.map Prod.snd) hmoved
    rw [List.map_map, List.map_map] at hsecond
    rw [List.map_map, List.map_map]
    exact hsecond
  rw [hmarker]
  refine ⟨bodyLines, place, hblocks, hdescriptors, hnode, hshows, ?_⟩
  rw [isGrounded_iff_supported]
  exact keepsBody_iff hshows hdepths

def plainWindow : Window where
  key := "windowkey-123456".toList
  title := "Window".toList
  width := .int 800
  height := .int 462
  minWidth := .int 300
  minHeight := .int 100
  parent := 0
  status := .normal
  node := none
  killed := false
  onMinify := none
  onExtension := none
  onClose := none
  onKill := none
  builder := { Builder.new 1 Node.ofTag with registry := Desk.buttonRegistry 0 }

/-- A document of two elements, the parent of the window and the first container of its builder. -/
def plainDocument : Document := ⟨[⟨Node.ofTag "body".toList, []⟩, ⟨Node.ofTag "body".toList, []⟩]⟩

/-- The body is a single nested line, and its element is not kept in the body. -/
theorem build_keepsBody_iff_nested :
    ∃ (bodyLines : List Line) (place : Line → Ref),
      blocksOf defaultMarker (plainWindow.template ">p".toList) = [Chrome.block plainWindow.key bodyLines] ∧
      bodyLines.map (·.descriptor) = ["p".toList] ∧
      (plainWindow.build plainDocument ">p".toList).document.Shows plainWindow.shown
        [Chrome.block plainWindow.key bodyLines] place ∧
      ¬ KeepsBody (plainWindow.build plainDocument ">p".toList).document place bodyLines := by
  have hparent : plainDocument.HasOutline 0 (.leaf 0) := ⟨rfl, .mk 0 [] rfl (by simp), by decide⟩
  have hbuilt : (plainWindow.build plainDocument ">p".toList).failure = none := by decide +kernel
  have hlines : templateLines defaultMarker ">p".toList = [⟨1, 1, ">p".toList, "p".toList⟩] := by decide +kernel
  obtain ⟨bodyLines, place, hblocks, hdescriptors, -, hshows, hiff⟩ :=
    build_keepsBody_iff plainWindow plainDocument ">p".toList (.leaf 0) rfl rfl rfl (by decide +kernel) hparent
      (by decide +kernel) hbuilt
  refine ⟨bodyLines, place, hblocks, ?_, hshows, fun hkeeps => ?_⟩
  · exact hdescriptors.trans (congrArg (List.map Line.descriptor) hlines)
  · rcases hiff.mp hkeeps [] _ [] hlines with htop | ⟨k, hk, -⟩
    · exact absurd htop (by decide)
    · exact absurd hk List.not_mem_nil

end Window

end IndentMarkup
