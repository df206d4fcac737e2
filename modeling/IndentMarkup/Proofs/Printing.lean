import IndentMarkup.Proofs.ClosedForms
import IndentMarkup.Proofs.Compilation
import IndentMarkup.Proofs.Mounting
import IndentMarkup.Proofs.NormalForms
import IndentMarkup.Proofs.Registry
import IndentMarkup.Proofs.Tables

/-!
# Forests that are written as templates

A forest is written as a template line by line: every node, in document order, with as many markers as it is deep
and its groups behind them. Compiling this template gives the forest back (`compile_writtenForest`), if the nodes
are such that a line can say all there is to say about them (`Node.IsWritable`).

The proof follows the layers of the compiler: the groups of a line (`readLine_groups`), the node that they describe
(`materialize_writtenDescriptor`), and the lines of the template with their depths.
-/

namespace IndentMarkup

/-! ## What is written -/

def writtenAttribute (a : Text × Text) : Text := a.1 ++ '=' :: a.2

namespace Node

/-- The groups of the line that a node is written as. A group that would say nothing is left out. -/
def groups (n : Node) : LineGroups where
  tag := n.tag
  classTokens := n.classes
  idToken := n.id
  content :=
    match n.text with
    | none => .absent
    | some text => .closed (Entity.escape text)
  attributes :=
    if n.attrs.isEmpty then .absent else .closed (Text.join defaultSeparator (n.attrs.map writtenAttribute))
  eventTokens := n.listeners.map (·.name)
  trailing := []

def written (n : Node) (depth : Nat) : Text := (List.replicate depth defaultMarker).flatten ++ n.groups.written

end Node

/-- The template that a forest is written as. -/
def writtenForest (forest : List Tree) : Text :=
  Text.join ['\n'] ((Rose.withDepthsAll 0 forest).map fun e => e.1.written e.2)

/-- An attribute that can be written: its name and its value are trimmed and hold no character that ends them, and
its name is one that stands for itself. -/
structure IsPlainAttribute (a : Text × Text) : Prop where
  name_ne_nil : a.1 ≠ []
  name_trim : a.1.trim = a.1
  name_chars : ∀ c ∈ a.1, c ≠ '\n' ∧ c ≠ ';' ∧ c ≠ '='
  name_start : startsWithDigit a.1 = false
  name_ne_class : a.1 ≠ "class".toList
  name_ne_id : a.1 ≠ "id".toList
  value_trim : a.2.trim = a.2
  value_chars : ∀ c ∈ a.2, c ≠ '\n' ∧ c ≠ ';'

/-- A node that a line can describe. Its text, if it has one, is any text that is not empty, and its listeners are
the bindings that their names stand for. -/
structure Node.IsWritable (registry : Registry) (n : Node) : Prop where
  tag_ne_nil : n.tag ≠ []
  tag_chars : ∀ c ∈ n.tag, isWord c
  class_chars : ∀ name ∈ n.classes, name ≠ [] ∧ (∀ c ∈ name, isNameChar c) ∧ startsWithDigit name = false
  classes_distinct : n.classes.Nodup
  id_chars : ∀ name, n.id = some name → name ≠ [] ∧ ∀ c ∈ name, isNameChar c
  text_ne_nil : n.text ≠ some []
  attributes_plain : ∀ a ∈ n.attrs, IsPlainAttribute a
  attributes_distinct : (n.attrs.map Prod.fst).Nodup
  no_style : n.style = []
  listeners_resolved : ∀ b ∈ n.listeners, registry.resolve b.name = some b
  listener_chars : ∀ b ∈ n.listeners, (∀ c ∈ b.name, isWord c) ∧ startsWithDigit b.name = false
  listeners_distinct : (n.listeners.map (·.name)).Nodup

/-! ## Reading a line -/

theorem not_isBlank_of_isNameChar {c : Char} (hc : isNameChar c) : ¬ isBlank c := by
  rw [isNameChar, Bool.or_eq_true, beq_iff_eq] at hc
  rcases hc with hc | rfl
  · exact not_isBlank_of_isWord hc
  · decide

namespace Node

theorem IsWritable.isRegular {registry : Registry} {n : Node} (h : n.IsWritable registry) :
    n.groups.IsRegular where
  tag := h.tag_chars
  classes name hname := (h.class_chars name hname).2.1
  id name hname := (h.id_chars name hname).2
  content := by
    rw [groups]
    split <;> simp
  balanced s hs := by
    simp only [groups] at hs
    split at hs
    · simp at hs
    · obtain rfl := Bracketed.closed.inj hs
      exact LineGroups.isBalanced_of_not_mem fun c hc =>
        ⟨(Entity.not_mem_escape hc).1, (Entity.not_mem_escape hc).2.1⟩
  attributes := by
    simp only [groups]
    split <;> simp
  events name hname := by
    obtain ⟨b, hb, rfl⟩ := List.mem_map.mp hname
    exact (h.listener_chars b hb).1
  trailing := rfl

def writtenDescriptor (n : Node) : Descriptor where
  tag := n.tag
  classes := n.classes
  id := n.id
  text := n.text
  attributes := n.attrs.map fun a => (a.1, some a.2)
  events := n.listeners.map (·.name)

theorem IsWritable.withoutEmptyText {registry : Registry} {n : Node} (h : n.IsWritable registry) :
    n.writtenDescriptor.withoutEmptyText = n.writtenDescriptor := by
  rw [Descriptor.withoutEmptyText, writtenDescriptor, filter_ne_nil_eq_self h.text_ne_nil]

theorem groups_parts {registry : Registry} {n : Node} (h : n.IsWritable registry) :
    (n.writtenDescriptor.parts Entity.escape).groups ';' = n.groups := by
  have hcontent : (n.writtenDescriptor.parts Entity.escape).content.elim .absent .closed = n.groups.content := by
    rw [Descriptor.parts, writtenDescriptor, filter_ne_nil_eq_self h.text_ne_nil]
    cases htext : n.text <;> simp [groups, htext]
  have hitem : ∀ a : Text × Text, writtenItem (a.1, some a.2) = writtenAttribute a := fun _ => rfl
  have hattributes : (n.writtenDescriptor.parts Entity.escape).items.elim .absent
      (fun items => .closed (Text.join [';'] items)) = n.groups.attributes := by
    cases hattrs : n.attrs <;>
      simp [Descriptor.parts, writtenDescriptor, groups, hattrs, hitem, defaultSeparator, Function.comp_def]
  have hevents : (n.writtenDescriptor.parts Entity.escape).events.elim []
      (fun events => if events = [] then [[]] else events) = n.groups.eventTokens := by
    cases hlisteners : n.listeners <;> simp [Descriptor.parts, writtenDescriptor, groups, hlisteners]
  rw [LineParts.groups, hcontent, hattributes, hevents]
  rfl

theorem IsWritable.isNormal {registry : Registry} {n : Node} (h : n.IsWritable registry)
    (hnames : ∀ b ∈ n.listeners, b.name ≠ []) : n.writtenDescriptor.IsNormal ';' where
  tag_ne_nil := h.tag_ne_nil
  tag_chars := h.tag_chars
  classes := h.class_chars
  id := h.id_chars
  attributes a ha := by
    obtain ⟨entry, hentry, rfl⟩ := List.mem_map.mp ha
    have hplain := h.attributes_plain entry hentry
    refine ⟨⟨hplain.name_ne_nil, hplain.name_trim, fun hmem => (hplain.name_chars _ hmem).2.2 rfl, hplain.name_start⟩,
      fun hmem => (hplain.name_chars _ hmem).2.1 rfl, ?_, ?_, fun _ => by decide⟩
    · rintro _ ⟨⟩
      exact hplain.value_trim
    · rintro _ ⟨⟩ hmem
      exact (hplain.value_chars _ hmem).2 rfl
  events name hname := by
    obtain ⟨b, hb, rfl⟩ := List.mem_map.mp hname
    exact ⟨hnames b hb, h.listener_chars b hb⟩

/-- The line of a node is read as what it was written from, and nothing is left out of it. -/
theorem readLine_groups {registry : Registry} {n : Node} (h : n.IsWritable registry)
    (hnames : ∀ b ∈ n.listeners, b.name ≠ []) :
    readLine defaultSeparator n.groups.written = .ok ⟨n.writtenDescriptor, [], []⟩ := by
  have hread := (h.isNormal hnames).readLine_parts Entity.decode_escape fun s =>
    LineGroups.isBalanced_of_not_mem fun c hc => ⟨(Entity.not_mem_escape hc).1, (Entity.not_mem_escape hc).2.1⟩
  rwa [← LineParts.written_groups, groups_parts h, h.withoutEmptyText] at hread

/-! ## The node of a line -/

/-- The listeners of a node are different objects, as their names are different. -/
theorem IsWritable.handles_distinct {made : List Binding} {registry : Registry}
    (hregistry : Registry.History made registry) {n : Node} (h : n.IsWritable registry) :
    (n.listeners.map (·.handle)).Nodup := by
  refine (List.pairwise_map.mpr ?_)
  refine (List.pairwise_map.mp h.listeners_distinct).imp_of_mem fun {b b'} hb hb' hne heq => ?_
  have hstored := hregistry.coherent.stored
  have hsame := hregistry.coherent.eq_of_handle b (hstored b (Registry.resolve_eq_some (h.listeners_resolved b hb)).1)
    b' (hstored b' (Registry.resolve_eq_some (h.listeners_resolved b' hb')).1) heq
  exact hne (hsame ▸ rfl)

theorem quietNode_writtenDescriptor {registry : Registry} {n : Node} (h : n.IsWritable registry) :
    n.writtenDescriptor.quietNode ofTag = { n with listeners := [] } := by
  have hentries : n.writtenDescriptor.entries = n.attrs := by
    rw [Descriptor.entries, writtenDescriptor, List.map_map]
    exact List.map_id _
  have hplain : ∀ a ∈ n.attrs, isPlainName a.1 := fun a ha =>
    decide_eq_true ⟨(h.attributes_plain a ha).name_ne_class, (h.attributes_plain a ha).name_ne_id⟩
  have hattrs : n.attrs.filter (fun a => isPlainName a.1) = n.attrs := List.filter_eq_self.mpr hplain
  have hnone : ∀ name, isPlainName name = false → n.writtenDescriptor.lastValue? name = none := by
    intro name hname
    rw [Descriptor.lastValue?, hentries, Pairs.last?_eq_none_iff]
    rintro hmem
    obtain ⟨a, ha, rfl⟩ := List.mem_map.mp hmem
    exact Bool.noConfusion (hname.symm.trans (hplain a ha))
  have hid : n.id ≠ some [] := fun hnil => (h.id_chars [] hnil).1 rfl
  rw [Descriptor.quietNode_ofTag, hnone "class".toList (by decide), hnone "id".toList (by decide), hentries, hattrs,
    Pairs.ofList_eq_self h.attributes_distinct]
  simp only [writtenDescriptor, Option.elim_none, eraseDups_eq_self h.classes_distinct, filter_ne_nil_eq_self hid,
    filter_ne_nil_eq_self h.text_ne_nil, Option.filter_none, Option.or_none, h.no_style]

theorem materialize_writtenDescriptor {dialect : Dialect} (hmake : dialect.makeNode = Node.ofTag) {n : Node}
    (h : n.IsWritable dialect.registry) (hhandles : (n.listeners.map (·.handle)).Nodup) :
    n.writtenDescriptor.materialize dialect = n := by
  rw [Descriptor.materialize_eq, hmake, quietNode_writtenDescriptor h]
  exact foldl_listenTo h.listeners_resolved _ hhandles

/-! ## The lines of a template -/

theorem IsWritable.exists_first {registry : Registry} {n : Node} (h : n.IsWritable registry) :
    ∃ c r, n.groups.written = c :: r ∧ isWord c := by
  obtain ⟨c, r, htag⟩ := List.exists_cons_of_ne_nil h.tag_ne_nil
  have hgroup : n.groups.tag = c :: r := htag
  rw [LineGroups.written, hgroup, List.cons_append]
  exact ⟨c, _, rfl, h.tag_chars c (by simp [htag])⟩

theorem mem_writtenBetween {opening closing : Char} {group : Bracketed} {c : Char}
    (hc : c ∈ LineGroups.writtenBetween opening closing group) :
    c = opening ∨ c = closing ∨ ∃ inside, group = .closed inside ∧ c ∈ inside := by
  cases group with
  | absent => simp [LineGroups.writtenBetween] at hc
  | unterminated => exact .inl (by simpa [LineGroups.writtenBetween] using hc)
  | closed inside =>
      simp only [LineGroups.writtenBetween, List.cons_append, List.mem_cons, List.mem_append, List.not_mem_nil,
        or_false] at hc
      rcases hc with hc | hc | hc
      · exact .inl hc
      · exact .inr (.inr ⟨inside, rfl, hc⟩)
      · exact .inr (.inl hc)

theorem endsVisible_writtenBetween (opening closing : Char) {group : Bracketed} (hclosing : ¬ isBlank closing)
    (hgroup : group ≠ .unterminated) : Text.EndsVisible (LineGroups.writtenBetween opening closing group) := by
  cases group with
  | absent => exact Text.endsVisible_of_all (by simp [LineGroups.writtenBetween])
  | unterminated => exact absurd rfl hgroup
  | closed inside => exact Text.endsVisible_concat _ hclosing

theorem not_isBlank_of_mem_tag_classes_id {registry : Registry} {n : Node} (h : n.IsWritable registry) {c : Char}
    (hc : c ∈ n.groups.tag ∨ c ∈ LineGroups.writtenClasses n.groups.classTokens ∨
      c ∈ LineGroups.writtenId n.groups.idToken) : ¬ isBlank c := by
  rcases hc with hc | hc | hc
  · exact not_isBlank_of_isWord (h.isRegular.tag c hc)
  · obtain ⟨name, hname, hc⟩ := List.mem_flatMap.mp hc
    rcases List.mem_cons.mp hc with rfl | hc
    · decide
    · exact not_isBlank_of_isNameChar (h.isRegular.classes name hname c hc)
  · cases hid : n.groups.idToken with
    | none => simp [hid, LineGroups.writtenId] at hc
    | some name =>
        rw [hid, LineGroups.writtenId, List.mem_cons] at hc
        rcases hc with rfl | hc
        · decide
        · exact not_isBlank_of_isNameChar (h.isRegular.id name hid c hc)

theorem not_isBlank_of_mem_events {registry : Registry} {n : Node} (h : n.IsWritable registry) {c : Char}
    (hc : c ∈ LineGroups.writtenEvents n.groups.eventTokens) : ¬ isBlank c := by
  cases htokens : n.groups.eventTokens with
  | nil => simp [htokens, LineGroups.writtenEvents] at hc
  | cons name rest =>
      rw [htokens, LineGroups.writtenEvents, ← htokens, List.mem_cons] at hc
      · rcases hc with rfl | hc
        · decide
        · rcases Text.mem_join hc with ⟨name, hname, hc⟩ | hc
          · exact not_isBlank_of_isWord (h.isRegular.events name hname c hc)
          · rw [List.mem_singleton.mp hc]
            decide
      · simp

theorem newline_not_mem_inside {registry : Registry} {n : Node} (h : n.IsWritable registry) {inside : Text}
    (hinside : n.groups.content = .closed inside ∨ n.groups.attributes = .closed inside) : '\n' ∉ inside := by
  intro hmem
  rcases hinside with hinside | hinside
  · simp only [groups] at hinside
    split at hinside
    · simp at hinside
    · obtain rfl := Bracketed.closed.inj hinside
      exact (Entity.not_mem_escape hmem).2.2 rfl
  · simp only [groups] at hinside
    split at hinside
    · simp at hinside
    · obtain rfl := Bracketed.closed.inj hinside
      rcases Text.mem_join hmem with ⟨p, hp, hmem⟩ | hmem
      · obtain ⟨a, ha, rfl⟩ := List.mem_map.mp hp
        have hplain := h.attributes_plain a ha
        rw [writtenAttribute, List.mem_append, List.mem_cons] at hmem
        rcases hmem with hmem | heq | hmem
        · exact (hplain.name_chars _ hmem).1 rfl
        · exact absurd heq (by decide)
        · exact (hplain.value_chars _ hmem).1 rfl
      · exact absurd (List.mem_singleton.mp hmem) (by decide)

theorem isVisibleLine_groups {registry : Registry} {n : Node} (h : n.IsWritable registry) :
    Text.IsVisibleLine n.groups.written := by
  obtain ⟨c, r, hfirst, hword⟩ := h.exists_first
  refine ⟨Text.trim_eq_self (fun d hd => ?_) ?_, by simp [hfirst], ?_⟩
  · rw [hfirst, List.head?_cons, Option.some.injEq] at hd
    exact hd ▸ not_isBlank_of_isWord hword
  · have htag := Text.endsVisible_of_all fun d hd => not_isBlank_of_mem_tag_classes_id h (.inl hd)
    have hclasses := Text.endsVisible_of_all fun d hd => not_isBlank_of_mem_tag_classes_id h (.inr (.inl hd))
    have hid := Text.endsVisible_of_all fun d hd => not_isBlank_of_mem_tag_classes_id h (.inr (.inr hd))
    have hcontent := endsVisible_writtenBetween '(' ')' (by decide) h.isRegular.content
    have hattributes := endsVisible_writtenBetween '[' ']' (by decide)
      h.isRegular.attributes
    have hevents := Text.endsVisible_of_all fun d hd => not_isBlank_of_mem_events h hd
    exact htag.append (hclasses.append (hid.append (hcontent.append (hattributes.append hevents))))
  · have hblank := Text.isBlank_newline
    intro hmem
    simp only [LineGroups.written, List.mem_append] at hmem
    rcases hmem with hmem | hmem | hmem | hmem | hmem | hmem
    · exact not_isBlank_of_mem_tag_classes_id h (.inl hmem) hblank
    · exact not_isBlank_of_mem_tag_classes_id h (.inr (.inl hmem)) hblank
    · exact not_isBlank_of_mem_tag_classes_id h (.inr (.inr hmem)) hblank
    · rcases mem_writtenBetween hmem with heq | heq | ⟨inside, hinside, hmem⟩
      · exact absurd heq (by decide)
      · exact absurd heq (by decide)
      · exact newline_not_mem_inside h (.inl hinside) hmem
    · rcases mem_writtenBetween hmem with heq | heq | ⟨inside, hinside, hmem⟩
      · exact absurd heq (by decide)
      · exact absurd heq (by decide)
      · exact newline_not_mem_inside h (.inr hinside) hmem
    · exact not_isBlank_of_mem_events h hmem hblank

theorem written_eq (n : Node) (depth : Nat) : n.written depth = List.replicate depth '>' ++ n.groups.written := by
  rw [written, defaultMarker, List.flatten_replicate_singleton]

theorem lineEntry_written {registry : Registry} {n : Node} (h : n.IsWritable registry) (depth : Nat) :
    lineEntry defaultMarker (n.written depth) = (n.groups.written, depth) := by
  obtain ⟨c, r, hfirst, hword⟩ := h.exists_first
  have hmark : c ≠ '>' := by
    rintro rfl
    rw [isWord_mark '>' (by simp)] at hword
    exact Bool.noConfusion hword
  have hdepth : depthOf ['>'] n.groups.written = 0 := by
    rw [hfirst, depthOf, List.takeWhile_cons_of_neg (by simpa using Ne.symm hmark), List.length_nil]
  have htrim : Text.trimStart n.groups.written = n.groups.written := by
    rw [hfirst]
    exact List.dropWhile_cons_of_neg (not_isBlank_of_isWord hword)
  rw [written_eq, defaultMarker, lineEntry_replicate_append, lineEntry, hdepth, List.drop_zero, htrim, Nat.zero_add]

end Node

/-! ## The main result -/

theorem isWritable_of_mem_withDepthsAll {registry : Registry} {forest : List Tree}
    (hforest : ∀ t ∈ forest, ∀ n ∈ t.preorder, n.IsWritable registry) {e : Node × Nat}
    (he : e ∈ Rose.withDepthsAll 0 forest) : e.1.IsWritable registry := by
  have hmem : e.1 ∈ forest.flatMap Rose.preorder := Rose.map_fst_withDepthsAll 0 forest ▸ List.mem_map_of_mem he
  obtain ⟨t, ht, hn⟩ := List.mem_flatMap.mp hmem
  exact hforest t ht e.1 hn

theorem map_templateLines_writtenForest {registry : Registry} {forest : List Tree}
    (hforest : ∀ t ∈ forest, ∀ n ∈ t.preorder, n.IsWritable registry) :
    (templateLines defaultMarker (writtenForest forest)).map (fun l => (l.descriptor, l.depth)) =
      (Rose.withDepthsAll 0 forest).map fun e => (e.1.groups.written, e.2) := by
  have hvisible : ∀ p ∈ (Rose.withDepthsAll 0 forest).map fun e => e.1.written e.2, Text.IsVisibleLine p := by
    intro p hp
    obtain ⟨e, he, rfl⟩ := List.mem_map.mp hp
    rw [Node.written_eq]
    exact (Node.isVisibleLine_groups (isWritable_of_mem_withDepthsAll hforest he)).replicate_append (by decide) e.2
  rw [map_templateLines, writtenForest, Text.visibleLines_join hvisible, List.map_map]
  exact List.map_congr_left fun e he => Node.lineEntry_written (isWritable_of_mem_withDepthsAll hforest he) e.2

/-- The line of a node is read without diagnostics and makes this node. -/
theorem readLine_written {made : List Binding} {dialect : Dialect}
    (hregistry : Registry.History made dialect.registry) (hseparator : dialect.separator = defaultSeparator)
    {n : Node} (h : n.IsWritable dialect.registry) :
    readLine dialect.separator n.groups.written = .ok ⟨n.writtenDescriptor, [], []⟩ := by
  rw [hseparator]
  exact Node.readLine_groups h fun b hb => hregistry.coherent.name_ne_nil b
    (Registry.resolve_eq_some (h.listeners_resolved b hb)).1

theorem descriptorNode_written {made : List Binding} {dialect : Dialect}
    (hregistry : Registry.History made dialect.registry) (hseparator : dialect.separator = defaultSeparator)
    (hmake : dialect.makeNode = Node.ofTag) {n : Node} (h : n.IsWritable dialect.registry) :
    descriptorNode dialect n.groups.written = n := by
  rw [descriptorNode, readLine_written hregistry hseparator h]
  exact Node.materialize_writtenDescriptor hmake h (h.handles_distinct hregistry)

theorem wellNested_writtenForest {registry : Registry} {forest : List Tree}
    (hforest : ∀ t ∈ forest, ∀ n ∈ t.preorder, n.IsWritable registry) :
    WellNested defaultMarker (writtenForest forest) := by
  have hdepths := congrArg (List.map Prod.snd) (map_templateLines_writtenForest hforest)
  rw [List.map_map, List.map_map] at hdepths
  rw [WellNested]
  exact hdepths ▸ Rose.stepsDown_withDepthsAll 0 forest

theorem exists_reading_of_mem_writtenForest {made : List Binding} {dialect : Dialect}
    (hregistry : Registry.History made dialect.registry) (hseparator : dialect.separator = defaultSeparator)
    {forest : List Tree} (hforest : ∀ t ∈ forest, ∀ n ∈ t.preorder, n.IsWritable dialect.registry) {l : Line}
    (hl : l ∈ templateLines defaultMarker (writtenForest forest)) :
    ∃ reading, readLine dialect.separator l.descriptor = .ok reading ∧ reading.diagnostics = [] := by
  have hmem := List.mem_map_of_mem (f := fun l : Line => (l.descriptor, l.depth)) hl
  rw [map_templateLines_writtenForest hforest] at hmem
  obtain ⟨e, he, heq⟩ := List.mem_map.mp hmem
  rw [← (Prod.mk.inj heq).1]
  exact ⟨_, readLine_written hregistry hseparator (isWritable_of_mem_withDepthsAll hforest he), rfl⟩

/-- The lines of a written forest make its nodes, at the same depths. -/
theorem map_node_writtenForest {made : List Binding} {dialect : Dialect}
    (hregistry : Registry.History made dialect.registry) (hseparator : dialect.separator = defaultSeparator)
    (hmake : dialect.makeNode = Node.ofTag) {forest : List Tree}
    (hforest : ∀ t ∈ forest, ∀ n ∈ t.preorder, n.IsWritable dialect.registry) :
    (templateLines defaultMarker (writtenForest forest)).map (fun l => (l.node dialect, l.depth)) =
      Rose.withDepthsAll 0 forest := by
  have hnodes := congrArg (List.map fun e : Text × Nat => (descriptorNode dialect e.1, e.2))
    (map_templateLines_writtenForest hforest)
  rw [List.map_map, List.map_map] at hnodes
  refine hnodes.trans ?_
  conv_rhs => rw [← List.map_id (Rose.withDepthsAll 0 forest)]
  refine List.map_congr_left fun e he => ?_
  simp only [Function.comp, id,
    descriptorNode_written hregistry hseparator hmake (isWritable_of_mem_withDepthsAll hforest he)]

theorem compile_writtenForest_eq (dialect : Dialect) {made : List Binding}
    (hregistry : Registry.History made dialect.registry) (hseparator : dialect.separator = defaultSeparator)
    (hmarker : dialect.marker = defaultMarker) (hmake : dialect.makeNode = Node.ofTag) {forest : List Tree}
    (hforest : ∀ t ∈ forest, ∀ n ∈ t.preorder, n.IsWritable dialect.registry) :
    (compile dialect (writtenForest forest)).fault = none ∧
      (compile dialect (writtenForest forest)).notes.diagnostics = [] ∧
      (compile dialect (writtenForest forest)).roots = forest := by
  obtain ⟨nesting, hnesting⟩ := (wellNested_writtenForest hforest).exists_nesting
  rw [← hmarker] at hnesting
  have hline : ∀ l ∈ templateLines dialect.marker (writtenForest forest),
      ∃ reading, readLine dialect.separator l.descriptor = .ok reading ∧ reading.diagnostics = [] :=
    fun l hl => exists_reading_of_mem_writtenForest hregistry hseparator hforest (hmarker ▸ hl)
  have hread : ∀ l ∈ templateLines dialect.marker (writtenForest forest), l.IsRead dialect := by
    intro l hl
    obtain ⟨reading, hreading, -⟩ := hline l hl
    exact ⟨reading, hreading⟩
  refine ⟨compile_fault_eq_none_iff.mpr (blocks_isRead hread), ?_, ?_⟩
  · rw [diagnostics_compile (blocks_isRead hread), hnesting.flatMap_lines, List.flatMap_eq_nil_iff]
    intro l hl
    obtain ⟨reading, hreading, hnone⟩ := hline l hl
    rw [Line.diagnostics, hreading]
    simp only [hnone, List.map_nil]
  · -- both forests list the nodes of the lines with their depths
    rw [hnesting.roots_compile dialect hread]
    refine Rose.withDepthsAll_inj 0 ?_
    rw [Rose.withDepthsAll_map, hnesting, List.map_map, hmarker]
    exact map_node_writtenForest hregistry hseparator hmake hforest

namespace Builder

/-- Printing a forest as a template and compiling it gives the forest back, without a fault and without
diagnostics: for every builder with the default separator, marker and nodes, whatever bindings its registry has
come to hold. -/
theorem compile_writtenForest (b : Builder) (made : List Binding) (hregistry : Registry.History made b.registry)
    (hseparator : b.separator = defaultSeparator) (hmarker : b.marker = defaultMarker)
    (hmake : b.makeNode = Node.ofTag) (d : Document) (hcontainer : b.container < d.size) (forest : List Tree)
    (hforest : ∀ t ∈ forest, ∀ n ∈ t.preorder, n.IsWritable b.registry) :
    (b.compile d (writtenForest forest)).fault = none ∧
      (b.compile d (writtenForest forest)).builder.diagnostics = [] ∧
      (b.compile d (writtenForest forest)).trees = forest := by
  obtain ⟨hfault, hdiagnostics, hroots⟩ := compile_writtenForest_eq b.dialect hregistry hseparator
    hmarker hmake hforest
  exact ⟨hfault, hdiagnostics, (b.trees_compile d _ hcontainer).trans hroots⟩

def clickBinding : Binding := ⟨0, "go".toList, "click".toList, .script ⟨"go".toList, none, none⟩, .null⟩

def punctuatedNode : Node where
  tag := "p".toList
  classes := ["a-b".toList, "c".toList]
  id := some "x".toList
  text := some "1 & (2\n&amp;)".toList
  attrs := [("data n".toList, "[@v](w)=1".toList), ("checked".toList, [])]
  style := []
  listeners := [clickBinding]

theorem compile_writtenForest_punctuated :
    let b : Builder := { new 0 Node.ofTag with registry := ⟨[clickBinding], 1⟩ }
    let forest : List Tree := [.node punctuatedNode [.leaf punctuatedNode], .leaf (Node.ofTag "q".toList)]
    (b.compile ⟨[default]⟩ (writtenForest forest)).fault = none ∧
      (b.compile ⟨[default]⟩ (writtenForest forest)).builder.diagnostics = [] ∧
      (b.compile ⟨[default]⟩ (writtenForest forest)).trees = forest := by
  have hregister : Registry.empty.register (.fields ⟨some (.str "go".toList), some (.str "click".toList), none,
      some (.callable clickBinding.callback), none⟩) = .ok (clickBinding, ⟨[clickBinding], 1⟩) := rfl
  have hregistry : Registry.History [clickBinding] ⟨[clickBinding], 1⟩ := .register .start (by simp) hregister
  have hplain : ∀ a ∈ punctuatedNode.attrs, IsPlainAttribute a := by
    intro a ha
    simp only [punctuatedNode, List.mem_cons, List.not_mem_nil, or_false] at ha
    rcases ha with rfl | rfl
    · exact ⟨by decide, by decide, List.forall_iff_forall_mem.mp (by decide), by decide, by decide, by decide,
        by decide, List.forall_iff_forall_mem.mp (by decide)⟩
    · exact ⟨by decide, by decide, List.forall_iff_forall_mem.mp (by decide), by decide, by decide, by decide,
        by decide, List.forall_iff_forall_mem.mp (by decide)⟩
  have hclasses : ∀ name ∈ punctuatedNode.classes,
      name ≠ [] ∧ (∀ c ∈ name, isNameChar c) ∧ startsWithDigit name = false :=
    List.forall_mem_cons.mpr ⟨⟨by decide, List.forall_iff_forall_mem.mp (by decide +kernel), by decide⟩,
      List.forall_mem_singleton.mpr ⟨by decide, List.forall_iff_forall_mem.mp (by decide +kernel), by decide⟩⟩
  have hpunctuated : punctuatedNode.IsWritable ⟨[clickBinding], 1⟩ :=
    ⟨by decide, List.forall_iff_forall_mem.mp (by decide +kernel), hclasses, by decide,
      by rintro _ ⟨⟩; exact ⟨by decide, List.forall_iff_forall_mem.mp (by decide +kernel)⟩, by decide, hplain,
      by decide, rfl, by rintro _ (_ | ⟨_, ⟨⟩⟩); rfl,
      by rintro _ (_ | ⟨_, ⟨⟩⟩); exact ⟨List.forall_iff_forall_mem.mp (by decide +kernel), by decide⟩, by decide⟩
  have hbare : (Node.ofTag "q".toList).IsWritable ⟨[clickBinding], 1⟩ :=
    ⟨by decide, List.forall_iff_forall_mem.mp (by decide +kernel), by simp [Node.ofTag], by decide,
      by simp [Node.ofTag], by simp [Node.ofTag], by simp [Node.ofTag], by decide, rfl, by simp [Node.ofTag],
      by simp [Node.ofTag], by decide⟩
  refine compile_writtenForest { new 0 Node.ofTag with registry := ⟨[clickBinding], 1⟩ } [clickBinding] hregistry rfl
    rfl rfl ⟨[default]⟩ (by decide) [.node punctuatedNode [.leaf punctuatedNode], .leaf (Node.ofTag "q".toList)] ?_
  intro t ht n hn
  simp only [List.mem_cons, List.not_mem_nil, or_false] at ht
  rcases ht with rfl | rfl
  · simp only [Rose.leaf, Rose.preorder_node, List.flatMap_cons, List.flatMap_nil, List.append_nil, List.mem_cons,
      List.not_mem_nil, or_false, or_self] at hn
    exact hn ▸ hpunctuated
  · simp only [Rose.leaf, Rose.preorder_node, List.flatMap_nil, List.mem_singleton] at hn
    exact hn ▸ hbare

end Builder

end IndentMarkup
