import IndentMarkup.Proofs.Arguments
import IndentMarkup.Proofs.FailedBuilds
import IndentMarkup.Proofs.Outputs

/-!
# What the commands make of a template file

Both commands read a template file as text and compile it up to its first defect: a line without a tag, or a reference
that is too long (`BatchOptions.result_compileText`, `Window.build_failure_eq`). The command that compiles reports
everything that may be wrong, while the command that builds a window reports a line without a tag only
(`Command.endings_templateFile`). Moreover a window looks at every line of its body, as all of them are nested below
the chrome, but nested lines in front of the first block of a template are never read.
-/

namespace IndentMarkup

/-! ## The first defect of a template -/

theorem Line.defect?_cases (l : Line) :
    l.defect? = none ∨ l.defect? = some (.malformedLine l.raw l.number) ∨
      ∃ digits, l.defect? = some (.referenceTooLong digits) := by
  rw [defect?]
  cases l.descriptor.head?.any isWord with
  | false => exact .inr (.inl rfl)
  | true =>
      cases (LineGroups.ofText l.descriptor).text with
      | ok text => exact .inl rfl
      | error fault => exact .inr (.inr ⟨_, rfl⟩)

theorem exists_of_findSome?_defect? {lines : List Line} {f : CompileFault} (h : lines.findSome? Line.defect? = some f) :
    (∃ raw number, f = .malformedLine raw number) ∨ ∃ digits, f = .referenceTooLong digits := by
  obtain ⟨l, -, hdefect⟩ := List.exists_of_findSome?_eq_some h
  rcases l.defect?_cases with hl | hl | ⟨digits, hl⟩ <;> rw [hl] at hdefect
  · cases hdefect
  · exact .inl ⟨_, _, (Option.some.inj hdefect).symm⟩
  · exact .inr ⟨_, (Option.some.inj hdefect).symm⟩

def CompileFault.digits? : CompileFault → Option Nat
  | referenceTooLong digits => some digits
  | _ => none

/-- Where the lines of a template are moved to does not matter for what is wrong with them. -/
theorem digits?_findSome?_congr {ks ls : List Line} (h : ks.map (·.descriptor) = ls.map (·.descriptor)) :
    (ks.findSome? Line.defect?).map CompileFault.digits? = (ls.findSome? Line.defect?).map CompileFault.digits? := by
  have hdescriptor : (Option.map CompileFault.digits? ∘ Line.defect?) =
      (fun s => (Line.mk 0 0 [] s).defect?.map CompileFault.digits?) ∘ Line.descriptor := by
    funext l
    simp only [Function.comp_apply, Line.defect?]
    cases l.descriptor.head?.any isWord with
    | false => rfl
    | true => cases (LineGroups.ofText l.descriptor).text <;> rfl
  rw [List.map_findSome?, List.map_findSome?, hdescriptor, ← List.findSome?_map, ← List.findSome?_map, h]

namespace BatchOptions

theorem builder_eq {o : BatchOptions} (hseparator : o.separator = .str defaultSeparator)
    (hmarker : o.marker = .str defaultMarker) (container : Ref) :
    o.builder container = .ok (Builder.new container Node.ofTag) := by
  rw [builder, builderSeparator, builderMarker, hseparator, hmarker]
  rfl

/-- With the usual separator and marker, a template is compiled up to its first defect. -/
theorem result_compileText {o : BatchOptions} (hseparator : o.separator = .str defaultSeparator)
    (hmarker : o.marker = .str defaultMarker) (source : Path) (template : Text) :
    match ((blocksOf defaultMarker template).flatMap Block.lines).findSome? Line.defect? with
    | none => ∃ p, (o.compileText source template).2 = .ok p
    | some f => (o.compileText source template).2 = .error (.compile f) := by
  have hfault : ∀ container d, ((Builder.new container Node.ofTag).compile d template).fault =
      ((blocksOf defaultMarker template).flatMap Block.lines).findSome? Line.defect? := by
    intro container d
    have hnonempty : (Builder.new container Node.ofTag).dialect.separator ≠ [] := List.cons_ne_nil _ _
    rw [← funext (Line.fault?_eq_defect? hnonempty)]
    exact (compile_eq (Builder.new container Node.ofTag).dialect template).1
  simp only [compileText, builder_eq hseparator hmarker, hfault]
  split
  · next hnone =>
      rw [hnone]
      exact ⟨_, rfl⟩
  · next f hsome =>
      rw [hsome]
      rcases exists_of_findSome?_defect? hsome with ⟨raw, number, rfl⟩ | ⟨digits, rfl⟩ <;> rfl

end BatchOptions

namespace Window

variable {w : Window} {d : Document} {body : Text}

/-- What is wrong with the template of a window is what is wrong with its body. -/
theorem digits?_fault_compiled (hseparator : w.builder.separator ≠ []) (hmarker : w.builder.marker = defaultMarker)
    (hkey : Chrome.IsKey w.key) :
    (∃ lines : List Line, (w.compiled d body).fault = lines.findSome? Line.defect?) ∧
      (w.compiled d body).fault.map CompileFault.digits? =
        ((templateLines defaultMarker body).findSome? Line.defect?).map CompileFault.digits? := by
  obtain ⟨bodyLines, hblocks, hmoved⟩ := exists_blocksOf_template hmarker hkey body
  have hdescriptors := congrArg (List.map Prod.fst) hmoved
  rw [List.map_map, List.map_map] at hdescriptors
  have hread : ∀ l ∈ Chrome.window w.key :: (Chrome.upper ++ [Chrome.body]), l.defect? = none := by
    intro l hl
    have hdefect : l.IsRead w.builder.dialect ↔ l.defect? = none := Line.isRead_iff_defect? hseparator
    refine hdefect.mp ?_
    rcases List.mem_cons.mp hl with rfl | hl
    · exact Chrome.isRead_window hseparator hkey
    · exact Chrome.isRead_of_mem hseparator hl
  have hlines : (Chrome.block w.key bodyLines).lines =
      (Chrome.window w.key :: (Chrome.upper ++ [Chrome.body])) ++ bodyLines := by
    rw [Block.lines, Chrome.block, List.append_cons]
    rfl
  have hfault : (w.compiled d body).fault = bodyLines.findSome? Line.defect? := by
    have hcompiled : (w.compiled d body).fault =
        ((blocksOf w.builder.marker (w.template body)).flatMap Block.lines).findSome? (Line.fault? w.builder.dialect) :=
      (compile_eq w.builder.dialect (w.template body)).1
    rw [hcompiled, funext (Line.fault?_eq_defect? hseparator), hmarker, hblocks, List.flatMap_singleton, hlines,
      List.findSome?_append, List.findSome?_eq_none_iff.mpr hread, Option.none_or]
  exact ⟨⟨bodyLines, hfault⟩, hfault ▸ digits?_findSome?_congr hdescriptors⟩

/-- A window fails to be built by the kind of the first defect of its body. -/
theorem build_failure_eq (hnode : w.node = none) (hseparator : w.builder.separator = defaultSeparator)
    (hmarker : w.builder.marker = defaultMarker) (hmake : w.builder.makeNode = Node.ofTag)
    (hkey : Chrome.IsKey w.key) {o : Rose Ref} (hparent : d.HasOutline w.parent o)
    (hfree : d.findById? w.parent (some w.key) = none) :
    match (templateLines defaultMarker body).findSome? Line.defect? with
    | none => (w.build d body).failure = none
    | some (.referenceTooLong digits) => (w.build d body).failure = some (.compile (.referenceTooLong digits))
    | some _ => ∃ raw number, (w.build d body).failure = some (.compile (.malformedLine raw number)) := by
  obtain ⟨⟨lines, hlines⟩, hdigits⟩ := digits?_fault_compiled (hseparator ▸ List.cons_ne_nil _ _) hmarker hkey (d := d)
  cases hfirst : (templateLines defaultMarker body).findSome? Line.defect? with
  | none =>
      rw [build_failure_eq_none_iff hnode hseparator hmarker hmake hkey hparent hfree]
      exact List.findSome?_eq_none_iff.mp hfirst
  | some f =>
      rw [hfirst, Option.map_some] at hdigits
      obtain ⟨fault, hfault, hkind⟩ := Option.map_eq_some_iff.mp hdigits
      have hfailure : (w.build d body).failure = some (.compile fault) := by
        rw [build_of_unbuilt hnode, hfault]
        rfl
      rw [hfailure]
      rcases exists_of_findSome?_defect? (hlines.symm.trans hfault) with ⟨raw, number, rfl⟩ | ⟨digits, rfl⟩
      · cases f with
        | referenceTooLong _ => cases hkind
        | _ => exact ⟨raw, number, rfl⟩
      · cases f with
        | referenceTooLong _ => rw [Option.some.inj hkind]
        | _ => cases hkind

end Window

namespace Desk

def firstWindow (supply : DigitSupply) (spec : WindowSpec) (title : Text) : Window :=
  { Window.plainWindow with
    key := supply.nextKey.1
    title := title.trim
    width := spec.width
    height := spec.height
    minWidth := spec.minWidth
    minHeight := spec.minHeight }

def firstDesk (supply : DigitSupply) (spec : WindowSpec) (title : Text) : Desk :=
  ⟨Window.plainDocument, [firstWindow supply spec title], [], supply.nextKey.2⟩

variable {supply : DigitSupply} {spec : WindowSpec} {title : Text}

theorem newWindow_new (htitle : spec.title = .str title) (hparent : spec.parent = none) :
    (Desk.new supply).newWindow spec = (firstDesk supply spec title, .ok 0) := by
  simp only [newWindow, htitle, titleOf, addWindow, hparent]
  rfl

theorem hasUnbuilt_firstDesk (hdigits : ∀ c ∈ supply.digits, isNameChar c) (htitle : spec.title = .str title)
    (hparent : spec.parent = none) : (firstDesk supply spec title).HasUnbuilt 0 (firstWindow supply spec title) := by
  have hnew : (Desk.new supply).newWindow spec = (firstDesk supply spec title, .ok 0) := newWindow_new htitle hparent
  obtain ⟨w, h⟩ := hasUnbuilt_newWindow hdigits (congrArg Prod.snd hnew)
  rw [hnew] at h
  obtain rfl : firstWindow supply spec title = w := Option.some.inj h.window
  exact h

theorem build_firstWindow (hdigits : ∀ c ∈ supply.digits, isNameChar c) (htitle : spec.title = .str title)
    (hparent : spec.parent = none) (body : Text) :
    let step := (firstWindow supply spec title).build Window.plainDocument body
    match (templateLines defaultMarker body).findSome? Line.defect? with
    | none => step.failure = none
    | some (.referenceTooLong digits) => step.failure = some (.compile (.referenceTooLong digits))
    | some _ => ∃ raw number, step.failure = some (.compile (.malformedLine raw number)) := by
  have hfirst := hasUnbuilt_firstDesk hdigits htitle hparent
  have houtline : Window.plainDocument.HasOutline 0 (.leaf 0) := ⟨rfl, .mk 0 [] rfl (by simp), by decide⟩
  exact Window.build_failure_eq hfirst.node rfl rfl hfirst.makeNode hfirst.key houtline rfl

end Desk

namespace Command

/-! ## Showing a window -/

variable {r : Resources}

theorem ending_showWindow {spec : WindowSpec} {title : Text} (hdigits : ∀ c ∈ r.supply.digits, isNameChar c)
    (htitle : spec.title = .str title) (hparent : spec.parent = none) (pretty : Bool) (body : Text) :
    (showWindow r spec pretty body).ending =
      match (templateLines defaultMarker body).findSome? Line.defect? with
      | none => .ok 0
      | some (.referenceTooLong digits) => .error (.window (.compile (.referenceTooLong digits)))
      | some _ => .ok 1 := by
  have hbuild := Desk.build_firstWindow hdigits htitle hparent body
  have hwindow : (Desk.firstDesk r.supply spec title).windows[0]? = some (Desk.firstWindow r.supply spec title) := rfl
  have hdocument : (Desk.firstDesk r.supply spec title).document = Window.plainDocument := rfl
  simp only [showWindow, Desk.newWindow_new htitle hparent, hwindow, hdocument]
  split at hbuild
  · rw [hbuild]
    rfl
  · rw [hbuild]
    rfl
  · next f hkind _ =>
      obtain ⟨raw, number, hfailure⟩ := hbuild
      rw [hfailure]
      cases f with
      | referenceTooLong digits => exact absurd rfl (hkind digits)
      | _ => rfl

/-! ## The commands on one file -/

theorem ending_refuse (help : List String) (e : Refusal) : (r.refuse help e).ending = .ok 1 := by
  cases e <;> rfl

theorem missingFiles_singleton {p : Path} {content : Bytes} (hfile : r.files.read p = .ok content) :
    missingFiles r.files [p] = .ok [] := by
  have hisFile := FileSystem.isFile_eq_true_iff.mpr ⟨content, hfile⟩
  simp [missingFiles, List.filterM, List.filterAuxM, hisFile, bind, Except.bind, pure, Except.pure]

def requestFor (p : Path) : CompileRequest := { CompileRequest.empty with files := [p] }

theorem result_batch_requestFor {p : Path} {content : Bytes} (hfile : r.files.read p = .ok content) :
    (batch r (requestFor p)).result =
      match readText content with
      | .error fault => .error (.encoding fault)
      | .ok template =>
        ((BatchOptions.ofSettings r.settings none none none).compileText p template).2.map ([·]) := by
  have htemplate : BatchOptions.readTemplate r.files p = (readText content).mapError .encoding := by
    rw [BatchOptions.readTemplate, hfile]
    rfl
  have hbatch : batch r (requestFor p) =
      (BatchOptions.ofSettings r.settings none none none).compileFiles .answer r.files [p] := rfl
  rw [hbatch, BatchOptions.compileFiles, BatchOptions.compileFile, htemplate]
  cases readText content with
  | error fault => rfl
  | ok template =>
      simp only [Except.mapError, BatchStep.andThen]
      cases ((BatchOptions.ofSettings r.settings none none none).compileText p template).2 <;> rfl

theorem compileForm_cases (f : Text) :
    (∃ e, CompileRequest.form.read .empty [f] = .error e) ∨
      CompileRequest.form.read .empty [f] = .ok (requestFor (.ofText f)) := by
  have hoperands : CompileRequest.form.operands = some fun files r => { r with files := files.map .ofText } := rfl
  exact Form.read_operand hoperands .empty f

theorem ending_compile_file {f : Text} {content : Bytes} (hsettings : r.settings = .shipped)
    (hfile : r.files.read (.ofText f) = .ok content)
    (hread : CompileRequest.form.read .empty [f] = .ok (requestFor (.ofText f))) :
    (compile r [f]).ending =
      match readText content with
      | .error _ => .ok 1
      | .ok template =>
        match ((blocksOf defaultMarker template).flatMap Block.lines).findSome? Line.defect? with
        | none => .ok 0
        | some _ => .ok 1 := by
  have hcompile : compile r [f] = compileFiles r (requestFor (.ofText f)) := by
    rw [compile, hread]
    simp only [compileExisting, requestFor, missingFiles_singleton hfile]
  have hbatch := result_batch_requestFor hfile
  rw [hcompile]
  cases hcontent : readText content with
  | error fault =>
      rw [hcontent] at hbatch
      exact ending_compileFiles_of_error hbatch
  | ok template =>
      have hresult := BatchOptions.result_compileText (o := .ofSettings r.settings none none none) (hsettings ▸ rfl)
        (hsettings ▸ rfl) (.ofText f) template
      rw [hcontent] at hbatch
      dsimp only at hbatch ⊢
      split at hresult
      · obtain ⟨p, hp⟩ := hresult
        rw [hp] at hbatch
        exact congrArg Reply.ending (compileFiles_of_ok hbatch)
      · next fault hdefect =>
          rw [hresult] at hbatch
          exact ending_compileFiles_of_error hbatch

theorem windowForm_cases (f : Text) :
    (∃ e, WindowRequest.form.read .empty ["--body".toList, f] = .error e) ∨
      WindowRequest.form.read .empty ["--body".toList, f] =
        .ok { WindowRequest.empty with body := .value (.ofText f) } := by
  have hbody : WindowRequest.form.token "--body".toList = .ok (.options
      ((Effect.setting (fun s => some (.ofText s)) fun body (r : WindowRequest) => { r with body }).request none)) := rfl
  rcases Form.read_value rfl (by decide) hbody .empty f with hrefused | ⟨request, happly, hread⟩
  · exact .inl hrefused
  · exact .inr (hread.trans (congrArg Except.ok (Option.some.inj happly).symm))

theorem ending_window_body {f : Text} {content : Bytes} (hsettings : r.settings = .shipped)
    (hdigits : ∀ c ∈ r.supply.digits, isNameChar c) (hfile : r.files.read (.ofText f) = .ok content)
    (hread : WindowRequest.form.read .empty ["--body".toList, f] =
      .ok { WindowRequest.empty with body := .value (.ofText f) }) :
    (window r ["--body".toList, f]).ending =
      match readText content with
      | .error fault => .error (.encoding fault)
      | .ok body =>
        match (templateLines defaultMarker body).findSome? Line.defect? with
        | none => .ok 0
        | some (.referenceTooLong digits) => .error (.window (.compile (.referenceTooLong digits)))
        | some _ => .ok 1 := by
  have hspec : ∃ spec, windowSpec r.settings { WindowRequest.empty with body := .value (.ofText f) } = .ok spec ∧
      spec.title = .str "Window".toList ∧ spec.parent = none := by
    rw [hsettings]
    exact ⟨_, rfl, rfl, rfl⟩
  obtain ⟨spec, hspec, htitle, hparent⟩ := hspec
  have hrequest : readWindowRequest r.settings ["--body".toList, f] =
      .ok ({ WindowRequest.empty with body := .value (.ofText f) }, spec) := by
    rw [readWindowRequest, hread]
    simp only [bind, Except.bind, hspec]
  have hbody : bodyText r (some (.ofText f)) = (readText content).mapError fun fault => r.stop (.encoding fault) := by
    simp only [bodyText, FileSystem.isFile_eq_true_iff.mpr ⟨content, hfile⟩, hfile]
  rw [window, hrequest]
  simp only [Given.value?, hbody]
  cases readText content with
  | error fault => rfl
  | ok body => exact ending_showWindow hdigits htitle hparent false body

/-- On a template file, the command `compile` always ends with an exit code, and with a failure if the bytes are no
text. The command `window` ends with a fault instead if the bytes of the body are no text, and if the first defect of
its lines is a reference that is too long. -/
theorem endings_templateFile {f : Text} {content : Bytes} (hsettings : r.settings = .shipped)
    (hdigits : ∀ c ∈ r.supply.digits, isNameChar c) (hfile : r.files.read (.ofText f) = .ok content) :
    ((compile r [f]).ending = .ok 0 ∨ (compile r [f]).ending = .ok 1) ∧
      (∀ fault, readText content = .error fault → (compile r [f]).ending = .ok 1) ∧
      match WindowRequest.form.read .empty ["--body".toList, f] with
      | .error _ => (window r ["--body".toList, f]).ending = .ok 1
      | .ok _ =>
        (window r ["--body".toList, f]).ending =
          match readText content with
          | .error fault => .error (.encoding fault)
          | .ok body =>
            match (templateLines defaultMarker body).findSome? Line.defect? with
            | none => .ok 0
            | some (.referenceTooLong digits) => .error (.window (.compile (.referenceTooLong digits)))
            | some _ => .ok 1 := by
  have hcompile : (compile r [f]).ending = .ok 1 ∨ (compile r [f]).ending =
      match readText content with
      | .error _ => .ok 1
      | .ok template =>
        match ((blocksOf defaultMarker template).flatMap Block.lines).findSome? Line.defect? with
        | none => .ok 0
        | some _ => .ok 1 := by
    rcases compileForm_cases f with ⟨e, hrefused⟩ | hread
    · rw [compile, hrefused]
      exact .inl (ending_refuse _ e)
    · exact .inr (ending_compile_file hsettings hfile hread)
  refine ⟨?_, fun fault hundecoded => ?_, ?_⟩
  · rcases hcompile with hone | hending
    · exact .inr hone
    · rw [hending]
      split
      · exact .inr rfl
      · split
        · exact .inl rfl
        · exact .inr rfl
  · rcases hcompile with hone | hending
    · exact hone
    · rw [hending, hundecoded]
  · rcases windowForm_cases f with ⟨e, hrefused⟩ | hread
    · rw [hrefused, window, readWindowRequest, hrefused]
      exact ending_refuse _ e
    · rw [hread]
      exact ending_window_body hsettings hdigits hfile hread

def undecodable : Resources where
  settings := .shipped
  files := (FileSystem.empty []).plant ["f".toList] (.file [0xFF])
  supply := ⟨"1234567890".toList, 0⟩

/-- The file is reported by the command `compile` and ends the command `window` with a fault. -/
theorem endings_templateFile_undecodable :
    (compile undecodable ["f".toList]).ending = .ok 1 ∧
      (window undecodable ["--body".toList, "f".toList]).ending = .error (.encoding ⟨[0xFF], 0, .startByte⟩) := by
  have hfile : undecodable.files.read (.ofText "f".toList) = .ok [0xFF] := rfl
  have hfault : readText [0xFF] = .error ⟨[0xFF], 0, .startByte⟩ := rfl
  have hdigits : ∀ c ∈ undecodable.supply.digits, isNameChar c :=
    List.all_eq_true.mp (by decide +kernel : undecodable.supply.digits.all isNameChar)
  obtain ⟨-, hcompile, hwindow⟩ := endings_templateFile rfl hdigits hfile
  exact ⟨hcompile _ hfault, hwindow⟩

end Command

end IndentMarkup
