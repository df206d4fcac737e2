import IndentMarkup.Command.Session
import IndentMarkup.Proofs.Files

/-!
# What the outputs of a batch hold

A batch reads, compiles and writes one template after another (`DeliversAll`), so a file of the batch holds what was
written to its place last (`DeliversAll.entry?_eq`). Outputs that lead to one place, and an output at the place of a
template that is still to be read, take the place of what was there. If there is neither, then every output holds what
compiling gives for its template as it was at the start (`Command.compile_outputs`).
-/

namespace IndentMarkup

open FileSystem

theorem readTemplate_eq_ok_iff {files : FileSystem} {p : Path} {template : Text} :
    BatchOptions.readTemplate files p = .ok template ↔
      ∃ content, files.read p = .ok content ∧ readText content = .ok template := by
  simp only [BatchOptions.readTemplate, bind_eq_ok_iff, mapError_eq_ok_iff]

/-- The content of the file at a path after products were written, if it held the given content before. -/
def contentAfter (files : FileSystem) (p : Path) (content : Bytes) (products : List Product) : Bytes :=
  products.foldl
    (fun content q => if q.output.bind files.place? = files.place? p then Utf8.encode q.markup else content) content

theorem contentAfter_cons (files : FileSystem) (p : Path) (content : Bytes) (q : Product) (rest : List Product) :
    contentAfter files p content (q :: rest) =
      contentAfter files p
        (if q.output.bind files.place? = files.place? p then Utf8.encode q.markup else content) rest := rfl

/-- None of the products was written to the place of a path. -/
def NoneAt (files : FileSystem) (p : Path) (products : List Product) : Prop :=
  ∀ q ∈ products, q.output.bind files.place? ≠ files.place? p

theorem contentAfter_of_noneAt {files : FileSystem} {p : Path} {products : List Product} (h : NoneAt files p products)
    (content : Bytes) : contentAfter files p content products = content := by
  induction products generalizing content with
  | nil => rfl
  | cons q rest ih =>
      rw [NoneAt, List.forall_mem_cons] at h
      rw [contentAfter_cons, if_neg h.1]
      exact ih h.2 content

/-! ## Steps of a batch -/

/-- One step of a batch: a template is read and compiled, and its markup is written into the directory. -/
structure Delivers (o : BatchOptions) (directory : Path) (fs : FileSystem) (p : Product) (fs' : FileSystem) : Prop where
  output : ∃ suffix, o.suffix = .str suffix ∧ p.output = some (outputPath p.source directory suffix)
  compiled : ∃ template, BatchOptions.readTemplate fs p.source = .ok template ∧
    (o.compileText p.source template).2 = .ok { p with output := none }
  written : ∃ out place, p.output = some out ∧ fs'.locate out = .ok place ∧
    fs'.entry? place = some (.file (Utf8.encode p.markup)) ∧ ChangesOnly [place] fs fs'

inductive DeliversAll (o : BatchOptions) (directory : Path) : FileSystem → List Product → FileSystem → Prop
  | nil {fs : FileSystem} : DeliversAll o directory fs [] fs
  | cons {fs middle fs' : FileSystem} {p : Product} {rest : List Product} (h : Delivers o directory fs p middle)
      (hrest : DeliversAll o directory middle rest fs') : DeliversAll o directory fs (p :: rest) fs'

variable {o : BatchOptions} {directory : Path} {fs fs' files : FileSystem} {products : List Product}

namespace DeliversAll

theorem append_iff {before after : List Product} :
    DeliversAll o directory fs (before ++ after) fs' ↔
      ∃ middle, DeliversAll o directory fs before middle ∧ DeliversAll o directory middle after fs' := by
  constructor
  · intro h
    induction before generalizing fs with
    | nil => exact ⟨fs, .nil, h⟩
    | cons p rest ih =>
        cases h with
        | cons hstep hrest =>
            obtain ⟨middle, hbefore, hafter⟩ := ih hrest
            exact ⟨middle, .cons hstep hbefore, hafter⟩
  · rintro ⟨middle, hbefore, hafter⟩
    induction hbefore with
    | nil => exact hafter
    | cons hstep _ ih => exact .cons hstep (ih hafter)

theorem exists_changesOnly (h : DeliversAll o directory fs products fs') :
    ∃ places, ChangesOnly places fs fs' := by
  induction h with
  | nil => exact ⟨[], .refl [] _⟩
  | cons hstep _ ih =>
      obtain ⟨_, place, -, -, -, hchange⟩ := hstep.written
      obtain ⟨places, hchanges⟩ := ih
      exact ⟨_, hchange.trans hchanges⟩

theorem entry?_eq (h : DeliversAll o directory fs products fs') {places : List Place}
    (hlater : ChangesOnly places fs' files) {p : Path} {place : Place} (hplace : files.place? p = some place)
    {content : Bytes} (hentry : fs.entry? place = some (.file content)) :
    fs'.entry? place = some (.file (contentAfter files p content products)) := by
  induction h generalizing content with
  | nil => exact hentry
  | @cons fs middle fs' q rest hstep hrest ih =>
      obtain ⟨out, here, hout, hlocate, hwritten, hchange⟩ := hstep.written
      obtain ⟨changed, hchanges⟩ := hrest.exists_changesOnly
      have houtput : q.output.bind files.place? = some here := by
        rw [hout]
        exact place?_of_locate (hlater.locate (hchanges.locate hlocate))
      rw [contentAfter_cons, houtput, hplace]
      by_cases hhere : here = place
      · rw [if_pos (congrArg some hhere)]
        exact ih hlater (hhere ▸ hwritten)
      · rw [if_neg fun heq => hhere (Option.some.inj heq)]
        exact ih hlater (hchange.file (by simpa using Ne.symm hhere) hentry)

/-- Each template is compiled as the steps before left it, and each output holds what the steps behind left of it. -/
theorem exists_template {before after : List Product} {p : Product}
    (h : DeliversAll o directory fs (before ++ p :: after) fs') {content : Bytes}
    (hread : fs.read p.source = .ok content) :
    ∃ suffix out template,
      o.suffix = .str suffix ∧ out = outputPath p.source directory suffix ∧ p.output = some out ∧
      readText (contentAfter fs' p.source content before) = .ok template ∧
      (o.compileText p.source template).2 = .ok { p with output := none } ∧
      fs'.read out = .ok (contentAfter fs' out (Utf8.encode p.markup) after) := by
  obtain ⟨middle, hbefore, hrest⟩ := append_iff.mp h
  obtain ⟨earlier, hearlier⟩ := hbefore.exists_changesOnly
  obtain ⟨later, hlater⟩ := hrest.exists_changesOnly
  obtain ⟨here, hhere, hfile⟩ := read_eq_ok_iff.mp hread
  have hsource := hearlier.locate hhere
  cases hrest with
  | @cons _ middle' _ _ _ hstep hafter =>
      obtain ⟨suffix, hsuffix, houtput⟩ := hstep.output
      obtain ⟨template, hcompiled⟩ := hstep.compiled
      obtain ⟨out, place, hout, hlocate, hentry, -⟩ := hstep.written
      obtain ⟨last, hlast⟩ := hafter.exists_changesOnly
      have hplace := hlast.locate hlocate
      obtain ⟨found, hfound, htemplate⟩ := readTemplate_eq_ok_iff.mp hcompiled.1
      have hmiddle : middle.read p.source = .ok (contentAfter fs' p.source content before) :=
        read_eq_ok_iff.mpr ⟨here, hsource, hbefore.entry?_eq hlater (place?_of_locate (hlater.locate hsource)) hfile⟩
      obtain rfl := Except.ok.inj (hfound.symm.trans hmiddle)
      obtain rfl := Option.some.inj (hout.symm.trans houtput)
      refine ⟨suffix, _, template, hsuffix, rfl, hout, htemplate, hcompiled.2, ?_⟩
      exact read_eq_ok_iff.mpr ⟨place, hplace, hafter.entry?_eq (.refl [] fs') (place?_of_locate hplace) hentry⟩

end DeliversAll

theorem BatchStep.exists_of_andThen {α β : Type} {s : BatchStep α} {next : FileSystem → α → BatchStep β} {b : β}
    (h : (s.andThen next).result = .ok b) :
    ∃ a, s.result = .ok a ∧ (next s.files a).result = .ok b ∧ (s.andThen next).files = (next s.files a).files := by
  rw [andThen] at h ⊢
  cases hresult : s.result with
  | error fault => simp [hresult] at h
  | ok a =>
      rw [hresult] at h
      exact ⟨a, rfl, h, rfl⟩

namespace BatchOptions

theorem output_of_compileText {source : Path} {template : Text} {p : Product}
    (h : (o.compileText source template).2 = .ok p) : p.source = source ∧ p.output = none := by
  rw [compileText] at h
  dsimp only at h
  split at h
  · simp at h
  · split at h
    · simp at h
    · obtain rfl := Except.ok.inj h
      exact ⟨rfl, rfl⟩

theorem delivers_of_writeProduct {p written : Product} {template : Text}
    (hread : readTemplate fs p.source = .ok template) (hcompile : (o.compileText p.source template).2 = .ok p)
    (h : (o.writeProduct directory fs p).result = .ok written) :
    written.source = p.source ∧ Delivers o directory fs written (o.writeProduct directory fs p).files := by
  rw [writeProduct] at h ⊢
  cases hmake : fs.makeDirectories directory with
  | error fault => simp [hmake, BatchStep.ofExcept] at h
  | ok middle =>
      simp only [hmake] at h ⊢
      cases hsuffix : o.suffix with
      | str suffix =>
          simp only [outputSuffix, hsuffix] at h ⊢
          cases hwrite : middle.write (outputPath p.source directory suffix) (Utf8.encode p.markup) with
          | error fault => simp [hwrite, BatchStep.ofExcept] at h
          | ok fs' =>
              simp only [hwrite] at h ⊢
              obtain rfl := Except.ok.inj h
              obtain ⟨place, hlocate, hentry, hchange⟩ := exists_of_write hwrite
              have hnone : { p with output := none } = p := by
                rw [← (output_of_compileText hcompile).2]
              have hchanges := (changesOnly_of_makeDirectories hmake).trans hchange
              refine ⟨rfl, ⟨suffix, hsuffix, rfl⟩, ⟨template, hread, hnone ▸ hcompile⟩, ?_⟩
              exact ⟨_, place, rfl, hchange.locate hlocate, hentry, hchanges⟩
      | _ => simp [outputSuffix, hsuffix, BatchStep.ofExcept] at h

theorem delivers_of_compileFile {source : Path} {p : Product}
    (h : (o.compileFile (.directory directory) fs source).result = .ok p) :
    p.source = source ∧ Delivers o directory fs p (o.compileFile (.directory directory) fs source).files := by
  rw [compileFile] at h ⊢
  cases hread : readTemplate fs source with
  | error fault => simp [hread, BatchStep.ofExcept] at h
  | ok template =>
      simp only [hread] at h ⊢
      obtain ⟨compiled, hcompile, hwrite, hfiles⟩ := BatchStep.exists_of_andThen h
      obtain ⟨rfl, -⟩ := output_of_compileText hcompile
      rw [hfiles]
      exact delivers_of_writeProduct hread hcompile hwrite

theorem deliversAll_of_compileFiles {sources : List Path}
    (h : (o.compileFiles (.directory directory) fs sources).result = .ok products) :
    products.map Product.source = sources ∧
      DeliversAll o directory fs products (o.compileFiles (.directory directory) fs sources).files := by
  induction sources generalizing fs products with
  | nil =>
      obtain rfl := Except.ok.inj h
      exact ⟨rfl, .nil⟩
  | cons source rest ih =>
      rw [compileFiles] at h ⊢
      obtain ⟨p, hp, hothers, hfiles⟩ := BatchStep.exists_of_andThen h
      obtain ⟨others, hrest, hproducts, hfiles'⟩ := BatchStep.exists_of_andThen hothers
      obtain rfl := Except.ok.inj hproducts
      obtain ⟨hsource, hstep⟩ := delivers_of_compileFile hp
      obtain ⟨hsources, hsteps⟩ := ih hrest
      rw [hfiles, hfiles', List.map_cons, hsource, hsources]
      exact ⟨rfl, .cons hstep hsteps⟩

end BatchOptions

namespace Command

/-! ## The command -/

theorem filterAuxM_eq_nil {α ε : Type} {keep : α → Except ε Bool} {l kept : List α}
    (h : l.filterAuxM keep kept = .ok []) : kept = [] ∧ ∀ x ∈ l, keep x = .ok false := by
  induction l generalizing kept with
  | nil => exact ⟨Except.ok.inj h, by simp⟩
  | cons x rest ih =>
      obtain ⟨kept?, hx, h⟩ := bind_eq_ok_iff.mp h
      obtain ⟨hkept, hrest⟩ := ih h
      cases kept? with
      | true => cases hkept
      | false => exact ⟨hkept, List.forall_mem_cons.mpr ⟨hx, hrest⟩⟩

theorem exists_read_of_missingFiles {paths : List Path} (h : missingFiles files paths = .ok []) :
    ∀ p ∈ paths, ∃ content, files.read p = .ok content := by
  intro p hp
  obtain ⟨missing, hmissing, hreverse⟩ := bind_eq_ok_iff.mp h
  obtain rfl := List.reverse_eq_nil_iff.mp (Except.ok.inj hreverse)
  obtain ⟨found, hfile, hfound⟩ := bind_eq_ok_iff.mp ((filterAuxM_eq_nil hmissing).2 p hp)
  cases found with
  | true => exact isFile_eq_true_iff.mp hfile
  | false => cases hfound

variable {r : Resources} {arguments : List Text} {request : CompileRequest}

theorem compile_eq_compileFiles (hread : CompileRequest.form.read .empty arguments = .ok request)
    (hending : (compile r arguments).ending = .ok 0) :
    missingFiles r.files request.files = .ok [] ∧ compile r arguments = compileFiles r request := by
  rw [compile, hread] at hending ⊢
  simp only [compileExisting] at hending ⊢
  cases hmissing : missingFiles r.files request.files with
  | error fault => simp [hmissing, Resources.stop] at hending
  | ok missing =>
      cases missing with
      | nil => exact ⟨rfl, rfl⟩
      | cons p rest => simp [hmissing, Resources.reply] at hending

def batch (r : Resources) (request : CompileRequest) : BatchStep (List Product) :=
  (request.options r.settings).compileFiles request.destination r.files request.files

theorem compileFiles_of_ok {products : List Product} (h : (batch r request).result = .ok products) :
    compileFiles r request =
      { { r with files := (batch r request).files }.reply (products.flatMap productLines) 0 with
        records := (batch r request).records } := by
  rw [batch] at h
  simp only [compileFiles, h]
  rfl

theorem ending_compileFiles_of_error {f : BatchFault} (h : (batch r request).result = .error f) :
    (compileFiles r request).ending =
      match unhandled? f with
      | some fault => .error fault
      | none => .ok 1 := by
  rw [batch] at h
  simp only [compileFiles, h]
  cases unhandled? f <;> rfl

theorem exists_products_of_compileFiles (hending : (compileFiles r request).ending = .ok 0) :
    ∃ products, (batch r request).result = .ok products ∧ (compileFiles r request).files = (batch r request).files ∧
      (compileFiles r request).output = (products.flatMap productLines).flatMap fun line => line ++ ['\n'] := by
  cases hresult : (batch r request).result with
  | ok products =>
      rw [compileFiles_of_ok hresult]
      exact ⟨products, rfl, rfl, rfl⟩
  | error fault =>
      rw [ending_compileFiles_of_error hresult] at hending
      split at hending <;> cases hending

/-- The output of a template is kept: it holds what compiling gives for the template as it was at the start. -/
def KeepsOutput (o : BatchOptions) (initial files : FileSystem) (source out : Path) : Prop :=
  ∃ template product, BatchOptions.readTemplate initial source = .ok template ∧
    (o.compileText source template).2 = .ok product ∧ files.read out = .ok (Utf8.encode product.markup)

/-- Each template is compiled as the outputs before it left its file, and each output holds what the outputs behind it
left of it. So an output is kept if no earlier output is at the place of its template and no later one at its own. -/
theorem compile_outputs (hread : CompileRequest.form.read .empty arguments = .ok request)
    (hout : request.out = .value directory)
    (hending : (compile r arguments).ending = .ok 0) :
    let o := request.options r.settings
    let files := (compile r arguments).files
    ∃ products,
      (compile r arguments).output = (products.flatMap productLines).flatMap (fun line => line ++ ['\n']) ∧
      products.map Product.source = request.files ∧
      ∀ before p after, products = before ++ p :: after →
        ∃ suffix out content template,
          o.suffix = .str suffix ∧ out = outputPath p.source directory suffix ∧ p.output = some out ∧
          r.files.read p.source = .ok content ∧
          readText (contentAfter files p.source content before) = .ok template ∧
          (o.compileText p.source template).2 = .ok { p with output := none } ∧
          files.read out = .ok (contentAfter files out (Utf8.encode p.markup) after) ∧
          (NoneAt files p.source before → NoneAt files out after → KeepsOutput o r.files files p.source out) := by
  intro o files
  obtain ⟨hmissing, hcompile⟩ := compile_eq_compileFiles hread hending
  obtain ⟨products, hresult, hfiles, houtput⟩ := exists_products_of_compileFiles (hcompile ▸ hending)
  have hdestination : request.destination = .directory directory := by rw [CompileRequest.destination, hout]
  rw [batch, hdestination] at hresult hfiles
  obtain ⟨hsources, hsteps⟩ := BatchOptions.deliversAll_of_compileFiles hresult
  rw [← hfiles, ← hcompile] at hsteps
  refine ⟨products, hcompile ▸ houtput, hsources, ?_⟩
  rintro before p after rfl
  have hmem : p.source ∈ request.files := by simp [← hsources]
  obtain ⟨content, hcontent⟩ := exists_read_of_missingFiles hmissing p.source hmem
  obtain ⟨suffix, out, template, hsuffix, hpath, hpout, htemplate, hcompiled, hheld⟩ := hsteps.exists_template hcontent
  refine ⟨suffix, out, content, template, hsuffix, hpath, hpout, hcontent, htemplate, hcompiled, hheld, ?_⟩
  intro hbefore hafter
  rw [contentAfter_of_noneAt hbefore] at htemplate
  rw [contentAfter_of_noneAt hafter] at hheld
  exact ⟨template, _, readTemplate_eq_ok_iff.mpr ⟨content, hcontent, htemplate⟩, hcompiled, hheld⟩

/-- Two templates of one name in different directories. -/
def twins : Resources where
  settings := .shipped
  files := ((FileSystem.empty []).plant ["a".toList, "x.tpl".toList] (.file (Utf8.encode "p(one)".toList))).plant
    ["b".toList, "x.tpl".toList] (.file (Utf8.encode "p(two)".toList))
  supply := ⟨[], 0⟩

def twinArguments : List Text := ["a/x.tpl", "b/x.tpl", "--out", "out"].map String.toList

def twinRequest : CompileRequest where
  files := [.ofText "a/x.tpl".toList, .ofText "b/x.tpl".toList]
  out := .value (.ofText "out".toList)
  pretty := none
  separator := .absent
  marker := .absent

/-- Both outputs are reported, and only the second one is kept, as it stands where the first one stood. -/
theorem compile_outputs_twins :
    let answer := compile twins twinArguments
    let o := twinRequest.options .shipped
    ∃ first second out, answer.ending = .ok 0 ∧
      answer.output = ([first, second].flatMap productLines).flatMap (fun line => line ++ ['\n']) ∧
      first.output = some out ∧ second.output = some out ∧
      KeepsOutput o twins.files answer.files second.source out ∧
      ¬ KeepsOutput o twins.files answer.files first.source out := by
  have hread : CompileRequest.form.read .empty twinArguments = .ok twinRequest := rfl
  have hending : (compile twins twinArguments).ending = .ok 0 := toOption_eq_some_iff.mp (by decide +kernel)
  have hplaces : (compile twins twinArguments).files.place? (.ofText "out/x.html".toList) ≠
      (compile twins twinArguments).files.place? (.ofText "b/x.tpl".toList) := by
    decide +kernel
  have hheld : (compile twins twinArguments).files.read (.ofText "out/x.html".toList) =
      .ok (Utf8.encode "<p>two</p>".toList) :=
    toOption_eq_some_iff.mp (by decide +kernel)
  obtain ⟨products, houtput, hsources, hall⟩ := compile_outputs hread rfl hending
  generalize compile twins twinArguments = answer at *
  intro _ o
  obtain ⟨first, rest, rfl, hfirst, hrest⟩ := List.map_eq_cons_iff.mp hsources
  obtain ⟨second, none, rfl, hsecond, hnone⟩ := List.map_eq_cons_iff.mp hrest
  obtain rfl := List.map_eq_nil_iff.mp hnone
  -- both outputs lead to one path, whatever the sources are
  have hsuffix : ∀ {suffix}, o.suffix = .str suffix → suffix = ".html".toList := fun h => (Json.str.inj h).symm
  have hpath : ∀ source ∈ twinRequest.files,
      outputPath source (.ofText "out".toList) ".html".toList = .ofText "out/x.html".toList := by
    decide +kernel
  obtain ⟨suffix, out, -, -, hfirstSuffix, hout, hfirstOut, -⟩ := hall [] first [second] rfl
  rw [hsuffix hfirstSuffix, hpath _ (hsources ▸ by simp)] at hout
  obtain ⟨suffix', out', -, -, hsecondSuffix, hout', hsecondOut, -, -, -, -, hkept⟩ := hall [first] second [] rfl
  rw [hsuffix hsecondSuffix, hpath _ (hsources ▸ by simp)] at hout'
  obtain rfl : out' = out := hout'.trans hout.symm
  refine ⟨first, second, _, hending, houtput, hfirstOut, hsecondOut, hkept ?_ (by simp [NoneAt]), ?_⟩
  · rw [NoneAt, List.forall_mem_singleton, hfirstOut, hsecond, hout]
    exact hplaces
  · rintro ⟨template, product, htemplate, hproduct, hlost⟩
    rw [hfirst] at htemplate hproduct
    have hone : (BatchOptions.readTemplate twins.files (.ofText "a/x.tpl".toList)).toOption = some "p(one)".toList := by
      decide +kernel
    obtain rfl := Except.ok.inj (htemplate.symm.trans (toOption_eq_some_iff.mp hone))
    have hmarkup : (o.compileText (.ofText "a/x.tpl".toList) "p(one)".toList).2.toOption.map Product.markup =
        some "<p>one</p>".toList := by
      decide +kernel
    rw [hproduct] at hmarkup
    rw [hout, hheld, Option.some.inj hmarkup] at hlost
    exact absurd (Except.ok.inj hlost) (by decide +kernel)

end Command

end IndentMarkup
