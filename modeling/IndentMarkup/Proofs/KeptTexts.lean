import IndentMarkup.Batch
import IndentMarkup.Proofs.Overrides

/-!
# Texts that are kept

A text that cannot be converted to the kind of the value that it overrides stands as it is. This shows in two places.
The next override of the key finds a text, to which every text is converted, so the last of two overrides counts as
if it had been the only one exactly if the first text could be converted or the second one cannot
(`Settings.set_set_eq_iff`). And a switch counts as on by any text that is not empty, so pretty printing is turned on
by the words for yes and by every text that is no word at all (`Command.pretty_override`).
-/

namespace IndentMarkup

/-! ## Texts in the place of values -/

/-- A text can be converted to the kind of a value. The kind of null, which counts as no value, is that of any
text. -/
def Converts (old : Json) (text : Text) : Prop := ∃ v, convertLike old text = .ok v

theorem convertLike_congr {like other : Json} (h : like.kind = other.kind) (text : Text) :
    convertLike like text = convertLike other text := by
  cases like <;> cases other <;> first | rfl | exact absurd h (by simp [Json.kind])

theorem kind_ne_of_not_converts {old : Json} {text : Text} (h : ¬ Converts old text) :
    old ≠ .null ∧ ∀ other, old.kind ≠ (Json.str other).kind := by
  cases old with
  | null | str _ => exact absurd ⟨.str text, rfl⟩ h
  | _ => exact ⟨by simp, by simp [Json.kind]⟩

namespace Settings

def inPlaceOf (old : Json) (text : Text) : Json :=
  match replacement old (.str text) with
  | .ok v => v
  | .error _ => .str text

variable {old : Json} {first : Text}

theorem inPlaceOf_of_ok {v : Json} {text : Text} (hold : old ≠ .null) (h : convertLike old text = .ok v) :
    inPlaceOf old text = v := by
  rw [inPlaceOf, replacement_str hold, h]

theorem inPlaceOf_of_not_converts {text : Text} (h : ¬ Converts old text) : inPlaceOf old text = .str text := by
  rw [inPlaceOf, replacement_str (kind_ne_of_not_converts h).1]
  cases hconvert : convertLike old text with
  | ok v => exact absurd ⟨v, hconvert⟩ h
  | error fault => rfl

/-- A text that is converted keeps the kind, so the next one is converted as if it came first. -/
theorem inPlaceOf_inPlaceOf_of_converts (h : Converts old first) (second : Text) :
    inPlaceOf (inPlaceOf old first) second = inPlaceOf old second := by
  by_cases hold : old = .null
  · rw [hold]
    rfl
  · obtain ⟨v, hv⟩ := h
    have hkind : v.kind = old.kind := kind_convertLike hold hv
    have hne : v ≠ .null := by
      rintro rfl
      cases old with
      | null => exact hold rfl
      | _ => simp [Json.kind] at hkind
    rw [inPlaceOf_of_ok hold hv, inPlaceOf, inPlaceOf, replacement_str hne, replacement_str hold,
      convertLike_congr hkind]

/-- Behind a text that is kept every text is kept. -/
theorem inPlaceOf_inPlaceOf_of_not_converts (h : ¬ Converts old first) (second : Text) :
    inPlaceOf (inPlaceOf old first) second = .str second := by
  rw [inPlaceOf_of_not_converts h]
  rfl

theorem inPlaceOf_eq_str_iff (h : ¬ Converts old first) {second : Text} :
    inPlaceOf old second = .str second ↔ ¬ Converts old second := by
  refine ⟨?_, inPlaceOf_of_not_converts⟩
  rintro heq ⟨v, hv⟩
  obtain ⟨hold, hkind⟩ := kind_ne_of_not_converts h
  rw [inPlaceOf_of_ok hold hv] at heq
  exact hkind second (heq ▸ (kind_convertLike hold hv).symm)

/-! ## Two overrides of one key -/

variable {s t : Settings} {key : Text}

theorem overriding_str (s : Settings) (key text : Text) :
    s.overriding key (.str text) = inPlaceOf (lookUp (keyNames key) (.obj s)) text := rfl

theorem lookUp_putKey {v : Json} (h : s.putKey key v = .ok t) : lookUp (keyNames key) (.obj t) = v := by
  rw [keyNames_eq_cons]
  exact (congrArg (lookUp · _) (List.append_nil _).symm).trans (lookUp_putAt h [])

theorem putKey_of_set {given : Json} (h : (s.set key given).2.1 = true) :
    s.putKey key (s.overriding key given) = .ok (s.set key given).1 := by
  rcases set_cases s key given with ⟨t, hput, rfl, -⟩ | ⟨-, -, hrefused⟩
  · exact hput
  · simp [hrefused] at h

theorem putKey_set_set {first second : Text} (hfirst : (s.set key (.str first)).2.1 = true)
    (hsecond : ((s.set key (.str first)).1.set key (.str second)).2.1 = true) :
    s.putKey key (inPlaceOf (inPlaceOf (lookUp (keyNames key) (.obj s)) first) second) =
      .ok ((s.set key (.str first)).1.set key (.str second)).1 := by
  have hput := putKey_of_set hfirst
  have hagain := putKey_of_set hsecond
  rw [overriding_str, lookUp_putKey hput, overriding_str] at hagain
  rw [← hagain]
  exact (putAt_putAt hput _).symm

/-- The last of two overrides of a key counts as if it had been the only one exactly if the first text could be
converted to the kind of the value that the key had, or the second one cannot either. Otherwise the second text stands
as a text. -/
theorem set_set_eq_iff (s : Settings) (key first second : Text) (hfirst : (s.set key (.str first)).2.1 = true)
    (hsecond : ((s.set key (.str first)).1.set key (.str second)).2.1 = true) :
    let old := lookUp (keyNames key) (.obj s)
    let both := ((s.set key (.str first)).1.set key (.str second)).1
    (both = (s.set key (.str second)).1 ↔ Converts old first ∨ ¬ Converts old second) ∧
      (¬ Converts old first → s.putKey key (.str second) = .ok both) := by
  intro old both
  have hboth : s.putKey key (inPlaceOf (inPlaceOf old first) second) = .ok both := putKey_set_set hfirst hsecond
  -- nothing is in the way to the second override alone, as nothing was in the way to the first one
  have halone : s.putKey key (inPlaceOf old second) = .ok (s.set key (.str second)).1 := by
    rcases set_cases s key (.str second) with ⟨t, hput, rfl, -⟩ | ⟨hblocked, -⟩
    · exact hput
    · obtain ⟨blocked, hfail⟩ := putKey_eq_error_iff.mpr hblocked
      exact absurd (hfail.symm.trans hboth) (by simp)
  refine ⟨?_, fun hkept => ?_⟩
  · by_cases hconverts : Converts old first
    · rw [inPlaceOf_inPlaceOf_of_converts hconverts, halone] at hboth
      exact iff_of_true (Except.ok.inj hboth).symm (.inl hconverts)
    · rw [inPlaceOf_inPlaceOf_of_not_converts hconverts] at hboth
      rw [or_iff_right hconverts, ← inPlaceOf_eq_str_iff hconverts]
      constructor
      · intro heq
        rw [← lookUp_putKey halone, ← heq, lookUp_putKey hboth]
      · intro heq
        rw [heq, hboth] at halone
        exact Except.ok.inj halone
  · rw [← inPlaceOf_inPlaceOf_of_not_converts hkept second]
    exact hboth

def widthKey : Text := "window.width".toList

theorem set_set_eq_iff_numbers :
    (shipped.set widthKey (.str "640".toList)).2.1 = true ∧
      ((shipped.set widthKey (.str "640".toList)).1.set widthKey (.str "wide".toList)).2.1 = true ∧
      ((shipped.set widthKey (.str "640".toList)).1.set widthKey (.str "wide".toList)).1 =
        (shipped.set widthKey (.str "wide".toList)).1 := by
  obtain ⟨hlast, -⟩ :=
    set_set_eq_iff shipped widthKey "640".toList "wide".toList (by decide +kernel) (by decide +kernel)
  exact ⟨by decide +kernel, by decide +kernel, hlast.mpr (.inl ⟨.int 640, by rfl⟩)⟩

/-- A number behind a text that is no number stands as a text, while alone it stands as a number. -/
theorem set_set_ne_number :
    (shipped.set widthKey (.str "wide".toList)).2.1 = true ∧
      ((shipped.set widthKey (.str "wide".toList)).1.set widthKey (.str "1024".toList)).2.1 = true ∧
      ((shipped.set widthKey (.str "wide".toList)).1.set widthKey (.str "1024".toList)).1 ≠
        (shipped.set widthKey (.str "1024".toList)).1 := by
  refine ⟨by decide +kernel, by decide +kernel, fun heq => ?_⟩
  have hboth : ((shipped.set widthKey (.str "wide".toList)).1.set widthKey (.str "1024".toList)).1.value? widthKey =
      some (.str "1024".toList) := by rfl
  have halone : (shipped.set widthKey (.str "1024".toList)).1.value? widthKey = some (.int 1024) := by rfl
  rw [heq, halone] at hboth
  simp at hboth

end Settings

/-! ## A switch -/

/-- A text is a word for yes, in any case and with white space around it. -/
def IsYes (text : Text) : Prop := String.ofList (Text.lowerAscii text.trim) ∈ trueWords

def IsNo (text : Text) : Prop := String.ofList (Text.lowerAscii text.trim) ∈ falseWords

/-- A text in the place of a switch counts as true if it is a word for yes, or no word and not empty. -/
theorem isTrue_inPlaceOf_bool (switch : Bool) (text : Text) :
    (Settings.inPlaceOf (.bool switch) text).isTrue = true ↔ IsYes text ∨ ¬ IsNo text ∧ text ≠ [] := by
  rw [Settings.inPlaceOf, Settings.replacement_str (by simp), convertLike, readBoolean?, IsYes, IsNo]
  by_cases hyes : String.ofList (Text.lowerAscii text.trim) ∈ trueWords
  · simp [hyes, Json.isTrue]
  · by_cases hno : String.ofList (Text.lowerAscii text.trim) ∈ falseWords <;> simp [hyes, hno, Json.isTrue]

namespace Settings

def prettyKey : Text := "compile.pretty".toList

theorem exists_putKey_pretty (v : Json) : ∃ t, shipped.putKey prettyKey v = .ok t := ⟨_, rfl⟩

theorem override?_pretty (text : Text) : ∃ t, shipped.override? (prettyKey ++ '=' :: text) = some t ∧
    shipped.putKey prettyKey (inPlaceOf (.bool false) text) = .ok t := by
  obtain ⟨t, hput⟩ := exists_putKey_pretty (inPlaceOf (.bool false) text)
  have hcut : (prettyKey ++ '=' :: text).cutAt? '=' = some (prettyKey, text) := rfl
  have htrim : prettyKey.trim = prettyKey := by decide +kernel
  refine ⟨t, ?_, hput⟩
  rw [override?, hcut]
  rcases set_cases shipped prettyKey (.str text) with ⟨t', hput', ht, haccepted⟩ | ⟨hblocked, -⟩
  · obtain rfl : t = t' := Except.ok.inj (hput.symm.trans hput')
    simp [htrim, ht, haccepted]
  · obtain ⟨blocked, hfail⟩ := putKey_eq_error_iff.mpr hblocked
    exact absurd (hfail.symm.trans hput) (by simp)

end Settings

namespace BatchOptions

variable {o other : BatchOptions}

theorem builder_congr (hseparator : o.separator = other.separator) (hmarker : o.marker = other.marker)
    (container : Ref) : o.builder container = other.builder container := by
  rw [builder, builder, builderSeparator, builderSeparator, builderMarker, builderMarker, hseparator, hmarker]

theorem compileText_of_pretty (hother : other = { o with pretty := other.pretty }) {source : Path} {template : Text}
    {product : Product} (h : (o.compileText source template).2 = .ok product) :
    ∃ trees, product.markup = Tree.markup o.pretty trees ∧
      (other.compileText source template).2 = .ok { product with markup := Tree.markup other.pretty trees } := by
  have hbuilder : ∀ container, other.builder container = o.builder container :=
    builder_congr (hother ▸ rfl) (hother ▸ rfl)
  simp only [compileText, hbuilder] at h ⊢
  split at h
  · simp at h
  · split at h
    · simp at h
    · obtain rfl := Except.ok.inj h
      exact ⟨_, rfl, rfl⟩

end BatchOptions

namespace Settings

variable {t : Settings} {v : Json}

theorem valueOr_pretty (h : shipped.putKey prettyKey v = .ok t) (hv : v ≠ .null) (other : Json) :
    t.valueOr "compile.pretty" other = v := by
  have hvalue : t.value? "compile.pretty".toList = some v := value?_eq_some_iff.mpr ⟨lookUp_putKey h, hv⟩
  rw [valueOr, hvalue]
  rfl

theorem valueOr_of_apart (h : shipped.putKey prettyKey v = .ok t) {key : String}
    (habove : ¬ keyNames key.toList <+: keyNames prettyKey) (hbelow : ¬ keyNames prettyKey <+: keyNames key.toList)
    (other : Json) : t.valueOr key other = shipped.valueOr key other := by
  rw [keyNames_eq_cons prettyKey] at habove hbelow
  rw [valueOr, valueOr, value?_congr (lookUp_putAt_of_apart h habove hbelow)]

end Settings

theorem BatchOptions.ofSettings_pretty {t : Settings} {v : Json}
    (h : Settings.shipped.putKey Settings.prettyKey v = .ok t) (hv : v ≠ .null) (separator marker : Option Text) :
    ofSettings t separator marker none = { ofSettings .shipped separator marker none with pretty := v.isTrue } := by
  rw [ofSettings, ofSettings, Settings.valueOr_pretty h hv, Settings.valueOr_of_apart h (by decide) (by decide),
    Settings.valueOr_of_apart h (by decide) (by decide), Settings.valueOr_of_apart h (by decide) (by decide)]
  rfl

namespace Command

/-- A text for pretty printing turns it on if it is a word for yes, and also if it is no word at all and not empty.
What is compiled with the settings that the program comes with is compiled to the same elements then, and their markup
is printed as the switch says. -/
theorem pretty_override (text : Text) {rest : List Text} (hrest : rest.head? ≠ some "--set".toList)
    (separator marker : Option Text) :
    let o := applyOverrides .shipped (overrideArguments [Settings.prettyKey ++ '=' :: text] ++ rest)
    let options := BatchOptions.ofSettings o.settings separator marker none
    o.rest = .ok rest ∧ (options.pretty = true ↔ IsYes text ∨ ¬ IsNo text ∧ text ≠ []) ∧
      ∀ source template product,
        ((BatchOptions.ofSettings .shipped separator marker none).compileText source template).2 = .ok product →
        ∃ trees, product.markup = Tree.markup false trees ∧
          (options.compileText source template).2 =
            .ok { product with markup := Tree.markup options.pretty trees } := by
  intro o options
  obtain ⟨t, hoverride, hput⟩ := Settings.override?_pretty text
  have hitems : [Settings.prettyKey ++ '=' :: text].foldlM Settings.override? .shipped = some t := by
    rw [List.foldlM_cons, hoverride]
    rfl
  obtain ⟨t', hitems', hsettings, hbehind⟩ | ⟨hnone, -⟩ :=
    applyOverrides_overrideArguments .shipped [Settings.prettyKey ++ '=' :: text] hrest
  · obtain rfl : t = t' := Option.some.inj (hitems.symm.trans hitems')
    have hvalue : Settings.inPlaceOf (.bool false) text ≠ .null :=
      (Settings.overrides_overriding .shipped Settings.prettyKey (.str text)).ne_null (by simp)
        fun hold => (Settings.value?_eq_some_iff.mp hold).2 rfl
    have hoptions : options = { BatchOptions.ofSettings .shipped separator marker none with
        pretty := (Settings.inPlaceOf (.bool false) text).isTrue } := by
      rw [← BatchOptions.ofSettings_pretty hput hvalue, ← hsettings]
    have hpretty : options.pretty = (Settings.inPlaceOf (.bool false) text).isTrue := by rw [hoptions]
    refine ⟨hbehind, by rw [hpretty, isTrue_inPlaceOf_bool], fun source template product h => ?_⟩
    exact BatchOptions.compileText_of_pretty (hpretty ▸ hoptions) h
  · simp [hitems] at hnone

/-- A text that is no word turns pretty printing on. -/
theorem pretty_override_maybe :
    let o := applyOverrides .shipped
      (overrideArguments [Settings.prettyKey ++ '=' :: "maybe".toList] ++ ["compile".toList, "x.tpl".toList])
    ["compile".toList, "x.tpl".toList].head? ≠ some "--set".toList ∧ ¬ IsYes "maybe".toList ∧
      (BatchOptions.ofSettings o.settings none none none).pretty = true := by
  have hrest : ["compile".toList, "x.tpl".toList].head? ≠ some "--set".toList := by decide
  have hyes : ¬ IsYes "maybe".toList := by rw [IsYes]; decide +kernel
  have hno : ¬ IsNo "maybe".toList := by rw [IsNo]; decide +kernel
  exact ⟨hrest, hyes, (pretty_override "maybe".toList hrest none none).2.1.mpr (.inr ⟨hno, by decide⟩)⟩

end Command

end IndentMarkup
