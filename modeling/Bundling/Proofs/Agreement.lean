import Bundling.Proofs.JsonIntegers
import Bundling.Proofs.TomlIntegers
import Bundling.Proofs.Variables
import Bundling.Proofs.YamlIntegers

/-!
All ways to configure integer limits come to the same. Job parameters and variables hold the decimal
text of an integer, and files of all formats and the data form hold the integer itself; read from
any of them, or one limit from a variable and the other from a file, the limits are those that were
written. So is what follows from them: the policy and the replacements that are reported. All that
is asked of who reads text is to read a decimal integer as that integer.
-/

set_option autoImplicit false
set_option relaxedAutoImplicit false

namespace Bundling

/-! ### Files -/

namespace DocumentFormat

/-- Integers by name in a format. -/
def written : DocumentFormat → IntegerTable → List Char
  | toml, t => t.lines Toml.mark
  | yaml, t => t.lines Yaml.mark
  | json, t => Json.compactText (.object (Json.members t))

/-- How the names of files in a format end. -/
def extensions : DocumentFormat → List String
  | toml => ["toml"]
  | yaml => ["yaml", "yml"]
  | json => ["json"]

/-- The name of a file in a format: something that is no directory, a point and an extension. -/
def Names (format : DocumentFormat) (path : String) : Prop :=
  ∃ stem extension, extension ∈ format.extensions ∧
    path.toList = stem ++ '.' :: extension.toList ∧ ∃ c ∈ stem.getLast?, c ≠ '/'

end DocumentFormat

/-- A file of integers by name. -/
def SettingsFile.ofTable (path : String) (format : DocumentFormat) (t : IntegerTable) :
    SettingsFile :=
  ⟨path, .text (String.ofList (format.written t))⟩

namespace Backend

/-- A decimal integer is read as that integer, from a variable and from a file of any format. -/
structure ReadsIntegers (b : Backend) : Prop where
  guess_text : ∀ n : Int64, b.guess (Decimal.text n.toInt) = .integer n
  int64?_integer : ∀ n, b.int64? (.integer n) = some n
  table_ofTable : ∀ (path : String) (format : DocumentFormat) (t : IntegerTable),
    format.Names path → t.Named →
      ∃ d, b.table (.ofTable path format t) = .ok d ∧ ∀ e, e ∈ d ↔ e ∈ t.document

/-! ### What a source says -/

/-- No key is about a setting, not even as a path into it. -/
def Silent (b : Backend) (d : Document) (name : String) : Prop := ∀ e ∈ d, b.subject e.1 ≠ name

/-- A key is about a setting, and none that is about it is a path; they all hold the same. -/
structure Says (b : Backend) (d : Document) (name : String) (x : Datum) : Prop where
  entry : ∃ e ∈ d, b.subject e.1 = name
  only : ∀ e ∈ d, b.subject e.1 = name → b.isPath e.1 = false ∧ e.2 = x

/-- No variable is about a setting, not even by a path into it. -/
def SilentVariables (b : Backend) (env : Environment) (name : String) : Prop :=
  ∀ v ∈ env, ∀ key ∈ Environment.settingKey? v.1, b.subject key ≠ name

instance (b : Backend) (env : Environment) (name : String) :
    Decidable (b.SilentVariables env name) :=
  inferInstanceAs (Decidable (∀ v ∈ env, ∀ key ∈ Environment.settingKey? v.1,
    b.subject key ≠ name))

/-- A variable is about a setting, and none that is about it has a path for its key; they all have
the same text. -/
structure Gives (b : Backend) (env : Environment) (name text : String) : Prop where
  entry : ∃ v ∈ env, ∃ key ∈ Environment.settingKey? v.1, b.subject key = name
  only : ∀ v ∈ env, ∀ key ∈ Environment.settingKey? v.1, b.subject key = name →
    b.isPath key = false ∧ v.2 = text

/-- A limit gets into the settings as an integer: a variable holds its text, or no variable is about
it and the file holds it. -/
def Configured (b : Backend) (table : Document) (env : Environment) (name : String) (n : Int64) :
    Prop :=
  b.Gives env name (Decimal.text n.toInt) ∨
    b.SilentVariables env name ∧ b.Says table name (.integer n)

variable {b : Backend} {s : Settings} {origin : Origin} {name text : String} {d d' : Document}
  {x : Datum} {env : Environment} {table : Document} {n : Int64}

theorem Merges.lookup_merge_of_silent (hb : b.Merges) (h : b.Silent d name) :
    (b.merge s origin d).lookup name = s.lookup name := by
  induction d generalizing s with
  | nil => rfl
  | cons e d ih =>
    obtain ⟨he, hd⟩ := List.forall_mem_cons.mp h
    have hcons : b.merge s origin (e :: d) = b.merge (b.set s origin e.1 e.2) origin d :=
      List.foldl_cons ..
    rw [hcons, ih hd, hb.lookup_set_of_ne _ _ _ _ _ he]

/-- Merged, a source that says something of a setting is the one that counts. -/
theorem Merges.lookup_merge_eq_place (hb : b.Merges) (h : b.Says d name x) :
    (b.merge s origin d).lookup name = some (b.place origin x) := by
  -- the last key about the setting decides
  induction d using List.reverseRecOn with
  | nil =>
    obtain ⟨e, he, -⟩ := h.entry
    cases he
  | append_singleton d e ih =>
    have hsnoc : b.merge s origin (d ++ [e]) = b.set (b.merge s origin d) origin e.1 e.2 :=
      List.foldl_append
    rw [hsnoc]
    by_cases he : b.subject e.1 = name
    · obtain ⟨hname, hvalue⟩ := h.only e (List.mem_append_right d (List.mem_singleton_self e)) he
      rw [hb.lookup_set _ _ _ _ _ hname, ← hb.subject _ hname, he, if_pos rfl, hvalue]
    · rw [hb.lookup_set_of_ne _ _ _ _ _ he]
      refine ih ⟨?_, fun e' he' ↦ h.only e' (List.mem_append_left [e] he')⟩
      obtain ⟨e', hmem, hsubject⟩ := h.entry
      rcases List.mem_append.mp hmem with hmem | hmem
      · exact ⟨e', hmem, hsubject⟩
      · rw [List.mem_singleton.mp hmem] at hsubject
        exact absurd hsubject he

theorem Says.congr (h : b.Says d name x) (hsame : ∀ e, e ∈ d' ↔ e ∈ d) : b.Says d' name x := by
  obtain ⟨e, he, hsubject⟩ := h.entry
  exact ⟨⟨e, (hsame e).mpr he, hsubject⟩, fun e' he' ↦ h.only e' ((hsame e').mp he')⟩

theorem Configured.congr (h : b.Configured d env name n) (hsame : ∀ e, e ∈ d' ↔ e ∈ d) :
    b.Configured d' env name n :=
  h.imp_right fun hfile ↦ ⟨hfile.1, hfile.2.congr hsame⟩

theorem Merges.says_variables (hb : b.Merges) (h : b.Gives env name text) :
    b.Says (b.fromVariables Environment.variablePrefix env) name (b.guess text) where
  entry := by
    obtain ⟨v, hv, key, hkey, hsubject⟩ := h.entry
    exact ⟨(key, b.guess v.2), hb.mem_variables_iff.mpr ⟨v, hv, hkey, rfl⟩, hsubject⟩
  only := by
    intro e he hsubject
    obtain ⟨v, hv, hkey, hguess⟩ := hb.mem_variables_iff.mp he
    obtain ⟨hname, htext⟩ := h.only v hv e.1 hkey hsubject
    exact ⟨hname, by rw [← hguess, htext]⟩

theorem Merges.silent_variables (hb : b.Merges) (h : b.SilentVariables env name) :
    b.Silent (b.fromVariables Environment.variablePrefix env) name := by
  intro e he
  obtain ⟨v, hv, hkey, -⟩ := hb.mem_variables_iff.mp he
  exact h v hv e.1 hkey

theorem Merges.datum_of_configured (hb : b.Merges) (hr : b.ReadsIntegers)
    (h : b.Configured table env name n) (origin : Origin) :
    ((b.merge (b.merge [] origin table) .environment
      (b.fromVariables Environment.variablePrefix env)).lookup name).map Setting.datum =
        some (.integer n) := by
  rcases h with hvariable | ⟨hsilent, hfile⟩
  · rw [hb.lookup_merge_eq_place (hb.says_variables hvariable), Option.map_some, hb.datum_place,
      hr.guess_text]
  · rw [hb.lookup_merge_of_silent (hb.silent_variables hsilent), hb.lookup_merge_eq_place hfile,
      Option.map_some, hb.datum_place]

/-- Configured integers are loaded as they are. -/
theorem load_of_configured {file : Option SettingsFile} {l : Limits} (hb : b.Merges)
    (hr : b.ReadsIntegers) (hfile : b.Holds file table)
    (hsize : b.Configured table env Limits.sizeName l.size)
    (hage : b.Configured table env Limits.ageName l.ageMillis) : b.load file env = .ok l := by
  rw [load_eq_ok_iff (sources_eq hfile env), limits_eq_ok_iff, integer_eq_ok_iff,
    integer_eq_ok_iff, hb.datum_of_configured hr hsize, hb.datum_of_configured hr hage]
  exact ⟨hr.int64?_integer _, hr.int64?_integer _⟩

end Backend

/-! ### Texts of integers -/

/-- A variable whose text is that of an integer holds the integer. -/
theorem Datum.guess_text (n : Int64) : guess (Decimal.text n.toInt) = .integer n := by
  obtain ⟨d, ds, hof, hd, -⟩ := Decimal.exists_ofInt_cons n.toInt
  have hword : Text.lower (Decimal.text n.toInt) ∉ onWords ++ offWords := by
    intro hmem
    rw [Decimal.text, hof] at hmem
    rcases hd with rfl | hd
    · exact absurd (isAlpha_of_word (by decide) hmem) (by decide)
    · obtain ⟨hascii, hnot⟩ := isAlpha_eq_false_of_isDigit hd
      rw [isAlpha_of_word hascii hmem] at hnot
      cases hnot
  have hne {word : String} (hmem : word ∈ onWords ++ offWords) :
      Text.lower (Decimal.text n.toInt) ≠ word := fun heq ↦ hword (heq ▸ hmem)
  have hvalue : Decimal.toInt64? (Decimal.text n.toInt).toList = some n := by
    rw [Decimal.text, String.toList_ofList, Decimal.toInt64?_ofInt]
  unfold guess
  dsimp only
  rw [if_neg (hne (by decide)), if_neg (hne (by decide)), hvalue]

namespace DocumentFormat

/-- In every format the reader gets the integers that were written. -/
theorem read?_written (format : DocumentFormat) {t : IntegerTable} (h : t.Named) :
    format.read? (format.written t) = some t.document := by
  cases format with
  | toml => exact IntegerTable.toml_document? h
  | yaml => exact IntegerTable.yaml_document? h
  | json => exact IntegerTable.json_document? h

theorem suffix?_of_stem {stem extension : List Char} {c : Char} (hlast : c ∈ stem.getLast?)
    (hc : c ≠ '/') (hextension : (extension.all fun c ↦ c != '/' && c != '.') = true) :
    suffix? (stem ++ '.' :: extension) = some extension := by
  obtain ⟨front, rfl⟩ : ∃ front, stem = front ++ [c] :=
    ⟨_, (List.dropLast_append_getLast? c hlast).symm⟩
  simp only [List.all_eq_true, Bool.and_eq_true, bne_iff_ne] at hextension
  have hlastStep : (extension.reverse ++ '.' :: c :: front.reverse).takeWhile (· != '.') =
      extension.reverse := by
    rw [List.takeWhile_append_of_pos (by simpa using fun c hc ↦ (hextension c hc).2)]
    simp
  have hfile : (extension.reverse ++ '.' :: c :: front.reverse).takeWhile (· != '/') =
      extension.reverse ++ '.' :: c :: front.reverse.takeWhile (· != '/') := by
    rw [List.takeWhile_append_of_pos (by simpa using fun c hc ↦ (hextension c hc).1)]
    simp [hc]
  have hreverse : (front ++ [c] ++ '.' :: extension).reverse =
      extension.reverse ++ '.' :: c :: front.reverse := by simp
  have hlastFile : (extension.reverse ++ '.' :: c :: front.reverse.takeWhile (· != '/')).takeWhile
      (· != '.') = extension.reverse := by
    rw [List.takeWhile_append_of_pos (by simpa using fun c hc ↦ (hextension c hc).2)]
    simp
  unfold suffix?
  dsimp only
  rw [hreverse, hfile, List.reverse_reverse, hlastFile, List.reverse_reverse, if_pos]
  simp
  omega

theorem ofName?_of_names {format : DocumentFormat} {path : String} (h : format.Names path) :
    ofName? path = some format := by
  obtain ⟨stem, extension, hextension, hpath, c, hlast, hc⟩ := h
  have hplain : format.extensions.all (·.toList.all fun c ↦ c != '/' && c != '.') = true := by
    cases format <;> decide +kernel
  have hformat : ∀ word ∈ format.extensions, ofExtension? word = some format := by
    cases format <;> decide +kernel
  unfold ofName?
  rw [hpath, suffix?_of_stem hlast hc (List.all_eq_true.mp hplain _ hextension), Option.map_some,
    Option.bind_some, String.ofList_toList]
  exact hformat extension hextension

end DocumentFormat

theorem SettingsFile.table_ofTable {path : String} {format : DocumentFormat} {t : IntegerTable}
    (hpath : format.Names path) (h : t.Named) : (ofTable path format t).table = .ok t.document := by
  unfold table ofTable
  dsimp only
  rw [DocumentFormat.ofName?_of_names hpath]
  dsimp only
  rw [String.toList_ofList, format.read?_written h]

theorem Backend.standard_readsIntegers : standard.ReadsIntegers where
  guess_text := fun n ↦ (standard_guess _).trans (Datum.guess_text n)
  int64?_integer := fun _ ↦ rfl
  table_ofTable := fun _ _ t hpath h ↦
    ⟨t.document, SettingsFile.table_ofTable hpath h, fun _ ↦ Iff.rfl⟩

theorem Text.isBlank_of_isDigit {c : Char} (h : c.isDigit = true) : isBlank c = false := by
  have hcode : 48 ≤ c.toNat ∧ c.toNat ≤ 57 := by
    simpa [Char.isDigit, UInt32.le_iff_toNat_le] using h
  simp only [isBlank, Bool.or_eq_false_iff, Bool.and_eq_false_iff, decide_eq_false_iff_not,
    beq_eq_false_iff_ne]
  omega

namespace Parameters

/-- No blanks surround the text of an integer, so nothing is cut off. -/
theorem value?_text (n : Int64) : value? (Decimal.text n.toInt) = some n := by
  have hblank : ∀ c ∈ Decimal.ofInt n.toInt, Text.isBlank c = false := by
    intro c hc
    rcases Decimal.forall_mem_ofInt _ c hc with rfl | hdigit
    · rfl
    · exact Text.isBlank_of_isDigit hdigit
  have htrims : Text.Trims (Decimal.ofInt n.toInt) (Decimal.ofInt n.toInt) :=
    ⟨⟨[], [], by simp, by simp, by simp⟩, fun c hc ↦ hblank c (List.mem_of_mem_head? hc),
      fun c hc ↦ hblank c (List.mem_of_mem_getLast? hc)⟩
  unfold value?
  rw [Decimal.text, String.toList_ofList, Text.trimChars_eq_iff.mpr htrims, Decimal.toInt64?_ofInt]

theorem check_text {get : String → Option String} {l : Limits}
    (hsize : get sizeKey = some (Decimal.text l.size.toInt))
    (hage : get ageKey = some (Decimal.text l.ageMillis.toInt)) : check get = l.check := by
  have hvalueOr (fallback n : Int64) : valueOr fallback (some (Decimal.text n.toInt)) = n := by
    simp [valueOr, value?_text]
  have hunreadable (n : Int64) : unreadable (some (Decimal.text n.toInt)) = none := by
    simp [unreadable, value?_text]
  have hlimits : limits get = l := by
    unfold limits
    rw [hsize, hage, hvalueOr, hvalueOr]
  have hfallbacks : fallbacks get = [] := by
    unfold fallbacks
    rw [hsize, hage, hunreadable, hunreadable]
    rfl
  unfold check
  rw [hlimits, hfallbacks]
  rfl

end Parameters

/-! ### Limits -/

namespace Limits

open Backend

theorem notMem_words {name : String} (h : name ∈ names) :
    name ∉ ["null", "true", "false", "NaN"] := by
  rcases List.mem_pair.mp h with rfl | rfl <;> decide

theorem named_of_names {t : IntegerTable} (hnames : ∀ e ∈ t, e.1 ∈ names)
    (hnodup : (t.map Prod.fst).Nodup) : t.Named :=
  ⟨fun e he ↦ letters_of_mem (hnames e he), fun e he ↦ notMem_words (hnames e he), hnodup⟩

theorem fallbacks_eq (l : Limits) : l.fallbacks =
    (if 0 < l.size.toInt then [] else [.size (Decimal.text l.size.toInt)]) ++
      if 0 < l.ageMillis.toInt then [] else [.age (Decimal.text l.ageMillis.toInt)] := by
  simp only [fallbacks, le_zero_iff, ite_not]

/-- Integer limits come to the same however they are configured. A policy has each of them if it is
positive and 1000 otherwise, read back without loss on every scale, and what is replaced is reported
with its text. The same policy and the same report follow from job parameters with their texts; the
same limits are loaded from variables, from a file that holds them or from both, be the file written
as TOML, YAML or JSON, and are read back from their data form. -/
theorem routes_agree {b : Backend} {codec : Json.Codec} (hb : b.Merges) (hr : b.ReadsIntegers)
    (hcodec : codec.ReadsIntegers) (l : Limits) :
    ((l.check.policy.maxItems.toNat : Int) =
        (if 0 < l.size.toInt then l.size.toInt else 1000) ∧
      (l.check.policy.maxAge.toMillis : Int) =
        (if 0 < l.ageMillis.toInt then l.ageMillis.toInt else 1000) ∧
      l.check.policy.maxAgeMillis.toInt =
        (if 0 < l.ageMillis.toInt then l.ageMillis.toInt else 1000) ∧
      l.check.fallbacks =
        (if 0 < l.size.toInt then [] else [.size (Decimal.text l.size.toInt)]) ++
          if 0 < l.ageMillis.toInt then [] else [.age (Decimal.text l.ageMillis.toInt)]) ∧
    (∀ get : String → Option String,
      get "bundle.max-size" = some (Decimal.text l.size.toInt) →
      get "bundle.max-time-millis" = some (Decimal.text l.ageMillis.toInt) →
      Parameters.check get = l.check) ∧
    (∀ (file : Option SettingsFile) (table : Document) (env : Environment), b.Holds file table →
      b.Configured table env "max_bundle_size" l.size →
      b.Configured table env "max_bundle_time_millis" l.ageMillis → b.load file env = .ok l) ∧
    (∀ (path : String) (format : DocumentFormat) (t : IntegerTable) (env : Environment),
      format.Names path → t.Named →
      b.Configured t.document env "max_bundle_size" l.size →
      b.Configured t.document env "max_bundle_time_millis" l.ageMillis →
      b.load (some (.ofTable path format t)) env = .ok l) ∧
    readWith? codec (codec.write l.json) = some l := by
  have hage : (l.policy.maxAge.toMillis : Int) =
      if 0 < l.ageMillis.toInt then l.ageMillis.toInt else 1000 := by
    rw [l.toMillis_maxAge]
    exact toNat_positiveOr_eq l.ageMillis
  have hmillis := l.toInt_maxAgeMillis
  rw [hage] at hmillis
  refine ⟨⟨toNat_positiveOr_eq l.size, hage, hmillis, l.fallbacks_eq⟩,
    fun get ↦ Parameters.check_text, fun file table env ↦ load_of_configured hb hr, ?written, ?data⟩
  case written =>
    intro path format t env hpath hnamed hsize hage
    obtain ⟨d, htable, hsame⟩ := hr.table_ofTable path format t hpath hnamed
    have hholds : b.Holds (some (.ofTable path format t)) d := by
      change b.document _ = _
      rw [document, if_neg (by simp [SettingsFile.ofTable]), htable]
    exact load_of_configured hb hr hholds (hsize.congr hsame) (hage.congr hsame)
  case data =>
    have hnamed : IntegerTable.Named [(sizeName, l.size), (ageName, l.ageMillis)] :=
      named_of_names (by simp [names]) (by simp [sizeName, ageName])
    rw [readWith?, json_eq, hcodec.read?_write _ hnamed, Option.bind_some, ← json_eq]
    exact l.ofJson?_json

/-- The largest word and the least one come out the same whether parameters hold them, variables do,
a file does, or a variable one and a file the other. -/
theorem routes_agree_extremes :
    let l : Limits := ⟨Int64.maxValue, Int64.minValue⟩
    let params := [("bundle.max-size", "9223372036854775807"),
      ("bundle.max-time-millis", "-9223372036854775808")]
    let env : Environment := [("BUNDLER_MAX_BUNDLE_SIZE", "9223372036854775807"),
      ("Bundler_Max_Bundle_Time_Millis", "-9223372036854775808")]
    let file : SettingsFile := ⟨"limits.yml",
      .text ("max_bundle_size: 9223372036854775807\n" ++
        "max_bundle_time_millis: -9223372036854775808\n")⟩
    let ageFile : SettingsFile :=
      ⟨"limits.toml", .text "max_bundle_time_millis = -9223372036854775808\n"⟩
    Parameters.check (params.lookup ·) = l.check ∧ load none env = .ok l ∧
      load (some file) [] = .ok l ∧ load (some ageFile) (env.take 1) = .ok l ∧
      ofText? l.json.compactText = some l := by
  intro l params env file ageFile
  obtain ⟨-, hparams, hload, hfile, hdata⟩ := routes_agree standard_merges standard_readsIntegers
    Json.Codec.standard_readsIntegers l
  have hsize : standard.Gives env "max_bundle_size" (Decimal.text l.size.toInt) :=
    ⟨by decide +kernel, by decide +kernel⟩
  have hage : standard.Gives env "max_bundle_time_millis" (Decimal.text l.ageMillis.toInt) :=
    ⟨by decide +kernel, by decide +kernel⟩
  refine ⟨?params, hload none [] env rfl (.inl hsize) (.inl hage), ?file, ?mixed, hdata⟩
  case params => exact hparams (params.lookup ·) (by decide +kernel) (by decide +kernel)
  case file =>
    let t : IntegerTable := [(sizeName, l.size), (ageName, l.ageMillis)]
    have htext : "max_bundle_size: 9223372036854775807\n" ++
        "max_bundle_time_millis: -9223372036854775808\n" =
      String.ofList (DocumentFormat.written .yaml t) := by decide +kernel
    have ht : file = .ofTable "limits.yml" .yaml t :=
      congrArg (fun s ↦ (⟨"limits.yml", .text s⟩ : SettingsFile)) htext
    have hpath : DocumentFormat.yaml.Names "limits.yml" :=
      ⟨"limits".toList, "yml", by decide, by decide +kernel, 's', rfl, by decide⟩
    have hnamed : t.Named := named_of_names (by decide +kernel) (by decide +kernel)
    rw [ht]
    exact hfile "limits.yml" .yaml t [] hpath hnamed
      (.inr ⟨by decide +kernel, by decide +kernel, by decide +kernel⟩)
      (.inr ⟨by decide +kernel, by decide +kernel, by decide +kernel⟩)
  case mixed =>
    let t : IntegerTable := [(ageName, l.ageMillis)]
    have htext : "max_bundle_time_millis = -9223372036854775808\n" =
      String.ofList (DocumentFormat.written .toml t) := by decide +kernel
    have ht : ageFile = .ofTable "limits.toml" .toml t :=
      congrArg (fun s ↦ (⟨"limits.toml", .text s⟩ : SettingsFile)) htext
    have hpath : DocumentFormat.toml.Names "limits.toml" :=
      ⟨"limits".toList, "toml", by decide, by decide +kernel, 's', rfl, by decide⟩
    have hnamed : t.Named := named_of_names (by decide +kernel) (by decide +kernel)
    rw [ht]
    exact hfile "limits.toml" .toml t (env.take 1) hpath hnamed
      (.inl ⟨by decide +kernel, by decide +kernel⟩)
      (.inr ⟨by decide +kernel, by decide +kernel, by decide +kernel⟩)

end Limits

end Bundling
