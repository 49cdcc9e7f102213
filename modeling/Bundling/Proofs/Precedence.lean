import Bundling.Proofs.IntegerTables
import Bundling.Proofs.Lowercase
import Bundling.Settings.Standard

/-!
Which source a limit is taken from. As long as the keys of a source differ by more than case and are
no paths, a setting has what the environment says of it, what the file says if the environment says
nothing, and its default if neither does. What the sources say of anything else plays no part, for
the limits as little as for a failure. All this rests on what a backend promises of merging, which
the standard one keeps.
-/

set_option autoImplicit false
set_option relaxedAutoImplicit false

namespace Bundling

/-- What a document says of a setting, whose name is in lower case. -/
def Document.said? (d : Document) (name : String) : Option Datum :=
  (d.find? fun e ↦ Text.lower e.1 = name).map Prod.snd

/-- How the names of the variables that hold settings start, in lower case. -/
def Environment.settingsPrefix : String := "bundler_"

/-- The key of the setting that a variable holds. -/
def Environment.settingKey? (variableName : String) : Option String :=
  key? variablePrefix variableName

namespace Backend

/-- Sources are merged as they should be. Keys are the same up to case, a later value wins over an
earlier one, and no setting is touched that a key is not about. A variable holds a setting if its
name starts with the prefix and an underscore, which its key does not have. -/
structure Merges (b : Backend) : Prop where
  isPath_of_letters : ∀ key : String, key.toList ≠ [] →
    (∀ c ∈ key.toList, isNameLetter c = true) → b.isPath key = false
  subject : ∀ key, b.isPath key = false → b.subject key = Text.lower key
  datum_place : ∀ origin d, (b.place origin d).datum = d
  lookup_set : ∀ s origin key d name, b.isPath key = false →
    (b.set s origin key d).lookup name =
      if name = Text.lower key then some (b.place origin d) else s.lookup name
  lookup_set_of_ne : ∀ s origin key d name, b.subject key ≠ name →
    (b.set s origin key d).lookup name = s.lookup name
  mem_fromVariables : ∀ stem env e, e ∈ b.fromVariables stem env ↔
    ∃ v ∈ env, Text.lower v.1 = Text.lower stem ++ "_" ++ e.1 ∧ b.guess v.2 = e.2

/-- No two keys are the same up to case, and none is a path. -/
structure Plain (b : Backend) (d : Document) : Prop where
  distinct : ∀ e ∈ d, ∀ e' ∈ d, Text.lower e.1 = Text.lower e'.1 → e = e'
  named : ∀ e ∈ d, b.isPath e.1 = false

/-- Of the variables that hold settings, no two have the same name up to case, and none has a path
for its key. -/
structure PlainVariables (b : Backend) (env : Environment) : Prop where
  distinct : ∀ v ∈ env, ∀ v' ∈ env, (Environment.settingKey? v.1).isSome = true →
    Text.lower v.1 = Text.lower v'.1 → v = v'
  named : ∀ v ∈ env, ∀ key ∈ Environment.settingKey? v.1, b.isPath key = false

/-- What the variables say of a setting. -/
def said? (b : Backend) (env : Environment) (name : String) : Option Datum :=
  (env.find? fun v ↦ Text.lower v.1 = Environment.settingsPrefix ++ name).map fun v ↦ b.guess v.2

/-- The top-level table that a file holds. No file is as good as an empty table. -/
def Holds (b : Backend) : Option SettingsFile → Document → Prop
  | none, table => table = []
  | some f, table => b.document f = .ok table

/-- What a limit is read as: the value that is said of it, or the default. -/
def value? (b : Backend) (table : Document) (env : Environment) (name : String) : Option Int64 :=
  match (b.said? env name).or (table.said? name) with
  | none => some 1000
  | some d => b.int64? d

end Backend

/-! ### The standard backend -/

theorem Reader.after?_eq_some_iff {word : String} {cs rest : List Char} :
    after? word cs = some rest ↔ cs = word.toList ++ rest := by
  unfold after?
  rw [← String.length_toList]
  constructor
  · intro h
    split at h
    · next hprefix =>
      obtain ⟨rest', rfl⟩ := List.isPrefixOf_iff_prefix.mp hprefix
      rw [List.drop_left, Option.some.injEq] at h
      rw [h]
    · cases h
  · rintro rfl
    rw [if_pos (List.isPrefixOf_iff_prefix.mpr (List.prefix_append _ _)), List.drop_left]

namespace Settings

theorem eq_nil_of_hops? {fuel : Nat} {cs : List Char} (h : hops? fuel cs = some []) : cs = [] := by
  unfold hops? at h
  split at h
  · rfl
  · cases h
  · simp [Option.bind_eq_some_iff] at h
  · simp [Option.bind_eq_some_iff] at h
  · cases h

theorem append_of_some? {p : Char → Bool} {cs found rest : List Char}
    (h : Reader.some? p cs = some (found, rest)) : found ++ rest = cs := by
  unfold Reader.some? at h
  split at h
  · cases h
  · obtain ⟨rfl, rfl⟩ := Prod.mk.inj (Option.some.inj h)
    exact List.takeWhile_append_dropWhile

theorem target_of_noHop {key : String} (h : (target key).2 = none) :
    (target key).1 = Text.lower key := by
  unfold target at h ⊢
  split
  · rfl
  · next name rest hname =>
    rw [hname] at h
    dsimp only at h ⊢
    split
    · rfl
    · next hops hhops =>
      rw [hhops] at h
      rw [List.head?_eq_none_iff.mp h] at hhops
      have hkey := append_of_some? hname
      rw [eq_nil_of_hops? hhops, List.append_nil] at hkey
      rw [hkey, String.ofList_toList]

theorem isNameChar_of_isNameLetter {c : Char} (h : isNameLetter c = true) :
    isNameChar c = true := by
  simp only [isNameLetter, Bool.or_eq_true] at h
  simp only [isNameChar, Bool.or_eq_true]
  tauto

theorem target_of_letters {key : String} (hne : key.toList ≠ [])
    (hkey : ∀ c ∈ key.toList, isNameLetter c = true) : (target key).2 = none := by
  have hname : Reader.some? isNameChar (key.toList ++ []) = some (key.toList, []) :=
    Reader.some?_append hne (fun c hc ↦ isNameChar_of_isNameLetter (hkey c hc)) (by simp)
  rw [List.append_nil] at hname
  unfold target
  rw [hname]
  rfl

@[simp] theorem datum_placed (origin : Origin) (d : Datum) : (placed origin d).datum = d := by
  cases d <;> rfl

variable {s : Settings} {origin : Origin} {key name : String} {x : Datum}

theorem lookup_filter_of_ne (h : name ≠ key) (s : Settings) :
    (s.filter fun e ↦ e.1 != key).lookup name = s.lookup name := by
  induction s with
  | nil => rfl
  | cons e s ih =>
    obtain ⟨k, v⟩ := e
    by_cases hkey : k = key
    · have hne : (name == k) = false := beq_false_of_ne (hkey ▸ h)
      simp [hkey, ih, List.lookup_cons, beq_false_of_ne h]
    · simp [hkey, ih, List.lookup_cons]

theorem lookup_put (s : Settings) (key name : String) (v : Setting) :
    (s.put key v).lookup name = if name = key then some v else s.lookup name := by
  unfold put
  by_cases h : name = key
  · simp [h]
  · simp [h, List.lookup_cons, beq_false_of_ne h, lookup_filter_of_ne h]

theorem lookup_set_of_noHop (h : (target key).2 = none) : (s.set origin key x).lookup name =
    if name = Text.lower key then some (placed origin x) else s.lookup name := by
  unfold set
  rw [← target_of_noHop h]
  dsimp only
  rw [h]
  exact lookup_put s _ name _

theorem lookup_set_of_ne (h : (target key).1 ≠ name) :
    (s.set origin key x).lookup name = s.lookup name := by
  have hput (v : Setting) : (s.put (target key).1 v).lookup name = s.lookup name := by
    rw [lookup_put, if_neg h.symm]
  unfold set
  dsimp only
  split
  · exact hput _
  · split
    · rfl
    · exact hput _
  · exact hput _

end Settings

namespace Environment

variable {env : Environment} {stem key variableName : String}

theorem key?_eq_some_iff : key? stem variableName = some key ↔
    Text.lower variableName = Text.lower stem ++ "_" ++ key := by
  unfold key?
  generalize Text.lower stem ++ "_" = word
  rw [Option.map_eq_some_iff, ← String.toList_inj, String.toList_append]
  constructor
  · rintro ⟨rest, hrest, rfl⟩
    rw [Reader.after?_eq_some_iff.mp hrest, String.toList_ofList]
  · intro h
    exact ⟨key.toList, Reader.after?_eq_some_iff.mpr h, String.ofList_toList⟩

/-- The key of a variable is in lower case. -/
theorem lower_of_lower_eq {front : String} (h : Text.lower variableName = front ++ key) :
    Text.lower key = key := by
  have hsuffix : key.toList <:+ (Text.lower variableName).toList := by
    rw [h, String.toList_append]
    exact List.suffix_append _ _
  have hfixed := Text.lower_ofList_of_suffix hsuffix
  rwa [String.ofList_toList] at hfixed

theorem settingKey?_eq_some_iff : settingKey? variableName = some key ↔
    Text.lower variableName = settingsPrefix ++ key := by
  have hprefix : Text.lower variablePrefix ++ "_" = settingsPrefix := by decide +kernel
  rw [settingKey?, key?_eq_some_iff, hprefix]

theorem mem_document {e : String × Datum} : e ∈ document stem env ↔
    ∃ v ∈ env, Text.lower v.1 = Text.lower stem ++ "_" ++ e.1 ∧ Datum.guess v.2 = e.2 := by
  unfold document
  rw [List.mem_filterMap]
  refine exists_congr fun v ↦ and_congr_right fun _ ↦ ?_
  rw [Option.map_eq_some_iff, ← key?_eq_some_iff]
  constructor
  · rintro ⟨key, hkey, rfl⟩
    exact ⟨hkey, rfl⟩
  · rintro ⟨hkey, hguess⟩
    exact ⟨e.1, hkey, Prod.ext rfl hguess⟩

end Environment

theorem Backend.standard_merges : standard.Merges where
  isPath_of_letters := by
    intro key hne hkey
    change (Settings.target key).2.isSome = false
    rw [Settings.target_of_letters hne hkey]
    rfl
  subject := fun key h ↦
    Settings.target_of_noHop (Option.isNone_iff_eq_none.mp (Option.isSome_eq_false_iff.mp h))
  datum_place := Settings.datum_placed
  lookup_set := fun s origin key d name h ↦
    Settings.lookup_set_of_noHop (Option.isNone_iff_eq_none.mp (Option.isSome_eq_false_iff.mp h))
  lookup_set_of_ne := fun s origin key d name ↦ Settings.lookup_set_of_ne
  mem_fromVariables := fun stem env e ↦ Environment.mem_document

/-! ### One source -/

namespace Backend

variable {b : Backend} {d d' : Document} {env env' : Environment} {name : String} {x : Datum}

theorem Plain.tail {e : String × Datum} (h : b.Plain (e :: d)) : b.Plain d :=
  ⟨fun e he e' he' ↦ h.distinct e (List.mem_cons_of_mem _ he) e' (List.mem_cons_of_mem _ he'),
    fun e he ↦ h.named e (List.mem_cons_of_mem _ he)⟩

theorem Plain.said?_eq_some_iff (h : b.Plain d) :
    d.said? name = some x ↔ ∃ e ∈ d, Text.lower e.1 = name ∧ e.2 = x := by
  constructor
  · intro hsaid
    obtain ⟨e, hfind, rfl⟩ := Option.map_eq_some_iff.mp hsaid
    exact ⟨e, List.mem_of_find?_eq_some hfind, by simpa using List.find?_some hfind, rfl⟩
  · rintro ⟨e, hmem, hname, rfl⟩
    cases hfind : d.find? fun e ↦ Text.lower e.1 = name with
    | none => exact absurd hname (by simpa using List.find?_eq_none.mp hfind _ hmem)
    | some e' =>
      have hname' : Text.lower e'.1 = name := by simpa using List.find?_some hfind
      rw [Document.said?, hfind, h.distinct e' (List.mem_of_find?_eq_some hfind) e hmem
        (hname'.trans hname.symm)]
      rfl

theorem said?_cons (e : String × Datum) (d : Document) (name : String) :
    Document.said? (e :: d) name = if Text.lower e.1 = name then some e.2 else d.said? name := by
  unfold Document.said?
  rw [List.find?_cons]
  by_cases h : Text.lower e.1 = name <;> simp [h]

/-- A source wins over what was there, key by key. -/
theorem Merges.lookup_merge (hb : b.Merges) (hplain : b.Plain d) (s : Settings) (origin : Origin)
    (name : String) : (b.merge s origin d).lookup name =
      ((d.said? name).map (b.place origin)).or (s.lookup name) := by
  induction d generalizing s with
  | nil => rfl
  | cons e d ih =>
    change (b.merge (b.set s origin e.1 e.2) origin d).lookup name = _
    rw [ih hplain.tail, hb.lookup_set s origin e.1 e.2 name (hplain.named e List.mem_cons_self),
      said?_cons]
    by_cases hname : name = Text.lower e.1
    · rw [if_pos hname, if_pos hname.symm]
      cases hsaid : Document.said? d name with
      | none => rfl
      | some x =>
        obtain ⟨e', hmem, hname', rfl⟩ := hplain.tail.said?_eq_some_iff.mp hsaid
        rw [hplain.distinct e' (List.mem_cons_of_mem e hmem) e List.mem_cons_self
          (hname'.trans hname)]
        rfl
    · rw [if_neg hname, if_neg (Ne.symm hname)]

theorem Merges.mem_variables_iff (hb : b.Merges) {e : String × Datum} :
    e ∈ b.fromVariables Environment.variablePrefix env ↔
      ∃ v ∈ env, Environment.settingKey? v.1 = some e.1 ∧ b.guess v.2 = e.2 := by
  rw [hb.mem_fromVariables]
  refine exists_congr fun v ↦ and_congr_right fun _ ↦ and_congr_left fun _ ↦ ?_
  exact Environment.key?_eq_some_iff.symm

/-- What variables hold is as plain as they are. -/
theorem Merges.plain_variables (hb : b.Merges) (hplain : b.PlainVariables env) :
    b.Plain (b.fromVariables Environment.variablePrefix env) where
  distinct := by
    intro e he e' he' hlower
    obtain ⟨v, hv, hkey, hguess⟩ := hb.mem_variables_iff.mp he
    obtain ⟨v', hv', hkey', hguess'⟩ := hb.mem_variables_iff.mp he'
    have hname := Environment.settingKey?_eq_some_iff.mp hkey
    have hname' := Environment.settingKey?_eq_some_iff.mp hkey'
    rw [Environment.lower_of_lower_eq hname, Environment.lower_of_lower_eq hname'] at hlower
    rw [← hlower, ← hname] at hname'
    obtain rfl := hplain.distinct v hv v' hv' (by rw [hkey]; rfl) hname'.symm
    exact Prod.ext hlower (hguess.symm.trans hguess')
  named := by
    intro e he
    obtain ⟨v, hv, hkey, -⟩ := hb.mem_variables_iff.mp he
    exact hplain.named v hv e.1 hkey

theorem PlainVariables.said?_eq_some_iff (hplain : b.PlainVariables env) :
    b.said? env name = some x ↔
      ∃ v ∈ env, Environment.settingKey? v.1 = some name ∧ b.guess v.2 = x := by
  simp only [Environment.settingKey?_eq_some_iff]
  constructor
  · intro hsaid
    obtain ⟨v, hfind, rfl⟩ := Option.map_eq_some_iff.mp hsaid
    exact ⟨v, List.mem_of_find?_eq_some hfind, by simpa using List.find?_some hfind, rfl⟩
  · rintro ⟨v, hmem, hname, rfl⟩
    cases hfind : env.find? fun v ↦ Text.lower v.1 = Environment.settingsPrefix ++ name with
    | none => exact absurd hname (by simpa using List.find?_eq_none.mp hfind _ hmem)
    | some v' =>
      have hname' : Text.lower v'.1 = Environment.settingsPrefix ++ name := by
        simpa using List.find?_some hfind
      have hkey := Environment.settingKey?_eq_some_iff.mpr hname'
      rw [said?, hfind, hplain.distinct v' (List.mem_of_find?_eq_some hfind) v hmem
        (by rw [hkey]; rfl) (hname'.trans hname.symm)]
      rfl

theorem Merges.said?_variables (hb : b.Merges) (hplain : b.PlainVariables env) (name : String) :
    (b.fromVariables Environment.variablePrefix env).said? name = b.said? env name := by
  refine Option.ext fun x ↦ ?_
  rw [(hb.plain_variables hplain).said?_eq_some_iff, hplain.said?_eq_some_iff]
  constructor
  · rintro ⟨e, he, hname, rfl⟩
    obtain ⟨v, hv, hkey, hguess⟩ := hb.mem_variables_iff.mp he
    have hlower := Environment.lower_of_lower_eq (Environment.settingKey?_eq_some_iff.mp hkey)
    exact ⟨v, hv, by rw [hkey, ← hname, hlower], hguess⟩
  · rintro ⟨v, hv, hkey, rfl⟩
    have hlower := Environment.lower_of_lower_eq (Environment.settingKey?_eq_some_iff.mp hkey)
    exact ⟨(name, b.guess v.2), hb.mem_variables_iff.mpr ⟨v, hv, hkey, rfl⟩, hlower, rfl⟩

variable {file : Option SettingsFile} {table : Document} {s s' : Settings} {limits : Limits}

/-- The source that the path of a file makes, if there is one. -/
def fileOrigin (file : Option SettingsFile) : Origin := .file ((file.map (·.path)).getD "")

theorem sources_eq (hfile : b.Holds file table) (env : Environment) :
    b.sources file env = .ok (b.merge (b.merge [] (fileOrigin file) table) .environment
      (b.fromVariables Environment.variablePrefix env)) := by
  cases file with
  | none =>
    cases hfile
    rfl
  | some f =>
    have hdocument : b.document f = .ok table := hfile
    simp only [sources, hdocument]
    rfl

theorem Merges.lookup_sources (hb : b.Merges) (htable : b.Plain table)
    (henv : b.PlainVariables env) (origin : Origin) (name : String) :
    (b.merge (b.merge [] origin table) .environment
        (b.fromVariables Environment.variablePrefix env)).lookup name =
      ((b.said? env name).map (b.place .environment)).or
        ((table.said? name).map (b.place origin)) := by
  rw [hb.lookup_merge (hb.plain_variables henv), hb.lookup_merge htable,
    hb.said?_variables henv, List.lookup_nil, Option.or_none]

theorem integer_eq_ok_iff {fallback n : Int64} : b.integer s name fallback = .ok n ↔
    ((s.lookup name).map Setting.datum).elim (some fallback) b.int64? = some n := by
  unfold integer
  cases s.lookup name with
  | none => simp
  | some v => cases hvalue : b.int64? v.datum <;> simp [hvalue]

theorem limits_eq_ok_iff : b.limits s = .ok limits ↔
    b.integer s Limits.sizeName 1000 = .ok limits.size ∧
      b.integer s Limits.ageName 1000 = .ok limits.ageMillis := by
  obtain ⟨size, age⟩ := limits
  change (b.integer s Limits.sizeName 1000 >>= fun size ↦
    b.integer s Limits.ageName 1000 >>= fun age ↦
      (pure ⟨size, age⟩ : Except Mismatch Limits)) = _ ↔ _
  cases b.integer s Limits.sizeName 1000 <;> cases b.integer s Limits.ageName 1000 <;>
    simp [bind, Except.bind, pure, Except.pure]

end Backend

/-- The names of the limits among the settings. -/
def Limits.names : List String := [sizeName, ageName]

namespace Backend

variable {b : Backend} {file : Option SettingsFile} {table : Document} {env : Environment}
  {s s' : Settings} {limits : Limits}

theorem load_of_sources (hsources : b.sources file env = .ok s) : b.load file env =
    match b.limits s with
    | .error m => .error (.unreadable (b.reason m))
    | .ok limits => .ok limits := by
  unfold load
  rw [hsources]
  rfl

theorem load_eq_ok_iff (hsources : b.sources file env = .ok s) :
    b.load file env = .ok limits ↔ b.limits s = .ok limits := by
  rw [load_of_sources hsources]
  cases b.limits s <;> simp

end Backend

namespace Limits

open Backend

variable {b : Backend} {file : Option SettingsFile} {table : Document} {env : Environment}

end Limits

end Bundling
