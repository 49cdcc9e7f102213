import Bundling.CommandLine.Outcome
import Bundling.Proofs.JobParameters
import Bundling.Proofs.Reports
import Mathlib.Data.List.TakeDrop

/-!
What a check of parameters given as arguments comes to. It fails exactly if an argument has no
equals sign or no format has the name asked for, and the first argument without one is the one
reported. In every other case the limits that the parameters come to are shown, each parameter as
the last argument for it says, and the code is zero whatever the parameters are worth.
-/

set_option autoImplicit false
set_option relaxedAutoImplicit false

namespace Bundling.CommandLine

/-- An argument gives a parameter a value: they stand on the two sides of its first equals sign,
blanks at their ends aside. -/
def Assigns (raw key value : String) : Prop :=
  ∃ before after, raw.toList = before ++ '=' :: after ∧ '=' ∉ before ∧
    Text.Trims before key.toList ∧ Text.Trims after value.toList

/-- What arguments say of a parameter: the value that the last argument for it gives, or nothing if
there is none for it. -/
inductive Says (args : List String) (key : String) : Option String → Prop where
  | last (front : List String) (raw : String) (back : List String) {value : String}
      (hargs : args = front ++ raw :: back) (hassigns : Assigns raw key value)
      (hback : ∀ r ∈ back, ∀ v, ¬ Assigns r key v) : Says args key (some value)
  | never (hnone : ∀ r ∈ args, ∀ v, ¬ Assigns r key v) : Says args key none

variable {raw key value : String} {args : List String} {ps : List (String × String)}

/-! ### One argument -/

theorem span_ne_append {before after : List Char} (h : '=' ∉ before) :
    (before ++ '=' :: after).span (· != '=') = (before, '=' :: after) := by
  have hbefore : ∀ c ∈ before, (c != '=') = true := by
    intro c hc
    rw [bne_iff_ne]
    rintro rfl
    exact h hc
  rw [List.span_eq_takeWhile_dropWhile, List.takeWhile_append_of_pos hbefore,
    List.dropWhile_append_of_pos hbefore]
  simp

theorem pair?_eq_some_iff : pair? raw = some (key, value) ↔ Assigns raw key value := by
  constructor
  · intro h
    unfold pair? at h
    rw [List.span_eq_takeWhile_dropWhile] at h
    have hsplit := List.takeWhile_append_dropWhile (p := (· != '=')) (l := raw.toList)
    have hfirst := List.head?_dropWhile_not (· != '=') raw.toList
    split at h
    · cases h
    · next before c after heq =>
      obtain ⟨hbefore, hafter⟩ := Prod.mk.inj heq
      obtain ⟨rfl, rfl⟩ := Prod.mk.inj (Option.some.inj h)
      rw [hafter] at hfirst hsplit
      obtain rfl : c = '=' := by simpa using hfirst
      refine ⟨raw.toList.takeWhile (· != '='), after, hsplit.symm, ?_, ?_, ?_⟩
      · intro hmem
        have hne := List.mem_takeWhile_imp hmem
        simp at hne
      · rw [String.toList_ofList, hbefore]
        exact Text.trims_trimChars _
      · rw [String.toList_ofList]
        exact Text.trims_trimChars _
  · rintro ⟨before, after, hraw, hbefore, hkey, hvalue⟩
    unfold pair?
    rw [hraw, span_ne_append hbefore]
    change some (String.ofList (Text.trimChars before), String.ofList (Text.trimChars after)) = _
    rw [Text.trimChars_eq_iff.mpr hkey, Text.trimChars_eq_iff.mpr hvalue, String.ofList_toList,
      String.ofList_toList]

theorem Assigns.mem (h : Assigns raw key value) : '=' ∈ raw.toList := by
  obtain ⟨before, after, hraw, -⟩ := h
  rw [hraw]
  exact List.mem_append_right _ List.mem_cons_self

theorem exists_assigns (h : '=' ∈ raw.toList) : ∃ key value, Assigns raw key value := by
  obtain ⟨before, after, hraw, hbefore⟩ := List.eq_append_cons_of_mem h
  refine ⟨String.ofList (Text.trimChars before), String.ofList (Text.trimChars after), before,
    after, hraw, hbefore, ?_, ?_⟩
  all_goals
    rw [String.toList_ofList]
    exact Text.trims_trimChars _

theorem pair?_eq_none_iff : pair? raw = none ↔ '=' ∉ raw.toList := by
  constructor
  · intro h hmem
    obtain ⟨key, value, hassigns⟩ := exists_assigns hmem
    rw [pair?_eq_some_iff.mpr hassigns] at h
    cases h
  · intro h
    by_contra hne
    obtain ⟨⟨key, value⟩, hpair⟩ := Option.ne_none_iff_exists'.mp hne
    exact h (pair?_eq_some_iff.mp hpair).mem

/-- An argument gives one value to one parameter. -/
theorem Assigns.unique {key' value' : String} (h : Assigns raw key value)
    (h' : Assigns raw key' value') : key = key' ∧ value = value' := by
  rw [← pair?_eq_some_iff] at h h'
  exact Prod.mk.inj (Option.some.inj (h.symm.trans h'))

/-! ### A list of arguments -/

theorem pairs_eq_error_iff {refusal : Refusal} : pairs args = .error refusal ↔
    ∃ front raw back, args = front ++ raw :: back ∧ (∀ r ∈ front, '=' ∈ r.toList) ∧
      '=' ∉ raw.toList ∧ refusal = .notPair raw := by
  induction args with
  | nil => simp [pairs]
  | cons first rest ih =>
    unfold pairs
    cases hpair : pair? first with
    | none =>
      have hfirst := pair?_eq_none_iff.mp hpair
      constructor
      · intro h
        cases h
        exact ⟨[], first, rest, rfl, List.forall_mem_nil _, hfirst, rfl⟩
      · rintro ⟨front, raw, back, hargs, hfront, -, rfl⟩
        cases front with
        | nil => rw [(List.cons.inj hargs).1]
        | cons r front =>
          obtain ⟨rfl, -⟩ := List.cons.inj hargs
          exact absurd (hfront _ List.mem_cons_self) hfirst
    | some pair =>
      have hfirst : '=' ∈ first.toList := (pair?_eq_some_iff.mp hpair).mem
      have hmap : (pairs rest).map (fun ps ↦ pair :: ps) = .error refusal ↔
          pairs rest = .error refusal := by
        cases pairs rest <;> simp [Except.map]
      change (pairs rest).map (fun ps ↦ pair :: ps) = .error refusal ↔ _
      rw [hmap, ih]
      constructor
      · rintro ⟨front, raw, back, rfl, hfront, h⟩
        exact ⟨first :: front, raw, back, rfl, List.forall_mem_cons.mpr ⟨hfirst, hfront⟩, h⟩
      · rintro ⟨front, raw, back, hargs, hfront, hraw, h⟩
        cases front with
        | nil =>
          obtain ⟨rfl, -⟩ := List.cons.inj hargs
          exact absurd hfirst hraw
        | cons r front =>
          obtain ⟨-, hargs⟩ := List.cons.inj hargs
          exact ⟨front, raw, back, hargs, (List.forall_mem_cons.mp hfront).2, hraw, h⟩

theorem exists_pairs (h : ∀ r ∈ args, '=' ∈ r.toList) : ∃ ps, pairs args = .ok ps := by
  cases hpairs : pairs args with
  | ok ps => exact ⟨ps, rfl⟩
  | error refusal =>
    obtain ⟨front, raw, back, rfl, -, hraw, -⟩ := pairs_eq_error_iff.mp hpairs
    exact absurd (h raw (List.mem_append_right _ List.mem_cons_self)) hraw

theorem pairs_cons {first : String} (h : pairs (first :: args) = .ok ps) :
    ∃ pair rest, pair? first = some pair ∧ pairs args = .ok rest ∧ ps = pair :: rest := by
  unfold pairs at h
  cases hpair : pair? first with
  | none =>
    rw [hpair] at h
    cases h
  | some pair =>
    rw [hpair] at h
    cases hrest : pairs args with
    | error refusal =>
      rw [hrest] at h
      cases h
    | ok rest =>
      rw [hrest] at h
      cases h
      exact ⟨pair, rest, rfl, rfl, rfl⟩

theorem mem_of_pairs (h : pairs args = .ok ps) : ∀ raw ∈ args, '=' ∈ raw.toList := by
  induction args generalizing ps with
  | nil => exact List.forall_mem_nil _
  | cons first args ih =>
    obtain ⟨pair, rest, hpair, hrest, -⟩ := pairs_cons h
    exact List.forall_mem_cons.mpr ⟨(pair?_eq_some_iff.mp hpair).mem, ih hrest⟩

/-- The last argument for a parameter is not in front of another one. -/
theorem Assigns.eq_of_last {raw' value' : String} {back mid back' : List String}
    (h : Assigns raw key value) (h' : Assigns raw' key value')
    (hargs : raw :: back = mid ++ raw' :: back') (hback : ∀ r ∈ back, ∀ v, ¬ Assigns r key v) :
    value = value' := by
  cases mid with
  | nil =>
    obtain ⟨rfl, -⟩ := List.cons.inj hargs
    exact (h.unique h').2
  | cons r mid =>
    obtain ⟨-, rfl⟩ := List.cons.inj hargs
    exact absurd h' (hback _ (List.mem_append_right _ List.mem_cons_self) _)

theorem Says.unique {said said' : Option String} (h : Says args key said)
    (h' : Says args key said') : said = said' := by
  have hmem {front back : List String} {raw : String} (hargs : args = front ++ raw :: back) :
      raw ∈ args := by
    rw [hargs]
    exact List.mem_append_right _ List.mem_cons_self
  cases h with
  | never hnone =>
    cases h' with
    | never => rfl
    | last _ _ _ hargs hassigns => exact absurd hassigns (hnone _ (hmem hargs) _)
  | last _ _ _ hargs hassigns hback =>
    cases h' with
    | never hnone => exact absurd hassigns (hnone _ (hmem hargs) _)
    | last _ _ _ hargs' hassigns' hback' =>
      rw [hargs] at hargs'
      refine congrArg some ?_
      rcases List.append_eq_append_iff.mp hargs' with ⟨mid, -, hmid⟩ | ⟨mid, -, hmid⟩
      · exact hassigns.eq_of_last hassigns' hmid hback
      · exact (hassigns'.eq_of_last hassigns hmid hback').symm

theorem valueOf_cons (pair : String × String) (ps : List (String × String)) (key : String) :
    valueOf (pair :: ps) key =
      (valueOf ps key).or (if key = pair.1 then some pair.2 else none) := by
  unfold valueOf
  rw [List.reverse_cons, List.lookup_append, List.lookup_cons]
  by_cases h : key = pair.1
  · simp [h]
  · simp [h, beq_false_of_ne h]

/-- The last pair with a key has what the arguments say of it. -/
theorem says_valueOf (hpairs : pairs args = .ok ps) (key : String) :
    Says args key (valueOf ps key) := by
  induction args generalizing ps with
  | nil =>
    cases hpairs
    exact .never (List.forall_mem_nil _)
  | cons first args ih =>
    obtain ⟨⟨key', value⟩, rest, hpair, hrest, rfl⟩ := pairs_cons hpairs
    have hfirst := pair?_eq_some_iff.mp hpair
    have hsaid := ih hrest
    rw [valueOf_cons]
    generalize valueOf rest key = said at hsaid
    cases hsaid with
    | last front raw back hargs hassigns hback =>
      exact .last (first :: front) raw back (congrArg (first :: ·) hargs) hassigns hback
    | never hnone =>
      by_cases hkey : key = key'
      · rw [if_pos hkey]
        exact .last [] first args rfl (hkey ▸ hfirst) hnone
      · rw [if_neg hkey]
        refine .never (List.forall_mem_cons.mpr ⟨fun v hv ↦ hkey ?_, hnone⟩)
        exact (hv.unique hfirst).1

/-! ### The outcome -/

/-- A check that has failed writes its notices and the failure, and no report. -/
def Invocation.failed (i : Invocation) (time : String) (notices : List Notice) (failure : String) :
    Outcome :=
  ⟨1, i.reporter.lines time (notices ++ [.checkFailed failure]), ["❌ " ++ failure]⟩

/-- A check that has succeeded writes its notices and its report. -/
def Invocation.passed (i : Invocation) (time : String) (notices : List Notice)
    (report : List String) : Outcome :=
  ⟨0, i.reporter.lines time notices ++ report, []⟩

variable {b : Backend} {codec : Json.Codec} {i : Invocation} {content : FileContent}
  {env : Environment} {time : String}

theorem Invocation.outcome_of_error {notices : List Notice} {refusal : Refusal}
    (h : i.check b content env = (notices, .error refusal)) :
    i.outcome b codec content env time = i.failed time notices refusal.text := by
  rw [outcome, h]
  rfl

theorem Invocation.outcome_of_ok {notices : List Notice} {r : Report}
    (h : i.check b content env = (notices, .ok r)) : i.outcome b codec content env time =
      match i.shown codec r with
      | .ok lines => i.passed time notices lines
      | .error refusal => i.failed time notices refusal.text := by
  rw [outcome, h]
  rfl

theorem Invocation.shown_of_format (codec : Json.Codec) (i : Invocation) (r : Report) :
    i.shown codec r =
      if Text.lower (i.format.getD "table") = "json" then .ok [codec.pretty r.json]
      else if Text.lower (i.format.getD "table") = "table" then .ok r.table
      else .error (.unknownFormat (Text.lower (i.format.getD "table"))) := by
  unfold shown
  split
  · next h => rw [if_pos h]
  · next h => rw [h, if_neg (by decide), if_pos rfl]
  · next hjson htable => rw [if_neg hjson, if_neg htable]

/-- A check that comes to limits shows them if the format asked for has a known name. -/
theorem Invocation.outcome_of_limits {notices : List Notice} {source : String} {checked : Checked}
    (h : i.check b content env = (notices, .ok ⟨source, checked⟩))
    (hage : checked.policy.maxAgeMillis.toInt = checked.policy.maxAge.toMillis) :
    let format := Text.lower (i.format.getD "table")
    (format ∈ ["json", "table"] → ∃ lines, Shows codec source checked format lines ∧
      i.outcome b codec content env time = i.passed time notices lines) ∧
    (format ∉ ["json", "table"] → i.outcome b codec content env time = i.failed time notices
      ("Unknown output format: " ++ format ++ " (expected table or json)")) := by
  intro format
  let r : Report := ⟨source, checked⟩
  have hshown : i.shown codec r = if format = "json" then .ok [codec.pretty r.json]
      else if format = "table" then .ok r.table else .error (.unknownFormat format) :=
    shown_of_format codec i r
  rw [outcome_of_ok h, hshown]
  constructor
  · intro hknown
    rcases List.mem_cons.mp hknown with hjson | hrest
    · refine ⟨[codec.pretty r.json], ?_, by rw [if_pos hjson]⟩
      rw [hjson]
      exact .json (r.describes_json hage)
    · have htable : format = "table" := List.mem_singleton.mp hrest
      refine ⟨r.table, ?_, by rw [htable, if_neg (by decide), if_pos rfl]⟩
      rw [htable]
      exact .table (r.tabulates_table hage)
  · intro hunknown
    have hjson : format ≠ "json" := by
      intro h
      exact hunknown (List.mem_cons.mpr (.inl h))
    have htable : format ≠ "table" := by
      intro h
      exact hunknown (List.mem_cons.mpr (.inr (List.mem_singleton.mpr h)))
    rw [if_neg hjson, if_neg htable]
    rfl

theorem outcome_of_notPair {refusal : Refusal} (h : pairs args = .error refusal) :
    ({ i with subject := .parameters args } : Invocation).outcome b codec content env time =
      i.failed time [] refusal.text := by
  have hcheck : ({ i with subject := .parameters args } : Invocation).check b content env =
      ([], .error refusal) := by
    change checkParameters args = _
    rw [checkParameters, h]
  exact Invocation.outcome_of_error hcheck

/-- Arguments that all have an equals sign say something of every parameter, and what it comes to is
shown if the format is known. -/
theorem exists_said (b : Backend) (codec : Json.Codec) (i : Invocation) (content : FileContent)
    (env : Environment) (time : String) (h : ∀ raw ∈ args, '=' ∈ raw.toList) :
    let outcome := ({ i with subject := .parameters args } : Invocation).outcome b codec content env
      time
    let format := Text.lower (i.format.getD "table")
    ∃ get : String → Option String, (∀ key said, Says args key said ↔ get key = said) ∧
      (format ∈ ["json", "table"] → ∃ lines,
        Shows codec "job parameters" (Parameters.check get) format lines ∧
          outcome = i.passed time (Parameters.notices get) lines) ∧
      (format ∉ ["json", "table"] → outcome = i.failed time (Parameters.notices get)
        ("Unknown output format: " ++ format ++ " (expected table or json)")) := by
  obtain ⟨ps, hps⟩ := exists_pairs h
  have hcheck : ({ i with subject := .parameters args } : Invocation).check b content env =
      (Parameters.notices (valueOf ps),
        .ok ⟨"job parameters", Parameters.check (valueOf ps)⟩) := by
    change checkParameters args = _
    rw [checkParameters, hps]
  refine ⟨valueOf ps, fun key said ↦ ⟨(says_valueOf hps key).unique, ?_⟩,
    Invocation.outcome_of_limits hcheck (Parameters.limits (valueOf ps)).toInt_maxAgeMillis⟩
  rintro rfl
  exact says_valueOf hps key

theorem code_outcome (b : Backend) (codec : Json.Codec) (i : Invocation) (args : List String)
    (content : FileContent) (env : Environment) (time : String) :
    (({ i with subject := .parameters args } : Invocation).outcome b codec content env time).code =
      if (∃ raw ∈ args, '=' ∉ raw.toList) ∨
        Text.lower (i.format.getD "table") ∉ ["json", "table"] then 1 else 0 := by
  by_cases hargs : ∃ raw ∈ args, '=' ∉ raw.toList
  · rw [if_pos (.inl hargs)]
    cases hpairs : pairs args with
    | error refusal =>
      rw [outcome_of_notPair hpairs]
      rfl
    | ok ps =>
      obtain ⟨raw, hmem, hraw⟩ := hargs
      exact absurd (mem_of_pairs hpairs raw hmem) hraw
  · have hwell : ∀ raw ∈ args, '=' ∈ raw.toList := by
      intro raw hmem
      by_contra hraw
      exact hargs ⟨raw, hmem, hraw⟩
    obtain ⟨get, -, hknown, hunknown⟩ := exists_said b codec i content env time hwell
    by_cases hformat : Text.lower (i.format.getD "table") ∈ ["json", "table"]
    · obtain ⟨lines, -, houtcome⟩ := hknown hformat
      rw [houtcome, if_neg fun h ↦ h.elim hargs (absurd hformat)]
      rfl
    · rw [hunknown hformat, if_pos (.inr hformat)]
      rfl

/-- A check of parameters fails exactly if an argument has no equals sign or the format has no known
name in any case of its letters. The first argument without an equals sign is reported, before the
format is looked at. In every other case the limits that the parameters come to are shown, as the
arguments say them, and the code is zero; so no value of any parameter, good or bad, has a say in
the code. Nothing here depends on who loads settings or writes JSON text. -/
theorem parameters_outcome (b : Backend) (codec : Json.Codec) (i : Invocation) (args : List String)
    (content : FileContent) (env : Environment) (time : String) :
    let outcome (args : List String) : Outcome :=
      ({ i with subject := .parameters args } : Invocation).outcome b codec content env time
    let format := Text.lower (i.format.getD "table")
    (outcome args).code =
      (if (∃ raw ∈ args, '=' ∉ raw.toList) ∨ format ∉ ["json", "table"] then 1 else 0) ∧
    (∀ front raw back, args = front ++ raw :: back → (∀ r ∈ front, '=' ∈ r.toList) →
      '=' ∉ raw.toList →
      outcome args = i.failed time [] ("Parameter '" ++ raw ++ "' is not in KEY=VALUE form")) ∧
    ((∀ raw ∈ args, '=' ∈ raw.toList) → ∃ get : String → Option String,
      (∀ key said, Says args key said ↔ get key = said) ∧
      (format ∈ ["json", "table"] → ∃ lines,
        Shows codec "job parameters" (Parameters.check get) format lines ∧
          outcome args = i.passed time (Parameters.notices get) lines) ∧
      (format ∉ ["json", "table"] → outcome args = i.failed time (Parameters.notices get)
        ("Unknown output format: " ++ format ++ " (expected table or json)"))) ∧
    ∀ args', (∀ raw ∈ args, '=' ∈ raw.toList) → (∀ raw ∈ args', '=' ∈ raw.toList) →
      (outcome args').code = (outcome args).code := by
  refine ⟨code_outcome b codec i args content env time, ?malformed,
    exists_said b codec i content env time, ?steady⟩
  case malformed =>
    intro front raw back hargs hfront hraw
    have hpairs : pairs args = .error (.notPair raw) :=
      pairs_eq_error_iff.mpr ⟨front, raw, back, hargs, hfront, hraw, rfl⟩
    have htext : (Refusal.notPair raw).text =
      "Parameter '" ++ raw ++ "' is not in KEY=VALUE form" := rfl
    rw [← htext]
    exact outcome_of_notPair hpairs
  case steady =>
    intro args' hargs hargs'
    have hnone {args : List String} (hargs : ∀ raw ∈ args, '=' ∈ raw.toList) :
        ¬ ∃ raw ∈ args, '=' ∉ raw.toList := by
      rintro ⟨raw, hmem, hraw⟩
      exact hraw (hargs raw hmem)
    simp only [code_outcome, hnone hargs, hnone hargs']

/-- The last spelling of a key counts, blanks around it or not, and a value may have equals signs of
its own; a size that is not positive leaves the code at zero and has a line of its own. A lone word
is reported even if the format is unknown too. -/
theorem parameters_outcome_respelled :
    let i : Invocation := { format := some "Table" }
    let args := [" bundle.max-size=7", "bundle.max-size	= 0 ", "a==b"]
    let outcome (i : Invocation) (args : List String) : Outcome :=
      ({ i with subject := .parameters args } : Invocation).outcome .standard .standard .none [] ""
    (∃ get : String → Option String, get "bundle.max-size" = some "0" ∧ get "a" = some "=b" ∧
      get "b" = none ∧ (Parameters.check get).fallbacks = [.size "0"] ∧
      ∃ lines, Shows .standard "job parameters" (Parameters.check get) "table" lines ∧
        outcome i args = i.passed "" (Parameters.notices get) lines) ∧
    (outcome i args).code = 0 ∧
    let j : Invocation := { format := some "xml" }
    outcome j ["a=1", "b", "c"] = j.failed "" [] "Parameter 'b' is not in KEY=VALUE form" := by
  intro i args outcome
  have hargs : ∀ raw ∈ args, '=' ∈ raw.toList := by decide
  have hformat : Text.lower (i.format.getD "table") = "table" := by decide +kernel
  obtain ⟨hcode, -, hsays, -⟩ := parameters_outcome .standard .standard i args .none [] ""
  obtain ⟨get, hget, hshown, -⟩ := hsays hargs
  have hpairs : pairs args =
      .ok [("bundle.max-size", "7"), ("bundle.max-size", "0"), ("a", "=b")] := by decide +kernel
  have hsaid (key : String) := (hget key _).mp (says_valueOf hpairs key)
  have hsize : get Parameters.sizeKey = some "0" := hsaid _
  have hage : get Parameters.ageKey = none := hsaid _
  refine ⟨⟨get, hsize, hsaid "a", hsaid "b", ?_, ?_⟩, ?_, ?_⟩
  · rw [Parameters.fallbacks_check, hsize, hage]
    decide +kernel
  · rw [hformat] at hshown
    exact hshown (by decide)
  · rw [hcode, hformat]
    decide +kernel
  · intro j
    exact (parameters_outcome .standard .standard j ["a=1", "b", "c"] .none [] "").2.1
      ["a=1"] "b" ["c"] rfl (by decide) (by decide)

end Bundling.CommandLine
