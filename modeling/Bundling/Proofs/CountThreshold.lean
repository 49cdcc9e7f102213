import Bundling.Proofs.Machine

/-!
Bundles of a fixed size. A coordinator that gets nothing but items, and whose bundles never grow too
old, closes a bundle with every item that fills one, so the bundles cut the items into pieces of the
size that its limits ask for; the end of the input closes what is left over.
-/

set_option autoImplicit false
set_option relaxedAutoImplicit false

namespace Bundling

namespace Limits

/-- From no reading of the clock to a later one does the age limit pass. -/
def Lasts (l : Limits) (readings : List Int64) : Prop :=
  readings.Pairwise fun earlier later ↦
    later.toInt - earlier.toInt < (l.policy.maxAge.toMillis : Int)

end Limits

namespace Input

variable {α : Type}

/-- Only items, and the time with its age checks. -/
def isPlain : Input α → Bool
  | submit _ | tick | clock _ => true
  | _ => false

def item? : Input α → Option α
  | submit x => some x
  | _ => none

def reading? : Input α → Option Int64
  | clock now => some now
  | _ => none

end Input

namespace Journal

variable {α : Type}

/-- Results leave no trace among the bundles. -/
theorem foldl_step_emitted (r : Reading α) (results : List α) :
    (results.map .emitted).foldl Reading.step r = r := by
  induction results with
  | nil => rfl
  | cons x results ih => exact ih

theorem emitted_map_emitted (results : List α) : emitted (results.map .emitted) = results := by
  rw [emitted, List.filterMap_map]
  exact List.filterMap_some

end Journal

namespace Machine

variable {α : Type}

/-- The bundles that have been closed are full, and have all items but those of the open one. -/
structure Filling (k : Nat) (items : List α) (bundles : List (List α)) (m : Machine α)
    (journal : Journal α) (closes : Closes) : Prop where
  hold : m.hold = none
  full : ∀ b ∈ bundles, b.length = k
  items : bundles.flatten ++ m.items = items
  read : journal.read = ⟨bundles, if m.items.isEmpty then none else some m.items⟩
  emitted : journal.emitted = bundles.flatten
  closes : ∀ t, closes.get t = if t = .itemCount then .ofNat bundles.length else 0

variable {k : Nat} {items : List α} {bundles : List (List α)} {m : Machine α} {journal : Journal α}
  {closes : Closes}

/-- An item goes into the open bundle, or into a new one. -/
theorem Filling.takes (h : Filling k items bundles m journal closes) (x : α) :
    Filling k (items ++ [x]) bundles { m with items := m.items ++ [x] }
      (journal ++ ((if m.items.isEmpty then [.started] else []) ++ [.processed x])) closes where
  hold := h.hold
  full := h.full
  items := by rw [← h.items, List.append_assoc]
  read := by
    rw [Journal.read_append, h.read]
    cases hitems : m.items <;> rfl
  emitted := by
    rw [Journal.emitted_append, h.emitted]
    cases m.items <;> exact List.append_nil _
  closes := h.closes

/-- A close finishes the open bundle and emits its results. -/
theorem Filling.finishes (h : Filling k items bundles m journal closes) (hopen : m.items ≠ [])
    (now : Int) :
    (journal ++ (m.flush now).1).read = ⟨bundles ++ [m.items], none⟩ ∧
      (journal ++ (m.flush now).1).emitted = items := by
  have hempty : m.items.isEmpty = false := by simpa using hopen
  have hwritten : (m.flush now).1 = .finished :: m.items.map .emitted := by
    rw [flush_of_ne_nil hopen, h.hold]
    exact List.append_nil _
  rw [hwritten, Journal.read_append, Journal.emitted_append, h.read, h.emitted, hempty]
  constructor
  · exact Journal.foldl_step_emitted _ m.items
  · rw [← h.items]
    exact congrArg (bundles.flatten ++ ·) (Journal.emitted_map_emitted m.items)

/-- A full bundle is put down to its number of items. -/
theorem Filling.fills (h : Filling k items bundles m journal closes) (hfull : m.items.length = k)
    (hopen : m.items ≠ []) (now : Int) :
    Filling k items (bundles ++ [m.items]) (m.flush now).2 (journal ++ (m.flush now).1)
      (closes.bumpAll (m.flushed .itemCount)) := by
  obtain ⟨hread, hemitted⟩ := h.finishes hopen now
  have hempty : m.items.isEmpty = false := by simpa using hopen
  have hitems : (bundles ++ [m.items]).flatten = items := by
    rw [List.flatten_append, List.flatten_singleton, h.items]
  rw [flush_of_ne_nil hopen] at hread hemitted ⊢
  constructor
  · rfl
  · intro b hb
    rcases List.mem_append.mp hb with hb | hb
    · exact h.full b hb
    · rw [List.mem_singleton.mp hb, hfull]
  · rw [List.append_nil, hitems]
  · exact hread
  · rw [hemitted, hitems]
  · intro t
    rw [flushed, hempty]
    change (closes.bump .itemCount).get t = _
    rw [Closes.get_bump, h.closes, List.length_append]
    by_cases ht : t = .itemCount
    · simp [ht]
    · simp [ht, Ne.symm ht]

/-- With each item a bundle is filled further, and closed if that fills it. -/
theorem Filling.submit (h : Filling k items bundles m journal closes) {policy : Policy}
    (hk : policy.maxItems.toNat = k) (now : Int) (x : α) :
    ∃ bundles', Filling k (items ++ [x]) bundles' (m.step policy now (.submit x)).2
      (journal ++ (m.step policy now (.submit x)).1)
      (closes.bumpAll (m.triggers policy now (.submit x))) := by
  have htakes := h.takes x
  have hstep : m.step policy now (.submit x) =
      ((if m.items.isEmpty then [.started] else []) ++ .processed x ::
        (flushIfFull k now { m with items := m.items ++ [x] }).1,
        (flushIfFull k now { m with items := m.items ++ [x] }).2) := by
    rw [← hk]
    rfl
  have htriggers : m.triggers policy now (.submit x) =
      flushedIfFull k { m with items := m.items ++ [x] } := by
    rw [← hk]
    rfl
  rw [hstep, htriggers]
  unfold flushIfFull flushedIfFull
  by_cases hfull : (m.items ++ [x]).length = k
  · have hfills := htakes.fills hfull (by simp) now
    simp only [List.append_assoc, List.singleton_append] at hfills
    simp only [if_pos hfull]
    exact ⟨_, hfills⟩
  · simp only [if_neg hfull]
    exact ⟨bundles, htakes⟩

theorem lastClose_flush (m : Machine α) (now : Int) :
    (m.flush now).2.lastClose = m.lastClose ∨ (m.flush now).2.lastClose = now := by
  unfold flush
  split
  · exact .inl rfl
  · exact .inr rfl

theorem lastClose_submit (policy : Policy) (now : Int) (m : Machine α) (x : α) :
    (m.step policy now (.submit x)).2.lastClose = m.lastClose ∨
      (m.step policy now (.submit x)).2.lastClose = now := by
  change (flushIfFull policy.maxItems.toNat now { m with items := m.items ++ [x] }).2.lastClose =
      _ ∨ (flushIfFull policy.maxItems.toNat now { m with items := m.items ++ [x] }).2.lastClose = _
  unfold flushIfFull
  split
  · exact lastClose_flush _ now
  · exact .inl rfl

/-! ### The end of the input -/

/-- The items are cut into bundles of this size, closed for their size but for the last one, if that
is smaller. -/
structure Cut (k : Nat) (items : List α) (journal : Journal α) (closes : Closes) : Prop where
  length : journal.bundles.length = (items.length + k - 1) / k
  bounds : ∀ b ∈ journal.bundles, b ≠ [] ∧ b.length ≤ k
  full : ∀ b ∈ journal.bundles.dropLast, b.length = k
  bundled : journal.bundles.flatten = items
  emitted : journal.emitted = items
  itemCount : closes.get .itemCount = .ofNat (items.length / k)
  endOfInput : closes.get .endOfInput = if k ∣ items.length then 0 else 1
  other : ∀ t, t ≠ .itemCount → t ≠ .endOfInput → closes.get t = 0

theorem Filling.length_items (h : Filling k items bundles m journal closes) :
    items.length = k * bundles.length + m.items.length := by
  have hlengths : bundles.map List.length = List.replicate bundles.length k := by
    rw [List.eq_replicate_iff, List.length_map]
    refine ⟨rfl, fun n hn ↦ ?_⟩
    obtain ⟨b, hb, rfl⟩ := List.mem_map.mp hn
    exact h.full b hb
  rw [← h.items, List.length_append, List.length_flatten, hlengths, List.sum_replicate_nat,
    Nat.mul_comm]

/-- The quotient rounded up counts a remainder as one more. -/
theorem add_pred_div_eq {k r : Nat} (hr : r < k) (n : Nat) :
    (k * n + r + k - 1) / k = n + if r = 0 then 0 else 1 := by
  have hpos : 0 < k := by omega
  split
  case isTrue hzero =>
    rw [hzero, show k * n + 0 + k - 1 = k * n + (k - 1) by omega, Nat.mul_add_div hpos,
      Nat.div_eq_of_lt (by omega)]
  case isFalse hmore =>
    rw [show k * n + r + k - 1 = k * (n + 1) + (r - 1) by rw [Nat.mul_succ]; omega,
      Nat.mul_add_div hpos, Nat.div_eq_of_lt (by omega)]

/-- What is left over at the end of the input is closed for that. -/
theorem Filling.ends (h : Filling k items bundles m journal closes) (hroom : m.items.length < k)
    (now : Int) :
    Cut k items (journal ++ (m.flush now).1) (closes.bumpAll (m.flushed .endOfInput)) := by
  have hpos : 0 < k := by omega
  have hlength := h.length_items
  have hdiv : items.length / k = bundles.length := by
    rw [hlength, Nat.mul_add_div hpos, Nat.div_eq_of_lt hroom, Nat.add_zero]
  have hdvd : k ∣ items.length ↔ m.items = [] := by
    rw [Nat.dvd_iff_mod_eq_zero, hlength, Nat.mul_add_mod, Nat.mod_eq_of_lt hroom,
      List.length_eq_zero_iff]
  have hceil : (items.length + k - 1) / k = bundles.length + if m.items = [] then 0 else 1 := by
    rw [hlength, add_pred_div_eq hroom]
    simp only [List.length_eq_zero_iff]
  have hfull (b : List α) (hb : b ∈ bundles) : b ≠ [] ∧ b.length ≤ k := by
    refine ⟨?_, Nat.le_of_eq (h.full b hb)⟩
    rintro rfl
    exact absurd (h.full [] hb) (by simp; omega)
  by_cases hitems : m.items = []
  · have hbundles : journal.bundles = bundles := by rw [Journal.bundles, h.read]
    have hflatten : bundles.flatten = items := by rw [← h.items, hitems, List.append_nil]
    rw [if_pos hitems] at hceil
    rw [flush_of_nil hitems, flushed, hitems, List.append_nil]
    constructor
    · rw [hbundles, hceil, Nat.add_zero]
    · rwa [hbundles]
    · rw [hbundles]
      exact fun b hb ↦ h.full b (List.dropLast_subset _ hb)
    · rw [hbundles, hflatten]
    · rw [h.emitted, hflatten]
    · rw [hdiv]
      exact h.closes .itemCount
    · rw [if_pos (hdvd.mpr hitems)]
      exact h.closes .endOfInput
    · exact fun t ht _ ↦ (h.closes t).trans (if_neg ht)
  · obtain ⟨hread, hemitted⟩ := h.finishes hitems now
    have hbundles : (journal ++ (m.flush now).1).bundles = bundles ++ [m.items] := by
      rw [Journal.bundles, hread]
    have hcloses (t : Trigger) : (closes.bumpAll (m.flushed .endOfInput)).get t =
        closes.get t + if .endOfInput = t then 1 else 0 := by
      rw [flushed, if_neg (by simpa using hitems)]
      exact closes.get_bump .endOfInput t
    rw [if_neg hitems] at hceil
    constructor
    · rw [hbundles, hceil, List.length_append, List.length_singleton]
    · rw [hbundles]
      intro b hb
      rcases List.mem_append.mp hb with hb | hb
      · exact hfull b hb
      · rw [List.mem_singleton.mp hb]
        exact ⟨hitems, Nat.le_of_lt hroom⟩
    · rw [hbundles, List.dropLast_concat]
      exact h.full
    · rw [hbundles, List.flatten_append, List.flatten_singleton, h.items]
    · exact hemitted
    · rw [hcloses, h.closes, hdiv]
      simp
    · rw [hcloses, h.closes, if_neg (mt hdvd.mp hitems)]
      simp
    · intro t ht hend
      rw [hcloses, h.closes]
      simp [ht, Ne.symm hend]

/-- The end of the unit leaves the bundles as they are. -/
theorem Cut.closed (h : Cut k items journal closes) :
    Cut k items (journal ++ [.closed]) closes := by
  have hbundles : (journal ++ [Entry.closed]).bundles = journal.bundles := by
    unfold Journal.bundles
    rw [Journal.read_append]
    rfl
  have hemitted : (journal ++ [Entry.closed]).emitted = journal.emitted := by
    rw [Journal.emitted_append]
    exact List.append_nil _
  exact ⟨hbundles ▸ h.length, hbundles ▸ h.bounds, hbundles ▸ h.full, hbundles ▸ h.bundled,
    hemitted ▸ h.emitted, h.itemCount, h.endOfInput, h.other⟩

end Machine

namespace Rig

variable {α : Type} {r : Rig α} {l : Limits} {now : Int64} {m : Machine α} {journal : Journal α}
  {closes : Closes}

/-- Without an open bundle, a stop goes on to the release at once. -/
theorem Shows.begin_stop {c : Coordinator} {recorder : Recorder α} (h : Shows l now m c recorder)
    (hempty : m.items = []) (hlock : c.lock = {}) (i : Nat) :
    (c.begin i .stop : Coordinator × Stage α α) =
      ({ c with phase := .stopping } : Coordinator).beginRelease i none := by
  have hisOpen : c.slot.isOpen = false := by rw [h.isOpen, hempty]; rfl
  have hearly : c.early (.stop : Request α) = none := by simp [Coordinator.early, h.phase]
  have hback : ({ c with phase := .stopping, lock := ⟨some i, []⟩ } : Coordinator).unlock =
      { c with phase := .stopping } := by
    simp [Coordinator.unlock, Lock.release, hlock]
  rw [← hback]
  unfold Coordinator.begin
  rw [hearly]
  simp [Coordinator.ask, Lock.ask, hlock, Coordinator.enter, Coordinator.beginClose, hisOpen,
    Coordinator.afterClose]

/-- A release that has taken the unit closes it, and ends. -/
theorem settle_closingUnit (calls : List (Call α α)) (q : Request α) (c : Coordinator)
    (release : Release) {recorder : Recorder α} (hrecorder : recorder.Willing) :
    let r : Rig α := ⟨⟨c, calls ++ [⟨q, .closingUnit release⟩]⟩, recorder⟩
    (r.settle calls.length).recorder = recorder.note .closed ∧
      (r.settle calls.length).world.coordinator.tally = c.tally ∧
      (r.settle calls.length).world.coordinator.phase = c.phase := by
  intro r
  obtain ⟨notices, hsettle⟩ := Coordinator.settleRelease_eq (α := α) (β := α) c release none
  have hcall : r.world.calls[calls.length]? = some ⟨q, .closingUnit release⟩ := by simp [r]
  have hanswer : r.answer .closeUnit none = some (.ok [], recorder.note .closed) :=
    hrecorder.perform .closeUnit
  have hworld : r.world.proceed calls.length (.ok []) =
      ⟨({ c with slot := c.slot.tryClose.2, notices := notices } : Coordinator).unlock,
        r.world.calls.set calls.length ⟨q, .ended (release.reply none)⟩⟩ := by
    rw [World.proceed_of_operation (.ok []) hcall rfl]
    change (⟨(c.settleRelease release none).1, r.world.calls.set calls.length
      ⟨q, (c.settleRelease release none).2⟩⟩ : World α α) = _
    rw [hsettle]
    rfl
  have hproceed : r.proceed? calls.length none =
      some ⟨r.world.proceed calls.length (.ok []), recorder.note .closed⟩ := by
    simp [proceed?, World.stage?, hcall, Stage.operation?, hanswer]
  have hended : r.settle calls.length =
      ⟨r.world.proceed calls.length (.ok []), recorder.note .closed⟩ := by
    refine (settle_of_some hproceed).trans (settle_of_none ?_)
    rw [hworld]
    simp [proceed?, World.stage?, Stage.operation?, Stage.awaitsLock, r]
  rw [hended, hworld]
  exact ⟨rfl, rfl, rfl⟩

/-- Without an open bundle, a stop closes nothing but the unit. -/
theorem Tracks.stop (h : Tracks l now m r journal closes) (hempty : m.items = []) :
    (r.attend .stop).recorder.journal = journal ++ [.closed] ∧
      (r.attend .stop).world.coordinator.tally.closes = closes ∧
      (r.attend .stop).world.coordinator.phase = .stopped := by
  have hbegin := h.shows.begin_stop hempty h.lock r.world.calls.length
  have hdeparts := Coordinator.departure_beginRelease (α := α) (β := α)
    { r.world.coordinator with phase := .stopping } r.world.calls.length none
  rw [← hbegin] at hdeparts
  have hissue : r.issue .stop = ⟨⟨(r.world.coordinator.begin r.world.calls.length .stop :
      Coordinator × Stage α α).1, r.world.calls ++ [⟨.stop,
        (r.world.coordinator.begin r.world.calls.length .stop).2⟩]⟩, r.recorder⟩ := rfl
  have hidle : r.world.coordinator.lock.holder = none := by rw [h.lock]
  generalize (r.world.coordinator.begin r.world.calls.length .stop :
    Coordinator × Stage α α) = out at hdeparts hissue
  cases hdeparts with
  | already hphase => cases hphase
  | waits _ hheld => exact absurd hidle hheld
  | settles _ _ _ _ hgone => exact absurd (h.shows.hasUnit.symm.trans hgone) (by simp)
  | takes =>
    have hattend : r.attend .stop = (r.issue .stop).settle r.world.calls.length := rfl
    rw [hattend, hissue]
    obtain ⟨hrecorder, htally, hphase⟩ := settle_closingUnit r.world.calls .stop
      { ({ r.world.coordinator with phase := .stopping } : Coordinator).ceased.inLine
          r.world.calls.length with hasUnit := false }
      (({ r.world.coordinator with phase := .stopping } : Coordinator).releaseOf none)
      h.shows.willing
    rw [hrecorder, htally, hphase]
    refine ⟨congrArg (· ++ [Entry.closed]) h.journal_eq, ?_, Coordinator.ceased_phase _⟩
    exact (congrArg Tally.closes (Coordinator.ceased_tally _)).trans h.closes_eq

/-- Neither from the last close nor from one reading of the clock to a later one does the age limit
pass. -/
structure Young (l : Limits) (lastClose : Int) (readings : List Int64) : Prop where
  sinceClose : ∀ t ∈ readings, t.toInt - lastClose < (l.policy.maxAge.toMillis : Int)
  lasts : l.Lasts readings

theorem Young.next {lastClose : Int} {t : Int64} {readings : List Int64}
    (h : Young l lastClose (t :: readings)) : Young l lastClose readings :=
  ⟨fun u hu ↦ h.sinceClose u (List.mem_cons_of_mem t hu), (List.pairwise_cons.mp h.lasts).2⟩

/-- A bundle that is closed at the first of the readings leaves the next one all its time. -/
theorem young_of_close {t : Int64} {readings : List Int64} (h : l.Lasts (t :: readings)) :
    Young l t.toInt (t :: readings) := by
  refine ⟨fun u hu ↦ ?_, h⟩
  have hpos := l.maxAge_pos
  rcases List.mem_cons.mp hu with rfl | hu
  · omega
  · exact (List.pairwise_cons.mp h).1 u hu

/-- With items and the time only, bundles are filled. -/
theorem Tracks.fills (inputs : List (Input α)) {items : List α} {bundles : List (List α)}
    {now : Int64} {m : Machine α} {r : Rig α} {journal : Journal α} {closes : Closes}
    (h : Tracks l now m r journal closes) (hroom : m.items.length < l.policy.maxItems.toNat)
    (hfilling : m.Filling l.policy.maxItems.toNat items bundles journal closes)
    (hplain : ∀ input ∈ inputs, input.isPlain = true)
    (hyoung : Young l m.lastClose (now :: inputs.filterMap Input.reading?)) :
    ∃ (last : Int64) (m' : Machine α) (bundles' : List (List α)) (written : Journal α)
      (total : Closes), Tracks l last m' (inputs.foldl Rig.feed r) written total ∧
        m'.items.length < l.policy.maxItems.toNat ∧
        m'.Filling l.policy.maxItems.toNat (items ++ inputs.filterMap Input.item?) bundles' written
          total := by
  induction inputs generalizing items bundles now m r journal closes with
  | nil =>
    refine ⟨now, m, bundles, journal, closes, h, hroom, ?_⟩
    rw [List.filterMap_nil, List.append_nil]
    exact hfilling
  | cons input inputs ih =>
    have hrest : ∀ input ∈ inputs, input.isPlain = true :=
      fun i hi ↦ hplain i (List.mem_cons_of_mem input hi)
    cases input with
    | submit x =>
      have hnext := h.feed hroom (.submit x) (by simp)
      obtain ⟨bundles', hfilling'⟩ := hfilling.submit rfl now.toInt x
      have hlast : Young l (m.step l.policy now.toInt (.submit x)).2.lastClose
          (now :: inputs.filterMap Input.reading?) := by
        rcases Machine.lastClose_submit l.policy now.toInt m x with hsame | hnow
        · rw [hsame]
          exact hyoung
        · rw [hnow]
          exact young_of_close hyoung.lasts
      have hrun := ih hnext (Machine.length_step now.toInt hroom _) hfilling' hrest hlast
      rw [List.append_assoc] at hrun
      exact hrun
    | tick =>
      have hnext := h.feed hroom .tick (by simp)
      have hfresh : ¬ (l.policy.maxAge.toMillis : Int) ≤ now.toInt - m.lastClose :=
        Int.not_le.mpr (hyoung.sinceClose now List.mem_cons_self)
      have hstep : m.step l.policy now.toInt .tick = ([], m) := if_neg hfresh
      have htriggers : m.triggers l.policy now.toInt .tick = [] := if_neg hfresh
      rw [hstep, htriggers, List.append_nil] at hnext
      exact ih hnext hroom hfilling hrest hyoung
    | clock t => exact ih (h.clock t) hroom hfilling hrest hyoung.next
    | watermark | barrier | endInput | finish => cases hplain _ List.mem_cons_self

/-- A coordinator that is started, gets items one after the other, the end of the input and a stop,
with collaborators that never fail and bundles that never grow too old, cuts the items into bundles
of the size that its limits ask for. -/
theorem bundles_cut_by_count (id : String) (l : Limits) {timer : Timer} {index : Nat}
    (hstart : (timer.schedule l.policy.checkPeriod.toMillis).1 = .ok index)
    (inputs : List (Input α)) (hplain : ∀ input ∈ inputs, input.isPlain = true)
    (hlasts : l.Lasts (timer.now :: inputs.filterMap Input.reading?)) :
    let r := ((inputs.foldl feed (launched id l timer)).attend .endInput).attend .stop
    (0 < l.size.toInt → (l.policy.maxItems.toNat : Int) = l.size.toInt) ∧
      Machine.Cut l.policy.maxItems.toNat (inputs.filterMap Input.item?) r.recorder.journal
        r.world.coordinator.tally.closes ∧
      r.world.coordinator.phase = .stopped := by
  intro r
  have hfirst : Machine.Filling l.policy.maxItems.toNat ([] : List α) []
      ⟨[], none, timer.now.toInt⟩ [.opened] {} :=
    ⟨rfl, fun b hb ↦ (by cases hb), rfl, rfl, rfl, fun t ↦ (by cases t <;> rfl)⟩
  obtain ⟨last, m, bundles, written, total, htracks, hroom, hfilling⟩ :=
    (tracks_launched id hstart).fills inputs l.maxItems_pos hfirst hplain (young_of_close hlasts)
  have hend := htracks.feed hroom .endInput (by simp)
  have hempty : (m.step l.policy last.toInt .endInput).2.items = [] := by
    change (m.flush last.toInt).2.items = []
    by_cases hitems : m.items = []
    · rw [Machine.flush_of_nil hitems, hitems]
    · rw [Machine.flush_of_ne_nil hitems]
  obtain ⟨hjournal, hcloses, hstopped⟩ := hend.stop hempty
  have hcut := (hfilling.ends hroom last.toInt).closed
  exact ⟨l.toNat_maxItems, hcloses ▸ hjournal ▸ hcut, hstopped⟩

/-- Five items in bundles of two, with an age check behind the second one. -/
theorem bundles_cut_by_count_pairs :
    let timer : Timer := { kind := .manual false, now := 0 }
    let inputs : List (Input Nat) :=
      [.submit 1, .submit 2, .clock 500, .tick, .submit 3, .submit 4, .submit 5]
    let r := ((inputs.foldl feed (launched "pairs" { size := 2 } timer)).attend .endInput).attend
      .stop
    (timer.schedule ({ size := 2 } : Limits).policy.checkPeriod.toMillis).1 = .ok 0 ∧
      ({ size := 2 } : Limits).Lasts (timer.now :: inputs.filterMap Input.reading?) ∧
      r.recorder.journal.bundles.length = 3 ∧ r.recorder.journal.emitted = [1, 2, 3, 4, 5] ∧
      r.world.coordinator.tally.closes.get .itemCount = 2 ∧
      r.world.coordinator.tally.closes.get .endOfInput = 1 := by
  intro timer inputs r
  have hstart :
      (timer.schedule ({ size := 2 } : Limits).policy.checkPeriod.toMillis).1 = .ok 0 := by
    decide
  have hlasts : ({ size := 2 } : Limits).Lasts (timer.now :: inputs.filterMap Input.reading?) := by
    unfold Limits.Lasts
    decide
  obtain ⟨-, hcut, -⟩ := bundles_cut_by_count "pairs" { size := 2 } hstart inputs (by decide) hlasts
  exact ⟨hstart, hlasts, hcut.length.trans (by decide), hcut.emitted,
    hcut.itemCount.trans (by decide), hcut.endOfInput.trans (by decide)⟩

end Rig

end Bundling
