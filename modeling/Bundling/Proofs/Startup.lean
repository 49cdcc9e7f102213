import Bundling.Proofs.Accounts
import Bundling.Proofs.TimerLifetime

/-!
Starting a coordinator takes two steps that may fail: the unit is opened, then the age check is
registered with the timer. A start that fails at the first step leaves nothing behind. One that is
refused by the timer leaves the unit open and the coordinator in its first phase, and the next start
opens the unit again. Every opening of the unit is that of the one start that ends well or of a
start that the timer has refused, so starting is all or nothing exactly if the timer refuses none.
-/

set_option autoImplicit false
set_option relaxedAutoImplicit false

namespace Bundling

namespace History

variable {α β : Type} {h new : History α β}

/-- How often the unit has opened. -/
def opens (h : History α β) : Nat := successes (· matches .openUnit) h

/-- How many starts have ended well. -/
def launches (h : History α β) : Nat := h.countP (· matches .replied _ .start .done)

theorem opens_append (h new : History α β) : opens (h ++ new) = opens h + opens new :=
  List.countP_append

theorem launches_append (h new : History α β) :
    launches (h ++ new) = launches h + launches new :=
  List.countP_append

theorem not_mem_of_opens (hnone : opens h = 0) (i : Nat) (results : List β) :
    .answered i .openUnit (.ok results) ∉ h := by
  intro hmem
  exact absurd rfl (List.countP_eq_zero.mp hnone _ hmem)

end History

namespace Coordinator

variable {α β : Type} {c : Coordinator} {i : Nat} {q : Request α} {s : Stage α β}
  {a : Except Failure (List β)} {out : Coordinator × Stage α β}

open History

/-- Whether the timer would take the registration of the age check. -/
def canRegister (c : Coordinator) : Bool :=
  match (c.timer.schedule c.policy.checkPeriod.toMillis).1 with
  | .ok _ => true
  | .error _ => false

/-- A start whose unit has opened ends as the timer has it. -/
theorem opened_ends (c : Coordinator) : (c.canRegister = true ∧
      (c.opened : Coordinator × Stage α β).2 = .ended .done) ∨
    (c.canRegister = false ∧ ∃ f, (c.opened : Coordinator × Stage α β).2 = .ended (.failed f)) := by
  unfold opened schedule canRegister
  dsimp only
  cases (c.timer.schedule c.policy.checkPeriod.toMillis).1 with
  | ok index => exact .inl ⟨rfl, rfl⟩
  | error f => exact .inr ⟨rfl, f, rfl⟩

/-- What a turn that neither opens the unit nor ends a start well leaves as it is. -/
structure Bides (c d : Coordinator) (new : History α β) : Prop where
  opens : opens new = 0
  launches : launches new = 0
  registrations : d.timer.registrations.length = c.timer.registrations.length
  running : d.phase = .running → c.phase = .running

theorem Bides.refl (c : Coordinator) : Bides c c ([] : History α β) :=
  ⟨rfl, rfl, rfl, fun h ↦ h⟩

theorem Bides.trans {d e : Coordinator} {new later : History α β} (h : Bides c d new)
    (hnext : Bides d e later) : Bides c e (new ++ later) where
  opens := by rw [opens_append, h.opens, hnext.opens]
  launches := by rw [launches_append, h.launches, hnext.launches]
  registrations := hnext.registrations.trans h.registrations
  running := fun hrunning ↦ h.running (hnext.running hrunning)

/-- The registrations of a coordinator that gives its own up are as many as before. -/
theorem length_registrations_ceased (c : Coordinator) :
    c.ceased.timer.registrations.length = c.timer.registrations.length := by
  rw [ceased_timer]
  exact (Timer.fades_relinquish _ _).length

theorem Joins.bides {d : Coordinator} {n : Nat} (h : Joins q c d s) :
    Bides c (d.inLine n) ([.issued n q] : History α β) := by
  cases h with
  | asks => exact ⟨rfl, rfl, rfl, fun hrunning ↦ hrunning⟩
  | stops => exact ⟨rfl, rfl, rfl, fun hrunning ↦ by cases hrunning⟩
  | shutsDown =>
    refine ⟨rfl, rfl, length_registrations_ceased c, fun hrunning ↦ ?_⟩
    exact absurd ((ceased_phase c).symm.trans hrunning) (by simp)

theorem Departure.bides {d : Coordinator} {f : Option Failure} (h : Departure i f d out)
    (hsame : Agrees c d) : out.1.timer.registrations.length = c.timer.registrations.length := by
  rw [← hsame.timer]
  cases h with
  | already => rfl
  | waits | takes | settles => exact length_registrations_ceased d

theorem opens_left (hother : s = .opening → ∃ f, a = .error f) :
    opens (Event.left i s a) = 0 := by
  cases s with
  | opening =>
    obtain ⟨f, rfl⟩ := hother rfl
    rfl
  | _ => cases a <;> rfl

theorem opens_reached : opens (Event.reached i q s) = 0 := by
  cases s <;> rfl

theorem launches_left : launches (Event.left i s a) = 0 := by
  cases s <;> rfl

theorem launches_reached (hnot : q = .start → s ≠ .ended .done) :
    launches (Event.reached i q s) = 0 := by
  cases s with
  | ended r =>
    cases q with
    | start =>
      cases r with
      | done => exact absurd rfl (hnot rfl)
      | _ => rfl
    | _ => rfl
  | _ => rfl

/-- A start ends well only in the turn that finds the unit open. -/
theorem Turn.not_done_of_start (h : Turn i .start c s a out) (hs : StartStage s)
    (hother : s = .opening → ∃ f, a = .error f) : out.2 ≠ .ended .done := by
  have hreply := h.reply?_eq_none
  rcases hs with rfl | rfl | hended
  · cases h with
    | opens | refused => exact fun h ↦ by cases h
    | passes _ hq | continues _ _ hq | starts _ _ hq | holds _ _ hq | forwards _ _ hq => cases hq
    | closes _ _ hq | idles _ _ _ hq => cases hq
  · obtain ⟨f, rfl⟩ := hother rfl
    cases h with
    | opensNot => exact fun h ↦ by cases h
  · rw [hreply] at hended
    cases hended

theorem Turn.bides (h : Turn i q c s a out) (hstart : q = .start → StartStage s)
    (hother : s = .opening → ∃ f, a = .error f) :
    Bides c out.1 (Event.left i s a ++ Event.reached i q out.2) := by
  have hcourse := h.course
  refine ⟨?_, ?_, ?_, ?_⟩
  · rw [opens_append, opens_left hother, opens_reached]
  · rw [launches_append, launches_left, launches_reached]
    rintro rfl
    exact h.not_done_of_start (hstart rfl) hother
  · cases hcourse with
    | remains hsame => rw [hsame.registrations]
    | enrolls hopening =>
      subst hopening
      obtain ⟨f, rfl⟩ := hother rfl
      cases h
    | departs _ _ _ _ hsame hdeparts => exact hdeparts.bides hsame
  · intro hrunning
    cases hcourse with
    | remains hsame => exact hsame.phase.symm.trans hrunning
    | enrolls hopening =>
      subst hopening
      obtain ⟨f, rfl⟩ := hother rfl
      cases h
    | departs _ _ _ _ _ hdeparts => exact absurd (hdeparts.stopped.symm.trans hrunning) (by simp)

/-- The first stretch of a call does not get as far as an answer of the unit. -/
theorem bides_begin (c : Coordinator) (n : Nat) (q : Request α) :
    Bides c (c.begin n q : Coordinator × Stage α β).1
      (.issued n q :: Event.reached n q (c.begin n q : Coordinator × Stage α β).2) := by
  rcases begin_cases (β := β) c n q with ⟨r, hdeclines, hbegin⟩ | ⟨d, s, hjoins, hnext⟩
  · rw [hbegin]
    refine ⟨rfl, launches_reached fun hq heq ↦ ?_, rfl, fun hrunning ↦ hrunning⟩
    cases heq
    exact hdeclines.ne_done (by simp [hq]) (by simp [hq]) (by simp [hq]) rfl
  · have hleft : Event.left n s (.ok []) = ([] : History α β) := by
      cases hjoins <;> rfl
    rcases hnext with ⟨-, hbegin⟩ | ⟨-, hturn⟩
    · have hreached : Event.reached n q s = ([] : History α β) := by
        cases hjoins <;> rfl
      rw [hbegin, hreached]
      exact hjoins.bides
    · have hturned := hturn.bides hjoins.startStage (fun hs ↦ by cases hjoins <;> cases hs)
      rw [hleft, List.nil_append] at hturned
      exact hjoins.bides.trans hturned

end Coordinator

namespace World

variable {α β : Type} {w : World α β} {t : History α β} {id : String} {checked : Checked}
  {timer : Timer}

open History

/-- A start comes back from the unit, which has opened, and the timer refuses the age check. -/
def refuses (w : World α β) : Move α β → Bool
  | .proceed i (.ok _) => w.stage? i matches some .opening && !w.coordinator.canRegister
  | _ => false

/-- How often that happens in a run. -/
def refusals (w : World α β) : List (Move α β) → Nat
  | [] => 0
  | m :: moves => (w.refuses m).toNat + (w.step m).refusals moves

theorem refusals_snoc (w : World α β) (moves : List (Move α β)) (m : Move α β) :
    w.refusals (moves ++ [m]) = w.refusals moves + ((w.run moves).refuses m).toNat := by
  induction moves generalizing w with
  | nil => exact Nat.add_comm _ _
  | cons m' moves ih =>
    change (w.refuses m').toNat + (w.step m').refusals (moves ++ [m]) = _
    rw [ih, ← Nat.add_assoc]
    rfl

/-- What a move is to the start of the coordinator. -/
inductive Startup (w : World α β) (m : Move α β) : Prop
  | bides (h : w.coordinator.Bides (w.step m).coordinator (w.events m))
      (hrefuses : w.refuses m = false)
  | launches (i : Nat) (hstage : w.stage? i = some .opening)
      (hevents : w.events m = [.answered i .openUnit (.ok []), .replied i .start .done])
      (hregistrations : (w.step m).coordinator.timer.registrations.length =
        w.coordinator.timer.registrations.length + 1)
      (hrefuses : w.refuses m = false)
  | refused (i : Nat) (f : Failure)
      (hevents : w.events m = [.answered i .openUnit (.ok []), .replied i .start (.failed f)])
      (hregistrations : (w.step m).coordinator.timer.registrations.length =
        w.coordinator.timer.registrations.length)
      (hphase : (w.step m).coordinator.phase = w.coordinator.phase)
      (hrefuses : w.refuses m = true)

/-- A start comes back from the unit, which has opened. -/
theorem Orderly.startup_of_opened (h : w.Orderly) {i : Nat} {call : Call α β} {results : List β}
    (hcall : w.calls[i]? = some call) (hopening : call.stage = .opening) :
    w.Startup (.proceed i (.ok results)) := by
  have hstage : w.stage? i = some .opening := (stage?_of_call hcall).trans (congrArg _ hopening)
  have hq : call.request = .start := by
    have hsuits := h.suits call (List.mem_of_getElem? hcall)
    rw [hopening] at hsuits
    exact hsuits
  have hrun : w.canRun i call.stage = true := by simp [canRun, hopening, Stage.operation?]
  have hstretch : w.stretch i call (.ok results) = w.coordinator.opened := by
    simp only [stretch, hopening]
    rfl
  have hturn := (turn_stretch h (.ok results) hcall hrun).2
  rw [hstretch, hopening] at hturn
  have hstep : (w.step (.proceed i (.ok results))).coordinator =
      (w.coordinator.opened : Coordinator × Stage α β).1 := by
    rw [← hstretch]
    simp [step, proceed, hcall]
  have hevents : w.events (.proceed i (.ok results)) = .answered i .openUnit (.ok []) ::
      Event.reached i .start (w.coordinator.opened : Coordinator × Stage α β).2 := by
    simp only [events, hcall, hstretch, hopening, hq]
    rfl
  have hrefuses : w.refuses (.proceed i (.ok results)) = !w.coordinator.canRegister := by
    simp [refuses, hstage]
  rw [hq] at hturn
  rcases Coordinator.opened_ends (α := α) (β := β) w.coordinator with
    ⟨hcan, hended⟩ | ⟨hcannot, f, hended⟩
  · refine .launches i hstage ?_ ?_ ?_
    · rw [hevents, hended]
      rfl
    · rw [hstep]
      generalize (w.coordinator.opened : Coordinator × Stage α β) = out at hturn hended
      cases hturn with
      | schedulesNot => cases hended
      | runs _ _ _ _ _ hadds => exact (congrArg List.length hadds).trans List.length_append
    · rw [hrefuses, hcan]
      rfl
  · have hsame : (w.coordinator.opened : Coordinator × Stage α β).1.timer.registrations =
          w.coordinator.timer.registrations ∧
        (w.coordinator.opened : Coordinator × Stage α β).1.phase = w.coordinator.phase := by
      generalize (w.coordinator.opened : Coordinator × Stage α β) = out at hturn hended
      cases hturn with
      | schedulesNot _ _ _ _ hsame => exact ⟨hsame, rfl⟩
      | runs => cases hended
    refine .refused i f ?_ ?_ ?_ ?_
    · rw [hevents, hended]
      rfl
    · rw [hstep, hsame.1]
    · rw [hstep, hsame.2]
    · rw [hrefuses, hcannot]
      rfl

theorem Reaches.startup (h : Reaches (created id checked timer) w t) (m : Move α β) :
    w.Startup m := by
  cases m with
  | issue q => exact .bides (w.coordinator.bides_begin w.calls.length q) rfl
  | clock now => exact .bides ⟨rfl, rfl, rfl, fun hrunning ↦ hrunning⟩ rfl
  | timerFaults => exact .bides ⟨rfl, rfl, rfl, fun hrunning ↦ hrunning⟩ rfl
  | proceed i answer =>
    have horderly := h.orderly (orderly_created id checked timer)
    have hstep : w.step (.proceed i answer) = w.proceed i answer := rfl
    by_cases hopens : w.stage? i = some .opening ∧ ∃ results, answer = .ok results
    · obtain ⟨hstage, results, rfl⟩ := hopens
      obtain ⟨call, hcall, hopening⟩ := Option.map_eq_some_iff.mp hstage
      exact horderly.startup_of_opened hcall hopening
    · have hrefuses : w.refuses (.proceed i answer) = false := by
        cases answer with
        | error f => rfl
        | ok results =>
          have hother : w.stage? i ≠ some .opening := fun hstage ↦ hopens ⟨hstage, results, rfl⟩
          dsimp only [refuses]
          split
          · contradiction
          · rfl
      refine .bides ?_ hrefuses
      rw [hstep]
      rcases horderly.proceed_turns i answer with ⟨hstays, hevents⟩ |
        ⟨call, out, hcall, -, hturn, hproceed, hevents⟩
      · rw [hstays, hevents]
        exact .refl _
      · rw [hproceed, hevents]
        refine hturn.bides (h.startStage_of_call hcall) (fun hopening ↦ ?_)
        cases answer with
        | error f => exact ⟨f, rfl⟩
        | ok results =>
          exact absurd ⟨(stage?_of_call hcall).trans (congrArg _ hopening), results, rfl⟩ hopens

/-! ### Runs -/

/-- What the starts of a run have come to, given how many registrations there were before. -/
structure Started (n refusals : Nat) (w : World α β) (t : History α β) : Prop where
  opens : opens t = launches t + refusals
  registrations : w.coordinator.timer.registrations.length = n + launches t
  atMost : launches t ≤ 1
  running : w.coordinator.phase = .running → launches t = 1

theorem started_run (id : String) (checked : Checked) (timer : Timer) (moves : List (Move α β)) :
    Started timer.registrations.length ((created id checked timer : World α β).refusals moves)
      ((created id checked timer : World α β).run moves)
      ((created id checked timer : World α β).trace moves) := by
  have hcreated := orderly_created (α := α) (β := β) id checked timer
  induction moves using List.reverseRecOn with
  | nil => exact ⟨rfl, rfl, Nat.zero_le 1, fun hrunning ↦ by cases hrunning⟩
  | append_singleton moves m ih =>
    have hreaches := reaches_run hcreated moves
    rw [run_snoc, trace_snoc, refusals_snoc]
    generalize (created id checked timer : World α β).refusals moves = refusals at ih ⊢
    cases hreaches.startup m with
    | bides h hrefuses =>
      refine ⟨?_, ?_, ?_, fun hrunning ↦ ?_⟩
      · rw [opens_append, launches_append, h.opens, h.launches, hrefuses]
        exact ih.opens
      · rw [launches_append, h.launches, h.registrations]
        exact ih.registrations
      · rw [launches_append, h.launches]
        exact ih.atMost
      · rw [launches_append, h.launches]
        exact ih.running (h.running hrunning)
    | launches i hstage hevents hregistrations hrefuses =>
      -- the unit is being opened, so no start can have ended well before
      have hnone : launches ((created id checked timer : World α β).trace moves) = 0 := by
        have hlength := hreaches.registers.unopened (.inr ⟨i, hstage⟩)
        have hregistered := ih.registrations
        omega
      have hopens := ih.opens
      have hregistered := ih.registrations
      have hone : launches ((created id checked timer : World α β).trace moves ++
          ((created id checked timer : World α β).run moves).events m) = 1 := by
        rw [launches_append, hnone, hevents]
        rfl
      refine ⟨?_, ?_, Nat.le_of_eq hone, fun _ ↦ hone⟩
      · rw [hone, opens_append, hevents, hrefuses, hopens, hnone]
        change 0 + refusals + 1 = 1 + (refusals + 0)
        omega
      · rw [hone, hregistrations, hregistered, hnone]
    | refused i f hevents hregistrations hphase hrefuses =>
      have hsame : launches ((created id checked timer : World α β).trace moves ++
          ((created id checked timer : World α β).run moves).events m) =
            launches ((created id checked timer : World α β).trace moves) := by
        rw [launches_append, hevents]
        rfl
      refine ⟨?_, ?_, ?_, fun hrunning ↦ ?_⟩
      · rw [hsame, opens_append, hevents, hrefuses, ih.opens]
        rfl
      · rw [hsame, hregistrations, ih.registrations]
      · rw [hsame]
        exact ih.atMost
      · rw [hsame]
        exact ih.running (hphase.symm.trans hrunning)

/-- A start whose call has opened the unit has ended well, unless the timer has refused it. -/
theorem launched_of_opened {moves : List (Move α β)} {i : Nat} {results : List β}
    (hrefusals : (created id checked timer : World α β).refusals moves = 0)
    (hopened : .answered i .openUnit (.ok results) ∈
      (created id checked timer : World α β).trace moves) :
    .replied i .start .done ∈ (created id checked timer : World α β).trace moves := by
  have hcreated := orderly_created (α := α) (β := β) id checked timer
  induction moves using List.reverseRecOn with
  | nil => cases hopened
  | append_singleton moves m ih =>
    rw [refusals_snoc] at hrefusals
    rw [trace_snoc, List.mem_append] at hopened ⊢
    rcases hopened with hbefore | hnow
    · exact .inl (ih (by omega) hbefore)
    · right
      cases (reaches_run hcreated moves).startup m with
      | bides h => exact absurd hnow (not_mem_of_opens h.opens i results)
      | launches k _ hevents =>
        rw [hevents] at hnow ⊢
        have hi : i = k := by simp_all
        simp [hi]
      | refused _ _ _ _ _ hrefuses =>
        rw [hrefuses] at hrefusals
        exact absurd hrefusals (Nat.succ_ne_zero _)

/-- A start that the timer has refused has opened the unit and failed. -/
theorem exists_refused {moves : List (Move α β)}
    (hrefusals : (created id checked timer : World α β).refusals moves ≠ 0) :
    ∃ i f, .answered i .openUnit (.ok []) ∈
        (created id checked timer : World α β).trace moves ∧
      .replied i .start (.failed f) ∈ (created id checked timer : World α β).trace moves := by
  have hcreated := orderly_created (α := α) (β := β) id checked timer
  induction moves using List.reverseRecOn with
  | nil => exact absurd rfl hrefusals
  | append_singleton moves m ih =>
    rw [refusals_snoc] at hrefusals
    rw [trace_snoc]
    by_cases hbefore : (created id checked timer : World α β).refusals moves = 0
    · cases (reaches_run hcreated moves).startup m with
      | refused i f hevents =>
        rw [hevents]
        exact ⟨i, f, by simp, by simp⟩
      | bides _ hrefuses | launches _ _ _ _ hrefuses =>
        rw [hbefore, hrefuses] at hrefusals
        exact absurd rfl hrefusals
    · obtain ⟨i, f, hopened, hfailed⟩ := ih hbefore
      exact ⟨i, f, List.mem_append_left _ hopened, List.mem_append_left _ hfailed⟩

/-- Starting is all or nothing: a start that fails has not opened the unit and has registered
nothing, so the unit opens once at most, and the coordinator runs only after one start has ended
well, with the unit opened and the age check registered exactly once. -/
structure AllOrNothing (n : Nat) (w : World α β) (t : History α β) : Prop where
  unopened : ∀ i f results, .replied i .start (.failed f) ∈ t →
    .answered i .openUnit (.ok results) ∉ t
  unregistered : w.coordinator.timer.registrations.length = n + launches t
  opens : opens t ≤ 1
  launches : launches t ≤ 1
  running : w.coordinator.phase = .running → History.opens t = 1 ∧ History.launches t = 1 ∧
    w.coordinator.timer.registrations.length = n + 1

/-- In every run at most one start ends well, and it makes the one registration. The unit opens once
for this start and once for each start that the timer has refused, so starting is all or nothing
exactly if the timer has refused none. -/
theorem allOrNothing_iff (id : String) (checked : Checked) (timer : Timer)
    (moves : List (Move α β)) :
    let first : World α β := created id checked timer
    let w := first.run moves
    let t := first.trace moves
    launches t ≤ 1 ∧ (w.coordinator.phase = .running → launches t = 1) ∧
      w.coordinator.timer.registrations.length = timer.registrations.length + launches t ∧
      opens t = launches t + first.refusals moves ∧
      (AllOrNothing timer.registrations.length w t ↔ first.refusals moves = 0) := by
  intro first w t
  have hreaches : Reaches first w t :=
    reaches_run (orderly_created (α := α) (β := β) id checked timer) moves
  obtain ⟨hopens, hregistrations, hlaunches, hrunning⟩ :
    Started timer.registrations.length (first.refusals moves) w t :=
      started_run id checked timer moves
  refine ⟨hlaunches, hrunning, hregistrations, hopens, fun h ↦ ?_, fun hnone ↦ ?_⟩
  · by_contra hsome
    obtain ⟨i, f, hopened, hfailed⟩ := exists_refused hsome
    exact h.unopened i f [] hfailed hopened
  · refine ⟨fun i f results hfailed hopened ↦ ?_, hregistrations, by omega, hlaunches,
      fun hphase ↦ ?_⟩
    · have hended := hreaches.ended_of_replied (launched_of_opened hnone hopened)
      rw [hreaches.ended_of_replied hfailed] at hended
      cases hended
    · have hone := hrunning hphase
      exact ⟨by omega, hone, by omega⟩

/-- The timer refuses the first registration, and the coordinator is started once more. -/
def refusedStart : List (Move Nat Nat) :=
  [.timerFaults (some ⟨0, some 1, .timer "injected"⟩) none, .issue .start, .proceed 0 (.ok []),
    .issue .start, .proceed 1 (.ok [])]

/-- The start that fails leaves the unit open, and the next one opens it once more. -/
theorem not_allOrNothing :
    ¬ ∀ moves : List (Move Nat Nat),
      AllOrNothing 0 (plain.run moves) (plain.trace moves) := by
  intro h
  have htwice : opens (plain.trace refusedStart) = 2 := by decide
  exact absurd (h refusedStart).opens (by rw [htwice]; decide)

end World

end Bundling
