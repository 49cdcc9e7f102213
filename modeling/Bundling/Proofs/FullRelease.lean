import Bundling.Proofs.AfterRelease
import Bundling.Proofs.Dealings

/-!
The end of a coordinator that no other call is at work on. A stop closes the open bundle first;
then, as a shutdown does at once, it gives up the registration with the timer and closes the unit.
Each of these steps may fail, and the next one is taken all the same. `Ending` follows the call from
stage to stage: what it has asked for so far, what has failed on the way, and what has been given
up. Its reply names the failure of the close, or else every release that has failed.
-/

set_option autoImplicit false
set_option relaxedAutoImplicit false

namespace Bundling

namespace Timer

theorem cancel_now (t : Timer) (now : Int64) (index : Nat) :
    ({ t with now := now } : Timer).cancel index =
      ((t.cancel index).1, { (t.cancel index).2.1 with now := now }, (t.cancel index).2.2) := by
  obtain ⟨kind, now', registrations, cancellations, scheduleFault, cancelFault⟩ := t
  unfold cancel isActive
  dsimp only
  generalize Fault.draw cancelFault = drawn
  obtain ⟨fault, plan⟩ := drawn
  cases fault with
  | some f => rfl
  | none =>
    cases kind with
    | manual refuses =>
      cases refuses with
      | true => rfl
      | false =>
        dsimp only
        split <;> rfl
    | periodic => rfl

theorem drop_now (t : Timer) (now : Int64) (index : Nat) :
    (({ t with now := now } : Timer).drop index).1 = { (t.drop index).1 with now := now } := by
  obtain ⟨kind, now', registrations, cancellations, scheduleFault, cancelFault⟩ := t
  cases kind <;> rfl

/-- Giving up a registration does not depend on the time. -/
theorem relinquish_now (t : Timer) (now : Int64) (registration : Option Nat) :
    ({ t with now := now } : Timer).relinquish registration =
      ((t.relinquish registration).1, { (t.relinquish registration).2 with now := now }) := by
  cases registration with
  | none => rfl
  | some index =>
    unfold relinquish
    dsimp only
    rw [cancel_now, drop_now]

end Timer

namespace Operation

variable {α β : Type}

/-- An operation with which a close goes on once the unit has been asked to finish the bundle. -/
def GoesOn (op : Operation α β) : Prop :=
  op = .drainResults ∨ (∃ r, op = .emit r) ∨ ∃ w, op = .forward w

end Operation

/-- The reply of a call that ends the coordinator, by what has failed on the way. -/
def Reply.ofFailures (close timer unit : Option Failure) : Reply :=
  match close, (timer.map fun f ↦ "timer: " ++ f.message).toList ++
      (unit.map fun f ↦ "execution unit: " ++ f.message).toList with
  | some f, _ => .failed f
  | none, [] => .done
  | none, failures => .failed (.shutdown failures)

theorem Release.reply_eq (r : Release) (unitFailure : Option Failure) :
    r.reply unitFailure = .ofFailures r.closeFailure r.timerFailure unitFailure := by
  unfold Release.reply Reply.ofFailures Coordinator.shutdownFailures
  cases r.closeFailure with
  | some f => split <;> rfl
  | none => split <;> simp_all [Coordinator.failedOr]

namespace History

variable {α β : Type} {i : Nat} {q : Request α} {s s' : Stage α β} {a : Except Failure (List β)}

/-- What the collaborators have been asked for, in order. -/
def asked (h : History α β) : List (Operation α β) :=
  h.filterMap fun
    | .asked _ op => some op
    | _ => none

/-- What the first of these operations that has failed has failed with. -/
def failure? (p : Operation α β → Bool) (h : History α β) : Option Failure :=
  h.findSome? fun
    | .answered _ op (.error f) => if p op then some f else none
    | _ => none

/-- The failure of a close of a bundle. -/
def closeFailure? (h : History α β) : Option Failure := failure? (! · matches .closeUnit) h

/-- The failure of the closing of the unit. -/
def unitFailure? (h : History α β) : Option Failure := failure? (· matches .closeUnit) h

theorem asked_append (h new : History α β) : asked (h ++ new) = asked h ++ asked new :=
  List.filterMap_append

theorem failure?_append (p : Operation α β → Bool) (h new : History α β) :
    failure? p (h ++ new) = (failure? p h).or (failure? p new) :=
  List.findSome?_append

theorem asked_left : asked (Event.left i s a) = [] := by
  cases s <;> rfl

theorem asked_reached : asked (Event.reached i q s) = s.operation?.toList := by
  cases s <;> rfl

theorem failure?_reached (p : Operation α β → Bool) : failure? p (Event.reached i q s) = none := by
  cases s <;> rfl

theorem closeFailure?_left (hs : s.close?.isSome = true) :
    closeFailure? (Event.left i s a) = Coordinator.unitFailure a := by
  cases s with
  | finishing | draining | emitting | releasing => cases a <;> rfl
  | _ => cases hs

theorem unitFailure?_left (hs : s.close?.isSome = true) :
    unitFailure? (Event.left i s a) = none := by
  cases s with
  | finishing | draining | emitting | releasing => cases a <;> rfl
  | _ => cases hs

end History

namespace Coordinator

open History

variable {α β : Type} {b c d : Coordinator} {n : Nat} {q : Request α} {s : Stage α β}
  {a : Except Failure (List β)} {t : History α β} {out : Coordinator × Stage α β}

/-- What a call that ends the coordinator asks for before it comes to the release: a stop closes the
open bundle, if there is one. -/
inductive Attempts (b : Coordinator) (q : Request α) : List (Operation α β) → Prop
  | closes (rest : List (Operation α β)) (hq : q = .stop) (hopen : b.slot.isOpen = true)
      (hrest : ∀ op ∈ rest, op.GoesOn) : Attempts b q (.finishBundle :: rest)
  | nothing (hnot : ¬ (q = .stop ∧ b.slot.isOpen = true)) : Attempts b q []

theorem Attempts.snoc {ops : List (Operation α β)} (h : Attempts b q ops) (hq : q = .stop)
    (hopen : b.slot.isOpen = true) {op : Operation α β} (hop : op.GoesOn) :
    Attempts b q (ops ++ [op]) := by
  cases h with
  | nothing hnot => exact absurd ⟨hq, hopen⟩ hnot
  | closes rest _ _ hrest =>
    refine .closes (rest ++ [op]) hq hopen fun op' hop' ↦ ?_
    rcases List.mem_append.mp hop' with hbefore | hlast
    · exact hrest op' hbefore
    · rw [List.mem_singleton.mp hlast]
      exact hop

theorem Attempts.closeUnit_not_mem {ops : List (Operation α β)} (h : Attempts b q ops) :
    .closeUnit ∉ ops := by
  cases h with
  | nothing => exact List.not_mem_nil
  | closes rest _ _ hrest =>
    intro hmem
    rcases List.mem_cons.mp hmem with heq | hmem
    · cases heq
    · rcases hrest _ hmem with heq | ⟨r, heq⟩ | ⟨w, heq⟩ <;> cases heq

/-- Nothing has been given up yet. -/
structure Holds (b c : Coordinator) : Prop where
  phase : c.phase ≠ .stopped
  hasUnit : c.hasUnit = b.hasUnit
  registration : c.registration = b.registration
  timer : c.timer = { b.timer with now := c.timer.now }

/-- Everything has been given up; the registration has been cancelled, and its handle dropped,
once. -/
structure Freed (b c : Coordinator) : Prop where
  phase : c.phase = .stopped
  hasUnit : c.hasUnit = false
  registration : c.registration = none
  timer : c.timer = { (b.timer.relinquish b.registration).2 with now := c.timer.now }

theorem Holds.relinquish (h : Holds b c) : c.timer.relinquish c.registration =
    ((b.timer.relinquish b.registration).1,
      { (b.timer.relinquish b.registration).2 with now := c.timer.now }) := by
  rw [h.registration, h.timer]
  exact Timer.relinquish_now _ _ _

/-- The last close is under way. -/
structure Shutting (n : Nat) (b c : Coordinator) : Prop where
  holds : Holds b c
  phase : c.phase = .stopping
  hasUnit : c.hasUnit = true
  wasOpen : b.slot.isOpen = true
  lock : c.lock = ⟨some n, []⟩

/-- How far a call is that ends a coordinator which was idle before it; `t` is what has happened
since the call was made. -/
inductive Ending (n : Nat) (b : Coordinator) (q : Request α) (c : Coordinator) (t : History α β) :
    Stage α β → Prop
  | closing (s : Stage α β) (hs : s.close?.isSome = true) (hq : q = .stop) (h : Shutting n b c)
      (hasked : Attempts b q (asked t)) (hclose : closeFailure? t = none)
      (hunit : unitFailure? t = none) : Ending n b q c t s
  | releasing (r : Release) (ops : List (Operation α β)) (h : Freed b c) (hthere : b.hasUnit = true)
      (hops : Attempts b q ops) (hasked : asked t = ops ++ [.closeUnit])
      (hclose : r.closeFailure = closeFailure? t)
      (htimer : r.timerFailure = (b.timer.relinquish b.registration).1)
      (hunit : unitFailure? t = none) : Ending n b q c t (.closingUnit r)
  | ended (reply : Reply) (ops : List (Operation α β)) (h : Freed b c)
      (hshut : c.slot.isOpen = false) (hops : Attempts b q ops)
      (hasked : asked t = ops ++ if b.hasUnit then [.closeUnit] else [])
      (hreply : reply = .ofFailures (closeFailure? t) (b.timer.relinquish b.registration).1
        (unitFailure? t)) : Ending n b q c t (.ended reply)

/-- The call waits for a collaborator until it has ended. -/
theorem Ending.exists_reply (h : Ending n b q c t s) (hs : s.operation?.isSome = false) :
    ∃ reply, s = .ended reply := by
  cases h with
  | closing _ hclose =>
    cases s with
    | finishing | draining | emitting | releasing => cases hs
    | _ => cases hclose
  | releasing => cases hs
  | ended reply => exact ⟨reply, rfl⟩

/-! ### Turns -/

theorem Departure.ending {f : Option Failure} (hout : Departure n f c out) (h : Holds b c)
    (hlock : c.lock.holder = none) (hasked : Attempts b q (asked t)) (hclose : closeFailure? t = f)
    (hunit : unitFailure? t = none) :
    Ending n b q out.1 (t ++ Event.reached n q out.2) out.2 := by
  have hfreed (e : Coordinator) (hphase : e.phase = .stopped) (hgone : e.hasUnit = false)
      (hregistration : e.registration = none) (htimer : e.timer = c.ceased.timer) : Freed b e := by
    refine ⟨hphase, hgone, hregistration, ?_⟩
    have hnow := ceased_timer c
    rw [h.relinquish] at hnow
    rw [htimer, hnow]
  have hgiven : (c.releaseOf f).timerFailure = (b.timer.relinquish b.registration).1 := by
    rw [timerFailure_releaseOf, h.relinquish]
  have hasked' (s : Stage α β) : asked (t ++ Event.reached n q s) =
      asked t ++ s.operation?.toList := by rw [asked_append, asked_reached]
  have hclose' (s : Stage α β) : closeFailure? (t ++ Event.reached n q s) = f := by
    unfold closeFailure?
    rw [failure?_append, failure?_reached, Option.or_none]
    exact hclose
  have hunit' (s : Stage α β) : unitFailure? (t ++ Event.reached n q s) = none := by
    unfold unitFailure?
    rw [failure?_append, failure?_reached, Option.or_none]
    exact hunit
  cases hout with
  | already hphase => exact absurd hphase h.phase
  | waits _ hheld => exact absurd hlock hheld
  | takes _ _ hthere =>
    exact .releasing _ (asked t) (hfreed _ (ceased_phase c) rfl (ceased_registration c) rfl)
      (h.hasUnit.symm.trans hthere) hasked (hasked' _) (hclose' _).symm hgiven (hunit' _)
  | settles notices reply _ _ hgone hreply =>
    refine .ended _ (asked t) (hfreed _ (ceased_phase c) ?_ (ceased_registration c) rfl) rfl
      hasked ?_ ?_
    · exact (ceased_hasUnit c).trans hgone
    · rw [hasked', ← h.hasUnit, hgone]
      rfl
    · rw [hreply, Release.reply_eq, hgiven, hclose', hunit']
      rfl

theorem Parting.ending {result : Except Failure Bool} (hout : Parting n q c result out)
    (h : Holds b c) (hlock : c.lock = ⟨some n, []⟩) (hq : q = .stop)
    (hasked : Attempts b q (asked t)) (hclose : closeFailure? t = closeFailure result)
    (hunit : unitFailure? t = none) : Ending n b q out.1 (t ++ Event.reached n q out.2) out.2 := by
  cases hout with
  | forwards _ _ hmark => cases hq.symm.trans hmark
  | answers _ _ hstop => exact absurd hq hstop
  | fails _ hstop => exact absurd hq hstop
  | latches _ _ htick => cases hq.symm.trans htick
  | departs notices f _ _ _ hresult hdeparts =>
    have hfree : c.lock.release.holder = none := by
      rw [hlock]
      rfl
    exact hdeparts.ending ⟨h.phase, h.hasUnit, h.registration, h.timer⟩ hfree hasked
      (hclose.trans hresult.symm) hunit

/-- The close goes on. -/
theorem Shutting.asks (h : Shutting n b c) (hq : q = .stop) (hs : s.close?.isSome = true)
    {op : Operation α β} (hop : s.operation? = some op) (hgoes : op.GoesOn)
    (hasked : Attempts b q (asked t)) (hclose : closeFailure? t = none)
    (hunit : unitFailure? t = none) : Ending n b q c (t ++ Event.reached n q s) s := by
  refine .closing s hs hq h ?_ ?_ ?_
  · rw [asked_append, asked_reached, hop]
    exact hasked.snoc hq h.wasOpen hgoes
  · unfold closeFailure?
    rw [failure?_append, failure?_reached, Option.or_none]
    exact hclose
  · unfold unitFailure?
    rw [failure?_append, failure?_reached, Option.or_none]
    exact hunit

theorem Emission.ending {close : Close} {total : Nat} {results : List β}
    (hout : Emission n q c close total results out) (h : Shutting n b c) (hq : q = .stop)
    (hasked : Attempts b q (asked t)) (hclose : closeFailure? t = none)
    (hunit : unitFailure? t = none) :
    Ending n b q out.1 (t ++ Event.reached n q out.2) out.2 := by
  have hholds := h.holds
  have hsettled : Shutting n b (c.settled close total) :=
    ⟨⟨hholds.phase, hholds.hasUnit, hholds.registration, hholds.timer⟩, h.phase, h.hasUnit,
      h.wasOpen, h.lock⟩
  cases hout with
  | more r rest => exact h.asks hq rfl rfl (.inr (.inl ⟨r, rfl⟩)) hasked hclose hunit
  | lets w => exact hsettled.asks hq rfl rfl (.inr (.inr ⟨w, rfl⟩)) hasked hclose hunit
  | last _ _ hparts => exact hparts.ending hsettled.holds hsettled.lock hq hasked hclose hunit

theorem Turn.ending (hout : Turn n q c s a out) (h : Ending n b q c t s) :
    Ending n b q out.1 (t ++ (Event.left n s a ++ Event.reached n q out.2)) out.2 := by
  rw [← List.append_assoc]
  cases h with
  | closing s hs hq h hasked hclose hunit =>
    have hasked' : Attempts b q (asked (t ++ Event.left n s a)) := by
      rw [asked_append, asked_left, List.append_nil]
      exact hasked
    have hclose' : closeFailure? (t ++ Event.left n s a) = unitFailure a := by
      unfold closeFailure? at hclose ⊢
      rw [failure?_append, hclose, Option.none_or]
      exact closeFailure?_left hs
    have hunit' : unitFailure? (t ++ Event.left n s a) = none := by
      unfold unitFailure? at hunit ⊢
      rw [failure?_append, hunit, Option.none_or]
      exact unitFailure?_left hs
    have hholds := h.holds
    cases hout with
    | finishesNot _ _ _ hparts => exact hparts.ending hholds h.lock hq hasked' hclose' hunit'
    | finished => exact h.asks hq rfl rfl (.inl rfl) hasked' hclose' hunit'
    | drainsNot _ _ _ hparts => exact hparts.ending hholds h.lock hq hasked' hclose' hunit'
    | drained _ _ _ hemission => exact hemission.ending h hq hasked' hclose' hunit'
    | emitsNot _ _ _ _ _ _ hparts => exact hparts.ending hholds h.lock hq hasked' hclose' hunit'
    | emitted _ _ _ _ _ _ hemission => exact hemission.ending h hq hasked' hclose' hunit'
    | releasesNot _ _ _ _ hparts => exact hparts.ending hholds h.lock hq hasked' hclose' hunit'
    | released _ w _ _ hparts =>
      have hforwarded : Holds b (c.forwarded w) :=
        ⟨hholds.phase, hholds.hasUnit, hholds.registration, hholds.timer⟩
      exact hparts.ending hforwarded h.lock hq hasked' hclose' hunit'
    | _ => cases hs
  | releasing r ops h hthere hops hasked hclose htimer hunit =>
    cases hout with
    | settles _ _ notices reply hreply =>
      refine .ended _ ops ⟨h.phase, h.hasUnit, h.registration, h.timer⟩ rfl hops ?_ ?_
      · rw [asked_append, asked_append, hasked, asked_left, asked_reached, hthere]
        exact (List.append_nil _).trans (List.append_nil _)
      · rw [hreply, Release.reply_eq, hclose, htimer]
        unfold closeFailure? unitFailure? at hunit ⊢
        rw [failure?_append, failure?_append, failure?_append, failure?_append, hunit,
          failure?_reached, failure?_reached]
        cases a <;> simp [Event.left, Stage.operation?, Operation.outcome, failure?, unitFailure]
  | ended => cases hout.reply?_eq_none

/-- The first stretch of the call. -/
theorem ending_begin (hlock : b.lock = {}) (hphase : b.phase ≠ .stopped)
    (hthere : b.slot.isOpen = true → b.hasUnit = true) (hq : q.Stops) :
    Ending n b q (b.begin n q : Coordinator × Stage α β).1
      (.issued n q :: Event.reached n q (b.begin n q : Coordinator × Stage α β).2)
      (b.begin n q : Coordinator × Stage α β).2 := by
  have hfree : b.lock.holder = none := by rw [hlock]
  rcases hq with rfl | rfl
  · -- a stop comes to the lock at once, and then to the close
    rcases begin_cases (β := β) b n (.stop : Request α) with ⟨r, hdeclines, -⟩ |
      ⟨d, s, hjoins, ⟨hheld, -⟩ | ⟨-, hturn⟩⟩
    · exact absurd (hdeclines.stopped (.inl rfl)) hphase
    · exact absurd hfree hheld
    · cases hjoins with
      | asks hstop => exact absurd rfl hstop
      | shutsDown hq => cases hq
      | stops =>
        have hholds : Holds b (({ b with phase := .stopping } : Coordinator).inLine n) :=
          ⟨by simp [inLine], rfl, rfl, rfl⟩
        have hheld : (({ b with phase := .stopping } : Coordinator).inLine n).lock =
            ⟨some n, []⟩ := by
          simp [inLine, hlock, Lock.ask]
        generalize (b.begin n .stop : Coordinator × Stage α β) = out at hturn
        cases hturn with
        | refused _ _ hrefused => cases hrefused
        | closes _ trigger _ _ hunit hopen =>
          exact .closing _ rfl rfl ⟨⟨hholds.phase, rfl, rfl, rfl⟩, rfl, hunit, hopen, hheld⟩
            (.closes [] rfl hopen (by simp)) rfl rfl
        | idles _ _ _ _ hidle _ hparts =>
          refine hparts.ending (t := [.issued n .stop]) hholds hheld rfl (.nothing ?_) rfl rfl
          rintro ⟨-, hopen⟩
          exact absurd (hopen.symm.trans (hidle trivial (hthere hopen))) (by simp)
        | passes _ hq | opens _ hq | continues _ _ hq | starts _ _ hq | holds _ _ hq
        | forwards _ _ hq => cases hq
  · have hdeparts : Departure n none b (b.begin n .shutdown : Coordinator × Stage α β) :=
      departure_beginRelease b n none
    refine hdeparts.ending (t := [.issued n .shutdown]) ⟨hphase, rfl, rfl, rfl⟩ hfree
      (.nothing ?_) rfl rfl
    rintro ⟨hq, -⟩
    cases hq

/-- Time may pass meanwhile. -/
theorem Ending.retimes (h : Ending n b q c t s) (now : Int64) :
    Ending n b q { c with timer := { c.timer with now := now } } t s := by
  cases h with
  | closing s hs hq h hasked hclose hunit =>
    have htimer := h.holds.timer
    refine .closing s hs hq ⟨⟨h.holds.phase, h.holds.hasUnit, h.holds.registration, ?_⟩, h.phase,
      h.hasUnit, h.wasOpen, h.lock⟩ hasked hclose hunit
    dsimp only
    rw [htimer]
  | releasing r ops h hthere hops hasked hclose htimer hunit =>
    have hfreed := h.timer
    refine .releasing r ops ⟨h.phase, h.hasUnit, h.registration, ?_⟩ hthere hops hasked hclose
      htimer hunit
    dsimp only
    rw [hfreed]
  | ended reply ops h hshut hops hasked hreply =>
    have hfreed := h.timer
    refine .ended reply ops ⟨h.phase, h.hasUnit, h.registration, ?_⟩ hshut hops hasked hreply
    dsimp only
    rw [hfreed]

/-- A coordinator that has stopped is left alone. -/
theorem begin_of_stopped (hphase : c.phase = .stopped) (hq : q.Stops) :
    (c.begin n q : Coordinator × Stage α β) = (c, .ended .done) := by
  rcases hq with rfl | rfl
  · simp [begin, early, hphase]
  · simp [begin, early, beginRelease, failedOr, hphase]

end Coordinator

/-- Time passes, or a call goes on that has been made before. -/
def Move.Attends {α β : Type} : Move α β → Prop
  | .proceed _ _ | .clock _ => True
  | .issue _ | .timerFaults _ _ => False

namespace World

open History

variable {α β : Type} {w v u : World α β} {t new : History α β} {q : Request α}
  {id : String} {checked : Checked} {timer : Timer}

/-- The call made last, on a coordinator that was idle before it, ends the coordinator. -/
def Ends (w : World α β) (q : Request α) (v : World α β) (t : History α β) : Prop :=
  ∃ s, v.calls = w.calls ++ [⟨q, s⟩] ∧
    Coordinator.Ending w.calls.length w.coordinator q v.coordinator t s

theorem Ends.step (h : w.Ends q v t) (hidle : w.Idle) (horderly : v.Orderly) {m : Move α β}
    (hm : m.Attends) : w.Ends q (v.step m) (t ++ v.events m) := by
  obtain ⟨s, hcalls, hending⟩ := h
  cases m with
  | issue | timerFaults => cases hm
  | clock now =>
    refine ⟨s, hcalls, ?_⟩
    change Coordinator.Ending _ _ _ _ (t ++ []) s
    rw [List.append_nil]
    exact hending.retimes now
  | proceed i answer =>
    change w.Ends q (v.proceed i answer) _
    rcases horderly.proceed_turns i answer with ⟨hstays, hevents⟩ |
      ⟨call, out, hcall, -, hturn, hproceed, hevents⟩
    · rw [hstays, hevents, List.append_nil]
      exact ⟨s, hcalls, hending⟩
    · rw [hproceed, hevents]
      rw [hcalls] at hcall ⊢
      rcases call_append hcall with hbefore | ⟨rfl, rfl⟩
      · -- all other calls have ended
        have hended := hidle call (List.mem_of_getElem? hbefore)
        rw [hturn.reply?_eq_none] at hended
        cases hended
      · exact ⟨out.2, by simp, hturn.ending hending⟩

theorem Ends.run (h : w.Ends q v t) (hidle : w.Idle) (horderly : v.Orderly)
    (moves : List (Move α β)) (hmoves : ∀ m ∈ moves, m.Attends) :
    w.Ends q (v.run moves) (t ++ v.trace moves) := by
  induction moves using List.reverseRecOn with
  | nil =>
    change w.Ends q v (t ++ [])
    rw [List.append_nil]
    exact h
  | append_singleton moves m ih =>
    have hbefore := ih fun m' hm' ↦ hmoves m' (List.mem_append_left _ hm')
    rw [run_snoc, trace_snoc, ← List.append_assoc]
    exact hbefore.step hidle ((reaches_run horderly moves).orderly horderly)
      (hmoves m (List.mem_append_right _ (List.mem_singleton_self m)))

/-- The call returns, whatever it is answered. -/
theorem Ends.returns (h : w.Ends q v t) (hidle : w.Idle) (horderly : v.Orderly)
    (answers : Nat → Except Failure (List β)) :
    ∃ (k : Nat) (reply : Reply),
      (v.run ((List.range k).map fun j ↦ .proceed w.calls.length (answers j))).stage?
        w.calls.length = some (.ended reply) := by
  have hwf : WellFounded (Stage.Before : Stage α β → Stage α β → Prop) :=
    InvImage.wf (fun s : Stage α β ↦ (s.rank, s.remaining)) (Prod.lex Nat.lt_wfRel Nat.lt_wfRel).wf
  obtain ⟨s, hcalls, hending⟩ := h
  induction s using hwf.induction generalizing v t answers with
  | _ s ih =>
    have hcall : v.calls[w.calls.length]? = some ⟨q, s⟩ := by simp [hcalls]
    cases hop : s.operation?.isSome with
    | false =>
      obtain ⟨reply, rfl⟩ := hending.exists_reply hop
      exact ⟨0, reply, stage?_of_call hcall⟩
    | true =>
      have hstep := Ends.step ⟨s, hcalls, hending⟩ hidle horderly
        (m := .proceed w.calls.length (answers 0)) trivial
      have horderly' := (Reaches.start.step horderly
        (.proceed w.calls.length (answers 0))).orderly horderly
      obtain ⟨s', hcalls', hending'⟩ := hstep
      have hbefore : s'.Before s := by
        have hnext : (v.step (.proceed w.calls.length (answers 0))).calls =
            w.calls ++ [⟨q, (v.stretch w.calls.length ⟨q, s⟩ (answers 0)).2⟩] := by
          simp [World.step, proceed, hcalls]
        rw [hnext] at hcalls'
        have hs' : (v.stretch w.calls.length ⟨q, s⟩ (answers 0)).2 = s' := by
          simpa using hcalls'
        rw [← hs']
        exact v.stretch_before w.calls.length ⟨q, s⟩ (answers 0) (.inl hop)
      obtain ⟨k, reply, hended⟩ :=
        ih s' hbefore horderly' (fun j ↦ answers (j + 1)) hcalls' hending'
      refine ⟨k + 1, reply, ?_⟩
      rw [List.range_succ_eq_map, List.map_cons, List.map_map]
      exact hended

/-- Without the unit, a coordinator that has stopped stays so. -/
theorem Reaches.stopped_of_rest (h : Reaches (created id checked timer) w t)
    (hgone : w.coordinator.hasUnit = false) (hstopped : w.coordinator.phase = .stopped)
    (hrest : Reaches w v new) : v.coordinator.phase = .stopped := by
  have hcreated := orderly_created (α := α) (β := β) id checked timer
  have hlast {p : Phase} (hle : .stopped ≤ p) : p = .stopped := by
    revert hle
    cases p <;> decide
  induction hrest with
  | start => exact hstopped
  | @advance v v' u new hbefore hadvance ih =>
    cases hadvance with
    | declines | retimes => exact ih
    | joins q d s hjoins =>
      have hle := hjoins.phase_le
      rw [ih] at hle
      exact hlast hle
    | turns i call answer out hcall hlock hturn =>
      rcases hturn.course.phase_le with hle | ⟨hopening, -, -⟩
      · rw [ih] at hle
        exact hlast hle
      · have hfits := (h.trans hbefore).conducts.fits
        rw [acting_of_holder hlock hcall, hopening] at hfits
        exact absurd ((h.hasUnit_of_rest hbefore hgone).symm.trans hfits) (by simp)

/-- A stop or a shutdown of an idle coordinator that has not stopped yet returns, whatever fails. On
its way everything is still held until the close is over, and all of it has been given up before the
unit is asked to close. In the end a stop has tried to close the open bundle, the registration has
been cancelled once and the unit closed once; nothing is left; the reply names the failure of the
close, or else every release that has failed; and from then on every stop and every shutdown is done
at once and changes nothing. -/
theorem everything_released (id : String) (checked : Checked) (timer : Timer)
    (past : List (Move α β)) (hq : q.Stops)
    (hidle : ((created id checked timer : World α β).run past).Idle)
    (hphase : ((created id checked timer : World α β).run past).coordinator.phase ≠ .stopped)
    (moves : List (Move α β)) (hmoves : ∀ m ∈ moves, m.Attends) :
    let w : World α β := (created id checked timer).run past
    let n := w.calls.length
    let v := (w.issue q).run moves
    let t := w.trace (.issue q :: moves)
    (∀ answers : Nat → Except Failure (List β), ∃ (k : Nat) (reply : Reply),
        (v.run ((List.range k).map fun j ↦ .proceed n (answers j))).stage? n =
          some (.ended reply)) ∧
      (w.coordinator.Holds v.coordinator ∧ .closeUnit ∉ asked t ∨
        w.coordinator.Freed v.coordinator ∧
          ∀ op, (v.stage? n).bind Stage.operation? = some op → op = .closeUnit) ∧
      ∀ reply, v.stage? n = some (.ended reply) →
        w.coordinator.Freed v.coordinator ∧ v.coordinator.slot.isOpen = false ∧
          (∃ ops, w.coordinator.Attempts q ops ∧
            asked t = ops ++ if w.coordinator.hasUnit then [.closeUnit] else []) ∧
          reply = .ofFailures (closeFailure? t)
            (w.coordinator.timer.relinquish w.coordinator.registration).1 (unitFailure? t) ∧
          ∀ (rest : List (Move α β)) (q' : Request α), q'.Stops →
            (v.run rest).issue q' = ⟨(v.run rest).coordinator,
              (v.run rest).calls ++ [⟨q', .ended .done⟩]⟩ := by
  intro w n v t
  have hcreated := orderly_created (α := α) (β := β) id checked timer
  have hw : Reaches (created id checked timer) w _ := reaches_run hcreated past
  have horderly := hw.orderly hcreated
  have hlock := horderly.lock_of_idle hidle
  have hthere : w.coordinator.slot.isOpen = true → w.coordinator.hasUnit = true :=
    hw.hasUnit_of_open (by simp [acting, hlock, Stage.operation?])
  have hissued : w.Ends q (w.issue q) (w.events (.issue q)) :=
    ⟨_, rfl, Coordinator.ending_begin hlock hphase hthere hq⟩
  have hnext := Reaches.start.step horderly (.issue q)
  have horderly' := hnext.orderly horderly
  have hrun : Reaches (w.issue q) v _ := reaches_run horderly' moves
  have hv := (hw.trans hnext).trans hrun
  have hends : w.Ends q v t := hissued.run hidle horderly' moves hmoves
  refine ⟨hends.returns hidle (hv.orderly hcreated), ?_, fun reply hended ↦ ?_⟩
  · obtain ⟨s, hcalls, hending⟩ := hends
    have hstage : v.stage? n = some s := by simp [stage?, hcalls, n]
    rw [hstage]
    cases hending with
    | closing _ _ _ hshutting hasked => exact .inl ⟨hshutting.holds, hasked.closeUnit_not_mem⟩
    | releasing _ _ hfreed => exact .inr ⟨hfreed, fun op hop ↦ (Option.some.inj hop).symm⟩
    | ended _ _ hfreed => exact .inr ⟨hfreed, fun op hop ↦ by cases hop⟩
  · obtain ⟨s, hcalls, hending⟩ := hends
    have hstage : v.stage? n = some s := by simp [stage?, hcalls, n]
    rw [hstage, Option.some.injEq] at hended
    subst hended
    cases hending with
    | closing _ hs => cases hs
    | ended _ ops hfreed hshut hops hasked hreply =>
      refine ⟨hfreed, hshut, ⟨ops, hops, hasked⟩, hreply, fun rest q' hq' ↦ ?_⟩
      have hstopped := hv.stopped_of_rest hfreed.hasUnit hfreed.phase
        (reaches_run (hv.orderly hcreated) rest)
      unfold World.issue
      rw [Coordinator.begin_of_stopped hstopped hq']

/-- A coordinator whose timer refuses to cancel. -/
def stubborn : World Nat Nat :=
  created "stubborn" (Limits.check {}) { kind := .manual true, now := 0 }

/-- A bundle is open. -/
def openBundle : List (Move Nat Nat) :=
  [.issue .start, .proceed 0 (.ok []), .issue (.submit 1), .proceed 1 (.ok []), .proceed 1 (.ok [])]

/-- Everything fails, and nothing is left. -/
theorem everything_released_stubborn :
    (stubborn.run openBundle).Idle ∧ (stubborn.run openBundle).coordinator.phase ≠ .stopped ∧
      let v := ((stubborn.run openBundle).issue .stop).run
        [.proceed 2 (.error (.unit "finish_bundle" "injected")),
          .proceed 2 (.error (.unit "close" "injected"))]
      v.stage? 2 = some (.ended (.failed (.unit "finish_bundle" "injected"))) ∧
        (stubborn.run openBundle).coordinator.Freed v.coordinator ∧
        (v.issue .shutdown).stage? 3 = some (.ended .done) := by
  have hidle : (stubborn.run openBundle).Idle := by decide
  have hphase : (stubborn.run openBundle).coordinator.phase ≠ .stopped := by decide
  refine ⟨hidle, hphase, ?_⟩
  intro v
  have hended : v.stage? 2 = some (.ended (.failed (.unit "finish_bundle" "injected"))) := by decide
  obtain ⟨-, -, hreleased⟩ := everything_released "stubborn" (Limits.check {})
    { kind := .manual true, now := 0 } openBundle (.inl rfl) hidle hphase
    [.proceed 2 (.error (.unit "finish_bundle" "injected")),
      .proceed 2 (.error (.unit "close" "injected"))] (by simp [Move.Attends])
  obtain ⟨hfreed, -, -, -, hlater⟩ := hreleased _ hended
  refine ⟨hended, hfreed, ?_⟩
  rw [show v.issue .shutdown = _ from hlater [] .shutdown (.inr rfl)]
  rfl

end World

end Bundling
