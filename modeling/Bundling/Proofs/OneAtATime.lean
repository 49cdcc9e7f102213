import Bundling.Proofs.Bystanders
import Bundling.Proofs.Recording

/-!
Calls made one after the other. A call that is attended to is made and then goes on, with nobody
else about, until it ends. What it does is its stretches one by one, each with the recorder's answer
to what it waits for, so that a call which others interleave with can be followed stretch by stretch
by one that is attended to.
-/

set_option autoImplicit false
set_option relaxedAutoImplicit false

namespace Bundling

namespace Request

variable {α : Type}

/-- A request that neither starts nor stops the coordinator. -/
def Ingests : Request α → Prop
  | start | stop | shutdown => False
  | _ => True

/-- A request that may find nothing to do before it asks for the lock. -/
def looksFirst : Request α → Bool
  | checkAge | tick => true
  | _ => false

end Request

namespace Recorder

variable {α : Type}

/-- A recorder that does whatever it is asked to, and at once. -/
structure Willing (r : Recorder α) : Prop where
  failing : r.failing = []
  channel : r.channel = none

theorem Willing.perform {r : Recorder α} (h : r.Willing) (op : Operation α α) :
    r.perform op = some (.ok (r.carryOut op).1, (r.carryOut op).2) := by
  have hrefusal : r.refusal? op.target = none := by simp [refusal?, h.failing]
  unfold Recorder.perform record
  rw [h.channel, hrefusal]

theorem Willing.carryOut {r : Recorder α} (h : r.Willing) (op : Operation α α) :
    (r.carryOut op).2.Willing := by
  cases op <;> exact ⟨h.failing, h.channel⟩

end Recorder

namespace Coordinator

variable {α β : Type} {c : Coordinator} {q : Request α}

theorem begin_eq_ask (i : Nat) (hstop : q ≠ .stop) (hshutdown : q ≠ .shutdown)
    (hearly : c.early q = none) : (c.begin i q : Coordinator × Stage α β) = c.ask i q := by
  unfold begin
  rw [hearly]
  cases q <;> first | rfl | exact absurd rfl hstop | exact absurd rfl hshutdown

/-- A call that asks for a lock which is free goes on at once. -/
theorem begin_of_free (i : Nat) (hstop : q ≠ .stop) (hshutdown : q ≠ .shutdown)
    (hearly : c.early q = none) (hlock : c.lock.holder = none) :
    (c.begin i q : Coordinator × Stage α β) = (c.inLine i).enter i q := by
  rw [begin_eq_ask i hstop hshutdown hearly]
  unfold ask inLine Lock.ask
  rw [hlock]
  rfl

/-- A call that asks for a lock which another call holds stands in line. -/
theorem begin_of_held (i : Nat) (hstop : q ≠ .stop) (hshutdown : q ≠ .shutdown)
    (hearly : c.early q = none) (hlock : c.lock.holder ≠ none) :
    (c.begin i q : Coordinator × Stage α β) = (c.inLine i, .queued) := by
  rw [begin_eq_ask i hstop hshutdown hearly]
  exact ((ask_cases c i q).resolve_right fun h ↦ hlock h.1).2

theorem begin_of_early {r : Reply} (i : Nat) (hearly : c.early q = some r) :
    (c.begin i q : Coordinator × Stage α β) = (c, .ended r) := by
  unfold begin
  rw [hearly]

/-- Whether an age check finds nothing to do. -/
def restful (c : Coordinator) : Bool := c.phase ≠ .running || !c.slot.isOpen || !c.isExpired

theorem early_of_looksFirst (c : Coordinator) (hq : q.looksFirst = true) :
    c.early q = if c.restful then some (q.verdict false) else none := by
  cases q <;> first | rfl | cases hq

theorem afterClose_of_looksFirst (c : Coordinator) (i : Nat) (hq : q.looksFirst = true) :
    (c.afterClose i q (.ok false) : Coordinator × Stage α β) = c.leave (q.verdict false) := by
  cases q <;> first | rfl | cases hq

/-- An age check that would end before it asks for the lock ends in the same way once it has it. -/
theorem enter_of_restful (c : Coordinator) (i : Nat) (hq : q.looksFirst = true)
    (hrest : c.restful = true) :
    (c.enter i q : Coordinator × Stage α β) = c.leave (q.verdict false) := by
  have henter : (c.enter i q : Coordinator × Stage α β) =
      if c.phase = .running ∧ c.isExpired = true then c.beginClose i q .bundleAge
      else c.afterClose i q (.ok false) := by
    cases q <;> first | rfl | cases hq
  rw [henter]
  split
  case isFalse => exact afterClose_of_looksFirst c i hq
  case isTrue h =>
    -- the age limit has passed, so it is the bundle that is missing
    have hopen : c.slot.isOpen = false := by simpa [restful, h.1, h.2] using hrest
    unfold beginClose
    rw [hopen, Bool.and_false, if_neg Bool.false_ne_true]
    exact afterClose_of_looksFirst c i hq

end Coordinator

namespace World

variable {α β : Type}

/-- A call that has an answer to go on with. -/
theorem proceed_of_operation {w : World α β} {i : Nat} {call : Call α β}
    (answer : Except Failure (List β)) (hcall : w.calls[i]? = some call)
    (hop : call.stage.operation?.isSome = true) :
    w.proceed i answer =
      ⟨(w.coordinator.resume i call.request call.stage answer).1,
        w.calls.set i
          { call with stage := (w.coordinator.resume i call.request call.stage answer).2 }⟩ := by
  have hstretch : w.stretch i call answer =
      w.coordinator.resume i call.request call.stage answer := by
    unfold stretch
    split
    case h_1 hs => rw [hs] at hop; cases hop
    case h_2 r hs => rw [hs] at hop; cases hop
    case h_3 => rfl
  unfold World.proceed
  rw [hcall]
  dsimp only
  rw [hstretch]

/-- A call that has just been granted the lock. -/
theorem proceed_of_queued {w : World α β} {i : Nat} {call : Call α β}
    (answer : Except Failure (List β)) (hcall : w.calls[i]? = some call)
    (hqueued : call.stage = .queued) (hlock : w.coordinator.lock.holder = some i) :
    w.proceed i answer =
      ⟨(w.coordinator.enter i call.request : Coordinator × Stage α β).1,
        w.calls.set i { call with stage := (w.coordinator.enter i call.request).2 }⟩ := by
  have hstretch : w.stretch i call answer = w.coordinator.enter i call.request := by
    unfold stretch
    rw [hqueued]
    simp [holdsLock, hlock]
  unfold World.proceed
  rw [hcall]
  dsimp only
  rw [hstretch]

end World

namespace Rig

variable {α : Type}

/-- Lets a call go on for as long as it can. -/
def settle (r : Rig α) (i : Nat) : Rig α :=
  match _h : r.proceed? i none with
  | none => r
  | some r' => r'.settle i
termination_by r.distance i
decreasing_by exact distance_proceed? _h

/-- Makes a call and lets it go on to its end. -/
def attend (r : Rig α) (q : Request α) : Rig α := (r.issue q).settle r.world.calls.length

/-- Attends to one call after the other. -/
def inTurn (r : Rig α) (requests : List (Request α)) : Rig α := requests.foldl attend r

theorem inTurn_append (r : Rig α) (requests rest : List (Request α)) :
    r.inTurn (requests ++ rest) = (r.inTurn requests).inTurn rest :=
  List.foldl_append

theorem settle_of_none {r : Rig α} {i : Nat} (h : r.proceed? i none = none) : r.settle i = r := by
  rw [settle]
  split
  case h_1 => rfl
  case h_2 r' hsome => rw [h] at hsome; cases hsome

theorem settle_of_some {r r' : Rig α} {i : Nat} (h : r.proceed? i none = some r') :
    r.settle i = r'.settle i := by
  rw [settle]
  split
  case h_1 hnone => rw [h] at hnone; cases hnone
  case h_2 next hnext => rw [h] at hnext; cases hnext; rfl

/-- A rig in which one more call than these is under way and has come to a stage, with nobody
behind it. -/
def midway (calls : List (Call α α)) (q : Request α) (out : Coordinator × Stage α α)
    (recorder : Recorder α) : Rig α :=
  ⟨⟨(Coordinator.relocked ⟨some calls.length, []⟩ out).1, calls ++ [⟨q, out.2⟩]⟩, recorder⟩

theorem stage?_midway (calls : List (Call α α)) (q : Request α) (out : Coordinator × Stage α α)
    (recorder : Recorder α) :
    (midway calls q out recorder).world.stage? calls.length = some out.2 := by
  simp [midway, World.stage?]

/-- The call under way goes on with the recorder's answer. -/
theorem settle_midway {calls : List (Call α α)} {q : Request α} {c : Coordinator} {s : Stage α α}
    {recorder : Recorder α} {op : Operation α α} (i : Nat) (hq : q ≠ .stop)
    (hrecorder : recorder.Willing) (hop : s.operation? = some op) :
    (midway calls q (c, s) recorder).settle calls.length =
      (midway calls q (c.resume i q s (.ok (recorder.carryOut op).1))
        (recorder.carryOut op).2).settle calls.length := by
  have hsome : s.operation?.isSome = true := by rw [hop]; rfl
  refine settle_of_some ?_
  have hanswer : (midway calls q (c, s) recorder).answer op none =
      some (.ok (recorder.carryOut op).1, (recorder.carryOut op).2) := hrecorder.perform op
  have hcall : (midway calls q (c, s) recorder).world.calls[calls.length]? = some ⟨q, s⟩ := by
    simp [midway]
  have hworld := World.proceed_of_operation (.ok (recorder.carryOut op).1) hcall hsome
  have hresume : (midway calls q (c, s) recorder).world.coordinator.resume calls.length q s
      (.ok (recorder.carryOut op).1) = Coordinator.relocked ⟨some calls.length, []⟩
        (c.resume i q s (.ok (recorder.carryOut op).1)) := by
    change (c.relock ((⟨some calls.length, []⟩ : Lock).after s)).resume calls.length q s _ = _
    rw [Lock.after_of_operation _ hsome]
    exact Coordinator.resume_relock c i calls.length _ hq hsome _
  unfold proceed?
  simp only [stage?_midway, hop, hanswer, Option.map_some]
  rw [hworld, hresume]
  simp [midway, Coordinator.relocked]

theorem settle_midway_ended (calls : List (Call α α)) (q : Request α) (c : Coordinator) (r : Reply)
    (recorder : Recorder α) :
    (midway calls q (c, .ended r) recorder).settle calls.length =
      ⟨⟨c.relock {}, calls ++ [⟨q, .ended r⟩]⟩, recorder⟩ := by
  refine settle_of_none ?_
  unfold proceed?
  simp [stage?_midway, Stage.operation?, Stage.awaitsLock]

/-- A call that is declined changes nothing else. -/
theorem attend_of_early {r : Rig α} {q : Request α} {reply : Reply}
    (hearly : r.world.coordinator.early q = some reply) :
    r.attend q =
      ⟨⟨r.world.coordinator, r.world.calls ++ [⟨q, .ended reply⟩]⟩, r.recorder⟩ := by
  have hissue : r.issue q =
      ⟨⟨r.world.coordinator, r.world.calls ++ [⟨q, .ended reply⟩]⟩, r.recorder⟩ := by
    unfold Rig.issue World.issue
    rw [Coordinator.begin_of_early _ hearly]
  unfold attend
  rw [hissue]
  refine settle_of_none ?_
  simp [proceed?, World.stage?, Stage.operation?, Stage.awaitsLock]

/-- Attending to this request comes by this coordinator and stage of the call, and by this
recorder. -/
def ComesBy (r : Rig α) (q : Request α) (out : Coordinator × Stage α α) (recorder : Recorder α) :
    Prop :=
  r.attend q = (midway r.world.calls q out recorder).settle r.world.calls.length

/-- A call that is attended to starts as any call does that has just been granted the lock. -/
theorem comesBy_enter {r : Rig α} {q : Request α} {c : Coordinator} (i : Nat)
    (hcoordinator : r.world.coordinator = c.relock {}) (hstop : q ≠ .stop)
    (hshutdown : q ≠ .shutdown) (hearly : q.looksFirst = true ∨ c.early q = none) :
    r.ComesBy q (c.enter i q) r.recorder := by
  have hsame : r.world.coordinator.early q = c.early q := by
    rw [hcoordinator]
    exact Coordinator.early_relock c {} q
  cases hnone : c.early q with
  | none =>
    have hline : r.world.coordinator.inLine r.world.calls.length =
        c.relock ⟨some r.world.calls.length, []⟩ := by
      rw [hcoordinator]
      rfl
    have hbegin := Coordinator.begin_of_free (β := α) r.world.calls.length hstop hshutdown
      (hsame.trans hnone) (by rw [hcoordinator]; rfl)
    rw [hline, Coordinator.enter_relock c i r.world.calls.length _ hstop] at hbegin
    have hissue : r.issue q = midway r.world.calls q (c.enter i q) r.recorder := by
      unfold Rig.issue World.issue
      rw [hbegin]
      rfl
    unfold ComesBy attend
    rw [hissue]
  | some reply =>
    have hfirst := hearly.resolve_right (by simp [hnone])
    have hrest : c.restful = true ∧ q.verdict false = reply := by
      rw [Coordinator.early_of_looksFirst c hfirst] at hnone
      simpa using hnone
    rw [Coordinator.enter_of_restful c i hfirst hrest.1, hrest.2]
    unfold ComesBy
    rw [attend_of_early (hsame.trans hnone), hcoordinator]
    exact (settle_midway_ended _ _ _ _ _).symm

theorem ComesBy.resume {r : Rig α} {q : Request α} {c : Coordinator} {s : Stage α α}
    {recorder : Recorder α} (h : r.ComesBy q (c, s) recorder) (i : Nat) (op : Operation α α)
    (hq : q ≠ .stop) (hrecorder : recorder.Willing) (hop : s.operation? = some op) :
    r.ComesBy q (c.resume i q s (.ok (recorder.carryOut op).1)) (recorder.carryOut op).2 :=
  h.trans (settle_midway i hq hrecorder hop)

theorem ComesBy.attend_eq {r : Rig α} {q : Request α} {c : Coordinator} {reply : Reply}
    {recorder : Recorder α} (h : r.ComesBy q (c, .ended reply) recorder) :
    r.attend q = ⟨⟨c.relock {}, r.world.calls ++ [⟨q, .ended reply⟩]⟩, recorder⟩ :=
  h.trans (settle_midway_ended _ _ _ _ _)

/-- Calls that are all declined change nothing else. -/
theorem inTurn_of_early {r : Rig α} (calls : List (Call α α))
    (hearly : ∀ call ∈ calls, ∃ reply, call.stage = .ended reply ∧
      r.world.coordinator.early call.request = some reply) :
    r.inTurn (calls.map (·.request)) =
      ⟨⟨r.world.coordinator, r.world.calls ++ calls⟩, r.recorder⟩ := by
  induction calls generalizing r with
  | nil =>
    rw [List.append_nil]
    rfl
  | cons call calls ih =>
    obtain ⟨reply, hstage, hreply⟩ := hearly call List.mem_cons_self
    have hcall : (⟨call.request, .ended reply⟩ : Call α α) = call := by
      rw [← hstage]
    have hfirst := attend_of_early hreply
    rw [hcall] at hfirst
    have hrest := ih (r := ⟨⟨r.world.coordinator, r.world.calls ++ [call]⟩, r.recorder⟩)
      fun other hother ↦ hearly other (List.mem_cons_of_mem call hother)
    change (r.attend call.request).inTurn (calls.map (·.request)) = _
    rw [hfirst, hrest, List.append_assoc]
    rfl

end Rig

end Bundling
