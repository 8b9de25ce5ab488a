/-
# OpenClaw.Infra.HeartbeatPacing -- wakes that go back wait for their retry, and none is repeated

A trace says of every wake whether it was handed to the handler, what came of it, when it went back and whether its
target was requested since.  `WakesPaced` looks at every hand-over: the wake is a fresh one, or it went back at least
1000 ms ago.

Two steps break this.  The `catch` of a batch puts back every wake of it, also those that the handler is done with.
And `schedule` drops the retry timer when another one is due sooner, which then takes what went back along.  In runs
without these two, under one registration, every hand-over is paced (`heartbeat_retries_paced`).

An event happens from `start` to `stop`; a timer never fires before it is due.
-/
import Mathlib.Logic.Function.Basic
import OpenClaw.Infra.HeartbeatDispatch

namespace OpenClaw.Infra.HeartbeatWake

open OpenClaw.Logic OpenClaw.Data

/-! ## Traces -/

/-- An agent and a session. -/
abbrev WakeTarget := Option String × Option String

def wakeTarget (wake : PendingWake) : WakeTarget := (wake.agentId, wake.sessionKey)

def requestTarget (opts : HeartbeatWakeRequest) : WakeTarget :=
  (normalizeWakeTarget opts.agentId, normalizeWakeTarget opts.sessionKey)

/-- What has become of a wake.  `newer` says that its target was requested after it was handed over; a `fresh` wake was
not handed over since its target was requested. -/
inductive WakeTrace where
  | fresh
  | handed (newer : Bool)
  | returned (newer : Bool)
  | again (since : Int)
  deriving DecidableEq

namespace WakeTrace

/-- Its target is requested. -/
def requested : WakeTrace → WakeTrace
  | handed _ => handed true
  | returned _ => returned true
  | trace => trace

/-- The handler returned something else than a busy skip for it. -/
def settled : WakeTrace → WakeTrace
  | handed newer => returned newer
  | trace => trace

/-- It goes back to the queue. -/
def wentBack (since : Int) : WakeTrace → WakeTrace
  | handed true | returned true => fresh
  | returned false => returned false
  | _ => again since

def hasNewer : WakeTrace → Bool
  | handed newer | returned newer => newer
  | _ => false

/-- **It may be handed over**: it is fresh, or its retry delay has passed. -/
def Ready (now : Int) (trace : WakeTrace) : Prop :=
  trace = fresh ∨ ∃ since, trace = again since ∧ since + defaultRetryMs ≤ now

theorem Ready.later {now now' : Int} {trace : WakeTrace} (h : trace.Ready now) (hle : now ≤ now') :
    trace.Ready now' := by
  rcases h with hfresh | ⟨since, hagain, hdue⟩
  · exact Or.inl hfresh
  · exact Or.inr ⟨since, hagain, by omega⟩

theorem Ready.requested {now : Int} {trace : WakeTrace} (h : trace.Ready now) : trace.requested = trace := by
  rcases h with rfl | ⟨since, rfl, -⟩
  · rfl
  · rfl

end WakeTrace

/-- One call of the handler, with the wake and its trace at that time. -/
structure HandOver where
  wake : PendingWake
  trace : WakeTrace
  time : Int

/-- The dispatcher with the traces of what is pending and of what the last batch took. -/
structure TracedWakes where
  wakes : HeartbeatWakes := {}
  now : Int
  pending : WakeTarget → WakeTrace := fun _ => .fresh
  inBatch : WakeTarget → WakeTrace := fun _ => .fresh
  handedOver : List HandOver := []

structure TimedEvent where
  event : WakeEvent
  start : Int
  stop : Int

/-- The timer that fires takes what is pending. -/
def takesBatch (s : HeartbeatWakes) : Bool := s.timer.isSome && s.handler.isSome && !s.running

def HeartbeatRunResult.isBusySkip : HeartbeatRunResult → Bool
  | skipped reason => isRetryableHeartbeatBusySkipReason reason
  | _ => false

namespace TracedWakes

def noteRequest (s : TracedWakes) (target : WakeTarget) : TracedWakes :=
  { s with
    pending := Function.update s.pending target .fresh
    inBatch := Function.update s.inBatch target (s.inBatch target).requested }

def noteTimer (s : TracedWakes) : TracedWakes :=
  if takesBatch s.wakes then { s with pending := fun _ => .fresh, inBatch := s.pending } else s

def noteCall (s : TracedWakes) (batch : WakeBatch) (time : Int) : TracedWakes :=
  match batch.called, batch.rest with
  | false, wake :: _ =>
    { s with
      inBatch := Function.update s.inBatch (wakeTarget wake) (.handed false)
      handedOver := s.handedOver ++ [⟨wake, s.inBatch (wakeTarget wake), time⟩] }
  | _, _ => s

def noteReturn (s : TracedWakes) (batch : WakeBatch) (res : HeartbeatRunResult) (since : Int) : TracedWakes :=
  match batch.called, batch.rest with
  | true, wake :: _ =>
    let trace := s.inBatch (wakeTarget wake)
    if res.isBusySkip then
      { s with pending := Function.update s.pending (wakeTarget wake) (trace.wentBack since) }
    else { s with inBatch := Function.update s.inBatch (wakeTarget wake) trace.settled }
  | _, _ => s

def noteThrow (s : TracedWakes) (batch : WakeBatch) (since : Int) : TracedWakes :=
  { s with
    pending := fun target =>
      if target ∈ batch.pendingBatch.map wakeTarget then (s.inBatch target).wentBack since else s.pending target }

/-- What an event means for the traces; a wake goes back when its retry is scheduled. -/
def noted (s : TracedWakes) (timed : TimedEvent) : TracedWakes :=
  match timed.event with
  | .request opts _ _ => s.noteRequest (requestTarget opts)
  | .timerFires _ => s.noteTimer
  | .callHandler id =>
    match s.wakes.batches.find id with
    | none => s
    | some batch => s.noteCall batch timed.start
  | .settles id res clock =>
    match s.wakes.batches.find id, res with
    | none, _ => s
    | some batch, some res => s.noteReturn batch res (clock 1)
    | some batch, none => s.noteThrow batch (clock batch.pendingBatch.length)
  | .setHandler .. | .dispose _ => s

end TracedWakes

def stepTraced (s : TracedWakes) (timed : TimedEvent) : TracedWakes :=
  { s.noted timed with wakes := stepWake s.wakes timed.event, now := timed.stop }

/-- **Every hand-over is paced**, and the hand-overs are the calls of the handler. -/
structure WakesPaced (s : TracedWakes) : Prop where
  logged : s.handedOver.map (fun handOver => wakeOpts handOver.wake) = s.wakes.calls.map (·.opts)
  paced : ∀ handOver ∈ s.handedOver, handOver.trace.Ready handOver.time

/-! ## What happens, and what does not -/

def WakeEvent.ReadsWithin (start stop : Int) : WakeEvent → Prop
  | request _ _ clock | timerFires clock | settles _ _ clock => ∀ i, start ≤ clock i ∧ clock i ≤ stop
  | setHandler _ now => start ≤ now ∧ now ≤ stop
  | dispose _ | callHandler _ => True

/-- A handler is registered only where there is none, and it stays. -/
def KeepsRegistration (s : HeartbeatWakes) : WakeEvent → Prop
  | .setHandler _ _ => s.handler = none
  | .dispose _ => False
  | _ => True

/-- Time goes on, timers are not early, and there is one registration. -/
structure Happens (s : TracedWakes) (timed : TimedEvent) : Prop where
  begins : s.now ≤ timed.start
  ends : timed.start ≤ timed.stop
  reads : timed.event.ReadsWithin timed.start timed.stop
  due : ∀ clock, timed.event = .timerFires clock → ∀ timer, s.wakes.timer = some timer → timer.dueAt ≤ timed.start
  registration : KeepsRegistration s.wakes timed.event

/-- No timer is armed that stands in the way of a retry now: a retry timer that is due sooner, or another timer that is
not due later. -/
def LeavesRetry (timer : Option WakeTimer) (now : Int) : Prop :=
  ∀ armed, timer = some armed →
    (armed.kind = .retry ∧ now + defaultRetryMs ≤ armed.dueAt) ∨ (armed.kind = .normal ∧ now + defaultRetryMs < armed.dueAt)

/-- **The condition.**  A wake that goes back finds no timer in the way, unless its target was requested since; and a
batch throws only when it has no wake that the handler is done with and whose target was not requested since. -/
def RetriesKept (s : TracedWakes) (timed : TimedEvent) : Prop :=
  match timed.event with
  | .settles id (some res) clock =>
    res.isBusySkip = true → ∀ batch, s.wakes.batches.find id = some batch → batch.called = true →
      ∀ wake ∈ batch.rest.head?, (s.inBatch (wakeTarget wake)).hasNewer = true ∨ LeavesRetry s.wakes.timer (clock 1)
  | .settles id none clock =>
    ∀ batch, s.wakes.batches.find id = some batch →
      (∀ wake ∈ batch.pendingBatch, s.inBatch (wakeTarget wake) ≠ .returned false) ∧
        ((∀ wake ∈ batch.pendingBatch, (s.inBatch (wakeTarget wake)).hasNewer = true) ∨
          LeavesRetry s.wakes.timer (clock batch.pendingBatch.length))
  | _ => True

/-! ## Timers -/

/-- It is fresh, or a retry timer waits for it. -/
def WaitsFor (timer : Option WakeTimer) (trace : WakeTrace) : Prop :=
  trace = .fresh ∨ ∃ since armed, trace = .again since ∧ timer = some armed ∧ armed.kind = .retry ∧
    since + defaultRetryMs ≤ armed.dueAt

theorem schedule_waits {s : HeartbeatWakes} {trace : WakeTrace} (h : WaitsFor s.timer trace)
    (coalesceMs : Option Int) (kind : WakeTimerKind) (now : Int) :
    WaitsFor (schedule s coalesceMs kind now).timer trace := by
  rcases h with hfresh | ⟨since, armed, hagain, htimer, hkind, hdue⟩
  · exact Or.inl hfresh
  · have hkept : schedule s coalesceMs kind now = s := by
      unfold schedule
      dsimp only
      rw [htimer]
      exact if_pos hkind
    rw [hkept]
    exact Or.inr ⟨since, armed, hagain, htimer, hkind, hdue⟩

/-- A retry that finds no timer in the way is waited for. -/
theorem schedule_retry {s : HeartbeatWakes} {now : Int} (h : LeavesRetry s.timer now) :
    WaitsFor (schedule s (some defaultRetryMs) .retry now).timer (.again now) := by
  have hdelay : resolveTimerTimeoutMs (some defaultRetryMs) defaultCoalesceMs 0 = defaultRetryMs := by decide
  refine Or.inr ⟨now, ?_⟩
  unfold schedule
  dsimp only
  rw [hdelay]
  cases htimer : s.timer with
  | none => exact ⟨_, rfl, rfl, rfl, Int.le_refl _⟩
  | some armed =>
    dsimp only
    rcases h armed htimer with ⟨hkind, hdue⟩ | ⟨hkind, hdue⟩
    · rw [if_pos hkind]
      exact ⟨armed, rfl, htimer, hkind, hdue⟩
    · have hother : ¬armed.kind = .retry := by
        rw [hkind]
        decide
      rw [if_neg hother, if_neg (Int.not_le.mpr hdue)]
      exact ⟨_, rfl, rfl, rfl, Int.le_refl _⟩

theorem finishBatch_waits (s : HeartbeatWakes) (delay now : Int) :
    ∃ timer, finishBatch s delay now = { s with running := false, timer } ∧
      ∀ trace, WaitsFor s.timer trace → WaitsFor timer trace := by
  obtain ⟨timer, hfinish, -⟩ := finishBatch_eq s delay now
  refine ⟨timer, hfinish, ?_⟩
  intro trace h
  have hkept : WaitsFor (finishBatch s delay now).timer trace := by
    unfold finishBatch
    dsimp only
    split
    · exact @schedule_waits { s with running := false } trace h _ _ _
    · exact h
  rwa [hfinish] at hkept

/-! ## Queues and batches -/

/-- A pending wake stands under the key of its target. -/
def KeyedByTarget (pendingWakes : Table String PendingWake) : Prop :=
  ∀ key wake, pendingWakes.find key = some wake → key = wakeKey wake

theorem queuePendingWakeReason_keyed {pendingWakes : Table String PendingWake} (h : KeyedByTarget pendingWakes)
    (params : HeartbeatWakeRequest) (requestedAt : Int) :
    KeyedByTarget (queuePendingWakeReason pendingWakes params requestedAt) := by
  have hupsert : ∀ {wake : PendingWake} {key : String}, key = wakeKey wake →
      KeyedByTarget (pendingWakes.upsert key wake) := by
    intro wake key hkey key' wake' hfind
    rw [Table.find_upsert] at hfind
    split at hfind
    case isTrue heq =>
      rw [heq, hkey, Option.some.inj hfind]
    case isFalse => exact h key' wake' hfind
  unfold queuePendingWakeReason
  dsimp only
  split
  · exact hupsert rfl
  · split
    · exact hupsert rfl
    · split
      · exact hupsert rfl
      · exact h

theorem requeueBatch_keyed (wakes : List PendingWake) {pendingWakes : Table String PendingWake}
    (h : KeyedByTarget pendingWakes) (clock : Nat → Int) : KeyedByTarget (requeueBatch pendingWakes wakes clock) := by
  induction wakes generalizing pendingWakes clock with
  | nil => exact h
  | cons wake wakes ih => exact ih (queuePendingWakeReason_keyed h _ _) _

/-- What a batch takes has one wake for every target. -/
theorem batch_distinct {pendingWakes : Table String PendingWake} (h : KeyedByTarget pendingWakes) :
    ((pendingWakes.rows.map (·.2)).map wakeTarget).Nodup := by
  have hkeys : (pendingWakes.rows.map (·.2)).map wakeKey = pendingWakes.keys := by
    rw [← Table.rows_keys, List.map_map]
    apply List.map_congr_left
    rintro ⟨key, wake⟩ hrow
    exact (h key wake (Table.mem_rows.mp hrow)).symm
  apply List.Nodup.of_map (fun target => getWakeTargetKey target.1 target.2)
  rw [List.map_map]
  exact hkeys ▸ pendingWakes.nodup

/-- Between two awaits of the batch that runs. -/
structure PacedBatch (s : TracedWakes) (batch : WakeBatch) : Prop where
  handler : s.wakes.handler ≠ none
  running : s.wakes.running = true
  distinct : (batch.rest.map wakeTarget).Nodup
  waiting : ∀ wake ∈ batch.waiting, (s.inBatch (wakeTarget wake)).Ready s.now
  underWay : batch.called = true → ∀ wake ∈ batch.rest.head?, ∃ newer, s.inBatch (wakeTarget wake) = .handed newer

/-- The wakes behind the first one are of other targets, and can go on. -/
theorem PacedBatch.tail_ready {s : TracedWakes} {batch : WakeBatch} (h : PacedBatch s batch) {wake : PendingWake}
    {rest : List PendingWake} (hrest : batch.rest = wake :: rest) {other : PendingWake}
    (hother : other ∈ batch.rest.tail) :
    wakeTarget other ≠ wakeTarget wake ∧ (s.inBatch (wakeTarget other)).Ready s.now := by
  have hwaiting : other ∈ batch.waiting := by
    unfold WakeBatch.waiting
    split
    · exact hother
    · exact List.mem_of_mem_tail hother
  refine ⟨fun heq => ?_, h.waiting other hwaiting⟩
  have hdistinct := h.distinct
  rw [hrest, List.map_cons, List.nodup_cons] at hdistinct
  rw [hrest, List.tail_cons] at hother
  exact hdistinct.1 (heq ▸ List.mem_map_of_mem hother)

/-- What every step keeps. -/
structure PacingSound (s : TracedWakes) : Prop where
  keyed : KeyedByTarget s.wakes.pendingWakes
  pending : ∀ target, WaitsFor s.wakes.timer (s.pending target)
  unregistered : s.wakes.handler = none → ∀ target, s.pending target = .fresh
  batches : ∀ id batch, s.wakes.batches.find id = some batch → PacedBatch s batch
  one : ∀ id id' batch batch', s.wakes.batches.find id = some batch → s.wakes.batches.find id' = some batch' → id = id'

/-- A batch goes on while its targets may be requested. -/
theorem PacedBatch.later {s s' : TracedWakes} {batch : WakeBatch} (h : PacedBatch s batch)
    (hhandler : s'.wakes.handler = s.wakes.handler) (hrunning : s'.wakes.running = s.wakes.running)
    (hnow : s.now ≤ s'.now)
    (htraces : ∀ target, s'.inBatch target = s.inBatch target ∨ s'.inBatch target = (s.inBatch target).requested) :
    PacedBatch s' batch where
  handler := hhandler ▸ h.handler
  running := hrunning.trans h.running
  distinct := h.distinct
  waiting := by
    intro wake hwake
    have hready := h.waiting wake hwake
    rcases htraces (wakeTarget wake) with hsame | hrequested
    · rw [hsame]
      exact hready.later hnow
    · rw [hrequested, hready.requested]
      exact hready.later hnow
  underWay := by
    intro hcalled wake hwake
    obtain ⟨newer, hhanded⟩ := h.underWay hcalled wake hwake
    rcases htraces (wakeTarget wake) with hsame | hrequested
    · exact ⟨newer, hsame.trans hhanded⟩
    · rw [hrequested, hhanded]
      exact ⟨true, rfl⟩

/-! ## Steps -/

theorem stepWake_of_some {s s' : HeartbeatWakes} {event : WakeEvent} (h : stepWake? s event = some s') :
    stepWake s event = s' := by
  rw [stepWake, skipDisabled, h]
  rfl

theorem stepWake_of_none {s : HeartbeatWakes} {event : WakeEvent} (h : stepWake? s event = none) :
    stepWake s event = s := by
  rw [stepWake, skipDisabled, h]
  rfl

/-- A state with the same wakes and traces, later. -/
theorem PacingSound.later {s : TracedWakes} (h : PacingSound s) {stop : Int} (hle : s.now ≤ stop) :
    PacingSound { s with now := stop } where
  keyed := h.keyed
  pending := h.pending
  unregistered := h.unregistered
  batches := fun id batch hfind => (h.batches id batch hfind).later rfl rfl hle fun _ => Or.inl rfl
  one := h.one

theorem request_sound {s : TracedWakes} (h : PacingSound s) (opts : HeartbeatWakeRequest) (coalesceMs : Option Int)
    (clock : Nat → Int) {stop : Int} (hle : s.now ≤ stop) :
    PacingSound { s.noteRequest (requestTarget opts) with
      wakes := requestHeartbeat s.wakes opts coalesceMs clock, now := stop } := by
  have hwaits : ∀ target, WaitsFor (requestHeartbeat s.wakes opts coalesceMs clock).timer
      ((s.noteRequest (requestTarget opts)).pending target) := by
    intro target
    apply schedule_waits
    by_cases htarget : target = requestTarget opts
    · rw [htarget]
      exact Or.inl (Function.update_self _ _ _)
    · show WaitsFor s.wakes.timer (Function.update s.pending (requestTarget opts) .fresh target)
      rw [Function.update_of_ne htarget]
      exact h.pending target
  obtain ⟨timer, htimer⟩ := schedule_eq
    { s.wakes with pendingWakes := queuePendingWakeReason s.wakes.pendingWakes opts (clock 0) }
    (some (coalesceMs.getD defaultCoalesceMs)) .normal (clock 1)
  have hrequest : requestHeartbeat s.wakes opts coalesceMs clock =
    { s.wakes with pendingWakes := queuePendingWakeReason s.wakes.pendingWakes opts (clock 0), timer := some timer } :=
      htimer
  rw [hrequest] at hwaits ⊢
  constructor
  case keyed => exact queuePendingWakeReason_keyed h.keyed _ _
  case pending => exact hwaits
  case unregistered =>
    intro hnone target
    show Function.update s.pending (requestTarget opts) .fresh target = .fresh
    rw [Function.update_apply]
    split
    · rfl
    · exact h.unregistered hnone target
  case batches =>
    intro id batch hfind
    refine (h.batches id batch hfind).later rfl rfl hle ?_
    intro target
    show Function.update s.inBatch (requestTarget opts) (s.inBatch (requestTarget opts)).requested target = _ ∨
      Function.update s.inBatch (requestTarget opts) (s.inBatch (requestTarget opts)).requested target = _
    by_cases htarget : target = requestTarget opts
    · rw [htarget, Function.update_self]
      exact Or.inr rfl
    · rw [Function.update_of_ne htarget]
      exact Or.inl rfl
  case one => exact h.one

theorem setHandler_sound {s : TracedWakes} (h : PacingSound s) (next : Option Nat) (now : Int) {stop : Int}
    (hnone : s.wakes.handler = none) :
    PacingSound { s with wakes := setHeartbeatWakeHandler s.wakes next now, now := stop } := by
  obtain ⟨hpending, hbatches, -, hhandler, -⟩ := registerHandler_spec s.wakes next
  obtain ⟨timer, hset, -⟩ := setHeartbeatWakeHandler_eq s.wakes next now
  have hempty : ∀ id batch, s.wakes.batches.find id ≠ some batch := by
    intro id batch hfind
    exact (h.batches id batch hfind).handler hnone
  rw [hset]
  constructor
  case keyed =>
    show KeyedByTarget (registerHandler s.wakes next).pendingWakes
    rw [hpending]
    exact h.keyed
  case pending =>
    intro target
    exact Or.inl (h.unregistered hnone target)
  case unregistered =>
    intro _ target
    exact h.unregistered hnone target
  case batches =>
    intro id batch hfind
    have hfind' : (registerHandler s.wakes next).batches.find id = some batch := hfind
    rw [hbatches] at hfind'
    exact absurd hfind' (hempty id batch)
  case one =>
    intro id id' batch batch' hfind
    have hfind' : (registerHandler s.wakes next).batches.find id = some batch := hfind
    rw [hbatches] at hfind'
    exact absurd hfind' (hempty id batch)

/-- A timer that fires while a batch runs is armed again, and later. -/
theorem rearmed_waits {timer : WakeTimer} {trace : WakeTrace} (h : WaitsFor (some timer) trace) {s : HeartbeatWakes}
    (hnone : s.timer = none) {now : Int} (hdue : timer.dueAt ≤ now) :
    WaitsFor (schedule s (some timer.delay) timer.kind now).timer trace := by
  rcases h with hfresh | ⟨since, armed, hagain, harmed, hkind, hafter⟩
  · exact Or.inl hfresh
  · obtain rfl := Option.some.inj harmed
    have hdelay : 0 ≤ resolveTimerTimeoutMs (some timer.delay) defaultCoalesceMs 0 := by
      unfold resolveTimerTimeoutMs maxTimerTimeoutMs
      omega
    unfold schedule
    dsimp only
    rw [hnone]
    refine Or.inr ⟨since, _, hagain, rfl, hkind, ?_⟩
    dsimp only
    omega

/-- No batch runs: the timer takes what is pending. -/
theorem timerFires_takes {s : TracedWakes} (h : PacingSound s) (clock : Nat → Int) {stop : Int} {timer : WakeTimer}
    (htimer : s.wakes.timer = some timer) {active : Nat} (hhandler : s.wakes.handler = some active)
    (hrunning : s.wakes.running = false) (htimerDue : timer.dueAt ≤ stop) :
    PacingSound { s.noteTimer with wakes := timerFires s.wakes clock, now := stop } := by
  have hempty : ∀ id batch, s.wakes.batches.find id ≠ some batch := by
    intro id batch hfind
    have hruns := (h.batches id batch hfind).running
    rw [hrunning] at hruns
    contradiction
  have htaken : s.noteTimer = { s with pending := fun _ => .fresh, inBatch := s.pending } := by
    rw [TracedWakes.noteTimer, takesBatch, htimer, hhandler, hrunning]
    rfl
  have hready : ∀ target, (s.pending target).Ready stop := by
    intro target
    rcases h.pending target with hfresh | ⟨since, armed, hagain, harmed, -, hafter⟩
    · exact Or.inl hfresh
    · have hsame := Option.some.inj (htimer.symm.trans harmed)
      refine Or.inr ⟨since, hagain, ?_⟩
      rw [← hsame] at hafter
      omega
  rw [htaken]
  unfold timerFires
  rw [htimer]
  dsimp only
  rw [hhandler]
  dsimp only
  rw [hrunning, if_neg Bool.false_ne_true]
  split
  case isTrue hnothing =>
    obtain ⟨finished, hfinish, -⟩ := finishBatch_waits
      { s.wakes with
        handler := some active, timer := none, scheduled := false, pendingWakes := .empty, running := true }
      timer.delay (clock 0)
    rw [hfinish]
    exact ⟨fun _ _ hfind => by contradiction, fun _ => Or.inl rfl, fun _ _ => rfl,
      fun id batch hfind => absurd hfind (hempty id batch),
      fun id _ batch _ hfind => absurd hfind (hempty id batch)⟩
  case isFalse =>
    have honly : ∀ id batch, (s.wakes.batches.upsert s.wakes.nextBatch
        { registration := s.wakes.registered, active, delay := timer.delay,
          pendingBatch := s.wakes.pendingWakes.rows.map (·.2),
          rest := s.wakes.pendingWakes.rows.map (·.2), called := false }).find id = some batch →
        id = s.wakes.nextBatch ∧ batch.rest = s.wakes.pendingWakes.rows.map (·.2) ∧ batch.called = false := by
      intro id batch hfind
      rw [Table.find_upsert] at hfind
      split at hfind
      case isTrue hid =>
        obtain rfl := Option.some.inj hfind
        exact ⟨hid, rfl, rfl⟩
      case isFalse => exact absurd hfind (hempty id batch)
    constructor
    case keyed =>
      intro _ _ hfind
      contradiction
    case pending => exact fun _ => Or.inl rfl
    case unregistered => exact fun _ _ => rfl
    case batches =>
      intro id batch hfind
      obtain ⟨-, hrest, hcalled⟩ := honly id batch hfind
      refine ⟨?_, rfl, ?_, ?_, ?_⟩
      · exact Option.some_ne_none active
      · rw [hrest]
        exact batch_distinct h.keyed
      · intro wake _
        exact hready (wakeTarget wake)
      · rw [hcalled]
        intro hcontra
        contradiction
    case one =>
      intro id id' batch batch' hfind hfind'
      rw [(honly id batch hfind).1, (honly id' batch' hfind').1]

theorem timerFires_sound_traced {s : TracedWakes} (h : PacingSound s) (clock : Nat → Int) {start stop : Int}
    (hbegins : s.now ≤ start) (hends : start ≤ stop) (hreads : ∀ i, start ≤ clock i ∧ clock i ≤ stop)
    (hdue : ∀ timer, s.wakes.timer = some timer → timer.dueAt ≤ start) :
    PacingSound { s.noteTimer with wakes := timerFires s.wakes clock, now := stop } := by
  have hlater : s.now ≤ stop := by omega
  cases htimer : s.wakes.timer with
  | none =>
    have hsame : timerFires s.wakes clock = s.wakes := by
      unfold timerFires
      rw [htimer]
    have hquiet : s.noteTimer = s := by
      rw [TracedWakes.noteTimer, takesBatch, htimer]
      rfl
    rw [hsame, hquiet]
    exact h.later hlater
  | some timer =>
    have htimerDue := hdue timer htimer
    cases hhandler : s.wakes.handler with
    | none =>
      have hfired : timerFires s.wakes clock = { s.wakes with timer := none, scheduled := false } := by
        unfold timerFires
        rw [htimer]
        dsimp only
        rw [hhandler]
      have hquiet : s.noteTimer = s := by
        rw [TracedWakes.noteTimer, takesBatch, hhandler, Option.isSome_none, Bool.and_false]
        rfl
      rw [hfired, hquiet]
      exact ⟨h.keyed, fun target => Or.inl (h.unregistered hhandler target), h.unregistered,
        fun id batch hfind => absurd hhandler (h.batches id batch hfind).handler, h.one⟩
    | some active =>
      cases hrunning : s.wakes.running with
      | true =>
        have hquiet : s.noteTimer = s := by
          rw [TracedWakes.noteTimer, takesBatch, hrunning, Bool.not_true, Bool.and_false]
          rfl
        have hfired : timerFires s.wakes clock =
            schedule { s.wakes with timer := none, scheduled := true } (some timer.delay) timer.kind (clock 0) := by
          unfold timerFires
          rw [htimer]
          dsimp only
          rw [hhandler]
          dsimp only
          rw [hrunning]
          rfl
        have hwaits : ∀ target, WaitsFor (timerFires s.wakes clock).timer (s.pending target) := by
          intro target
          rw [hfired]
          have hread := (hreads 0).1
          exact rearmed_waits (htimer ▸ h.pending target) rfl (by omega)
        obtain ⟨rearmed, hrearmed⟩ := schedule_eq { s.wakes with timer := none, scheduled := true }
          (some timer.delay) timer.kind (clock 0)
        rw [hfired, hrearmed] at hwaits
        rw [hfired, hrearmed, hquiet]
        exact ⟨h.keyed, hwaits, h.unregistered,
          fun id batch hfind => (h.batches id batch hfind).later rfl rfl hlater fun _ => Or.inl rfl, h.one⟩
      | false =>
        exact timerFires_takes h clock htimer hhandler hrunning (Int.le_trans htimerDue hends)

/-- The wake that is under way is handed over, or nothing happens. -/
theorem call_cases (s : TracedWakes) (id : Nat) (batch : WakeBatch) (time : Int) :
    (∃ wake rest, batch.called = false ∧ batch.rest = wake :: rest ∧
      s.noteCall batch time =
        { s with
          inBatch := Function.update s.inBatch (wakeTarget wake) (.handed false)
          handedOver := s.handedOver ++ [⟨wake, s.inBatch (wakeTarget wake), time⟩] } ∧
      callHandler s.wakes id batch =
        { s.wakes with
          batches := s.wakes.batches.upsert id { batch with called := true }
          calls := s.wakes.calls ++ [{ handler := batch.active, opts := wakeOpts wake }] }) ∨
      (s.noteCall batch time = s ∧ callHandler s.wakes id batch = s.wakes) := by
  unfold TracedWakes.noteCall callHandler
  cases hcalled : batch.called with
  | true => exact Or.inr ⟨rfl, rfl⟩
  | false =>
    cases hrest : batch.rest with
    | nil => exact Or.inr ⟨rfl, rfl⟩
    | cons wake rest => exact Or.inl ⟨wake, rest, rfl, rfl, rfl, rfl⟩

theorem callHandler_sound_traced {s : TracedWakes} (h : PacingSound s) {id : Nat} {batch : WakeBatch}
    (hfind : s.wakes.batches.find id = some batch) {start stop : Int} (hlater : s.now ≤ stop) :
    PacingSound { s.noteCall batch start with wakes := callHandler s.wakes id batch, now := stop } := by
  rcases call_cases s id batch start with ⟨wake, rest, hcalled, hrest, hnote, hcall⟩ | ⟨hnote, hcall⟩
  · have hbatch := h.batches id batch hfind
    rw [hnote, hcall]
    constructor
    case keyed => exact h.keyed
    case pending => exact h.pending
    case unregistered => exact h.unregistered
    case batches =>
      intro id' batch' hfind'
      rw [Table.find_upsert] at hfind'
      split at hfind'
      case isTrue =>
        obtain rfl := Option.some.inj hfind'
        refine ⟨hbatch.handler, hbatch.running, hbatch.distinct, ?_, ?_⟩
        · intro other hother
          obtain ⟨hne, hready⟩ := hbatch.tail_ready hrest hother
          show (Function.update s.inBatch (wakeTarget wake) (.handed false) (wakeTarget other)).Ready stop
          rw [Function.update_of_ne hne]
          exact hready.later hlater
        · intro _ other hother
          rw [hrest] at hother
          obtain rfl := Option.some.inj hother
          exact ⟨false, Function.update_self _ _ _⟩
      case isFalse hid => exact absurd (h.one id' id batch' batch hfind' hfind) hid
    case one =>
      have hone : ∀ id' batch', (s.wakes.batches.upsert id { batch with called := true }).find id' = some batch' →
          id' = id := by
        intro id' batch' hfind'
        rw [Table.find_upsert] at hfind'
        split at hfind'
        case isTrue hid => exact hid
        case isFalse => exact h.one id' id batch' batch hfind' hfind
      intro id₁ id₂ batch₁ batch₂ hfind₁ hfind₂
      rw [hone id₁ batch₁ hfind₁, hone id₂ batch₂ hfind₂]
  · rw [hnote, hcall]
    exact h.later hlater

theorem nextWake_spec (s : HeartbeatWakes) (id : Nat) (batch : WakeBatch) (now : Int) :
    ∃ batches running timer, nextWake s id batch now = { s with batches, running, timer } ∧
      (∀ trace, WaitsFor s.timer trace → WaitsFor timer trace) ∧
      (batches = s.batches.deleteKey id ∨
        (running = s.running ∧ batches = s.batches.upsert id { batch with rest := batch.rest.tail, called := false })) := by
  unfold nextWake
  split
  · obtain ⟨timer, hfinish, hwaits⟩ := finishBatch_waits { s with batches := s.batches.deleteKey id } batch.delay now
    exact ⟨_, _, timer, hfinish, hwaits, Or.inl rfl⟩
  · exact ⟨_, s.running, s.timer, rfl, fun _ h => h, Or.inr ⟨rfl, rfl⟩⟩

/-- The batch goes on behind the wake that was under way, whatever became of that one. -/
theorem nextWake_sound_traced {s : TracedWakes} (h : PacingSound s) {id : Nat} {batch : WakeBatch}
    (hfind : s.wakes.batches.find id = some batch) {wake : PendingWake} {rest : List PendingWake}
    (hrest : batch.rest = wake :: rest) {pendingWakes : Table String PendingWake} (hkeyed : KeyedByTarget pendingWakes) {timer : Option WakeTimer}
    {pending inBatch : WakeTarget → WakeTrace} (hpending : ∀ target, WaitsFor timer (pending target))
    (hin : ∀ target, target ≠ wakeTarget wake → inBatch target = s.inBatch target) (now : Int) {stop : Int}
    (hlater : s.now ≤ stop) :
    PacingSound { s with
      wakes := nextWake { s.wakes with pendingWakes, timer } id batch now, pending, inBatch, now := stop } := by
  have hbatch := h.batches id batch hfind
  obtain ⟨batches, running, timer', hnext, hwaits, hbatches⟩ :=
    nextWake_spec { s.wakes with pendingWakes, timer } id batch now
  rw [hnext]
  have honly : ∀ id' batch', batches.find id' = some batch' →
      id' = id ∧ running = s.wakes.running ∧ batch' = { batch with rest := batch.rest.tail, called := false } := by
    intro id' batch' hfind'
    rcases hbatches with rfl | ⟨hrunning, rfl⟩
    · obtain ⟨hid, hold⟩ := find_of_deleteKey hfind'
      exact absurd (h.one id' id batch' batch hold hfind) hid
    · rw [Table.find_upsert] at hfind'
      split at hfind'
      case isTrue hid => exact ⟨hid, hrunning, (Option.some.inj hfind').symm⟩
      case isFalse hid => exact absurd (h.one id' id batch' batch hfind' hfind) hid
  constructor
  case keyed => exact hkeyed
  case pending => exact fun target => hwaits _ (hpending target)
  case unregistered =>
    intro hnone
    exact absurd hnone hbatch.handler
  case batches =>
    intro id' batch' hfind'
    obtain ⟨-, hrunning, rfl⟩ := honly id' batch' hfind'
    have hdistinct := hbatch.distinct
    rw [hrest, List.map_cons, List.nodup_cons] at hdistinct
    refine ⟨hbatch.handler, hrunning.trans hbatch.running, ?_, ?_, ?_⟩
    · rw [hrest]
      exact hdistinct.2
    · intro other hother
      obtain ⟨hne, hready⟩ := hbatch.tail_ready hrest hother
      show (inBatch (wakeTarget other)).Ready stop
      rw [hin _ hne]
      exact hready.later hlater
    · intro hcontra
      contradiction
  case one =>
    intro id₁ id₂ batch₁ batch₂ hfind₁ hfind₂
    rw [(honly id₁ batch₁ hfind₁).1, (honly id₂ batch₂ hfind₂).1]

theorem WakeTrace.wentBack_newer {trace : WakeTrace} {since : Int} (h : trace.hasNewer = true) :
    trace.wentBack since = .fresh := by
  cases trace with
  | handed newer =>
    obtain rfl : newer = true := h
    rfl
  | returned newer =>
    obtain rfl : newer = true := h
    rfl
  | fresh => contradiction
  | again earlier => contradiction

theorem WakeTrace.wentBack_cases {trace : WakeTrace} (h : trace ≠ .returned false) (since : Int) :
    trace.wentBack since = .fresh ∨ trace.wentBack since = .again since := by
  cases trace with
  | handed newer => cases newer <;> simp [wentBack]
  | returned newer => cases newer <;> simp_all [wentBack]
  | fresh => exact Or.inr rfl
  | again earlier => exact Or.inr rfl

/-- A wake that goes back is fresh, or its retry is waited for. -/
theorem wentBack_waits {s : HeartbeatWakes} {trace : WakeTrace} {now : Int} (hdone : trace ≠ .returned false)
    (h : trace.hasNewer = true ∨ LeavesRetry s.timer now) :
    WaitsFor (schedule s (some defaultRetryMs) .retry now).timer (trace.wentBack now) := by
  rcases h with hnewer | hleaves
  · exact Or.inl (WakeTrace.wentBack_newer hnewer)
  · rcases WakeTrace.wentBack_cases hdone now with hfresh | hagain
    · exact Or.inl hfresh
    · rw [hagain]
      exact schedule_retry hleaves

/-- Nothing happens, or the wake that was under way goes back or is done with. -/
theorem return_cases (s : TracedWakes) (id : Nat) (batch : WakeBatch) (res : HeartbeatRunResult) (clock : Nat → Int) :
    (s.noteReturn batch res (clock 1) = s ∧ handlerReturns s.wakes id batch res clock = s.wakes) ∨
      ∃ wake rest, batch.called = true ∧ batch.rest = wake :: rest ∧
        ((res.isBusySkip = true ∧
            s.noteReturn batch res (clock 1) =
              { s with
                pending := Function.update s.pending (wakeTarget wake)
                  ((s.inBatch (wakeTarget wake)).wentBack (clock 1)) } ∧
            handlerReturns s.wakes id batch res clock = nextWake (retryWake s.wakes wake clock) id batch (clock 2)) ∨
          (s.noteReturn batch res (clock 1) =
              { s with
                inBatch := Function.update s.inBatch (wakeTarget wake) (s.inBatch (wakeTarget wake)).settled } ∧
            handlerReturns s.wakes id batch res clock = nextWake s.wakes id batch (clock 0))) := by
  unfold TracedWakes.noteReturn handlerReturns
  cases hcalled : batch.called with
  | false => exact Or.inl ⟨rfl, rfl⟩
  | true =>
    cases hrest : batch.rest with
    | nil => exact Or.inl ⟨rfl, rfl⟩
    | cons wake rest =>
      refine Or.inr ⟨wake, rest, rfl, rfl, ?_⟩
      dsimp only
      cases res with
      | ran => exact Or.inr ⟨rfl, rfl⟩
      | failed reason => exact Or.inr ⟨rfl, rfl⟩
      | skipped reason =>
        dsimp only [HeartbeatRunResult.isBusySkip]
        by_cases hbusy : isRetryableHeartbeatBusySkipReason reason = true
        · exact Or.inl ⟨hbusy, if_pos hbusy, if_pos hbusy⟩
        · exact Or.inr ⟨if_neg hbusy, if_neg hbusy⟩

theorem handlerReturns_sound_traced {s : TracedWakes} (h : PacingSound s) {id : Nat} {batch : WakeBatch}
    (hfind : s.wakes.batches.find id = some batch) (res : HeartbeatRunResult) (clock : Nat → Int) {stop : Int}
    (hlater : s.now ≤ stop)
    (hkept : res.isBusySkip = true → batch.called = true → ∀ wake ∈ batch.rest.head?,
      (s.inBatch (wakeTarget wake)).hasNewer = true ∨ LeavesRetry s.wakes.timer (clock 1)) :
    PacingSound { s.noteReturn batch res (clock 1) with
      wakes := handlerReturns s.wakes id batch res clock, now := stop } := by
  rcases return_cases s id batch res clock with hquiet | ⟨wake, rest, hcalled, hrest, hreturn⟩
  · rw [hquiet.1, hquiet.2]
    exact h.later hlater
  · have hhead : wake ∈ batch.rest.head? := by
      rw [hrest]
      rfl
    have hdone := fun now => @nextWake_sound_traced s h id batch hfind wake rest hrest s.wakes.pendingWakes
      h.keyed s.wakes.timer s.pending
      (Function.update s.inBatch (wakeTarget wake) (s.inBatch (wakeTarget wake)).settled) h.pending
      (fun target htarget => Function.update_of_ne htarget _ _) now stop hlater
    rcases hreturn with ⟨hbusy, hnote, hreturns⟩ | ⟨hnote, hreturns⟩
    · have hbatch := h.batches id batch hfind
      obtain ⟨newer, hhanded⟩ := hbatch.underWay hcalled wake hhead
      have hnotDone : s.inBatch (wakeTarget wake) ≠ .returned false := by
        rw [hhanded]
        exact WakeTrace.noConfusion
      obtain ⟨timer, hretry⟩ := retryWake_eq s.wakes wake clock
      have hwaits : ∀ target, WaitsFor (retryWake s.wakes wake clock).timer
          (Function.update s.pending (wakeTarget wake) ((s.inBatch (wakeTarget wake)).wentBack (clock 1)) target) := by
        intro target
        by_cases htarget : target = wakeTarget wake
        · rw [htarget, Function.update_self]
          exact wentBack_waits hnotDone (hkept hbusy hcalled wake hhead)
        · rw [Function.update_of_ne htarget]
          exact @schedule_waits
            { s.wakes with pendingWakes := queuePendingWakeReason s.wakes.pendingWakes (wakeOpts wake) (clock 0) }
            _ (h.pending target) _ _ _
      have hkeyed : KeyedByTarget (queuePendingWakeReason s.wakes.pendingWakes (wakeOpts wake) (clock 0)) :=
        queuePendingWakeReason_keyed h.keyed _ _
      rw [hnote, hreturns]
      rw [hretry] at hwaits ⊢
      exact nextWake_sound_traced h hfind hrest hkeyed hwaits (fun _ _ => rfl) _ hlater
    · rw [hnote, hreturns]
      exact hdone (clock 0)

theorem batchThrows_sound_traced {s : TracedWakes} (h : PacingSound s) {id : Nat} {batch : WakeBatch}
    (hfind : s.wakes.batches.find id = some batch) (clock : Nat → Int) {stop : Int}
    (hdone : ∀ wake ∈ batch.pendingBatch, s.inBatch (wakeTarget wake) ≠ .returned false)
    (hkept : (∀ wake ∈ batch.pendingBatch, (s.inBatch (wakeTarget wake)).hasNewer = true) ∨
      LeavesRetry s.wakes.timer (clock batch.pendingBatch.length)) :
    PacingSound { s.noteThrow batch (clock batch.pendingBatch.length) with
      wakes := batchThrows s.wakes id batch clock, now := stop } := by
  have hwaits : ∀ target, WaitsFor (retryBatch s.wakes batch clock).timer
      ((s.noteThrow batch (clock batch.pendingBatch.length)).pending target) := by
    intro target
    show WaitsFor _ (if target ∈ batch.pendingBatch.map wakeTarget then _ else _)
    split
    case isTrue hmem =>
      obtain ⟨wake, hwake, rfl⟩ := List.mem_map.mp hmem
      refine wentBack_waits (hdone wake hwake) ?_
      rcases hkept with hnewer | hleaves
      · exact Or.inl (hnewer wake hwake)
      · exact Or.inr hleaves
    case isFalse =>
      exact @schedule_waits { s.wakes with pendingWakes := requeueBatch s.wakes.pendingWakes batch.pendingBatch clock }
        _ (h.pending target) _ _ _
  obtain ⟨timer, hretry⟩ := retryBatch_eq s.wakes batch clock
  obtain ⟨timer', hfinish, hstill⟩ := finishBatch_waits
    { retryBatch s.wakes batch clock with batches := (retryBatch s.wakes batch clock).batches.deleteKey id }
    batch.delay (clock (batch.pendingBatch.length + 1))
  have hthrown : batchThrows s.wakes id batch clock = _ := hfinish
  have hnone : ∀ id' batch', (s.wakes.batches.deleteKey id).find id' ≠ some batch' := by
    intro id' batch' hfind'
    obtain ⟨hid, hold⟩ := find_of_deleteKey hfind'
    exact hid (h.one id' id batch' batch hold hfind)
  rw [hthrown]
  rw [hretry] at hwaits hstill ⊢
  constructor
  case keyed => exact requeueBatch_keyed _ h.keyed _
  case pending => exact fun target => hstill _ (hwaits target)
  case unregistered =>
    intro hcontra
    exact absurd hcontra (h.batches id batch hfind).handler
  case batches =>
    intro id' batch' hfind'
    exact absurd hfind' (hnone id' batch')
  case one =>
    intro id' _ batch' _ hfind'
    exact absurd hfind' (hnone id' batch')

/-- **One step** under the condition keeps the invariant. -/
theorem stepTraced_sound {s : TracedWakes} {timed : TimedEvent} (hhappens : Happens s timed)
    (hkept : RetriesKept s timed) (h : PacingSound s) : PacingSound (stepTraced s timed) := by
  obtain ⟨event, start, stop⟩ := timed
  obtain ⟨hbegins, hends, hreads, hdue, hregistration⟩ := hhappens
  dsimp only at hbegins hends hreads hdue hregistration
  have hlater : s.now ≤ stop := by omega
  cases event with
  | request opts coalesceMs clock => exact request_sound h opts coalesceMs clock hlater
  | setHandler next now => exact setHandler_sound h next now hregistration
  | dispose disposer => contradiction
  | timerFires clock => exact timerFires_sound_traced h clock hbegins hends hreads (hdue clock rfl)
  | callHandler id =>
    unfold stepTraced TracedWakes.noted
    dsimp only
    cases hfind : s.wakes.batches.find id with
    | none =>
      rw [stepWake_of_none (by rw [stepWake?, hfind, Option.map_none])]
      exact h.later hlater
    | some batch =>
      rw [stepWake_of_some (by rw [stepWake?, hfind, Option.map_some])]
      exact callHandler_sound_traced h hfind hlater
  | settles id res clock =>
    unfold stepTraced TracedWakes.noted
    dsimp only
    cases hfind : s.wakes.batches.find id with
    | none =>
      rw [stepWake_of_none (by rw [stepWake?, hfind, Option.map_none])]
      exact h.later hlater
    | some batch =>
      rw [stepWake_of_some (by rw [stepWake?, hfind, Option.map_some])]
      cases res with
      | some res =>
        exact handlerReturns_sound_traced h hfind res clock hlater fun hbusy => hkept hbusy batch hfind
      | none =>
        obtain ⟨hdone, hretry⟩ := hkept batch hfind
        exact batchThrows_sound_traced h hfind clock hdone hretry

/-! ## Hand-overs -/

theorem schedule_calls (s : HeartbeatWakes) (coalesceMs : Option Int) (kind : WakeTimerKind) (now : Int) :
    (schedule s coalesceMs kind now).calls = s.calls := by
  obtain ⟨timer, htimer⟩ := schedule_eq s coalesceMs kind now
  rw [htimer]

theorem finishBatch_calls (s : HeartbeatWakes) (delay now : Int) : (finishBatch s delay now).calls = s.calls := by
  obtain ⟨timer, hfinish, -⟩ := finishBatch_eq s delay now
  rw [hfinish]

theorem timerFires_calls (s : HeartbeatWakes) (clock : Nat → Int) : (timerFires s clock).calls = s.calls := by
  unfold timerFires
  split
  · rfl
  · dsimp only
    split
    · rfl
    · split
      · exact schedule_calls _ _ _ _
      · split
        · exact finishBatch_calls _ _ _
        · rfl

theorem nextWake_calls (s : HeartbeatWakes) (id : Nat) (batch : WakeBatch) (now : Int) :
    (nextWake s id batch now).calls = s.calls := by
  obtain ⟨batches, running, timer, hnext, -⟩ := nextWake_spec s id batch now
  rw [hnext]

theorem handlerReturns_calls (s : HeartbeatWakes) (id : Nat) (batch : WakeBatch) (res : HeartbeatRunResult)
    (clock : Nat → Int) : (handlerReturns s id batch res clock).calls = s.calls := by
  rcases return_cases { wakes := s, now := 0 } id batch res clock with
    hquiet | ⟨wake, rest, -, -, ⟨-, -, hreturns⟩ | ⟨-, hreturns⟩⟩
  · exact congrArg HeartbeatWakes.calls hquiet.2
  · refine (congrArg HeartbeatWakes.calls hreturns).trans ((nextWake_calls _ _ _ _).trans ?_)
    exact schedule_calls _ _ _ _
  · exact (congrArg HeartbeatWakes.calls hreturns).trans (nextWake_calls _ _ _ _)

theorem batchThrows_calls (s : HeartbeatWakes) (id : Nat) (batch : WakeBatch) (clock : Nat → Int) :
    (batchThrows s id batch clock).calls = s.calls :=
  (finishBatch_calls _ _ _).trans (schedule_calls _ _ _ _)

/-- Everything but a call of the handler leaves the calls as they are. -/
theorem stepWake_calls {s : HeartbeatWakes} {event : WakeEvent} (h : ∀ id, event ≠ .callHandler id) :
    (stepWake s event).calls = s.calls := by
  refine skipDisabled_keeps (P := fun (s' : HeartbeatWakes) => s'.calls = s.calls) rfl ?_
  intro s' hstep
  cases event with
  | request opts coalesceMs clock =>
    obtain rfl := Option.some.inj hstep
    exact schedule_calls _ _ _ _
  | setHandler next now =>
    obtain rfl := Option.some.inj hstep
    obtain ⟨timer, hset, -⟩ := setHeartbeatWakeHandler_eq s next now
    exact (congrArg HeartbeatWakes.calls hset).trans (registerHandler_spec s next).2.2.2.2.1
  | dispose disposer =>
    obtain ⟨⟨generation, next⟩, -, rfl⟩ := Option.map_eq_some_iff.mp hstep
    show (dispose s generation next).calls = s.calls
    unfold dispose
    split
    · rfl
    · split
      · rfl
      · rfl
  | timerFires clock =>
    obtain rfl := Option.some.inj hstep
    exact timerFires_calls s clock
  | callHandler id => exact absurd rfl (h id)
  | settles id res clock =>
    obtain ⟨batch, -, rfl⟩ := Option.map_eq_some_iff.mp hstep
    cases res with
    | some res => exact handlerReturns_calls s id batch res clock
    | none => exact batchThrows_calls s id batch clock

theorem noteReturn_handedOver (s : TracedWakes) (batch : WakeBatch) (res : HeartbeatRunResult) (since : Int) :
    (s.noteReturn batch res since).handedOver = s.handedOver := by
  unfold TracedWakes.noteReturn
  split
  · dsimp only
    split
    · rfl
    · rfl
  · rfl

/-- What is noted of an event other than a call leaves the hand-overs as they are. -/
theorem noted_handedOver {s : TracedWakes} {timed : TimedEvent} (h : ∀ id, timed.event ≠ .callHandler id) :
    (s.noted timed).handedOver = s.handedOver := by
  unfold TracedWakes.noted
  split
  case h_1 => rfl
  case h_2 =>
    unfold TracedWakes.noteTimer
    split
    · rfl
    · rfl
  case h_3 id hcall => exact absurd hcall (h id)
  case h_4 =>
    split
    · rfl
    · exact noteReturn_handedOver _ _ _ _
    · rfl
  case h_5 => rfl
  case h_6 => rfl

/-- **One step** keeps every hand-over paced. -/
theorem stepTraced_paced {s : TracedWakes} {timed : TimedEvent} (hhappens : Happens s timed) (h : PacingSound s)
    (hpaced : WakesPaced s) : WakesPaced (stepTraced s timed) := by
  by_cases hcall : ∃ id, timed.event = .callHandler id
  · obtain ⟨id, hevent⟩ := hcall
    unfold stepTraced TracedWakes.noted
    rw [hevent]
    dsimp only
    cases hfind : s.wakes.batches.find id with
    | none =>
      rw [stepWake_of_none (by rw [stepWake?, hfind, Option.map_none])]
      exact ⟨hpaced.logged, hpaced.paced⟩
    | some batch =>
      rw [stepWake_of_some (by rw [stepWake?, hfind, Option.map_some])]
      dsimp only
      rcases call_cases s id batch timed.start with ⟨wake, rest, hcalled, hrest, hnote, hhanded⟩ | ⟨hnote, hhanded⟩
      · rw [hnote, hhanded]
        constructor
        case logged =>
          show (s.handedOver ++ [_]).map _ = (s.wakes.calls ++ [_]).map _
          rw [List.map_append, List.map_append, hpaced.logged]
          rfl
        case paced =>
          intro handOver hmem
          rcases List.mem_append.mp hmem with hold | hnew
          · exact hpaced.paced handOver hold
          · rw [List.mem_singleton.mp hnew]
            have hready := (h.batches id batch hfind).waiting wake (by
              rw [WakeBatch.waiting, hcalled, hrest]
              exact List.mem_cons_self)
            exact hready.later hhappens.begins
      · rw [hnote, hhanded]
        exact ⟨hpaced.logged, hpaced.paced⟩
  · have hother : ∀ id, timed.event ≠ .callHandler id := fun id hevent => hcall ⟨id, hevent⟩
    constructor
    case logged =>
      show (s.noted timed).handedOver.map _ = (stepWake s.wakes timed.event).calls.map _
      rw [noted_handedOver hother, stepWake_calls hother]
      exact hpaced.logged
    case paced =>
      show ∀ handOver ∈ (s.noted timed).handedOver, _
      rw [noted_handedOver hother]
      exact hpaced.paced

/-! ## Runs -/

/-- The guard of a step. -/
def PacedStep (s : TracedWakes) (timed : TimedEvent) : Prop := Happens s timed ∧ RetriesKept s timed

theorem fresh_pacing (now : Int) : PacingSound { now } where
  keyed := fun _ _ hfind => by contradiction
  pending := fun _ => Or.inl rfl
  unregistered := fun _ _ => rfl
  batches := fun _ _ hfind => by contradiction
  one := fun _ _ _ _ hfind => by contradiction

/-- **Heartbeat retries are paced and not repeated**: in every run of one registration in which every wake that goes
back finds no timer in its way, unless its target was requested since, and no batch throws behind a wake that the
handler is done with, every wake that is handed over is a fresh one or went back at least 1000 ms ago. -/
theorem heartbeat_retries_paced (now : Int) (script : List TimedEvent)
    (h : Guarded stepTraced PacedStep { now } script) : WakesPaced (run stepTraced { now } script) := by
  have hboth : PacingSound (run stepTraced { now } script) ∧ WakesPaced (run stepTraced { now } script) :=
    run_invariant_guarded (P := fun s => PacingSound s ∧ WakesPaced s)
      (fun _ _ hguard hs => ⟨stepTraced_sound hguard.1 hguard.2 hs.1, stepTraced_paced hguard.1 hs.1 hs.2⟩)
      script h ⟨fresh_pacing now, rfl, by intro handOver hmem; contradiction⟩
  exact hboth.2

/-! ### Runs on fixed inputs -/

/-- An event that takes no time. -/
def instant (event : WakeEvent) (time : Int) : TimedEvent := ⟨event, time, time⟩

/-- No timer fires that is armed for later. -/
def isDue (s : HeartbeatWakes) (time : Int) : WakeEvent → Bool
  | .timerFires _ => s.timer.all (·.dueAt ≤ time)
  | _ => true

theorem happens_instant {s : TracedWakes} {event : WakeEvent} {time : Int} (hreads : event.ReadsWithin time time)
    (hbegins : s.now ≤ time) (hdue : isDue s.wakes time event = true)
    (hregistration : KeepsRegistration s.wakes event) : Happens s (instant event time) where
  begins := hbegins
  ends := Int.le_refl _
  reads := hreads
  due := by
    rintro clock rfl timer htimer
    rw [isDue, htimer, Option.all_some, decide_eq_true_eq] at hdue
    exact hdue
  registration := hregistration

theorem reads_at {time : Int} : ∀ _ : Nat, time ≤ time ∧ time ≤ time := fun _ => ⟨Int.le_refl _, Int.le_refl _⟩

/-- A wake that finds its target busy, and is handed over again by the retry timer. -/
def retriedRun : List TimedEvent :=
  [instant (.setHandler (some 0) 0) 0, instant (.request plainWake none fun _ => 0) 0,
    instant (.timerFires fun _ => 250) 250, instant (.callHandler 0) 250,
    instant (.settles 0 (some (.skipped "lanes-busy")) fun _ => 300) 300,
    instant (.timerFires fun _ => 1300) 1300, instant (.callHandler 1) 1300]

theorem heartbeat_retries_paced_busy : WakesPaced (run stepTraced { now := 0 } retriedRun) := by
  refine heartbeat_retries_paced 0 retriedRun ⟨⟨?_, trivial⟩, ⟨?_, trivial⟩, ⟨?_, trivial⟩, ⟨?_, trivial⟩, ⟨?_, ?_⟩,
    ⟨?_, trivial⟩, ⟨?_, trivial⟩, trivial⟩
  · exact happens_instant ⟨Int.le_refl _, Int.le_refl _⟩ (by decide) rfl rfl
  · exact happens_instant reads_at (by decide) rfl trivial
  · exact happens_instant reads_at (by decide) rfl trivial
  · exact happens_instant trivial (by decide) rfl trivial
  · exact happens_instant reads_at (by decide) rfl trivial
  · -- the timer that fired is gone, so nothing stands in the way
    intro _ batch _ _ wake _
    refine Or.inr ?_
    intro armed harmed
    contradiction
  · exact happens_instant reads_at (by decide) rfl trivial
  · exact happens_instant trivial (by decide) rfl trivial

/-- A wake for another session. -/
def sessionWake : HeartbeatWakeRequest := { plainWake with sessionKey := some "s" }

/-- The first wake of a batch runs, and the handler throws for the second. -/
def throwingRun : List TimedEvent :=
  [instant (.setHandler (some 0) 0) 0, instant (.request plainWake none fun _ => 0) 0,
    instant (.request sessionWake none fun _ => 0) 0, instant (.timerFires fun _ => 250) 250,
    instant (.callHandler 0) 250, instant (.settles 0 (some .ran) fun _ => 300) 300, instant (.callHandler 0) 300,
    instant (.settles 0 none fun _ => 310) 310, instant (.timerFires fun _ => 1310) 1310,
    instant (.callHandler 1) 1310]

/-- While a wake finds its target busy, another target is requested. -/
def hurriedRun : List TimedEvent :=
  [instant (.setHandler (some 0) 0) 0, instant (.request plainWake none fun _ => 0) 0,
    instant (.timerFires fun _ => 250) 250, instant (.callHandler 0) 250,
    instant (.request sessionWake none fun _ => 260) 260,
    instant (.settles 0 (some (.skipped "lanes-busy")) fun _ => 300) 300,
    instant (.timerFires fun _ => 510) 510, instant (.callHandler 1) 510,
    instant (.settles 1 (some .ran) fun _ => 520) 520, instant (.callHandler 1) 520]

/-- **A wake that ran is handed over again**, and **one that goes back is handed over after 220 ms**. -/
theorem retries_repeat_and_hurry :
    (Guarded stepTraced Happens { now := 0 } throwingRun ∧ ¬WakesPaced (run stepTraced { now := 0 } throwingRun)) ∧
      Guarded stepTraced Happens { now := 0 } hurriedRun ∧ ¬WakesPaced (run stepTraced { now := 0 } hurriedRun) := by
  refine ⟨⟨⟨?_, ?_, ?_, ?_, ?_, ?_, ?_, ?_, ?_, ?_, trivial⟩, ?_⟩,
    ⟨?_, ?_, ?_, ?_, ?_, ?_, ?_, ?_, ?_, ?_, trivial⟩, ?_⟩
  all_goals first
    | exact happens_instant ⟨Int.le_refl _, Int.le_refl _⟩ (by decide) rfl rfl
    | exact happens_instant reads_at (by decide) rfl trivial
    | exact happens_instant trivial (by decide) rfl trivial
    | skip
  · intro hpaced
    have hlog : (run stepTraced { now := 0 } throwingRun).handedOver.getLast?.map (·.trace) =
        some (.returned false) := rfl
    obtain ⟨handOver, hlast, htrace⟩ := Option.map_eq_some_iff.mp hlog
    rcases hpaced.paced handOver (List.mem_of_getLast? hlast) with hfresh | ⟨since, hagain, -⟩
    · rw [htrace] at hfresh
      contradiction
    · rw [htrace] at hagain
      contradiction
  · intro hpaced
    have hlog : (run stepTraced { now := 0 } hurriedRun).handedOver.getLast?.map (fun h => (h.trace, h.time)) =
        some (.again 300, 520) := rfl
    obtain ⟨handOver, hlast, hentry⟩ := Option.map_eq_some_iff.mp hlog
    obtain ⟨htrace, htime⟩ := Prod.mk.inj hentry
    rcases hpaced.paced handOver (List.mem_of_getLast? hlast) with hfresh | ⟨since, hagain, hdue⟩
    · rw [htrace] at hfresh
      contradiction
    · rw [htrace] at hagain
      obtain rfl := WakeTrace.again.inj hagain
      rw [htime] at hdue
      exact absurd hdue (by decide)

end OpenClaw.Infra.HeartbeatWake
