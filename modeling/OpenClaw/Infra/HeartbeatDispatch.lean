/-
# OpenClaw.Infra.HeartbeatDispatch -- wakes are dispatched one batch at a time, and none is lost

Three invariants of the wake dispatcher.  `WakesKeyed`: a pending wake is normalized and stands under
the key of its target, so that only wakes for one agent and session merge.  `TimerArmed`: with a handler
registered, pending wakes have a timer.  `OneBatch`: of the handler registered last at most one batch
runs; it needs that no batch of an earlier handler ends while one of the last handler runs.
-/
import OpenClaw.Infra.HeartbeatWake

namespace OpenClaw.Infra.HeartbeatWake

open OpenClaw.Logic OpenClaw.Data

/-! ## Targets and their keys -/

/-- An agent id as the gateway makes them: without a colon. -/
def NoColon (agentId : Option String) : Prop := ∀ a, agentId = some a → ':' ∉ a.toList

theorem normalizeOptionalString_spec (value : Option String) : normalizeOptionalString value = none ∨
      ∃ s, normalizeOptionalString value = some s ∧ Trimmed s ∧ ∃ v, value = some v ∧ s = trim v := by
  cases value with
  | none => exact .inl rfl
  | some v =>
    simp only [normalizeOptionalString]
    split
    · exact .inl rfl
    · rename_i hne
      exact .inr ⟨_, rfl, ⟨trim_trim v, hne⟩, v, rfl, rfl⟩

theorem normalizeOptionalString_of_trimmed {s : String} (h : Trimmed s) :
    normalizeOptionalString (some s) = some s := by
  simp [normalizeOptionalString, h.1, h.2]

theorem normalizeWakeTarget_eq (value : Option String) : normalizeWakeTarget value = normalizeOptionalString value := by
  unfold normalizeWakeTarget
  rcases normalizeOptionalString_spec value with hnone | ⟨s, hsome, htrimmed, -⟩
  · rw [hnone]
    rfl
  · rw [hsome]
    simp [htrimmed.2]

/-- A target as `normalizeWakeTarget` leaves it. -/
def NormalTarget (value : Option String) : Prop := ∀ s, value = some s → Trimmed s

theorem normalizeWakeTarget_normal (value : Option String) : NormalTarget (normalizeWakeTarget value) := by
  intro s hs
  rw [normalizeWakeTarget_eq] at hs
  rcases normalizeOptionalString_spec value with hnone | ⟨s', hsome, htrimmed, -⟩
  · rw [hnone] at hs
    cases hs
  · rw [hsome] at hs
    cases hs
    exact htrimmed

@[simp] theorem normalizeWakeTarget_of_normal {value : Option String} (h : NormalTarget value) :
    normalizeWakeTarget value = value := by
  rw [normalizeWakeTarget_eq]
  cases value with
  | none => rfl
  | some s => exact normalizeOptionalString_of_trimmed (h s rfl)

theorem mem_trim {c : Char} {s : String} (h : c ∈ (trim s).toList) : c ∈ s.toList := by
  unfold trim stripBoth at h
  rw [String.toList_ofList] at h
  exact (List.dropWhile_suffix _).subset ((List.rdropWhile_prefix _ _).subset h)

theorem normalizeWakeTarget_noColon {value : Option String} (h : NoColon value) :
    NoColon (normalizeWakeTarget value) := by
  intro a ha hcolon
  rw [normalizeWakeTarget_eq] at ha
  rcases normalizeOptionalString_spec value with hnone | ⟨s, hsome, -, v, hv, hs⟩
  · rw [hnone] at ha
    cases ha
  · rw [hsome] at ha
    cases ha
    rw [hs] at hcolon
    exact h v hv (mem_trim hcolon)

/-- Two texts split at their first separator agree in both parts. -/
theorem split_first {α : Type} {sep : α} {a₁ a₂ s₁ s₂ : List α} (h₁ : sep ∉ a₁) (h₂ : sep ∉ a₂)
    (h : a₁ ++ sep :: s₁ = a₂ ++ sep :: s₂) : a₁ = a₂ ∧ s₁ = s₂ := by
  induction a₁ generalizing a₂ with
  | nil =>
    cases a₂ with
    | nil => exact ⟨rfl, (List.cons.inj h).2⟩
    | cons x rest => exact absurd (List.mem_cons.mpr (.inl (List.cons.inj h).1)) h₂
  | cons x rest ih =>
    cases a₂ with
    | nil => exact absurd (List.mem_cons.mpr (.inl (List.cons.inj h).1.symm)) h₁
    | cons y rest' =>
      obtain ⟨hxy, htail⟩ := List.cons.inj h
      obtain ⟨hrest, hs⟩ := ih (fun hm => h₁ (List.mem_cons_of_mem x hm))
        (fun hm => h₂ (List.mem_cons_of_mem y hm)) htail
      exact ⟨by rw [hxy, hrest], hs⟩

theorem getD_injective {x y : Option String} (hx : NormalTarget x) (hy : NormalTarget y)
    (h : x.getD "" = y.getD "") : x = y := by
  cases x with
  | none =>
    cases y with
    | none => rfl
    | some s => exact absurd h.symm (hy s rfl).2
  | some s =>
    cases y with
    | none => exact absurd h (hx s rfl).2
    | some s' => exact congrArg some h

/-- **A key names its target**, when agent ids contain no colon. -/
theorem getWakeTargetKey_injective {a₁ a₂ s₁ s₂ : Option String} (ha₁ : NormalTarget a₁)
    (ha₂ : NormalTarget a₂) (hs₁ : NormalTarget s₁) (hs₂ : NormalTarget s₂) (hc₁ : NoColon a₁)
    (hc₂ : NoColon a₂) (h : getWakeTargetKey a₁ s₁ = getWakeTargetKey a₂ s₂) : a₁ = a₂ ∧ s₁ = s₂ := by
  have hcolon : ∀ {a : Option String}, NoColon a → ':' ∉ (a.getD "").toList := by
    intro a hc
    cases a with
    | none => simp
    | some s => exact hc s rfl
  unfold getWakeTargetKey at h
  rw [normalizeWakeTarget_of_normal ha₁, normalizeWakeTarget_of_normal ha₂,
    normalizeWakeTarget_of_normal hs₁, normalizeWakeTarget_of_normal hs₂] at h
  have hlists := congrArg String.toList h
  simp only [String.toList_append, List.append_assoc] at hlists
  obtain ⟨ha, hs⟩ := split_first (hcolon hc₁) (hcolon hc₂) hlists
  exact ⟨getD_injective ha₁ ha₂ (String.toList_injective ha),
    getD_injective hs₁ hs₂ (String.toList_injective (List.cons.inj hs).2)⟩

/-! ## Wakes in the map -/

theorem normalizeWakeReason_idem (reason : Option String) :
    normalizeWakeReason (some (normalizeWakeReason reason)) = normalizeWakeReason reason := by
  have hkeeps : ∀ {s : String}, Trimmed s → normalizeWakeReason (some s) = s := by
    intro s hs
    unfold normalizeWakeReason
    rw [normalizeOptionalString_of_trimmed hs]
    rfl
  unfold normalizeWakeReason
  rcases normalizeOptionalString_spec reason with hnone | ⟨s, hsome, htrimmed, -⟩
  · rw [hnone]
    exact @hkeeps "requested" (by decide)
  · rw [hsome]
    exact hkeeps htrimmed

/-- A wake as `queuePendingWakeReason` makes it. -/
structure WakeOk (wake : PendingWake) : Prop where
  agent : NormalTarget wake.agentId
  session : NormalTarget wake.sessionKey
  noColon : NoColon wake.agentId
  reason : normalizeWakeReason (some wake.reason) = wake.reason
  priority : wake.priority = resolveWakePriority wake.source wake.intent wake.reason

theorem pendingWake_ok {params : HeartbeatWakeRequest} (h : NoColon params.agentId)
    (requestedAt : Int) : WakeOk (pendingWake params requestedAt) where
  agent := normalizeWakeTarget_normal _
  session := normalizeWakeTarget_normal _
  noColon := normalizeWakeTarget_noColon h
  reason := normalizeWakeReason_idem _
  priority := rfl

variable {s : HeartbeatWakes} {pendingWakes : Table String PendingWake} {batch : WakeBatch} {wake : PendingWake}
    {id : Nat}

/-- A wake that goes back is the wake it was, requested now. -/
theorem pendingWake_wakeOpts (h : WakeOk wake) (requestedAt : Int) : pendingWake (wakeOpts wake) requestedAt =
      { wake with requestedAt } := by
  unfold pendingWake wakeOpts
  dsimp only
  rw [h.reason, normalizeWakeTarget_of_normal h.agent, normalizeWakeTarget_of_normal h.session, ← h.priority]

def wakeKey (wake : PendingWake) : String := getWakeTargetKey wake.agentId wake.sessionKey

/-- **Wakes are keyed** by their targets. -/
def WakesKeyed (pendingWakes : Table String PendingWake) : Prop :=
  ∀ key wake, pendingWakes.find key = some wake → key = wakeKey wake ∧ WakeOk wake

/-- `wake'` is `wake`, or what became of it when it met another wake for the same target. -/
structure Absorbs (wake' wake : PendingWake) : Prop where
  agentId : wake'.agentId = wake.agentId
  sessionKey : wake'.sessionKey = wake.sessionKey
  priority : wake.priority ≤ wake'.priority

/-- `wake` is pending, by itself or merged. -/
def PendingIn (pendingWakes : Table String PendingWake) (wake : PendingWake) : Prop :=
  ∃ wake', pendingWakes.find (wakeKey wake) = some wake' ∧ Absorbs wake' wake

theorem Absorbs.refl (wake : PendingWake) : Absorbs wake wake := ⟨rfl, rfl, Nat.le_refl _⟩

theorem Absorbs.trans {a b c : PendingWake} (hab : Absorbs a b) (hbc : Absorbs b c) : Absorbs a c :=
  ⟨hab.agentId.trans hbc.agentId, hab.sessionKey.trans hbc.sessionKey, Nat.le_trans hbc.priority hab.priority⟩

theorem Absorbs.wakeKey {wake' wake : PendingWake} (h : Absorbs wake' wake) : wakeKey wake' = wakeKey wake := by
  unfold HeartbeatWake.wakeKey
  rw [h.agentId, h.sessionKey]

theorem absorbs_of_wakeKey {wake wake' : PendingWake} (h : WakeOk wake) (h' : WakeOk wake')
    (hkey : wakeKey wake' = wakeKey wake) (hpriority : wake.priority ≤ wake'.priority) : Absorbs wake' wake := by
  obtain ⟨hagent, hsession⟩ := getWakeTargetKey_injective h'.agent h.agent h'.session h.session
    h'.noColon h.noColon hkey
  exact ⟨hagent, hsession, hpriority⟩

/-- Writing a wake over what its target had keeps the keys, and every wake it absorbs. -/
theorem upsert_spec (h : WakesKeyed pendingWakes) (hwake : WakeOk wake)
    (hprevious : ∀ previous, pendingWakes.find (wakeKey wake) = some previous → previous.priority ≤ wake.priority) :
    WakesKeyed (pendingWakes.upsert (wakeKey wake) wake) ∧ PendingIn (pendingWakes.upsert (wakeKey wake) wake) wake ∧
      ∀ other, PendingIn pendingWakes other → PendingIn (pendingWakes.upsert (wakeKey wake) wake) other := by
  refine ⟨fun key found hfound => ?_, ⟨wake, Table.find_upsert_self _ _ _, .refl wake⟩, ?_⟩
  · rw [Table.find_upsert] at hfound
    split at hfound
    · rename_i hkey
      cases hfound
      exact ⟨hkey, hwake⟩
    · exact h key found hfound
  · rintro other ⟨found, hfind, habsorbs⟩
    by_cases hkey : wakeKey other = wakeKey wake
    · rw [hkey] at hfind
      obtain ⟨hfoundKey, hfoundOk⟩ := h _ found hfind
      refine ⟨wake, by rw [hkey, Table.find_upsert_self], ?_⟩
      exact (absorbs_of_wakeKey hfoundOk hwake hfoundKey (hprevious found hfind)).trans habsorbs
    · exact ⟨found, by rw [Table.find_upsert_ne _ hkey, hfind], habsorbs⟩

/-- **Queueing** a wake keeps every pending one, and the wake is pending afterwards. -/
theorem queuePendingWakeReason_spec (h : WakesKeyed pendingWakes) {params : HeartbeatWakeRequest} {requestedAt : Int}
    (hnext : WakeOk (pendingWake params requestedAt)) :
    WakesKeyed (queuePendingWakeReason pendingWakes params requestedAt) ∧
      PendingIn (queuePendingWakeReason pendingWakes params requestedAt) (pendingWake params requestedAt) ∧
      ∀ wake, PendingIn pendingWakes wake →
      PendingIn (queuePendingWakeReason pendingWakes params requestedAt) wake := by
  unfold queuePendingWakeReason
  dsimp only
  split
  · rename_i hnone
    refine upsert_spec h hnext fun previous hprevious => ?_
    rw [wakeKey, hnone] at hprevious
    cases hprevious
  · rename_i previous hprevious
    obtain ⟨hkey, hok⟩ := h _ previous hprevious
    -- The merged wake is `next` but for its heartbeat, so it stands under the same key.
    obtain ⟨merged, hmerged⟩ : ∃ merged, merged = { pendingWake params requestedAt with
        heartbeat := (pendingWake params requestedAt).heartbeat <|> previous.heartbeat } := ⟨_, rfl⟩
    have hmergedOk : WakeOk merged := by
      rw [hmerged]
      exact ⟨hnext.agent, hnext.session, hnext.noColon, hnext.reason, hnext.priority⟩
    have habsorbs : Absorbs merged (pendingWake params requestedAt) := by
      rw [hmerged]
      exact ⟨rfl, rfl, Nat.le_refl _⟩
    rw [← hmerged]
    have hreplaced := fun hpriority => upsert_spec h hmergedOk (by
      intro found hfound
      rw [habsorbs.wakeKey] at hfound
      cases hfound.symm.trans hprevious
      exact hpriority)
    rw [habsorbs.wakeKey] at hreplaced
    have hcovers : PendingIn (pendingWakes.upsert (wakeKey (pendingWake params requestedAt)) merged)
        (pendingWake params requestedAt) := ⟨merged, Table.find_upsert_self _ _ _, habsorbs⟩
    have hlevel : merged.priority = (pendingWake params requestedAt).priority := by rw [hmerged]
    split
    · rename_i hhigher
      obtain ⟨hkeyed, -, hothers⟩ := hreplaced (by omega)
      exact ⟨hkeyed, hcovers, hothers⟩
    · split
      · rename_i hequal
        obtain ⟨hkeyed, -, hothers⟩ := hreplaced (by omega)
        exact ⟨hkeyed, hcovers, hothers⟩
      · rename_i hnot hstale
        refine ⟨h, ⟨previous, hprevious, ?_⟩, fun wake hwake => hwake⟩
        exact absorbs_of_wakeKey hnext hok hkey.symm (Nat.le_of_not_lt hnot)

/-- A wake that goes back is pending. -/
theorem requeue_spec (h : WakesKeyed pendingWakes) (hwake : WakeOk wake) (requestedAt : Int) :
    WakesKeyed (queuePendingWakeReason pendingWakes (wakeOpts wake) requestedAt) ∧
      PendingIn (queuePendingWakeReason pendingWakes (wakeOpts wake) requestedAt) wake ∧
      ∀ other, PendingIn pendingWakes other →
      PendingIn (queuePendingWakeReason pendingWakes (wakeOpts wake) requestedAt) other := by
  have hsame := pendingWake_wakeOpts hwake requestedAt
  have hok : WakeOk (pendingWake (wakeOpts wake) requestedAt) := by
    rw [hsame]
    exact ⟨hwake.agent, hwake.session, hwake.noColon, hwake.reason, hwake.priority⟩
  obtain ⟨hkeyed, hpending, hothers⟩ := queuePendingWakeReason_spec h hok
  refine ⟨hkeyed, ?_, hothers⟩
  obtain ⟨wake', hfind, habsorbs⟩ := hpending
  rw [hsame] at hfind habsorbs
  exact ⟨wake', hfind, habsorbs.trans ⟨rfl, rfl, Nat.le_refl _⟩⟩

theorem requeueBatch_spec (wakes : List PendingWake) (h : WakesKeyed pendingWakes)
    (hwakes : ∀ wake ∈ wakes, WakeOk wake) (clock : Nat → Int) : WakesKeyed (requeueBatch pendingWakes wakes clock) ∧
      (∀ wake ∈ wakes, PendingIn (requeueBatch pendingWakes wakes clock) wake) ∧
      ∀ other, PendingIn pendingWakes other → PendingIn (requeueBatch pendingWakes wakes clock) other := by
  induction wakes generalizing pendingWakes clock with
  | nil => exact ⟨h, fun wake hwake => absurd hwake List.not_mem_nil, fun _ hother => hother⟩
  | cons wake rest ih =>
    obtain ⟨hkeyed, hpending, hothers⟩ := requeue_spec h (hwakes wake List.mem_cons_self) (clock 0)
    obtain ⟨hkeyed', hrest, hothers'⟩ := ih hkeyed
      (fun w hw => hwakes w (List.mem_cons_of_mem wake hw)) (fun i => clock (i + 1))
    refine ⟨hkeyed', fun w hw => ?_, fun other hother => hothers' other (hothers other hother)⟩
    rcases List.mem_cons.mp hw with rfl | hw
    · exact hothers' _ hpending
    · exact hrest w hw

/-! ## Timers -/

/-- After `schedule` a timer is armed, whatever was armed before; nothing else changes. -/
theorem schedule_eq (s : HeartbeatWakes) (coalesceMs : Option Int) (kind : WakeTimerKind) (now : Int) :
    ∃ timer, schedule s coalesceMs kind now = { s with timer := some timer } := by
  unfold schedule
  dsimp only
  split
  · exact ⟨_, rfl⟩
  · rename_i timer htimer
    have hkept : s = { s with timer := some timer } := by rw [← htimer]
    split
    · exact ⟨timer, hkept⟩
    · split
      · exact ⟨timer, hkept⟩
      · exact ⟨_, rfl⟩

/-- The end of a batch clears `running` and arms a timer if a wake is pending. -/
theorem finishBatch_eq (s : HeartbeatWakes) (delay now : Int) :
    ∃ timer, finishBatch s delay now = { s with running := false, timer } ∧
      (s.timer ≠ none → timer ≠ none) ∧ (s.pendingWakes.keys ≠ [] → timer ≠ none) := by
  unfold finishBatch
  dsimp only
  split
  · obtain ⟨timer, htimer⟩ := schedule_eq { s with running := false } (some delay) .normal now
    exact ⟨some timer, htimer, fun _ h => by (cases h), fun _ h => by (cases h)⟩
  · rename_i hquiet
    exact ⟨s.timer, rfl, id, fun hpending => absurd (.inl hpending) hquiet⟩

/-- The batch of all pending wakes, for the handler `active`. -/
def startBatch (s : HeartbeatWakes) (active : Nat) (delay : Int) : HeartbeatWakes :=
  { s with
    timer := none
    scheduled := false
    pendingWakes := .empty
    running := true
    batches := s.batches.upsert s.nextBatch
      { registration := s.registered, active, delay, pendingBatch := s.pendingWakes.rows.map (·.2),
        rest := s.pendingWakes.rows.map (·.2), called := false }
    nextBatch := s.nextBatch + 1 }

/-- A timer is put off, finds nothing pending, or starts a batch. -/
theorem timerFires_cases (s : HeartbeatWakes) (clock : Nat → Int) :
    (∃ timer scheduled, timerFires s clock = { s with timer, scheduled } ∧
      (s.handler.isSome = true → timer = s.timer ∨ timer ≠ none)) ∨
    (¬ s.running = true ∧ s.pendingWakes.rows.map (·.2) = [] ∧ ∃ timer, timerFires s clock =
      { s with timer, scheduled := false, pendingWakes := .empty, running := false }) ∨
    (¬ s.running = true ∧ ∃ active delay, s.handler = some active ∧
      timerFires s clock = startBatch s active delay) := by
  unfold timerFires
  split
  · exact .inl ⟨s.timer, s.scheduled, rfl, fun _ => .inl rfl⟩
  · rename_i timer htimer
    dsimp only
    split
    · rename_i hnone
      exact .inl ⟨none, false, rfl, fun hhandler => by rw [hnone] at hhandler; cases hhandler⟩
    · rename_i active hactive
      split
      · obtain ⟨timer', htimer'⟩ := schedule_eq
          { s with timer := none, scheduled := true } (some timer.delay) timer.kind (clock 0)
        exact .inl ⟨some timer', true, htimer', fun _ => .inr (Option.some_ne_none _)⟩
      · rename_i hidle
        split
        · rename_i hempty
          obtain ⟨timer', hfinish, -⟩ := finishBatch_eq
            { s with timer := none, scheduled := false, pendingWakes := .empty, running := true }
            timer.delay (clock 0)
          exact .inr (.inl ⟨hidle, hempty, timer', hfinish⟩)
        · exact .inr (.inr ⟨hidle, active, timer.delay, hactive, rfl⟩)

/-! ## The invariants -/

/-- The wakes a batch took from the map and has not handed to its handler. -/
def WakeBatch.waiting (batch : WakeBatch) : List PendingWake :=
  if batch.called then batch.rest.tail else batch.rest

/-- What holds of a batch from its start on. -/
structure BatchSound (s : HeartbeatWakes) (id : Nat) (batch : WakeBatch) : Prop where
  wakes : ∀ wake ∈ batch.pendingBatch, WakeOk wake
  rest : ∀ wake ∈ batch.rest, wake ∈ batch.pendingBatch
  fresh : id < s.nextBatch
  registered : batch.registration ≤ s.registered

/-- **With a handler registered, pending wakes have a timer.** -/
def TimerArmed (s : HeartbeatWakes) : Prop := s.handler.isSome = true → s.pendingWakes.keys ≠ [] → s.timer ≠ none

structure DispatchSound (s : HeartbeatWakes) : Prop where
  keyed : WakesKeyed s.pendingWakes
  batches : ∀ id batch, s.batches.find id = some batch → BatchSound s id batch
  armed : TimerArmed s

/-- A batch of the handler registered last is running. -/
def LatestRuns (s : HeartbeatWakes) (id : Nat) : Prop :=
  ∃ batch, s.batches.find id = some batch ∧ batch.registration = s.registered

/-- **One batch of the handler registered last**, and `running` knows of it. -/
structure OneBatch (s : HeartbeatWakes) : Prop where
  running : ∀ id, LatestRuns s id → s.running = true
  unique : ∀ id id', LatestRuns s id → LatestRuns s id' → id = id'

theorem WakeBatch.waiting_subset (h : wake ∈ batch.waiting) : wake ∈ batch.rest := by
  unfold WakeBatch.waiting at h
  split at h
  · exact List.mem_of_mem_tail h
  · exact h

theorem armed_of_timer (h : s.timer ≠ none) : TimerArmed s := fun _ _ => h

/-- The state after a batch was changed to one with the same wakes, or fewer. -/
theorem upsertBatch_sound (h : DispatchSound s) (hbatch : BatchSound s id batch) (calls : List HandlerCall) :
    DispatchSound { s with batches := s.batches.upsert id batch, calls } := by
  refine ⟨h.keyed, fun id' batch' hfind => ?_, h.armed⟩
  rw [Table.find_upsert] at hfind
  split at hfind
  · rename_i hid
    cases hfind
    rw [hid]
    exact ⟨hbatch.wakes, hbatch.rest, hbatch.fresh, hbatch.registered⟩
  · obtain ⟨hwakes, hrest, hfresh, hregistered⟩ := h.batches id' batch' hfind
    exact ⟨hwakes, hrest, hfresh, hregistered⟩

/-- The batches of a table with one deleted are among those of the table. -/
theorem find_of_deleteKey {batches : Table Nat WakeBatch} {id id' : Nat}
    (h : (batches.deleteKey id).find id' = some batch) : id' ≠ id ∧ batches.find id' = some batch := by
  by_cases hid : id' = id
  · rw [hid, Table.find_deleteKey_self] at h
    cases h
  · rw [Table.find_deleteKey_ne _ hid] at h
    exact ⟨hid, h⟩

theorem finished_sound (h : DispatchSound s) (id : Nat) (delay now : Int) :
    DispatchSound (finishBatch { s with batches := s.batches.deleteKey id } delay now) := by
  obtain ⟨timer, hfinish, -, harmed⟩ := finishBatch_eq { s with batches := s.batches.deleteKey id } delay now
  rw [hfinish]
  refine ⟨h.keyed, fun id' batch' hfind => ?_, fun _ hpending => harmed hpending⟩
  obtain ⟨hwakes, hrest, hfresh, hregistered⟩ := h.batches id' batch' (find_of_deleteKey hfind).2
  exact ⟨hwakes, hrest, hfresh, hregistered⟩

/-- New pending wakes under a timer. -/
theorem scheduled_sound (h : DispatchSound s) (hkeyed : WakesKeyed pendingWakes) (coalesceMs : Option Int)
    (kind : WakeTimerKind) (now : Int) : DispatchSound (schedule { s with pendingWakes } coalesceMs kind now) := by
  obtain ⟨timer, htimer⟩ := schedule_eq { s with pendingWakes } coalesceMs kind now
  rw [htimer]
  refine ⟨hkeyed, fun id batch hfind => ?_, armed_of_timer fun h => by cases h⟩
  obtain ⟨hwakes, hrest, hfresh, hregistered⟩ := h.batches id batch hfind
  exact ⟨hwakes, hrest, hfresh, hregistered⟩

theorem requestHeartbeat_sound (h : DispatchSound s) {opts : HeartbeatWakeRequest} (hopts : NoColon opts.agentId)
    (coalesceMs : Option Int) (clock : Nat → Int) : DispatchSound (requestHeartbeat s opts coalesceMs clock) :=
  scheduled_sound h (queuePendingWakeReason_spec h.keyed (pendingWake_ok hopts _)).1 _ _ _

/-- Registering changes neither wakes nor batches. -/
theorem registerHandler_spec (s : HeartbeatWakes) (next : Option Nat) :
    (registerHandler s next).pendingWakes = s.pendingWakes ∧ (registerHandler s next).batches = s.batches ∧
      (registerHandler s next).nextBatch = s.nextBatch ∧ (registerHandler s next).handler = next ∧
      (registerHandler s next).calls = s.calls ∧ (next = none ∧ (registerHandler s next).registered = s.registered ∧
          (registerHandler s next).running = s.running ∨ (registerHandler s next).registered = s.registered + 1) := by
  cases next with
  | none => exact ⟨rfl, rfl, rfl, rfl, rfl, .inl ⟨rfl, rfl, rfl⟩⟩
  | some _ => exact ⟨rfl, rfl, rfl, rfl, rfl, .inr rfl⟩

/-- A registration arms a timer for what is pending; the rest is `registerHandler`. -/
theorem setHeartbeatWakeHandler_eq (s : HeartbeatWakes) (next : Option Nat) (now : Int) :
    ∃ timer, setHeartbeatWakeHandler s next now = { registerHandler s next with timer } ∧
      (next.isSome = true → s.pendingWakes.keys ≠ [] → timer ≠ none) := by
  obtain ⟨hpending, -, -, hhandler, -⟩ := registerHandler_spec s next
  unfold setHeartbeatWakeHandler
  dsimp only
  split
  · obtain ⟨timer, htimer⟩ := schedule_eq (registerHandler s next) (some defaultCoalesceMs) .normal now
    exact ⟨some timer, htimer, fun _ _ h => by cases h⟩
  · rename_i hquiet
    refine ⟨(registerHandler s next).timer, rfl, fun hsome hkeys => absurd ⟨?_, ?_⟩ hquiet⟩
    · rw [hhandler]
      exact hsome
    · rw [hpending]
      exact hkeys

theorem setHeartbeatWakeHandler_sound (h : DispatchSound s) (next : Option Nat) (now : Int) :
    DispatchSound (setHeartbeatWakeHandler s next now) := by
  obtain ⟨hpending, hbatches, hnext, hhandler, -, hregistered⟩ := registerHandler_spec s next
  obtain ⟨timer, hset, harmed⟩ := setHeartbeatWakeHandler_eq s next now
  rw [hset]
  refine ⟨?_, fun id batch hfind => ?_, fun hsome hkeys => harmed ?_ ?_⟩
  · show WakesKeyed (registerHandler s next).pendingWakes
    rw [hpending]
    exact h.keyed
  · have hfind' : (registerHandler s next).batches.find id = some batch := hfind
    rw [hbatches] at hfind'
    obtain ⟨hwakes, hrest, hfresh, hle⟩ := h.batches id batch hfind'
    refine ⟨hwakes, hrest, ?_, ?_⟩
    · show id < (registerHandler s next).nextBatch
      rw [hnext]
      exact hfresh
    · show batch.registration ≤ (registerHandler s next).registered
      rcases hregistered with ⟨-, hsame, -⟩ | hsucc
      · omega
      · omega
  · exact hhandler ▸ hsome
  · exact hpending ▸ hkeys

theorem dispose_sound (h : DispatchSound s) (generation : Nat) (next : Option Nat) :
    DispatchSound (dispose s generation next) := by
  unfold dispose
  split
  · exact h
  · split
    · exact h
    · refine ⟨h.keyed, fun id batch hfind => ?_, fun hhandler => by cases hhandler⟩
      obtain ⟨hwakes, hrest, hfresh, hregistered⟩ := h.batches id batch hfind
      exact ⟨hwakes, hrest, hfresh, hregistered⟩

theorem wakesKeyed_empty : WakesKeyed .empty := fun _ _ h => by cases h

theorem mem_values (h : wake ∈ pendingWakes.rows.map (·.2)) : ∃ key, pendingWakes.find key = some wake := by
  obtain ⟨⟨key, found⟩, hrow, rfl⟩ := List.mem_map.mp h
  exact ⟨key, Table.mem_rows.mp hrow⟩

theorem timerFires_sound (h : DispatchSound s) (clock : Nat → Int) : DispatchSound (timerFires s clock) := by
  have hbatches : ∀ {s' : HeartbeatWakes}, s'.batches = s.batches → s.nextBatch ≤ s'.nextBatch →
      s'.registered = s.registered →
      ∀ id batch, s'.batches.find id = some batch → BatchSound s' id batch := by
    intro s' hb hn hr id batch hfind
    obtain ⟨hwakes, hrest, hfresh, hregistered⟩ := h.batches id batch (hb ▸ hfind)
    exact ⟨hwakes, hrest, Nat.lt_of_lt_of_le hfresh hn, hr ▸ hregistered⟩
  rcases timerFires_cases s clock with
    ⟨timer, scheduled, heq, hkept⟩ | ⟨-, -, timer, heq⟩ | ⟨-, active, delay, -, heq⟩
  · rw [heq]
    refine ⟨h.keyed, hbatches rfl (Nat.le_refl _) rfl, fun hhandler hpending => ?_⟩
    rcases hkept hhandler with rfl | hsome
    · exact h.armed hhandler hpending
    · exact hsome
  · rw [heq]
    exact ⟨wakesKeyed_empty, hbatches rfl (Nat.le_refl _) rfl, fun _ hpending => absurd rfl hpending⟩
  · rw [heq]
    refine ⟨wakesKeyed_empty, fun id batch hfind => ?_, fun _ hpending => absurd rfl hpending⟩
    unfold startBatch at hfind
    rw [Table.find_upsert] at hfind
    split at hfind
    · rename_i hid
      cases hfind
      refine ⟨fun wake hwake => ?_, fun wake hwake => hwake, ?_, Nat.le_refl _⟩
      · obtain ⟨key, hkey⟩ := mem_values hwake
        exact (h.keyed key wake hkey).2
      · rw [hid]
        exact Nat.lt_succ_self _
    · obtain ⟨hwakes, hrest, hfresh, hregistered⟩ := h.batches id batch hfind
      exact ⟨hwakes, hrest, Nat.lt_succ_of_lt hfresh, hregistered⟩

theorem callHandler_sound (h : DispatchSound s) (hfind : s.batches.find id = some batch) :
    DispatchSound (callHandler s id batch) := by
  have hbatch := h.batches id batch hfind
  unfold callHandler
  split
  · have hcalled : BatchSound s id { batch with called := true } :=
      ⟨hbatch.wakes, hbatch.rest, hbatch.fresh, hbatch.registered⟩
    exact upsertBatch_sound h hcalled _
  · exact h

theorem nextWake_sound (h : DispatchSound s) (hbatch : BatchSound s id batch) (now : Int) :
    DispatchSound (nextWake s id batch now) := by
  unfold nextWake
  split
  · exact finished_sound h id batch.delay now
  · have hnext : BatchSound s id { batch with rest := batch.rest.tail, called := false } :=
      ⟨hbatch.wakes, fun wake hwake => hbatch.rest wake (List.mem_of_mem_tail hwake), hbatch.fresh, hbatch.registered⟩
    exact upsertBatch_sound h hnext _

/-- A wake that is retried changes the pending wakes and the timer. -/
theorem retryWake_eq (s : HeartbeatWakes) (wake : PendingWake) (clock : Nat → Int) :
    ∃ timer, retryWake s wake clock =
      { s with
        pendingWakes := queuePendingWakeReason s.pendingWakes (wakeOpts wake) (clock 0)
        timer := some timer } := schedule_eq _ _ _ _

theorem handlerReturns_sound (h : DispatchSound s) (hfind : s.batches.find id = some batch) (res : HeartbeatRunResult)
    (clock : Nat → Int) : DispatchSound (handlerReturns s id batch res clock) := by
  have hbatch := h.batches id batch hfind
  unfold handlerReturns
  split
  · rename_i wake rest hcalled hrest
    have hwake : WakeOk wake := by
      refine hbatch.wakes wake (hbatch.rest wake ?_)
      rw [hrest]
      exact List.mem_cons_self
    split
    · split
      · obtain ⟨hkeyed, -⟩ := requeue_spec h.keyed hwake (clock 0)
        have hretried : DispatchSound (retryWake s wake clock) := scheduled_sound h hkeyed _ _ _
        obtain ⟨timer, hretry⟩ := retryWake_eq s wake clock
        refine nextWake_sound hretried ?_ (clock 2)
        rw [hretry]
        exact ⟨hbatch.wakes, hbatch.rest, hbatch.fresh, hbatch.registered⟩
      · exact nextWake_sound h hbatch (clock 0)
    · exact nextWake_sound h hbatch (clock 0)
    · exact nextWake_sound h hbatch (clock 0)
  · exact h

/-- A batch that is retried changes the pending wakes and the timer. -/
theorem retryBatch_eq (s : HeartbeatWakes) (batch : WakeBatch) (clock : Nat → Int) :
    ∃ timer, retryBatch s batch clock =
      { s with
        pendingWakes := requeueBatch s.pendingWakes batch.pendingBatch clock
        timer := some timer } := schedule_eq _ _ _ _

theorem batchThrows_sound (h : DispatchSound s) (hfind : s.batches.find id = some batch) (clock : Nat → Int) :
    DispatchSound (batchThrows s id batch clock) := by
  obtain ⟨hkeyed, -⟩ := requeueBatch_spec batch.pendingBatch h.keyed (h.batches id batch hfind).wakes
    clock
  exact finished_sound (scheduled_sound h hkeyed (some defaultRetryMs) .retry _) id batch.delay _

/-- The agent ids of requests contain no colon. -/
def AgentOk : WakeEvent → Prop
  | .request opts _ _ => NoColon opts.agentId
  | _ => True

theorem stepWake_sound {event : WakeEvent} (hagent : AgentOk event) (h : DispatchSound s) :
    DispatchSound (stepWake s event) := by
  refine skipDisabled_keeps h fun s' hstep => ?_
  cases event with
  | request opts coalesceMs clock =>
    cases hstep
    exact requestHeartbeat_sound h hagent coalesceMs clock
  | setHandler next now =>
    cases hstep
    exact setHeartbeatWakeHandler_sound h next now
  | dispose disposer =>
    obtain ⟨⟨generation, next⟩, -, rfl⟩ := Option.map_eq_some_iff.mp hstep
    exact dispose_sound h generation next
  | timerFires clock =>
    cases hstep
    exact timerFires_sound h clock
  | callHandler id =>
    obtain ⟨batch, hfind, rfl⟩ := Option.map_eq_some_iff.mp hstep
    exact callHandler_sound h hfind
  | settles id res clock =>
    obtain ⟨batch, hfind, rfl⟩ := Option.map_eq_some_iff.mp hstep
    cases res with
    | some res => exact handlerReturns_sound h hfind res clock
    | none => exact batchThrows_sound h hfind clock

/-! ## One batch at a time -/

theorem oneBatch_of_latest {s s' : HeartbeatWakes} (h : OneBatch s)
    (hlatest : ∀ id, LatestRuns s' id → LatestRuns s id)
    (hrunning : s.running = true → s'.running = true) : OneBatch s' :=
  ⟨fun id hid => hrunning (h.running id (hlatest id hid)),
    fun id id' hid hid' => h.unique id id' (hlatest id hid) (hlatest id' hid')⟩

theorem oneBatch_of_none (h : ∀ id, ¬ LatestRuns s id) : OneBatch s :=
  ⟨fun id hid => absurd hid (h id), fun id _ hid => absurd hid (h id)⟩

/-- Only batches, registrations and the flag matter. -/
theorem oneBatch_of_same {s s' : HeartbeatWakes} (h : OneBatch s) (hbatches : s'.batches = s.batches)
    (hregistered : s'.registered = s.registered) (hrunning : s'.running = s.running) : OneBatch s' := by
  refine oneBatch_of_latest h (fun id hid => ?_) fun hrun => hrunning.trans hrun
  obtain ⟨batch, hfind, hlatest⟩ := hid
  exact ⟨batch, hbatches ▸ hfind, hlatest.trans hregistered⟩

/-- **A batch that ends** leaves none of the last handler running: it was the one, or there was none. -/
theorem finished_oneBatch {s : HeartbeatWakes} (h : OneBatch s) {id : Nat} {batch : WakeBatch}
    (hfind : s.batches.find id = some batch)
    (hlate : batch.registration ≠ s.registered → ∀ id', ¬ LatestRuns s id') (delay now : Int) :
    OneBatch (finishBatch { s with batches := s.batches.deleteKey id } delay now) := by
  obtain ⟨timer, hfinish, -⟩ := finishBatch_eq { s with batches := s.batches.deleteKey id } delay now
  rw [hfinish]
  refine oneBatch_of_none ?_
  rintro id' ⟨batch', hfind', hregistration⟩
  obtain ⟨hid, hbefore⟩ := find_of_deleteKey hfind'
  have hruns : LatestRuns s id' := ⟨batch', hbefore, hregistration⟩
  by_cases hlatest : batch.registration = s.registered
  · exact hid (h.unique id' id hruns ⟨batch, hfind, hlatest⟩)
  · exact hlate hlatest id' hruns

/-- A batch that goes on is the batch it was. -/
theorem upsertBatch_latest {batch batch' : WakeBatch} (hfind : s.batches.find id = some batch)
    (hregistration : batch'.registration = batch.registration) (calls : List HandlerCall) (id' : Nat)
    (h : LatestRuns { s with batches := s.batches.upsert id batch', calls } id') : LatestRuns s id' := by
  obtain ⟨found, hfound, hlatest⟩ := h
  rw [Table.find_upsert] at hfound
  split at hfound
  · rename_i hid
    cases hfound
    rw [hid]
    exact ⟨batch, hfind, hregistration ▸ hlatest⟩
  · exact ⟨found, hfound, hlatest⟩

theorem nextWake_oneBatch {s : HeartbeatWakes} (h : OneBatch s) {id : Nat} {batch : WakeBatch}
    (hfind : s.batches.find id = some batch)
    (hlate : batch.rest.tail = [] → batch.registration ≠ s.registered → ∀ id', ¬ LatestRuns s id')
    (now : Int) : OneBatch (nextWake s id batch now) := by
  unfold nextWake
  split
  · rename_i hrest
    exact finished_oneBatch h hfind (hlate hrest) batch.delay now
  · exact oneBatch_of_latest h (upsertBatch_latest hfind (by rfl) _) fun hrun => hrun

/-- This settling ends the batch. -/
def endsBatch (batch : WakeBatch) (res : Option HeartbeatRunResult) : Bool :=
  res.isNone || (batch.called && batch.rest.tail.isEmpty)

/-- **No batch ends late**: no batch of an earlier handler ends while one of the handler registered last
is running. -/
def EndsInTime (s : HeartbeatWakes) : WakeEvent → Prop
  | .settles id res _ => ∀ batch, s.batches.find id = some batch → endsBatch batch res = true →
      batch.registration ≠ s.registered → ∀ id', ¬ LatestRuns s id'
  | _ => True

theorem handlerReturns_oneBatch (h : OneBatch s) (hfind : s.batches.find id = some batch) (res : HeartbeatRunResult)
    (hlate : endsBatch batch (some res) = true → batch.registration ≠ s.registered → ∀ id', ¬ LatestRuns s id')
    (clock : Nat → Int) : OneBatch (handlerReturns s id batch res clock) := by
  unfold handlerReturns
  split
  · rename_i wake rest hcalled hrest
    have hend : batch.rest.tail = [] → batch.registration ≠ s.registered → ∀ id', ¬ LatestRuns s id' := by
      intro htail
      refine hlate ?_
      simp [endsBatch, hcalled, htail]
    split
    · split
      · obtain ⟨timer, hretry⟩ := retryWake_eq s wake clock
        have hlatest : ∀ id, LatestRuns (retryWake s wake clock) id → LatestRuns s id := by
          rw [hretry]
          exact fun _ hid => hid
        have hone : OneBatch (retryWake s wake clock) := by
          rw [hretry]
          exact oneBatch_of_same h rfl rfl rfl
        refine @nextWake_oneBatch _ hone id batch ?_ (fun htail hother id' hid' => ?_) (clock 2)
        · rw [hretry]
          exact hfind
        · refine hend htail ?_ id' (hlatest id' hid')
          rw [hretry] at hother
          exact hother
      · exact nextWake_oneBatch h hfind hend (clock 0)
    · exact nextWake_oneBatch h hfind hend (clock 0)
    · exact nextWake_oneBatch h hfind hend (clock 0)
  · exact h

theorem timerFires_oneBatch (h : OneBatch s) (clock : Nat → Int) : OneBatch (timerFires s clock) := by
  rcases timerFires_cases s clock with
    ⟨timer, scheduled, heq, -⟩ | ⟨hidle, -, timer, heq⟩ | ⟨hidle, active, delay, -, heq⟩
  · rw [heq]
    exact oneBatch_of_latest h (fun _ hid => hid) fun hrun => hrun
  · rw [heq]
    exact oneBatch_of_none fun id hid => hidle (h.running id hid)
  · rw [heq]
    -- `running` is false, so no batch of this handler is running yet
    have hnew : ∀ id, LatestRuns (startBatch s active delay) id → id = s.nextBatch := by
      rintro id ⟨batch, hfind, hlatest⟩
      unfold startBatch at hfind
      rw [Table.find_upsert] at hfind
      split at hfind
      · rename_i hid
        exact hid
      · exact absurd (h.running id ⟨batch, hfind, hlatest⟩) hidle
    refine ⟨fun _ _ => rfl, fun id id' hid hid' => ?_⟩
    rw [hnew id hid, hnew id' hid']

theorem setHeartbeatWakeHandler_oneBatch (hsound : DispatchSound s) (h : OneBatch s) (next : Option Nat) (now : Int) :
    OneBatch (setHeartbeatWakeHandler s next now) := by
  obtain ⟨-, hbatches, -, -, -, hregistered⟩ := registerHandler_spec s next
  obtain ⟨timer, hset, -⟩ := setHeartbeatWakeHandler_eq s next now
  rw [hset]
  rcases hregistered with ⟨-, hsame, hrunning⟩ | hsucc
  · refine oneBatch_of_latest h (fun id hid => ?_) (fun hrun => hrunning.trans hrun)
    obtain ⟨batch, hfind, hlatest⟩ := hid
    exact ⟨batch, hbatches ▸ hfind, hlatest.trans hsame⟩
  · -- Every batch is now one of an earlier handler.
    refine oneBatch_of_none ?_
    rintro id ⟨batch, hfind, hlatest⟩
    have hle := (hsound.batches id batch (hbatches ▸ hfind)).registered
    have hnew : batch.registration = s.registered + 1 := hlatest.trans hsucc
    omega

theorem stepWake_oneBatch {event : WakeEvent} (htime : EndsInTime s event) (hsound : DispatchSound s)
    (h : OneBatch s) : OneBatch (stepWake s event) := by
  refine skipDisabled_keeps h fun s' hstep => ?_
  cases event with
  | request opts coalesceMs clock =>
    cases hstep
    unfold requestHeartbeat
    obtain ⟨timer, htimer⟩ := schedule_eq
      { s with pendingWakes := queuePendingWakeReason s.pendingWakes opts (clock 0) }
      (some (coalesceMs.getD defaultCoalesceMs)) .normal (clock 1)
    rw [htimer]
    exact oneBatch_of_same h rfl rfl rfl
  | setHandler next now =>
    cases hstep
    exact setHeartbeatWakeHandler_oneBatch hsound h next now
  | dispose disposer =>
    obtain ⟨⟨generation, next⟩, -, rfl⟩ := Option.map_eq_some_iff.mp hstep
    show OneBatch (dispose s generation next)
    unfold dispose
    split
    · exact h
    · split
      · exact h
      · exact oneBatch_of_same h rfl rfl rfl
  | timerFires clock =>
    cases hstep
    exact timerFires_oneBatch h clock
  | callHandler id =>
    obtain ⟨batch, hfind, rfl⟩ := Option.map_eq_some_iff.mp hstep
    unfold callHandler
    split
    · exact oneBatch_of_latest h (upsertBatch_latest hfind (by rfl) _) fun hrun => hrun
    · exact h
  | settles id res clock =>
    obtain ⟨batch, hfind, rfl⟩ := Option.map_eq_some_iff.mp hstep
    cases res with
    | some res => exact handlerReturns_oneBatch h hfind res (htime batch hfind) clock
    | none =>
      have hlatest : ∀ id', LatestRuns (retryBatch s batch clock) id' → LatestRuns s id' := by
        obtain ⟨timer, hretry⟩ := retryBatch_eq s batch clock
        rw [hretry]
        exact fun _ hid => hid
      obtain ⟨timer, hretry⟩ := retryBatch_eq s batch clock
      have hone : OneBatch (retryBatch s batch clock) := by
        rw [hretry]
        exact oneBatch_of_same h rfl rfl rfl
      refine @finished_oneBatch _ hone id batch ?_ (fun hother id' hid' => ?_) _ _
      · rw [hretry]
        exact hfind
      · rw [hretry] at hother
        exact htime batch hfind rfl hother id' (hlatest id' hid')

/-! ## No wake is lost -/

/-- What a step does to the wakes that are pending, and to those a batch took and has not handed on. -/
structure WakesKept (s s' : HeartbeatWakes) : Prop where
  pending : ∀ key wake, s.pendingWakes.find key = some wake →
    PendingIn s'.pendingWakes wake ∨
      ∃ id batch, s'.batches.find id = some batch ∧ s.handler = some batch.active ∧ wake ∈ batch.waiting
  waiting : ∀ id batch wake, s.batches.find id = some batch → wake ∈ batch.waiting →
    (∃ batch', s'.batches.find id = some batch' ∧ batch'.active = batch.active ∧
        wake ∈ batch'.waiting) ∨
      PendingIn s'.pendingWakes wake ∨
      s'.calls = s.calls ++ [{ handler := batch.active, opts := wakeOpts wake }]

theorem pendingIn_self (h : WakesKeyed pendingWakes) {key : String} (hfind : pendingWakes.find key = some wake) :
    PendingIn pendingWakes wake :=
  ⟨wake, (h key wake hfind).1 ▸ hfind, .refl wake⟩

/-- A step that keeps the pending wakes, and the batches as they are. -/
theorem kept_of_batches {s s' : HeartbeatWakes} (h : DispatchSound s)
    (hpending : ∀ wake, PendingIn s.pendingWakes wake → PendingIn s'.pendingWakes wake)
    (hbatches : s'.batches = s.batches) : WakesKept s s' where
  pending := fun _ wake hfind => .inl (hpending wake (pendingIn_self h.keyed hfind))
  waiting := fun _ batch _ hfind hwaiting => .inl ⟨batch, hbatches ▸ hfind, rfl, hwaiting⟩

/-- A step of the batch `id` that keeps the pending wakes. -/
theorem kept_of_batch {s s' : HeartbeatWakes} (h : DispatchSound s) (hfind : s.batches.find id = some batch)
    (hpending : ∀ wake, PendingIn s.pendingWakes wake → PendingIn s'.pendingWakes wake)
    (hothers : ∀ id', id' ≠ id → s'.batches.find id' = s.batches.find id')
    (hwaiting : ∀ wake ∈ batch.waiting, (∃ batch', s'.batches.find id = some batch' ∧ batch'.active = batch.active ∧
    wake ∈ batch'.waiting) ∨ PendingIn s'.pendingWakes wake ∨ s'.calls = s.calls ++
    [{ handler := batch.active, opts := wakeOpts wake }]) : WakesKept s s' where
  pending := fun _ wake hwake => .inl (hpending wake (pendingIn_self h.keyed hwake))
  waiting := by
    intro id' found wake hfound hwake
    by_cases hid : id' = id
    · rw [hid] at hfound ⊢
      rw [hfind] at hfound
      cases hfound
      exact hwaiting wake hwake
    · exact .inl ⟨found, (hothers id' hid).trans hfound, rfl, hwake⟩

theorem timerFires_kept (h : DispatchSound s) (clock : Nat → Int) : WakesKept s (timerFires s clock) := by
  have hvalue : ∀ {key : String} {wake : PendingWake}, s.pendingWakes.find key = some wake →
      wake ∈ s.pendingWakes.rows.map (·.2) := fun hfind =>
    List.mem_map.mpr ⟨(_, _), Table.mem_rows.mpr hfind, rfl⟩
  rcases timerFires_cases s clock with
    ⟨timer, scheduled, heq, -⟩ | ⟨-, hempty, timer, heq⟩ | ⟨-, active, delay, hactive, heq⟩
  · rw [heq]
    exact kept_of_batches h (fun _ hwake => hwake) rfl
  · rw [heq]
    refine ⟨fun key wake hfind => ?_, fun _ batch wake hfind hwaiting => .inl ⟨batch, hfind, rfl, hwaiting⟩⟩
    have hmem := hvalue hfind
    rw [hempty] at hmem
    cases hmem
  · rw [heq]
    refine ⟨fun key wake hfind => ?_, fun id batch wake hfind hwaiting => ?_⟩
    · exact .inr ⟨s.nextBatch, _, Table.find_upsert_self _ _ _, hactive, hvalue hfind⟩
    · have hold : id ≠ s.nextBatch := Nat.ne_of_lt (h.batches id batch hfind).fresh
      exact .inl ⟨batch, (Table.find_upsert_ne _ hold _).trans hfind, rfl, hwaiting⟩

theorem callHandler_kept (h : DispatchSound s) (hfind : s.batches.find id = some batch) :
    WakesKept s (callHandler s id batch) := by
  unfold callHandler
  split
  · rename_i wake rest hcalled hrest
    refine kept_of_batch h hfind (fun _ hwake => hwake)
      (fun id' hid => Table.find_upsert_ne _ hid _) fun other hother => ?_
    unfold WakeBatch.waiting at hother
    rw [hcalled, hrest] at hother
    rcases List.mem_cons.mp hother with rfl | hlater
    · exact .inr (.inr rfl)
    · refine .inl ⟨_, Table.find_upsert_self _ _ _, rfl, ?_⟩
      show other ∈ batch.rest.tail
      rw [hrest]
      exact hlater
  · exact kept_of_batches h (fun _ hwake => hwake) rfl

/-- The batch goes on with exactly what was waiting. -/
theorem nextWake_kept (s : HeartbeatWakes) (id : Nat) (hcalled : batch.called = true) (now : Int) :
    (nextWake s id batch now).pendingWakes = s.pendingWakes ∧ (∀ id', id' ≠ id →
      (nextWake s id batch now).batches.find id' = s.batches.find id') ∧ ∀ wake ∈
      batch.waiting, ∃ batch', (nextWake s id batch now).batches.find id = some batch' ∧
      batch'.active = batch.active ∧ wake ∈ batch'.waiting := by
  have hwaiting : batch.waiting = batch.rest.tail := by
    unfold WakeBatch.waiting
    rw [hcalled]
    rfl
  unfold nextWake
  rw [hwaiting]
  split
  · rename_i hrest
    obtain ⟨timer, hfinish, -⟩ := finishBatch_eq { s with batches := s.batches.deleteKey id } batch.delay now
    rw [hfinish]
    refine ⟨rfl, fun id' hid => Table.find_deleteKey_ne _ hid, fun wake hwake => ?_⟩
    rw [hrest] at hwake
    cases hwake
  · exact ⟨rfl, fun id' hid => Table.find_upsert_ne _ hid _,
      fun wake hwake => ⟨_, Table.find_upsert_self _ _ _, rfl, hwake⟩⟩

theorem handlerReturns_kept (h : DispatchSound s) (hfind : s.batches.find id = some batch) (res : HeartbeatRunResult)
    (clock : Nat → Int) : WakesKept s (handlerReturns s id batch res clock) := by
  have hbatch := h.batches id batch hfind
  unfold handlerReturns
  split
  · rename_i wake rest hcalled hrest
    have hnext : ∀ now, WakesKept s (nextWake s id batch now) := by
      intro now
      obtain ⟨hpending, hothers, hwaiting⟩ := nextWake_kept s id hcalled now
      refine kept_of_batch h hfind (fun _ hwake => ?_) hothers fun w hw => .inl (hwaiting w hw)
      rw [hpending]
      exact hwake
    split
    · split
      · have hwake : WakeOk wake := by
          refine hbatch.wakes wake (hbatch.rest wake ?_)
          rw [hrest]
          exact List.mem_cons_self
        obtain ⟨-, -, hkept⟩ := requeue_spec h.keyed hwake (clock 0)
        obtain ⟨timer, hretry⟩ := retryWake_eq s wake clock
        obtain ⟨hpending, hothers, hwaiting⟩ := nextWake_kept (retryWake s wake clock) id hcalled (clock 2)
        refine kept_of_batch h hfind (fun w hw => ?_) (fun id' hid => ?_) fun w hw => .inl (hwaiting w hw)
        · rw [hpending, hretry]
          exact hkept w hw
        · rw [hothers id' hid, hretry]
      · exact hnext (clock 0)
    · exact hnext (clock 0)
    · exact hnext (clock 0)
  · exact kept_of_batches h (fun _ hwake => hwake) rfl

/-- **An exception** puts every wake of the batch back, handed or not. -/
theorem batchThrows_kept (h : DispatchSound s) (hfind : s.batches.find id = some batch) (clock : Nat → Int) :
    WakesKept s (batchThrows s id batch clock) := by
  have hbatch := h.batches id batch hfind
  obtain ⟨-, hback, hkept⟩ := requeueBatch_spec batch.pendingBatch h.keyed hbatch.wakes clock
  obtain ⟨timer, hretry⟩ := retryBatch_eq s batch clock
  obtain ⟨timer', hfinish, -⟩ := finishBatch_eq
    { retryBatch s batch clock with batches := (retryBatch s batch clock).batches.deleteKey id }
    batch.delay (clock (batch.pendingBatch.length + 1))
  have hthrown : (batchThrows s id batch clock).pendingWakes =
        requeueBatch s.pendingWakes batch.pendingBatch clock ∧
      (batchThrows s id batch clock).batches = s.batches.deleteKey id := by
    unfold batchThrows
    dsimp only at hfinish ⊢
    rw [hfinish, hretry]
    exact ⟨rfl, rfl⟩
  obtain ⟨hpending, hbatches⟩ := hthrown
  refine kept_of_batch h hfind (fun wake hwake => ?_) (fun id' hid => ?_) fun wake hwake => ?_
  · rw [hpending]
    exact hkept wake hwake
  · rw [hbatches]
    exact Table.find_deleteKey_ne _ hid
  · refine .inr (.inl ?_)
    rw [hpending]
    exact hback wake (hbatch.rest wake (WakeBatch.waiting_subset hwake))

theorem stepWake_kept {event : WakeEvent} (hagent : AgentOk event) (h : DispatchSound s) :
    WakesKept s (stepWake s event) := by
  refine skipDisabled_keeps (P := WakesKept s) (kept_of_batches h (fun _ hwake => hwake) rfl) ?_
  intro s' hstep
  cases event with
  | request opts coalesceMs clock =>
    cases hstep
    obtain ⟨-, -, hkept⟩ := queuePendingWakeReason_spec h.keyed (pendingWake_ok hagent (clock 0))
    unfold requestHeartbeat
    obtain ⟨timer, htimer⟩ := schedule_eq
      { s with pendingWakes := queuePendingWakeReason s.pendingWakes opts (clock 0) }
      (some (coalesceMs.getD defaultCoalesceMs)) .normal (clock 1)
    rw [htimer]
    exact kept_of_batches h hkept rfl
  | setHandler next now =>
    cases hstep
    obtain ⟨hpending, hbatches, -⟩ := registerHandler_spec s next
    obtain ⟨timer, hset, -⟩ := setHeartbeatWakeHandler_eq s next now
    rw [hset]
    refine kept_of_batches h (fun wake hwake => ?_) hbatches
    show PendingIn (registerHandler s next).pendingWakes wake
    rw [hpending]
    exact hwake
  | dispose disposer =>
    obtain ⟨⟨generation, next⟩, -, rfl⟩ := Option.map_eq_some_iff.mp hstep
    show WakesKept s (dispose s generation next)
    unfold dispose
    split
    · exact kept_of_batches h (fun _ hwake => hwake) rfl
    · split
      · exact kept_of_batches h (fun _ hwake => hwake) rfl
      · exact kept_of_batches h (fun _ hwake => hwake) rfl
  | timerFires clock =>
    cases hstep
    exact timerFires_kept h clock
  | callHandler id =>
    obtain ⟨batch, hfind, rfl⟩ := Option.map_eq_some_iff.mp hstep
    exact callHandler_kept h hfind
  | settles id res clock =>
    obtain ⟨batch, hfind, rfl⟩ := Option.map_eq_some_iff.mp hstep
    cases res with
    | some res => exact handlerReturns_kept h hfind res clock
    | none => exact batchThrows_kept h hfind clock

/-! ## Runs -/

/-- The guard of a step. -/
def StepInTime (s : HeartbeatWakes) (event : WakeEvent) : Prop := AgentOk event ∧ EndsInTime s event

/-- What the dispatcher keeps, seen in one state; `kept` is about every step from it. -/
structure WakesDispatched (s : HeartbeatWakes) : Prop where
  one : ∀ id id', LatestRuns s id → LatestRuns s id' → id = id'
  armed : TimerArmed s
  kept : ∀ event, AgentOk event → WakesKept s (stepWake s event)

theorem fresh_sound : DispatchSound {} :=
  ⟨wakesKeyed_empty, fun _ _ h => by (cases h), fun h => by cases h⟩

theorem fresh_oneBatch : OneBatch {} := oneBatch_of_none fun _ ⟨_, h, _⟩ => by cases h

/-- **The heartbeat wake dispatcher**: in every run in which agent ids contain no colon and no batch of
an earlier handler ends while one of the last handler runs, every state has the three properties. -/
theorem heartbeat_wakes_dispatched (script : List WakeEvent)
    (htime : Guarded stepWake StepInTime {} script) : WakesDispatched (run stepWake {} script) := by
  obtain ⟨hsound, hone⟩ : DispatchSound (run stepWake {} script) ∧ OneBatch (run stepWake {} script) :=
    run_invariant_guarded
      (P := fun s => DispatchSound s ∧ OneBatch s)
      (fun _ _ hguard h => ⟨stepWake_sound hguard.1 h.1, stepWake_oneBatch hguard.2 h.1 h.2⟩)
      script htime ⟨fresh_sound, fresh_oneBatch⟩
  exact ⟨hone.unique, hsound.armed, fun _ hagent => stepWake_kept hagent hsound⟩

/-- A wake for the default target. -/
def plainWake : HeartbeatWakeRequest where
  source := .hook
  intent := .event

/-- A handler takes a wake, is replaced meanwhile, and its batch ends before the new handler's starts. -/
theorem heartbeat_wakes_dispatched_replacement : WakesDispatched (run stepWake {}
      [.setHandler (some 0) 0, .request plainWake none fun _ => 0, .timerFires fun _ => 250,
        .callHandler 0, .setHandler (some 1) 300, .settles 0 (some .ran) fun _ => 400]) := by
  refine heartbeat_wakes_dispatched _ ⟨⟨trivial, trivial⟩, ⟨?_, trivial⟩, ⟨trivial, trivial⟩,
    ⟨trivial, trivial⟩, ⟨trivial, trivial⟩, ⟨trivial, ?_⟩, trivial⟩
  · intro a ha
    cases ha
  · rintro - - - - id ⟨batch, hfind, hlatest⟩
    have hid : id = 0 := by
      by_contra hid
      have hnone : (if id = 0 then _ else if id = 0 then _ else none) = some batch := hfind
      rw [if_neg hid, if_neg hid] at hnone
      cases hnone
    rw [hid] at hfind
    cases hfind
    exact absurd hlatest (by decide)

/-- **A batch of the replaced handler ends late**, while one of the new handler runs: it clears
`running`, and the next timer starts a second batch of the new handler. -/
theorem late_batch_breaks_exclusion : ¬ WakesDispatched (run stepWake {}
      [.setHandler (some 0) 0, .request plainWake none fun _ => 0, .timerFires fun _ => 250,
        .callHandler 0, .setHandler (some 1) 300, .request plainWake none fun _ => 300,
        .timerFires fun _ => 550, .callHandler 1, .settles 0 (some .ran) fun _ => 600,
        .request plainWake none fun _ => 600, .timerFires fun _ => 850]) := by
  intro hdispatched
  have hsame := hdispatched.one 1 2 ⟨_, rfl, rfl⟩ ⟨_, rfl, rfl⟩
  cases hsame

end OpenClaw.Infra.HeartbeatWake
