/-
# OpenClaw.Outbound.SendEvidenceRuns -- every run of recoveries, drains and crashes

The visits of one process exclude each other by the claim, so the visit that holds it runs its program
alone, and the program logic of `SendEvidence` carries over to every interleaving.  A crash forgets the
visits and keeps the row.
-/
import OpenClaw.Outbound.SendEvidence

namespace OpenClaw.Outbound

open OpenClaw.Logic OpenClaw.Logic.Program

/-- The visit is between its claim and its release. -/
def Holds : QueueProgram Phase → Prop
  | .done .unclaimed => False
  | .done .gone => False
  | _ => True

/-- At most one visit holds the entry's claim; a call of `deliver` lies within a claim. -/
def Exclusive (s : QueueSystem) : Prop :=
  ∀ (i j : Nat) (vi vj : Visit), s.visits[i]? = some vi → s.visits[j]? = some vj → Holds vi.control → Holds vj.control →
    i = j

structure SystemSound (P : Prop) (s : QueueSystem) : Prop where
  world : WorldSound P s.world
  exclusive : Exclusive s
  claimed : ∀ (i : Nat) (v : Visit), s.visits[i]? = some v → Holds v.control → s.entriesInProgress = true
  upholds : ∀ (i : Nat) (v : Visit), s.visits[i]? = some v → Holds v.control →
    Upholds respond (WorldSound P) (PhaseSound P) v.control s.world

section Steps

variable {P : Prop} {s s' : QueueSystem}

/-- What a visit is after `setControl`. -/
theorem setControl_visit {i j : Nat} {visit v : Visit} {control : QueueProgram Phase}
    (h : (s.setControl i visit control).visits[j]? = some v) :
    (j = i ∧ v.control = control) ∨ (j ≠ i ∧ s.visits[j]? = some v) := by
  have hset : (s.visits.set i { visit with control })[j]? = some v := h
  rw [List.getElem?_set] at hset
  split at hset
  · rename_i hji
    split at hset
    · cases hset
      exact .inl ⟨hji.symm, rfl⟩
    · cases hset
  · rename_i hji
    exact .inr ⟨fun heq => hji heq.symm, hset⟩

/-- Nobody holds the claim. -/
theorem SystemSound.free (hworld : WorldSound P s.world)
    (hnone : ∀ (i : Nat) (v : Visit), s.visits[i]? = some v → ¬ Holds v.control) : SystemSound P s where
  world := hworld
  exclusive i _ vi _ hi _ hvi _ := absurd hvi (hnone i vi hi)
  claimed i v hv hv' := absurd hv' (hnone i v hv)
  upholds i v hv hv' := absurd hv' (hnone i v hv)

/-- Nobody holds the claim who did not hold it before. -/
theorem SystemSound.fewer (h : SystemSound P s) (hworld : s'.world = s.world)
    (hclaimed : s'.entriesInProgress = s.entriesInProgress)
    (hold : ∀ (i : Nat) (v : Visit), s'.visits[i]? = some v → Holds v.control → s.visits[i]? = some v) :
    SystemSound P s' where
  world := hworld ▸ h.world
  exclusive i j vi vj hi hj hvi hvj := h.exclusive i j vi vj (hold i vi hi hvi) (hold j vj hj hvj) hvi hvj
  claimed i v hv hv' := hclaimed.trans (h.claimed i v (hold i v hv hv') hv')
  upholds i v hv hv' := hworld ▸ h.upholds i v (hold i v hv hv') hv'

/-- **One visit moves and no other holds the claim**, so only its program counts. -/
theorem SystemSound.only {i : Nat} {visit : Visit} {control : QueueProgram Phase}
    (hvisits : s'.visits = (s.setControl i visit control).visits) (hclaimed : s'.entriesInProgress = true)
    (hothers : ∀ (j : Nat) (v : Visit), s.visits[j]? = some v → Holds v.control → j = i) (hworld : WorldSound P s'.world)
    (hupholds : Upholds respond (WorldSound P) (PhaseSound P) control s'.world) : SystemSound P s' := by
  have honly : ∀ (j : Nat) (v : Visit), s'.visits[j]? = some v → Holds v.control → j = i ∧ v.control = control := by
    intro j v hv hv'
    rw [hvisits] at hv
    rcases setControl_visit hv with hmoved | ⟨hji, hold⟩
    · exact hmoved
    · exact absurd (hothers j v hold hv') hji
  refine ⟨hworld, fun j k vj vk hj hk hvj hvk => ?_, fun _ _ _ _ => hclaimed, fun j v hv hv' => ?_⟩
  · exact (honly j vj hj hvj).1.trans (honly k vk hk hvk).1.symm
  · rw [(honly j v hv hv').2]
    exact hupholds

/-- The visit with the claim moves on: the others hold nothing. -/
theorem SystemSound.advance (h : SystemSound P s) {i : Nat} {visit : Visit} {world : QueueWorld}
    {control : QueueProgram Phase} (hvisit : s.visits[i]? = some visit) (hholds : Holds visit.control)
    (hworld : WorldSound P world) (hupholds : Upholds respond (WorldSound P) (PhaseSound P) control world) :
    SystemSound P { s.setControl i visit control with world } :=
  .only rfl (h.claimed i visit hvisit hholds)
    (fun j v hv hv' => h.exclusive j i v visit hv hvisit hv' hholds) hworld hupholds

/-- A visit that lets go, or never got hold, leaves the others as they are. -/
theorem SystemSound.leave (h : SystemSound P s) (i : Nat) (visit : Visit) :
    SystemSound P (s.setControl i visit (.done .gone)) := by
  refine h.fewer rfl rfl fun j v hv hv' => ?_
  rcases setControl_visit hv with ⟨-, hcontrol⟩ | ⟨-, hold⟩
  · rw [hcontrol] at hv'
    exact absurd hv' id
  · exact hold

end Steps

/-- The event resets no recorded evidence. -/
def KeepsEvidence (s : QueueSystem) : QueueEvent → Prop
  | .report i report =>
    ∀ (visit : Visit) (d : Delivery), s.visits[i]? = some visit → visit.control = .done (.delivering d) →
      ResetsEvidence d report = false
  | _ => True

/-- **One step keeps the system sound.** -/
theorem stepQueueSystem?_sound {P : Prop} {s s' : QueueSystem} {event : QueueEvent}
    (hkeeps : P → KeepsEvidence s event) (hstep : stepQueueSystem? s event = some s')
    (h : SystemSound P s) : SystemSound P s' := by
  cases event with
  | visit kind =>
    have hs' : s' = { s with visits := s.visits ++ [{ kind, control := .done .unclaimed }] } := by
      cases kind with
      | live => cases hstep
      | recovery | drain => exact (Option.some.inj hstep).symm
    rw [hs']
    -- The new visit holds nothing yet.
    refine h.fewer rfl rfl fun i v hv hv' => ?_
    rw [List.getElem?_append] at hv
    split at hv
    · exact hv
    · rw [List.getElem?_singleton] at hv
      split at hv
      · cases hv
        exact absurd hv' id
      · cases hv
  | claim i =>
    simp only [stepQueueSystem?, Option.bind_eq_bind, Option.bind_eq_some_iff] at hstep
    obtain ⟨visit, hvisit, hstep⟩ := hstep
    split at hstep
    · split at hstep
      · rw [← Option.some.inj hstep]
        exact h.leave i visit
      · rename_i hfree
        rw [← Option.some.inj hstep]
        refine .only rfl rfl (fun j v hv hv' => absurd (h.claimed j v hv hv') hfree) h.world ?_
        split
        · exact recoverEntry_upholds h.world
        · exact drainEntry_upholds h.world
    · cases hstep
  | reply i chance =>
    simp only [stepQueueSystem?, Option.bind_eq_bind, Option.bind_eq_some_iff] at hstep
    obtain ⟨visit, hvisit, ⟨world, control⟩, hadvance, hstep⟩ := hstep
    rw [← Option.some.inj hstep]
    have hholds : Holds visit.control := by
      cases hcontrol : visit.control with
      | done phase =>
        rw [hcontrol] at hadvance
        cases hadvance
      | call r next => exact trivial
    obtain ⟨hworld, hupholds⟩ := upholds_advance (h.upholds i visit hvisit hholds) hadvance
    exact h.advance hvisit hholds hworld hupholds
  | report i report =>
    simp only [stepQueueSystem?, Option.bind_eq_bind, Option.bind_eq_some_iff] at hstep
    obtain ⟨visit, hvisit, hstep⟩ := hstep
    split at hstep
    · rename_i d hcontrol
      rw [← Option.some.inj hstep]
      have hholds : Holds visit.control := by
        rw [hcontrol]
        exact trivial
      have hflight : InFlight P d s.world := by
        have hupholds := h.upholds i visit hvisit hholds
        rw [hcontrol] at hupholds
        exact hupholds
      exact h.advance hvisit hholds h.world
        (onReport_upholds h.world hflight report fun hp => hkeeps hp visit d hvisit hcontrol)
    · cases hstep
  | release i =>
    simp only [stepQueueSystem?, Option.bind_eq_bind, Option.bind_eq_some_iff] at hstep
    obtain ⟨visit, hvisit, hstep⟩ := hstep
    split at hstep
    · rename_i result hcontrol
      rw [← Option.some.inj hstep]
      have hholds : Holds visit.control := by
        rw [hcontrol]
        exact trivial
      -- It was the only one that held the claim.
      refine .free h.world fun j v hv hv' => ?_
      rcases setControl_visit hv with ⟨-, hgone⟩ | ⟨hji, hold⟩
      · rw [hgone] at hv'
        exact hv'
      · exact hji (h.exclusive j i v visit hold hvisit hv' hholds)
    · cases hstep
  | crash =>
    rw [← Option.some.inj hstep]
    exact .free h.world fun i v hv => by cases hv

theorem enqueuedSystem_sound (P : Prop) (id : String) (now : Int) (params : QueuedDeliveryPayload)
    (claimed : Bool) : SystemSound P (enqueuedSystem (enqueueDelivery id now params) claimed) := by
  have hworld : WorldSound P (enqueuedSystem (enqueueDelivery id now params) claimed).world := by
    refine ⟨fun call hcall => ?_, fun _ hsent => ?_, fun _ call hcall => ?_⟩
    · cases hcall
    · cases hsent
    · cases hcall
  cases claimed with
  | false =>
    exact .free hworld fun i v hv => by cases hv
  | true =>
    have hlive : ∀ (i : Nat) (v : Visit), (enqueuedSystem (enqueueDelivery id now params) true).visits[i]? = some v →
        i = 0 ∧ v.control = callDeliver .live (enqueueDelivery id now params) none := by
      intro i v hv
      have hget : [({ kind := .live, control := callDeliver .live (enqueueDelivery id now params) none }
        : Visit)][i]? = some v := hv
      rw [List.getElem?_singleton] at hget
      split at hget
      · rename_i hi
        exact ⟨hi, by cases hget; rfl⟩
      · cases hget
    refine ⟨hworld, fun i j vi vj hi hj _ _ => ?_, fun _ _ _ _ => rfl, fun i v hv _ => ?_⟩
    · exact (hlive i vi hi).1.trans (hlive j vj hj).1.symm
    · rw [(hlive i v hv).2]
      refine callDeliver_upholds hworld .live rfl ?_ ?_
      · intro hunknown
        cases hunknown
      · intro hstarted
        cases hstarted

theorem run_keepsEvidence {s : QueueSystem} (script : List QueueEvent)
    (hkeeps : Guarded stepQueueSystem KeepsEvidence s script) (h : SystemSound True s) :
    SystemSound True (run stepQueueSystem s script) :=
  run_invariant_guarded
    (fun _ _ hevent hs =>
      skipDisabled_keeps hs fun _ hs' => stepQueueSystem?_sound (fun _ => hevent) hs' hs)
    script hkeeps h

/-- **Send evidence survives** every run none of whose steps resets it. -/
theorem send_evidence_survives (id : String) (now : Int) (params : QueuedDeliveryPayload)
    (claimed : Bool) (script : List QueueEvent)
    (hkeeps : Guarded stepQueueSystem KeepsEvidence
      (enqueuedSystem (enqueueDelivery id now params) claimed) script) :
    let s := run stepQueueSystem (enqueuedSystem (enqueueDelivery id now params) claimed) script
    (s.world.sendRecorded = true → StoredUnknown s.world) ∧
      (∀ call ∈ s.world.delivers, call.sendRecorded = false ∧ call.Reconciled) ∧ Exclusive s := by
  have hsound := run_keepsEvidence script hkeeps (enqueuedSystem_sound True id now params claimed)
  exact ⟨hsound.world.kept trivial,
    fun call hcall => ⟨hsound.world.unsent trivial call hcall, hsound.world.reconciled call hcall⟩,
    hsound.exclusive⟩

/-- One payload, sent in the order a channel reports it. -/
def orderlySend : List QueueEvent :=
  [.reply 0 {}, .report 0 (.sendStart { replyToId := none }), .reply 0 {}, .report 0 .sendDispatch,
    .reply 0 {}, .report 0 (.deliveryResult "m1"), .reply 0 {}, .report 0 (.returned ["m1"])]

theorem send_evidence_survives_orderly :
    let s := run stepQueueSystem
      (enqueuedSystem (enqueueDelivery "q1" 0
        { queuePolicy := some .required, requireUnknownSendReconciliation := false }) true) orderlySend
    (s.world.sendRecorded = true → StoredUnknown s.world) ∧
      (∀ call ∈ s.world.delivers, call.sendRecorded = false ∧ call.Reconciled) ∧ Exclusive s := by
  refine send_evidence_survives "q1" 0 _ true orderlySend ?_
  refine ⟨trivial, fun visit d hvisit hcontrol => ?_, trivial, fun visit d hvisit hcontrol => ?_, trivial,
    fun visit d hvisit hcontrol => ?_, trivial, fun visit d hvisit hcontrol => ?_, trivial⟩
  all_goals
    cases hvisit
    cases hcontrol
    rfl

/-! ## A reset loses the evidence -/

/-- Two payloads through a channel that reports each dispatch, a crash, and a recovery. -/
def secondDispatch : List QueueEvent :=
  [.reply 0 {}, .report 0 (.sendStart { replyToId := none }), .reply 0 {}, .report 0 .sendDispatch,
    .reply 0 {}, .report 0 (.deliveryResult "m1"), .reply 0 {}, .report 0 .sendDispatch, .reply 0 {},
    .crash, .visit .recovery, .claim 0, .reply 0 {}, .reply 0 {}, .reply 0 {}, .reply 0 {},
    .reply 0 { answer := .answered .notSent }, .reply 0 {}]

/-- **The second dispatch** takes the entry back to `send_attempt_started` after the first payload was
recorded as sent, and the recovery delivers the entry again. -/
theorem second_dispatch_loses_evidence :
    let s := run stepQueueSystem
      (enqueuedSystem (enqueueDelivery "q1" 0
        { queuePolicy := some .required, requireUnknownSendReconciliation := false }) true) secondDispatch
    s.world.sendRecorded = true ∧
      s.world.delivers.map (fun call => (call.sendRecorded, call.stored.bind (·.recoveryState)))
        = [(false, none), (true, some .sendAttemptStarted)] := by
  decide

end OpenClaw.Outbound
