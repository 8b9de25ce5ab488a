/-
# OpenClaw.Outbound.SendEvidence -- what was sent is not sent again

Once a write has recorded that some payload was sent, the entry must stay `unknown_after_send` until it
leaves the queue, for that state is all that keeps a later recovery from a blind replay.  Three writers
set the state back, whatever it was; `ResetsEvidence` says when a delivery that has recorded a result
calls one of them.  As long as no step does, the evidence survives every run (`send_evidence_survives`).

`P` stands for "no step so far reset evidence".  What holds without it, that a process never overlaps two
deliveries and that a started attempt is replayed only as `not_sent`, is proved of all runs alike.
-/
import OpenClaw.Outbound.DeliveryQueueRecovery

namespace OpenClaw.Outbound

open OpenClaw.Logic OpenClaw.Logic.Program

/-! ## The world -/

/-- A pending entry is stored as `unknown_after_send`. -/
def StoredUnknown (w : QueueWorld) : Prop :=
  ∀ entry, loadDeliveryQueueEntry w.store = some entry → entry.recoveryState = some .unknownAfterSend

/-- A started attempt was delivered again only after its adapter answered `not_sent`. -/
def DeliverCall.Reconciled (call : DeliverCall) : Prop :=
  ∀ entry, call.stored = some entry → entry.recoveryState = some .sendAttemptStarted →
    call.reconciliation = some .notSent

structure WorldSound (P : Prop) (w : QueueWorld) : Prop where
  reconciled : ∀ call ∈ w.delivers, call.Reconciled
  kept : P → w.sendRecorded = true → StoredUnknown w
  unsent : P → ∀ call ∈ w.delivers, call.sendRecorded = false

/-- `w'` is `w` after the write. -/
structure Wrote (w : QueueWorld) (write : QueueWrite) (w' : QueueWorld) : Prop where
  store : ∃ now, performWrite w.store w.id now write = .ok w'.store
  recorded : w'.sendRecorded = (w.sendRecorded || write.recordsSend)
  delivers : w'.delivers = w.delivers

variable {write : QueueWrite}

theorem Wrote.unknown {w w' : QueueWorld} (h : Wrote w write w') (hunknown : write.recordsSend = true ∨
    write.resets = false ∧ StoredUnknown w) : StoredUnknown w' := by
  intro entry hentry
  obtain ⟨now, hwrite⟩ := h.store
  obtain ⟨before, hbefore, hrecords, hresets⟩ := performWrite_pending hwrite hentry
  rcases hunknown with hunknown | ⟨hkeeps, hunknown⟩
  · exact hrecords hunknown
  · rcases hresets hkeeps with hsame | hsame
    · rw [hsame]
      exact hunknown before hbefore
    · exact hsame

/-- A write that does not reset, or that meets no evidence, keeps the world sound. -/
theorem Wrote.sound {P : Prop} {w w' : QueueWorld} (h : Wrote w write w') (hw : WorldSound P w)
    (hreset : P → write.resets = true → w.sendRecorded = true → loadDeliveryQueueEntry w.store = none) :
    WorldSound P w' := by
  refine ⟨h.delivers ▸ hw.reconciled, fun hp hrecorded => ?_, h.delivers ▸ hw.unsent⟩
  rw [h.recorded, Bool.or_eq_true] at hrecorded
  rcases hrecorded with hbefore | hrecords
  · cases hresets : write.resets with
    | false => exact h.unknown (.inr ⟨hresets, hw.kept hp hbefore⟩)
    | true =>
      -- The row is not pending, so it is not pending afterwards.
      have hnone := hreset hp hresets hbefore
      intro entry hentry
      obtain ⟨now, hwrite⟩ := h.store
      obtain ⟨before, hpending, -⟩ := performWrite_pending hwrite hentry
      rw [hnone] at hpending
      cases hpending
  · exact h.unknown (.inl hrecords)

section Programs

variable {P : Prop} {w : QueueWorld}

/-- **The rule of a write**: it fails and changes nothing, or it is carried out. -/
theorem upholds_writeQueue {Q : Except QueueError Unit → QueueWorld → Prop} (write : QueueWrite) (hw : WorldSound P w)
    (hreset : P → write.resets = true → w.sendRecorded = true → loadDeliveryQueueEntry w.store = none)
    (herror : ∀ err, Q (.error err) w) (hok : ∀ w', WorldSound P w' → Wrote w write w' → Q (.ok ()) w') :
    Upholds respond (WorldSound P) Q (writeQueue write) w := by
  intro chance
  show WorldSound P (respond w (.write write) chance).1 ∧
    Q (respond w (.write write) chance).2 (respond w (.write write) chance).1
  simp only [respond]
  split
  · exact ⟨hw, herror _⟩
  · split
    · exact ⟨hw, herror _⟩
    · rename_i store hwrite
      have hwrote : Wrote w write
          { w with store, sendRecorded := w.sendRecorded || write.recordsSend } :=
        ⟨⟨_, hwrite⟩, rfl, rfl⟩
      have hsound := hwrote.sound hw hreset
      exact ⟨hsound, hok _ hsound hwrote⟩

end Programs

/-! ## A delivery under way -/

/-- The delivery has written that a result was reported. -/
def Delivery.Recorded (d : Delivery) : Prop := d.postSendState = some .marked ∨ d.postSendState = some .failed

instance (d : Delivery) : Decidable d.Recorded := inferInstanceAs (Decidable (_ ∨ _))

/-- The report makes the delivery reset the evidence it has recorded: a dispatch or a first start after
a recorded result, or a return without results after failures that are all proven not sent. -/
def ResetsEvidence (d : Delivery) : AdapterReport → Bool
  | .sendStart _ => !d.exactReconciliationRequired && d.queuedPreSendState = none && d.Recorded
  | .sendDispatch => d.queuedPreSendState ≠ some .acked && d.Recorded
  | .returned results =>
    match d.owner with
    | .live =>
      d.hadPartialFailure && results = [] && !d.lastPayloadError.any (·.sentBeforeError) &&
        d.partialFailuresAreProvenNotSent && d.postSendState = some .marked
    | .recovery =>
      d.failedOutcomes ≠ [] && results = [] && !d.failedOutcomes.any (·.sentBeforeError) &&
        d.failedOutcomes.all (·.error.provenNotSent) && d.Recorded
  | _ => false

/-- What a delivery's variables say of the world. -/
structure InFlight (P : Prop) (d : Delivery) (w : QueueWorld) : Prop where
  reported : d.Recorded → d.deliveredResults ≠ []
  recorded : P → w.sendRecorded = true → loadDeliveryQueueEntry w.store ≠ none → d.Recorded
  pending : P → d.Recorded → w.sendRecorded = true ∧ loadDeliveryQueueEntry w.store ≠ none

/-- What a visit's phase says of the world, while the visit holds the claim. -/
def PhaseSound (P : Prop) : Phase → QueueWorld → Prop
  | .delivering d, w => InFlight P d w
  | .finished _, _ => True
  | .unclaimed, _ => False
  | .gone, _ => False

section Deliveries

variable {P : Prop} {w : QueueWorld} {d : Delivery}

/-- Without a recorded result, a reset meets no evidence. -/
theorem InFlight.unrecorded (h : InFlight P d w) (hnot : ¬ d.Recorded) (hp : P)
    (hsent : w.sendRecorded = true) : loadDeliveryQueueEntry w.store = none := by
  cases hrow : loadDeliveryQueueEntry w.store with
  | none => rfl
  | some entry =>
    have hpending : loadDeliveryQueueEntry w.store ≠ none := by simp [hrow]
    exact absurd (h.recorded hp hsent hpending) hnot

/-- The world is told by the post-send state, not by the other variables. -/
theorem InFlight.of_same {d' : Delivery} (h : InFlight P d w) (hstate : d'.postSendState = d.postSendState)
    (hresults : d.deliveredResults ≠ [] → d'.deliveredResults ≠ []) : InFlight P d' w := by
  have hsame : d'.Recorded ↔ d.Recorded := by
    unfold Delivery.Recorded
    rw [hstate]
  refine ⟨fun hrec => hresults (h.reported (hsame.mp hrec)), fun hp hsent hrow => ?_,
    fun hp hrec => h.pending hp (hsame.mp hrec)⟩
  exact hsame.mpr (h.recorded hp hsent hrow)

/-- The variables after a post-send state was written. -/
theorem InFlight.of_persisted {state : PostSendState} (hstate : d.postSendState = some state)
    (hresults : d.deliveredResults ≠ []) (hack : state ≠ .acked) (hsent : w.sendRecorded = true)
    (hrow : loadDeliveryQueueEntry w.store ≠ none) : InFlight P d w := by
  refine ⟨fun _ => hresults, fun _ _ _ => ?_, fun _ _ => ⟨hsent, hrow⟩⟩
  cases state with
  | marked => exact .inl hstate
  | acked => exact absurd rfl hack
  | failed => exact .inr hstate

/-- Once the row is gone, there is nothing left to record. -/
theorem InFlight.of_gone (hreported : d.Recorded → d.deliveredResults ≠ []) (hnot : P → ¬ d.Recorded)
    (hnone : loadDeliveryQueueEntry w.store = none) : InFlight P d w :=
  ⟨hreported, fun _ _ hrow => absurd hnone hrow, fun hp hrec => absurd hrec (hnot hp)⟩

/-- A write other than an acknowledgement needs a pending row. -/
theorem Wrote.wasPending {w' : QueueWorld} (h : Wrote w write w') (hack : write ≠ .ackDelivery) :
    loadDeliveryQueueEntry w.store ≠ none := by
  obtain ⟨now, hperform⟩ := h.store
  intro hnone
  cases write <;>
    simp_all [performWrite, updateDeliveryQueueEntry, moveDeliveryQueueEntryToFailed]

/-- After a reset there is no evidence, for there was none. -/
theorem InFlight.of_reset {d' : Delivery} {w' : QueueWorld} (h : InFlight P d w) (hwrote : Wrote w write w')
    (hack : write ≠ .ackDelivery) (hrecords : write.recordsSend = false) (hnot : P → ¬ d.Recorded)
    (hstate : d'.postSendState = d.postSendState) (hresults : d'.deliveredResults = d.deliveredResults) :
    InFlight P d' w' := by
  have hsame : d'.Recorded ↔ d.Recorded := by
    unfold Delivery.Recorded
    rw [hstate]
  refine ⟨fun hrec => hresults ▸ h.reported (hsame.mp hrec), fun hp hsent _ => ?_,
    fun hp hrec => absurd (hsame.mp hrec) (hnot hp)⟩
  rw [hwrote.recorded, hrecords, Bool.or_false] at hsent
  exact absurd (h.unrecorded (hnot hp) hp hsent) (hwrote.wasPending hack)

theorem Wrote.ackDelivery {w' : QueueWorld} (h : Wrote w .ackDelivery w') : loadDeliveryQueueEntry w'.store = none := by
  obtain ⟨now, hwrite⟩ := h.store
  simp only [performWrite, Except.ok.injEq] at hwrite
  rw [← hwrite]
  unfold deleteDeliveryQueueEntry
  split
  · rfl
  · rename_i hnone
    simpa using hnone

theorem Wrote.updated {w' : QueueWorld} (h : Wrote w write w') (hwrite : write.recordsSend = true)
    (hack : write ≠ .ackDelivery) : w'.sendRecorded = true ∧ loadDeliveryQueueEntry w'.store ≠ none := by
  refine ⟨by rw [h.recorded, hwrite, Bool.or_true], ?_⟩
  obtain ⟨now, hperform⟩ := h.store
  have hupdate : ∀ update, updateDeliveryQueueEntry w.store w.id update = .ok w'.store →
      loadDeliveryQueueEntry w'.store ≠ none := by
    intro update hok
    unfold updateDeliveryQueueEntry at hok
    split at hok
    · cases hok
    · rw [← Except.ok.inj hok]
      exact Option.some_ne_none _
  cases write with
  | ackDelivery => exact absurd rfl hack
  | failDeliveryAfterPlatformSend error => exact hupdate _ hperform
  | markDeliveryPlatformOutcomeUnknown => exact hupdate _ hperform
  | _ => cases hwrite

/-- **The post-send state** says what became of the row; if every write fails, nothing did. -/
theorem persistQueuedPostSendState_upholds {Q : Except QueueError PostSendState → QueueWorld → Prop}
    (hw : WorldSound P w) (herror : ∀ err, Q (.error err) w)
    (hacked : ∀ w', WorldSound P w' → loadDeliveryQueueEntry w'.store = none → Q (.ok .acked) w')
    (hpending : ∀ w' state, WorldSound P w' → state ≠ .acked → w'.sendRecorded = true →
      loadDeliveryQueueEntry w'.store ≠ none → Q (.ok state) w') :
    Upholds respond (WorldSound P) Q persistQueuedPostSendState w := by
  unfold persistQueuedPostSendState
  rw [upholds_bind]
  refine upholds_writeQueue _ hw (fun _ hfalse => by cases hfalse) (fun markErr => ?_) ?_
  · rw [upholds_bind]
    refine upholds_writeQueue _ hw (fun _ hfalse => by cases hfalse) (fun ackErr => ?_) ?_
    · rw [upholds_bind]
      refine upholds_writeQueue _ hw (fun _ hfalse => by cases hfalse) (fun err => herror err) ?_
      intro w' hw' hwrote
      obtain ⟨hsent, hrow⟩ := hwrote.updated rfl (by simp)
      exact hpending w' .failed hw' (by simp) hsent hrow
    · intro w' hw' hwrote
      exact hacked w' hw' hwrote.ackDelivery
  · intro w' hw' hwrote
    obtain ⟨hsent, hrow⟩ := hwrote.updated rfl (by simp)
    exact hpending w' .marked hw' (by simp) hsent hrow

/-! ### The callbacks -/

theorem onDeliveryResult_upholds (hw : WorldSound P w) (h : InFlight P d w) (result : String) :
    Upholds respond (WorldSound P) (fun d w => PhaseSound P (.delivering d) w) (onDeliveryResult d result) w := by
  have hlonger : d.deliveredResults ++ [result] ≠ [] := by simp
  have hfails : InFlight P { d with deliveredResults := d.deliveredResults ++ [result] } w :=
    h.of_same rfl fun _ => hlonger
  unfold onDeliveryResult
  rw [upholds_bind]
  unfold orPersist
  dsimp only
  split
  · rename_i state hstate
    rw [upholds_pure]
    exact h.of_same hstate.symm fun _ => hlonger
  · refine persistQueuedPostSendState_upholds hw (fun err => hfails) ?_ ?_
    · intro w' _ hnone
      refine InFlight.of_gone (fun _ => hlonger) (fun _ => ?_) hnone
      rintro (hrec | hrec) <;> cases hrec
    · intro w' state _ hack hsent hrow
      exact InFlight.of_persisted rfl hlonger hack hsent hrow

/-- **A start** before any pre-send state writes the marker; it meets no recorded result. -/
theorem onPlatformSendStart_upholds (hw : WorldSound P w) (h : InFlight P d w)
    (route : PlatformSendRoute) (hkeeps : P → ResetsEvidence d (.sendStart route) = false) :
    Upholds respond (WorldSound P) (fun d w => PhaseSound P (.delivering d) w) (onPlatformSendStart d route) w := by
  have hroute : InFlight P { d with platformSendRoute := some route } w := h.of_same rfl id
  unfold onPlatformSendStart
  dsimp only
  split
  · rename_i hfirst
    have hnot : P → ¬ d.Recorded := by
      intro hp hrec
      have hfalse := hkeeps hp
      simp only [ResetsEvidence, Bool.and_eq_false_iff] at hfalse
      simp_all [Delivery.exactReconciliationRequired]
    have hreset : P → w.sendRecorded = true → loadDeliveryQueueEntry w.store = none :=
      fun hp => h.unrecorded (hnot hp) hp
    rw [upholds_bind]
    unfold persistQueuedPreSendState
    dsimp only
    rw [upholds_bind]
    refine upholds_writeQueue _ hw (fun hp _ => hreset hp) (fun markErr => ?_) ?_
    · -- The marker failed: a required delivery throws, a best-effort one drops the intent.
      dsimp only
      split
      · exact hroute
      · rw [upholds_bind]
        refine upholds_writeQueue _ hw (fun _ hfalse => by cases hfalse) (fun ackErr => hroute) ?_
        intro w' _ hwrote
        have hnone := hwrote.ackDelivery
        dsimp only
        rw [upholds_pure]
        dsimp only
        split
        · refine InFlight.of_gone ?_ (fun _ => ?_) hnone
          · rintro (hrec | hrec) <;> cases hrec
          · rintro (hrec | hrec) <;> cases hrec
        · exact InFlight.of_gone h.reported hnot hnone
    · intro w' _ hwrote
      dsimp only
      rw [upholds_pure]
      dsimp only
      split
      · rename_i hacked
        simp at hacked
      · exact h.of_reset hwrote (by simp) rfl hnot rfl rfl
  · exact hroute

/-- **A dispatch** writes its marker each time; it meets no recorded result. -/
theorem onPlatformSendDispatch_upholds (hw : WorldSound P w) (h : InFlight P d w)
    (hkeeps : P → ResetsEvidence d .sendDispatch = false) :
    Upholds respond (WorldSound P) (fun d w => PhaseSound P (.delivering d) w) (onPlatformSendDispatch d) w := by
  unfold onPlatformSendDispatch
  split
  · rename_i hopen
    have hnot : P → ¬ d.Recorded := by
      intro hp hrec
      have hfalse := hkeeps hp
      simp_all [ResetsEvidence]
    rw [upholds_bind]
    refine upholds_writeQueue _ hw (fun hp _ => h.unrecorded (hnot hp) hp) (fun _ => h) ?_
    intro w' _ hwrote
    exact h.of_reset hwrote (by simp) rfl hnot rfl rfl
  · exact h

/-! ### The end of a live send -/

/-- After the last write of a visit, only the world counts. -/
theorem upholds_lastWrite {f : Except QueueError Unit → QueueProgram Phase} (write : QueueWrite) (hw : WorldSound P w)
    (hreset : P → write.resets = true → w.sendRecorded = true → loadDeliveryQueueEntry w.store = none)
    (hend : ∀ reply, ∃ result, f reply = .done (.finished result)) :
    Upholds respond (WorldSound P) (PhaseSound P) (writeQueue write >>= f) w := by
  rw [upholds_bind]
  have hdone : ∀ reply w', Upholds respond (WorldSound P) (PhaseSound P) (f reply) w' := by
    intro reply w'
    obtain ⟨result, hresult⟩ := hend reply
    rw [hresult]
    exact trivial
  exact upholds_writeQueue write hw hreset (fun err => hdone _ _) fun w' _ _ => hdone _ _

theorem livePartialFailure_upholds (hw : WorldSound P w) (evidence : Bool) (state : Option PostSendState)
    (hreset : P → evidence = false → d.partialFailuresAreProvenNotSent = true →
      (state = none ∨ state = some .marked) → w.sendRecorded = true → loadDeliveryQueueEntry w.store = none) :
    Upholds respond (WorldSound P) (PhaseSound P) (livePartialFailure d evidence state) w := by
  unfold livePartialFailure
  split
  · rename_i hstate
    dsimp only
    refine upholds_lastWrite _ hw (fun hp hresets hsent => ?_) fun _ => ⟨_, rfl⟩
    cases hevidence : evidence <;> cases hproven : d.partialFailuresAreProvenNotSent <;>
      simp [hevidence, hproven, QueueWrite.resets] at hresets
    exact hreset hp hevidence hproven hstate hsent
  · exact trivial

theorem liveAcknowledge_upholds (hw : WorldSound P w) (results : List String) :
    Upholds respond (WorldSound P) (PhaseSound P) (liveAcknowledge d results) w := by
  unfold liveAcknowledge
  rw [upholds_bind]
  refine upholds_writeQueue _ hw (fun _ hfalse => by cases hfalse) (fun err => ?_) ?_
  · dsimp only
    refine upholds_lastWrite _ hw (fun _ hresets => ?_) fun _ => ?_
    · split at hresets <;> cases hresets
    · split
      · exact ⟨_, rfl⟩
      · exact ⟨_, rfl⟩
  · intro w' _ _
    exact trivial

/-- **A live send returns** and resets nothing that was recorded. -/
theorem liveReturned_upholds (hw : WorldSound P w) (h : InFlight P d w) (hlive : d.owner = .live)
    (results : List String) (hkeeps : P → ResetsEvidence d (.returned results) = false) :
    Upholds respond (WorldSound P) (PhaseSound P) (liveReturned d results) w := by
  unfold liveReturned
  split
  · rename_i hsome
    dsimp only
    split
    · rename_i state hstate
      refine livePartialFailure_upholds hw _ _ fun hp hevidence hproven hmarked hsent => ?_
      -- The guard refuses a marked state here, and no other state writes.
      have hfalse := hkeeps hp
      simp only [ResetsEvidence, hlive] at hfalse
      simp_all
    · rename_i hnone
      have hnot : ¬ d.Recorded := by
        rintro (hrec | hrec) <;> simp [hnone] at hrec
      split
      · rename_i hevidence
        rw [upholds_bind]
        refine persistQueuedPostSendState_upholds hw (fun err => trivial) ?_ ?_
        · intro w' hw' _
          refine livePartialFailure_upholds hw' _ _ fun _ hfalse => ?_
          rw [hevidence] at hfalse
          cases hfalse
        · intro w' state hw' _ _ _
          refine livePartialFailure_upholds hw' _ _ fun _ hfalse => ?_
          rw [hevidence] at hfalse
          cases hfalse
      · exact livePartialFailure_upholds hw _ _ fun hp _ _ _ hsent => h.unrecorded hnot hp hsent
  · split
    · exact liveAcknowledge_upholds hw results
    · exact trivial
    · split
      · rw [upholds_bind]
        refine persistQueuedPostSendState_upholds hw (fun err => trivial) ?_ ?_
        · intro w' _ _
          exact trivial
        · intro w' state hw' _ _ _
          cases state with
          | marked => exact liveAcknowledge_upholds hw' results
          | acked | failed => exact trivial
      · split
        · exact trivial
        · exact liveAcknowledge_upholds hw results

/-- **A live send throws**: with evidence it is kept, and without there is none to lose. -/
theorem liveThrew_upholds (hw : WorldSound P w) (h : InFlight P d w) (err : DeliveryError) :
    Upholds respond (WorldSound P) (PhaseSound P) (liveThrew d err) w := by
  unfold liveThrew
  dsimp only
  split
  · exact upholds_lastWrite _ hw (fun _ hfalse => by cases hfalse) fun _ => ⟨_, rfl⟩
  · split
    · have hfail : ∀ w', WorldSound P w' → Upholds respond (WorldSound P) (PhaseSound P)
          (do
            let _ ← writeQueue (.failDeliveryAfterPlatformSend err.message)
            return .finished .threw) w' := fun w' hw' =>
        upholds_lastWrite _ hw' (fun _ hfalse => by cases hfalse) fun _ => ⟨_, rfl⟩
      rw [upholds_bind]
      unfold orPersist
      split
      · rename_i state _
        cases state with
        | marked => exact hfail w hw
        | acked | failed => exact trivial
      · refine persistQueuedPostSendState_upholds hw (fun _ => trivial) (fun _ _ _ => trivial) ?_
        intro w' state hw' _ _ _
        cases state with
        | marked => exact hfail w' hw'
        | acked | failed => exact trivial
    · rename_i hnoEvidence
      have hnot : ¬ d.Recorded := by
        intro hrec
        have hresults := resultsAfter_ne_nil (h.reported hrec) err
        simp [hresults] at hnoEvidence
      split
      · exact trivial
      · refine upholds_lastWrite _ hw (fun hp _ hsent => ?_) fun _ => ⟨_, rfl⟩
        exact h.unrecorded hnot hp hsent

/-! ### The end of a recovered send -/

/-- **A recovered send throws**: with evidence it is kept, and without there is none to lose. -/
theorem recoveryThrew_upholds (hw : WorldSound P w) (h : InFlight P d w) (err : DeliveryError) :
    Upholds respond (WorldSound P) (PhaseSound P) (recoveryThrew d err) w := by
  unfold recoveryThrew
  dsimp only
  split
  · rw [upholds_bind]
    unfold orPersist
    split
    · exact trivial
    · exact persistQueuedPostSendState_upholds hw (fun _ => trivial) (fun _ _ _ => trivial)
        fun _ _ _ _ _ _ => trivial
  · rename_i hnoEvidence
    have hnot : ¬ d.Recorded := by
      intro hrec
      have hresults := resultsAfter_ne_nil (h.reported hrec) err
      simp [hresults] at hnoEvidence
    intro chance
    cases hdatabase : chance.databaseError with
    | some databaseError =>
      simp only [respond, hdatabase]
      exact ⟨hw, trivial⟩
    | none =>
      simp only [respond, hdatabase]
      refine ⟨hw, ?_⟩
      cases loadDeliveryQueueEntry w.store with
      | none => exact trivial
      | some entry =>
        show Upholds respond (WorldSound P) (PhaseSound P) (if isPermanentDeliveryError err.message then _ else _) w
        split
        · refine upholds_lastWrite _ hw (fun _ hfalse => by cases hfalse) fun reply => ?_
          cases reply with
          | ok _ => exact ⟨_, rfl⟩
          | error moveErr => exact ⟨_, rfl⟩
        · refine upholds_lastWrite _ hw (fun hp _ hsent => h.unrecorded hnot hp hsent)
            fun reply => ?_
          cases reply with
          | ok _ => exact ⟨_, rfl⟩
          | error failErr => exact ⟨_, rfl⟩

theorem recoveryAcknowledge_upholds (hw : WorldSound P w) (h : InFlight P d w) (results : List String) :
    Upholds respond (WorldSound P) (PhaseSound P) (recoveryAcknowledge d results) w := by
  unfold recoveryAcknowledge
  rw [upholds_bind]
  refine upholds_writeQueue _ hw (fun _ hfalse => by cases hfalse) (fun ackErr => ?_) ?_
  · dsimp only
    rw [upholds_bind]
    refine upholds_writeQueue _ hw (fun _ hresets => ?_) (fun err => ?_) fun _ _ _ => trivial
    · split at hresets <;> cases hresets
    · exact recoveryThrew_upholds hw h _
  · intro w' _ _
    exact trivial

theorem settleRecovered_upholds (hw : WorldSound P w) (h : InFlight P d w) (results : List String)
    (hreported : results ≠ [] → d.deliveredResults ≠ [])
    (hnot : P → d.failedOutcomes ≠ [] → results = [] → d.failedOutcomes.any (·.sentBeforeError) = false →
      d.failedOutcomes.all (·.error.provenNotSent) = true → ¬ d.Recorded) :
    Upholds respond (WorldSound P) (PhaseSound P) (settleRecovered d results) w := by
  unfold settleRecovered
  split
  · rename_i failedOutcome rest houtcomes
    split
    · rw [upholds_bind]
      unfold orPersist
      split
      · exact trivial
      · exact persistQueuedPostSendState_upholds hw (fun err => recoveryThrew_upholds hw h _)
          (fun _ _ _ => trivial) fun _ _ _ _ _ _ => trivial
    · rename_i hnoEvidence
      rw [Bool.or_eq_true, not_or, decide_eq_true_eq, ne_eq, not_not, Bool.not_eq_true] at hnoEvidence
      dsimp only
      rw [upholds_bind]
      refine upholds_writeQueue _ hw (fun hp hresets hsent => ?_)
        (fun err => recoveryThrew_upholds hw h _) fun _ _ _ => trivial
      split at hresets
      · rename_i hproven
        have hfailed : d.failedOutcomes ≠ [] := by
          rw [houtcomes]
          exact List.cons_ne_nil _ _
        exact h.unrecorded (hnot hp hfailed hnoEvidence.1 hnoEvidence.2 hproven) hp hsent
      · cases hresets
  · split
    · exact trivial
    · exact trivial
    · exact recoveryAcknowledge_upholds hw h results
    · split
      · rename_i hresults
        rw [upholds_bind]
        refine persistQueuedPostSendState_upholds hw (fun err => recoveryThrew_upholds hw h _)
          (fun _ _ _ => trivial) ?_
        intro w' state hw' hack hsent hrow
        cases state with
        | marked =>
          refine recoveryAcknowledge_upholds hw' ?_ results
          exact InFlight.of_persisted rfl (hreported hresults) hack hsent hrow
        | acked | failed => exact trivial
      · exact recoveryAcknowledge_upholds hw h results

/-- **A recovered send returns** and resets nothing that was recorded. -/
theorem recoveryReturned_upholds (hw : WorldSound P w) (h : InFlight P d w)
    (hrecovery : d.owner = .recovery) (results : List String)
    (hkeeps : P → ResetsEvidence d (.returned results) = false) :
    Upholds respond (WorldSound P) (PhaseSound P) (recoveryReturned d results) w := by
  have hafter : InFlight P
      { d with deliveredResults := if results ≠ [] then results else d.deliveredResults } w := by
    refine h.of_same rfl fun hresults => ?_
    dsimp only
    split
    · assumption
    · exact hresults
  unfold recoveryReturned
  refine settleRecovered_upholds hw hafter results (fun hresults => ?_) ?_
  · dsimp only
    rw [if_pos hresults]
    exact hresults
  · intro hp hfailed hresults hsent hproven hrec
    have htrue : ResetsEvidence d (.returned results) = true := by
      simp only [ResetsEvidence, hrecovery, Bool.and_eq_true, decide_eq_true_eq, Bool.not_eq_true']
      exact ⟨⟨⟨⟨hfailed, hresults⟩, hsent⟩, hproven⟩, hrec⟩
    rw [hkeeps hp] at htrue
    cases htrue

/-- **Every report** is answered soundly. -/
theorem onReport_upholds (hw : WorldSound P w) (h : InFlight P d w) (report : AdapterReport)
    (hkeeps : P → ResetsEvidence d report = false) :
    Upholds respond (WorldSound P) (PhaseSound P) (onReport d report) w := by
  cases report with
  | sendStart route => exact upholds_bind.mpr (onPlatformSendStart_upholds hw h route hkeeps)
  | sendDispatch => exact upholds_bind.mpr (onPlatformSendDispatch_upholds hw h hkeeps)
  | deliveryResult result => exact upholds_bind.mpr (onDeliveryResult_upholds hw h result)
  | payloadError err => exact h.of_same rfl id
  | payloadFailed failure => exact h.of_same rfl id
  | returned results =>
    cases howner : d.owner with
    | live =>
      simp only [onReport, howner]
      exact liveReturned_upholds hw h howner results hkeeps
    | recovery =>
      simp only [onReport, howner]
      exact recoveryReturned_upholds hw h howner results hkeeps
  | threw err =>
    cases howner : d.owner with
    | live =>
      simp only [onReport, howner]
      exact liveThrew_upholds hw h err
    | recovery =>
      simp only [onReport, howner]
      exact recoveryThrew_upholds hw h err

/-! ### Up to the call of deliver -/

/-- The visit holds the row as it read it. -/
def InHand (entry : QueuedDelivery) (w : QueueWorld) : Prop := loadDeliveryQueueEntry w.store = some entry

/-- **A call of `deliver`** with a row that shows no send, or whose attempt was reconciled. -/
theorem callDeliver_upholds {entry : QueuedDelivery} {reconciliation : Option Reconciliation}
    (hw : WorldSound P w) (owner : DeliveryOwner) (hhand : InHand entry w)
    (hunsent : entry.recoveryState ≠ some .unknownAfterSend)
    (hreconciled : entry.recoveryState = some .sendAttemptStarted → reconciliation = some .notSent) :
    Upholds respond (WorldSound P) (PhaseSound P) (callDeliver owner entry reconciliation) w := by
  have hnotSent : P → w.sendRecorded = false := by
    intro hp
    cases hsent : w.sendRecorded with
    | false => rfl
    | true => exact absurd (hw.kept hp hsent entry hhand) hunsent
  intro chance
  refine ⟨⟨fun call hcall => ?_, hw.kept, fun hp call hcall => ?_⟩, ?_⟩
  · rcases List.mem_append.mp hcall with hold | hnew
    · exact hw.reconciled call hold
    · rw [List.mem_singleton.mp hnew]
      intro stored hstored
      rw [show loadDeliveryQueueEntry w.store = some entry from hhand] at hstored
      cases hstored
      exact hreconciled
  · rcases List.mem_append.mp hcall with hold | hnew
    · exact hw.unsent hp call hold
    · rw [List.mem_singleton.mp hnew]
      exact hnotSent hp
  · refine ⟨fun hrec => ?_, fun hp hsent _ => ?_, fun _ hrec => ?_⟩
    · rcases hrec with hrec | hrec <;> cases hrec
    · have hfalse := hnotSent hp
      rw [show w.sendRecorded = true from hsent] at hfalse
      cases hfalse
    · rcases hrec with hrec | hrec <;> cases hrec

/-- A request that only asks leaves the world to the rest of the program. -/
theorem upholds_ask {r : QueueRequest} {next : QueueReply r → QueueProgram Phase}
    (hw : WorldSound P w) (hask : ∀ chance, (respond w r chance).1 = w)
    (hnext : ∀ reply, Upholds respond (WorldSound P) (PhaseSound P) (next reply) w) :
    Upholds respond (WorldSound P) (PhaseSound P) (.call r next) w := by
  intro chance
  rw [hask chance]
  exact ⟨hw, hnext _⟩

theorem drainQueuedEntry_upholds {entry : QueuedDelivery} (hw : WorldSound P w) (hhand : InHand entry w) :
    Upholds respond (WorldSound P) (PhaseSound P) (drainQueuedEntry entry) w := by
  unfold drainQueuedEntry
  split
  · rename_i hnone
    refine callDeliver_upholds hw _ hhand ?_ ?_
    · rw [hnone]
      simp
    · rw [hnone]
      intro hfalse
      cases hfalse
  · rename_i state hstate
    have hbranches : ∀ reconciliation : Option Reconciliation,
        Upholds respond (WorldSound P) (PhaseSound P)
          (if reconciliation = some .sent then ackReconciledSent
          else if reconciliation = some .notSent ∧ state = .sendAttemptStarted then
            callDeliver .recovery entry reconciliation
          else refuseBlindReplay state reconciliation) w := by
      intro reconciliation
      split
      · unfold ackReconciledSent
        rw [upholds_bind]
        refine upholds_writeQueue _ hw (fun _ hfalse => by cases hfalse) (fun ackErr => ?_)
          fun _ _ _ => trivial
        dsimp only
        split
        · exact trivial
        · refine upholds_lastWrite _ hw (fun _ hfalse => by cases hfalse) fun reply => ?_
          cases reply with
          | ok _ => exact ⟨_, rfl⟩
          | error failErr => exact ⟨_, rfl⟩
      · split
        · rename_i hreplay
          refine callDeliver_upholds hw _ hhand ?_ fun _ => hreplay.1
          rw [hstate, hreplay.2]
          simp
        · unfold refuseBlindReplay
          dsimp only
          split
          · split
            · refine upholds_lastWrite _ hw (fun _ hfalse => by cases hfalse) fun reply => ?_
              cases reply with
              | ok _ => exact ⟨_, rfl⟩
              | error failErr => exact ⟨_, rfl⟩
            · refine upholds_lastWrite _ hw (fun _ hfalse => by cases hfalse) fun reply => ?_
              cases reply with
              | ok _ => exact ⟨_, rfl⟩
              | error moveErr => exact ⟨_, rfl⟩
          · refine upholds_lastWrite _ hw (fun _ hfalse => by cases hfalse) fun reply => ?_
            cases reply with
            | ok _ => exact ⟨_, rfl⟩
            | error moveErr => exact ⟨_, rfl⟩
    rw [upholds_bind]
    intro chance
    refine ⟨hw, ?_⟩
    cases hanswer : chance.answer with
    | unsupported =>
      simp only [respond, hanswer]
      exact hbranches none
    | answered reconciliation =>
      simp only [respond, hanswer]
      exact hbranches (some reconciliation)
    | threw error =>
      simp only [respond, hanswer]
      exact hbranches (some (.unresolved (some error) true))

/-- A failed load, or an entry that is gone, ends the visit. -/
theorem upholds_load {f : Except QueueError (Option QueuedDelivery) → QueueProgram Phase} (hw : WorldSound P w)
    (hfound : ∀ entry, InHand entry w → Upholds respond (WorldSound P) (PhaseSound P) (f (.ok (some entry))) w)
    (hmissing : Upholds respond (WorldSound P) (PhaseSound P) (f (.ok none)) w)
    (herror : ∀ err, Upholds respond (WorldSound P) (PhaseSound P) (f (.error err)) w) :
    Upholds respond (WorldSound P) (PhaseSound P) (loadPendingDelivery >>= f) w := by
  rw [upholds_bind]
  intro chance
  cases hdatabase : chance.databaseError with
  | some err =>
    simp only [respond, hdatabase]
    exact ⟨hw, herror err⟩
  | none =>
    simp only [respond, hdatabase]
    refine ⟨hw, ?_⟩
    cases hrow : loadDeliveryQueueEntry w.store with
    | none => exact hmissing
    | some entry => exact hfound entry hrow

/-- The admission lets the visit go on with the row it has, or ends it. -/
theorem upholds_admission {entry : QueuedDelivery} {f : Bool → QueueProgram Phase} (hw : WorldSound P w)
    (hallowed : Upholds respond (WorldSound P) (PhaseSound P) (f true) w) (hrejected : ∀ w', WorldSound P w' →
      Upholds respond (WorldSound P) (PhaseSound P) (f false) w') : Upholds respond (WorldSound P) (PhaseSound P)
      (applyRecoveryDeliveryAdmission entry >>= f) w := by
  rw [upholds_bind]
  intro chance
  refine ⟨hw, ?_⟩
  cases hrejection : chance.rejection with
  | none =>
    simp only [respond, hrejection]
    exact hallowed
  | some reason =>
    simp only [respond, hrejection]
    intro chance
    cases hdatabase : chance.databaseError with
    | some err =>
      simp only [respond, hdatabase]
      exact ⟨hw, hrejected w hw⟩
    | none =>
      simp only [respond, hdatabase]
      -- The dead letter is no longer pending.
      have hsound : WorldSound P
          { w with store := (failPendingDeliveryQueueEntry w.store reason entry).1 } := by
        refine ⟨hw.reconciled, fun hp hsent stored hstored => ?_, hw.unsent⟩
        unfold failPendingDeliveryQueueEntry at hstored
        split at hstored
        · cases hstored
        · exact hw.kept hp hsent stored hstored
      exact ⟨hsound, hrejected _ hsound⟩

theorem upholds_skip (hw : WorldSound P w) :
    Upholds respond (WorldSound P) (PhaseSound P)
      (do
        let _ ← writeQueue .moveToFailed
        return .finished .skipped) w :=
  upholds_lastWrite _ hw (fun _ hfalse => by cases hfalse) fun _ => ⟨_, rfl⟩

theorem recoverEntry_upholds (hw : WorldSound P w) : Upholds respond (WorldSound P) (PhaseSound P) recoverEntry w := by
  refine upholds_load hw (fun entry hhand => ?_) trivial fun err => trivial
  refine upholds_admission hw ?_ fun _ _ => trivial
  show Upholds respond (WorldSound P) (PhaseSound P) (if entry.retryCount ≥ maxRetries then _ else _) w
  split
  · exact upholds_skip hw
  · refine upholds_ask hw (fun _ => rfl) fun now => ?_
    split
    · exact trivial
    · refine upholds_ask hw (fun _ => rfl) fun ready => ?_
      cases ready with
      | true => exact drainQueuedEntry_upholds hw hhand
      | false => exact trivial

theorem drainEntry_upholds (hw : WorldSound P w) : Upholds respond (WorldSound P) (PhaseSound P) drainEntry w := by
  refine upholds_load hw (fun entry hhand => ?_) trivial fun err => trivial
  refine upholds_admission hw ?_ fun _ _ => trivial
  refine upholds_ask hw (fun _ => rfl) fun decision => ?_
  split
  · exact trivial
  · split
    · exact upholds_skip hw
    · refine upholds_ask hw (fun _ => rfl) fun now => ?_
      split
      · exact trivial
      · exact upholds_ask hw (fun _ => rfl) fun _ => drainQueuedEntry_upholds hw hhand

end Deliveries

end OpenClaw.Outbound
