/-
# OpenClaw.Reef.ReplayProtection -- no envelope is accepted twice

The promises of the file replay store, over every sequence of calls with restarts between them: the
first hash stays bound, two claims that are new have a release or a restart between them, what has
ended is never new again, and the receipt and body that come back are those of the one completion.
-/
import OpenClaw.Reef.ReplayHistory

namespace OpenClaw.Reef

open OpenClaw.Data OpenClaw.Logic

section History

variable {ε : Type} {cipher : BodyCipher ε} {peer id : Text}

theorem PlainIds.append {events mid : List ReplayEvent} (h : PlainIds (events ++ mid)) :
    PlainIds events ∧ PlainIds mid :=
  ⟨fun request hmem => h request (List.mem_append_left _ hmem),
    fun request hmem => h request (List.mem_append_right _ hmem)⟩

theorem PlainIds.cons {event : ReplayEvent} {rest : List ReplayEvent} (h : PlainIds (event :: rest)) :
    PlainIds [event] ∧ PlainIds rest :=
  PlainIds.append h

theorem append_cons_eq (events : List ReplayEvent) (event : ReplayEvent) (rest : List ReplayEvent) :
    events ++ event :: rest = (events ++ [event]) ++ rest := by simp

/-! ## What lasts -/

theorem ended_lasts (hcipher : cipher.Inverts) (hid : '\n' ∉ id) {record : ReplayRecord}
    (hended : record.Ended) (mid : List ReplayEvent) :
    ∀ {events : List ReplayEvent}, PlainIds mid → recordAfter cipher events peer id = some record →
      recordAfter cipher (events ++ mid) peer id = some record := by
  induction mid with
  | nil => exact fun _ h => by rwa [List.append_nil]
  | cons event rest ih =>
    intro events hplain h
    obtain ⟨hevent, hrest⟩ := hplain.cons
    have hstep := recordAfter_step hcipher events peer hid hevent
    rw [h] at hstep
    rw [append_cons_eq]
    exact ih hrest (hstep.ended hended)

theorem hash_lasts (hcipher : cipher.Inverts) (hid : '\n' ∉ id) (mid : List ReplayEvent) :
    ∀ {events : List ReplayEvent} {record : ReplayRecord}, PlainIds mid →
      recordAfter cipher events peer id = some record →
      ∃ record', recordAfter cipher (events ++ mid) peer id = some record' ∧
        record'.envelopeHash = record.envelopeHash := by
  induction mid with
  | nil => exact fun {_} record _ h => ⟨record, by rwa [List.append_nil], rfl⟩
  | cons event rest ih =>
    intro events record hplain h
    obtain ⟨hevent, hrest⟩ := hplain.cons
    have hstep := recordAfter_step hcipher events peer hid hevent
    rw [h] at hstep
    obtain ⟨next, hnext, hhash⟩ := hstep.hash
    obtain ⟨last, hlast, hsame⟩ := ih hrest hnext
    rw [append_cons_eq]
    exact ⟨last, hlast, hsame.trans hhash⟩

/-- Nothing is held before the first claim. -/
theorem none_before_claim (hcipher : cipher.Inverts) (hid : '\n' ∉ id) (events : List ReplayEvent) :
    PlainIds events → (∀ envelopeHash, .call (.claim peer id envelopeHash) ∉ events) →
      recordAfter cipher events peer id = none := by
  induction events using List.reverseRecOn with
  | nil => exact fun _ _ => rfl
  | append_singleton events event ih =>
    intro hplain hclaims
    obtain ⟨hbefore, hevent⟩ := hplain.append
    have hnone := ih hbefore fun envelopeHash hmem =>
      hclaims envelopeHash (List.mem_append_left _ hmem)
    have hstep := recordAfter_step hcipher events peer hid hevent
    rw [hnone] at hstep
    generalize recordAfter cipher (events ++ [event]) peer id = stored at hstep
    cases hstep with
    | stays | restart => rfl
    | own request _ hpeer hsame =>
      rcases nextRecord_none request with h | ⟨peer', id', envelopeHash, rfl⟩
      · exact h
      · obtain rfl : peer' = peer := hpeer
        obtain rfl : id' = id := hsame
        exact absurd (List.mem_append_right _ (by simp)) (hclaims envelopeHash)

/-- Between a time in flight and a time available something gave the record back. -/
theorem given_back_between (hcipher : cipher.Inverts) (hid : '\n' ∉ id) (mid : List ReplayEvent) :
    ∀ {events : List ReplayEvent} {record last : ReplayRecord}, PlainIds mid →
      recordAfter cipher events peer id = some record → record.state = .inFlight →
      recordAfter cipher (events ++ mid) peer id = some last → last.state = .available →
      ∃ before event after, mid = before ++ event :: after ∧ GivesBack peer id event ∧
        ∃ held, recordAfter cipher (events ++ before) peer id = some held ∧ held.state = .inFlight := by
  induction mid with
  | nil =>
    intro events record last _ h hflight hlast havailable
    rw [List.append_nil, h] at hlast
    obtain rfl := Option.some.inj hlast
    simp [hflight] at havailable
  | cons event rest ih =>
    intro events record last hplain h hflight hlast havailable
    obtain ⟨hevent, hrest⟩ := hplain.cons
    have hstep := recordAfter_step hcipher events peer hid hevent
    rw [h] at hstep
    rw [append_cons_eq] at hlast
    rcases hstep.inFlight hflight with hsame | ⟨ended, hended, hends⟩ | hgives
    · obtain ⟨before, event', after, rfl, hgives, held, hheld, hstate⟩ :=
        ih hrest hsame hflight hlast havailable
      exact ⟨event :: before, event', after, rfl, hgives, held, by rwa [append_cons_eq], hstate⟩
    · rw [ended_lasts hcipher hid hends rest hrest hended] at hlast
      obtain rfl := Option.some.inj hlast
      rcases hends with h | h <;> simp [h] at havailable
    · exact ⟨[], event, rest, rfl, hgives, record, by rwa [List.append_nil], hflight⟩

/-- Before a record was completed there was a completion that returned. -/
theorem completed_by (hcipher : cipher.Inverts) (hid : '\n' ∉ id) {record : ReplayRecord}
    (hstate : record.state = .completed) (events : List ReplayEvent) :
    PlainIds events → recordAfter cipher events peer id = some record → ∃ before receipt body nonce after,
        events = before ++ .call (.complete peer id receipt body nonce) :: after ∧
        fileResult cipher before (.complete peer id receipt body nonce) = .done := by
  induction events using List.reverseRecOn with
  | nil =>
    intro _ h
    simp [recordAfter, fileAfter, FileReplayStore.view, FileReplayStore.fresh, FileReplayStore.replayLog] at h
  | append_singleton events event ih =>
    intro hplain h
    obtain ⟨hbefore, hevent⟩ := hplain.append
    have hstep := recordAfter_step hcipher events peer hid hevent
    rw [h] at hstep
    rcases hstep.completed hstate with hold | ⟨receipt, body, nonce, rfl, hseal, hdone⟩
    · obtain ⟨before, receipt, body, nonce, after, rfl, hdone⟩ := ih hbefore hold
      exact ⟨before, receipt, body, nonce, after ++ [event], by simp, hdone⟩
    · refine ⟨events, receipt, body, nonce, [], rfl, ?_⟩
      rw [fileResult_sealable hcipher events hseal]
      exact hdone

/-! ## The promises -/

/-- What is held right after a call that the store can seal. -/
theorem recordAfter_own (hcipher : cipher.Inverts) (hid : '\n' ∉ id) (events : List ReplayEvent)
    {request : ReplayCall} (hpeer : request.peer = peer) (hsame : request.id = id) (hseal : request.sealable = true) :
    recordAfter cipher (events ++ [.call request]) peer id =
      nextRecord (recordAfter cipher events peer id) request := by
  have hplain : PlainIds [.call request] := by
    intro request' hmem
    obtain rfl : request' = request := by simpa using hmem
    rwa [hsame]
  have hstep := recordAfter_step hcipher events peer hid hplain
  generalize recordAfter cipher (events ++ [.call request]) peer id = stored at hstep
  cases hstep with
  | own => rfl
  | stays _ _ h =>
    rcases h with h | h | h
    · exact absurd hpeer h
    · exact absurd hsame h
    · simp [hseal] at h

theorem completion_lasts (hcipher : cipher.Inverts) (hid : '\n' ∉ id) {events mid : List ReplayEvent}
    {receipt : SignedReceipt} {body : Option MessageBody} {nonce : List UInt8} (hmid : PlainIds mid)
    (hdone : fileResult cipher events (.complete peer id receipt body nonce) = .done) : ∃ record, recordAfter cipher
        (events ++ .call (.complete peer id receipt body nonce) :: mid) peer id = some record ∧
      record.state = .completed ∧ record.receipt = some receipt ∧ record.body = body := by
  have hseal := sealable_of_done hcipher events hdone
  rw [fileResult_sealable hcipher events hseal] at hdone
  obtain ⟨record, hstored, hflight, hnext⟩ := nextRecord_complete_done hdone
  have hopen := (logged_after hcipher events).recordsOpen _ _ hstored (by simp [hflight])
  have hown := (recordAfter_own hcipher hid events rfl rfl hseal).trans hnext
  rw [append_cons_eq]
  exact ⟨_, ended_lasts hcipher hid (.inl rfl) mid hmid hown, rfl, rfl, by simp [hopen.2]⟩

theorem consumption_lasts (hcipher : cipher.Inverts) (hid : '\n' ∉ id)
    {events mid : List ReplayEvent} (hmid : PlainIds mid)
    (hdone : fileResult cipher events (.consume peer id) = .done) :
    ∃ record, recordAfter cipher (events ++ .call (.consume peer id) :: mid) peer id = some record ∧
      record.state = .consumed := by
  rw [fileResult_sealable hcipher events rfl] at hdone
  obtain ⟨record, hnext, hstate⟩ := nextRecord_consume_done hdone
  have hown := (recordAfter_own hcipher hid events rfl rfl rfl).trans hnext
  rw [append_cons_eq]
  exact ⟨record, ended_lasts hcipher hid (.inr hstate) mid hmid hown, hstate⟩

theorem claim_ended (hcipher : cipher.Inverts) {events : List ReplayEvent} {record : ReplayRecord}
    (h : recordAfter cipher events peer id = some record) (hended : record.Ended) (envelopeHash : Text) :
    fileResult cipher events (.claim peer id envelopeHash) ≠ .claimed .new := by
  rw [fileResult_sealable hcipher events rfl]
  intro hnew
  rcases claim_new_iff.mp hnew with hnone | ⟨found, hfound, -, hstate⟩
  · change recordAfter cipher events peer id = none at hnone
    rw [h] at hnone
    cases hnone
  · change recordAfter cipher events peer id = some found at hfound
    obtain rfl := Option.some.inj (h.symm.trans hfound)
    rcases hended with h | h <;> simp [hstate] at h

/-- The promises about one peer and id, over every history of calls and restarts. -/
structure ReplayProtected (cipher : BodyCipher ε) (peer id : Text) : Prop where
  /-- The first hash claimed is bound for ever: another is a mismatch, and it is none itself. -/
  hashBound : ∀ before mid envelopeHash other, PlainIds (before ++ mid) →
    (∀ earlier, .call (.claim peer id earlier) ∉ before) →
    fileResult cipher before (.claim peer id envelopeHash) = .claimed .new ∧
      (fileResult cipher (before ++ .call (.claim peer id envelopeHash) :: mid)
          (.claim peer id other) = .claimed .mismatch ↔ other ≠ envelopeHash)
  /-- Between two claims that are new, a record in flight is given back. -/
  newTwice : ∀ before mid first second, PlainIds (before ++ mid) →
    fileResult cipher before (.claim peer id first) = .claimed .new →
    fileResult cipher (before ++ .call (.claim peer id first) :: mid) (.claim peer id second) =
      .claimed .new →
    ∃ upTo event after, mid = upTo ++ event :: after ∧ GivesBack peer id event ∧
      ∃ held, recordAfter cipher (before ++ .call (.claim peer id first) :: upTo) peer id = some held ∧
        held.state = .inFlight
  /-- No claim is new after a completion that returned. -/
  completedOnce : ∀ before mid receipt body nonce envelopeHash, PlainIds (before ++ mid) →
    fileResult cipher before (.complete peer id receipt body nonce) = .done →
    fileResult cipher (before ++ .call (.complete peer id receipt body nonce) :: mid)
      (.claim peer id envelopeHash) ≠ .claimed .new
  /-- No claim is new after a consumption that returned. -/
  consumedOnce : ∀ before mid envelopeHash, PlainIds (before ++ mid) →
    fileResult cipher before (.consume peer id) = .done →
    fileResult cipher (before ++ .call (.consume peer id) :: mid) (.claim peer id envelopeHash) ≠
      .claimed .new
  /-- After the completion that returned, its receipt and body are read back. -/
  readBack : ∀ before mid receipt body nonce, PlainIds (before ++ mid) →
    fileResult cipher before (.complete peer id receipt body nonce) = .done →
    fileResult cipher (before ++ .call (.complete peer id receipt body nonce) :: mid)
      (.completed peer id) = .completed (some ⟨receipt, body⟩)
  /-- And nothing is read back unless such a completion returned before. -/
  readBackOnly : ∀ events replay, PlainIds events →
    fileResult cipher events (.completed peer id) = .completed (some replay) →
    ∃ before nonce after,
      events = before ++ .call (.complete peer id replay.receipt replay.body nonce) :: after ∧
      fileResult cipher before (.complete peer id replay.receipt replay.body nonce) = .done
  /-- One completion returns, no other after it. -/
  oneCompletion : ∀ before mid receipt body nonce receipt' body' nonce', PlainIds (before ++ mid) →
    fileResult cipher before (.complete peer id receipt body nonce) = .done →
    fileResult cipher (before ++ .call (.complete peer id receipt body nonce) :: mid)
      (.complete peer id receipt' body' nonce') ≠ .done

theorem completed_result (hcipher : cipher.Inverts) (events : List ReplayEvent) :
    fileResult cipher events (.completed peer id) = .completed (completedReplay (recordAfter cipher events peer id)) :=
  fileResult_sealable hcipher events rfl

theorem replayProtected (hcipher : cipher.Inverts) (hid : '\n' ∉ id) : ReplayProtected cipher peer id where
  hashBound before mid envelopeHash other hplain hclaims := by
    obtain ⟨hbefore, hmid⟩ := hplain.append
    have hnone := none_before_claim hcipher hid before hbefore hclaims
    have hnew : fileResult cipher before (.claim peer id envelopeHash) = .claimed .new := by
      rw [fileResult_sealable hcipher before rfl]
      exact claim_new_iff.mpr (.inl hnone)
    refine ⟨hnew, ?_⟩
    rw [fileResult_sealable hcipher before rfl] at hnew
    obtain ⟨record, hnext, hhash, -⟩ := nextRecord_claim_new hnew
    have hown := (recordAfter_own hcipher hid before rfl rfl rfl).trans hnext
    obtain ⟨last, hlast, hsame⟩ := hash_lasts hcipher hid mid hmid hown
    rw [fileResult_sealable hcipher _ rfl, append_cons_eq]
    change (callAlone (recordAfter cipher _ peer id) _).1 = _ ↔ _
    rw [show recordAfter cipher _ peer id = some last from hlast, claim_mismatch_iff, hsame, hhash]
    exact ne_comm
  newTwice before mid first second hplain hfirst hsecond := by
    obtain ⟨hbefore, hmid⟩ := hplain.append
    rw [fileResult_sealable hcipher before rfl] at hfirst
    obtain ⟨record, hnext, hhash, hflight⟩ := nextRecord_claim_new hfirst
    have hown := (recordAfter_own hcipher hid before rfl rfl rfl).trans hnext
    obtain ⟨last, hlast, -⟩ := hash_lasts hcipher hid mid hmid hown
    rw [fileResult_sealable hcipher _ rfl, append_cons_eq] at hsecond
    have havailable : last.state = .available := by
      rcases claim_new_iff.mp hsecond with hnone | ⟨found, hfound, -, hstate⟩
      · exact absurd (hnone.symm.trans hlast) (by simp)
      · obtain rfl := Option.some.inj (hfound.symm.trans hlast)
        exact hstate
    obtain ⟨upTo, event, after, rfl, hgives, held, hheld, hstate⟩ :=
      given_back_between hcipher hid mid hmid hown hflight hlast havailable
    exact ⟨upTo, event, after, rfl, hgives, held, by rwa [append_cons_eq], hstate⟩
  completedOnce before mid receipt body nonce envelopeHash hplain hdone := by
    obtain ⟨record, hrecord, hstate, -⟩ := completion_lasts hcipher hid hplain.append.2 hdone
    exact claim_ended hcipher hrecord (.inl hstate) envelopeHash
  consumedOnce before mid envelopeHash hplain hdone := by
    obtain ⟨record, hrecord, hstate⟩ := consumption_lasts hcipher hid hplain.append.2 hdone
    exact claim_ended hcipher hrecord (.inr hstate) envelopeHash
  readBack before mid receipt body nonce hplain hdone := by
    obtain ⟨record, hrecord, hstate, hreceipt, hbody⟩ := completion_lasts hcipher hid hplain.append.2 hdone
    rw [completed_result hcipher, hrecord]
    simp [completedReplay, hstate, hreceipt, hbody]
  readBackOnly events replay hplain hread := by
    rw [completed_result hcipher] at hread
    obtain ⟨record, hrecord, hstate⟩ : ∃ record, recordAfter cipher events peer id = some record ∧
        record.state = .completed := by
      cases hrecord : recordAfter cipher events peer id with
      | none => simp [hrecord, completedReplay] at hread
      | some record =>
        refine ⟨record, rfl, ?_⟩
        by_contra hstate
        simp [hrecord, completedReplay, hstate] at hread
    obtain ⟨before, receipt, body, nonce, after, rfl, hdone⟩ := completed_by hcipher hid hstate events hplain hrecord
    obtain ⟨last, hlast, hlastState, hreceipt, hbody⟩ := completion_lasts hcipher hid hplain.append.2.cons.2 hdone
    rw [hlast] at hread
    obtain rfl : (⟨receipt, body⟩ : CompletedReplay) = replay := by
      simpa [completedReplay, hlastState, hreceipt, hbody] using hread
    exact ⟨before, nonce, after, rfl, hdone⟩
  oneCompletion before mid receipt body nonce receipt' body' nonce' hplain hdone := by
    intro hagain
    obtain ⟨record, hrecord, hstate, -⟩ := completion_lasts hcipher hid hplain.append.2 hdone
    have hseal := sealable_of_done hcipher _ hagain
    rw [fileResult_sealable hcipher _ hseal] at hagain
    obtain ⟨old, hold, hflight, -⟩ := nextRecord_complete_done hagain
    obtain rfl := Option.some.inj (hrecord.symm.trans hold)
    simp [hstate] at hflight

/-- Without restarts the file store and the memory store hold the same. -/
theorem view_eq_memory (hcipher : cipher.Inverts) (requests : List ReplayCall) :
    (∀ request ∈ requests, request.sealable = true) →
      (fileAfter cipher (requests.map .call)).view cipher = run memoryStep (fun _ => none) requests := by
  induction requests using List.reverseRecOn with
  | nil => exact fun _ => rfl
  | append_singleton requests request ih =>
    intro hseal
    have hbefore := ih fun r hr => hseal r (List.mem_append_left _ hr)
    have hlogged := logged_after hcipher (requests.map .call)
    have hafter : fileAfter cipher ((requests ++ [request]).map .call) =
        fileStep cipher (fileAfter cipher (requests.map .call)) (.call request) := by
      simp [fileAfter, run_append]
    rw [hafter, fileStep, (hlogged.call hcipher (hseal request (by simp))).2.1, hbefore, run_append]
    rfl

/-- **Replay protection of the file store.**  For ids without a line feed, every promise of
`ReplayProtected` holds over every history of calls and restarts; and a run without restarts, of calls
whose bodies the store can seal, returns what the memory store returns. -/
theorem file_replay_protection (hcipher : cipher.Inverts) : (∀ peer id, '\n' ∉ id → ReplayProtected cipher peer id) ∧
      ∀ requests request, (∀ r ∈ requests ++ [request], r.sealable = true) →
        fileResult cipher (requests.map .call) request =
          (MemoryReplayStore.call (run memoryStep (fun _ => none) requests) request).1 := by
  refine ⟨fun peer id hid => replayProtected hcipher hid, ?_⟩
  intro requests request hseal
  have hview := view_eq_memory hcipher requests fun r hr => hseal r (List.mem_append_left _ hr)
  rw [fileResult, ((logged_after hcipher _).call hcipher (hseal request (by simp))).1, hview]

end History

/-- A cipher that hides nothing. -/
def plainCipher : BodyCipher MessageBody := ⟨fun _ body => body, some⟩

def plainReceipt : SignedReceipt := ⟨"7".toList, [], [], .accepted, none, []⟩

/-- A message is claimed and completed; after a restart its receipt and body are read back. -/
theorem file_replay_protection_plain :
    ReplayProtected plainCipher "friend".toList "7".toList ∧ fileResult plainCipher
      [.call (.claim "friend".toList "7".toList []),
        .call (.complete "friend".toList "7".toList plainReceipt (some ⟨"hi".toList, none, none⟩) (List.replicate 12 0)),
        .restart] (.completed "friend".toList "7".toList) = .completed (some ⟨plainReceipt, some ⟨"hi".toList, none, none⟩⟩) := by
  have h : ReplayProtected plainCipher "friend".toList "7".toList :=
    (file_replay_protection (fun _ _ => rfl)).1 _ _ (by decide)
  refine ⟨h, h.readBack [.call (.claim "friend".toList "7".toList [])] [.restart] _ _ _ ?_ (by rfl)⟩
  intro request hrequest
  simp only [List.cons_append, List.nil_append, List.mem_cons, ReplayEvent.call.injEq, reduceCtorEq, List.not_mem_nil,
    or_false] at hrequest
  subst hrequest
  decide

end OpenClaw.Reef
