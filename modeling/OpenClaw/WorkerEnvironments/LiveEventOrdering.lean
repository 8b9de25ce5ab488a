/-
# OpenClaw.WorkerEnvironments.LiveEventOrdering -- live events are published once, in order

`WindowInv` is the ordering contract of one window.  The functions around a window fall into two
kinds: those that leave its cursor alone or clear it (`Follows`: releasing, fencing, claiming, coming
back from listeners) and the few that move it (publishing, dropping a buffered event, buffering,
resyncing).  `drainLoop_kept` is the loop; the receiver's run lemma puts the windows together.
-/
import OpenClaw.Data.Consecutive
import OpenClaw.Logic.Run
import OpenClaw.WorkerEnvironments.LiveEvents

namespace OpenClaw.WorkerEnvironments.LiveEvents

open OpenClaw.Logic OpenClaw.Data

/-! ## The contract of one window -/

/-- **The ordering contract**: what was published is consecutive from the initial cursor up to the
current one, what is pending lies ahead within the window, and the bytes are accounted for. -/
structure WindowInv (limits : ReceiverLimits) (w : LiveEventWindow) : Prop where
  cursor : w.ackedSeq = w.initialAckedSeq + w.published.length
  published : w.published = consecutive (w.initialAckedSeq + 1) w.published.length
  pending : ∀ seq entry, w.pending.find seq = some entry →
    w.ackedSeq < seq ∧ seq ≤ w.ackedSeq + limits.windowSize ∧ entry.request.seq = seq
  bytes : w.pendingBytes = w.pending.total (·.sizeBytes)
  bounded : w.pendingBytes ≤ limits.maxPendingBytes

/-- The cursor is the last number published. -/
theorem WindowInv.last {limits : ReceiverLimits} {w : LiveEventWindow} (hw : WindowInv limits w) :
    w.ackedSeq = w.published.getLastD w.initialAckedSeq := by
  have hcursor := hw.cursor
  have hpublished := hw.published
  cases hcount : w.published.length with
  | zero =>
    rw [List.length_eq_zero_iff.mp hcount]
    rw [hcount] at hcursor
    simpa using hcursor
  | succ count =>
    rw [hcount, consecutive_succ] at hpublished
    rw [hpublished, List.getLastD_concat]
    omega

/-- The contract, as long as the window has not been cleared. -/
def Kept (limits : ReceiverLimits) (w : LiveEventWindow) : Prop := w.cleared = false → WindowInv limits w

/-! ## What leaves the cursor alone -/

/-- Two windows that differ at most in their runs and their target. -/
structure SameCursor (w w' : LiveEventWindow) : Prop where
  cleared : w'.cleared = w.cleared
  ackedSeq : w'.ackedSeq = w.ackedSeq
  pending : w'.pending = w.pending
  pendingBytes : w'.pendingBytes = w.pendingBytes
  initialAckedSeq : w'.initialAckedSeq = w.initialAckedSeq
  published : w'.published = w.published

theorem SameCursor.refl (w : LiveEventWindow) : SameCursor w w := ⟨rfl, rfl, rfl, rfl, rfl, rfl⟩

theorem SameCursor.trans {a b c : LiveEventWindow} (hab : SameCursor a b) (hbc : SameCursor b c) : SameCursor a c :=
  ⟨hbc.cleared.trans hab.cleared, hbc.ackedSeq.trans hab.ackedSeq, hbc.pending.trans hab.pending,
    hbc.pendingBytes.trans hab.pendingBytes, hbc.initialAckedSeq.trans hab.initialAckedSeq,
    hbc.published.trans hab.published⟩

theorem SameCursor.kept {limits : ReceiverLimits} {w w' : LiveEventWindow} (h : SameCursor w w')
    (hw : Kept limits w) : Kept limits w' := by
  intro hc
  have hinv := hw (h.cleared ▸ hc)
  refine ⟨?_, ?_, ?_, ?_, ?_⟩
  · rw [h.ackedSeq, h.initialAckedSeq, h.published]
    exact hinv.cursor
  · rw [h.initialAckedSeq, h.published]
    exact hinv.published
  · rw [h.pending, h.ackedSeq]
    exact hinv.pending
  · rw [h.pendingBytes, h.pending]
    exact hinv.bytes
  · rw [h.pendingBytes]
    exact hinv.bounded

/-- `w'` comes from `w` by work that leaves the cursor alone or clears the window. -/
structure Follows (w w' : LiveEventWindow) : Prop where
  cursor : w'.cleared = false → SameCursor w w'
  pending : w'.pending = w.pending ∨ w'.pending = .empty

theorem SameCursor.follows {w w' : LiveEventWindow} (h : SameCursor w w') : Follows w w' :=
  ⟨fun _ => h, .inl h.pending⟩

theorem Follows.refl (w : LiveEventWindow) : Follows w w := (SameCursor.refl w).follows

theorem Follows.trans {a b c : LiveEventWindow} (hab : Follows a b) (hbc : Follows b c) : Follows a c := by
  refine ⟨fun hc => ?_, ?_⟩
  · have hsame := hbc.cursor hc
    exact (hab.cursor (hsame.cleared ▸ hc)).trans hsame
  · rcases hbc.pending with h | h
    · exact h ▸ hab.pending
    · exact .inr h

theorem Follows.kept {limits : ReceiverLimits} {w w' : LiveEventWindow} (h : Follows w w')
    (hw : Kept limits w) : Kept limits w' := fun hc => (h.cursor hc).kept hw hc

section Registry

variable {ρ : Type} (reg : RunRegistry ρ) (limits : ReceiverLimits)

theorem releaseRun_same (s : Scope ρ) (runId : String) : SameCursor s.window (releaseRun reg s runId).window := by
  unfold releaseRun
  split
  · exact .refl _
  · exact ⟨rfl, rfl, rfl, rfl, rfl, rfl⟩

theorem fenceReleasedRun_same (s : Scope ρ) (runId : String) :
    SameCursor s.window (fenceReleasedRun reg s runId).window := by
  have hrelease := releaseRun_same reg
    { s with window := { s.window with
        terminalRuns := if (s.window.terminalRuns.find runId).isSome then s.window.terminalRuns
          else s.window.terminalRuns.upsert runId s.window.ackedSeq } } runId
  exact ⟨hrelease.cleared, hrelease.ackedSeq, hrelease.pending, hrelease.pendingBytes,
    hrelease.initialAckedSeq, hrelease.published⟩

@[simp] theorem clearWindow_cleared (s : Scope ρ) : (clearWindow reg s).window.cleared = true := rfl

theorem clearWindow_follows (s : Scope ρ) : Follows s.window (clearWindow reg s).window :=
  ⟨fun h => by simp at h, .inr rfl⟩

theorem onClearRequested_same (s : Scope ρ) (runId claimId : String) :
    SameCursor s.window (onClearRequested reg s runId claimId).window := by
  unfold onClearRequested
  split
  · exact fenceReleasedRun_same reg s runId
  · exact .refl _

theorem reenter_follows (s : Scope ρ) (reentry : Reentry) : Follows s.window (reenter reg s reentry).window := by
  cases reentry with
  | clearRequested runId claimId => exact (onClearRequested_same reg s runId claimId).follows
  | clear => exact clearWindow_follows reg s

theorem reentries_follow (reentries : List Reentry) (s : Scope ρ) :
    Follows s.window (reentries.foldl (reenter reg) s).window := by
  induction reentries generalizing s with
  | nil => exact .refl _
  | cons reentry rest ih => exact (reenter_follows reg s reentry).trans (ih _)

theorem pruneReleasedRuns_follows (runs : List (String × OwnedLiveRun)) (s : Scope ρ) :
    Follows s.window (pruneReleasedRuns reg s runs).1.window := by
  induction runs generalizing s with
  | nil => exact .refl _
  | cons run rest ih =>
    obtain ⟨runId, owned⟩ := run
    unfold pruneReleasedRuns
    split
    · exact clearWindow_follows reg s
    · exact ih s
    · exact (fenceReleasedRun_same reg s runId).follows.trans (ih _)

theorem claimNewRun_same (s : Scope ρ) (runId : String) (allow : Bool) :
    SameCursor s.window (claimNewRun reg limits s runId allow).1.window := by
  unfold claimNewRun
  dsimp only
  split
  · exact .refl _
  · split
    · exact .refl _
    · split
      · exact ⟨rfl, rfl, rfl, rfl, rfl, rfl⟩
      · exact ⟨rfl, rfl, rfl, rfl, rfl, rfl⟩

theorem claimRun_follows (s : Scope ρ) (runId : String) (allow : Bool) :
    Follows s.window (claimRun reg limits s runId allow).1.window := by
  unfold claimRun
  split
  · exact .refl _
  · split
    · split
      · exact clearWindow_follows reg s
      · split
        · exact (fenceReleasedRun_same reg s runId).follows
        · exact .refl _
    · have hprune := pruneReleasedRuns_follows reg s.window.activeRuns.rows s
      split
      · rename_i s' failure hs'
        rw [hs'] at hprune
        exact hprune
      · rename_i s' hs'
        rw [hs'] at hprune
        exact hprune.trans (claimNewRun_same reg limits s' runId allow).follows

/-! ## Publishing -/

theorem emitAgentEvent_follows (s : Scope ρ) (request : WorkerLiveEventParams) (claimId : String) :
    Follows { s.window with published := s.window.published ++ [request.seq] }
      (emitAgentEvent reg s request claimId).window :=
  let emitted := reg.emit s.registry request.runId claimId request.event
  reentries_follow reg emitted.2 { s with
    registry := emitted.1
    window := { s.window with published := s.window.published ++ [request.seq] } }

/-- A publication that fails leaves the cursor alone or clears the window. -/
theorem publish_failed {s s' : Scope ρ} {request : WorkerLiveEventParams} {allow : Bool}
    {failure : WorkerLiveEventFailure} (h : publish reg limits s request allow = (s', some failure)) :
    Follows s.window s'.window := by
  have hclaim := claimRun_follows reg limits s request.runId allow
  unfold publish at h
  rcases hc : claimRun reg limits s request.runId allow with ⟨s₁, error | owned⟩
  · rw [hc] at h hclaim
    cases h
    exact hclaim
  · rw [hc] at h
    cases h

/-- One that succeeds also adds its sequence number to what was published. -/
theorem publish_done {s s' : Scope ρ} {request : WorkerLiveEventParams} {allow : Bool}
    (h : publish reg limits s request allow = (s', none)) :
    Follows { s.window with published := s.window.published ++ [request.seq] } s'.window := by
  have hclaim := claimRun_follows reg limits s request.runId allow
  unfold publish at h
  rcases hc : claimRun reg limits s request.runId allow with ⟨s₁, error | owned⟩
  · rw [hc] at h
    cases h
  · rw [hc] at h hclaim
    obtain rfl := congrArg Prod.fst h
    let fenced : Scope ρ := { s₁ with window := { s₁.window with
      terminalRuns :=
        if isDefinitiveTerminal request.event then s₁.window.terminalRuns.upsert request.runId request.seq
        else s₁.window.terminalRuns } }
    have hemit := emitAgentEvent_follows reg fenced request owned.claimId
    have hadd : Follows { s.window with published := s.window.published ++ [request.seq] }
        { fenced.window with published := fenced.window.published ++ [request.seq] } := by
      refine ⟨fun hclear => ?_, hclaim.pending⟩
      have hsame := hclaim.cursor hclear
      have hpublished : s₁.window.published = s.window.published := hsame.published
      refine ⟨hsame.cleared, hsame.ackedSeq, hsame.pending, hsame.pendingBytes, hsame.initialAckedSeq, ?_⟩
      show s₁.window.published ++ [request.seq] = s.window.published ++ [request.seq]
      rw [hpublished]
    exact hadd.trans hemit

/-! ## Dropping and advancing -/

/-- Dropping the buffered event keeps the accounts. -/
theorem dropBuffered_kept {w : LiveEventWindow} {seq : Int} {buffered : Option PendingLiveEvent}
    (hw : Kept limits w) (hbuffered : w.cleared = false → ∀ entry, buffered = some entry →
      w.pending.find seq = some entry) : Kept limits (dropBuffered w seq buffered) := by
  unfold dropBuffered
  split
  · exact hw
  · rename_i entry
    split
    · intro hc
      have hinv := hw hc
      have hfind := hbuffered hc entry rfl
      have htotal : (w.pending.deleteKey seq).total (·.sizeBytes) + entry.sizeBytes
          = w.pending.total (·.sizeBytes) := (Table.deleteKey_totals _ hfind).1
      refine ⟨hinv.cursor, hinv.published, fun k e hk => ?_, ?_, ?_⟩
      · rw [Table.find_deleteKey] at hk
        split at hk
        · cases hk
        · exact hinv.pending k e hk
      · have hbytes := hinv.bytes
        show w.pendingBytes - (entry.sizeBytes : Int) = ((w.pending.deleteKey seq).total (·.sizeBytes) : Nat)
        omega
      · have hbound := hinv.bounded
        show w.pendingBytes - (entry.sizeBytes : Int) ≤ _
        omega
    · exact hw

/-- After dropping, nothing is pending under the dropped number. -/
theorem dropBuffered_find {w : LiveEventWindow} {seq : Int} {buffered : Option PendingLiveEvent}
    (h : buffered = w.pending.find seq) : (dropBuffered w seq buffered).pending.find seq = none := by
  subst h
  unfold dropBuffered
  cases hfind : w.pending.find seq with
  | none => exact hfind
  | some entry => simp

theorem dropBuffered_fields (w : LiveEventWindow) (seq : Int) (buffered : Option PendingLiveEvent) :
    (dropBuffered w seq buffered).cleared = w.cleared ∧ (dropBuffered w seq buffered).ackedSeq = w.ackedSeq := by
  unfold dropBuffered
  split
  · exact ⟨rfl, rfl⟩
  · split <;> exact ⟨rfl, rfl⟩

theorem dropBuffered_published (w : LiveEventWindow) (seq : Int)
    (buffered : Option PendingLiveEvent) (published : List Int) : dropBuffered { w with published } seq buffered
      = { dropBuffered w seq buffered with published } := by
  unfold dropBuffered
  split
  · rfl
  · dsimp only
    split <;> rfl

/-- The published event becomes the cursor. -/
theorem advance_inv {w : LiveEventWindow} {seq : Int} {before : List Int}
    (hw : WindowInv limits { w with published := before }) (hpublished : w.published = before ++ [seq])
    (hseq : seq = w.ackedSeq + 1) (hgone : w.pending.find seq = none) :
    WindowInv limits { w with ackedSeq := seq } := by
  have hcursor : w.ackedSeq = w.initialAckedSeq + before.length := hw.cursor
  have hbefore : before = consecutive (w.initialAckedSeq + 1) before.length := hw.published
  have hlength : w.published.length = before.length + 1 := by rw [hpublished]; simp
  refine ⟨?_, ?_, fun k entry hk => ?_, hw.bytes, hw.bounded⟩
  · show seq = w.initialAckedSeq + w.published.length
    omega
  · show w.published = consecutive (w.initialAckedSeq + 1) w.published.length
    have hlast : seq = w.initialAckedSeq + 1 + before.length := by omega
    rw [hlength, consecutive_succ, ← hbefore, hpublished, ← hlast]
  · have hk' : w.pending.find k = some entry := hk
    have hahead : w.ackedSeq < k ∧ k ≤ w.ackedSeq + limits.windowSize ∧ entry.request.seq = k := hw.pending k entry hk
    have hne : k ≠ seq := by
      rintro rfl
      rw [hgone] at hk'
      cases hk'
    show seq < k ∧ k ≤ seq + limits.windowSize ∧ entry.request.seq = k
    omega

/-- **One successful round of `drain`**: the next event was published, dropped from `pending`, and made
the cursor. -/
theorem round_kept {w w' : LiveEventWindow} {seq : Int} {buffered : Option PendingLiveEvent}
    (hw : Kept limits w) (hfollows : Follows { w with published := w.published ++ [seq] } w')
    (hnext : w.cleared = false → seq = w.ackedSeq + 1 ∧ buffered = w.pending.find seq) :
    Kept limits { dropBuffered w' seq buffered with ackedSeq := seq } := by
  intro hc
  obtain ⟨hcleared, hacked⟩ := dropBuffered_fields w' seq buffered
  have hsame := hfollows.cursor (hcleared ▸ hc)
  have hopen : w.cleared = false := by
    have hw' : w'.cleared = w.cleared := hsame.cleared
    rw [← hw', ← hcleared]
    exact hc
  obtain ⟨hseq, hbuffered⟩ := hnext hopen
  have hpending : w'.pending = w.pending := hsame.pending
  -- Without the event just published, the window still meets the contract.
  have hsame' : SameCursor w { w' with published := w.published } :=
    ⟨hsame.cleared, hsame.ackedSeq, hsame.pending, hsame.pendingBytes, hsame.initialAckedSeq, rfl⟩
  have hbefore : Kept limits { w' with published := w.published } := hsame'.kept hw
  have hdropped : Kept limits { dropBuffered w' seq buffered with published := w.published } := by
    rw [← dropBuffered_published]
    refine dropBuffered_kept limits hbefore fun _ entry hentry => ?_
    show w'.pending.find seq = some entry
    rw [hpending, ← hbuffered, hentry]
  refine advance_inv limits (hdropped hc) ?_ ?_ ?_
  · have hpublished : w'.published = w.published ++ [seq] := hsame.published
    unfold dropBuffered
    split
    · exact hpublished
    · split <;> exact hpublished
  · rw [hacked, hseq]
    have hw' : w'.ackedSeq = w.ackedSeq := hsame.ackedSeq
    rw [hw']
  · exact dropBuffered_find (hpending ▸ hbuffered)

theorem ageTerminalRuns_same (w : LiveEventWindow) : SameCursor w (ageTerminalRuns limits w) :=
  ⟨rfl, rfl, rfl, rfl, rfl, rfl⟩

/-! ## Draining -/

theorem failedRound_kept {w w' : LiveEventWindow} {seq : Int} {buffered : Option PendingLiveEvent}
    (hw : Kept limits w) (hfollows : Follows w w')
    (hnext : w.cleared = false → seq = w.ackedSeq + 1 ∧ buffered = w.pending.find seq) :
    Kept limits (dropBuffered w' seq buffered) := by
  refine dropBuffered_kept limits (hfollows.kept hw) fun hc entry hentry => ?_
  have hsame := hfollows.cursor hc
  rw [hsame.pending, ← (hnext (hsame.cleared ▸ hc)).2, hentry]

/-- **The drain loop keeps the ordering contract**, whatever the registry answers and however often a
publication fails. -/
theorem drainLoop_kept (fuel : Nat) (s : Scope ρ) (request : WorkerLiveEventParams)
    (buffered : Option PendingLiveEvent) (publishedPrefix : Bool) (hs : Kept limits s.window)
    (hnext : s.window.cleared = false →
      request.seq = s.window.ackedSeq + 1 ∧ buffered = s.window.pending.find request.seq) :
    Kept limits (drainLoop reg limits fuel s request buffered publishedPrefix).1.window := by
  induction fuel generalizing s request buffered publishedPrefix with
  | zero => exact hs
  | succ fuel ih =>
    unfold drainLoop
    rcases hpublish : publish reg limits s request buffered.isSome with ⟨s', _ | failure⟩
    · have hround := round_kept limits hs (publish_done reg limits hpublish) hnext
      have hkept := (ageTerminalRuns_same limits _).kept hround
      dsimp only
      split
      · exact hkept
      · rename_i next hfind
        refine ih _ _ _ _ hkept fun hc => ?_
        have hentry := ((hkept hc).pending _ _ hfind).2.2
        rw [hentry]
        exact ⟨rfl, hfind.symm⟩
    · have hfollows := publish_failed reg limits hpublish
      have hdropped := failedRound_kept limits hs hfollows hnext
      dsimp only
      split
      · exact hfollows.kept hs
      · split
        · exact (clearWindow_follows reg _).kept hdropped
        · exact hdropped

/-! ## The fuel of the loop -/

theorem dropBuffered_find_some {w : LiveEventWindow} {seq k : Int}
    {buffered : Option PendingLiveEvent} {entry : PendingLiveEvent}
    (h : (dropBuffered w seq buffered).pending.find k = some entry) : w.pending.find k = some entry := by
  unfold dropBuffered at h
  split at h
  · exact h
  · split at h
    · rw [Table.find_deleteKey] at h
      split at h
      · cases h
      · exact h
    · exact h

/-- A round that has a next event leaves one entry less, unless its own event was not buffered. -/
theorem dropBuffered_size {w : LiveEventWindow} {seq : Int} {buffered : Option PendingLiveEvent}
    (h : buffered.isSome → (w.pending.find seq).isSome) : (dropBuffered w seq buffered).pending.size + 1
      = w.pending.size + if buffered.isSome then 0 else 1 := by
  unfold dropBuffered
  cases buffered with
  | none => rfl
  | some entry =>
    obtain ⟨found, hfound⟩ := Option.isSome_iff_exists.mp (h rfl)
    have hsize := (Table.deleteKey_totals (fun _ => 0) hfound).2
    show (if (w.pending.find seq).isSome then _ else w : LiveEventWindow).pending.size + 1 = _
    rw [if_pos (h rfl)]
    exact hsize

/-- **The fuel of `drain` is enough**: from the measure of the loop on, more fuel changes nothing. -/
theorem drainLoop_fuel (fuel : Nat) (s : Scope ρ) (request : WorkerLiveEventParams)
    (buffered : Option PendingLiveEvent) (publishedPrefix : Bool)
    (hkeys : ∀ seq entry, s.window.pending.find seq = some entry → entry.request.seq = seq)
    (hbuffered : buffered.isSome → (s.window.pending.find request.seq).isSome)
    (hfuel : s.window.pending.size + (if buffered.isSome then 0 else 1) ≤ fuel) :
    drainLoop reg limits (fuel + 1) s request buffered publishedPrefix
      = drainLoop reg limits fuel s request buffered publishedPrefix := by
  induction fuel generalizing s request buffered publishedPrefix with
  | zero =>
    have := dropBuffered_size hbuffered
    omega
  | succ fuel ih =>
    rw [drainLoop]
    conv_rhs => rw [drainLoop]
    rcases hpublish : publish reg limits s request buffered.isSome with ⟨s', _ | failure⟩
    · have hpending : s'.window.pending = s.window.pending ∨ s'.window.pending = .empty :=
        (publish_done reg limits hpublish).pending
      dsimp only
      split
      · rfl
      · rename_i next hfind
        -- Something is still pending, so the listeners did not clear the window.
        have hnext := dropBuffered_find_some hfind
        have hsame : s'.window.pending = s.window.pending := by
          rcases hpending with h | h
          · exact h
          · rw [h] at hnext
            cases hnext
        have hseq : next.request.seq = request.seq + 1 := hkeys _ _ (hsame ▸ hnext)
        refine ih _ _ _ _ (fun seq entry hentry => ?_) (fun _ => ?_) ?_
        · exact hkeys _ _ (hsame ▸ dropBuffered_find_some hentry)
        · rw [hseq]
          exact Option.isSome_iff_exists.mpr ⟨next, hfind⟩
        · have hdrop : (dropBuffered s'.window request.seq buffered).pending.size + 1
              = s'.window.pending.size + if buffered.isSome then 0 else 1 :=
            dropBuffered_size (hsame ▸ hbuffered)
          rw [hsame] at hdrop
          show (dropBuffered s'.window request.seq buffered).pending.size + 0 ≤ fuel
          omega
    · rfl

/-- `drain` is its loop run for as long as it takes. -/
theorem drain_eq_drainLoop {s : Scope ρ} {request : WorkerLiveEventParams}
    {buffered : Option PendingLiveEvent} (hs : WindowInv limits s.window)
    (hbuffered : buffered.isSome → (s.window.pending.find request.seq).isSome) (more : Nat) :
    drainLoop reg limits (s.window.pending.size + 1 + more) s request buffered false
      = drain reg limits s request buffered := by
  induction more with
  | zero => rfl
  | succ more ih =>
    rw [← ih]
    have hfuel : s.window.pending.size + (if buffered.isSome then 0 else 1) ≤ s.window.pending.size + 1 + more := by
      split <;> omega
    exact drainLoop_fuel reg limits _ s request buffered false
      (fun seq entry h => (hs.pending seq entry h).2.2) hbuffered hfuel

/-! ## One call -/

theorem resyncWindow_inv {s : Scope ρ} (hs : WindowInv limits s.window) :
    WindowInv limits (resyncWindow s).1.window := by
  refine ⟨hs.cursor, hs.published, fun seq entry hentry => ?_, ?_, ?_⟩
  · cases hentry
  · show (0 : Int) = ((Table.empty : Table Int PendingLiveEvent).total (·.sizeBytes) : Nat)
    simp
  · show (0 : Int) ≤ limits.maxPendingBytes
    omega

/-- An event that waits lies ahead of the cursor, within the window, and fits the budget. -/
theorem buffer_inv {w : LiveEventWindow} {request : WorkerLiveEventParams} {sizeBytes : Nat}
    (hw : WindowInv limits w) (hnew : w.pending.find request.seq = none)
    (hahead : w.ackedSeq < request.seq) (hwithin : request.seq ≤ w.ackedSeq + limits.windowSize)
    (hfits : w.pendingBytes + sizeBytes ≤ limits.maxPendingBytes) :
    WindowInv limits { w with
      pending := w.pending.upsert request.seq { request, sizeBytes }
      pendingBytes := w.pendingBytes + sizeBytes } := by
  refine ⟨hw.cursor, hw.published, fun seq entry hentry => ?_, ?_, hfits⟩
  · rw [Table.find_upsert] at hentry
    split at hentry
    · rename_i hseq
      cases hentry
      subst hseq
      exact ⟨hahead, hwithin, rfl⟩
    · exact hw.pending seq entry hentry
  · have hbytes := hw.bytes
    have htotal := Table.total_upsert_new (r := (⟨request, sizeBytes⟩ : PendingLiveEvent)) (·.sizeBytes) hnew
    show w.pendingBytes + (sizeBytes : Int)
      = ((w.pending.upsert request.seq ⟨request, sizeBytes⟩).total (·.sizeBytes) : Nat)
    rw [htotal]
    push_cast
    omega

theorem applyToWindow_kept {s : Scope ρ} {request : WorkerLiveEventParams}
    (hs : WindowInv limits s.window) (hseq : s.window.ackedSeq < request.seq) :
    Kept limits (applyToWindow reg limits s request).1.window := by
  unfold applyToWindow
  dsimp only
  split
  · exact fun _ => resyncWindow_inv limits hs
  · rename_i hwithin
    split
    · rename_i hnext
      -- The head of the line: published now, in its buffered form if it has one.
      refine drainLoop_kept reg limits _ _ _ _ _ (fun _ => hs) fun _ => ?_
      cases hfind : s.window.pending.find request.seq with
      | none => exact ⟨hnext, hfind.symm⟩
      | some entry =>
        have hentry : entry.request.seq = request.seq := (hs.pending _ _ hfind).2.2
        show entry.request.seq = _ ∧ some entry = s.window.pending.find entry.request.seq
        rw [hentry]
        exact ⟨hnext, hfind.symm⟩
    · split
      · exact fun _ => hs
      · rename_i hnew
        split
        · exact fun _ => resyncWindow_inv limits hs
        · rename_i hfits
          have hnone : s.window.pending.find request.seq = none := by simpa using hnew
          exact fun _ => buffer_inv limits hs hnone hseq (by omega) (by omega)

/-! ## The receiver -/

/-- **The ordering contract of the receiver**: every window it holds is open and meets its own. -/
def ReceiverInv (r : LiveEventReceiver ρ) : Prop :=
  ∀ sessionId w, r.windows.find sessionId = some w → w.cleared = false ∧ WindowInv limits w

theorem ReceiverInv.store {r : LiveEventReceiver ρ} {s : Scope ρ} (hr : ReceiverInv limits r)
    (hs : Kept limits s.window) : ReceiverInv limits (r.store s) := by
  intro sessionId w hw
  unfold LiveEventReceiver.store at hw
  dsimp only at hw
  split at hw
  · rw [Table.find_deleteKey] at hw
    split at hw
    · cases hw
    · exact hr _ _ hw
  · rename_i hopen
    have hfalse : s.window.cleared = false := by simpa using hopen
    rw [Table.find_upsert] at hw
    split at hw
    · cases hw
      exact ⟨hfalse, hs hfalse⟩
    · exact hr _ _ hw

/-- Rewriting an open window without touching its cursor. -/
theorem ReceiverInv.upsert {r : LiveEventReceiver ρ} {sessionId : String} {w w' : LiveEventWindow}
    (hr : ReceiverInv limits r) (hw : r.windows.find sessionId = some w) (hsame : SameCursor w w') :
    ReceiverInv limits { r with windows := r.windows.upsert sessionId w' } := by
  obtain ⟨hopen, hinv⟩ := hr _ _ hw
  intro sessionId' w'' hw''
  rw [Table.find_upsert] at hw''
  split at hw''
  · cases hw''
    have hopen' : w'.cleared = false := hsame.cleared ▸ hopen
    exact ⟨hopen', hsame.kept (fun _ => hinv) hopen'⟩
  · exact hr _ _ hw''

theorem newWindow_inv (sessionId : String) (identity : WorkerConnectionIdentity)
    (request : WorkerLiveEventParams) (target : LiveEventTarget) :
    WindowInv limits (newWindow sessionId identity request target) := by
  refine ⟨?_, rfl, fun seq entry hentry => ?_, rfl, ?_⟩
  · show request.lastAckedSeq = request.lastAckedSeq + ((0 : Nat) : Int)
    simp
  · cases hentry
  · show (0 : Int) ≤ limits.maxPendingBytes
    omega

/-- Resolving a window leaves every window in order, the resolved one included. -/
theorem resolveWindow_inv {r r' : LiveEventReceiver ρ} {sessionId : String}
    {identity : WorkerConnectionIdentity} {request : WorkerLiveEventParams} {w : LiveEventWindow}
    (hr : ReceiverInv limits r) (h : resolveWindow limits r sessionId identity request = .ok (r', w)) :
    ReceiverInv limits r' ∧ WindowInv limits w := by
  unfold resolveWindow at h
  split at h
  · cases h
  · rename_i binding hbinding
    split at h
    · cases h
    · split at h
      · cases h
      · split at h
        · rename_i window hwindow
          split at h
          · cases h
          · cases h
            exact ⟨hr, (hr _ _ hwindow).2⟩
        · split at h
          · cases h
          · split at h
            · cases h
            · cases h
              have hnew := newWindow_inv limits sessionId identity request binding.target
              refine ⟨fun sessionId' w' hw' => ?_, hnew⟩
              have hfind : (r.windows.upsert sessionId
                  (newWindow sessionId identity request binding.target)).find sessionId' = some w' := hw'
              rw [Table.find_upsert] at hfind
              split at hfind
              · cases hfind
                exact ⟨rfl, hnew⟩
              · exact hr _ _ hfind

/-- **One `apply` call** keeps every window in order. -/
theorem apply_inv {r : LiveEventReceiver ρ} (hr : ReceiverInv limits r)
    (identity : WorkerConnectionIdentity) (request : WorkerLiveEventParams) :
    ReceiverInv limits (apply reg limits r identity request).1 := by
  unfold apply
  split
  · exact hr
  · split
    · exact hr
    · split
      · exact hr
      · split
        · exact hr
        · split
          · exact hr
          · rename_i r' w hresolve
            obtain ⟨hr', hw⟩ := resolveWindow_inv limits hr hresolve
            dsimp only
            split
            · exact hr'
            · split
              · exact hr'.store limits fun _ => resyncWindow_inv limits hw
              · rename_i hseq _
                refine hr'.store limits ?_
                exact applyToWindow_kept reg limits hw (by dsimp only; omega)

theorem clearSessionWindow_inv {r : LiveEventReceiver ρ} (hr : ReceiverInv limits r)
    (sessionId : String) : ReceiverInv limits (clearSessionWindow reg r sessionId) := by
  unfold clearSessionWindow
  split
  · exact hr
  · exact hr.store limits fun h => by simp at h

theorem rotateCredential_inv {r : LiveEventReceiver ρ} (hr : ReceiverInv limits r)
    (rotation : WorkerLiveCredentialRotation) : ReceiverInv limits (rotateCredential r rotation) := by
  unfold rotateCredential
  split
  · exact hr
  · split
    · exact hr
    · rename_i window hwindow
      split
      · exact hr.upsert limits hwindow ⟨rfl, rfl, rfl, rfl, rfl, rfl⟩
      · exact hr

theorem rebindWindow_inv {r : LiveEventReceiver ρ} (hr : ReceiverInv limits r)
    (binding : WorkerLiveSessionBinding) (target : LiveEventTarget) :
    ReceiverInv limits (rebindWindow reg r binding target) := by
  unfold rebindWindow
  split
  · exact hr
  · rename_i window hwindow
    split
    · exact hr.store limits fun h => by simp at h
    · exact hr.upsert limits hwindow ⟨rfl, rfl, rfl, rfl, rfl, rfl⟩

theorem bindSessionWithConfig_inv {r : LiveEventReceiver ρ} (hr : ReceiverInv limits r)
    (binding : WorkerLiveSessionBinding) (target : Option LiveEventTarget) :
    ReceiverInv limits (bindSessionWithConfig reg r binding target).1 := by
  unfold bindSessionWithConfig
  dsimp only
  split
  · exact hr
  · split
    · exact hr
    · split
      · split
        · exact hr
        · exact hr
      · exact rebindWindow_inv reg limits hr binding _

theorem identityMutated_inv {r : LiveEventReceiver ρ} (hr : ReceiverInv limits r)
    (binding : WorkerLiveSessionBinding) (target : Option LiveEventTarget) :
    ReceiverInv limits (identityMutated reg r binding target) := by
  have hbind := bindSessionWithConfig_inv reg limits hr binding target
  unfold identityMutated
  split
  · rename_i r' h
    rw [h] at hbind
    exact hbind
  · rename_i r' h
    rw [h] at hbind
    exact clearSessionWindow_inv reg limits (by exact hbind) _

theorem clearEnvironmentWindows_inv {r : LiveEventReceiver ρ} (hr : ReceiverInv limits r)
    (environmentId : String) (fencedEpoch : Int) :
    ReceiverInv limits (clearEnvironmentWindows reg environmentId r fencedEpoch).1 := by
  unfold clearEnvironmentWindows
  generalize r.windows.rows = rows
  induction rows generalizing r fencedEpoch with
  | nil => exact hr
  | cons row rest ih =>
    rw [List.foldl_cons]
    dsimp only
    split
    · exact ih (clearSessionWindow_inv reg limits hr _) _
    · exact ih hr _

theorem clearEnvironment_inv {r : LiveEventReceiver ρ} (hr : ReceiverInv limits r)
    (environmentId : String) : ReceiverInv limits (clearEnvironment reg r environmentId) := by
  unfold clearEnvironment
  dsimp only
  split
  · exact clearEnvironmentWindows_inv reg limits (by exact hr) _ _
  · exact clearEnvironmentWindows_inv reg limits (by exact hr) _ _

theorem clear_inv {r : LiveEventReceiver ρ} (hr : ReceiverInv limits r) : ReceiverInv limits (clear reg r) := by
  have hclear : ∀ (sessionIds : List String) {r : LiveEventReceiver ρ}, ReceiverInv limits r →
      ReceiverInv limits (sessionIds.foldl (clearSessionWindow reg) r) := by
    intro sessionIds
    induction sessionIds with
    | nil => exact fun hr => hr
    | cons sessionId rest ih => exact fun hr => ih (clearSessionWindow_inv reg limits hr sessionId)
  exact hclear r.windows.keys hr

theorem clearRequestedFor_inv {r : LiveEventReceiver ρ} (hr : ReceiverInv limits r)
    (sessionId runId claimId : String) : ReceiverInv limits (clearRequestedFor reg r sessionId runId claimId) := by
  unfold clearRequestedFor
  split
  · exact hr
  · rename_i window hwindow
    have hsame := onClearRequested_same reg { registry := r.registry, window } runId claimId
    exact hr.store limits (hsame.kept fun _ => (hr _ _ hwindow).2)

/-- One event of the receiver keeps every window in order. -/
theorem stepReceiver_inv (r : LiveEventReceiver ρ) (event : ReceiverEvent ρ)
    (hr : ReceiverInv limits r) : ReceiverInv limits (stepReceiver reg limits r event) := by
  cases event with
  | apply identity request => exact apply_inv reg limits hr identity request
  | rotateCredential rotation => exact rotateCredential_inv limits hr rotation
  | bindSession binding target => exact bindSessionWithConfig_inv reg limits hr binding target
  | identityMutated binding target => exact identityMutated_inv reg limits hr binding target
  | clearEnvironment environmentId => exact clearEnvironment_inv reg limits hr environmentId
  | clear => exact clear_inv reg limits hr
  | clearRequested sessionId runId claimId =>
    exact clearRequestedFor_inv reg limits hr sessionId runId claimId
  | registryChange change => exact hr

/-- **Live events are published once and in order.**  After any script of calls to a receiver, with
any answers of the run registry, any clears by its listeners and any claim that fails: in every window
the receiver holds, the events published are numbered consecutively from the initial cursor on, none
of them twice; the cursor is the last of them; what waits lies ahead of the cursor within the window;
and the pending bytes are those of the entries that wait, within the budget. -/
theorem live_events_in_order (registry : ρ) (boundSessions : Table String BoundLiveSession)
    (sessionBindings : Table String WorkerLiveSessionBinding) (staleSessions : List String)
    (startupOwners : Table String Int) (script : List (ReceiverEvent ρ)) (sessionId : String) :
    ∀ w ∈ (run (stepReceiver reg limits)
        (initialReceiver registry boundSessions sessionBindings staleSessions startupOwners)
        script).windows.find sessionId, w.published = consecutive (w.initialAckedSeq + 1) w.published.length ∧
        w.published.Nodup ∧ w.ackedSeq = w.published.getLastD w.initialAckedSeq ∧
        (∀ seq, (w.pending.find seq).isSome → w.ackedSeq < seq ∧ seq ≤ w.ackedSeq + limits.windowSize) ∧
        w.pendingBytes = w.pending.total (·.sizeBytes) ∧ w.pendingBytes ≤ limits.maxPendingBytes := by
  intro w hw
  have hinit : ReceiverInv limits
      (initialReceiver registry boundSessions sessionBindings staleSessions startupOwners) := by
    intro _ _ h
    cases h
  obtain ⟨-, hinv⟩ := run_invariant (stepReceiver_inv reg limits) script hinit sessionId w hw
  refine ⟨hinv.published, ?_, hinv.last, fun seq hseq => ?_, hinv.bytes, hinv.bounded⟩
  · rw [hinv.published]
    exact consecutive_nodup _ _
  · obtain ⟨entry, hentry⟩ := Option.isSome_iff_exists.mp hseq
    have hpending := hinv.pending seq entry hentry
    exact ⟨hpending.1, hpending.2.1⟩

end Registry

/-! ## A run with reordered and duplicated events -/

/-- A registry that grants every claim and keeps the contexts it granted. -/
def grantingRegistry : RunRegistry (Table String AgentRunContext) where
  ownerStatus contexts runId _ _ := (contexts.find runId).map fun _ => .active
  context contexts runId := contexts.find runId
  lifecycleGeneration _ := "generation"
  claim contexts runId context _ := (some "claim", contexts.upsert runId context)
  release contexts runId _ := contexts.deleteKey runId
  emit contexts _ _ _ := (contexts, [])

def reorderedBinding : WorkerLiveSessionBinding where
  environmentId := "environment"
  runEpoch := 1
  sessionId := "session"

def reorderedTarget : LiveEventTarget where
  agentId := none
  sessionId := "session"
  sessionKey := "agent:main"

def reorderedCall (seq : Int) : ReceiverEvent (Table String AgentRunContext) :=
  .apply
    { environmentId := "environment", credentialHash := "hash", sessionId := some "session", ownerEpoch := 1 }
    { runEpoch := 1, lastAckedSeq := 0, seq, runId := "run", event := { kind := .assistant, json := "text" } }

/-- The receiver after the events 2, 1, 1 again, 4 and 3 of a fresh session. -/
def reorderedReceiver : LiveEventReceiver (Table String AgentRunContext) :=
  run (stepReceiver grantingRegistry {}) (initialReceiver .empty .empty .empty [] .empty)
    [.bindSession reorderedBinding (some reorderedTarget), reorderedCall 2, reorderedCall 1,
      reorderedCall 1, reorderedCall 4, reorderedCall 3]

theorem reorderedReceiver_window : (reorderedReceiver.windows.find "session").isSome = true := rfl

theorem live_events_in_order_reordered :
    let w := (reorderedReceiver.windows.find "session").get reorderedReceiver_window
    w.published = [1, 2, 3, 4] ∧ w.published.Nodup ∧ w.ackedSeq = w.published.getLastD w.initialAckedSeq := by
  have h := live_events_in_order grantingRegistry {} .empty .empty .empty [] .empty
    [.bindSession reorderedBinding (some reorderedTarget), reorderedCall 2, reorderedCall 1,
      reorderedCall 1, reorderedCall 4, reorderedCall 3] "session" _
    (Option.get_mem reorderedReceiver_window)
  exact ⟨rfl, h.2.1, h.2.2.1⟩

def freshWindow : LiveEventWindow where
  activeRuns := .empty
  ackedSeq := 0
  credentialHash := "hash"
  environmentId := "environment"
  pending := .empty
  pendingBytes := 0
  runEpoch := 1
  sessionId := "session"
  target := reorderedTarget
  terminalRuns := .empty
  initialAckedSeq := 0

theorem freshWindow_inv : WindowInv {} freshWindow where
  cursor := rfl
  published := rfl
  pending _ _ h := absurd h (by simp [freshWindow])
  bytes := rfl
  bounded := by decide

def requestAt (seq : Int) : WorkerLiveEventParams where
  runEpoch := 1
  lastAckedSeq := 0
  seq := seq
  runId := "run"
  event := { kind := .assistant, json := "text" }

/-- An event waits. -/
def LiveEventWindow.holding (w : LiveEventWindow) (seq : Int) : LiveEventWindow :=
  { w with
    pending := w.pending.upsert seq { request := requestAt seq, sizeBytes := 4 }
    pendingBytes := w.pendingBytes + 4 }

/-- Three events wait, the next one among them. -/
def waitingScope : Scope (Table String AgentRunContext) :=
  ⟨.empty, ((freshWindow.holding 3).holding 2).holding 1⟩

theorem waitingScope_inv : WindowInv {} waitingScope.window := by
  have hthird : WindowInv {} (freshWindow.holding 3) :=
    @buffer_inv {} _ (requestAt 3) 4 freshWindow_inv rfl (by decide) (by decide) (by decide)
  have hsecond : WindowInv {} ((freshWindow.holding 3).holding 2) :=
    @buffer_inv {} _ (requestAt 2) 4 hthird rfl (by decide) (by decide) (by decide)
  exact @buffer_inv {} _ (requestAt 1) 4 hsecond rfl (by decide) (by decide) (by decide)

/-- Three events are published in one run of the loop. -/
theorem drain_eq_drainLoop_waiting :
    drainLoop grantingRegistry {} 10 waitingScope (requestAt 1) (waitingScope.window.pending.find 1) false =
        drain grantingRegistry {} waitingScope (requestAt 1) (waitingScope.window.pending.find 1) ∧
      (drain grantingRegistry {} waitingScope (requestAt 1)
        (waitingScope.window.pending.find 1)).1.window.published = [1, 2, 3] :=
  ⟨drain_eq_drainLoop grantingRegistry {} waitingScope_inv (fun h => h) 6, rfl⟩

end OpenClaw.WorkerEnvironments.LiveEvents
