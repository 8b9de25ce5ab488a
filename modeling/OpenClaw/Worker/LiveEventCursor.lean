/-
# OpenClaw.Worker.LiveEventCursor -- when the client's three cursors agree

`ackedSeqValue`, `nextSeqValue` and the numbers in the buffer belong together: what is buffered are
the numbers between the two.  Acknowledging, resyncing and emitting keep this.  `rejectAll` does not:
it empties the buffer and leaves `nextSeqValue` where it was, so a client that goes on afterwards has
a gap; nothing else opens one.
-/
import OpenClaw.Data.Consecutive
import OpenClaw.Logic.Run
import OpenClaw.Worker.LiveEventClient

namespace OpenClaw.Worker

open OpenClaw.Logic OpenClaw.Data
open OpenClaw.WorkerEnvironments.LiveEvents (WorkerLiveEvent WorkerLiveEventParams)

/-- The client is in use: not disposed, on a connection that can still come back. -/
def Open (c : WorkerLiveEventClient) : Prop := c.disposed = false ∧ isTerminalConnection c.connection = false

/-- **The cursor contract**: the buffered events are numbered from `ackedSeqValue + 1` up to
`nextSeqValue - 1`. -/
def CursorsAgree (c : WorkerLiveEventClient) : Prop :=
  c.buffered.map (·.seq) = consecutive (c.ackedSeqValue + 1) c.buffered.length ∧
    c.nextSeqValue = c.ackedSeqValue + 1 + c.buffered.length

/-- The event a suspended round works on. -/
def DrainPhase.current? : DrainPhase → Option BufferedLiveEvent
  | .waitingReady current | .requesting current => some current
  | _ => none

/-- The contract together with what carries it over an await: a suspended round works on the head of
the buffer. -/
structure CursorInv (c : WorkerLiveEventClient) : Prop where
  agree : CursorsAgree c
  head : ∀ current, c.drain.current? = some current → c.buffered.head? = some current

/-! ## Steps that keep the contract -/

theorem agree_append {c : WorkerLiveEventClient} (h : CursorsAgree c) (entry : BufferedLiveEvent)
    (hseq : entry.seq = c.nextSeqValue) :
    CursorsAgree { c with
      buffered := c.buffered ++ [entry]
      nextSeqValue := c.nextSeqValue + 1 } := by
  obtain ⟨hseqs, hnext⟩ := h
  constructor
  · show (c.buffered ++ [entry]).map (·.seq) = consecutive _ (c.buffered ++ [entry]).length
    rw [List.map_append, List.length_append, hseqs, List.length_singleton, consecutive_succ, ← hnext,
      List.map_singleton, hseq]
  · show c.nextSeqValue + 1 = c.ackedSeqValue + 1 + ((c.buffered ++ [entry]).length : Nat)
    rw [List.length_append, List.length_singleton]
    push_cast
    omega

variable {c : WorkerLiveEventClient} {current : BufferedLiveEvent}

theorem drainHead_inv (h : CursorsAgree c) : CursorInv (drainHead c) := by
  unfold drainHead
  split
  · rename_i current rest _ hbuffered
    refine ⟨h, fun current' hcurrent => ?_⟩
    cases hcurrent
    show c.buffered.head? = some current
    rw [hbuffered]
    rfl
  · exact ⟨h, fun _ hcurrent => by cases hcurrent⟩

theorem scheduleDrain_inv (h : CursorInv c) : CursorInv (scheduleDrain c) := by
  unfold scheduleDrain
  split
  · exact drainHead_inv h.agree
  · exact h

theorem emit_inv (h : CursorInv c) (runId : String) (event : WorkerLiveEvent) : CursorInv (emit c runId event) := by
  unfold emit
  dsimp only
  split
  · exact ⟨h.agree, h.head⟩
  · split
    · exact ⟨h.agree, h.head⟩
    · refine scheduleDrain_inv ⟨agree_append h.agree _ rfl, fun current hcurrent => ?_⟩
      have hhead : c.buffered.head? = some current := h.head current hcurrent
      show (c.buffered ++ [_]).head? = some current
      rw [List.head?_append, hhead]
      rfl

/-! ### Acknowledging -/

/-- An acknowledgement of the head of the buffer takes exactly the head off. -/
theorem ackThrough_head (h : CursorsAgree c) {rest : List BufferedLiveEvent}
    (hbuffered : c.buffered = current :: rest) : current.seq = c.ackedSeqValue + 1 ∧
      CursorsAgree (ackThrough c current.seq) ∧ (ackThrough c current.seq).ackedSeqValue = current.seq := by
  obtain ⟨hseqs, hnext⟩ := h
  rw [hbuffered, List.map_cons, List.length_cons, consecutive_cons] at hseqs
  obtain ⟨hseq, hrest⟩ := List.cons.inj hseqs
  have hmax : max c.ackedSeqValue current.seq = current.seq := by omega
  have hdrop : c.buffered.dropWhile (·.seq ≤ current.seq) = rest := by
    rw [hbuffered, List.dropWhile_cons_of_pos (by simp)]
    cases rest with
    | nil => rfl
    | cons next rest =>
      rw [List.map_cons, List.length_cons, consecutive_cons] at hrest
      have hnextSeq : next.seq = c.ackedSeqValue + 1 + 1 := (List.cons.inj hrest).1
      refine List.dropWhile_cons_of_neg ?_
      simp only [decide_eq_true_eq]
      omega
  refine ⟨hseq, ⟨?_, ?_⟩, hmax⟩
  · show (c.buffered.dropWhile (·.seq ≤ max c.ackedSeqValue current.seq)).map (·.seq)
      = consecutive (max c.ackedSeqValue current.seq + 1) (c.buffered.dropWhile _).length
    rw [hmax, hdrop, hrest, hseq]
  · show c.nextSeqValue = max c.ackedSeqValue current.seq + 1 + ((c.buffered.dropWhile _).length : Nat)
    rw [hmax, hdrop, hnext, hbuffered, List.length_cons]
    push_cast
    omega

/-! ### Resyncing -/

@[simp] theorem renumber_length (seq : Int) (entries : List BufferedLiveEvent) :
    (renumber seq entries).length = entries.length := by
  induction entries generalizing seq with
  | nil => rfl
  | cons entry rest ih => exact congrArg (· + 1) (ih (seq + 1))

theorem renumber_seqs (seq : Int) (entries : List BufferedLiveEvent) :
    (renumber seq entries).map (·.seq) = consecutive seq entries.length := by
  induction entries generalizing seq with
  | nil => rfl
  | cons entry rest ih =>
    rw [List.length_cons, consecutive_cons, ← ih (seq + 1)]
    rfl

/-- A consistent resync makes the cursors agree, whatever they were before. -/
theorem resync_agree {ackedSeq expectedSeq : Int} (hexpected : expectedSeq = ackedSeq + 1) :
    CursorsAgree (resync c ackedSeq expectedSeq) := by
  unfold resync
  rw [if_neg (by omega)]
  dsimp only
  constructor
  · show (renumber expectedSeq _).map (·.seq) = consecutive (_ + 1) (renumber expectedSeq _).length
    rw [renumber_seqs, renumber_length, hexpected]
    split
    · rename_i hahead
      have hmax : max c.ackedSeqValue ackedSeq = ackedSeq := by omega
      show consecutive (ackedSeq + 1) _ = consecutive (max c.ackedSeqValue ackedSeq + 1) _
      rw [hmax]
    · rfl
  · show expectedSeq + _ = _ + 1 + ((renumber expectedSeq _).length : Int)
    rw [renumber_length, hexpected]
    split
    · rename_i hahead
      have hmax : max c.ackedSeqValue ackedSeq = ackedSeq := by omega
      show ackedSeq + 1 + _ = max c.ackedSeqValue ackedSeq + 1 + _
      rw [hmax]
    · rfl

/-! ## Steps that drop the buffer -/

/-- The reply makes the client reject everything it has buffered and go on. -/
def Refuses (c : WorkerLiveEventClient) (current : BufferedLiveEvent) : LiveEventResponse → Prop
  | .ok ackedSeq => ackedSeq ≤ c.ackedSeqValue ∨ ackedSeq > current.seq
  | .error (.resyncRequired ackedSeq expectedSeq) _ =>
    ackedSeq > current.seq ∨ (expectedSeq ≠ ackedSeq + 1 ∧ current.lastResync ≠ some { ackedSeq, expectedSeq })
  | .error details _ => ownershipFence details = none

/-- The event makes the client reject everything it has buffered and go on: a refusing reply, or the
`catch` callback of a drain that threw. -/
def DropsBuffer (c : WorkerLiveEventClient) : ClientEvent → Prop
  | .response response => ∃ current, c.drain = .requesting current ∧ Refuses c current response
  | .catchCallback => ∃ error, c.drain = .threw error
  | _ => False

@[simp] theorem drainHead_agree (c : WorkerLiveEventClient) : CursorsAgree (drainHead c) ↔ CursorsAgree c := by
  unfold drainHead
  split
  · rfl
  · rfl

/-- **The gap**: rejecting a non-empty buffer leaves `nextSeqValue` behind. -/
theorem rejectAll_disagree (h : CursorsAgree c) (hbuffered : c.buffered ≠ []) (error : String) :
    ¬CursorsAgree (rejectAll c error) := by
  rintro ⟨-, hnext⟩
  have hbefore := h.2
  have hpos := List.length_pos_of_ne_nil hbuffered
  have hafter : c.nextSeqValue = c.ackedSeqValue + 1 + ((0 : Nat) : Int) := hnext
  omega

/-- An acknowledgement that is not ahead changes neither the cursor nor the buffer. -/
theorem ackThrough_stale (h : CursorsAgree c) {ackedSeq : Int} (hstale : ackedSeq ≤ c.ackedSeqValue) :
    (ackThrough c ackedSeq).buffered = c.buffered ∧ (ackThrough c ackedSeq).ackedSeqValue = c.ackedSeqValue := by
  have hmax : max c.ackedSeqValue ackedSeq = c.ackedSeqValue := by omega
  refine ⟨?_, hmax⟩
  show c.buffered.dropWhile (·.seq ≤ max c.ackedSeqValue ackedSeq) = c.buffered
  rw [hmax]
  have hseqs := h.1
  cases hbuffered : c.buffered with
  | nil => rfl
  | cons current rest =>
    rw [hbuffered, List.map_cons, List.length_cons, consecutive_cons] at hseqs
    have hseq : current.seq = c.ackedSeqValue + 1 := (List.cons.inj hseqs).1
    refine List.dropWhile_cons_of_neg ?_
    simp only [decide_eq_true_eq]
    omega

/-- The head of the buffer, as a suspended request sees it. -/
theorem CursorInv.requesting (h : CursorInv c) (hdrain : c.drain = .requesting current) :
    ∃ rest, c.buffered = current :: rest := by
  have hhead : c.buffered.head? = some current := h.head current (by rw [hdrain]; rfl)
  cases hbuffered : c.buffered with
  | nil =>
    rw [hbuffered] at hhead
    cases hhead
  | cons first rest =>
    rw [hbuffered] at hhead
    cases hhead
    exact ⟨rest, rfl⟩

theorem acknowledged_inv (h : CursorInv c) (hdrain : c.drain = .requesting current) {ackedSeq : Int}
    (hreply : ¬Refuses c current (.ok ackedSeq)) : CursorInv (acknowledged c current ackedSeq) := by
  obtain ⟨rest, hbuffered⟩ := h.requesting hdrain
  obtain ⟨hseq, hagree, hacked⟩ := ackThrough_head h.agree hbuffered
  have hrange : ¬(ackedSeq ≤ c.ackedSeqValue ∨ ackedSeq > current.seq) := hreply
  have hack : ackedSeq = current.seq := by omega
  subst hack
  unfold acknowledged
  rw [if_neg (by simp; omega)]
  dsimp only
  have hadvanced : ¬(ackThrough c current.seq).ackedSeqValue = c.ackedSeqValue := by omega
  rw [if_neg (by simp [hadvanced])]
  exact drainHead_inv hagree

theorem acknowledged_disagree (h : CursorInv c) (hdrain : c.drain = .requesting current) {ackedSeq : Int}
    (hreply : Refuses c current (.ok ackedSeq)) : ¬CursorsAgree (acknowledged c current ackedSeq) := by
  obtain ⟨rest, hbuffered⟩ := h.requesting hdrain
  have hne : c.buffered ≠ [] := by
    rw [hbuffered]
    exact List.cons_ne_nil _ _
  unfold acknowledged
  dsimp only
  split
  · exact rejectAll_disagree h.agree hne ""
  · rename_i hrange
    have hrange' : c.ackedSeqValue ≤ ackedSeq ∧ ackedSeq ≤ current.seq := by simpa using hrange
    have hreply' : ackedSeq ≤ c.ackedSeqValue ∨ ackedSeq > current.seq := hreply
    have hstale : ackedSeq ≤ c.ackedSeqValue := by omega
    obtain ⟨hsame, hacked⟩ := ackThrough_stale h.agree hstale
    have hstuck : ((ackThrough c ackedSeq).ackedSeqValue = c.ackedSeqValue &&
        (ackThrough c ackedSeq).buffered.head?.any (·.ticket = current.ticket)) = true := by
      rw [hacked, hsame, hbuffered]
      simp
    rw [if_pos hstuck]
    have hagree : CursorsAgree (ackThrough c ackedSeq) := by
      constructor
      · rw [hsame, hacked]
        exact h.agree.1
      · rw [hsame, hacked]
        exact h.agree.2
    exact rejectAll_disagree hagree (hsame ▸ hne) ""

theorem resyncReplied_inv (h : CursorInv c) {ackedSeq expectedSeq : Int} {message : String}
    (hreply : ¬Refuses c current (.error (.resyncRequired ackedSeq expectedSeq) message)) :
    CursorInv (resyncReplied c current { ackedSeq, expectedSeq }) := by
  have hreply' : ¬(ackedSeq > current.seq ∨ (expectedSeq ≠ ackedSeq + 1 ∧
    current.lastResync ≠ some { ackedSeq, expectedSeq })) := hreply
  unfold resyncReplied
  split
  · rename_i hunsent
    exact absurd (.inl hunsent) hreply'
  · split
    · exact ⟨h.agree, fun _ hcurrent => by cases hcurrent⟩
    · rename_i hnew
      have hexpected : expectedSeq = ackedSeq + 1 := by
        by_contra hne
        exact hreply' (.inr ⟨hne, hnew⟩)
      exact drainHead_inv (resync_agree hexpected)

/-- Noting the cursor on the entry changes no number. -/
theorem noteResync_agree (h : CursorsAgree c) (current : BufferedLiveEvent) (cursor : ResyncCursor) :
    CursorsAgree (noteResync c current cursor) := by
  have hlength : (noteResync c current cursor).buffered.length = c.buffered.length := List.length_map _
  have hseqs : (noteResync c current cursor).buffered.map (·.seq) = c.buffered.map (·.seq) := by
    simp only [noteResync, List.map_map]
    refine List.map_congr_left fun entry _ => ?_
    by_cases hticket : entry.ticket = current.ticket
    · simp [hticket]
    · simp [hticket]
  constructor
  · rw [hseqs, hlength]
    exact h.1
  · rw [hlength]
    exact h.2

theorem resyncReplied_disagree (h : CursorInv c) (hdrain : c.drain = .requesting current) {ackedSeq expectedSeq : Int}
    {message : String} (hreply : Refuses c current (.error (.resyncRequired ackedSeq expectedSeq) message)) :
    ¬CursorsAgree (resyncReplied c current { ackedSeq, expectedSeq }) := by
  obtain ⟨rest, hbuffered⟩ := h.requesting hdrain
  have hne : c.buffered ≠ [] := by
    rw [hbuffered]
    exact List.cons_ne_nil _ _
  unfold resyncReplied
  rcases hreply with hunsent | ⟨hinconsistent, hnew⟩
  · rw [if_pos hunsent]
    exact rejectAll_disagree h.agree hne ""
  · split
    · exact rejectAll_disagree h.agree hne ""
    · rw [drainHead_agree]
      unfold resync
      rw [if_pos hinconsistent]
      have hnoted : (noteResync c current { ackedSeq, expectedSeq }).buffered ≠ [] := by
        simpa [noteResync] using hne
      exact rejectAll_disagree (noteResync_agree h.agree _ _) hnoted ""

/-! ## One event -/

theorem connectionChanged_inv (h : CursorInv c) {state : WorkerConnectionState}
    (hopen : Open (connectionChanged c state)) : CursorInv (connectionChanged c state) := by
  unfold connectionChanged at hopen ⊢
  dsimp only at hopen ⊢
  split
  · exact ⟨h.agree, h.head⟩
  · rename_i hdisposed
    rw [if_neg hdisposed] at hopen
    cases state with
    | fenced reason => exact absurd hopen.2 (by simp [rejectAll, isTerminalConnection])
    | failed error => exact absurd hopen.2 (by simp [rejectAll, isTerminalConnection])
    | stopped => exact absurd hopen.2 (by simp [rejectAll, isTerminalConnection])
    | _ => exact ⟨h.agree, h.head⟩

/-- A fence takes the connection down for good. -/
theorem fence_not_open (c : WorkerLiveEventClient) (reason : WorkerFencedReason) (error : String) :
    ¬Open (returns (rejectAll (fence c reason) error)) := by
  rintro ⟨-, hlive⟩
  have hlive' : isTerminalConnection (fence c reason).connection = false := hlive
  unfold fence at hlive'
  split at hlive'
  · rename_i hterminal
    rw [hterminal] at hlive'
    cases hlive'
  · unfold connectionChanged at hlive'
    dsimp only at hlive'
    split at hlive'
    · cases hlive'
    · cases hlive'

/-- An error reply either resyncs, refuses, or fences the connection. -/
theorem responded_inv (h : CursorInv c) (hdrain : c.drain = .requesting current) {response : LiveEventResponse}
    (hreply : ¬Refuses c current response) (hopen : Open (responded c current response)) :
    CursorInv (responded c current response) := by
  unfold responded at hopen ⊢
  split
  · exact acknowledged_inv h hdrain hreply
  · exact resyncReplied_inv h hreply
  · rename_i details message hother
    exfalso
    cases hfence : ownershipFence details with
    | none =>
      cases details with
      | resyncRequired ackedSeq expectedSeq => exact hother _ _ rfl
      | _ => exact hreply hfence
    | some reason =>
      have hnot := fence_not_open c reason message
      cases details with
      | resyncRequired ackedSeq expectedSeq => cases hfence
      | _ =>
        dsimp only [fenceForOwnershipError] at hopen
        rw [hfence] at hopen
        exact hnot hopen

theorem roundFailed_inv (h : CursorInv c) (error : RequestError) : CursorInv (roundFailed c error) := by
  have hno : ∀ current, (none : Option BufferedLiveEvent) = some current → c.buffered.head? = some current := by
    intro current hcurrent
    cases hcurrent
  unfold roundFailed
  split
  · split
    · exact ⟨h.agree, hno⟩
    · exact ⟨h.agree, hno⟩
  · exact ⟨h.agree, hno⟩

theorem responded_disagree (h : CursorInv c) (hdrain : c.drain = .requesting current) {response : LiveEventResponse}
    (hreply : Refuses c current response) : ¬CursorsAgree (responded c current response) := by
  obtain ⟨rest, hbuffered⟩ := h.requesting hdrain
  have hne : c.buffered ≠ [] := by
    rw [hbuffered]
    exact List.cons_ne_nil _ _
  unfold responded
  split
  · exact acknowledged_disagree h hdrain hreply
  · exact resyncReplied_disagree h hdrain hreply
  · rename_i details message hother
    have hfence : ownershipFence details = none := by
      cases details with
      | resyncRequired ackedSeq expectedSeq => exact absurd rfl (hother _ _)
      | _ => exact hreply
    have hsame : fenceForOwnershipError c details = c := by
      unfold fenceForOwnershipError
      rw [hfence]
    rw [hsame]
    exact rejectAll_disagree h.agree hne ""

/-! ### Disposed clients and terminal connections stay so -/

/-- `c'` is in use only if `c` was. -/
def Closes (c c' : WorkerLiveEventClient) : Prop := Open c' → Open c

theorem closes_of_same {c c' : WorkerLiveEventClient} (hdisposed : c'.disposed = c.disposed)
    (hconnection : c'.connection = c.connection) : Closes c c' := by
  rintro ⟨hd, hc⟩
  exact ⟨hdisposed ▸ hd, hconnection ▸ hc⟩

theorem drainHead_status (c : WorkerLiveEventClient) :
    (drainHead c).disposed = c.disposed ∧ (drainHead c).connection = c.connection := by
  unfold drainHead
  split <;> exact ⟨rfl, rfl⟩

theorem scheduleDrain_status (c : WorkerLiveEventClient) :
    (scheduleDrain c).disposed = c.disposed ∧ (scheduleDrain c).connection = c.connection := by
  unfold scheduleDrain
  split
  · exact drainHead_status c
  · exact ⟨rfl, rfl⟩

theorem resync_status (c : WorkerLiveEventClient) (ackedSeq expectedSeq : Int) :
    (resync c ackedSeq expectedSeq).disposed = c.disposed ∧
      (resync c ackedSeq expectedSeq).connection = c.connection := by
  unfold resync
  split
  · exact ⟨rfl, rfl⟩
  · dsimp only
    split <;> exact ⟨rfl, rfl⟩

theorem emit_closes (c : WorkerLiveEventClient) (runId : String) (event : WorkerLiveEvent) :
    Closes c (emit c runId event) := by
  unfold emit
  dsimp only
  split
  · exact id
  · split
    · exact id
    · have hstatus := scheduleDrain_status { c with
        buffered := c.buffered ++ [{ ticket := c.tickets, seq := c.nextSeqValue, runId, event }]
        nextSeqValue := c.nextSeqValue + 1
        tickets := c.tickets + 1 }
      exact closes_of_same hstatus.1 hstatus.2

theorem connectionChanged_closes {state : WorkerConnectionState} (hlegal : isTerminalConnection c.connection = true →
    isTerminalConnection state = true) : Closes c (connectionChanged c state) := by
  have hstatus : (connectionChanged c state).disposed = c.disposed ∧
      (connectionChanged c state).connection = state := by
    unfold connectionChanged
    dsimp only
    split
    · exact ⟨rfl, rfl⟩
    · cases state <;> exact ⟨rfl, rfl⟩
  rintro ⟨hdisposed, hlive⟩
  refine ⟨hstatus.1 ▸ hdisposed, ?_⟩
  rw [hstatus.2] at hlive
  cases hterminal : isTerminalConnection c.connection with
  | false => rfl
  | true => exact absurd (hlegal hterminal) (by simp [hlive])

theorem fence_closes (c : WorkerLiveEventClient) (reason : WorkerFencedReason) : Closes c (fence c reason) := by
  unfold fence
  split
  · exact id
  · exact connectionChanged_closes fun _ => rfl

theorem roundFailed_closes (c : WorkerLiveEventClient) (error : RequestError) : Closes c (roundFailed c error) := by
  unfold roundFailed
  split
  · split <;> exact id
  · exact id

theorem responded_closes (c : WorkerLiveEventClient) (current : BufferedLiveEvent)
    (response : LiveEventResponse) : Closes c (responded c current response) := by
  unfold responded
  split
  · rename_i ackedSeq
    unfold acknowledged
    split
    · exact id
    · dsimp only
      split
      · exact id
      · have hstatus := drainHead_status (ackThrough c ackedSeq)
        exact closes_of_same hstatus.1 hstatus.2
  · rename_i ackedSeq expectedSeq message
    unfold resyncReplied
    split
    · exact id
    · split
      · exact id
      · have hhead := drainHead_status
          (resync (noteResync c current { ackedSeq, expectedSeq }) ackedSeq expectedSeq)
        have hresync := resync_status (noteResync c current { ackedSeq, expectedSeq }) ackedSeq expectedSeq
        exact closes_of_same (hhead.1.trans hresync.1) (hhead.2.trans hresync.2)
  · rename_i details message hother
    show Closes c (fenceForOwnershipError c details)
    unfold fenceForOwnershipError
    split
    · exact fence_closes c _
    · exact id

/-- **What one event does to a client in use**: it keeps the contract, unless it drops a buffer that
is not empty, and then it breaks it. -/
theorem stepClient?_inv {c c' : WorkerLiveEventClient} {event : ClientEvent} (hstep : stepClient? c event = some c') :
    Closes c c' ∧ (CursorInv c → Open c' → (¬(c.buffered ≠ [] ∧ DropsBuffer c event) → CursorInv c') ∧
      (c.buffered ≠ [] ∧ DropsBuffer c event → ¬CursorsAgree c')) := by
  cases event with
  | emit runId event =>
    cases hstep
    exact ⟨emit_closes c runId event, fun h _ => ⟨fun _ => emit_inv h runId event, fun h => h.2.elim⟩⟩
  | dispose =>
    cases hstep
    unfold dispose
    split
    · exact ⟨id, fun h _ => ⟨fun _ => h, fun h => h.2.elim⟩⟩
    · exact ⟨fun h => absurd h.1 (by simp [rejectAll]), fun _ h => absurd h.1 (by simp [rejectAll])⟩
  | connectionChanged state =>
    simp only [stepClient?] at hstep
    split at hstep
    · cases hstep
    · rename_i hlegal
      cases hstep
      exact ⟨connectionChanged_closes (by simpa using hlegal),
        fun h hopen => ⟨fun _ => connectionChanged_inv h hopen, fun h => h.2.elim⟩⟩
  | ready =>
    cases hstep
    have hstatus := scheduleDrain_status c
    exact ⟨closes_of_same hstatus.1 hstatus.2,
      fun h _ => ⟨fun _ => scheduleDrain_inv h, fun h => h.2.elim⟩⟩
  | readyResolved =>
    simp only [stepClient?] at hstep
    split at hstep
    · rename_i current hdrain
      cases hstep
      refine ⟨id, fun h _ => ⟨fun _ => ⟨h.agree, fun current' hcurrent => ?_⟩, fun h => h.2.elim⟩⟩
      cases hcurrent
      exact h.head current (by rw [hdrain]; rfl)
    · cases hstep
  | readyRejected error =>
    simp only [stepClient?] at hstep
    split at hstep
    · cases hstep
      exact ⟨roundFailed_closes c error, fun h _ => ⟨fun _ => roundFailed_inv h error, fun h => h.2.elim⟩⟩
    · cases hstep
  | response response =>
    simp only [stepClient?] at hstep
    split at hstep
    · rename_i current hdrain
      cases hstep
      refine ⟨responded_closes c current response, fun h hopen => ⟨fun hkeeps => ?_, ?_⟩⟩
      · refine responded_inv h hdrain (fun hrefuses => hkeeps ⟨?_, current, hdrain, hrefuses⟩) hopen
        obtain ⟨rest, hbuffered⟩ := h.requesting hdrain
        rw [hbuffered]
        exact List.cons_ne_nil _ _
      · rintro ⟨-, current', hdrain', hrefuses⟩
        rw [hdrain] at hdrain'
        cases hdrain'
        exact responded_disagree h hdrain hrefuses
    · cases hstep
  | requestRejected error =>
    simp only [stepClient?] at hstep
    split at hstep
    · cases hstep
      exact ⟨roundFailed_closes c error, fun h _ => ⟨fun _ => roundFailed_inv h error, fun h => h.2.elim⟩⟩
    · cases hstep
  | catchCallback =>
    simp only [stepClient?] at hstep
    split at hstep
    · rename_i error hdrain
      cases hstep
      refine ⟨id, fun h _ => ⟨fun hkeeps => ?_, fun hdrops => rejectAll_disagree h.agree hdrops.1 ""⟩⟩
      have hempty : c.buffered = [] := by
        by_contra hne
        exact hkeeps ⟨hne, error, hdrain⟩
      refine ⟨⟨rfl, ?_⟩, fun _ hcurrent => by cases hcurrent⟩
      have hnext := h.agree.2
      rw [hempty] at hnext
      exact hnext
    · cases hstep
  | finallyCallback =>
    simp only [stepClient?] at hstep
    split at hstep
    · cases hstep
      have hstatus := scheduleDrain_status { c with drain := .idle }
      refine ⟨closes_of_same hstatus.1 hstatus.2, fun h _ => ⟨fun _ => ?_, fun h => h.2.elim⟩⟩
      exact scheduleDrain_inv ⟨h.agree, fun _ hcurrent => by cases hcurrent⟩
    · cases hstep

/-! ## Runs -/

/-- The condition on one event: on a client in use it drops nothing that is buffered. -/
def DropsNothing (c : WorkerLiveEventClient) (event : ClientEvent) : Prop :=
  Open c → c.buffered ≠ [] → ¬DropsBuffer c event

theorem stepClient_inv {event : ClientEvent} (hdrops : DropsNothing c event) (h : Open c → CursorInv c) :
    Open (stepClient c event) → CursorInv (stepClient c event) := by
  refine skipDisabled_keeps (P := fun c' => Open c' → CursorInv c') h fun c' hstep hopen => ?_
  obtain ⟨hcloses, hspec⟩ := stepClient?_inv hstep
  have hbefore := hcloses hopen
  exact (hspec (h hbefore) hopen).1 fun hdrop => hdrops hbefore hdrop.1 hdrop.2

theorem newClient_inv (runEpoch : Int) (connection : WorkerConnectionState) (initialAckedSeq : Int)
    (maxBufferedEvents : Nat) : CursorInv (newClient runEpoch connection initialAckedSeq maxBufferedEvents) := by
  refine ⟨⟨rfl, ?_⟩, fun _ hcurrent => by cases hcurrent⟩
  show initialAckedSeq + 1 = initialAckedSeq + 1 + ((0 : Nat) : Int)
  omega

/-- **The cursors agree in every run that drops nothing.**  In every state such a run reaches in which
the client is in use, the buffered events are numbered from `ackedSeqValue + 1` to
`nextSeqValue - 1`, and the event about to be sent is the one the gateway expects next. -/
theorem live_event_cursors_agree (runEpoch : Int) (connection : WorkerConnectionState)
    (initialAckedSeq : Int) (maxBufferedEvents : Nat) (script : List ClientEvent)
    (hdrops : Guarded stepClient DropsNothing
      (newClient runEpoch connection initialAckedSeq maxBufferedEvents) script) :
    let c := run stepClient (newClient runEpoch connection initialAckedSeq maxBufferedEvents) script
    Open c → CursorsAgree c ∧ ∀ current, c.drain.current? = some current → current.seq = c.ackedSeqValue + 1 := by
  intro c hopen
  have hinv : CursorInv c :=
    run_invariant_guarded (P := fun c => Open c → CursorInv c)
      (fun _ _ hdrops h => stepClient_inv hdrops h) script hdrops
      (fun _ => newClient_inv runEpoch connection initialAckedSeq maxBufferedEvents) hopen
  refine ⟨hinv.agree, fun current hcurrent => ?_⟩
  have hhead := hinv.head current hcurrent
  have hseqs := hinv.agree.1
  cases hbuffered : c.buffered with
  | nil =>
    rw [hbuffered] at hhead
    cases hhead
  | cons first rest =>
    rw [hbuffered] at hhead hseqs
    cases hhead
    rw [List.map_cons, List.length_cons, consecutive_cons] at hseqs
    exact (List.cons.inj hseqs).1

/-! ### Two runs -/

def textEvent : WorkerLiveEvent where
  kind := .assistant
  json := "text"

/-- Two events; the gateway starts over at 0, then takes both. -/
def resyncedScript : List ClientEvent :=
  [.emit "run" textEvent, .emit "run" textEvent, .readyResolved,
    .response (.error (.resyncRequired 0 1) "Replay required"), .readyResolved,
    .requestRejected (.interrupted "worker connection interrupted"), .finallyCallback, .readyResolved,
    .response (.ok 1), .emit "run" textEvent, .readyResolved]

theorem live_event_cursors_agree_resynced :
    let c := run stepClient (newClient 3 .ready 5) resyncedScript
    c.buffered.map (·.seq) = [2, 3] ∧ CursorsAgree c := by
  have hdrops : Guarded stepClient DropsNothing (newClient 3 .ready 5) resyncedScript := by
    refine ⟨fun _ _ h => h, fun _ _ h => h, fun _ _ h => h, ?_, fun _ _ h => h, fun _ _ h => h,
      fun _ _ h => h, fun _ _ h => h, ?_, fun _ _ h => h, fun _ _ h => h, trivial⟩
    · rintro - - ⟨current, hdrain, hunsent | ⟨hinconsistent, -⟩⟩
      · cases hdrain
        exact absurd hunsent (by decide)
      · exact hinconsistent rfl
    · rintro - - ⟨current, hdrain, hstale | hunsent⟩
      · exact absurd hstale (by decide)
      · cases hdrain
        exact absurd hunsent (by decide)
  exact ⟨rfl, (live_event_cursors_agree 3 .ready 5 1024 resyncedScript hdrops ⟨rfl, rfl⟩).1⟩

/-- The gateway finds the first event invalid; the next one goes out under a number it does not
expect. -/
def invalidEventScript : List ClientEvent :=
  [.emit "run" textEvent, .readyResolved, .response (.error .invalidEvent "Invalid event"),
    .finallyCallback, .emit "run" textEvent]

theorem live_event_cursors_disagree_invalidEvent :
    ¬∀ script : List ClientEvent, Open (run stepClient (newClient 3 .ready) script) →
      CursorsAgree (run stepClient (newClient 3 .ready) script) := by
  intro h
  have hseqs : [(2 : Int)] = [1] := (h invalidEventScript ⟨rfl, rfl⟩).1
  exact absurd hseqs (by decide)

end OpenClaw.Worker
