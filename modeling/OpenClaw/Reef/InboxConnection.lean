/-
# OpenClaw.Reef.InboxConnection -- a cursor that drains and live frames share

The inbox connection drains the relay page by page, then listens on a socket until it ends, then drains
again.  A page is processed before the cursor moves to its end.  A live frame moves the cursor first and
is processed afterwards, and an abandoned socket still takes frames.  So an entry whose processing fails
after its frame moved the cursor is not pulled again; here is when none is lost that way.

This follows `ReefInboxConnection` of `transport.ts`.  Each await is the end of an event, and the relay
answers a pull after `c` with the entries it stores above `c`.
-/
import OpenClaw.Data.JsNumeral
import OpenClaw.Logic.Run

namespace OpenClaw.Reef

open OpenClaw.Data OpenClaw.Logic

/-- An entry of the inbox; what it carries is `π`. -/
structure InboxEntry (π : Type) where
  seq : Nat
  peer : Text
  id : Text
  payload : π
  deriving DecidableEq

/-- Where the loop of `start` stands. -/
inductive LoopPhase (π : Type) where
  /-- Before a drain: at the start, after a socket ended, or in the delay after an error. -/
  | idle
  | pulling (after : Nat)
  | processing (page : List (InboxEntry π)) (cursor : Nat)
  | live (socket : Nat)
  deriving DecidableEq

structure InboxConnection (π : Type) where
  cursor : Nat := 0
  phase : LoopPhase π := .idle
  /-- How many sockets were opened; an abandoned one still takes frames. -/
  sockets : Nat := 0
  /-- The live frames whose processing has not ended, with their sockets. -/
  inFlight : List (Nat × InboxEntry π) := []
  /-- What the relay stores. -/
  stored : List (InboxEntry π) := []
  /-- The entries that failed, that the relay still stores, and that no drain gave out since. -/
  owed : List (InboxEntry π) := []
  /-- Those that were owed when the last drain began, and that it has not given out. -/
  due : List (InboxEntry π) := []
  deriving DecidableEq

inductive InboxEvent (π : Type) where
  /-- The relay takes an entry in. -/
  | store (entry : InboxEntry π)
  /-- The relay drops an entry that is acknowledged. -/
  | forget (entry : InboxEntry π)
  | drain
  | pulled
  | pullFailed
  | pageDone
  /-- The processing of a page throws after some of its entries. -/
  | pageFailed (processed : Nat)
  | frame (socket : Nat) (entry : InboxEntry π)
  | frameDone (index : Nat)
  | frameFailed (index : Nat)
  /-- The socket closes, errs, or takes a frame that is no JSON. -/
  | socketEnded (socket : Nat)

section Connection

variable {π : Type} [DecidableEq π]

/-- The answer of the relay to a pull, with the cursor it names. -/
def relayPull (stored : List (InboxEntry π)) (after : Nat) : List (InboxEntry π) × Nat :=
  let entries := stored.filter (after < ·.seq)
  (entries, (entries.map (·.seq)).foldl max after)

namespace InboxConnection

variable (conn : InboxConnection π)

/-- A drain that returns is followed by a new socket. -/
def goLive : InboxConnection π := { conn with phase := .live conn.sockets, sockets := conn.sockets + 1 }

/-- `settle` on the socket that `start` waits for; on another one it does nothing. -/
def settle (socket : Nat) : InboxConnection π :=
  if conn.phase = .live socket then { conn with phase := .idle } else conn

/-- A page reaches `onEntries`. -/
def giveOut (page : List (InboxEntry π)) (cursor : Nat) : InboxConnection π :=
  { conn with
    phase := .processing page cursor
    owed := conn.owed.filter (· ∉ page)
    due := conn.due.filter (· ∉ page) }

/-- Entries fail; the relay owes those it still stores. -/
def fail (entries : List (InboxEntry π)) : InboxConnection π :=
  { conn with owed := conn.owed ++ entries.filter (· ∈ conn.stored) }

def step? : InboxEvent π → Option (InboxConnection π)
  | .store entry => some { conn with stored := conn.stored ++ [entry] }
  | .forget entry =>
    some { conn with
      stored := conn.stored.filter (· ≠ entry)
      owed := conn.owed.filter (· ≠ entry)
      due := conn.due.filter (· ≠ entry) }
  | .drain =>
    match conn.phase with
    | .idle => some { conn with phase := .pulling conn.cursor, due := conn.owed }
    | _ => none
  | .pulled =>
    match conn.phase with
    | .pulling after =>
      let (entries, cursor) := relayPull conn.stored after
      if entries = [] then some { conn with cursor }.goLive
      else some (conn.giveOut entries cursor)
    | _ => none
  | .pullFailed =>
    match conn.phase with
    | .pulling _ => some { conn with phase := .idle }
    | _ => none
  | .pageDone =>
    match conn.phase with
    | .processing _ cursor =>
      if cursor = conn.cursor then some conn.goLive
      else some { conn with cursor, phase := .pulling cursor }
    | _ => none
  | .pageFailed processed =>
    match conn.phase with
    | .processing page _ => some ({ conn with phase := .idle }.fail (page.drop processed))
    | _ => none
  | .frame socket entry =>
    if socket < conn.sockets ∧ entry ∈ conn.stored then
      -- The cursor moves before the entry is processed.
      some { conn with
        cursor := max conn.cursor entry.seq, inFlight := conn.inFlight ++ [(socket, entry)] }
    else none
  | .frameDone index => some { conn with inFlight := conn.inFlight.eraseIdx index }
  | .frameFailed index =>
    match conn.inFlight[index]? with
    | some (socket, entry) => some (({ conn with inFlight := conn.inFlight.eraseIdx index }.fail [entry]).settle socket)
    | none => none
  | .socketEnded socket => some (conn.settle socket)

end InboxConnection

def inboxStep (conn : InboxConnection π) (event : InboxEvent π) : InboxConnection π :=
  skipDisabled InboxConnection.step? conn event

/-! ## Redelivery -/

/-- Once a drain has an answer to its pull, what failed before it began has been given out again. -/
def Redelivered (conn : InboxConnection π) : Prop :=
  match conn.phase with
  | .processing _ _ | .live _ => conn.due = []
  | _ => True

/-- No step puts the cursor at or past an entry that failed, or fails an entry that it has passed. -/
def NotPassed (conn : InboxConnection π) : InboxEvent π → Prop
  | .frame _ entry => ∀ failed ∈ conn.owed, entry.seq < failed.seq
  | .frameFailed index => ∀ socket entry, conn.inFlight[index]? = some (socket, entry) →
      entry ∈ conn.stored → conn.cursor < entry.seq
  | .pageFailed processed => ∀ page cursor, conn.phase = .processing page cursor →
      ∀ entry ∈ page.drop processed, entry ∈ conn.stored → conn.cursor < entry.seq
  | .pageDone => ∀ page cursor, conn.phase = .processing page cursor →
      ∀ failed ∈ conn.owed, cursor < failed.seq
  | _ => True

/-- What is owed is stored above the cursor, so the next pull brings it. -/
structure Pending (conn : InboxConnection π) : Prop where
  ahead : ∀ entry ∈ conn.owed, conn.cursor < entry.seq
  held : ∀ entry ∈ conn.owed, entry ∈ conn.stored
  dueOwed : ∀ entry ∈ conn.due, entry ∈ conn.owed
  notAhead : ∀ after, conn.phase = .pulling after → after ≤ conn.cursor
  redelivered : Redelivered conn

theorem Pending.settle {conn : InboxConnection π} (h : Pending conn) (socket : Nat) : Pending (conn.settle socket) := by
  unfold InboxConnection.settle
  split
  · exact ⟨h.ahead, h.held, h.dueOwed, fun _ hphase => by simp at hphase, trivial⟩
  · exact h

/-- Failing entries above the cursor are owed from now on; a drain that has no answer owes them too. -/
theorem Pending.fail {conn : InboxConnection π} (h : Pending conn) {entries : List (InboxEntry π)}
    (hahead : ∀ entry ∈ entries, entry ∈ conn.stored → conn.cursor < entry.seq) : Pending (conn.fail entries) := by
  refine ⟨?_, ?_, ?_, h.notAhead, h.redelivered⟩
  · intro entry hentry
    rcases List.mem_append.mp hentry with hold | hnew
    · exact h.ahead entry hold
    · obtain ⟨hmem, hstored⟩ := List.mem_filter.mp hnew
      exact hahead entry hmem (of_decide_eq_true hstored)
  · intro entry hentry
    rcases List.mem_append.mp hentry with hold | hnew
    · exact h.held entry hold
    · exact of_decide_eq_true (List.mem_filter.mp hnew).2
  · intro entry hentry
    exact List.mem_append_left _ (h.dueOwed entry hentry)

omit [DecidableEq π] in
/-- The relay's answer has all that is due. -/
theorem Pending.due_pulled {conn : InboxConnection π} (h : Pending conn) {after : Nat}
    (hphase : conn.phase = .pulling after) {entry : InboxEntry π} (hentry : entry ∈ conn.due) :
    entry ∈ (relayPull conn.stored after).1 := by
  have howed := h.dueOwed entry hentry
  have hafter : after < entry.seq := Nat.lt_of_le_of_lt (h.notAhead after hphase) (h.ahead entry howed)
  simpa [relayPull, hafter] using h.held entry howed

theorem Pending.pulled {conn : InboxConnection π} (h : Pending conn) {after : Nat}
    (hphase : conn.phase = .pulling after) :
    Pending (if (relayPull conn.stored after).1 = [] then
        { conn with cursor := (relayPull conn.stored after).2 }.goLive
      else conn.giveOut (relayPull conn.stored after).1 (relayPull conn.stored after).2) := by
  split
  · rename_i hempty
    have hdue : conn.due = [] := by
      refine List.eq_nil_iff_forall_not_mem.mpr fun entry hentry => ?_
      have hpulled := h.due_pulled hphase hentry
      simp [hempty] at hpulled
    have hcursor : (relayPull conn.stored after).2 = after := by
      have hentries : conn.stored.filter (after < ·.seq) = [] := hempty
      simp [relayPull, hentries]
    refine ⟨?_, h.held, h.dueOwed, fun _ hlive => by simp [InboxConnection.goLive] at hlive, hdue⟩
    intro entry hentry
    simp only [InboxConnection.goLive, hcursor]
    exact Nat.lt_of_le_of_lt (h.notAhead after hphase) (h.ahead entry hentry)
  · refine ⟨?_, ?_, ?_, fun _ hprocessing => by simp [InboxConnection.giveOut] at hprocessing, ?_⟩
    · intro entry hentry
      exact h.ahead entry (List.mem_filter.mp hentry).1
    · intro entry hentry
      exact h.held entry (List.mem_filter.mp hentry).1
    · intro entry hentry
      obtain ⟨hdue, hnot⟩ := List.mem_filter.mp hentry
      exact List.mem_filter.mpr ⟨h.dueOwed entry hdue, hnot⟩
    · refine List.eq_nil_iff_forall_not_mem.mpr fun entry hentry => ?_
      obtain ⟨hdue, hnot⟩ := List.mem_filter.mp hentry
      simp [h.due_pulled hphase hdue] at hnot

theorem Pending.step {conn conn' : InboxConnection π} {event : InboxEvent π} (h : Pending conn)
    (hnot : NotPassed conn event) (hstep : conn.step? event = some conn') : Pending conn' := by
  cases event with
  | store entry =>
    obtain rfl := Option.some.inj hstep
    exact ⟨h.ahead, fun e he => List.mem_append_left _ (h.held e he), h.dueOwed, h.notAhead, h.redelivered⟩
  | forget entry =>
    obtain rfl := Option.some.inj hstep
    refine ⟨?_, ?_, ?_, h.notAhead, ?_⟩
    · intro e he
      exact h.ahead e (List.mem_filter.mp he).1
    · intro e he
      obtain ⟨howed, hne⟩ := List.mem_filter.mp he
      exact List.mem_filter.mpr ⟨h.held e howed, hne⟩
    · intro e he
      obtain ⟨hdue, hne⟩ := List.mem_filter.mp he
      exact List.mem_filter.mpr ⟨h.dueOwed e hdue, hne⟩
    · have hred := h.redelivered
      unfold Redelivered at hred ⊢
      cases hphase : conn.phase with
      | idle => trivial
      | pulling after => trivial
      | processing page cursor => simp_all
      | live socket => simp_all
  | drain =>
    simp only [InboxConnection.step?] at hstep
    split at hstep
    · obtain rfl := Option.some.inj hstep
      refine ⟨h.ahead, h.held, fun e he => he, ?_, trivial⟩
      intro after hafter
      obtain rfl := LoopPhase.pulling.inj hafter
      exact Nat.le_refl _
    · cases hstep
  | pulled =>
    simp only [InboxConnection.step?] at hstep
    split at hstep
    · rename_i after hphase
      have hpulled := h.pulled hphase
      rw [← apply_ite some] at hstep
      obtain rfl := Option.some.inj hstep
      exact hpulled
    · cases hstep
  | pullFailed =>
    simp only [InboxConnection.step?] at hstep
    split at hstep
    · obtain rfl := Option.some.inj hstep
      exact ⟨h.ahead, h.held, h.dueOwed, fun _ hidle => by simp at hidle, trivial⟩
    · cases hstep
  | pageDone =>
    simp only [InboxConnection.step?] at hstep
    split at hstep
    · rename_i page cursor hphase
      have hdue : conn.due = [] := by
        have hred := h.redelivered
        rwa [Redelivered, hphase] at hred
      split at hstep
      · obtain rfl := Option.some.inj hstep
        exact ⟨h.ahead, h.held, h.dueOwed,
          fun _ hlive => by simp [InboxConnection.goLive] at hlive, hdue⟩
      · obtain rfl := Option.some.inj hstep
        refine ⟨hnot page cursor hphase, h.held, h.dueOwed, ?_, trivial⟩
        intro after hafter
        obtain rfl := LoopPhase.pulling.inj hafter
        exact Nat.le_refl _
    · cases hstep
  | pageFailed processed =>
    simp only [InboxConnection.step?] at hstep
    split at hstep
    · rename_i page cursor hphase
      obtain rfl := Option.some.inj hstep
      have hidle : Pending { conn with phase := .idle } :=
        ⟨h.ahead, h.held, h.dueOwed, fun _ hidle => by simp at hidle, trivial⟩
      exact hidle.fail (hnot page cursor hphase)
    · cases hstep
  | frame socket entry =>
    simp only [InboxConnection.step?] at hstep
    split at hstep
    · obtain rfl := Option.some.inj hstep
      refine ⟨?_, h.held, h.dueOwed, ?_, h.redelivered⟩
      · intro e he
        exact Nat.max_lt.mpr ⟨h.ahead e he, hnot e he⟩
      · intro after hafter
        exact Nat.le_trans (h.notAhead after hafter) (Nat.le_max_left _ _)
    · cases hstep
  | frameDone index =>
    obtain rfl := Option.some.inj hstep
    exact ⟨h.ahead, h.held, h.dueOwed, h.notAhead, h.redelivered⟩
  | frameFailed index =>
    simp only [InboxConnection.step?] at hstep
    split at hstep
    · rename_i socket entry hentry
      obtain rfl := Option.some.inj hstep
      have hrest : Pending { conn with inFlight := conn.inFlight.eraseIdx index } :=
        ⟨h.ahead, h.held, h.dueOwed, h.notAhead, h.redelivered⟩
      refine (hrest.fail ?_).settle socket
      intro e he hstored
      obtain rfl := List.mem_singleton.mp he
      exact hnot socket e hentry hstored
    · cases hstep
  | socketEnded socket =>
    obtain rfl := Option.some.inj hstep
    exact h.settle socket

theorem pending_run {stored : List (InboxEntry π)} (events : List (InboxEvent π))
    (hevents : Guarded inboxStep NotPassed { stored } events) : Pending (run inboxStep { stored } events) := by
  refine run_invariant_guarded (fun conn event hnot h => ?_) events hevents ?_
  · exact skipDisabled_keeps h fun conn' hstep => h.step hnot hstep
  · exact ⟨fun e he => by simp at he, fun e he => by simp at he, fun e he => by simp at he,
      fun _ hidle => by simp at hidle, trivial⟩

/-- **What fails is pulled again**, in every run in which the cursor does not pass a failed entry. -/
theorem failed_entries_redelivered {stored : List (InboxEntry π)} {events : List (InboxEvent π)}
    (hevents : Guarded inboxStep NotPassed { stored } events) : Redelivered (run inboxStep { stored } events) :=
  (pending_run events hevents).redelivered

end Connection

def sampleEntry (seq : Nat) : InboxEntry Unit := ⟨seq, "friend".toList, "m".toList, ()⟩

/-- A drained entry fails, is pulled again and done; then the socket is live. -/
theorem failed_entries_redelivered_page :
    Redelivered (run inboxStep { stored := [sampleEntry 1] }
      [.drain, .pulled, .pageFailed 0, .drain, .pulled, .pageDone, .pulled]) := by
  apply failed_entries_redelivered
  refine ⟨trivial, trivial, ?_, trivial, trivial, ?_, trivial, trivial⟩
  · intro page cursor hphase entry hentry _
    obtain ⟨rfl, rfl⟩ : page = [sampleEntry 1] ∧ cursor = 1 := by
      simpa [inboxStep, skipDisabled, InboxConnection.step?, relayPull, sampleEntry,
        InboxConnection.giveOut, eq_comm] using hphase
    obtain rfl : entry = sampleEntry 1 := by simpa using hentry
    decide
  · intro page cursor _ failed hfailed
    have hnone : (run inboxStep { stored := [sampleEntry 1] }
        [.drain, .pulled, .pageFailed 0, .drain, .pulled]).owed = [] := by decide
    simp only [run_cons, run_nil] at hnone
    rw [hnone] at hfailed
    cases hfailed

/-- A live frame fails after it moved the cursor: the next drain asks for what comes after it. -/
theorem failed_frame_not_redelivered : ¬ ∀ (stored : List (InboxEntry Unit)) (events : List (InboxEvent Unit)),
      Redelivered (run inboxStep { stored } events) := by
  intro h
  have hrun := h [] [.drain, .pulled, .store (sampleEntry 1), .frame 0 (sampleEntry 1), .frameFailed 0, .drain, .pulled]
  have hdue : [sampleEntry 1] = [] := hrun
  cases hdue

end OpenClaw.Reef
