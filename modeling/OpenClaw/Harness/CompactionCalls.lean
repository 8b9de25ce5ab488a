/-
# OpenClaw.Harness.CompactionCalls -- a compaction orphans no tool result

A tool result without the assistant message that issued its call is refused by the providers.  On a path
the result follows its call; between the two there are only other results and entries that are no cut
points.  A cut lies on a cut point, or is backed up from one over entries without a message, so it is
never between a call and its result, unless the boundary itself was there and no cut point came after it.
A boundary is a cut of the previous compaction, which closes the induction.
-/
import OpenClaw.Harness.CompactionKeeps

namespace OpenClaw.Harness

open OpenClaw.Data

/-! ## Calls and results -/

def toolCallIdOf : ContentBlock → Option Text
  | .toolCall id _ _ _ => some id
  | _ => none

/-- The message is the one of the assistant that issued the call. -/
def Issues (message : AgentMessage) (toolCallId : Text) : Prop :=
  ∃ blocks, message = .assistant blocks ∧ toolCallId ∈ blocks.filterMap toolCallIdOf

def isToolResult : SessionTreeEntry → Bool
  | .message _ (.toolResult _ _) => true
  | _ => false

/-- Between a tool result and the message of its call there are other results and separators. -/
def ResultsFollowCalls (separator : SessionTreeEntry → Prop) (pathEntries : List SessionTreeEntry) : Prop :=
  ∀ before id toolCallId content after,
    pathEntries = before ++ .message id (.toolResult toolCallId content) :: after →
    ∃ earlier callId message run, before = earlier ++ .message callId message :: run ∧
      Issues message toolCallId ∧ ∀ entry ∈ run, isToolResult entry ∨ separator entry

/-- Every tool result comes after the message with its call. -/
def CallsPrecedeResults (messages : List AgentMessage) : Prop :=
  ∀ before toolCallId content after, messages = before ++ .toolResult toolCallId content :: after →
    ∃ message ∈ before, Issues message toolCallId

/-- The entry gives the model nothing. -/
def Silent (entry : SessionTreeEntry) : Prop := (appendMessage entry).bind convertToLlm = none

def NoCutPoint (entry : SessionTreeEntry) : Prop := isCutPoint entry = false

/-- Each compaction of the path was chosen for the path in front of it. -/
def CompactionsChosen (contextTokens : List AgentMessage → Nat) (pathEntries : List SessionTreeEntry) : Prop :=
  ∀ before id summary firstKeptEntryId tokensBefore after,
    pathEntries = before ++ .compaction id summary firstKeptEntryId tokensBefore :: after →
    ∃ keepRecentTokens preparation,
      prepareCompaction contextTokens before keepRecentTokens = .ok (some preparation) ∧
        firstKeptEntryId = preparation.firstKeptEntryId

/-! ## Where a tail may begin -/

/-- In front of the first message there is a cut point. -/
def Opens (entries : List SessionTreeEntry) : Prop :=
  ∃ run cut rest, entries = run ++ cut :: rest ∧ isCutPoint cut ∧ ∀ entry ∈ run, entry.isMessage = false

variable {entries : List SessionTreeEntry}

theorem Opens.append (h : Opens entries) (more : List SessionTreeEntry) : Opens (entries ++ more) := by
  obtain ⟨run, cut, rest, rfl, hcut, hrun⟩ := h
  exact ⟨run, cut, rest ++ more, by simp, hcut, hrun⟩

theorem Opens.cons {entries : List SessionTreeEntry} {entry : SessionTreeEntry}
    (hentry : entry.isMessage = false) (h : Opens entries) : Opens (entry :: entries) := by
  obtain ⟨run, cut, rest, rfl, hcut, hrun⟩ := h
  refine ⟨entry :: run, cut, rest, rfl, hcut, ?_⟩
  intro other hother
  rcases List.mem_cons.mp hother with rfl | hother
  · exact hentry
  · exact hrun other hother

/-- A cut point stands before every tool result of a tail that opens. -/
theorem Opens.cut_mem {entries before after : List SessionTreeEntry} {result : SessionTreeEntry}
    (h : Opens entries) (hresult : isToolResult result) (hsplit : entries = before ++ result :: after) :
    ∃ cut ∈ before, isCutPoint cut := by
  obtain ⟨run, cut, rest, rfl, hcut, hrun⟩ := h
  have hne : cut ≠ result := by
    rintro rfl
    cases cut <;> simp_all [isToolResult, isCutPoint]
    split at hresult <;> simp_all
  have hmessage : result.isMessage := by
    unfold isToolResult at hresult
    split at hresult
    · rfl
    · cases hresult
  rcases List.append_eq_append_iff.mp hsplit with ⟨more, rfl, hmore⟩ | ⟨more, rfl, hmore⟩
  · rcases List.cons_eq_append_iff.mp hmore with ⟨rfl, heq⟩ | ⟨more, rfl, hmore⟩
    · exact absurd (List.cons.inj heq).1.symm hne
    · exact ⟨cut, by simp, hcut⟩
  · rcases List.cons_eq_append_iff.mp hmore with ⟨rfl, heq⟩ | ⟨more, rfl, hmore⟩
    · exact absurd (List.cons.inj heq).1 hne
    · have hfalse := hrun result (by simp)
      rw [hmessage] at hfalse
      cases hfalse

/-- The whole path, or a tail of it that opens. -/
def Clear (entries : List SessionTreeEntry) (index : Nat) : Prop := index = 0 ∨ Opens (entries.drop index)

theorem Clear.append {index : Nat} (h : Clear entries index) (more : List SessionTreeEntry) :
    Clear (entries ++ more) index := by
  rcases h with rfl | hopens
  · exact .inl rfl
  · right
    rcases Nat.lt_or_ge entries.length index with hlt | hle
    · rw [List.drop_eq_nil_of_le hlt.le] at hopens
      obtain ⟨run, cut, rest, hnil, _⟩ := hopens
      simp at hnil
    · rw [List.drop_append_of_le_length hle]
      exact hopens.append more

variable {pathEntries : List SessionTreeEntry} {keepRecentTokens : Int}
  {contextTokens : List AgentMessage → Nat} {preparation : CompactionPreparation}

/-- A clear tail has the call of each of its results. -/
theorem Clear.call_mem {index : Nat} (hclear : Clear pathEntries index)
    (hfollow : ResultsFollowCalls NoCutPoint pathEntries) {before after : List SessionTreeEntry}
    {id toolCallId : Text} {content : List ContentBlock}
    (hsplit : pathEntries.drop index = before ++ .message id (.toolResult toolCallId content) :: after) :
    ∃ callId message, .message callId message ∈ before ∧ Issues message toolCallId := by
  have hwhole : pathEntries =
      (pathEntries.take index ++ before) ++ .message id (.toolResult toolCallId content) :: after := by
    rw [List.append_assoc, ← hsplit, List.take_append_drop]
  obtain ⟨earlier, callId, message, run, hcall, hissues, hrun⟩ := hfollow _ _ _ _ _ hwhole
  refine ⟨callId, message, ?_, hissues⟩
  rcases hclear with rfl | hopens
  · rw [List.take_zero, List.nil_append] at hcall
    rw [hcall]
    simp
  obtain ⟨cut, hcut, hpoint⟩ := hopens.cut_mem rfl hsplit
  rcases List.append_eq_append_iff.mp hcall with ⟨more, _, rfl⟩ | ⟨more, _, hmore⟩
  · simp
  · rcases List.cons_eq_append_iff.mp hmore with ⟨rfl, rfl⟩ | ⟨more, rfl, rfl⟩
    · simp
    · -- the cut point would stand between the call and its result
      rcases hrun cut (List.mem_append_right _ hcut) with hresult | hseparator
      · unfold isToolResult at hresult
        split at hresult
        · cases hpoint
        · cases hresult
      · rw [NoCutPoint, hpoint] at hseparator
        cases hseparator

/-! ## The cut is clear -/

theorem backUp_opens {entries : List SessionTreeEntry} {startIndex : Nat} :
    ∀ {cutIndex : Nat}, Opens (entries.drop cutIndex) → Opens (entries.drop (backUp entries startIndex cutIndex))
  | 0, h => h
  | previous + 1, h => by
    unfold backUp
    split
    · split
      · exact h
      · rename_i entry hentry
        obtain ⟨hlt, hget⟩ := List.getElem?_eq_some_iff.mp hentry
        split
        · exact h
        · rename_i hother
          have hmessage : entry.isMessage = false := by
            cases hm : entry.isMessage with
            | true => simp [hm] at hother
            | false => rfl
          apply backUp_opens
          rw [List.drop_eq_getElem_cons hlt, hget]
          exact h.cons hmessage
    · exact h

theorem opens_of_mem_findValidCutPoints {startIndex endIndex i : Nat} (h :
    i ∈ findValidCutPoints entries startIndex endIndex) : Opens (entries.drop i) := by
  have hpoint := (List.mem_filter.mp h).2
  cases hentry : entries[i]? with
  | none =>
    rw [hentry] at hpoint
    cases hpoint
  | some cut =>
    rw [hentry] at hpoint
    obtain ⟨hlt, hget⟩ := List.getElem?_eq_some_iff.mp hentry
    refine ⟨[], cut, entries.drop (i + 1), ?_, hpoint, by simp⟩
    rw [List.drop_eq_getElem_cons hlt, hget, List.nil_append]

/-- From a clear boundary, the cut is clear. -/
theorem findCutPoint_clear {startIndex endIndex : Nat} (h : Clear entries startIndex) :
    Clear entries (findCutPoint entries startIndex endIndex keepRecentTokens).firstKeptEntryIndex := by
  unfold findCutPoint
  split
  · exact h
  · rename_i first rest hpoints
    right
    apply backUp_opens
    have hmem : chooseCut entries startIndex endIndex keepRecentTokens first rest ∈
        findValidCutPoints entries startIndex endIndex := by
      rw [hpoints]
      exact chooseCut_mem
    exact opens_of_mem_findValidCutPoints hmem

/-! ## The boundary is clear -/

theorem CompactionsChosen.prefix {before after : List SessionTreeEntry}
    (h : CompactionsChosen contextTokens (before ++ after)) : CompactionsChosen contextTokens before := by
  rintro earlier id summary firstKeptEntryId tokensBefore rest rfl
  exact h earlier id summary firstKeptEntryId tokensBefore (rest ++ after) (by simp)

/-- The boundary is a cut of the last compaction, so it is clear by induction. -/
theorem boundaryStart_clear (hnodup : (pathEntries.map (·.id)).Nodup)
    (hchosen : CompactionsChosen contextTokens pathEntries) : Clear pathEntries (boundaryStart pathEntries) := by
  induction hlength : pathEntries.length using Nat.strong_induction_on generalizing pathEntries with
  | _ length ih =>
    unfold boundaryStart
    split
    · rename_i id summary firstKeptEntryId tokensBefore hlast
      have hmem := (List.mem_filter.mp (List.mem_of_getLast? hlast)).1
      obtain ⟨before, after, rfl⟩ := List.append_of_mem hmem
      obtain ⟨keepRecentTokens, preparation, hprepare, rfl⟩ := hchosen _ _ _ _ _ _ rfl
      obtain ⟨entry, hprep⟩ := prepareCompaction_prepared hprepare
      have hshorter : before.length < length := by
        rw [← hlength, List.length_append, List.length_cons]
        omega
      have hbefore : (before.map (·.id)).Nodup := by
        rw [List.map_append] at hnodup
        exact hnodup.of_append_left
      have hcut : Clear before (cutPointOf before keepRecentTokens).firstKeptEntryIndex :=
        findCutPoint_clear (ih _ hshorter hbefore hchosen.prefix rfl)
      have hlt := (List.getElem?_eq_some_iff.mp hprep.firstKept).1
      have hfound := hprep.firstKept
      have hin := @List.getElem?_append_left _ before (SessionTreeEntry.compaction id summary
        preparation.firstKeptEntryId tokensBefore :: after) _ hlt
      rw [← hin] at hfound
      have hindex := findIdx_id_of_nodup hnodup hfound
      rw [hprep.firstKeptEntryId] at hindex ⊢
      dsimp only
      rw [hindex, if_pos (by rw [List.length_append]; omega)]
      exact hcut.append _
    · exact .inl rfl

/-! ## The replay -/

theorem appendMessage_eq_toolResult {entry : SessionTreeEntry} {toolCallId : Text}
    {content : List ContentBlock} (h : appendMessage entry = some (.toolResult toolCallId content)) :
    ∃ id, entry = .message id (.toolResult toolCallId content) := by
  unfold appendMessage at h
  split at h
  · rename_i id message
    cases h
    exact ⟨id, rfl⟩
  · cases h
  · split at h <;> cases h
  · cases h

/-- What a clear tail replays has the call of each of its results. -/
theorem Clear.callsPrecedeResults {index : Nat} (hclear : Clear pathEntries index)
    (hfollow : ResultsFollowCalls NoCutPoint pathEntries) :
    CallsPrecedeResults ((pathEntries.drop index).filterMap appendMessage) := by
  intro before toolCallId content after hsplit
  obtain ⟨head, tail, hdrop, rfl, htail⟩ := List.filterMap_eq_append_iff.mp hsplit
  obtain ⟨skipped, entry, rest, rfl, hskipped, hentry, rfl⟩ := List.filterMap_eq_cons_iff.mp htail
  obtain ⟨id, rfl⟩ := appendMessage_eq_toolResult hentry
  rw [← List.append_assoc] at hdrop
  obtain ⟨callId, message, hmem, hissues⟩ := hclear.call_mem hfollow hdrop
  refine ⟨message, ?_, hissues⟩
  rcases List.mem_append.mp hmem with hhead | hskip
  · exact List.mem_filterMap.mpr ⟨_, hhead, rfl⟩
  · have hnone := hskipped _ hskip
    cases hnone

theorem CallsPrecedeResults.summary {messages : List AgentMessage} (h : CallsPrecedeResults messages)
    (summary : Text) (tokensBefore : Nat) :
    CallsPrecedeResults (.compactionSummary summary tokensBefore :: messages) := by
  intro before toolCallId content after hsplit
  rcases List.cons_eq_append_iff.mp hsplit with ⟨rfl, hnil⟩ | ⟨before, rfl, htail⟩
  · cases hnil
  · obtain ⟨message, hmem, hissues⟩ := h _ _ _ _ htail
    exact ⟨message, List.mem_cons_of_mem _ hmem, hissues⟩

/-- **A compaction orphans no tool result**: after the compaction that is chosen for a path, every result
that is replayed comes after its call. -/
theorem compaction_keeps_calls (hnodup : (pathEntries.map (·.id)).Nodup)
    (hfollow : ResultsFollowCalls NoCutPoint pathEntries) (hchosen : CompactionsChosen contextTokens pathEntries)
    (hprepare : prepareCompaction contextTokens pathEntries keepRecentTokens = .ok (some preparation))
    {id : Text} (hfresh : ∀ entry ∈ pathEntries, entry.id ≠ id) (summary : Text) (tokensBefore : Nat) :
    CallsPrecedeResults (buildSessionContext
      (pathEntries ++ [.compaction id summary preparation.firstKeptEntryId tokensBefore])) := by
  obtain ⟨entry, hprep⟩ := prepareCompaction_prepared hprepare
  have hcut : Clear pathEntries (cutPointOf pathEntries keepRecentTokens).firstKeptEntryIndex :=
    findCutPoint_clear (boundaryStart_clear hnodup hchosen)
  rw [hprep.firstKeptEntryId, buildSessionContext_compacted hnodup hfresh hprep.firstKept]
  exact (hcut.callsPrecedeResults hfollow).summary summary tokensBefore

/-- A compaction kept the turn with a call and its result; a later message follows. -/
def callAndResult : List SessionTreeEntry :=
  [.message ['1'] (.user (.text ['w'])), .message ['2'] (.user (.text ['x'])),
    .message ['3'] (.assistant [.toolCall ['c'] ['t'] [] ['{', '}']]), .message ['4'] (.toolResult ['c'] [.text ['r']]),
    .compaction ['5'] ['s'] ['2'] 9, .message ['6'] (.user (.text ['y']))]

theorem callAndResult_follow : ResultsFollowCalls NoCutPoint callAndResult := by
  intro before id toolCallId content after hsplit
  rcases before with _ | ⟨_, _ | ⟨_, _ | ⟨_, _ | ⟨_, _ | ⟨_, _ | ⟨_, before⟩⟩⟩⟩⟩⟩ <;>
    simp [callAndResult] at hsplit
  obtain ⟨rfl, rfl, rfl, ⟨-, rfl, -⟩, -⟩ := hsplit
  exact ⟨[_, _], ['3'], _, [], rfl, ⟨_, rfl, by simp [toolCallIdOf]⟩, by simp⟩

theorem callAndResult_chosen : CompactionsChosen (fun _ => 0) callAndResult := by
  intro before id summary firstKeptEntryId tokensBefore after hsplit
  rcases before with _ | ⟨_, _ | ⟨_, _ | ⟨_, _ | ⟨_, _ | ⟨_, _ | ⟨_, before⟩⟩⟩⟩⟩⟩ <;>
    simp [callAndResult] at hsplit
  obtain ⟨rfl, rfl, rfl, rfl, ⟨-, -, rfl, -⟩, -⟩ := hsplit
  exact ⟨3, _, rfl, rfl⟩

/-- The second compaction cuts the turn in front of the call, and keeps the call with its result. -/
theorem compaction_keeps_calls_later : ∃ preparation,
    prepareCompaction (fun _ => 0) callAndResult 3 = .ok (some preparation) ∧ preparation.firstKeptEntryId = ['3'] ∧
      CallsPrecedeResults (buildSessionContext
        (callAndResult ++ [.compaction ['7'] ['t'] preparation.firstKeptEntryId 0])) := by
  obtain ⟨preparation, hprepare, hkept⟩ : ∃ preparation,
      prepareCompaction (fun _ => 0) callAndResult 3 = .ok (some preparation) ∧ preparation.firstKeptEntryId = ['3'] :=
    ⟨_, rfl, rfl⟩
  exact ⟨preparation, hprepare, hkept,
    compaction_keeps_calls (by decide) callAndResult_follow callAndResult_chosen hprepare (by decide) ['t'] 0⟩

/-- A branch summary without a text stands between a call and its result. -/
def emptySummaryBetween : List SessionTreeEntry :=
  [.message ['1'] (.assistant [.toolCall ['c'] ['t'] [] ['{', '}']]), .branchSummary ['2'] [] ['0'],
    .message ['3'] (.toolResult ['c'] [.text ['x']])]

/-- A compaction keeps its path from a tool result on. -/
def keptFromResult : List SessionTreeEntry :=
  [.message ['1'] (.assistant [.toolCall ['c'] ['t'] [] ['{', '}']]), .message ['2'] (.toolResult ['c'] []),
    .compaction ['3'] ['s'] ['2'] 0, .marker ['4'] .label]

/-- Along the path every tool result follows its call, with nothing shown between; a compaction keeps the result and not
the call. -/
def Orphans (pathEntries : List SessionTreeEntry) (keepRecentTokens : Int) : Prop :=
  (pathEntries.map (·.id)).Nodup ∧ ResultsFollowCalls Silent pathEntries ∧
    ∃ preparation, prepareCompaction (fun _ => 0) pathEntries keepRecentTokens = .ok (some preparation) ∧
      ¬ CallsPrecedeResults (buildSessionContext
        (pathEntries ++ [.compaction ['9'] ['s'] preparation.firstKeptEntryId 0]))

theorem compaction_orphans : Orphans emptySummaryBetween 1 ∧ Orphans keptFromResult 1 := by
  refine ⟨⟨by decide, ?_, _, rfl, ?_⟩, ⟨by decide, ?_, _, rfl, ?_⟩⟩
  · intro before id toolCallId content after hsplit
    rcases before with _ | ⟨call, _ | ⟨summary, _ | ⟨result, before⟩⟩⟩
    · simp [emptySummaryBetween] at hsplit
    · simp [emptySummaryBetween] at hsplit
    · simp only [emptySummaryBetween, List.cons_append, List.nil_append, List.cons.injEq,
        SessionTreeEntry.message.injEq, AgentMessage.toolResult.injEq] at hsplit
      obtain ⟨rfl, rfl, ⟨_, rfl, _⟩, _⟩ := hsplit
      refine ⟨[], ['1'], _, _, rfl, ⟨_, rfl, by simp [toolCallIdOf]⟩, ?_⟩
      intro entry hentry
      rw [List.mem_singleton.mp hentry]
      exact .inr rfl
    · simp [emptySummaryBetween] at hsplit
  · intro hcalls
    obtain ⟨message, hmem, hissues⟩ := hcalls [.compactionSummary ['s'] 0] ['c'] [.text ['x']] [] rfl
    rw [List.mem_singleton.mp hmem] at hissues
    obtain ⟨blocks, hassistant, _⟩ := hissues
    cases hassistant
  · intro before id toolCallId content after hsplit
    rcases before with _ | ⟨call, _ | ⟨result, _ | ⟨compaction, _ | ⟨marker, before⟩⟩⟩⟩
    · simp [keptFromResult] at hsplit
    · simp only [keptFromResult, List.cons_append, List.nil_append, List.cons.injEq,
        SessionTreeEntry.message.injEq, AgentMessage.toolResult.injEq] at hsplit
      obtain ⟨rfl, ⟨_, rfl, _⟩, _⟩ := hsplit
      exact ⟨[], ['1'], _, [], rfl, ⟨_, rfl, by simp [toolCallIdOf]⟩, by simp⟩
    · simp [keptFromResult] at hsplit
    · simp [keptFromResult] at hsplit
    · simp [keptFromResult] at hsplit
  · intro hcalls
    obtain ⟨message, hmem, hissues⟩ := hcalls [.compactionSummary ['s'] 0] ['c'] [] [] rfl
    rw [List.mem_singleton.mp hmem] at hissues
    obtain ⟨blocks, hassistant, _⟩ := hissues
    cases hassistant

end OpenClaw.Harness
