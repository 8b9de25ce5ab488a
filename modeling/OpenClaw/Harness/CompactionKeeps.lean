/-
# OpenClaw.Harness.CompactionKeeps -- a compaction loses nothing, and when it does

The cut of a compaction lies behind the boundary, and the start of a split turn between the two.  So the
three pieces, history, turn prefix and replayed tail, are neighbouring slices of one path.  They give the
context of that path exactly if both readers of an entry agree on it: they differ on empty branch
summaries.  The previous summary travels in the prompt of the history, and is lost without one.
-/
import Mathlib.Data.Fintype.EquivFin
import OpenClaw.Harness.Compaction

namespace OpenClaw.Harness

open OpenClaw.Data OpenClaw.Logic

/-! ## Slices -/

variable {entries : List SessionTreeEntry}

theorem slice_append {lo mid hi : Nat} (h₁ : lo ≤ mid) (h₂ : mid ≤ hi) :
    slice entries lo mid ++ slice entries mid hi = slice entries lo hi := by
  have hsum : hi - lo = (mid - lo) + (hi - mid) := by omega
  have hdrop : entries.drop mid = (entries.drop lo).drop (mid - lo) := by
    rw [List.drop_drop]
    congr 1
    omega
  rw [slice, slice, slice, hsum, List.take_add, hdrop]

theorem slice_append_drop {lo hi : Nat} (h : lo ≤ hi) : slice entries lo hi ++ entries.drop hi = entries.drop lo := by
  have hdrop : entries.drop hi = (entries.drop lo).drop (hi - lo) := by
    rw [List.drop_drop]
    congr 1
    omega
  rw [slice, hdrop, List.take_append_drop]

/-! ## The cut lies behind the boundary -/

theorem mem_findValidCutPoints {startIndex endIndex i : Nat}
    (h : i ∈ findValidCutPoints entries startIndex endIndex) : startIndex ≤ i :=
  (List.mem_range'_1.mp (List.mem_filter.mp h).1).1

theorem chooseCut_mem {startIndex endIndex first : Nat} {keepRecentTokens : Int} {rest : List Nat} :
    chooseCut entries startIndex endIndex keepRecentTokens first rest ∈ first :: rest := by
  unfold chooseCut
  split
  · exact List.mem_cons_self
  · rename_i i _
    cases hfind : (first :: rest).find? (i ≤ ·) with
    | none => exact List.getLast_mem _
    | some cutPoint => exact List.mem_of_find?_eq_some hfind

theorem le_backUp {startIndex : Nat} :
    ∀ {cutIndex : Nat}, startIndex ≤ cutIndex → startIndex ≤ backUp entries startIndex cutIndex
  | 0, h => h
  | previous + 1, h => by
    unfold backUp
    split
    · rename_i hlt
      split
      · exact h
      · split
        · exact h
        · exact le_backUp (Nat.le_of_lt_succ hlt)
    · exact h

theorem findTurnStartIndex_bounds {entryIndex startIndex turnStart : Nat}
    (h : findTurnStartIndex entries entryIndex startIndex = some turnStart) :
    startIndex ≤ turnStart ∧ turnStart ≤ entryIndex := by
  have hmem := List.mem_range'_1.mp (List.mem_filter.mp (List.mem_of_getLast? h)).1
  omega

/-- Boundary, start of the split turn and cut are in order. -/
theorem findCutPoint_bounds (entries : List SessionTreeEntry) (startIndex endIndex : Nat) (keepRecentTokens : Int) :
    startIndex ≤ (findCutPoint entries startIndex endIndex keepRecentTokens).firstKeptEntryIndex ∧ ∀ turnStart,
        (findCutPoint entries startIndex endIndex keepRecentTokens).splitTurnStart = some turnStart →
        startIndex ≤ turnStart ∧
          turnStart ≤ (findCutPoint entries startIndex endIndex keepRecentTokens).firstKeptEntryIndex := by
  unfold findCutPoint
  split
  · exact ⟨le_rfl, fun _ h => by cases h⟩
  · rename_i first rest hpoints
    have hchosen : startIndex ≤ chooseCut entries startIndex endIndex keepRecentTokens first rest :=
      mem_findValidCutPoints (hpoints ▸ chooseCut_mem)
    refine ⟨le_backUp hchosen, fun turnStart hturn => ?_⟩
    dsimp only at hturn ⊢
    split at hturn
    · cases hturn
    · exact findTurnStartIndex_bounds hturn

/-! ## The boundary -/

variable {pathEntries : List SessionTreeEntry} {keepRecentTokens : Int}

theorem fromEntry_eq_drop (id : Text) (entries : List SessionTreeEntry) :
    fromEntry id entries = entries.drop (entries.findIdx (·.id = id)) := by
  rw [fromEntry, List.dropWhile_eq_drop_findIdx_not]
  congr 2
  funext entry
  simp

variable {entry : SessionTreeEntry}

/-- In a path an entry is found by its id. -/
theorem findIdx_id_of_nodup {index : Nat} (hnodup : (entries.map (·.id)).Nodup)
    (hentry : entries[index]? = some entry) : entries.findIdx (·.id = entry.id) = index := by
  obtain ⟨hlt, rfl⟩ := List.getElem?_eq_some_iff.mp hentry
  rw [List.findIdx_eq hlt]
  refine ⟨decide_eq_true rfl, fun j hj => decide_eq_false fun heq => ?_⟩
  have hne := List.pairwise_iff_getElem.mp (List.pairwise_map.mp hnodup) j index (hj.trans hlt) hlt hj
  exact hne heq

theorem fromEntry_of_nodup {index : Nat} (hnodup : (entries.map (·.id)).Nodup)
    (hentry : entries[index]? = some entry) : fromEntry entry.id entries = entries.drop index := by
  rw [fromEntry_eq_drop, findIdx_id_of_nodup hnodup hentry]

theorem keptPath_eq_drop (hkept : ∀ id summary firstKeptEntryId tokensBefore,
      SessionTreeEntry.compaction id summary firstKeptEntryId tokensBefore ∈ pathEntries →
      ∃ entry ∈ pathEntries, entry.id = firstKeptEntryId) :
    keptPath pathEntries = pathEntries.drop (boundaryStart pathEntries) := by
  unfold keptPath boundaryStart
  split
  · rename_i id summary firstKeptEntryId tokensBefore hlast
    have hmem := (List.mem_filter.mp (List.mem_of_getLast? hlast)).1
    obtain ⟨entry, hentry, hid⟩ := hkept _ _ _ _ hmem
    have hlt : pathEntries.findIdx (·.id = firstKeptEntryId) < pathEntries.length :=
      List.findIdx_lt_length.mpr ⟨entry, hentry, decide_eq_true hid⟩
    dsimp only
    rw [if_pos hlt, fromEntry_eq_drop]
  · rfl

/-! ## The replay -/

/-- What is replayed behind a new compaction entry is the path from its first kept entry on. -/
theorem buildSessionContext_compacted {id summary : Text} {tokensBefore index : Nat}
    (hnodup : (pathEntries.map (·.id)).Nodup) (hfresh : ∀ entry ∈ pathEntries, entry.id ≠ id)
    (hentry : pathEntries[index]? = some entry) : buildSessionContext (pathEntries ++
      [SessionTreeEntry.compaction id summary entry.id tokensBefore]) = .compactionSummary summary tokensBefore ::
      (pathEntries.drop index).filterMap appendMessage := by
  have hlast : lastCompaction (pathEntries ++
      [SessionTreeEntry.compaction id summary entry.id tokensBefore]) =
      some (.compaction id summary entry.id tokensBefore) := by
    simp [lastCompaction, SessionTreeEntry.isCompaction]
  have hnone : ∀ other ∈ pathEntries, (other.isCompaction && other.id = id) = false := by
    intro other hother
    rw [decide_eq_false (hfresh other hother), Bool.and_false]
  have hindex : (pathEntries ++ [SessionTreeEntry.compaction id summary entry.id tokensBefore]).findIdx
      (fun other : SessionTreeEntry => other.isCompaction && other.id = id) = pathEntries.length := by
    rw [List.findIdx_append, List.findIdx_eq_length_of_false hnone, if_neg (lt_irrefl _)]
    simp [SessionTreeEntry.isCompaction, SessionTreeEntry.id]
  unfold buildSessionContext
  rw [hlast]
  dsimp only
  rw [replayAfter, hindex, List.take_left, fromEntry_of_nodup hnodup hentry]
  simp

/-! ## The two readers of an entry -/

/-- A compaction reads every entry that the context reads. -/
theorem filterMap_length_le (entries : List SessionTreeEntry) :
    (entries.filterMap appendMessage).length ≤ (entries.filterMap entryMessage).length := by
  induction entries with
  | nil => exact le_rfl
  | cons entry rest ih =>
    cases entry with
    | branchSummary id summary fromId =>
      rw [List.filterMap_cons, List.filterMap_cons, appendMessage, entryMessage]
      split_ifs with hempty
      · exact ih.trans (Nat.le_succ _)
      · exact Nat.succ_le_succ ih
    | message id message => exact Nat.succ_le_succ ih
    | customMessage id customType content => exact Nat.succ_le_succ ih
    | compaction id summary firstKeptEntryId tokensBefore => exact ih
    | marker id kind => exact ih

theorem filterMap_entryMessage_eq_iff (entries : List SessionTreeEntry) :
    entries.filterMap entryMessage = entries.filterMap appendMessage ↔
      ∀ id fromId, SessionTreeEntry.branchSummary id [] fromId ∉ entries := by
  constructor
  · intro h id fromId hmem
    obtain ⟨before, after, rfl⟩ := List.append_of_mem hmem
    have hlength := congrArg List.length h
    have hbefore := filterMap_length_le before
    have hafter := filterMap_length_le after
    simp only [List.filterMap_append, List.filterMap_cons, appendMessage, entryMessage,
      List.length_append, List.length_cons, if_true] at hlength
    omega
  · intro h
    apply List.filterMap_congr
    intro entry hentry
    cases entry with
    | branchSummary id summary fromId =>
      have hsummary : summary ≠ [] := fun hempty => h id fromId (hempty ▸ hentry)
      rw [entryMessage, appendMessage, if_neg hsummary]
    | message id message => rfl
    | customMessage id customType content => rfl
    | compaction id summary firstKeptEntryId tokensBefore => rfl
    | marker id kind => rfl

/-! ## The prompts -/

theorem infix_joinTexts {separator part : Text} {texts : List Text} (h : part ∈ texts) :
    part <:+: joinTexts separator texts := by
  induction texts with
  | nil => cases h
  | cons text rest ih =>
    cases rest with
    | nil =>
      rw [List.mem_singleton.mp h, joinTexts, List.intercalate_singleton]
    | cons next rest =>
      rw [joinTexts, List.intercalate_cons_cons]
      rcases List.mem_cons.mp h with rfl | hrest
      · exact ⟨[], _, by rw [List.nil_append, List.append_assoc]⟩
      · exact (ih hrest).trans (List.suffix_append _ _).isInfix

theorem prompt_conversation (texts : CompactionTexts) (prompt : SummaryPrompt) :
    conversationText prompt.messages <:+: prompt.text texts := by
  have hblock : ∀ messages, conversationText messages <:+: conversationBlock messages := fun messages => ⟨_, _, rfl⟩
  cases prompt with
  | turnPrefix messages => exact (hblock messages).trans (List.prefix_append _ _).isInfix
  | history messages previousSummary =>
    cases previousSummary with
    | none => exact (hblock messages).trans (List.prefix_append _ _).isInfix
    | some summary =>
      rw [SummaryPrompt.text, List.append_assoc]
      exact (hblock messages).trans (List.prefix_append _ _).isInfix

/-- A prompt shows the messages that it is given. -/
theorem prompt_shows (texts : CompactionTexts) {prompt : SummaryPrompt} {message : AgentMessage}
    (h : message ∈ prompt.messages) {msg : LlmMessage} (hmsg : convertToLlm message = some msg)
    {part : Text} (hpart : part ∈ serializedParts msg) : part <:+: prompt.text texts := by
  have hparts : part ∈ (prompt.messages.filterMap convertToLlm).flatMap serializedParts :=
    List.mem_flatMap.mpr ⟨msg, List.mem_filterMap.mpr ⟨message, h, hmsg⟩, hpart⟩
  exact (infix_joinTexts hparts).trans (prompt_conversation texts prompt)

theorem prompt_shows_previous (texts : CompactionTexts) (messages : List AgentMessage) (summary : Text) :
    summary <:+: (SummaryPrompt.history messages (some summary)).text texts := by
  refine ⟨conversationBlock messages ++ "<previous-summary>\n".toList,
    "\n</previous-summary>\n\n".toList ++ texts.updateSummarizationPrompt, ?_⟩
  rw [SummaryPrompt.text]
  simp only [List.append_assoc]

/-! ## Compacting -/

variable {texts : CompactionTexts} {complete : Complete} {preparation : CompactionPreparation}
  {result : CompactionResult}

theorem summaryCall_ok {prompt : SummaryPrompt} {call : SummaryCall}
    (h : summaryCall complete prompt = .ok call) : call.prompt = prompt := by
  unfold summaryCall at h
  cases hcomplete : complete prompt with
  | error failure =>
    rw [hcomplete] at h
    cases h
  | ok output =>
    rw [hcomplete] at h
    cases h
    rfl

/-- The calls of a compaction: one for the history, one for the turn prefix, or both. -/
inductive CompactCalls (texts : CompactionTexts) (preparation : CompactionPreparation)
    (result : CompactionResult) : Prop where
  | prefixOnly (turnPrefix : SummaryCall) (split : preparation.isSplitTurn = true)
      (cut : preparation.turnPrefixMessages ≠ []) (empty : preparation.messagesToSummarize = [])
      (prompt : turnPrefix.prompt = .turnPrefix preparation.turnPrefixMessages)
      (calls : result.calls = [turnPrefix]) (used : turnPrefix.output <:+: result.summary)
  | both (history turnPrefix : SummaryCall)
      (prompt : history.prompt = .history preparation.messagesToSummarize
        (preparation.previousSummary.filter (· ≠ [])))
      (prefixPrompt : turnPrefix.prompt = .turnPrefix preparation.turnPrefixMessages)
      (calls : result.calls = [history, turnPrefix]) (used : history.output <:+: result.summary)
      (prefixUsed : turnPrefix.output <:+: result.summary)
  | historyOnly (history : SummaryCall)
      (whole : preparation.isSplitTurn = true → preparation.turnPrefixMessages = [])
      (prompt : history.prompt = .history preparation.messagesToSummarize
        (preparation.previousSummary.filter (· ≠ [])))
      (calls : result.calls = [history]) (used : history.output <:+: result.summary)

theorem compact_calls (h : compact texts complete preparation = .ok result) :
    CompactCalls texts preparation result := by
  unfold compact at h
  split at h
  · cases h
  split at h
  · rename_i hsplit
    split at h
    · rename_i hempty
      obtain ⟨turnPrefix, hprefix, h⟩ := bind_eq_ok.mp h
      rw [pure_eq_ok] at h
      subst h
      refine .prefixOnly turnPrefix hsplit.1 hsplit.2 hempty (summaryCall_ok hprefix) rfl ?_
      exact ⟨"No prior history.".toList ++ splitTurnHeading, texts.fileOperations, rfl⟩
    · obtain ⟨history, hhistory, h⟩ := bind_eq_ok.mp h
      obtain ⟨turnPrefix, hprefix, h⟩ := bind_eq_ok.mp h
      rw [pure_eq_ok] at h
      subst h
      refine .both history turnPrefix (summaryCall_ok hhistory) (summaryCall_ok hprefix) rfl ?_ ?_
      · exact ⟨[], splitTurnHeading ++ turnPrefix.output ++ texts.fileOperations, by
          simp only [compactionResult, List.nil_append, List.append_assoc]⟩
      · exact ⟨history.output ++ splitTurnHeading, texts.fileOperations, rfl⟩
  · rename_i hwhole
    obtain ⟨history, hhistory, h⟩ := bind_eq_ok.mp h
    rw [pure_eq_ok] at h
    subst h
    refine .historyOnly history (fun hsplit => ?_) (summaryCall_ok hhistory) rfl ?_
    · by_contra hprefix
      exact hwhole ⟨hsplit, hprefix⟩
    · exact ⟨[], texts.fileOperations, rfl⟩

/-- Every message that is cut off is shown in a prompt. -/
theorem compact_summarises (hwhole : preparation.isSplitTurn = false → preparation.turnPrefixMessages = [])
    (h : compact texts complete preparation = .ok result) {message : AgentMessage}
    (hmessage : message ∈ preparation.messagesToSummarize ++ preparation.turnPrefixMessages) :
    ∃ call ∈ result.calls, Summarises texts result message call := by
  have hshown : ∀ {call : SummaryCall}, message ∈ call.prompt.messages → call.output <:+: result.summary →
      Summarises texts result message call := fun hgiven hused =>
    ⟨hgiven, fun msg hmsg part hpart => prompt_shows texts hgiven hmsg hpart, hused⟩
  rcases List.mem_append.mp hmessage with hhistory | hprefix
  · cases compact_calls h with
    | prefixOnly turnPrefix split cut empty prompt calls used =>
      rw [empty] at hhistory
      cases hhistory
    | both history turnPrefix prompt prefixPrompt calls used prefixUsed =>
      exact ⟨history, by simp [calls], hshown (by rw [prompt]; exact hhistory) used⟩
    | historyOnly history whole prompt calls used =>
      exact ⟨history, by simp [calls], hshown (by rw [prompt]; exact hhistory) used⟩
  · cases compact_calls h with
    | prefixOnly turnPrefix split cut empty prompt calls used =>
      exact ⟨turnPrefix, by simp [calls], hshown (by rw [prompt]; exact hprefix) used⟩
    | both history turnPrefix prompt prefixPrompt calls used prefixUsed =>
      exact ⟨turnPrefix, by simp [calls], hshown (by rw [prefixPrompt]; exact hprefix) prefixUsed⟩
    | historyOnly history whole prompt calls used =>
      have hnone : preparation.turnPrefixMessages = [] := by
        cases hsplit : preparation.isSplitTurn with
        | true => exact whole hsplit
        | false => exact hwhole hsplit
      rw [hnone] at hprefix
      cases hprefix

/-- The previous summary is carried on, unless there is only a turn prefix to summarise. -/
theorem compact_carries (h : compact texts complete preparation = .ok result) {summary : Text}
    (hsummary : preparation.previousSummary = some summary) (hne : summary ≠ [])
    (hhistory : preparation.isSplitTurn = true → preparation.turnPrefixMessages ≠ [] →
      preparation.messagesToSummarize ≠ []) : ∃ call ∈ result.calls, Carries texts result summary call := by
  have hfilter : preparation.previousSummary.filter (· ≠ []) = some summary := by
    rw [hsummary]
    simp [hne]
  have hcarried : ∀ {call : SummaryCall},
      call.prompt = .history preparation.messagesToSummarize (preparation.previousSummary.filter (· ≠ [])) →
      call.output <:+: result.summary → Carries texts result summary call := by
    intro call hprompt hused
    rw [hfilter] at hprompt
    exact ⟨by rw [hprompt]; rfl, by rw [hprompt]; exact prompt_shows_previous texts _ _, hused⟩
  cases compact_calls h with
  | prefixOnly turnPrefix split cut empty prompt calls used => exact absurd empty (hhistory split cut)
  | both history turnPrefix prompt prefixPrompt calls used prefixUsed =>
    exact ⟨history, by simp [calls], hcarried prompt used⟩
  | historyOnly history whole prompt calls used =>
    exact ⟨history, by simp [calls], hcarried prompt used⟩

/-- With a turn prefix alone, a compaction has one call, and it does not know the previous summary. -/
theorem compact_prefixOnly (texts : CompactionTexts) (preparation : CompactionPreparation)
    (output : Text) (hid : preparation.firstKeptEntryId ≠ [])
    (hsplit : preparation.isSplitTurn = true) (hcut : preparation.turnPrefixMessages ≠ [])
    (hhistory : preparation.messagesToSummarize = []) :
    ∃ result, compact texts (fun _ => .ok output) preparation = .ok result ∧
      ∀ call ∈ result.calls, call.prompt.previousSummary = none := by
  unfold compact
  rw [if_neg hid, if_pos ⟨hsplit, hcut⟩, if_pos hhistory]
  refine ⟨_, rfl, fun call hcall => ?_⟩
  rw [List.mem_singleton.mp hcall]
  rfl

/-! ## What a compaction loses -/

/-- The preparation of a path, in terms of its boundary and its cut. -/
structure Prepared (pathEntries : List SessionTreeEntry) (keepRecentTokens : Int)
    (preparation : CompactionPreparation) (entry : SessionTreeEntry) : Prop where
  firstKept : pathEntries[(cutPointOf pathEntries keepRecentTokens).firstKeptEntryIndex]? = some entry
  firstKeptEntryId : preparation.firstKeptEntryId = entry.id
  hasId : entry.id ≠ []
  isSplitTurn :
    preparation.isSplitTurn = (cutPointOf pathEntries keepRecentTokens).splitTurnStart.isSome
  messagesToSummarize : preparation.messagesToSummarize =
    (slice pathEntries (boundaryStart pathEntries)
      ((cutPointOf pathEntries keepRecentTokens).splitTurnStart.getD
        (cutPointOf pathEntries keepRecentTokens).firstKeptEntryIndex)).filterMap entryMessage
  turnPrefixMessages : preparation.turnPrefixMessages =
    (cutPointOf pathEntries keepRecentTokens).splitTurnStart.elim [] fun turnStart =>
      (slice pathEntries turnStart
        (cutPointOf pathEntries keepRecentTokens).firstKeptEntryIndex).filterMap entryMessage
  previousSummary : preparation.previousSummary = previousSummary pathEntries

variable {contextTokens : List AgentMessage → Nat}

theorem prepareCompaction_prepared
    (h : prepareCompaction contextTokens pathEntries keepRecentTokens = .ok (some preparation)) :
    ∃ entry, Prepared pathEntries keepRecentTokens preparation entry := by
  unfold prepareCompaction at h
  split at h
  · cases h
  dsimp only at h
  split at h
  · cases h
  rename_i hid
  cases hentry : pathEntries[(cutPointOf pathEntries keepRecentTokens).firstKeptEntryIndex]? with
  | none =>
    rw [hentry] at hid
    exact absurd rfl hid
  | some entry =>
    rw [hentry] at h hid
    cases h
    exact ⟨entry, hentry, rfl, hid, rfl, rfl, rfl, rfl⟩

/-- History and turn prefix are what lies between the boundary and the cut. -/
theorem summarised_eq {entry : SessionTreeEntry} (hprep : Prepared pathEntries keepRecentTokens preparation entry) :
    preparation.messagesToSummarize ++ preparation.turnPrefixMessages = (slice pathEntries (boundaryStart pathEntries)
        (cutPointOf pathEntries keepRecentTokens).firstKeptEntryIndex).filterMap entryMessage := by
  have hbounds := findCutPoint_bounds pathEntries (boundaryStart pathEntries) pathEntries.length
    keepRecentTokens
  rw [hprep.messagesToSummarize, hprep.turnPrefixMessages]
  cases hturn : (cutPointOf pathEntries keepRecentTokens).splitTurnStart with
  | none => exact List.append_nil _
  | some turnStart =>
    obtain ⟨hstart, hcut⟩ := hbounds.2 turnStart hturn
    rw [Option.getD_some, Option.elim_some, ← List.filterMap_append]
    congr 1
    exact slice_append hstart hcut

theorem exists_fresh_id (pathEntries : List SessionTreeEntry) : ∃ id, ∀ entry ∈ pathEntries, entry.id ≠ id := by
  obtain ⟨id, hid⟩ := Infinite.exists_notMem_finset (pathEntries.map (·.id)).toFinset
  refine ⟨id, fun entry hentry heq => hid ?_⟩
  exact List.mem_toFinset.mpr (List.mem_map.mpr ⟨entry, hentry, heq⟩)

/-- The pieces of a compaction make up the context exactly if no empty branch summary is cut off. -/
theorem replayed_iff (hnodup : (pathEntries.map (·.id)).Nodup) (hkept :
    ∀ id summary firstKeptEntryId tokensBefore, SessionTreeEntry.compaction id summary firstKeptEntryId tokensBefore ∈
    pathEntries → ∃ entry ∈ pathEntries, entry.id = firstKeptEntryId) (hprep :
    Prepared pathEntries keepRecentTokens preparation entry) {id summary : Text} {tokensBefore : Nat} (hfresh :
    ∀ entry ∈ pathEntries, entry.id ≠ id) : preparation.messagesToSummarize ++ preparation.turnPrefixMessages ++
      (buildSessionContext (pathEntries ++
      [SessionTreeEntry.compaction id summary preparation.firstKeptEntryId tokensBefore])).tail =
      (keptPath pathEntries).filterMap appendMessage ↔
      ∀ id fromId, SessionTreeEntry.branchSummary id [] fromId ∉ slice pathEntries (boundaryStart pathEntries)
      (cutPointOf pathEntries keepRecentTokens).firstKeptEntryIndex := by
  have hbounds := findCutPoint_bounds pathEntries (boundaryStart pathEntries) pathEntries.length
    keepRecentTokens
  rw [summarised_eq hprep, hprep.firstKeptEntryId,
    buildSessionContext_compacted hnodup hfresh hprep.firstKept, List.tail_cons, keptPath_eq_drop hkept,
    ← slice_append_drop hbounds.1, List.filterMap_append]
  -- the replayed tail is the same on both sides
  exact (List.append_left_inj _).trans (filterMap_entryMessage_eq_iff _)

theorem filterMap_entryMessage_ne_nil {entries : List SessionTreeEntry} :
    entries.filterMap entryMessage ≠ [] ↔ ∃ entry ∈ entries, (entryMessage entry).isSome := by
  rw [Ne, List.filterMap_eq_nil_iff]
  simp only [Option.isSome_iff_ne_none, not_forall, exists_prop]

/-- Before a split turn with a prefix there is some history, if a previous summary depends on it. -/
theorem history_needed_iff (hprep : Prepared pathEntries keepRecentTokens preparation entry) :
    (preparation.isSplitTurn = true → preparation.turnPrefixMessages ≠ [] → preparation.messagesToSummarize ≠ []) ↔
      ∀ turnStart, (cutPointOf pathEntries keepRecentTokens).splitTurnStart = some turnStart →
      (∃ entry ∈ slice pathEntries turnStart (cutPointOf pathEntries keepRecentTokens).firstKeptEntryIndex,
      (entryMessage entry).isSome) → ∃ entry ∈ slice pathEntries (boundaryStart pathEntries) turnStart,
      (entryMessage entry).isSome := by
  rw [hprep.isSplitTurn, hprep.messagesToSummarize, hprep.turnPrefixMessages]
  cases hturn : (cutPointOf pathEntries keepRecentTokens).splitTurnStart with
  | none => simp
  | some turnStart =>
    simp only [Option.isSome_some, Option.elim_some, Option.getD_some, filterMap_entryMessage_ne_nil,
      Option.some.injEq, forall_eq', forall_const]

/-- **A compaction loses nothing exactly if** no empty branch summary is cut off, and a previous summary
comes with some history in front of a split turn. -/
theorem compaction_loses_nothing_iff (texts : CompactionTexts) (hnodup : (pathEntries.map (·.id)).Nodup)
    (hkept : ∀ id summary firstKeptEntryId tokensBefore,
      SessionTreeEntry.compaction id summary firstKeptEntryId tokensBefore ∈ pathEntries →
      ∃ entry ∈ pathEntries, entry.id = firstKeptEntryId)
    (h : prepareCompaction contextTokens pathEntries keepRecentTokens = .ok (some preparation)) :
    LosesNothing texts pathEntries preparation ↔ NothingToLose pathEntries keepRecentTokens := by
  obtain ⟨entry, hprep⟩ := prepareCompaction_prepared h
  have hid : preparation.firstKeptEntryId ≠ [] := hprep.firstKeptEntryId ▸ hprep.hasId
  constructor
  · intro hloses
    refine ⟨?_, ?_⟩
    · obtain ⟨id, hfresh⟩ := exists_fresh_id pathEntries
      exact (replayed_iff hnodup hkept hprep hfresh).mp (hloses.replayed id [] 0 hfresh)
    · intro summary turnStart hsummary hne
      apply (history_needed_iff hprep).mp
      -- a compaction with a turn prefix alone does not know the summary
      intro hsplit hprefix hhistory
      obtain ⟨result, hresult, hnone⟩ := compact_prefixOnly texts preparation [] hid hsplit hprefix hhistory
      obtain ⟨call, hcall, hcarries⟩ := hloses.previous _ result hresult summary
        (hprep.previousSummary.trans hsummary) hne
      have hgiven := hcarries.given
      rw [hnone call hcall] at hgiven
      cases hgiven
  · intro hnothing
    refine ⟨?_, ?_, ?_⟩
    · intro id summary tokensBefore hfresh
      exact (replayed_iff hnodup hkept hprep hfresh).mpr hnothing.branchSummaries
    · intro complete result hresult message hmessage
      refine compact_summarises (fun hwhole => ?_) hresult hmessage
      rw [hprep.turnPrefixMessages]
      rw [hprep.isSplitTurn] at hwhole
      rw [Option.isSome_eq_false_iff.mp hwhole |> Option.isNone_iff_eq_none.mp]
      rfl
    · intro complete result hresult summary hsummary hne
      refine compact_carries hresult hsummary hne ((history_needed_iff hprep).mpr ?_)
      intro turnStart
      exact hnothing.history summary turnStart (hprep.previousSummary.symm.trans hsummary) hne

/-- Behind an earlier compaction there is room for one message: the kept one is summarised. -/
def twoMessages : List SessionTreeEntry :=
  [.message ['1'] (.user (.text ['w'])), .message ['2'] (.user (.text ['x'])), .compaction ['3'] ['s'] ['2'] 9,
    .message ['4'] (.user (.text ['y']))]

theorem compaction_loses_nothing_iff_two :
    ∃ preparation, prepareCompaction (fun _ => 0) twoMessages 1 = .ok (some preparation) ∧
      ∀ texts, LosesNothing texts twoMessages preparation ↔ NothingToLose twoMessages 1 := by
  have hprep : ∃ preparation, prepareCompaction (fun _ => 0) twoMessages 1 = .ok (some preparation) :=
    ⟨_, rfl⟩
  obtain ⟨preparation, hprep⟩ := hprep
  refine ⟨preparation, hprep, fun texts => compaction_loses_nothing_iff texts (by decide) ?_ hprep⟩
  intro id summary firstKeptEntryId tokensBefore hmem
  obtain ⟨-, -, rfl, -⟩ : id = ['3'] ∧ summary = ['s'] ∧ firstKeptEntryId = ['2'] ∧ tokensBefore = 9 := by
    simpa [twoMessages] using hmem
  exact ⟨_, List.mem_cons_of_mem _ List.mem_cons_self, rfl⟩

/-- A compaction kept the turn of `x`; the answer is long, so that the next cut splits this turn. -/
def splitAtBoundary : List SessionTreeEntry :=
  [.message ['1'] (.user (.text ['w'])), .message ['2'] (.user (.text ['x'])),
    .compaction ['3'] ['s'] ['2'] 9, .message ['4'] (.assistant [.text ['y']])]

def boundaryPreparation : CompactionPreparation where
  firstKeptEntryId := ['4']
  messagesToSummarize := []
  turnPrefixMessages := [.user (.text ['x'])]
  isSplitTurn := true
  tokensBefore := 0
  previousSummary := some ['s']

theorem split_turn_drops_summary :
    (splitAtBoundary.map (·.id)).Nodup ∧ (∃ entry ∈ splitAtBoundary, entry.id = ['2']) ∧
      prepareCompaction (fun _ => 0) splitAtBoundary 1 = .ok (some boundaryPreparation) ∧
      ∀ texts, ¬ LosesNothing texts splitAtBoundary boundaryPreparation := by
  refine ⟨by decide, ⟨_, List.mem_cons_of_mem _ List.mem_cons_self, rfl⟩, rfl, fun texts hloses => ?_⟩
  obtain ⟨result, hresult, hnone⟩ := compact_prefixOnly texts boundaryPreparation [] (by decide) rfl (by decide) rfl
  obtain ⟨call, hcall, hcarries⟩ := hloses.previous _ result hresult ['s'] rfl (by decide)
  have hgiven := hcarries.given
  rw [hnone call hcall] at hgiven
  cases hgiven

end OpenClaw.Harness
