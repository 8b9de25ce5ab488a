/-
# OpenClaw.AutoReply.FollowupAccounting -- the overflow counters of a follow-up queue

Dropped runs sit in the summary sources or in the elisions, or are counted as evicted; `droppedCount`
is to be the number of them all.  Seven code paths adjust these together.  `Accounted` is the balance
with two loose ends, so that it holds in the middle of a path: `spare` runs that have left but are still
counted, and runs `moving` from one place to another.
-/
import Mathlib.Data.List.Perm.Basic
import OpenClaw.AutoReply.FollowupDrain

namespace OpenClaw.AutoReply

open OpenClaw.Logic

/-! ## The balance -/

def sourcesOf (entries : List SummaryElision) : List FollowupRun := entries.flatMap (·.sources)

@[simp] theorem sourcesOf_nil : sourcesOf [] = [] := rfl

@[simp] theorem sourcesOf_cons (entry : SummaryElision) (rest : List SummaryElision) :
    sourcesOf (entry :: rest) = entry.sources ++ sourcesOf rest := rfl

@[simp] theorem sourcesOf_append (before after : List SummaryElision) :
    sourcesOf (before ++ after) = sourcesOf before ++ sourcesOf after := List.flatMap_append

theorem elidedSources_eq (q : FollowupQueue) : elidedSources q = sourcesOf q.summaryElisions := rfl

def NonEmptyEntries (entries : List SummaryElision) : Prop := ∀ entry ∈ entries, entry.sources ≠ []

/-- The runs that the policy `summarize` dropped. -/
def foldedRuns (q : FollowupQueue) : List FollowupRun :=
  q.left.filterMap fun (run, exit) => if exit = .folded then some run else none

def occurrences (id : Nat) (runs : List FollowupRun) : Nat := (runs.map (·.id)).count id

@[simp] theorem occurrences_nil (id : Nat) : occurrences id [] = 0 := rfl

@[simp] theorem occurrences_append (id : Nat) (a b : List FollowupRun) :
    occurrences id (a ++ b) = occurrences id a + occurrences id b := by
  simp [occurrences]

theorem occurrences_cons (id : Nat) (run : FollowupRun) (rest : List FollowupRun) :
    occurrences id (run :: rest) = occurrences id rest + if run.id = id then 1 else 0 := by
  simp [occurrences, List.count_cons]

theorem occurrences_perm {a b : List FollowupRun} (h : a.Perm b) (id : Nat) :
    occurrences id a = occurrences id b := (h.map _).count_eq id

structure Accounted (spare : Nat) (moving : List FollowupRun) (q : FollowupQueue) : Prop where
  count : q.droppedCount =
    spare + moving.length + q.summarySources.length + (sourcesOf q.summaryElisions).length + q.evictedSummaryCount
  entries : NonEmptyEntries q.summaryElisions
  runs : ∀ id, occurrences id (foldedRuns q) =
    occurrences id moving + occurrences id q.summarySources +
      occurrences id (sourcesOf q.summaryElisions) + occurrences id (q.gone.map (·.1))

/-- **The balance** between two steps. -/
structure Balanced (q : FollowupQueue) : Prop where
  accounted : Accounted 0 [] q
  lines : q.summaryLines.length = q.summarySources.length

/-! ## Elisions lose runs -/

theorem NonEmptyEntries.cons {entry : SummaryElision} {rest : List SummaryElision}
    (hentry : entry.sources ≠ []) (hrest : NonEmptyEntries rest) : NonEmptyEntries (entry :: rest) := by
  intro e he
  rcases List.mem_cons.mp he with rfl | he
  · exact hentry
  · exact hrest e he

theorem NonEmptyEntries.tail {entry : SummaryElision} {rest : List SummaryElision}
    (h : NonEmptyEntries (entry :: rest)) : NonEmptyEntries rest :=
  fun e he => h e (List.mem_cons_of_mem _ he)

/-- One entry keeps only `sources`, and leaves with the last of them. -/
inductive Loses (entry : SummaryElision) (sources : List FollowupRun) :
    List SummaryElision → List SummaryElision → Prop where
  | head (rest : List SummaryElision) :
    Loses entry sources (entry :: rest) (if sources = [] then rest else { entry with sources } :: rest)
  | cons (other : SummaryElision) {entries rest : List SummaryElision} (tail : Loses entry sources entries rest) :
    Loses entry sources (other :: entries) (other :: rest)

section Loses

variable {entry : SummaryElision} {source : FollowupRun} {sources : List FollowupRun}

theorem Loses.mem {entries rest : List SummaryElision} (h : Loses entry sources entries rest) : entry ∈ entries := by
  induction h with
  | head rest => exact List.mem_cons_self
  | cons other tail ih => exact List.mem_cons_of_mem _ ih

theorem Loses.balance {lost : List FollowupRun} {entries rest : List SummaryElision}
    (h : Loses entry sources entries rest) (hperm : entry.sources.Perm (lost ++ sources))
    (hne : NonEmptyEntries entries) :
    (sourcesOf entries).Perm (lost ++ sourcesOf rest) ∧ NonEmptyEntries rest := by
  induction h with
  | head rest =>
    have hhead : (sourcesOf (entry :: rest)).Perm (lost ++ (sources ++ sourcesOf rest)) := by
      rw [sourcesOf_cons, ← List.append_assoc]
      exact hperm.append_right _
    split
    · rename_i hempty
      subst hempty
      exact ⟨hhead, hne.tail⟩
    · rename_i hsome
      exact ⟨hhead, .cons hsome hne.tail⟩
  | @cons other entries rest tail ih =>
    obtain ⟨hrest, hrestne⟩ := ih hne.tail
    refine ⟨?_, .cons (hne _ List.mem_cons_self) hrestne⟩
    have hmove : (other.sources ++ (lost ++ sourcesOf rest)).Perm (lost ++ (other.sources ++ sourcesOf rest)) := by
      rw [← List.append_assoc, ← List.append_assoc]
      exact List.perm_append_comm.append_right _
    exact (hrest.append_left _).trans hmove

theorem evictFirst_loses {active : List FollowupRun} : ∀ {entries rest : List SummaryElision},
    evictFirst active entries = some (source, rest) → ∃ entry : SummaryElision,
      Loses entry (entry.sources.erase source) entries rest ∧ source ∈ entry.sources ∧ source ∉ active := by
  intro entries
  induction entries with
  | nil => intro rest h; cases h
  | cons entry entries ih =>
    intro rest h
    unfold evictFirst at h
    split at h
    · obtain ⟨⟨source', rest'⟩, hrest, heq⟩ := Option.map_eq_some_iff.mp h
      cases heq
      obtain ⟨found, hloses, hfound⟩ := ih hrest
      exact ⟨found, hloses.cons entry, hfound⟩
    · rename_i found hfound
      cases h
      exact ⟨entry, .head entries, List.mem_of_find?_eq_some hfound, by simpa using List.find?_some hfound⟩

/-- Whatever the index, one copy leaves an entry that has some. -/
theorem SummaryElision.take_spec (source : FollowupRun) (hne : entry.sources ≠ []) :
    ∃ run, (entry.take source).1 = some run ∧ entry.sources.Perm (run :: (entry.take source).2) := by
  unfold SummaryElision.take
  dsimp only
  split
  · rename_i hmem
    exact ⟨_, rfl, List.perm_cons_erase hmem⟩
  · refine ⟨_, List.getLast?_eq_getLast_of_ne_nil hne, ?_⟩
    have happend := List.dropLast_append_getLast hne
    exact (List.Perm.of_eq happend.symm).trans List.perm_append_comm

theorem takeElided_loses {removed : Option FollowupRun} : ∀ {entries rest : List SummaryElision},
    takeElided source entries = some (removed, rest) → ∃ entry : SummaryElision,
      Loses entry (entry.take source).2 entries rest ∧ entry.knows source = true ∧ removed = (entry.take source).1 := by
  intro entries
  induction entries with
  | nil => intro rest h; cases h
  | cons entry entries ih =>
    intro rest h
    unfold takeElided at h
    split at h
    · rename_i hknows
      cases h
      exact ⟨entry, .head entries, hknows, rfl⟩
    · obtain ⟨⟨removed', rest'⟩, hrest, heq⟩ := Option.map_eq_some_iff.mp h
      cases heq
      obtain ⟨found, hloses, hfound⟩ := ih hrest
      exact ⟨found, hloses.cons entry, hfound⟩

theorem consumeElision_loses {entryRef count : Nat} {taken : List FollowupRun} :
    ∀ {entries rest : List SummaryElision}, consumeElision entryRef count entries = some (taken, rest) →
      ∃ entry : SummaryElision, Loses entry (entry.sources.drop count) entries rest ∧ entry.ref = entryRef ∧
        taken = entry.sources.take count := by
  intro entries
  induction entries with
  | nil => intro rest h; cases h
  | cons entry entries ih =>
    intro rest h
    unfold consumeElision at h
    split at h
    · rename_i href
      cases h
      exact ⟨entry, .head entries, href, rfl⟩
    · obtain ⟨⟨taken', rest'⟩, hrest, heq⟩ := Option.map_eq_some_iff.mp h
      cases heq
      obtain ⟨found, hloses, hfound⟩ := ih hrest
      exact ⟨found, hloses.cons entry, hfound⟩

end Loses

/-! ## Trimming and folding -/

section Folding

variable {q : FollowupQueue} {spare : Nat} {moving : List FollowupRun}

/-- A queue that lost `lost` from its elisions is balanced when it accounts for them otherwise. -/
theorem Accounted.lose {lost : List FollowupRun} {entries : List SummaryElision} {spare' evicted : Nat}
    (gone : List (FollowupRun × SummaryExit)) (h : Accounted spare moving q)
    (hperm : (sourcesOf q.summaryElisions).Perm (lost ++ sourcesOf entries))
    (hentries : NonEmptyEntries entries)
    (hcount : spare + lost.length + q.evictedSummaryCount = spare' + evicted)
    (hgone : gone.map (·.1) = lost ++ q.gone.map (·.1)) :
    Accounted spare' moving { q with
      summaryElisions := entries, evictedSummaryCount := evicted, gone } := by
  refine ⟨?_, hentries, fun id => ?_⟩
  · have hlength := hperm.length_eq
    rw [List.length_append] at hlength
    have := h.count
    dsimp only
    omega
  · have hmoved := occurrences_perm hperm id
    rw [occurrences_append] at hmoved
    have := h.runs id
    dsimp only [foldedRuns] at *
    rw [hgone, occurrences_append]
    omega

theorem Accounted.evictOne (h : Accounted spare moving q) : Accounted spare moving (evictOne q) := by
  unfold AutoReply.evictOne
  split
  · exact h
  · rename_i source entries hevict
    obtain ⟨entry, hloses, hmem, -⟩ := evictFirst_loses hevict
    have herase : entry.sources.Perm ([source] ++ entry.sources.erase source) := List.perm_cons_erase hmem
    obtain ⟨hlost, hentries⟩ := hloses.balance herase h.entries
    exact h.lose _ hlost hentries (by rw [List.length_singleton]; omega) rfl

theorem Accounted.evictTimes (n : Nat) : ∀ {q : FollowupQueue}, Accounted spare moving q →
    Accounted spare moving (evictTimes n q) := by
  induction n with
  | zero => exact fun h => h
  | succ n ih => exact fun h => ih h.evictOne

/-- What eviction leaves alone. -/
theorem evictTimes_frame (n : Nat) : ∀ q : FollowupQueue, ∃ entries evicted gone,
    evictTimes n q = { q with summaryElisions := entries, evictedSummaryCount := evicted, gone } := by
  induction n with
  | zero => exact fun q => ⟨_, _, _, rfl⟩
  | succ n ih =>
    intro q
    obtain ⟨entries, evicted, gone, h⟩ := ih (AutoReply.evictOne q)
    rw [AutoReply.evictTimes, h]
    unfold AutoReply.evictOne
    split
    · exact ⟨_, _, _, rfl⟩
    · exact ⟨_, _, _, rfl⟩

theorem trim_frame (q : FollowupQueue) : ∃ entries evicted gone,
    trimSummaryElisionsToCap q = { q with summaryElisions := entries, evictedSummaryCount := evicted, gone } :=
  evictTimes_frame _ q

theorem Accounted.trim (h : Accounted spare moving q) :
    Accounted spare moving (trimSummaryElisionsToCap q) := h.evictTimes _

theorem Balanced.trim (h : Balanced q) : Balanced (trimSummaryElisionsToCap q) := by
  refine ⟨h.accounted.trim, ?_⟩
  obtain ⟨entries, evicted, gone, heq⟩ := trim_frame q
  rw [heq]
  exact h.lines

/-- A moving run arrives in the elisions. -/
theorem Accounted.elide {item : FollowupRun} (h : Accounted spare (item :: moving) q) :
    Accounted spare moving (addElision q item) := by
  have hadded : (sourcesOf (addElision q item).summaryElisions).Perm
      (createOverflowSummaryRetrySource item q.nextRef :: sourcesOf q.summaryElisions) ∧
      NonEmptyEntries (addElision q item).summaryElisions := by
    unfold addElision
    dsimp only
    split
    · rename_i hlast
      rw [List.getLast?_eq_none_iff.mp hlast]
      refine ⟨List.Perm.refl _, fun e he => ?_⟩
      rw [List.mem_singleton.mp he]
      exact List.cons_ne_nil _ _
    · rename_i lastElision hlast
      split
      · have hsplit := List.dropLast_append_getLast? lastElision hlast
        refine ⟨?_, fun e he => ?_⟩
        · conv_rhs => rw [← hsplit]
          simp only [sourcesOf_append, sourcesOf_cons, sourcesOf_nil, List.append_nil, ← List.append_assoc]
          exact List.perm_append_comm
        · rcases List.mem_append.mp he with he | he
          · exact h.entries e (List.dropLast_subset _ he)
          · rw [List.mem_singleton.mp he]
            exact fun hnil => by simp at hnil
      · refine ⟨?_, fun e he => ?_⟩
        · rw [sourcesOf_append]
          exact List.perm_append_comm
        · rcases List.mem_append.mp he with he | he
          · exact h.entries e he
          · rw [List.mem_singleton.mp he]
            exact List.cons_ne_nil _ _
  refine ⟨?_, hadded.2, fun id => ?_⟩
  · have hlength := hadded.1.length_eq
    rw [List.length_cons] at hlength
    have := h.count
    rw [List.length_cons] at this
    dsimp only [addElision] at *
    omega
  · have hcopy : occurrences id (createOverflowSummaryRetrySource item q.nextRef ::
        sourcesOf q.summaryElisions) =
        occurrences id (sourcesOf q.summaryElisions) + if item.id = id then 1 else 0 :=
      occurrences_cons id _ _
    have hmoved := (occurrences_perm hadded.1 id).trans hcopy
    have := h.runs id
    rw [occurrences_cons] at this
    dsimp only [addElision, foldedRuns] at *
    omega

theorem foldElisions_spec (items : List FollowupRun) : ∀ {q : FollowupQueue}, Accounted spare items q →
    Accounted spare [] (items.foldl (fun q item => trimSummaryElisionsToCap (addElision q item)) q) := by
  induction items with
  | nil => exact fun h => h
  | cons item items ih => exact fun h => ih h.elide.trim

/-- What the folding of runs into elisions leaves alone. -/
theorem foldElisions_frame (items : List FollowupRun) : ∀ q : FollowupQueue,
    ∃ nextRef active entries evicted gone, q.nextRef ≤ nextRef ∧
      items.foldl (fun q item => trimSummaryElisionsToCap (addElision q item)) q =
        { q with nextRef, activeSummarySources := active, summaryElisions := entries
                 evictedSummaryCount := evicted, gone } := by
  induction items with
  | nil => exact fun q => ⟨_, _, _, _, _, Nat.le_refl _, rfl⟩
  | cons item items ih =>
    intro q
    obtain ⟨entries₁, evicted₁, gone₁, htrim⟩ := trim_frame (addElision q item)
    obtain ⟨nextRef, active, entries, evicted, gone, hle, hfold⟩ := ih (trimSummaryElisionsToCap (addElision q item))
    refine ⟨nextRef, active, entries, evicted, gone, ?_, ?_⟩
    · rw [htrim] at hle
      exact Nat.le_of_succ_le hle
    · rw [List.foldl_cons, hfold, htrim]
      rfl

theorem foldOverflow_balanced (h : Accounted 0 [] q) (hle : q.summaryLines.length ≤ q.summarySources.length)
    (hother : q.dropPolicy ≠ .summarize → q.summaryLines.length = q.summarySources.length) :
    Balanced (foldOverflow q) := by
  unfold foldOverflow
  split
  · have hstart : Accounted 0 (q.summarySources.take (q.summarySources.length - q.summaryLines.length))
        { q with summarySources :=
          q.summarySources.drop (q.summarySources.length - q.summaryLines.length) } := by
      refine ⟨?_, h.entries, fun id => ?_⟩
      · have := h.count
        rw [List.length_take, List.length_drop]
        rw [List.length_nil] at this
        dsimp only
        omega
      · have := h.runs id
        have hsplit : occurrences id q.summarySources =
            occurrences id (q.summarySources.take (q.summarySources.length - q.summaryLines.length)) +
            occurrences id (q.summarySources.drop (q.summarySources.length - q.summaryLines.length)) := by
          rw [← occurrences_append, List.take_append_drop]
        dsimp only [foldedRuns] at *
        rw [occurrences_nil] at this
        omega
    refine ⟨foldElisions_spec _ hstart, ?_⟩
    obtain ⟨nextRef, active, entries, evicted, gone, -, heq⟩ := foldElisions_frame
      (q.summarySources.take (q.summarySources.length - q.summaryLines.length))
      { q with summarySources := q.summarySources.drop (q.summarySources.length - q.summaryLines.length) }
    dsimp only
    rw [heq]
    dsimp only
    rw [List.length_drop]
    omega
  · rename_i hpolicy
    exact ⟨h, hother hpolicy⟩

end Folding

/-! ## Deliveries -/

section Deliveries

variable {q : FollowupQueue} {signals : List Nat}

/-- What a delivery consumed is no longer counted. -/
theorem Accounted.settle {spare : Nat} (h : Accounted spare [] q) :
    Accounted 0 [] { q with droppedCount := q.droppedCount - spare } := by
  refine ⟨?_, h.entries, h.runs⟩
  have := h.count
  rw [List.length_nil] at this
  dsimp only
  rw [List.length_nil]
  omega

/-- A source leaves with its line, and is spare until the count follows. -/
theorem Accounted.erase_source {spare index : Nat} {source : FollowupRun} (exit : SummaryExit)
    (h : Accounted spare [] q) (hlines : q.summaryLines.length = q.summarySources.length)
    (hsource : q.summarySources[index]? = some source) :
    let q' := { q with
      summarySources := q.summarySources.eraseIdx index
      summaryLines := q.summaryLines.eraseIdx index
      gone := (source, exit) :: q.gone }
    Accounted (spare + 1) [] q' ∧ q'.summaryLines.length = q'.summarySources.length := by
  obtain ⟨hindex, hget⟩ := List.getElem?_eq_some_iff.mp hsource
  have hperm : q.summarySources.Perm (source :: q.summarySources.eraseIdx index) := by
    have hset := List.set_perm_cons_eraseIdx hindex q.summarySources[index]
    rw [List.set_getElem_self, hget] at hset
    exact hset
  refine ⟨⟨?_, h.entries, fun id => ?_⟩, ?_⟩
  · have hlength := hperm.length_eq
    rw [List.length_cons] at hlength
    have := h.count
    dsimp only
    omega
  · have hmoved := occurrences_perm hperm id
    rw [occurrences_cons] at hmoved
    have := h.runs id
    dsimp only [foldedRuns] at *
    rw [List.map_cons, occurrences_cons]
    dsimp only
    omega
  · dsimp only
    rw [List.length_eraseIdx_of_lt hindex, List.length_eraseIdx_of_lt (hlines ▸ hindex), hlines]

/-- The balance inside `consumeQueueSummaryDelivery`: what is consumed is spare. -/
def Consuming (acc : FollowupQueue × Nat) : Prop :=
  Accounted acc.2 [] acc.1 ∧ acc.1.summaryLines.length = acc.1.summarySources.length

theorem Consuming.consumeSource {acc : FollowupQueue × Nat} (announced : List Nat)
    (source : FollowupRun) (h : Consuming acc) : Consuming (consumeSource announced acc source) := by
  obtain ⟨q, consumedCount⟩ := acc
  obtain ⟨hacc, hlines⟩ := h
  unfold AutoReply.consumeSource
  dsimp only at *
  split
  · rename_i hmem
    exact Accounted.erase_source _ hacc hlines (List.getElem?_idxOf hmem)
  · split
    · exact ⟨hacc, hlines⟩
    · rename_i removed entries htake
      obtain ⟨entry, hloses, -, rfl⟩ := takeElided_loses htake
      obtain ⟨run, hrun, hperm⟩ := entry.take_spec source (hacc.entries entry hloses.mem)
      have htaken : entry.sources.Perm ([run] ++ (entry.take source).2) := hperm
      obtain ⟨hlost, hentries⟩ := hloses.balance htaken hacc.entries
      rw [hrun]
      exact ⟨hacc.lose _ hlost hentries rfl rfl, hlines⟩

theorem Consuming.foldl (announced : List Nat) (sources : List FollowupRun) :
    ∀ {acc : FollowupQueue × Nat}, Consuming acc →
      Consuming (sources.foldl (AutoReply.consumeSource announced) acc) := by
  induction sources with
  | nil => exact fun h => h
  | cons source sources ih => exact fun h => ih (h.consumeSource announced source)

theorem Balanced.consume {announced : List Nat} {sources : List FollowupRun} {droppedCount : Nat}
    (h : Balanced q) (hempty : sources = [] → droppedCount = 0) :
    Balanced (consumeQueueSummaryDelivery q announced sources droppedCount) := by
  have hstart : Consuming (q, if sources = [] then droppedCount else 0) := by
    refine ⟨?_, h.lines⟩
    split
    · rename_i hnil
      rw [hempty hnil]
      exact h.accounted
    · exact h.accounted
  obtain ⟨hacc, hlines⟩ := hstart.foldl announced sources
  exact ⟨hacc.settle, hlines⟩

/-- A retry source stands where its run stood. -/
theorem Balanced.releaseForRetry (sources : List FollowupRun) : ∀ {q : FollowupQueue}, Balanced q →
    Balanced (releaseQueueSummaryDeliveryForRetry q sources) := by
  induction sources with
  | nil => exact fun h => h
  | cons source sources ih =>
    intro q h
    refine ih ?_
    dsimp only
    split
    · rename_i hmem
      have hids : (q.summarySources.set (q.summarySources.idxOf source)
          (createOverflowSummaryRetrySource source q.nextRef)).map (·.id) =
          q.summarySources.map (·.id) := by
        rw [List.map_set]
        refine List.ext_getElem? fun i => ?_
        rw [List.getElem?_set]
        split
        · rename_i hi
          subst hi
          rw [List.getElem?_map, List.getElem?_idxOf hmem, if_pos]
          · rfl
          · rw [List.length_map]
            exact List.idxOf_lt_length_of_mem hmem
        · rfl
      refine ⟨⟨?_, h.accounted.entries, fun id => ?_⟩, ?_⟩
      · have := h.accounted.count
        dsimp only
        rw [List.length_set]
        exact this
      · have := h.accounted.runs id
        dsimp only [foldedRuns, occurrences] at *
        rw [hids]
        exact this
      · dsimp only
        rw [List.length_set]
        exact h.lines
    · exact h

theorem Balanced.dropAbortedAt (n : Nat) : ∀ {q : FollowupQueue}, Balanced q →
    Balanced (dropAbortedAt signals n q) := by
  induction n with
  | zero => exact fun h => h
  | succ index ih =>
    intro q h
    refine ih ?_
    split
    · exact h
    · rename_i source hsource
      split
      · obtain ⟨hacc, hlines⟩ :=
          Accounted.erase_source .aborted h.accounted h.lines hsource
        exact ⟨hacc.settle, hlines⟩
      · exact h

theorem Balanced.dropAborted (h : Balanced q) : Balanced (dropAbortedQueueSummarySources signals q) := h.dropAbortedAt _

theorem Balanced.dropAbortedElided {entry : SummaryElision} {rest : List SummaryElision}
    (h : Balanced q) (hentries : q.summaryElisions = entry :: rest) :
    Balanced (dropAbortedElided signals q entry rest) := by
  have hne : NonEmptyEntries (entry :: rest) := hentries ▸ h.accounted.entries
  obtain ⟨hperm, hrestne⟩ := (Loses.head rest).balance
    (List.filter_append_perm (isFollowupRunAborted signals q) entry.sources).symm hne
  rw [← hentries] at hperm
  have hmoved := h.accounted.lose ((entry.sources.filter (isFollowupRunAborted signals q)).map
    (·, .aborted) ++ q.gone) hperm hrestne rfl (by simp [Function.comp_def])
  rw [Nat.zero_add] at hmoved
  exact ⟨hmoved.settle, h.lines⟩

theorem Balanced.resetEvicted (h : Balanced q) : Balanced { q with
    evictedSummaryCount := 0
    droppedCount := q.droppedCount - q.evictedSummaryCount } := by
  refine ⟨⟨?_, h.accounted.entries, h.accounted.runs⟩, h.lines⟩
  have := h.accounted.count
  dsimp only
  omega

theorem Balanced.elisionDelivered (delivery : SummaryDelivery) (h : Balanced q) :
    Balanced (elisionDelivered q delivery) := by
  unfold AutoReply.elisionDelivered
  split
  · exact h
  · rename_i entryRef elidedCount helided
    split
    · exact h
    · rename_i taken entries hconsume
      obtain ⟨entry, hloses, -, rfl⟩ := consumeElision_loses hconsume
      obtain ⟨hperm, hentries⟩ := hloses.balance (.of_eq (List.take_append_drop _ _).symm) h.accounted.entries
      have hmoved := h.accounted.lose ((entry.sources.take elidedCount).map (·, .delivered delivery.announced) ++ q.gone)
        hperm hentries rfl (by simp [Function.comp_def])
      rw [Nat.zero_add] at hmoved
      exact ⟨hmoved.settle, h.lines⟩

theorem Balanced.releaseActive (keep sources : List FollowupRun) (h : Balanced q) :
    Balanced (releaseActiveSources keep sources q) :=
  Balanced.trim ⟨⟨h.accounted.count, h.accounted.entries, h.accounted.runs⟩, h.lines⟩

end Deliveries

/-! ## Enqueueing and clearing -/

section Enqueueing

variable {q : FollowupQueue}

theorem splitVictims_perm (victim : FollowupRun → Bool) (n : Nat) (items : List FollowupRun) :
    ((splitVictims victim n items).1 ++ (splitVictims victim n items).2).Perm items := by
  induction n, items using splitVictims.induct victim with
  | case1 items =>
    rw [splitVictims]
    exact List.Perm.refl items
  | case2 n => exact List.Perm.refl []
  | case3 n item rest hvictim dropped kept hsplit ih =>
    rw [splitVictims, if_pos hvictim]
    rw [hsplit] at ih ⊢
    exact ih.cons _
  | case4 n item rest hvictim dropped kept hsplit ih =>
    rw [splitVictims, if_neg hvictim]
    rw [hsplit] at ih ⊢
    exact List.perm_middle.trans (ih.cons _)

theorem splitVictims_victims (victim : FollowupRun → Bool) (n : Nat) (items : List FollowupRun) :
    ∀ item ∈ (splitVictims victim n items).1, victim item = true := by
  induction n, items using splitVictims.induct victim with
  | case1 items =>
    rw [splitVictims]
    exact fun _ hitem => absurd hitem List.not_mem_nil
  | case2 n => exact fun _ hitem => absurd hitem List.not_mem_nil
  | case3 n item rest hvictim dropped kept hsplit ih =>
    rw [splitVictims, if_pos hvictim]
    rw [hsplit] at ih ⊢
    intro other hother
    rcases List.mem_cons.mp hother with rfl | hother
    · exact hvictim
    · exact ih other hother
  | case4 n item rest hvictim dropped kept hsplit ih =>
    rw [splitVictims, if_neg hvictim]
    rw [hsplit] at ih ⊢
    exact ih

/-- The queue after the policy `summarize` dropped some items. -/
def foldedInto (q : FollowupQueue) (dropped kept : List FollowupRun) : FollowupQueue :=
  let lines := q.summaryLines ++ dropped.map (·.summaryLine)
  { q with
    items := kept
    summarySources := q.summarySources ++ dropped
    droppedCount := q.droppedCount + dropped.length
    summaryLines := lines.drop (lines.length - q.cap)
    left := dropped.map (·, .folded) ++ q.left }

/-- What the drop policy can do. -/
theorem applyQueueDropPolicy_cases (q : FollowupQueue) :
    (∃ room, applyQueueDropPolicy q = (room, q)) ∨
    (∃ dropped kept, (dropped ++ kept).Perm q.items ∧ (∀ item ∈ dropped, mayDrop q item = true) ∧
      q.dropPolicy = .summarize ∧ applyQueueDropPolicy q = (true, foldedInto q dropped kept)) ∨
    (∃ dropped kept, (dropped ++ kept).Perm q.items ∧ (∀ item ∈ dropped, mayDrop q item = true) ∧
      q.dropPolicy ≠ .summarize ∧ applyQueueDropPolicy q =
        (true, { q with items := kept, left := dropped.map (·, .evicted) ++ q.left })) := by
  unfold applyQueueDropPolicy
  dsimp only
  split
  · exact .inl ⟨true, rfl⟩
  · split
    · exact .inl ⟨false, rfl⟩
    · have hperm := splitVictims_perm (mayDrop q) (countPendingQueueItems q - q.cap + 1) q.items
      have hvictims := splitVictims_victims (mayDrop q) (countPendingQueueItems q - q.cap + 1) q.items
      generalize splitVictims (mayDrop q) (countPendingQueueItems q - q.cap + 1) q.items = split
        at hperm hvictims ⊢
      obtain ⟨dropped, kept⟩ := split
      dsimp only at hperm hvictims ⊢
      split
      · exact .inl ⟨false, rfl⟩
      · split
        · rename_i hpolicy
          exact .inr (.inl ⟨dropped, kept, hperm, hvictims, hpolicy, rfl⟩)
        · rename_i hpolicy
          exact .inr (.inr ⟨dropped, kept, hperm, hvictims, hpolicy, rfl⟩)

theorem foldedRuns_append (q : FollowupQueue) (left : List (FollowupRun × ItemExit)) :
    foldedRuns { q with left := left ++ q.left } =
      left.filterMap (fun (run, exit) => if exit = .folded then some run else none) ++ foldedRuns q :=
  List.filterMap_append

/-- Exits of one kind, other than folding, are not folded runs. -/
theorem foldedRuns_exits {exit : ItemExit} (hexit : exit ≠ .folded) (runs : List FollowupRun) :
    foldedRuns { q with left := runs.map (·, exit) ++ q.left } = foldedRuns q := by
  rw [foldedRuns_append, List.filterMap_map]
  have hnone : ∀ run ∈ runs,
      ((fun x : FollowupRun × ItemExit => if x.2 = .folded then some x.1 else none) ∘ (·, exit)) run =
        none := fun run _ => if_neg hexit
  rw [List.filterMap_eq_nil_iff.mpr hnone, List.nil_append]

/-- After the drop policy the lines may lag behind the sources, until the overflow is folded. -/
theorem Balanced.applyQueueDropPolicy (h : Balanced q) :
    let q' := (applyQueueDropPolicy q).2
    Accounted 0 [] q' ∧ q'.summaryLines.length ≤ q'.summarySources.length ∧
      (q'.dropPolicy ≠ .summarize → q'.summaryLines.length = q'.summarySources.length) := by
  dsimp only
  rcases applyQueueDropPolicy_cases q with
    ⟨room, heq⟩ | ⟨dropped, kept, -, -, hpolicy, heq⟩ | ⟨dropped, kept, -, -, -, heq⟩
  · rw [heq]
    exact ⟨h.accounted, Nat.le_of_eq h.lines, fun _ => h.lines⟩
  · rw [heq]
    refine ⟨⟨?_, h.accounted.entries, fun id => ?_⟩, ?_, fun hother => absurd hpolicy hother⟩
    · have := h.accounted.count
      dsimp only [foldedInto]
      rw [List.length_append]
      omega
    · have hfolded : foldedRuns { q with left := dropped.map (·, .folded) ++ q.left } =
          dropped ++ foldedRuns q := by
        rw [foldedRuns_append, List.filterMap_map]
        exact congrArg (· ++ foldedRuns q) List.filterMap_some
      have := h.accounted.runs id
      have hafter := congrArg (occurrences id) hfolded
      rw [occurrences_append] at hafter
      dsimp only [foldedRuns, foldedInto] at *
      rw [occurrences_append]
      omega
    · have := h.lines
      dsimp only [foldedInto]
      rw [List.length_drop, List.length_append, List.length_append, List.length_map]
      omega
  · rw [heq]
    refine ⟨⟨h.accounted.count, h.accounted.entries, fun id => ?_⟩, Nat.le_of_eq h.lines,
      fun _ => h.lines⟩
    rw [← h.accounted.runs id]
    exact congrArg (occurrences id) (foldedRuns_exits (by decide) dropped)

/-- Nothing that the balance reads changes. -/
theorem Balanced.frame {items inFlight : List FollowupRun} {mode : QueueMode} {cap nextRef : Nat}
    {dropPolicy : QueueDropPolicy} {active : List FollowupRun} {enqueued admittedRuns finished : List Nat}
    (h : Balanced q) : Balanced { q with
      items, inFlight, mode, cap, dropPolicy, activeSummarySources := active, nextRef, enqueued
      admittedRuns, finished } :=
  ⟨⟨h.accounted.count, h.accounted.entries, h.accounted.runs⟩, h.lines⟩

theorem Balanced.getFollowupQueue (settings : QueueSettings) (h : Balanced q) :
    Balanced (getFollowupQueue q settings) := Balanced.trim h.frame

theorem Balanced.enqueue (signals : List Nat) (req : EnqueueRequest) (h : Balanced q) :
    Balanced (enqueueFollowupRun signals q req).2 := by
  unfold enqueueFollowupRun
  split
  · exact h
  · have hget := h.getFollowupQueue req.settings
    dsimp only
    split
    · exact hget
    · split
      · exact hget
      · split
        · exact hget
        · obtain ⟨hacc, hle, hother⟩ := hget.applyQueueDropPolicy
          have hfold := foldOverflow_balanced hacc hle hother
          split
          · exact hfold.frame
          · exact hfold

/-- Items leave, but not into the overflow. -/
theorem Balanced.leave {items : List FollowupRun} {exit : ItemExit} (hexit : exit ≠ .folded)
    (runs : List FollowupRun) (h : Balanced q) :
    Balanced { q with items, left := runs.map (·, exit) ++ q.left } := by
  refine ⟨⟨h.accounted.count, h.accounted.entries, fun id => ?_⟩, h.lines⟩
  rw [← h.accounted.runs id]
  exact congrArg (occurrences id) (foldedRuns_exits hexit runs)

theorem Balanced.clear (h : Balanced q) : Balanced (clearFollowupQueue q) := by
  refine ⟨⟨rfl, fun _ he => absurd he List.not_mem_nil, fun id => ?_⟩, rfl⟩
  have hfolded : foldedRuns (clearFollowupQueue q) = foldedRuns q := foldedRuns_exits (by decide) q.items
  have hgone : (clearFollowupQueue q).gone.map (·.1) =
      q.summarySources ++ (sourcesOf q.summaryElisions ++ q.gone.map (·.1)) := by
    simp [clearFollowupQueue, elidedSources_eq, Function.comp_def]
  rw [hfolded, hgone, h.accounted.runs id, occurrences_append, occurrences_append]
  dsimp only [clearFollowupQueue]
  rw [sourcesOf_nil, occurrences_nil]
  omega

theorem balanced_created (settings : QueueSettings) : Balanced (createdQueue settings) :=
  ⟨⟨rfl, fun _ he => absurd he List.not_mem_nil, fun _ => rfl⟩, rfl⟩

end Enqueueing

end OpenClaw.AutoReply
