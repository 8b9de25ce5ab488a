/-
# OpenClaw.AutoReply.FollowupReferences -- how a delivery finds a run that has moved

A run that was dropped moves from the summary sources to an elision, as a copy, while a delivery that
announces the original may be in flight.  The delivery finds it again through the references that the
elision keeps.  `Traceable` says that these references never mix up two runs, and `Tracked` that what a
delivery in flight has announced is protected until the delivery takes it.
-/
import Mathlib.Data.List.Pairwise
import OpenClaw.AutoReply.FollowupConservation

namespace OpenClaw.AutoReply

open OpenClaw.Logic Relation

/-! ## Objects -/

/-- The objects that the references of the elisions name. -/
def refsOf (entries : List SummaryElision) : List Nat :=
  entries.flatMap fun entry => entry.sourceRefs.flatMap fun (source, copy) => [source.ref, copy.ref]

@[simp] theorem refsOf_nil : refsOf [] = [] := rfl

@[simp] theorem refsOf_cons (entry : SummaryElision) (rest : List SummaryElision) :
    refsOf (entry :: rest) =
      (entry.sourceRefs.flatMap fun (source, copy) => [source.ref, copy.ref]) ++ refsOf rest := rfl

@[simp] theorem refsOf_append (before after : List SummaryElision) :
    refsOf (before ++ after) = refsOf before ++ refsOf after := List.flatMap_append

variable {entry : SummaryElision} {source : FollowupRun} {entries entries' : List SummaryElision}

theorem refs_mem_refsOf {entries : List SummaryElision} (hentry : entry ∈ entries) {source copy : FollowupRun}
    (href : (source, copy) ∈ entry.sourceRefs) : source.ref ∈ refsOf entries ∧ copy.ref ∈ refsOf entries := by
  constructor
  · exact List.mem_flatMap.mpr ⟨entry, hentry, List.mem_flatMap.mpr ⟨_, href, by simp⟩⟩
  · exact List.mem_flatMap.mpr ⟨entry, hentry, List.mem_flatMap.mpr ⟨_, href, by simp⟩⟩

/-- The sources of an entry are copies that it made, each for a run with the same message. -/
structure EntrySound (entry : SummaryElision) : Prop where
  nodup : entry.sources.Nodup
  copies : ∀ copy ∈ entry.sources, ∃ source, (source, copy) ∈ entry.sourceRefs
  same : ∀ source copy, (source, copy) ∈ entry.sourceRefs → copy.id = source.id

theorem EntrySound.shrink {sources : List FollowupRun} (h : EntrySound entry) (hsub : sources.Sublist entry.sources) :
    EntrySound { entry with sources } :=
  ⟨h.nodup.sublist hsub, fun copy hcopy => h.copies copy (hsub.subset hcopy), h.same⟩

/-- Some entries are gone, and others have lost sources. -/
inductive Shrunk : List SummaryElision → List SummaryElision → Prop
  | nil : Shrunk [] []
  | lose {entry : SummaryElision} {sources : List FollowupRun} {rest rest' : List SummaryElision}
      (fewer : sources.Sublist entry.sources) (tail : Shrunk rest rest') :
      Shrunk (entry :: rest) ({ entry with sources } :: rest')
  | drop {entry : SummaryElision} {rest rest' : List SummaryElision} (tail : Shrunk rest rest') :
      Shrunk (entry :: rest) rest'

namespace Shrunk

theorem refl : ∀ entries : List SummaryElision, Shrunk entries entries
  | [] => .nil
  | entry :: rest => .lose (List.Sublist.refl entry.sources) (refl rest)

theorem cons {rest rest' : List SummaryElision} (entry : SummaryElision) (h : Shrunk rest rest') :
    Shrunk (entry :: rest) (entry :: rest') :=
  .lose (List.Sublist.refl entry.sources) h

/-- An entry that lost some of its sources leaves with the last of them. -/
theorem head {entry : SummaryElision} {sources : List FollowupRun} (rest : List SummaryElision)
    (fewer : sources.Sublist entry.sources) :
    Shrunk (entry :: rest) (if sources = [] then rest else { entry with sources } :: rest) := by
  split
  · exact .drop (refl rest)
  · exact .lose fewer (refl rest)

theorem refs (h : Shrunk entries entries') : (refsOf entries').Sublist (refsOf entries) := by
  induction h with
  | nil => exact List.Sublist.refl _
  | lose fewer tail ih => exact (List.Sublist.refl _).append ih
  | drop tail ih => exact ih.trans (List.sublist_append_right _ _)

theorem origin (h : Shrunk entries entries') : ∀ entry' ∈ entries', ∃ entry ∈ entries, ∃ sources :
    List FollowupRun, sources.Sublist entry.sources ∧ entry' = { entry with sources } := by
  induction h with
  | nil => exact fun _ hentry => absurd hentry List.not_mem_nil
  | @lose entry sources rest rest' fewer tail ih =>
    intro entry' hentry'
    rcases List.mem_cons.mp hentry' with rfl | hentry'
    · exact ⟨entry, List.mem_cons_self, sources, fewer, rfl⟩
    · obtain ⟨origin, horigin, hsources⟩ := ih entry' hentry'
      exact ⟨origin, List.mem_cons_of_mem _ horigin, hsources⟩
  | drop tail ih =>
    intro entry' hentry'
    obtain ⟨origin, horigin, hsources⟩ := ih entry' hentry'
    exact ⟨origin, List.mem_cons_of_mem _ horigin, hsources⟩

theorem sound (h : Shrunk entries entries') (hsound : ∀ entry ∈ entries, EntrySound entry) :
    ∀ entry ∈ entries', EntrySound entry := by
  intro entry' hentry'
  obtain ⟨entry, hentry, sources, hfewer, rfl⟩ := h.origin entry' hentry'
  exact (hsound entry hentry).shrink hfewer

end Shrunk

theorem Loses.shrunk {sources : List FollowupRun} (h : Loses entry sources entries entries')
    (hfewer : sources.Sublist entry.sources) : Shrunk entries entries' := by
  induction h with
  | head rest => exact .head rest hfewer
  | cons other tail ih => exact ih.cons other

theorem Loses.origin {sources : List FollowupRun} (h : Loses entry sources entries entries') :
    ∀ entry' ∈ entries', entry' ∈ entries ∨ entry' = { entry with sources } := by
  induction h with
  | head rest =>
    intro entry' hentry'
    split at hentry'
    · exact .inl (List.mem_cons_of_mem _ hentry')
    · exact (List.mem_cons.mp hentry').symm.imp_left (List.mem_cons_of_mem _)
  | cons other tail ih =>
    intro entry' hentry'
    rcases List.mem_cons.mp hentry' with rfl | hentry'
    · exact .inl List.mem_cons_self
    · exact (ih entry' hentry').imp_left (List.mem_cons_of_mem _)

theorem SummaryElision.take_sublist (entry : SummaryElision) (source : FollowupRun) :
    (entry.take source).2.Sublist entry.sources := by
  unfold SummaryElision.take
  dsimp only
  split
  · exact List.erase_sublist
  · exact List.dropLast_sublist _

/-! ## References never mix up two runs -/

/-- All objects of the queue, with those on their way into the elisions. -/
def objects (moving : List FollowupRun) (q : FollowupQueue) : List Nat :=
  (q.items ++ moving ++ q.summarySources).map (·.ref) ++ refsOf q.summaryElisions

structure Traceable (moving : List FollowupRun) (q : FollowupQueue) : Prop where
  entries : ∀ entry ∈ q.summaryElisions, EntrySound entry
  nodup : (objects moving q).Nodup
  fresh : ∀ ref ∈ objects moving q, ref < q.nextRef

section Traceable

variable {moving : List FollowupRun} {q q' : FollowupQueue}

theorem Traceable.shrink (h : Traceable moving q) (hitems : q'.items.Sublist q.items)
    (hsources : q'.summarySources.Sublist q.summarySources)
    (helisions : Shrunk q.summaryElisions q'.summaryElisions) (hnext : q.nextRef ≤ q'.nextRef) :
    Traceable moving q' := by
  have hsub : (objects moving q').Sublist (objects moving q) :=
    (((hitems.append (List.Sublist.refl moving)).append hsources).map _).append helisions.refs
  exact ⟨helisions.sound h.entries, h.nodup.sublist hsub,
    fun ref href => Nat.lt_of_lt_of_le (h.fresh ref (hsub.subset href)) hnext⟩

/-- The overflow moves from place to place. -/
theorem Traceable.rearrange {moving' : List FollowupRun} (lost : List FollowupRun) (h : Traceable moving q)
    (hperm : (q'.items ++ moving' ++ q'.summarySources ++ lost).Perm (q.items ++ moving ++ q.summarySources))
    (helisions : q'.summaryElisions = q.summaryElisions) (hnext : q'.nextRef = q.nextRef) : Traceable moving' q' := by
  have hobjects : ((q'.items ++ moving' ++ q'.summarySources).map (·.ref) ++
      (lost.map (·.ref) ++ refsOf q'.summaryElisions)).Perm (objects moving q) := by
    unfold objects
    rw [helisions, ← List.append_assoc, ← List.map_append]
    exact (hperm.map _).append_right _
  have hsub : (objects moving' q').Sublist ((q'.items ++ moving' ++ q'.summarySources).map (·.ref) ++
      (lost.map (·.ref) ++ refsOf q'.summaryElisions)) :=
    (List.Sublist.refl _).append (List.sublist_append_right _ _)
  refine ⟨helisions ▸ h.entries, (hobjects.nodup_iff.mpr h.nodup).sublist hsub, fun ref href => ?_⟩
  rw [hnext]
  exact h.fresh ref (hobjects.subset (hsub.subset href))

theorem Traceable.evictTimes (n : Nat) : ∀ {q : FollowupQueue}, Traceable moving q →
    Traceable moving (evictTimes n q) := by
  induction n with
  | zero => exact fun h => h
  | succ n ih =>
    intro q h
    refine ih ?_
    unfold evictOne
    split
    · exact h
    · rename_i source entries hevict
      obtain ⟨_, hloses, -⟩ := evictFirst_loses hevict
      exact h.shrink (List.Sublist.refl _) (List.Sublist.refl _) (hloses.shrunk List.erase_sublist) (Nat.le_refl _)

theorem Traceable.trim (h : Traceable moving q) : Traceable moving (trimSummaryElisionsToCap q) := h.evictTimes _

theorem Traceable.copy_lt (h : Traceable moving q) (hentry : entry ∈ q.summaryElisions) {source copy : FollowupRun}
    (href : (source, copy) ∈ entry.sourceRefs) : source.ref < q.nextRef ∧ copy.ref < q.nextRef := by
  obtain ⟨hsource, hcopy⟩ := refs_mem_refsOf hentry href
  exact ⟨h.fresh _ (List.mem_append_right _ hsource), h.fresh _ (List.mem_append_right _ hcopy)⟩

theorem Traceable.source_lt (h : Traceable moving q) (hentry : entry ∈ q.summaryElisions) {copy : FollowupRun}
    (hcopy : copy ∈ entry.sources) : copy.ref < q.nextRef := by
  obtain ⟨source, href⟩ := (h.entries entry hentry).copies copy hcopy
  exact (h.copy_lt hentry href).2

/-- A copy that joins an entry is a new one. -/
theorem Traceable.join (h : Traceable moving q) {entry : SummaryElision}
    (hentry : entry ∈ q.summaryElisions) (item : FollowupRun) :
    EntrySound { entry with
      sources := entry.sources ++ [createOverflowSummaryRetrySource item q.nextRef]
      sourceRefs := (item, createOverflowSummaryRetrySource item q.nextRef) :: entry.sourceRefs } := by
  obtain ⟨hnodup, hcopies, hsame⟩ := h.entries entry hentry
  refine ⟨?_, fun copy hcopy => ?_, fun source copy href => ?_⟩
  · refine List.nodup_append.mpr ⟨hnodup, List.nodup_singleton _, fun a ha b hb => ?_⟩
    rw [List.mem_singleton.mp hb]
    intro heq
    have hlt := h.source_lt hentry ha
    rw [heq] at hlt
    exact Nat.lt_irrefl _ hlt
  · rcases List.mem_append.mp hcopy with hbefore | hnew
    · obtain ⟨source, href⟩ := hcopies copy hbefore
      exact ⟨source, List.mem_cons_of_mem _ href⟩
    · rw [List.mem_singleton.mp hnew]
      exact ⟨item, List.mem_cons_self⟩
  · rcases List.mem_cons.mp href with heq | hbefore
    · cases heq
      rfl
    · exact hsame source copy hbefore

/-- An entry of one copy. -/
theorem entrySound_created (item : FollowupRun) (ref : Nat) (contextKey : String) :
    EntrySound {
      ref, contextKey
      sources := [createOverflowSummaryRetrySource item ref]
      sourceRefs := [(item, createOverflowSummaryRetrySource item ref)] } := by
  refine ⟨List.nodup_singleton _, fun copy hcopy => ?_, fun source copy href => ?_⟩
  · rw [List.mem_singleton.mp hcopy]
    exact ⟨item, List.mem_singleton_self _⟩
  · cases List.mem_singleton.mp href
    rfl

theorem Traceable.addElision_entries (item : FollowupRun) (h : Traceable moving q) :
    (refsOf (addElision q item).summaryElisions).Perm (item.ref :: q.nextRef :: refsOf q.summaryElisions) ∧
      ∀ entry ∈ (addElision q item).summaryElisions, EntrySound entry := by
  unfold addElision
  dsimp only
  split
  · rename_i hlast
    rw [List.getLast?_eq_none_iff.mp hlast]
    refine ⟨List.Perm.refl _, fun entry hentry => ?_⟩
    rw [List.mem_singleton.mp hentry]
    exact entrySound_created item q.nextRef _
  · rename_i lastElision hlast
    have hmem : lastElision ∈ q.summaryElisions := List.mem_of_getLast? hlast
    have hsplit := List.dropLast_append_getLast? lastElision hlast
    split
    · refine ⟨?_, fun entry hentry => ?_⟩
      · have hrefs : refsOf q.summaryElisions = refsOf q.summaryElisions.dropLast ++
            lastElision.sourceRefs.flatMap fun (source, copy) => [source.ref, copy.ref] := by
          conv_lhs => rw [← hsplit]
          rw [refsOf_append, refsOf_cons, refsOf_nil, List.append_nil]
        rw [hrefs, refsOf_append, refsOf_cons, refsOf_nil, List.append_nil]
        exact List.perm_middle.trans (List.Perm.cons _ List.perm_middle)
      · rcases List.mem_append.mp hentry with hbefore | hnew
        · exact h.entries entry (List.dropLast_subset _ hbefore)
        · rw [List.mem_singleton.mp hnew]
          exact h.join hmem item
    · refine ⟨?_, fun entry hentry => ?_⟩
      · rw [refsOf_append]
        exact List.perm_append_comm
      · rcases List.mem_append.mp hentry with hbefore | hnew
        · exact h.entries entry hbefore
        · rw [List.mem_singleton.mp hnew]
          exact entrySound_created item q.nextRef _

/-- What a moving run becomes: a reference, and a fresh copy. -/
theorem Traceable.elide {item : FollowupRun} (h : Traceable (item :: moving) q) :
    Traceable moving (addElision q item) := by
  obtain ⟨hrefs, hsound⟩ := h.addElision_entries item
  have hobjects : (objects moving (addElision q item)).Perm
      (q.nextRef :: objects (item :: moving) q) := by
    have hplaces : (item.ref :: (q.items ++ moving ++ q.summarySources).map (·.ref)).Perm
        ((q.items ++ (item :: moving) ++ q.summarySources).map (·.ref)) := by
      rw [List.append_assoc, List.append_assoc]
      exact (List.Perm.map _ List.perm_middle).symm
    unfold objects
    have hmove : ((q.items ++ moving ++ q.summarySources).map (·.ref) ++
        (item.ref :: q.nextRef :: refsOf q.summaryElisions)).Perm
        (q.nextRef :: ((item.ref :: (q.items ++ moving ++ q.summarySources).map (·.ref)) ++
          refsOf q.summaryElisions)) := by
      refine List.perm_middle.trans ((List.Perm.cons item.ref List.perm_middle).trans ?_)
      exact List.Perm.swap _ _ _
    exact ((hrefs.append_left _).trans hmove).trans ((hplaces.append_right _).cons _)
  refine ⟨hsound, hobjects.nodup_iff.mpr (List.nodup_cons.mpr ⟨fun hmem => ?_, h.nodup⟩),
    fun ref href => ?_⟩
  · exact Nat.lt_irrefl _ (h.fresh _ hmem)
  · rcases List.mem_cons.mp (hobjects.subset href) with rfl | hbefore
    · exact Nat.lt_succ_self _
    · exact Nat.lt_succ_of_lt (h.fresh ref hbefore)

theorem Traceable.foldElisions (items : List FollowupRun) : ∀ {q : FollowupQueue}, Traceable items q →
    Traceable [] (items.foldl (fun q item => trimSummaryElisionsToCap (addElision q item)) q) := by
  induction items with
  | nil => exact fun h => h
  | cons item items ih => exact fun h => ih h.elide.trim

theorem Traceable.foldOverflow (h : Traceable [] q) : Traceable [] (foldOverflow q) := by
  unfold AutoReply.foldOverflow
  split
  · refine Traceable.foldElisions _ (h.rearrange [] ?_ rfl rfl)
    dsimp only
    rw [List.append_nil, List.append_nil, List.append_assoc, List.take_append_drop]
  · exact h

theorem Traceable.applyQueueDropPolicy (h : Traceable [] q) : Traceable [] (applyQueueDropPolicy q).2 := by
  rcases applyQueueDropPolicy_cases q with
    ⟨room, heq⟩ | ⟨dropped, kept, hperm, -, -, heq⟩ | ⟨dropped, kept, hperm, -, -, heq⟩
  · rw [heq]
    exact h
  · rw [heq]
    refine h.rearrange [] ?_ rfl rfl
    dsimp only [foldedInto]
    rw [List.append_nil, List.append_nil, List.append_nil]
    have hmove : (kept ++ (q.summarySources ++ dropped)).Perm (dropped ++ kept ++ q.summarySources) := by
      rw [← List.append_assoc, List.append_assoc dropped]
      exact List.perm_append_comm
    exact hmove.trans (hperm.append_right _)
  · rw [heq]
    refine h.rearrange dropped ?_ rfl rfl
    dsimp only
    rw [List.append_nil, List.append_nil]
    have hmove : (kept ++ q.summarySources ++ dropped).Perm (dropped ++ kept ++ q.summarySources) := by
      rw [List.append_assoc dropped]
      exact List.perm_append_comm
    exact hmove.trans (hperm.append_right _)

/-- An object that joins the queue is new. -/
theorem Traceable.join_fresh (objs : List Nat) (h : Traceable [] q)
    (hobjects : (objects [] q').Perm (q.nextRef :: objs)) (hsub : objs.Sublist (objects [] q))
    (helisions : q'.summaryElisions = q.summaryElisions) (hnext : q'.nextRef = q.nextRef + 1) : Traceable [] q' := by
  refine ⟨helisions ▸ h.entries, hobjects.nodup_iff.mpr (List.nodup_cons.mpr ⟨fun hmem => ?_,
    h.nodup.sublist hsub⟩), fun ref href => ?_⟩
  · exact Nat.lt_irrefl _ (h.fresh _ (hsub.subset hmem))
  · rw [hnext]
    rcases List.mem_cons.mp (hobjects.subset href) with rfl | hbefore
    · exact Nat.lt_succ_self _
    · exact Nat.lt_succ_of_lt (h.fresh ref (hsub.subset hbefore))

theorem Traceable.insertRun (req : EnqueueRequest) (h : Traceable [] q) : Traceable [] (insertRun q req) := by
  refine h.join_fresh _ ?_ (List.Sublist.refl _) rfl rfl
  unfold objects AutoReply.insertRun
  dsimp only
  split
  · exact List.Perm.refl _
  · rw [List.append_assoc, List.append_assoc q.items, List.append_assoc q.items]
    exact (List.Perm.map _ List.perm_middle).append_right _

theorem Traceable.enqueue (signals : List Nat) (req : EnqueueRequest) (h : Traceable [] q) :
    Traceable [] (enqueueFollowupRun signals q req).2 := by
  refine enqueue_keeps signals req ?_ ?_ ?_ ?_ ?_ h
  · exact fun q hq => ⟨hq.entries, hq.nodup, hq.fresh⟩
  · exact fun q hq => hq.trim
  · exact fun q hq => hq.applyQueueDropPolicy
  · exact fun q hq => hq.foldOverflow
  · exact fun q hq => hq.insertRun req

theorem Shrunk.nothing : ∀ entries : List SummaryElision, Shrunk entries []
  | [] => .nil
  | _ :: rest => .drop (nothing rest)

theorem Traceable.clear (h : Traceable [] q) : Traceable [] (clearFollowupQueue q) :=
  h.shrink (List.nil_sublist _) (List.nil_sublist _) (.nothing _) (Nat.le_refl _)

theorem Traceable.releaseForRetry (sources : List FollowupRun) : ∀ {q : FollowupQueue},
    Traceable [] q → Traceable [] (releaseQueueSummaryDeliveryForRetry q sources) := by
  induction sources with
  | nil => exact fun h => h
  | cons source sources ih =>
    intro q h
    refine ih ?_
    dsimp only
    split
    · rename_i hmem
      have hset := List.set_perm_cons_eraseIdx (List.idxOf_lt_length_of_mem hmem)
        (createOverflowSummaryRetrySource source q.nextRef)
      refine h.join_fresh ((q.items ++ q.summarySources.eraseIdx
        (q.summarySources.idxOf source)).map (·.ref) ++ refsOf q.summaryElisions) ?_ ?_ rfl rfl
      · unfold objects
        dsimp only
        rw [List.append_nil]
        exact (((hset.append_left _).trans List.perm_middle).map _).append_right _
      · unfold objects
        rw [List.append_nil]
        exact (((List.Sublist.refl _).append (List.eraseIdx_sublist _ _)).map _).append
          (List.Sublist.refl _)
    · exact h

theorem Traceable.consumeSource {acc : FollowupQueue × Nat} (announced : List Nat)
    (source : FollowupRun) (h : Traceable [] acc.1) : Traceable [] (consumeSource announced acc source).1 := by
  unfold AutoReply.consumeSource
  dsimp only
  split
  · exact h.shrink (List.Sublist.refl _) (List.eraseIdx_sublist _ _) (.refl _) (Nat.le_refl _)
  · split
    · exact h
    · rename_i htake
      obtain ⟨entry, hloses, -⟩ := takeElided_loses htake
      exact h.shrink (List.Sublist.refl _) (List.Sublist.refl _) (hloses.shrunk (entry.take_sublist source))
        (Nat.le_refl _)

theorem Traceable.consume (announced : List Nat) (sources : List FollowupRun) (droppedCount : Nat)
    (h : Traceable [] q) : Traceable [] (consumeQueueSummaryDelivery q announced sources droppedCount) := by
  have hfold : ∀ (sources : List FollowupRun) (acc : FollowupQueue × Nat), Traceable [] acc.1 →
      Traceable [] (sources.foldl (AutoReply.consumeSource announced) acc).1 := by
    intro sources
    induction sources with
    | nil => exact fun _ h => h
    | cons source sources ih => exact fun acc h => ih _ (h.consumeSource announced source)
  have hafter := hfold sources (q, if sources = [] then droppedCount else 0) h
  exact ⟨hafter.entries, hafter.nodup, hafter.fresh⟩

theorem Traceable.dropAbortedAt (signals : List Nat) (n : Nat) : ∀ {q : FollowupQueue},
    Traceable [] q → Traceable [] (dropAbortedAt signals n q) := by
  induction n with
  | zero => exact fun h => h
  | succ index ih =>
    intro q h
    refine ih ?_
    split
    · exact h
    · split
      · exact h.shrink (List.Sublist.refl _) (List.eraseIdx_sublist _ _) (.refl _) (Nat.le_refl _)
      · exact h

theorem Traceable.elisionDelivered (delivery : SummaryDelivery) (h : Traceable [] q) :
    Traceable [] (elisionDelivered q delivery) := by
  unfold AutoReply.elisionDelivered
  split
  · exact h
  · split
    · exact h
    · rename_i hconsume
      obtain ⟨_, hloses, -⟩ := consumeElision_loses hconsume
      exact h.shrink (List.Sublist.refl _) (List.Sublist.refl _) (hloses.shrunk (List.drop_sublist _ _)) (Nat.le_refl _)

theorem Traceable.op {s : FollowupSystem} (hop : QueueOp s q q') (h : Traceable [] q) : Traceable [] q' := by
  have hitems {a : FollowupQueue} (hsub : a.items.Sublist q.items)
      (hsources : a.summarySources = q.summarySources) (helisions : a.summaryElisions = q.summaryElisions)
      (hnext : a.nextRef = q.nextRef) : Traceable [] a := by
    refine h.shrink hsub ?_ ?_ (Nat.le_of_eq hnext.symm)
    · rw [hsources]
    · rw [helisions]
      exact .refl _
  cases hop with
  | flight => exact hitems (List.Sublist.refl _) rfl rfl rfl
  | handed | handedBefore | removed => exact hitems List.filter_sublist rfl rfl rfl
  | splice => exact hitems (List.eraseIdx_sublist _ _) rfl rfl rfl
  | activate => exact hitems (List.Sublist.refl _) rfl rfl rfl
  | release =>
    exact Traceable.trim ⟨h.entries, h.nodup, h.fresh⟩
  | consume => exact h.consume _ _ _
  | retry => exact h.releaseForRetry _
  | dropAborted => exact h.dropAbortedAt _ _
  | dropAbortedElided =>
    rename_i entry rest hfirst
    refine h.shrink (List.Sublist.refl _) (List.Sublist.refl _) ?_ (Nat.le_refl _)
    rw [hfirst]
    exact .head _ List.filter_sublist
  | resetEvicted => exact hitems (List.Sublist.refl _) rfl rfl rfl
  | elision => exact h.elisionDelivered _

end Traceable

/-! ## A delivery finds what it announced -/

/-- The copy that stands for `source` in the entry, or `source` itself. -/
def SummaryElision.target (entry : SummaryElision) (source : FollowupRun) : FollowupRun :=
  (entry.sourceRefs.lookup source).getD source

/-- The announced sources of a delivery in flight are protected wherever they go, and stay apart. -/
structure Tracked (sources : List FollowupRun) (q : FollowupQueue) : Prop where
  known : ∀ p ∈ sources, p.ref < q.nextRef
  active : sources ⊆ q.activeSummarySources
  found : ∀ p ∈ sources, ∀ entry ∈ q.summaryElisions, entry.knows p = true →
    entry.target p ∈ entry.sources ∧ entry.target p ∈ q.activeSummarySources
  apart : ∀ p ∈ sources, ∀ p' ∈ sources, ∀ entry ∈ q.summaryElisions,
    entry.target p = entry.target p' → p = p'

section Tracked

variable {sources : List FollowupRun} {q q' : FollowupQueue}

theorem lookup_mem {source copy : FollowupRun} (h : entry.sourceRefs.lookup source = some copy) :
    (source, copy) ∈ entry.sourceRefs := by
  obtain ⟨before, after, heq, -⟩ := List.lookup_eq_some_iff.mp h
  rw [heq]
  simp

theorem SummaryElision.target_mem (entry : SummaryElision) (source : FollowupRun) :
    entry.target source = source ∨ (source, entry.target source) ∈ entry.sourceRefs := by
  unfold SummaryElision.target
  cases hlookup : entry.sourceRefs.lookup source with
  | none => exact .inl rfl
  | some copy => exact .inr (lookup_mem hlookup)

theorem Traceable.target_id {moving : List FollowupRun} (h : Traceable moving q) (hentry : entry ∈ q.summaryElisions)
    (source : FollowupRun) : (entry.target source).id = source.id := by
  rcases entry.target_mem source with heq | href
  · rw [heq]
  · exact (h.entries entry hentry).same _ _ href

theorem Traceable.target_lt {moving : List FollowupRun} (h : Traceable moving q) (hentry : entry ∈ q.summaryElisions)
    (hsource : source.ref < q.nextRef) : (entry.target source).ref < q.nextRef := by
  rcases entry.target_mem source with heq | href
  · rw [heq]
    exact hsource
  · exact (h.copy_lt hentry href).2

/-- Two references of the queue name different objects. -/
theorem refsOf_apart {entries : List SummaryElision} (hnodup : (refsOf entries).Nodup)
    {entry entry' : SummaryElision} (hentry : entry ∈ entries) (hentry' : entry' ∈ entries)
    {a b c : FollowupRun} (hcopy : (a, b) ∈ entry.sourceRefs) : (b, c) ∉ entry'.sourceRefs := by
  intro hkey
  have hpairs : refsOf entries = (entries.flatMap (·.sourceRefs)).flatMap
      fun (source, copy) => [source.ref, copy.ref] := (List.flatMap_assoc ..).symm
  rw [hpairs, List.nodup_flatMap] at hnodup
  obtain ⟨hself, hothers⟩ := hnodup
  have hmem : (a, b) ∈ entries.flatMap (·.sourceRefs) := List.mem_flatMap.mpr ⟨entry, hentry, hcopy⟩
  have hmem' : (b, c) ∈ entries.flatMap (·.sourceRefs) := List.mem_flatMap.mpr ⟨entry', hentry', hkey⟩
  by_cases hsame : (a, b) = (b, c)
  · cases hsame
    have hpair := hself _ hmem
    simp at hpair
  · have : Std.Symm (Function.onFun List.Disjoint
        fun ((source, copy) : FollowupRun × FollowupRun) => [source.ref, copy.ref]) :=
      ⟨fun _ _ hdisjoint => hdisjoint.symm⟩
    have hdisjoint := hothers.forall hmem hmem' hsame
    have hleft : b.ref ∈ [a.ref, b.ref] := by simp
    exact hdisjoint hleft List.mem_cons_self

/-- What the queue holds is not the key of a reference. -/
theorem Traceable.lookup_none (h : Traceable [] q) (hsource : source ∈ q.summarySources ∨
    ∃ entry ∈ q.summaryElisions, source ∈ entry.sources) (hentry : entry ∈ q.summaryElisions) :
    entry.sourceRefs.lookup source = none := by
  cases hlookup : entry.sourceRefs.lookup source with
  | none => rfl
  | some copy =>
    exfalso
    have hkey := lookup_mem hlookup
    have hnodup := List.nodup_append.mp h.nodup
    rcases hsource with hsource | ⟨entry', hentry', hsource⟩
    · have hplace : source.ref ∈ (q.items ++ [] ++ q.summarySources).map FollowupRun.ref :=
        List.mem_map_of_mem (List.mem_append_right _ hsource)
      exact hnodup.2.2 _ hplace _ (refs_mem_refsOf hentry hkey).1 rfl
    · obtain ⟨original, hcopy⟩ := (h.entries entry' hentry').copies source hsource
      exact refsOf_apart hnodup.2.1 hentry' hentry hcopy hkey

/-- A delivery starts with all its sources in place. -/
theorem Entered.tracked {signals : List Nat} {delivery : SummaryDelivery}
    (h : Entered signals q (.summarising delivery)) (hq : Traceable [] q) :
    Tracked delivery.protectedSources q ∧ delivery.protectedSources.Nodup := by
  cases h with
  | plain =>
    rename_i hplain
    cases hplain
  | summarising hfresh hcounted hprompted hactive hretained helided =>
    have hnodup := List.nodup_append.mp hq.nodup
    have hsources : (delivery.sources.map (·.ref)).Nodup := by
      have hplaces := hnodup.1
      rw [List.map_append] at hplaces
      exact hplaces.of_append_right.sublist (hretained.map _)
    have hplaced : ∀ p ∈ delivery.protectedSources,
        p ∈ q.summarySources ∨ ∃ entry ∈ q.summaryElisions, p ∈ entry.sources := by
      intro p hp
      rcases helided with ⟨-, hsame⟩ | ⟨entry, rest, hentries, -, hprotected⟩
      · rw [hsame] at hp
        exact .inl (hretained.subset hp)
      · rw [hprotected] at hp
        rcases List.mem_append.mp hp with hp | hp
        · exact .inr ⟨entry, hentries ▸ List.mem_cons_self, hp⟩
        · exact .inl (hretained.subset hp)
    have hself : ∀ p ∈ delivery.protectedSources, ∀ entry ∈ q.summaryElisions, entry.target p = p := by
      intro p hp entry hentry
      unfold SummaryElision.target
      rw [hq.lookup_none (hplaced p hp) hentry]
      rfl
    refine ⟨⟨fun p hp => ?_, hactive, fun p hp entry hentry hknows => ?_,
      fun p hp p' hp' entry hentry htarget => ?_⟩, ?_⟩
    · rcases hplaced p hp with hsource | ⟨entry, hentry, hcopy⟩
      · refine hq.fresh _ (List.mem_append_left _ (List.mem_map_of_mem ?_))
        exact List.mem_append_right _ hsource
      · exact hq.source_lt hentry hcopy
    · rw [hself p hp entry hentry]
      refine ⟨?_, hactive hp⟩
      unfold SummaryElision.knows at hknows
      rw [hq.lookup_none (hplaced p hp) hentry] at hknows
      simpa using hknows
    · rw [hself p hp entry hentry, hself p' hp' entry hentry] at htarget
      exact htarget
    · rcases helided with ⟨-, hsame⟩ | ⟨entry, rest, hentries, -, hprotected⟩
      · rw [hsame]
        exact hsources.of_map
      · rw [hprotected]
        have hentry : entry ∈ q.summaryElisions := hentries ▸ List.mem_cons_self
        refine List.nodup_append.mpr ⟨(hq.entries entry hentry).nodup, hsources.of_map,
          fun a ha b hb heq => ?_⟩
        subst heq
        obtain ⟨original, hcopy⟩ := (hq.entries entry hentry).copies a ha
        have hplace : a.ref ∈ (q.items ++ [] ++ q.summarySources).map FollowupRun.ref :=
          List.mem_map_of_mem (List.mem_append_right _ (hretained.subset hb))
        exact hnodup.2.2 _ hplace _ (refs_mem_refsOf hentry hcopy).2 rfl

theorem Tracked.frame (h : Tracked sources q) (helisions : q'.summaryElisions = q.summaryElisions)
    (hactive : q.activeSummarySources ⊆ q'.activeSummarySources) (hnext : q.nextRef ≤ q'.nextRef) :
    Tracked sources q' := by
  refine ⟨fun p hp => Nat.lt_of_lt_of_le (h.known p hp) hnext, fun p hp => hactive (h.active hp),
    fun p hp entry hentry hknows => ?_, fun p hp p' hp' entry hentry => ?_⟩
  · rw [helisions] at hentry
    obtain ⟨hmem, hprotected⟩ := h.found p hp entry hentry hknows
    exact ⟨hmem, hactive hprotected⟩
  · rw [helisions] at hentry
    exact h.apart p hp p' hp' entry hentry

/-- Entries may lose sources that are not in use. -/
theorem Tracked.lose {entries : List SummaryElision} (h : Tracked sources q)
    (horigin : ∀ entry' ∈ entries, ∃ entry ∈ q.summaryElisions,
      entry'.sourceRefs = entry.sourceRefs ∧ entry'.sources ⊆ entry.sources ∧
        ∀ copy ∈ entry.sources, copy ∈ q.activeSummarySources → copy ∈ entry'.sources)
    (helisions : q'.summaryElisions = entries)
    (hactive : q'.activeSummarySources = q.activeSummarySources) (hnext : q'.nextRef = q.nextRef) :
    Tracked sources q' := by
  refine ⟨fun p hp => hnext ▸ h.known p hp, fun p hp => hactive ▸ h.active hp,
    fun p hp entry' hentry' hknows => ?_, fun p hp p' hp' entry' hentry' htarget => ?_⟩
  · rw [helisions] at hentry'
    obtain ⟨entry, hentry, hrefs, hsub, hkept⟩ := horigin entry' hentry'
    have hbefore : entry.knows p = true := by
      unfold SummaryElision.knows at *
      rw [hrefs] at hknows
      rw [Bool.or_eq_true] at *
      exact hknows.imp (fun hmem => decide_eq_true (hsub (of_decide_eq_true hmem))) id
    obtain ⟨hmem, hprotected⟩ := h.found p hp entry hentry hbefore
    unfold SummaryElision.target at *
    rw [hrefs, hactive]
    exact ⟨hkept _ hmem hprotected, hprotected⟩
  · rw [helisions] at hentry'
    obtain ⟨entry, hentry, hrefs, -, -⟩ := horigin entry' hentry'
    refine h.apart p hp p' hp' entry hentry ?_
    unfold SummaryElision.target at *
    rwa [hrefs] at htarget

theorem evictFirst_origin {active : List FollowupRun} (h : evictFirst active entries = some (source, entries')) :
    ∀ entry' ∈ entries', ∃ entry ∈ entries, entry'.sourceRefs = entry.sourceRefs ∧ entry'.sources ⊆ entry.sources ∧
      ∀ copy ∈ entry.sources, copy ∈ active → copy ∈ entry'.sources := by
  intro entry' hentry'
  obtain ⟨entry, hloses, -, hunused⟩ := evictFirst_loses h
  rcases hloses.origin entry' hentry' with hsame | rfl
  · exact ⟨entry', hsame, rfl, List.Subset.refl _, fun _ h _ => h⟩
  · refine ⟨entry, hloses.mem, rfl, List.erase_subset, fun copy hcopy hactive => ?_⟩
    have hne : copy ≠ source := fun heq => hunused (heq ▸ hactive)
    exact (List.mem_erase_of_ne hne).mpr hcopy

theorem Tracked.evictTimes (n : Nat) : ∀ {q : FollowupQueue}, Tracked sources q → Tracked sources (evictTimes n q) := by
  induction n with
  | zero => exact fun h => h
  | succ n ih =>
    intro q h
    refine ih ?_
    unfold evictOne
    split
    · exact h
    · rename_i source entries hevict
      exact h.lose (evictFirst_origin hevict) rfl rfl rfl

theorem Tracked.trim (h : Tracked sources q) : Tracked sources (trimSummaryElisionsToCap q) := h.evictTimes _

/-- The entry that a copy of `item` joined. -/
def SummaryElision.joined (entry : SummaryElision) (item copy : FollowupRun) : SummaryElision :=
  { entry with sources := entry.sources ++ [copy], sourceRefs := (item, copy) :: entry.sourceRefs }

theorem addElision_origin (q : FollowupQueue) (item : FollowupRun) :
    ∀ entry' ∈ (addElision q item).summaryElisions, entry' ∈ q.summaryElisions ∨ ∃ entry : SummaryElision,
        (entry ∈ q.summaryElisions ∨ (entry.sources = [] ∧ entry.sourceRefs = [])) ∧
        entry' = entry.joined item (createOverflowSummaryRetrySource item q.nextRef) := by
  intro entry' hentry'
  have hcreated (ref : Nat) (contextKey : String) : ∃ entry : SummaryElision,
      (entry ∈ q.summaryElisions ∨ (entry.sources = [] ∧ entry.sourceRefs = [])) ∧
      ({ ref, contextKey, sources := [createOverflowSummaryRetrySource item q.nextRef]
         sourceRefs := [(item, createOverflowSummaryRetrySource item q.nextRef)] } : SummaryElision) =
        entry.joined item (createOverflowSummaryRetrySource item q.nextRef) :=
    ⟨{ ref, contextKey, sources := [], sourceRefs := [] }, .inr ⟨rfl, rfl⟩, rfl⟩
  unfold addElision at hentry'
  dsimp only at hentry'
  split at hentry'
  · rw [List.mem_singleton.mp hentry']
    exact .inr (hcreated _ _)
  · rename_i lastElision hlast
    split at hentry'
    · rcases List.mem_append.mp hentry' with hbefore | hnew
      · exact .inl (List.dropLast_subset _ hbefore)
      · rw [List.mem_singleton.mp hnew]
        exact .inr ⟨lastElision, .inl (List.mem_of_getLast? hlast), rfl⟩
    · rcases List.mem_append.mp hentry' with hbefore | hnew
      · exact .inl hbefore
      · rw [List.mem_singleton.mp hnew]
        exact .inr (hcreated _ _)

theorem SummaryElision.joined_target (entry : SummaryElision) (item copy p : FollowupRun) :
    (entry.joined item copy).target p = if p = item then copy else entry.target p := by
  unfold SummaryElision.target SummaryElision.joined
  dsimp only
  rw [List.lookup_cons]
  by_cases hp : p = item
  · simp [hp]
  · rw [if_neg hp, beq_eq_false_iff_ne.mpr hp]

/-- A run in use keeps being in use as its copy. -/
theorem Tracked.elide {moving : List FollowupRun} {item : FollowupRun}
    (hq : Traceable (item :: moving) q) (h : Tracked sources q) : Tracked sources (addElision q item) := by
  have hactive : q.activeSummarySources ⊆ (addElision q item).activeSummarySources := by
    unfold addElision
    dsimp only
    split
    · exact List.subset_cons_self _ _
    · exact List.Subset.refl _
  have hnew {source : FollowupRun} (hsource : source.ref < q.nextRef) :
      source ≠ createOverflowSummaryRetrySource item q.nextRef := by
    intro heq
    rw [heq] at hsource
    exact Nat.lt_irrefl _ hsource
  -- before the copy joined, an entry that was there or had nothing
  have hbefore (p : FollowupRun) (hp : p ∈ sources) {entry : SummaryElision}
      (hentry : entry ∈ q.summaryElisions ∨ (entry.sources = [] ∧ entry.sourceRefs = [])) :
      entry.target p ≠ createOverflowSummaryRetrySource item q.nextRef ∧
      (entry.knows p = true → entry.target p ∈ entry.sources ∧
        entry.target p ∈ q.activeSummarySources) := by
    rcases hentry with hentry | ⟨hsources, hrefs⟩
    · exact ⟨hnew (hq.target_lt hentry (h.known p hp)), h.found p hp entry hentry⟩
    · refine ⟨?_, fun hknows => ?_⟩
      · unfold SummaryElision.target
        rw [hrefs]
        exact hnew (h.known p hp)
      · unfold SummaryElision.knows at hknows
        rw [hsources, hrefs] at hknows
        simp at hknows
  have hapart (p : FollowupRun) (hp : p ∈ sources) (p' : FollowupRun) (hp' : p' ∈ sources)
      {entry : SummaryElision}
      (hentry : entry ∈ q.summaryElisions ∨ (entry.sources = [] ∧ entry.sourceRefs = []))
      (htarget : entry.target p = entry.target p') : p = p' := by
    rcases hentry with hentry | ⟨hsources, hrefs⟩
    · exact h.apart p hp p' hp' entry hentry htarget
    · unfold SummaryElision.target at htarget
      rw [hrefs] at htarget
      exact htarget
  refine ⟨fun p hp => Nat.lt_succ_of_lt (h.known p hp), fun p hp => hactive (h.active hp),
    fun p hp entry' hentry' hknows => ?_, fun p hp p' hp' entry' hentry' htarget => ?_⟩
  · rcases addElision_origin q item entry' hentry' with hold | ⟨entry, hentry, rfl⟩
    · obtain ⟨hmem, hprotected⟩ := h.found p hp entry' hold hknows
      exact ⟨hmem, hactive hprotected⟩
    · rw [entry.joined_target]
      by_cases hitem : p = item
      · rw [if_pos hitem]
        subst hitem
        refine ⟨List.mem_append_right _ (List.mem_singleton_self _), ?_⟩
        unfold addElision
        dsimp only
        rw [if_pos (h.active hp)]
        exact List.mem_cons_self
      · rw [if_neg hitem]
        have hknew : entry.knows p = true := by
          unfold SummaryElision.knows SummaryElision.joined at *
          rw [Bool.or_eq_true] at *
          rcases hknows with hmem | hlookup
          · left
            rcases List.mem_append.mp (of_decide_eq_true hmem) with hmem | hcopy
            · exact decide_eq_true hmem
            · exact absurd (List.mem_singleton.mp hcopy) (hnew (h.known p hp))
          · right
            rw [List.lookup_cons, beq_eq_false_iff_ne.mpr hitem] at hlookup
            exact hlookup
        obtain ⟨hmem, hprotected⟩ := (hbefore p hp hentry).2 hknew
        exact ⟨List.mem_append_left _ hmem, hactive hprotected⟩
  · rcases addElision_origin q item entry' hentry' with hold | ⟨entry, hentry, rfl⟩
    · exact h.apart p hp p' hp' entry' hold htarget
    · rw [entry.joined_target, entry.joined_target] at htarget
      split at htarget
      · rename_i hitem
        split at htarget
        · rename_i hitem'
          rw [hitem, hitem']
        · exact absurd htarget.symm (hbefore p' hp' hentry).1
      · split at htarget
        · exact absurd htarget (hbefore p hp hentry).1
        · exact hapart p hp p' hp' hentry htarget

theorem Tracked.foldElisions (items : List FollowupRun) : ∀ {q : FollowupQueue},
    Traceable items q → Tracked sources q →
    Tracked sources (items.foldl (fun q item => trimSummaryElisionsToCap (addElision q item)) q) := by
  induction items with
  | nil => exact fun _ h => h
  | cons item items ih => exact fun hq h => ih hq.elide.trim (h.elide hq).trim

theorem Tracked.foldOverflow (hq : Traceable [] q) (h : Tracked sources q) : Tracked sources (foldOverflow q) := by
  unfold AutoReply.foldOverflow
  split
  · refine Tracked.foldElisions _ (hq.rearrange [] ?_ rfl rfl) (h.frame rfl (List.Subset.refl _)
      (Nat.le_refl _))
    dsimp only
    rw [List.append_nil, List.append_nil, List.append_assoc, List.take_append_drop]
  · exact h

theorem Tracked.enqueue (signals : List Nat) (req : EnqueueRequest) (hq : Traceable [] q)
    (h : Tracked sources q) : Tracked sources (enqueueFollowupRun signals q req).2 := by
  have hboth : Traceable [] (enqueueFollowupRun signals q req).2 ∧
      Tracked sources (enqueueFollowupRun signals q req).2 := by
    refine enqueue_keeps (P := fun q => Traceable [] q ∧ Tracked sources q) signals req
      ?_ ?_ ?_ ?_ ?_ ⟨hq, h⟩
    · exact fun q hq => ⟨⟨hq.1.entries, hq.1.nodup, hq.1.fresh⟩,
        hq.2.frame rfl (List.Subset.refl _) (Nat.le_refl _)⟩
    · exact fun q hq => ⟨hq.1.trim, hq.2.trim⟩
    · intro q hq
      refine ⟨hq.1.applyQueueDropPolicy, ?_⟩
      rcases applyQueueDropPolicy_cases q with
        ⟨room, heq⟩ | ⟨dropped, kept, -, -, -, heq⟩ | ⟨dropped, kept, -, -, -, heq⟩
      · rw [heq]
        exact hq.2
      · rw [heq]
        exact hq.2.frame rfl (List.Subset.refl _) (Nat.le_refl _)
      · rw [heq]
        exact hq.2.frame rfl (List.Subset.refl _) (Nat.le_refl _)
    · exact fun q hq => ⟨hq.1.foldOverflow, hq.2.foldOverflow hq.1⟩
    · exact fun q hq => ⟨hq.1.insertRun req, hq.2.frame rfl (List.Subset.refl _) (Nat.le_succ _)⟩
  exact hboth.2

theorem Tracked.clear (h : Tracked sources q) : Tracked sources (clearFollowupQueue q) :=
  ⟨h.known, h.active, fun _ _ _ hentry => absurd hentry List.not_mem_nil,
    fun _ _ _ _ _ hentry => absurd hentry List.not_mem_nil⟩

/-! ## A delivery takes what it announced -/

/-- The exits that a delivery records are of runs it has among `sources`. -/
def TakesOnly (announced : List Nat) (sources : List FollowupRun) (q q' : FollowupQueue) : Prop :=
  ∀ x ∈ q'.gone, x ∈ q.gone ∨ (x.2 = .delivered announced ∧ ∃ source ∈ sources, x.1.id = source.id)

theorem Tracked.consumeSource (announced : List Nat) {rest : List FollowupRun} {acc : FollowupQueue × Nat}
    (hq : Traceable [] acc.1) (h : Tracked (source :: rest) acc.1) (hother : source ∉ rest) :
    Tracked rest (consumeSource announced acc source).1 ∧
      TakesOnly announced [source] acc.1 (consumeSource announced acc source).1 := by
  have hrest : Tracked rest acc.1 :=
    ⟨fun p hp => h.known p (List.mem_cons_of_mem _ hp), fun p hp => h.active (List.mem_cons_of_mem _ hp),
      fun p hp => h.found p (List.mem_cons_of_mem _ hp),
      fun p hp p' hp' => h.apart p (List.mem_cons_of_mem _ hp) p' (List.mem_cons_of_mem _ hp')⟩
  unfold AutoReply.consumeSource
  dsimp only
  split
  · refine ⟨hrest.frame rfl (List.Subset.refl _) (Nat.le_refl _), fun x hx => ?_⟩
    rcases List.mem_cons.mp hx with rfl | hx
    · exact .inr ⟨rfl, source, List.mem_singleton_self _, rfl⟩
    · exact .inl hx
  · split
    · exact ⟨hrest, fun x hx => .inl hx⟩
    · rename_i removed entries htake
      obtain ⟨entry, hloses, hknows, hremoved⟩ := takeElided_loses htake
      have hentry := hloses.mem
      have horigin := hloses.origin
      obtain ⟨hmem, -⟩ := h.found source List.mem_cons_self entry hentry hknows
      have htaken : entry.take source = (some (entry.target source), entry.sources.erase (entry.target source)) :=
        if_pos hmem
      rw [htaken] at hremoved horigin
      subst hremoved
      refine ⟨⟨hrest.known, hrest.active, fun p hp entry' hentry' hknows' => ?_,
        fun p hp p' hp' entry' hentry' htarget => ?_⟩, fun x hx => ?_⟩
      · rcases horigin entry' hentry' with hold | rfl
        · exact hrest.found p hp entry' hold hknows'
        · -- the target of `p` is another one
          have hbefore : entry.knows p = true := by
            unfold SummaryElision.knows at *
            rw [Bool.or_eq_true] at *
            exact hknows'.imp
              (fun hmem => decide_eq_true (List.mem_of_mem_erase (of_decide_eq_true hmem))) id
          obtain ⟨hmem', hprotected⟩ := hrest.found p hp entry hentry hbefore
          refine ⟨(List.mem_erase_of_ne fun heq => hother ?_).mpr hmem', hprotected⟩
          have hsame := h.apart p (List.mem_cons_of_mem _ hp) source List.mem_cons_self entry hentry heq
          exact hsame ▸ hp
      · rcases horigin entry' hentry' with hold | rfl
        · exact hrest.apart p hp p' hp' entry' hold htarget
        · exact hrest.apart p hp p' hp' entry hentry htarget
      · rcases List.mem_append.mp hx with htook | hx
        · rw [Option.toList_some, List.map_singleton] at htook
          rw [List.mem_singleton.mp htook]
          exact .inr ⟨rfl, source, List.mem_singleton_self _, hq.target_id hentry source⟩
        · exact .inl hx

theorem Tracked.consume {announced : List Nat} {droppedCount : Nat} (hq : Traceable [] q)
    (h : Tracked sources q) (hnodup : sources.Nodup) :
    TakesOnly announced sources q (consumeQueueSummaryDelivery q announced sources droppedCount) := by
  have hfold : ∀ (sources : List FollowupRun) (acc : FollowupQueue × Nat), sources.Nodup →
      Traceable [] acc.1 → Tracked sources acc.1 →
      TakesOnly announced sources acc.1 (sources.foldl (AutoReply.consumeSource announced) acc).1 := by
    intro sources
    induction sources with
    | nil => exact fun acc _ _ _ x hx => .inl hx
    | cons source rest ih =>
      intro acc hnodup hq h x hx
      obtain ⟨hother, hrest⟩ := List.nodup_cons.mp hnodup
      obtain ⟨htracked, htakes⟩ := h.consumeSource announced hq hother
      rcases ih _ hrest (hq.consumeSource announced source) htracked x hx with hx | ⟨hexit, p, hp, hid⟩
      · rcases htakes x hx with hx | ⟨hexit, p, hp, hid⟩
        · exact .inl hx
        · exact .inr ⟨hexit, p, List.mem_cons.mpr (.inl (List.mem_singleton.mp hp)), hid⟩
      · exact .inr ⟨hexit, p, List.mem_cons_of_mem _ hp, hid⟩
  exact hfold sources (q, if sources = [] then droppedCount else 0) hnodup hq h

theorem Tracked.sublist {fewer : List FollowupRun} (h : Tracked sources q) (hsub : fewer ⊆ sources) : Tracked fewer q :=
  ⟨fun p hp => h.known p (hsub hp), fun _ hp => h.active (hsub hp), fun p hp => h.found p (hsub hp),
    fun p hp p' hp' => h.apart p (hsub hp) p' (hsub hp')⟩

end Tracked

end OpenClaw.AutoReply
