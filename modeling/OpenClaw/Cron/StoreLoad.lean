/-
# OpenClaw.Cron.StoreLoad -- from persisted rows to the jobs in memory

A job is a row of columns; rows whose schedule or payload columns do not decode give no job.  Beside the
jobs a load returns what the configuration says of each row and its runtime entry.  The service checks
the jobs, takes the valid ones into memory and quarantines the others together with what is attached to
them.  This module follows `store/row-codec.ts` and `ensureLoaded` of `service/store.ts` up to the flush
of the quarantine.  The codecs of the other columns, the normaliser of a job and the check of its shape
are given as a `JobCodec`: what a row loses does not depend on them.
-/
import OpenClaw.Cron.CronJob
import OpenClaw.Logic.Fallible

namespace OpenClaw.Cron

open OpenClaw.Data OpenClaw.Logic

/-! ## Rows -/

/-- A row; `R` holds the columns that only the codecs read. -/
structure CronJobRow (R : Type) where
  jobId : String
  name : String
  enabled : Int
  createdAtMs : Int
  agentId : Option String
  sessionKey : Option String
  declarationKey : Option String
  scheduleKind : String
  at' : Option String
  everyMs : Option Int
  anchorMs : Option Int
  scheduleExpr : Option String
  scheduleTz : Option String
  staggerMs : Option Int
  payloadKind : String
  payloadMessage : Option String
  updatedAt : Int
  runtimeUpdatedAtMs : Option Int
  scheduleIdentity : Option String
  other : R

inductive CronPayload (P : Type) where
  | systemEvent (text : String)
  | agentTurn (message : String) (fields : P)
  | command (fields : P)

def CronPayload.kind {P : Type} : CronPayload P → CronPayloadKind
  | .systemEvent _ => .systemEvent
  | .agentTurn _ _ => .agentTurn
  | .command _ => .command

/-- Why the normaliser gave up. -/
inductive NormalizeError where
  | invalidSessionTargetId
  | thrown (message : String)

/-- The functions that read the other columns, and those that check a job.  `F` holds the remaining
fields of a job, `K` a job as the configuration has it. -/
structure JobCodec (R P F K : Type) where
  commandFields : String → Option P
  agentTurnFields : CronJobRow R → P
  fieldsFromRow : CronJobRow R → F
  stateFromRow : CronJobRow R → CronJobState
  /-- The parsed `job_json`, with the failure destination of the job, if there is one. -/
  configJob : CronJobRow R → Option (CronJob (CronPayload P × F)) → K
  rawConfigJob : CronJob (CronPayload P × F) → K
  normalizeCronJobInput : CronJob (CronPayload P × F) → Except NormalizeError (Option (CronJob (CronPayload P × F)))
  getInvalidPersistedCronJobReason : CronJob (CronPayload P × F) → Option String
  cronSchedulingInputsEqual : CronJob (CronPayload P × F) → CronJob (CronPayload P × F) → Bool

variable {R P F K : Type}

abbrev LoadedJob (P F : Type) := CronJob (CronPayload P × F)

/-- A column that is missing or empty. -/
def truthy (column : Option String) : Option String := column.filter (· ≠ "")

def scheduleFromRow (row : CronJobRow R) : Option CronSchedule :=
  if row.scheduleKind = "at" then (truthy row.at').map .at
  else if row.scheduleKind = "every" then row.everyMs.map fun everyMs => .every everyMs row.anchorMs
  else if row.scheduleKind = "cron" then
    (truthy row.scheduleExpr).map fun expr => .cron expr (truthy row.scheduleTz) row.staggerMs
  else if row.scheduleKind = "on-exit" then
    (truthy row.scheduleExpr).map fun command => .onExit command (truthy row.scheduleTz)
  else none

def payloadFromRow (codec : JobCodec R P F K) (row : CronJobRow R) : Option (CronPayload P) :=
  if row.payloadKind = "systemEvent" then row.payloadMessage.map .systemEvent
  else if row.payloadKind = "agentTurn" then
    row.payloadMessage.map fun message => .agentTurn message (codec.agentTurnFields row)
  else if row.payloadKind = "command" then
    ((truthy row.payloadMessage).bind codec.commandFields).map .command
  else none

attribute [grind =] payloadFromRow

def rowToCronJob (codec : JobCodec R P F K) (row : CronJobRow R) : Option (LoadedJob P F) := do
  let schedule ← scheduleFromRow row
  let payload ← payloadFromRow codec row
  return {
    id := row.jobId
    name := row.name
    enabled := some (row.enabled ≠ 0)
    createdAtMs := some row.createdAtMs
    updatedAtMs := row.runtimeUpdatedAtMs.getD row.updatedAt
    agentId := truthy row.agentId
    sessionKey := truthy row.sessionKey
    declarationKey := truthy row.declarationKey
    schedule
    payloadKind := payload.kind
    state := codec.stateFromRow row
    spec := (payload, codec.fieldsFromRow row) }

/-! ## The loaded store -/

structure CronConfigJobRuntimeEntry where
  updatedAtMs : Int
  scheduleIdentity : Option String
  state : CronJobState

structure QuarantinedCronConfigJob (K : Type) where
  sourceIndex : Nat
  reason : String
  job : K
  state : CronJobState
  updatedAtMs : Int
  scheduleIdentity : Option String

structure LoadedCronStore (P F K : Type) where
  jobs : List (LoadedJob P F)
  configJobs : List K
  configJobIndexes : List Nat
  configJobRuntimeEntries : List CronConfigJobRuntimeEntry
  invalidConfigRows : List (QuarantinedCronConfigJob K)

def runtimeEntryOfRow (codec : JobCodec R P F K) (row : CronJobRow R) : CronConfigJobRuntimeEntry where
  updatedAtMs := row.runtimeUpdatedAtMs.getD row.updatedAt
  scheduleIdentity := row.scheduleIdentity
  state := codec.stateFromRow row

def configOfRow (codec : JobCodec R P F K) (row : CronJobRow R) : K := codec.configJob row (rowToCronJob codec row)

/-- The jobs are the rows that decode; the lists beside them have one entry a row. -/
def loadedCronStoreFromRows (codec : JobCodec R P F K) (rows : List (CronJobRow R)) : LoadedCronStore P F K where
  jobs := rows.filterMap (rowToCronJob codec)
  configJobs := rows.map (configOfRow codec)
  configJobIndexes := List.range rows.length
  configJobRuntimeEntries := rows.map (runtimeEntryOfRow codec)
  invalidConfigRows := []

/-! ## Into memory -/

/-- What is attached to a loaded job. -/
structure Attachment (K : Type) where
  rawConfigJob : K
  sourceIndex : Nat
  runtimeEntry : Option CronConfigJobRuntimeEntry

/-- The entries at the index of the job; a job without one stands for itself. -/
def attachment (codec : JobCodec R P F K) (loaded : LoadedCronStore P F K) (index : Nat)
    (raw : LoadedJob P F) : Attachment K where
  rawConfigJob := loaded.configJobs[index]?.getD (codec.rawConfigJob raw)
  sourceIndex := loaded.configJobIndexes[index]?.getD index
  runtimeEntry := loaded.configJobRuntimeEntries[index]?

def normalizeCronJobIdentityFields (raw : LoadedJob P F) : LoadedJob P F :=
  if trim raw.id = "" then raw else { raw with id := trim raw.id }

/-- A job that is rescheduled while it was away has no next run any more. -/
def invalidateStaleNextRunOnScheduleChange (codec : JobCodec R P F K) (previous : List (LoadedJob P F))
    (hydrated : LoadedJob P F) : LoadedJob P F :=
  match previous.reverse.find? fun job => job.id = hydrated.id with
  | none => hydrated
  | some previousJob =>
    if codec.cronSchedulingInputsEqual previousJob hydrated then hydrated
    else { hydrated with state := { hydrated.state with nextRunAtMs := none } }

inductive Checked (J : Type) where
  | invalid (reason : String)
  | valid (hydrated : J)

/-- A job that the normaliser refuses because of its session target is checked as it is. -/
def checkLoaded (codec : JobCodec R P F K) (raw : LoadedJob P F) :
    Except String (Checked (LoadedJob P F)) := do
  let raw := normalizeCronJobIdentityFields raw
  let normalized ← match codec.normalizeCronJobInput raw with
    | .ok normalized => pure normalized
    | .error .invalidSessionTargetId => pure none
    | .error (.thrown message) => throw message
  let hydratedRaw := normalized.getD raw
  match codec.getInvalidPersistedCronJobReason hydratedRaw with
  | some reason => return .invalid reason
  | none => return .valid hydratedRaw

inductive Placed (P F K : Type) where
  | loaded (job : LoadedJob P F) (durableNextRunAtMs : Option Int)
  | quarantined (entry : QuarantinedCronConfigJob K)

def quarantineEntry (raw : LoadedJob P F) (attached : Attachment K) (reason : String) : QuarantinedCronConfigJob K where
  sourceIndex := attached.sourceIndex
  reason := reason
  job := attached.rawConfigJob
  state := attached.runtimeEntry.elim raw.state (·.state)
  updatedAtMs := attached.runtimeEntry.elim raw.updatedAtMs (·.updatedAtMs)
  scheduleIdentity := attached.runtimeEntry.bind (·.scheduleIdentity)

/-- One turn of the loop. -/
def placeJob (codec : JobCodec R P F K) (previous : List (LoadedJob P F)) (loaded : LoadedCronStore P F K)
    (entry : LoadedJob P F × Nat) : Except String (Placed P F K) := do
  match ← checkLoaded codec entry.1 with
  | .invalid reason => return .quarantined (quarantineEntry entry.1 (attachment codec loaded entry.2 entry.1) reason)
  | .valid hydrated =>
    return .loaded (invalidateStaleNextRunOnScheduleChange codec previous hydrated) hydrated.state.nextRunAtMs

structure CronMemory (P F K : Type) where
  jobs : List (LoadedJob P F)
  durableNextRuns : List (String × Option Int)
  quarantinedConfigJobs : List (QuarantinedCronConfigJob K)

def Placed.job? : Placed P F K → Option (LoadedJob P F)
  | .loaded job _ => some job
  | .quarantined _ => none

def Placed.durable? : Placed P F K → Option (String × Option Int)
  | .loaded job next => some (job.id, next)
  | .quarantined _ => none

def Placed.entry? : Placed P F K → Option (QuarantinedCronConfigJob K)
  | .loaded _ _ => none
  | .quarantined entry => some entry

/-- `ensureLoaded`, up to the flush of the quarantine; `previous` are the jobs that were in memory. -/
def ensureLoaded (codec : JobCodec R P F K) (previous : List (LoadedJob P F))
    (loaded : LoadedCronStore P F K) : Except String (CronMemory P F K) := do
  let placed ← loaded.jobs.zipIdx.mapM (placeJob codec previous loaded)
  return {
    jobs := placed.filterMap Placed.job?
    durableNextRuns := placed.filterMap Placed.durable?
    quarantinedConfigJobs := loaded.invalidConfigRows ++ placed.filterMap Placed.entry? }

/-! ## What becomes of a row -/

/-- The loaded jobs, each with the index of the row it was read from. -/
def decodedRows (codec : JobCodec R P F K) (rows : List (CronJobRow R)) : List (LoadedJob P F × Nat) :=
  rows.zipIdx.filterMap fun entry => (rowToCronJob codec entry.1).map (·, entry.2)

/-- What belongs to a row. -/
def ownAttachment (codec : JobCodec R P F K) (row : CronJobRow R) (index : Nat) : Attachment K where
  rawConfigJob := configOfRow codec row
  sourceIndex := index
  runtimeEntry := some (runtimeEntryOfRow codec row)

/-- The job in memory that a row becomes. -/
def LoadsAs (codec : JobCodec R P F K) (previous : List (LoadedJob P F)) (row : CronJobRow R)
    (job : LoadedJob P F) : Prop :=
  ∃ raw hydrated, rowToCronJob codec row = some raw ∧ checkLoaded codec raw = .ok (.valid hydrated) ∧
    job = invalidateStaleNextRunOnScheduleChange codec previous hydrated

/-- Every row is in memory or in quarantine, and what is attached to a job is its own row's. -/
structure RowsKept (codec : JobCodec R P F K) (previous : List (LoadedJob P F))
    (rows : List (CronJobRow R)) (memory : CronMemory P F K) : Prop where
  kept : ∀ index row, rows[index]? = some row →
    (∃ job ∈ memory.jobs, LoadsAs codec previous row job) ∨
      ∃ entry ∈ memory.quarantinedConfigJobs, entry.sourceIndex = index
  own : ∀ position raw index row, (decodedRows codec rows)[position]? = some (raw, index) →
    rows[index]? = some row →
    attachment codec (loadedCronStoreFromRows codec rows) position raw = ownAttachment codec row index

def Decodes (codec : JobCodec R P F K) (row : CronJobRow R) : Prop :=
  (scheduleFromRow row).isSome ∧ (payloadFromRow codec row).isSome

variable {codec : JobCodec R P F K} {previous : List (LoadedJob P F)} {rows : List (CronJobRow R)}

theorem decodes_iff {row : CronJobRow R} : Decodes codec row ↔ ∃ raw, rowToCronJob codec row = some raw := by
  unfold Decodes rowToCronJob
  cases scheduleFromRow row with
  | none => simp
  | some schedule =>
    cases payloadFromRow codec row with
    | none => simp
    | some payload => simp

theorem decodedRows_jobs (codec : JobCodec R P F K) (rows : List (CronJobRow R)) :
    (decodedRows codec rows).map Prod.fst = (loadedCronStoreFromRows codec rows).jobs := by
  have hfst : rows = rows.zipIdx.map Prod.fst := (List.zipIdx_map_fst 0 rows).symm
  unfold decodedRows loadedCronStoreFromRows
  rw [List.map_filterMap]
  conv_rhs => rw [hfst]
  rw [List.filterMap_map]
  congr 1
  funext entry
  simp [Option.map_map, Function.comp_def]

/-- A loaded job was read from the row whose index it has. -/
theorem decodedRows_row {position index : Nat} {raw : LoadedJob P F}
    (h : (decodedRows codec rows)[position]? = some (raw, index)) :
    ∃ row, rows[index]? = some row ∧ rowToCronJob codec row = some raw := by
  obtain ⟨⟨row, k⟩, hrow, hdecoded⟩ := List.mem_filterMap.mp (List.mem_of_getElem? h)
  cases hraw : rowToCronJob codec row with
  | none =>
    rw [hraw] at hdecoded
    cases hdecoded
  | some raw' =>
    rw [hraw] at hdecoded
    cases hdecoded
    exact ⟨row, List.mk_mem_zipIdx_iff_getElem?.mp hrow, hraw⟩

/-- A filter that drops nothing keeps the positions. -/
theorem getElem?_filterMap_of_isSome {α β : Type} {f : α → Option β} {l : List α}
    (h : ∀ a ∈ l, (f a).isSome = true) (position : Nat) : (l.filterMap f)[position]? = l[position]?.bind f := by
  induction l generalizing position with
  | nil => simp
  | cons a rest ih =>
    obtain ⟨b, hb⟩ := Option.isSome_iff_exists.mp (h a List.mem_cons_self)
    rw [List.filterMap_cons_some hb]
    cases position with
    | zero => simp [hb]
    | succ position => exact ih (fun a ha => h a (List.mem_cons_of_mem _ ha)) position

theorem decodedRows_getElem? (hall : ∀ row ∈ rows, Decodes codec row) (position : Nat) :
    (decodedRows codec rows)[position]? =
      rows[position]?.bind fun row => (rowToCronJob codec row).map (·, position) := by
  have hsome : ∀ entry ∈ rows.zipIdx, ((rowToCronJob codec entry.1).map (·, entry.2)).isSome = true := by
    rintro ⟨row, k⟩ hentry
    obtain ⟨raw, hraw⟩ := Iff.mp decodes_iff (hall row (List.fst_mem_of_mem_zipIdx hentry))
    rw [hraw]
    rfl
  rw [decodedRows, getElem?_filterMap_of_isSome hsome, List.getElem?_zipIdx]
  cases rows[position]? with
  | none => rfl
  | some row => simp

/-- The index a load attaches to a position is the position itself. -/
theorem attachment_sourceIndex (position : Nat) (raw : LoadedJob P F) :
    (attachment codec (loadedCronStoreFromRows codec rows) position raw).sourceIndex = position := by
  unfold attachment loadedCronStoreFromRows
  dsimp only
  cases h : (List.range rows.length)[position]? with
  | none => rfl
  | some index =>
    obtain ⟨hlt, hget⟩ := List.getElem?_eq_some_iff.mp h
    rw [List.getElem_range] at hget
    exact hget.symm

/-- At the position of its row a job gets what belongs to the row. -/
theorem attachment_own {position : Nat} {row : CronJobRow R} (h : rows[position]? = some row) (raw : LoadedJob P F) :
    attachment codec (loadedCronStoreFromRows codec rows) position raw = ownAttachment codec row position := by
  have hindex : (attachment codec (loadedCronStoreFromRows codec rows) position raw).sourceIndex =
      position := attachment_sourceIndex position raw
  unfold attachment loadedCronStoreFromRows ownAttachment at *
  dsimp only at *
  rw [hindex, List.getElem?_map, List.getElem?_map, h]
  rfl

/-! ## The loop -/

variable {memory : CronMemory P F K}

/-- Each loaded job ends in memory or in quarantine. -/
theorem ensureLoaded_places (hload : ensureLoaded codec previous (loadedCronStoreFromRows codec rows) = .ok memory)
    {position index : Nat} {raw : LoadedJob P F} {row : CronJobRow R}
    (h : (decodedRows codec rows)[position]? = some (raw, index)) (hrow : rowToCronJob codec row = some raw) :
    (∃ job ∈ memory.jobs, LoadsAs codec previous row job) ∨
      ∃ entry ∈ memory.quarantinedConfigJobs, entry.sourceIndex = position := by
  obtain ⟨placed, hplaced, hmemory⟩ := bind_eq_ok.mp hload
  rw [pure_eq_ok] at hmemory
  subst hmemory
  have hjob : (loadedCronStoreFromRows codec rows).jobs[position]? = some raw := by
    rw [← decodedRows_jobs, List.getElem?_map, h]
    rfl
  obtain ⟨verdict, hverdict, hplace⟩ := (mapM_mem hplaced).1 (raw, position) (List.mk_mem_zipIdx_iff_getElem?.mpr hjob)
  obtain ⟨checked, hchecked, hplace⟩ := bind_eq_ok.mp hplace
  cases checked with
  | valid hydrated =>
    rw [pure_eq_ok] at hplace
    subst hplace
    exact .inl ⟨_, List.mem_filterMap.mpr ⟨_, hverdict, rfl⟩, raw, hydrated, hrow, hchecked, rfl⟩
  | invalid reason =>
    rw [pure_eq_ok] at hplace
    subst hplace
    refine .inr ⟨_, List.mem_append_right _ (List.mem_filterMap.mpr ⟨_, hverdict, rfl⟩), ?_⟩
    exact attachment_sourceIndex position raw

/-- A quarantine entry stands for a loaded job, at the position it names. -/
theorem ensureLoaded_entry (hload : ensureLoaded codec previous (loadedCronStoreFromRows codec rows) = .ok memory)
    {entry : QuarantinedCronConfigJob K} (h : entry ∈ memory.quarantinedConfigJobs) :
    ∃ raw index, (decodedRows codec rows)[entry.sourceIndex]? = some (raw, index) := by
  obtain ⟨placed, hplaced, hmemory⟩ := bind_eq_ok.mp hload
  rw [pure_eq_ok] at hmemory
  subst hmemory
  obtain ⟨verdict, hverdict, hentry⟩ := List.mem_filterMap.mp ((List.mem_append.mp h).resolve_left (by
    exact List.not_mem_nil))
  obtain ⟨⟨raw, position⟩, hposition, hplace⟩ := (mapM_mem hplaced).2 verdict hverdict
  obtain ⟨checked, hchecked, hplace⟩ := bind_eq_ok.mp hplace
  have hsource : entry.sourceIndex = position := by
    cases checked with
    | valid hydrated =>
      rw [pure_eq_ok] at hplace
      subst hplace
      cases hentry
    | invalid reason =>
      rw [pure_eq_ok] at hplace
      subst hplace
      cases hentry
      exact attachment_sourceIndex position raw
  have hjob := List.mk_mem_zipIdx_iff_getElem?.mp hposition
  rw [← decodedRows_jobs, List.getElem?_map] at hjob
  obtain ⟨⟨raw', index⟩, hdecoded, -⟩ := Option.map_eq_some_iff.mp hjob
  exact ⟨raw', index, hsource ▸ hdecoded⟩

/-- **No row is lost or mixed up** by a load exactly when the schedule and the payload of every row decode. -/
theorem cron_rows_kept_iff (codec : JobCodec R P F K) (previous : List (LoadedJob P F))
    (rows : List (CronJobRow R)) {memory : CronMemory P F K}
    (hload : ensureLoaded codec previous (loadedCronStoreFromRows codec rows) = .ok memory) :
    RowsKept codec previous rows memory ↔ ∀ row ∈ rows, Decodes codec row := by
  constructor
  · intro h row hrow
    obtain ⟨index, hindex⟩ := List.mem_iff_getElem?.mp hrow
    rcases h.kept index row hindex with ⟨job, -, raw, hydrated, hraw, -, -⟩ | ⟨entry, hentry, rfl⟩
    · exact Iff.mpr decodes_iff ⟨raw, hraw⟩
    · -- The entry at the index of the row is that of a job, and the job is the row's own.
      obtain ⟨raw, index, hdecoded⟩ := ensureLoaded_entry hload hentry
      obtain ⟨row', hrow', hraw⟩ := decodedRows_row hdecoded
      have hown := congrArg Attachment.sourceIndex (h.own _ raw index row' hdecoded hrow')
      rw [attachment_sourceIndex] at hown
      have hsame : some row = some row' := by rw [← hindex, ← hrow', hown]; rfl
      cases hsame
      exact Iff.mpr decodes_iff ⟨raw, hraw⟩
  · intro hall
    constructor
    · intro index row hrow
      obtain ⟨raw, hraw⟩ := Iff.mp decodes_iff (hall row (List.mem_of_getElem? hrow))
      have hdecoded : (decodedRows codec rows)[index]? = some (raw, index) := by
        rw [decodedRows_getElem? hall, hrow, Option.bind_some, hraw]
        rfl
      exact ensureLoaded_places hload hdecoded hraw
    · intro position raw index row hdecoded hrow
      rw [decodedRows_getElem? hall] at hdecoded
      obtain ⟨row', hrow', hraw⟩ := Option.bind_eq_some_iff.mp hdecoded
      obtain ⟨raw', -, heq⟩ := Option.map_eq_some_iff.mp hraw
      cases heq
      exact attachment_own hrow raw

/-- Jobs are taken as they are. -/
def plainCodec : JobCodec Unit Unit Unit Unit where
  commandFields _ := none
  agentTurnFields _ := ()
  fieldsFromRow _ := ()
  stateFromRow _ := {}
  configJob _ _ := ()
  rawConfigJob _ := ()
  normalizeCronJobInput job := .ok (some job)
  getInvalidPersistedCronJobReason _ := none
  cronSchedulingInputsEqual _ _ := true

/-- The row of a cron job with an expression or without one. -/
def cronRow (id : String) (expr : Option String) : CronJobRow Unit where
  jobId := id
  name := id
  enabled := 1
  createdAtMs := 0
  agentId := none
  sessionKey := none
  declarationKey := none
  scheduleKind := "cron"
  at' := none
  everyMs := none
  anchorMs := none
  scheduleExpr := expr
  scheduleTz := none
  staggerMs := none
  payloadKind := "systemEvent"
  payloadMessage := some "ping"
  updatedAt := 0
  runtimeUpdatedAtMs := none
  scheduleIdentity := none
  other := ()

theorem cronRow_decodes (id : String) : Decodes plainCodec (cronRow id (some "0 * * * *")) := by
  unfold Decodes scheduleFromRow payloadFromRow truthy
  simp [cronRow]

theorem cronRow_without_expr (id : String) : rowToCronJob plainCodec (cronRow id none) = none := by
  unfold rowToCronJob scheduleFromRow truthy
  simp [cronRow]

theorem ensureLoaded_plain (previous : List (LoadedJob Unit Unit)) (rows : List (CronJobRow Unit)) :
    ∃ memory, ensureLoaded plainCodec previous (loadedCronStoreFromRows plainCodec rows) = .ok memory := by
  have hplace : ∀ entries : List (LoadedJob Unit Unit × Nat), ∃ placed,
      entries.mapM (placeJob plainCodec previous (loadedCronStoreFromRows plainCodec rows)) = .ok placed := by
    intro entries
    induction entries with
    | nil => exact ⟨[], rfl⟩
    | cons entry rest ih =>
      obtain ⟨placed, hplaced⟩ := ih
      exact ⟨_, by rw [List.mapM_cons, hplaced]; rfl⟩
  obtain ⟨placed, hplaced⟩ := hplace (loadedCronStoreFromRows plainCodec rows).jobs.zipIdx
  exact ⟨_, by rw [ensureLoaded, hplaced]; rfl⟩

/-- Two rows that decode. -/
theorem cron_rows_kept_iff_pair : ∃ memory, ensureLoaded plainCodec [] (loadedCronStoreFromRows plainCodec
      [cronRow "a" (some "0 * * * *"), cronRow "b" (some "0 * * * *")]) = .ok memory ∧
    RowsKept plainCodec [] [cronRow "a" (some "0 * * * *"), cronRow "b" (some "0 * * * *")] memory := by
  obtain ⟨memory, hload⟩ := ensureLoaded_plain [] [cronRow "a" (some "0 * * * *"), cronRow "b" (some "0 * * * *")]
  refine ⟨memory, hload, (cron_rows_kept_iff plainCodec [] _ hload).mpr ?_⟩
  rintro row (_ | ⟨_, _ | ⟨_, h⟩⟩)
  · exact cronRow_decodes "a"
  · exact cronRow_decodes "b"
  · cases h

/-- **A row without its expression is lost**, and the row behind it is taken for it. -/
theorem undecodable_row_lost : ∃ memory, ensureLoaded plainCodec [] (loadedCronStoreFromRows plainCodec
      [cronRow "a" none, cronRow "b" (some "0 * * * *")]) = .ok memory ∧
    ¬ RowsKept plainCodec [] [cronRow "a" none, cronRow "b" (some "0 * * * *")] memory := by
  obtain ⟨memory, hload⟩ := ensureLoaded_plain [] [cronRow "a" none, cronRow "b" (some "0 * * * *")]
  refine ⟨memory, hload, fun h => ?_⟩
  -- The job of the second row is at the first position.
  obtain ⟨raw, hraw⟩ := Iff.mp decodes_iff (cronRow_decodes "b")
  have hdecoded : (decodedRows plainCodec [cronRow "a" none, cronRow "b" (some "0 * * * *")])[0]? = some (raw, 1) := by
    simp [decodedRows, cronRow_without_expr, hraw]
  have hown := congrArg Attachment.sourceIndex (h.own 0 raw 1 _ hdecoded rfl)
  rw [attachment_sourceIndex] at hown
  exact absurd hown (by decide)

end OpenClaw.Cron
