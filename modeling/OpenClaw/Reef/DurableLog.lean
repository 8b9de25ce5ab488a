/-
# OpenClaw.Reef.DurableLog -- what a crash leaves of a file of JSON lines

The file of a store is its lines, and behind them a tail: nothing, a whole record without its newline,
or the cut bytes of a record.  Loading cuts the last off and keeps the others.  An append behind a whole
record without newline would spoil both; in every other state nothing that was appended is lost.
-/
import OpenClaw.Reef.JsonLines

namespace OpenClaw.Reef

open OpenClaw.Data OpenClaw.Logic

variable {ν μ ρ α : Type} [JsonNumber ν]

/-! ## Tails -/

/-- A tail that loading leaves as it is, and the records in it. -/
inductive SettledTail : List UInt8 → List (JsonValue ν) → Prop where
  | ended : SettledTail [] []
  | whole (record : JsonValue ν) : SettledTail (utf8 record.stringify) [record]

inductive LogTail : List UInt8 → List (JsonValue ν) → Prop where
  | settled {tail : List UInt8} {last : List (JsonValue ν)} : SettledTail tail last → LogTail tail last
  | cut {tail : List UInt8} (record : JsonValue ν) (members : List (JsString × Json ν)) :
      record.json = .object members → tail <+: utf8 record.stringify → tail ≠ [] →
      tail ≠ utf8 record.stringify → LogTail tail []

/-- The lines of the records, as bytes. -/
def linesOf (records : List (JsonValue ν)) : List UInt8 := utf8 (records.flatMap jsonLine)

theorem linesOf_append (records : List (JsonValue ν)) (record : JsonValue ν) :
    linesOf (records ++ [record]) = linesOf records ++ utf8 (jsonLine record) := by
  simp [linesOf]

theorem splitOn_file (records : List (JsonValue ν)) (tail : List UInt8) :
    (utf8Decode (linesOf records ++ tail)).splitOn '\n' =
      records.map JsonValue.stringify ++ (utf8Decode tail).splitOn '\n' := by
  rw [linesOf, utf8Decode_utf8_append, splitOn_lines]

theorem readLines_ended (before : Text) : readLines before [[]] = some (([] : List (JsonValue ν)), none) := by
  simp [readLines]

theorem readLines_whole (before : Text) (record : JsonValue ν) :
    readLines before [record.stringify] = some ([record], none) := by
  simp [readLines, stringify_ne_nil]

theorem readLines_unreadable (before : Text) {line : Text} (hne : line ≠ [])
    (hparse : (JsonValue.parse line : Option (JsonValue ν)) = none) :
    readLines before [line] = some (([] : List (JsonValue ν)), some (utf8 before).length) := by
  simp [readLines, hne, hparse]

/-- Lines, and a tail that is settled, are read as they are. -/
theorem readJsonl_settled (records : List (JsonValue ν)) {tail : List UInt8} {last : List (JsonValue ν)}
    (h : SettledTail tail last) :
    readJsonl (linesOf records ++ tail) = .ok (records ++ last, linesOf records ++ tail) := by
  unfold readJsonl
  rw [splitOn_file, readLines_records]
  cases h with
  | ended =>
    rw [show utf8Decode [] = [] from rfl, List.splitOn_nil, readLines_ended]
    rfl
  | whole record =>
    rw [utf8Decode_utf8, List.splitOn_eq_singleton (newline_not_mem_stringify record), readLines_whole]
    rfl

variable {record : JsonValue ν}

/-- What is left of a record that was cut is no JSON and stays on its line. -/
theorem cut_unreadable {members : List (JsString × Json ν)} {tail : List UInt8}
    (hobject : record.json = .object members) (hcut : tail <+: utf8 record.stringify) (hne : tail ≠ [])
    (hproper : tail ≠ utf8 record.stringify) : utf8Decode tail ≠ [] ∧ '\n' ∉ utf8Decode tail ∧
      (JsonValue.parse (utf8Decode tail) : Option (JsonValue ν)) = none := by
  obtain ⟨json, distinct⟩ := record
  cases hobject
  obtain ⟨front, back, htext, hdecode⟩ := utf8Decode_cut _ hcut
  have hvisible : Json.Visible front := fun c hc =>
    Json.stringify_visible (.object members) c (by
      change c ∈ JsonValue.stringify ⟨.object members, distinct⟩
      rw [htext]
      exact List.mem_append_left _ hc)
  rcases hdecode with rfl | ⟨hback, hdecode⟩
  · have hback : back ≠ [] := by
      rintro rfl
      rw [htext, List.append_nil] at hproper
      exact hproper rfl
    have hfront : front ≠ [] := by
      rintro rfl
      exact hne rfl
    rw [utf8Decode_utf8]
    exact ⟨hfront, newline_not_mem hvisible, JsonValue.parse_eq_none.mpr (Json.parse_cut distinct htext hback).1⟩
  · rw [hdecode]
    refine ⟨by simp, ?_, JsonValue.parse_eq_none.mpr (Json.parse_cut distinct htext hback).2⟩
    intro hmem
    rcases List.mem_append.mp hmem with hfront | hlast
    · exact newline_not_mem hvisible hfront
    · exact absurd (List.mem_singleton.mp hlast) (by decide)

/-- A record that was cut is truncated away. -/
theorem readJsonl_cut (records : List (JsonValue ν)) {tail : List UInt8}
    (hne : utf8Decode tail ≠ []) (hline : '\n' ∉ utf8Decode tail)
    (hparse : (JsonValue.parse (utf8Decode tail) : Option (JsonValue ν)) = none) :
    readJsonl (linesOf records ++ tail) = .ok (records, linesOf records) := by
  have htruncate : truncateDurably (linesOf records ++ tail) (linesOf records).length = linesOf records := by
    simp [truncateDurably]
  unfold readJsonl
  rw [splitOn_file, readLines_records, List.splitOn_eq_singleton hline, readLines_unreadable _ hne hparse]
  simpa [linesOf] using htruncate

/-- Reading keeps a settled tail and cuts off any other. -/
theorem LogTail.read {tail : List UInt8} {last : List (JsonValue ν)} (h : LogTail tail last)
    (records : List (JsonValue ν)) :
    ∃ tail', readJsonl (linesOf records ++ tail) = .ok (records ++ last, linesOf records ++ tail') ∧
      SettledTail tail' last ∧ (SettledTail tail last → tail' = tail) := by
  cases h with
  | settled hsettled => exact ⟨tail, readJsonl_settled records hsettled, hsettled, fun _ => rfl⟩
  | cut record members hobject hcut hne hproper =>
    obtain ⟨hvisible, hline, hparse⟩ := cut_unreadable hobject hcut hne hproper
    refine ⟨[], ?_, .ended, ?_⟩
    · rw [List.append_nil, List.append_nil]
      exact readJsonl_cut records hvisible hline hparse
    · intro hsettled
      cases hsettled
      rfl

/-- A whole record that stands behind the lines lacks its newline. -/
theorem endsWithoutNewline_whole (records : List (JsonValue ν)) (record : JsonValue ν) :
    EndsWithoutNewline ν (linesOf records ++ utf8 record.stringify) := by
  rw [EndsWithoutNewline, splitOn_file, utf8Decode_utf8,
    List.splitOn_eq_singleton (newline_not_mem_stringify record), List.getLast?_concat]
  simp [stringify_ne_nil]

/-! ## Stores that accept what they append -/

/-- `Holds` says which memory stands for which records: requests append objects that it goes on holding
for, and loading the records makes such a memory again. -/
structure LogClient.Sound (client : LogClient ν μ ρ α) (Holds : List (JsonValue ν) → μ → Prop) : Prop where
  fresh : Holds [] client.fresh
  appends : ∀ {records memory}, Holds records memory → ∀ request,
    (client.answer memory request).record = none ∧ Holds records (client.answer memory request).memory ∨
      ∃ record members, (client.answer memory request).record = some record ∧
        record.json = .object members ∧ Holds (records ++ [record]) (client.answer memory request).memory
  accepts : ∀ {records memory}, Holds records memory →
    ∃ memory', client.accept client.fresh records = (.ok (), memory') ∧ Holds records memory'

/-- The state of a store: lines, a tail, and a memory that stands for the records when it is loaded. -/
structure Intact (client : LogClient ν μ ρ α) (Holds : List (JsonValue ν) → μ → Prop)
    (attempts : List (JsonValue ν × Bool)) (records last : List (JsonValue ν)) (tail : List UInt8)
    (st : LogStore μ) : Prop where
  file_eq : st.file = linesOf records ++ tail
  logTail : LogTail tail last
  recovered : Recovered attempts (records ++ last)
  held : ∃ memory, Holds (records ++ last) memory
  live : st.loaded = true → SettledTail tail last ∧ Holds (records ++ last) st.memory
  unloaded : st.loaded = false → st.memory = client.fresh

section Stores

variable {client : LogClient ν μ ρ α} {Holds : List (JsonValue ν) → μ → Prop}
  {attempts : List (JsonValue ν × Bool)} {records last : List (JsonValue ν)} {tail : List UInt8} {st : LogStore μ}

theorem intact_opened (h : LogTail tail last) (hrecovered : Recovered attempts (records ++ last))
    (hheld : ∃ memory, Holds (records ++ last) memory) :
    Intact client Holds attempts records last tail (.opened client (linesOf records ++ tail)) where
  file_eq := rfl
  logTail := h
  recovered := hrecovered
  held := hheld
  live h := by cases h
  unloaded _ := rfl

theorem intact_fresh (hsound : client.Sound Holds) : Intact client Holds [] [] [] [] (.opened client []) :=
  intact_opened (.settled .ended) .nil ⟨_, hsound.fresh⟩

/-- Loading keeps a settled tail and cuts off any other. -/
theorem Intact.load (hsound : client.Sound Holds) (h : Intact client Holds attempts records last tail st) :
    ∃ tail' memory, st.load client = (.ok (), ⟨linesOf records ++ tail', memory, true⟩) ∧
      SettledTail tail' last ∧ Holds (records ++ last) memory ∧ (SettledTail tail last → tail' = tail) := by
  by_cases hloaded : st.loaded = true
  · obtain ⟨hsettled, hholds⟩ := h.live hloaded
    refine ⟨tail, st.memory, ?_, hsettled, hholds, fun _ => rfl⟩
    rw [LogStore.load, if_pos hloaded, ← h.file_eq, ← hloaded]
  · have hmemory := h.unloaded (by simpa using hloaded)
    obtain ⟨memory, hmemoryHolds⟩ := h.held
    obtain ⟨memory', haccept, hholds⟩ := hsound.accepts hmemoryHolds
    obtain ⟨tail', hread, hsettled, hkept⟩ := h.logTail.read records
    refine ⟨tail', memory', ?_, hsettled, hholds, hkept⟩
    rw [LogStore.load, if_neg hloaded, h.file_eq, hread, hmemory]
    simp only [haccept]

/-- What comes back is what was attempted. -/
theorem Intact.survives (hsound : client.Sound Holds)
    (h : Intact client Holds attempts records last tail st) : Survives client st attempts := by
  have hopened : Intact client Holds attempts records last tail (.opened client st.file) :=
    h.file_eq ▸ intact_opened h.logTail h.recovered h.held
  obtain ⟨memory, hmemory⟩ := h.held
  obtain ⟨memory', haccept, -⟩ := hsound.accepts hmemory
  obtain ⟨tail', hread, -, -⟩ := h.logTail.read records
  refine ⟨records ++ last, linesOf records ++ tail', memory', ?_, ?_, h.recovered⟩
  · rw [h.file_eq]
    exact hread
  · rw [LogStore.load, if_neg (by simp [LogStore.opened]), LogStore.opened, h.file_eq, hread]
    simp only [haccept]

/-! ## One step -/

/-- A whole record is appended. -/
theorem Intact.appended (h : Intact client Holds attempts records [] [] st) {memory : μ}
    (hholds : Holds (records ++ [record]) memory) (returned : Bool) : Intact client Holds (attempts ++
      [(record, returned)]) (records ++ [record]) [] [] ⟨st.file ++ utf8 (jsonLine record), memory, true⟩ where
  file_eq := by
    have hfile := h.file_eq
    rw [List.append_nil] at hfile ⊢
    rw [hfile, linesOf_append]
  logTail := .settled .ended
  recovered := by
    have hrecovered := h.recovered
    rw [List.append_nil] at hrecovered ⊢
    exact hrecovered.kept record returned
  held := ⟨memory, by rwa [List.append_nil]⟩
  live _ := ⟨.ended, by rwa [List.append_nil]⟩
  unloaded h := by cases h

/-- What is left of an append that was cut after some bytes. -/
theorem Intact.interrupted (h : Intact client Holds attempts records [] [] st) {members : List (JsString × Json ν)}
    (hobject : record.json = .object members) {memory : μ} (hholds : Holds (records ++ [record]) memory)
    (written : Nat) : ∃ records' last' tail', Intact client Holds (attempts ++
      [(record, false)]) records' last' tail' (.opened client (st.file ++
      (utf8 (jsonLine record)).take written)) := by
  have hfile := h.file_eq
  have hrecovered := h.recovered
  obtain ⟨old, hold⟩ := h.held
  rw [List.append_nil] at hfile hrecovered hold
  have hline : utf8 (jsonLine record) = utf8 record.stringify ++ utf8 ['\n'] := by simp [jsonLine]
  rw [hfile]
  rcases Nat.lt_trichotomy written (utf8 record.stringify).length with hless | heq | hmore
  · rw [hline, List.take_append_of_le_length (Nat.le_of_lt hless)]
    refine ⟨records, [], _, intact_opened ?_ ?_ ⟨old, by rwa [List.append_nil]⟩⟩
    · -- cut inside the record, or in front of it
      by_cases hzero : (utf8 record.stringify).take written = []
      · rw [hzero]
        exact .settled .ended
      · refine .cut record members hobject (List.take_prefix _ _) hzero fun hwhole => ?_
        have := congrArg List.length hwhole
        rw [List.length_take] at this
        omega
    · rw [List.append_nil]
      exact hrecovered.lost record
  · rw [hline, List.take_append_of_le_length (Nat.le_of_eq heq), heq, List.take_length]
    exact ⟨records, [record], _, intact_opened (.settled (.whole record)) (hrecovered.kept record false)
      ⟨memory, hholds⟩⟩
  · have hlength : (utf8 (jsonLine record)).length ≤ written := by
      rw [hline, List.length_append]
      have : (utf8 ['\n']).length = 1 := rfl
      omega
    rw [List.take_of_length_le hlength, ← linesOf_append]
    refine ⟨records ++ [record], [], [], ?_⟩
    have hopened : Intact client Holds (attempts ++ [(record, false)]) (records ++ [record]) [] []
        (.opened client (linesOf (records ++ [record]) ++ [])) :=
      intact_opened (.settled .ended) (by rw [List.append_nil]; exact hrecovered.kept record false)
        ⟨memory, by rwa [List.append_nil]⟩
    rwa [List.append_nil] at hopened

/-- Without a record that lacks its newline, all records stand on lines. -/
theorem Intact.onNewLine (h : Intact client Holds attempts records last tail st)
    (hend : ¬ EndsWithoutNewline ν st.file) : last = [] := by
  cases h.logTail with
  | settled hsettled =>
    cases hsettled with
    | ended => rfl
    | whole record =>
      rw [h.file_eq] at hend
      exact absurd (endsWithoutNewline_whole records record) hend
  | cut => rfl

/-- The state in which a request is answered. -/
theorem Intact.loadedState {tail' : List UInt8} {memory : μ}
    (h : Intact client Holds attempts records last tail st) (hsettled : SettledTail tail' last)
    (hholds : Holds (records ++ last) memory) :
    Intact client Holds attempts records last tail' ⟨linesOf records ++ tail', memory, true⟩ where
  file_eq := rfl
  logTail := .settled hsettled
  recovered := h.recovered
  held := h.held
  live _ := ⟨hsettled, hholds⟩
  unloaded h := by cases h

/-- A process that ends without writing leaves the file to the next one. -/
theorem Intact.reopened {tail' : List UInt8} (h : Intact client Holds attempts records last tail st)
    (hsettled : SettledTail tail' last) :
    Intact client Holds attempts records last tail' (.opened client (linesOf records ++ tail')) :=
  intact_opened (.settled hsettled) h.recovered h.held

theorem answer_bytes {answer : LogAnswer ν μ α} (h : answer.record = some record) :
    answer.bytes = utf8 (jsonLine record) ∧ utf8 (jsonLine record) ≠ [] := by
  constructor
  · simp [LogAnswer.bytes, h]
  · simp [jsonLine, String.utf8EncodeChar_ne_nil]

/-- An append that returns, when all records stand on lines. -/
theorem Intact.call (hsound : client.Sound Holds) (h : Intact client Holds attempts records [] tail st)
    (request : ρ) : ∃ records', Intact client Holds (attempts ++ st.attempt client (.append request)) records' [] []
      (st.step client (.append request)) := by
  obtain ⟨tail', memory, hload, hsettled, hholds, -⟩ := h.load hsound
  cases hsettled
  have hloaded := h.loadedState .ended hholds
  rw [LogStore.attempt, LogStore.answerTo, LogStore.step, LogStore.call, hload]
  rw [List.append_nil] at hholds
  rcases hsound.appends hholds request with ⟨hnone, hmemory⟩ | ⟨record, members, hsome, -, hmemory⟩
  · refine ⟨records, ?_⟩
    have hstate := h.loadedState .ended (by rwa [List.append_nil])
    simpa [hnone, LogAnswer.bytes] using hstate
  · refine ⟨records ++ [record], ?_⟩
    have hstate := hloaded.appended hmemory true
    simpa [hsome, (answer_bytes hsome).1] using hstate

/-- **One step loses nothing** unless it writes behind a record without newline. -/
theorem Intact.step (hsound : client.Sound Holds) (h : Intact client Holds attempts records last tail st)
    (event : LogEvent ρ) (hwrites : WritesOnNewLine client st event) :
    ∃ records' last' tail', Intact client Holds (attempts ++ st.attempt client event) records' last' tail'
      (st.step client event) := by
  obtain ⟨tail', memory, hload, hsettled, hholds, -⟩ := h.load hsound
  have hloaded := h.loadedState hsettled hholds
  have hanswer : ∀ request, st.answerTo client request = some (client.answer memory request) := by
    intro request
    rw [LogStore.answerTo, hload]
  cases event with
  | restart =>
    refine ⟨records, last, tail, ?_⟩
    rw [LogStore.attempt, List.append_nil, LogStore.step, h.file_eq]
    exact intact_opened h.logTail h.recovered h.held
  | append request =>
    rcases hsound.appends hholds request with ⟨hnone, hmemory⟩ | ⟨record, members, hsome, -, -⟩
    · refine ⟨records, last, tail', ?_⟩
      have hstate := h.loadedState hsettled hmemory
      rw [LogStore.attempt, hanswer, LogStore.step, LogStore.call, hload]
      simpa [hnone, LogAnswer.bytes] using hstate
    · obtain ⟨hbytes, hne⟩ := answer_bytes hsome
      obtain rfl := h.onNewLine (hwrites (by simp [LogStore.written, hanswer, hbytes, hne]))
      obtain ⟨records', hcall⟩ := h.call hsound request
      exact ⟨records', [], [], hcall⟩
  | crash request written =>
    rw [LogStore.attempt, hanswer, LogStore.step, hload]
    rcases hsound.appends hholds request with ⟨hnone, hmemory⟩ | ⟨record, members, hsome, hobject, hmemory⟩
    · refine ⟨records, last, tail', ?_⟩
      have hstate := h.reopened hsettled
      simpa [hnone, LogAnswer.bytes] using hstate
    · obtain ⟨hbytes, hne⟩ := answer_bytes hsome
      simp only [hsome, hbytes, Option.bind_some, Option.map_some, Option.toList_some]
      by_cases hzero : (utf8 (jsonLine record)).take written = []
      · -- nothing was written
        rw [hzero, List.append_nil]
        refine ⟨records, last, tail', intact_opened (.settled hsettled) (h.recovered.lost record) h.held⟩
      · obtain rfl := h.onNewLine (hwrites (by simpa [LogStore.written, hanswer, hbytes] using hzero))
        cases hsettled
        rw [List.append_nil] at hmemory
        exact hloaded.interrupted hobject hmemory written

/-- **No append that returned is lost**, in any run that writes on new lines only. -/
theorem Intact.run (hsound : client.Sound Holds) : ∀ (events : List (LogEvent ρ))
    {attempts : List (JsonValue ν × Bool)} {records last : List (JsonValue ν)} {tail : List UInt8}
    {st : LogStore μ}, Intact client Holds attempts records last tail st →
      Guarded (LogStore.step client) (WritesOnNewLine client) st events →
      ∃ records' last' tail', Intact client Holds (attempts ++ st.attempts client events) records' last'
        tail' (Logic.run (LogStore.step client) st events)
  | [], attempts, records, last, tail, st, h, _ => ⟨records, last, tail, by
      rwa [LogStore.attempts, List.append_nil]⟩
  | event :: rest, attempts, records, last, tail, st, h, hguarded => by
    obtain ⟨records', last', tail', hstep⟩ := h.step hsound event hguarded.1
    obtain ⟨records'', last'', tail'', hrun⟩ := Intact.run hsound rest hstep hguarded.2
    refine ⟨records'', last'', tail'', ?_⟩
    rwa [LogStore.attempts, ← List.append_assoc]

theorem survives_of_writesOnNewLine (hsound : client.Sound Holds) {events : List (LogEvent ρ)}
    (h : Guarded (LogStore.step client) (WritesOnNewLine client) (.opened client []) events) :
    Survives client (Logic.run (LogStore.step client) (.opened client []) events)
      (LogStore.attempts client (.opened client []) events) := by
  obtain ⟨records, last, tail, hrun⟩ := Intact.run hsound events (intact_fresh hsound) h
  exact hrun.survives hsound

/-! ## Runs without a crash -/

def LogEvent.isCrash : LogEvent ρ → Bool
  | .crash .. => true
  | _ => false

/-- Without a crash the file always ends with a newline. -/
theorem Intact.stepWhole (hsound : client.Sound Holds) (h : Intact client Holds attempts records [] [] st)
    {event : LogEvent ρ} (hcrash : event.isCrash = false) :
    ∃ records', Intact client Holds (attempts ++ st.attempt client event) records' [] [] (st.step client event) := by
  cases event with
  | append request => exact h.call hsound request
  | restart =>
    refine ⟨records, ?_⟩
    rw [LogStore.attempt, List.append_nil, LogStore.step, h.file_eq]
    exact intact_opened h.logTail h.recovered h.held
  | crash request written => cases hcrash

theorem Intact.runWhole (hsound : client.Sound Holds) : ∀ (events : List (LogEvent ρ))
    {attempts : List (JsonValue ν × Bool)} {records : List (JsonValue ν)} {st : LogStore μ},
      Intact client Holds attempts records [] [] st → (∀ event ∈ events, event.isCrash = false) →
      ∃ records', Intact client Holds (attempts ++ st.attempts client events) records' [] []
        (Logic.run (LogStore.step client) st events)
  | [], attempts, records, st, h, _ => ⟨records, by rwa [LogStore.attempts, List.append_nil]⟩
  | event :: rest, attempts, records, st, h, hcrash => by
    obtain ⟨records', hstep⟩ := h.stepWhole hsound (hcrash event List.mem_cons_self)
    obtain ⟨records'', hrun⟩ := Intact.runWhole hsound rest hstep fun event hevent =>
      hcrash event (List.mem_cons_of_mem _ hevent)
    refine ⟨records'', ?_⟩
    rwa [LogStore.attempts, ← List.append_assoc]

end Stores

end OpenClaw.Reef
