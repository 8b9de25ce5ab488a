/-
# OpenClaw.Reef.JsonLines -- files of JSON lines, and the stores that keep one

A store appends one JSON line for each change and reads the whole file back before its first use in a
process.  A last line that does not parse is cut off then.  `LogClient` is what a store keeps in memory
and makes of the records; `LogStore` is the store with its file, as bytes.  A crash may cut the bytes of
the append in progress anywhere.

This follows `readJsonl`, `truncateDurably` and `appendDurably` of `node.ts`, and the loading that both
stores there have in common.
-/
import OpenClaw.Data.JsonValue
import OpenClaw.Logic.Run

namespace OpenClaw.Reef

open OpenClaw.Data

variable {ν μ ρ α : Type} [JsonNumber ν]

/-! ## The file -/

/-- What is appended for a record. -/
def jsonLine (record : JsonValue ν) : Text := record.stringify ++ ['\n']

/-- `handle.truncate(length)`: what is shorter is filled up with zeros. -/
def truncateDurably (file : List UInt8) (length : Nat) : List UInt8 :=
  file.take length ++ List.replicate (length - file.length) 0

/-- The loop over the lines, with the text in front of them: the records and where to truncate, or none
when a line is no JSON and a later one is not empty. -/
def readLines : Text → List Text → Option (List (JsonValue ν) × Option Nat)
  | _, [] => some ([], none)
  | before, line :: rest =>
    let next := before ++ line ++ ['\n']
    if line = [] then readLines next rest
    else
      match JsonValue.parse line with
      | some record => (readLines next rest).map fun read => (record :: read.1, read.2)
      | none => if rest.all (· = []) then some ([], some (utf8 before).length) else none

/-- `readJsonl`: the records of the file, and the file as it is afterwards. -/
def readJsonl (file : List UInt8) : Except String (List (JsonValue ν) × List UInt8) :=
  match readLines [] ((utf8Decode file).splitOn '\n') with
  | none => .error "SyntaxError"
  | some (records, none) => .ok (records, file)
  | some (records, some length) => .ok (records, truncateDurably file length)

/-! ## Stores -/

/-- The answer to a request: what it returns, the record it appends, and the memory after it. -/
structure LogAnswer (ν μ α : Type) where
  result : α
  record : Option (JsonValue ν)
  memory : μ

structure LogClient (ν μ ρ α : Type) where
  fresh : μ
  /-- What loading makes of the records that were read. -/
  accept : μ → List (JsonValue ν) → Except String Unit × μ
  answer : μ → ρ → LogAnswer ν μ α

structure LogStore (μ : Type) where
  file : List UInt8
  memory : μ
  loaded : Bool

/-- The bytes that are appended for an answer. -/
def LogAnswer.bytes (answer : LogAnswer ν μ α) : List UInt8 := utf8 (answer.record.toList.flatMap jsonLine)

inductive LogEvent (ρ : Type) where
  | append (request : ρ)
  /-- The process ends when this many bytes of the append are written. -/
  | crash (request : ρ) (written : Nat)
  | restart

namespace LogStore

variable (client : LogClient ν μ ρ α) (st : LogStore μ)

/-- A process that has not looked at the file yet. -/
def opened (file : List UInt8) : LogStore μ := ⟨file, client.fresh, false⟩

def load : Except String Unit × LogStore μ :=
  if st.loaded then (.ok (), st)
  else
    match readJsonl st.file with
    | .error message => (.error message, st)
    | .ok (records, file) =>
      match client.accept st.memory records with
      | (.error message, memory) => (.error message, ⟨file, memory, false⟩)
      | (.ok (), memory) => (.ok (), ⟨file, memory, true⟩)

/-- The answer to a request; none when loading fails. -/
def answerTo (request : ρ) : Option (LogAnswer ν μ α) :=
  match st.load client with
  | (.error _, _) => none
  | (.ok (), st) => some (client.answer st.memory request)

/-- A request: load, append, and only then change the memory. -/
def call (request : ρ) : Except String α × LogStore μ :=
  match st.load client with
  | (.error message, st) => (.error message, st)
  | (.ok (), st) =>
    let answer := client.answer st.memory request
    (.ok answer.result, { st with file := st.file ++ answer.bytes, memory := answer.memory })

def step : LogEvent ρ → LogStore μ
  | .append request => (st.call client request).2
  | .crash request written =>
    match st.load client with
    | (.error _, st) => opened client st.file
    | (.ok (), st) => opened client (st.file ++ (client.answer st.memory request).bytes.take written)
  | .restart => opened client st.file

/-! ### What a run attempts -/

/-- The bytes that an event writes. -/
def written : LogEvent ρ → List UInt8
  | .append request => ((st.answerTo client request).map LogAnswer.bytes).getD []
  | .crash request written => (((st.answerTo client request).map LogAnswer.bytes).getD []).take written
  | .restart => []

/-- The record that an event appends, and whether the append returned. -/
def attempt : LogEvent ρ → List (JsonValue ν × Bool)
  | .append request => (((st.answerTo client request).bind LogAnswer.record).map (·, true)).toList
  | .crash request _ => (((st.answerTo client request).bind LogAnswer.record).map (·, false)).toList
  | .restart => []

/-- All that a run attempts, in order. -/
def attempts : LogStore μ → List (LogEvent ρ) → List (JsonValue ν × Bool)
  | _, [] => []
  | st, event :: rest => attempt client st event ++ attempts (st.step client event) rest

end LogStore

/-- The records are what was attempted, in order, and only interrupted records are left out. -/
inductive Recovered : List (JsonValue ν × Bool) → List (JsonValue ν) → Prop where
  | nil : Recovered [] []
  | kept {attempts : List (JsonValue ν × Bool)} {records : List (JsonValue ν)} (record : JsonValue ν)
      (returned : Bool) : Recovered attempts records →
        Recovered (attempts ++ [(record, returned)]) (records ++ [record])
  | lost {attempts : List (JsonValue ν × Bool)} {records : List (JsonValue ν)} (record : JsonValue ν) :
      Recovered attempts records → Recovered (attempts ++ [(record, false)]) records

/-- Whatever process opens the file next, its load succeeds and returns what was attempted. -/
def Survives (client : LogClient ν μ ρ α) (st : LogStore μ) (attempts : List (JsonValue ν × Bool)) : Prop :=
  ∃ records file memory, readJsonl st.file = .ok (records, file) ∧
    (LogStore.opened client st.file).load client = (.ok (), ⟨file, memory, true⟩) ∧
    Recovered attempts records

/-- The file ends with a whole record and without the newline that should be there. -/
def EndsWithoutNewline (ν : Type) [JsonNumber ν] (file : List UInt8) : Prop :=
  (((utf8Decode file).splitOn '\n').getLast?.any fun line =>
    line ≠ [] && (JsonValue.parse line : Option (JsonValue ν)).isSome) = true

instance (ν : Type) [JsonNumber ν] (file : List UInt8) : Decidable (EndsWithoutNewline ν file) :=
  inferInstanceAs (Decidable (_ = true))

/-- Nothing is written behind a record that lacks its newline. -/
def WritesOnNewLine (client : LogClient ν μ ρ α) (st : LogStore μ) (event : LogEvent ρ) : Prop :=
  st.written client event ≠ [] → ¬ EndsWithoutNewline ν st.file

instance (client : LogClient ν μ ρ α) (st : LogStore μ) (event : LogEvent ρ) :
    Decidable (WritesOnNewLine client st event) :=
  inferInstanceAs (Decidable (_ → _))

/-! ## Reading back -/

theorem stringify_ne_nil (record : JsonValue ν) : record.stringify ≠ [] := by
  obtain ⟨c, front, htext, -⟩ := Json.stringify_starts record.json
  simp [JsonValue.stringify, htext]

theorem newline_not_mem {text : Text} (h : Json.Visible text) : '\n' ∉ text := fun hmem =>
  absurd (h _ hmem) (by decide)

theorem newline_not_mem_stringify (record : JsonValue ν) : '\n' ∉ record.stringify :=
  newline_not_mem (Json.stringify_visible record.json)

/-- Each line of the file is a line of the text. -/
theorem splitOn_lines (records : List (JsonValue ν)) (text : Text) : (records.flatMap jsonLine ++ text).splitOn '\n' =
      records.map JsonValue.stringify ++ text.splitOn '\n' := by
  induction records with
  | nil => rfl
  | cons record rest ih =>
    have hsplit := List.splitOn_append_cons_self_of_not_mem (newline_not_mem_stringify record)
      (rest.flatMap jsonLine ++ text)
    simpa [jsonLine, ih] using hsplit

/-- Lines that were written are read. -/
theorem readLines_records (records : List (JsonValue ν)) : ∀ (before : Text) (lines : List Text),
    readLines before (records.map JsonValue.stringify ++ lines) =
      (readLines (before ++ records.flatMap jsonLine) lines).map fun read => (records ++ read.1, read.2) := by
  induction records with
  | nil => simp
  | cons record rest ih =>
    intro before lines
    rw [List.map_cons, List.cons_append, readLines, if_neg (stringify_ne_nil record), JsonValue.parse_stringify]
    simp only [ih, Option.map_map, List.flatMap_cons, jsonLine, List.append_assoc, List.cons_append]
    rfl

end OpenClaw.Reef
