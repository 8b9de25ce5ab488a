/-
# OpenClaw.Data.Getopt -- how a command line is read with `getopt_long`

A table says which options a tool has and which of them take an argument.  Long options may be written as any
beginning that fits no other one; short options stand in clusters, and the first one with an argument takes what is
left of the word, or else the next word; options and operands may be mixed, and two dashes end the options.  The
first word that the table does not explain ends everything.
-/
import OpenClaw.Data.JsText

namespace OpenClaw.Data.Getopt

open OpenClaw.Data

inductive ArgKind where
  | absent
  | required
  | optional
  deriving DecidableEq

/-- Long options by their names, dashes included, and short ones by their letters. -/
structure OptionTable where
  long : List (JsString × ArgKind)
  short : CodeUnit → Option ArgKind

inductive Parsed where
  | option (name : JsString) (argument : Option JsString)
  | operand (word : JsString)
  | invalid (word : JsString)
  deriving DecidableEq

/-- How the words behind a word are read. -/
inductive AfterWord where
  | goOn
  | needs (name : JsString)
  | operands
  | failed
  deriving DecidableEq

def hyphen : CodeUnit := unitOf '-'

def equals : CodeUnit := unitOf '='

/-- The name of a long option word, and the value behind its first equals sign. -/
def splitLong (word : JsString) : JsString × Option JsString :=
  if word.contains equals then (word.takeWhile (· ≠ equals), some ((word.dropWhile (· ≠ equals)).drop 1))
  else (word, none)

/-- The option of this name, or the only one that begins with it. -/
def OptionTable.resolveLong (table : OptionTable) (name : JsString) : Option (JsString × ArgKind) :=
  match table.long.find? fun entry => entry.1 = name with
  | some entry => some entry
  | none =>
    match table.long.filter fun entry => name.isPrefixOf entry.1 with
    | [entry] => some entry
    | _ => none

def OptionTable.readLong (table : OptionTable) (word : JsString) : List Parsed × AfterWord :=
  match table.resolveLong (splitLong word).1, (splitLong word).2 with
  | none, _ => ([.invalid word], .failed)
  | some (_, .absent), some _ => ([.invalid word], .failed)
  | some (name, .absent), none => ([.option name none], .goOn)
  | some (name, .optional), value => ([.option name value], .goOn)
  | some (name, .required), some value => ([.option name (some value)], .goOn)
  | some (name, .required), none => ([], .needs name)

attribute [grind =] OptionTable.readLong

def OptionTable.readShort (table : OptionTable) : JsString → List Parsed × AfterWord
  | [] => ([], .goOn)
  | letter :: rest =>
    match table.short letter with
    | none => ([.invalid [hyphen, letter]], .failed)
    | some .absent =>
      let (parsed, after) := table.readShort rest
      (.option [hyphen, letter] none :: parsed, after)
    | some .optional => ([.option [hyphen, letter] (if rest = [] then none else some rest)], .goOn)
    | some .required =>
      if rest = [] then ([], .needs [hyphen, letter]) else ([.option [hyphen, letter] (some rest)], .goOn)

attribute [grind =] OptionTable.readShort

/-- A single dash is an operand. -/
def OptionTable.readWord (table : OptionTable) (word : JsString) : List Parsed × AfterWord :=
  if word = [hyphen, hyphen] then ([], .operands)
  else if word[0]? ≠ some hyphen || word = [hyphen] then ([.operand word], .goOn)
  else if [hyphen, hyphen].isPrefixOf word then table.readLong word
  else table.readShort (word.drop 1)

/-- The words, where an option may wait for its argument. -/
def OptionTable.parse (table : OptionTable) : Option JsString → List JsString → List Parsed
  | none, [] => []
  | some name, [] => [.invalid name]
  | some name, value :: rest => .option name (some value) :: table.parse none rest
  | none, word :: rest =>
    (table.readWord word).1 ++
      match (table.readWord word).2 with
      | .goOn => table.parse none rest
      | .needs name => table.parse (some name) rest
      | .operands => rest.map .operand
      | .failed => []

/-! ## Long options -/

section Long

variable {table : OptionTable} {name full : JsString} {kind : ArgKind}

/-- An option that is named by one of its beginnings is found, or nothing is, unless another option has that name. -/
theorem resolveLong_beginning (hunique : ∀ {n k k'}, (n, k) ∈ table.long → (n, k') ∈ table.long → k = k')
    (hmem : (full, kind) ∈ table.long) (hbegins : name <+: full) :
    table.resolveLong name = none ∨ table.resolveLong name = some (full, kind) ∨
      (name ≠ full ∧ ∃ kind', (name, kind') ∈ table.long ∧ table.resolveLong name = some (name, kind')) := by
  unfold OptionTable.resolveLong
  split
  case h_1 entry hfind =>
    obtain ⟨entryName, kind'⟩ := entry
    obtain rfl : entryName = name := by simpa using List.find?_some hfind
    have hentry := List.mem_of_find?_eq_some hfind
    by_cases hfull : entryName = full
    · obtain rfl := hfull
      right
      left
      rw [hunique hentry hmem]
    · exact Or.inr (Or.inr ⟨hfull, kind', hentry, rfl⟩)
  case h_2 =>
    split
    case h_1 entry hfilter =>
      have hmem' : (full, kind) ∈ table.long.filter fun entry => name.isPrefixOf entry.1 :=
        List.mem_filter.mpr ⟨hmem, by simpa using hbegins⟩
      rw [hfilter, List.mem_singleton] at hmem'
      rw [hmem']
      exact Or.inr (Or.inl rfl)
    case h_2 => exact Or.inl rfl

end Long

end OpenClaw.Data.Getopt
