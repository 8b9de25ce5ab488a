/-
# OpenClaw.Infra.SafeBinProfiles -- which flags a safe bin may be run with

A profile lists the flags that take a value, the flags that take none and the flags that are denied.  Compiling it
collects its long flags, and maps every beginning of them to the flag that it abbreviates.

This follows `exec-safe-bin-policy-profiles.ts`.  A compiled profile has all of its fields, so their defaults are
not needed; sets of flags are lists, of which only membership is asked.
-/
import Mathlib.Data.List.Basic
import OpenClaw.Infra.ShellInlineCommand

namespace OpenClaw.Infra

open OpenClaw.Data

structure SafeBinProfileFixture where
  minPositional : Option Nat := none
  maxPositional : Option Nat := none
  allowedValueFlags : List JsString := []
  allowedBooleanFlags : List JsString := []
  deniedFlags : List JsString := []

structure SafeBinProfile extends SafeBinProfileFixture where
  knownLongFlags : List JsString
  /-- `some none` is a beginning of several flags. -/
  longFlagPrefixMap : List (JsString × Option JsString)

/-! ## Long flags -/

def isLongFlag (flag : JsString) : Bool := (units "--").isPrefixOf flag

def collectKnownLongFlags (allowedValueFlags deniedFlags allowedBooleanFlags : List JsString) : List JsString :=
  ((allowedValueFlags ++ allowedBooleanFlags ++ deniedFlags).filter isLongFlag).eraseDups

/-- A later entry for the same beginning hides an earlier one. -/
def setPrefix (flag : JsString) (prefixMap : List (JsString × Option JsString)) (length : Nat) :
    List (JsString × Option JsString) :=
  match prefixMap.lookup (flag.take length) with
  | none => (flag.take length, some flag) :: prefixMap
  | some existing => if existing ≠ some flag then (flag.take length, none) :: prefixMap else prefixMap

def setPrefixes (prefixMap : List (JsString × Option JsString)) (flag : JsString) : List (JsString × Option JsString) :=
  if !isLongFlag flag || flag.length ≤ 2 then prefixMap
  else (List.range' 3 (flag.length - 2)).foldl (setPrefix flag) prefixMap

def buildLongFlagPrefixMap (knownLongFlags : List JsString) : List (JsString × Option JsString) :=
  knownLongFlags.foldl setPrefixes []

def compileSafeBinProfile (fixture : SafeBinProfileFixture) : SafeBinProfile :=
  let knownLongFlags := collectKnownLongFlags fixture.allowedValueFlags fixture.deniedFlags fixture.allowedBooleanFlags
  { fixture with
    knownLongFlags := knownLongFlags
    longFlagPrefixMap := buildLongFlagPrefixMap knownLongFlags }

/-! ## The built-in profiles -/

inductive SafeBin where
  | jq
  | grep
  | cut
  | sort
  | uniq
  | head
  | tail
  | tr
  | wc
  deriving DecidableEq

def SafeBin.fixture : SafeBin → SafeBinProfileFixture
  | jq =>
    { maxPositional := some 1
      allowedValueFlags := [units "--arg", units "--argjson", units "--argstr"]
      deniedFlags :=
        [units "--argfile", units "--rawfile", units "--slurpfile", units "--from-file", units "--library-path",
          units "-L", units "-f"] }
  | grep =>
    { maxPositional := some 0
      allowedValueFlags :=
        [units "--regexp", units "--max-count", units "--after-context", units "--before-context",
          units "--context", units "--devices", units "--binary-files", units "--exclude", units "--include",
          units "--label", units "-e", units "-m", units "-A", units "-B", units "-C", units "-D"]
      deniedFlags :=
        [units "--file", units "--exclude-from", units "--dereference-recursive", units "--directories",
          units "--recursive", units "-f", units "-d", units "-r", units "-R"] }
  | cut =>
    { maxPositional := some 0
      allowedValueFlags :=
        [units "--bytes", units "--characters", units "--fields", units "--delimiter",
          units "--output-delimiter", units "-b", units "-c", units "-f", units "-d"]
      allowedBooleanFlags :=
        [units "--complement", units "--only-delimited", units "--zero-terminated", units "-n", units "-s",
          units "-z"] }
  | sort =>
    { maxPositional := some 0
      allowedValueFlags :=
        [units "--key", units "--field-separator", units "--buffer-size", units "--parallel",
          units "--batch-size", units "-k", units "-t", units "-S"]
      deniedFlags :=
        [units "--compress-program", units "--files0-from", units "--output", units "--random-source",
          units "--temporary-directory", units "-T", units "-o"] }
  | uniq =>
    { maxPositional := some 0
      allowedValueFlags :=
        [units "--skip-fields", units "--skip-chars", units "--check-chars", units "--group", units "-f",
          units "-s", units "-w"]
      allowedBooleanFlags :=
        [units "--count", units "--repeated", units "--unique", units "--ignore-case",
          units "--zero-terminated", units "-c", units "-d", units "-u", units "-i", units "-z"] }
  | head =>
    { maxPositional := some 0
      allowedValueFlags := [units "--lines", units "--bytes", units "-n", units "-c"]
      allowedBooleanFlags :=
        [units "--quiet", units "--silent", units "--verbose", units "--zero-terminated", units "-q",
          units "-v", units "-z"] }
  | tail =>
    { maxPositional := some 0
      allowedValueFlags :=
        [units "--lines", units "--bytes", units "--sleep-interval", units "--max-unchanged-stats",
          units "--pid", units "-n", units "-c"]
      allowedBooleanFlags :=
        [units "--quiet", units "--silent", units "--verbose", units "--zero-terminated", units "-q",
          units "-v", units "-z"]
      deniedFlags := [units "--follow", units "--retry", units "-F", units "-f"] }
  | tr =>
    { minPositional := some 1
      maxPositional := some 2
      allowedBooleanFlags :=
        [units "--complement", units "--delete", units "--squeeze-repeats", units "--truncate-set1",
          units "-C", units "-c", units "-d", units "-s", units "-t"] }
  | wc =>
    { maxPositional := some 0
      allowedBooleanFlags :=
        [units "--bytes", units "--chars", units "--lines", units "--max-line-length", units "--words",
          units "-L", units "-c", units "-l", units "-m", units "-w"]
      deniedFlags := [units "--files0-from"] }

def SafeBin.profile (bin : SafeBin) : SafeBinProfile := compileSafeBinProfile bin.fixture

/-! ## What an abbreviation stands for -/

section Prefixes

variable {flag : JsString}

/-- Every entry that names a flag is a beginning of that flag, and the flag is known. -/
def PrefixesOf (known : List JsString) (prefixMap : List (JsString × Option JsString)) : Prop :=
  ∀ key flag, (key, some flag) ∈ prefixMap → flag ∈ known ∧ key <+: flag

theorem setPrefix_prefixes {known : List JsString} {prefixMap : List (JsString × Option JsString)}
    (hflag : flag ∈ known) (h : PrefixesOf known prefixMap) (length : Nat) : PrefixesOf known (setPrefix flag prefixMap length) := by
  intro key other hmem
  unfold setPrefix at hmem
  split at hmem
  · rcases List.mem_cons.mp hmem with hnew | hold
    · obtain ⟨rfl, hother⟩ := Prod.mk.inj hnew
      obtain rfl := Option.some.inj hother
      exact ⟨hflag, List.take_prefix length other⟩
    · exact h key other hold
  · split at hmem
    · rcases List.mem_cons.mp hmem with hnew | hold
      · obtain ⟨-, hother⟩ := Prod.mk.inj hnew
        contradiction
      · exact h key other hold
    · exact h key other hmem

theorem setPrefixes_prefixes {known : List JsString} {prefixMap : List (JsString × Option JsString)}
    (hflag : flag ∈ known) (h : PrefixesOf known prefixMap) : PrefixesOf known (setPrefixes prefixMap flag) := by
  unfold setPrefixes
  split
  · exact h
  · generalize List.range' 3 (flag.length - 2) = lengths
    induction lengths generalizing prefixMap with
    | nil => exact h
    | cons length lengths ih => exact ih (setPrefix_prefixes hflag h length)

/-- **An abbreviation is a beginning of the flag it stands for.** -/
theorem buildLongFlagPrefixMap_prefixes (known : List JsString) : PrefixesOf known (buildLongFlagPrefixMap known) := by
  have hfold : ∀ {flags : List JsString} {prefixMap : List (JsString × Option JsString)},
      (∀ flag ∈ flags, flag ∈ known) → PrefixesOf known prefixMap → PrefixesOf known (flags.foldl setPrefixes prefixMap) := by
    intro flags
    induction flags with
    | nil =>
      intro prefixMap _ h
      exact h
    | cons flag flags ih =>
      intro prefixMap hflags h
      obtain ⟨hflag, hrest⟩ := List.forall_mem_cons.mp hflags
      exact ih hrest (setPrefixes_prefixes hflag h)
  apply hfold (fun _ h => h)
  intro key flag hmem
  exact absurd hmem List.not_mem_nil

end Prefixes

end OpenClaw.Infra
