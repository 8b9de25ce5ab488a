/-
# OpenClaw.Infra.ExecArgPatterns -- remembered arguments as regular expressions

An allowlist entry may bind the arguments of a command.  `buildArgPatternFromArgv` writes the arguments as a
regular expression over their join with NUL, and `matchArgPattern` tests the join of another command's
arguments.  The join ends with a NUL, and no arguments at all are two of them; that is also the join of two
empty arguments, and the only two lists whose joins are the same (`argPattern_binds`).

This follows `exec-approvals-allowlist.ts` and `exec-command-resolution.ts`.
-/
import OpenClaw.Data.Delimited
import OpenClaw.Data.RegExp

namespace OpenClaw.Infra

open OpenClaw.Data

/-! ## The host -/

/-- What the functions ask of the process and of `node:path`. -/
structure PathHost where
  cwd : JsString
  basename : JsString → JsString
  isAbsolute : JsString → Bool
  resolve : JsString → JsString → JsString
  toLowerCase : JsString → JsString

variable (host : PathHost)

def normalizeLowercaseStringOrEmpty (value : JsString) : JsString := host.toLowerCase (trimUnits value)

/-- Of the platform that the caller names, or else the process. -/
def isWindowsPlatform (platform : JsString) : Bool :=
  (units "win").isPrefixOf (normalizeLowercaseStringOrEmpty host platform)

/-! ## Patterns -/

def nul : CodeUnit := unitOf '\x00'

/-- `[.*+?^${}()|[\]\\]` -/
def isRegExpSpecial (unit : CodeUnit) : Bool :=
  unit.val ∈ [0x2E, 0x2A, 0x2B, 0x3F, 0x5E, 0x24, 0x7B, 0x7D, 0x28, 0x29, 0x7C, 0x5B, 0x5D, 0x5C]

def escapeRegExpLiteral (input : JsString) : JsString :=
  input.flatMap fun unit => if isRegExpSpecial unit then [unitOf '\\', unit] else [unit]

/-- `replace(/\//g, "\\")` on one unit. -/
def backslashed (unit : CodeUnit) : CodeUnit := if unit = unitOf '/' then unitOf '\\' else unit

def normalizeArg (arg : JsString) : JsString := arg.map backslashed

/-- The pattern of no arguments, `^\0\0$`. -/
def noArgsPattern : JsString := [unitOf '^', nul, nul, unitOf '$']

def buildArgPatternFromArgv (argv : List JsString) (platform : JsString) : Option JsString :=
  if !isWindowsPlatform host platform then none
  else
    let normalized := (argv.drop 1).map normalizeArg
    if normalized.length = 0 then some noArgsPattern
    else
      let joined := [nul].intercalate normalized
      some ([unitOf '^'] ++ escapeRegExpLiteral joined ++ [nul, unitOf '$'])

/-- The arguments behind the script: behind its path, or else behind the first argument with its name. -/
def scriptArgsOf (argv : List JsString) (scriptPath : JsString) (cwd : Option JsString) : List JsString :=
  let scriptBase := normalizeLowercaseStringOrEmpty host (host.basename scriptPath)
  let base :=
    match cwd with
    | some cwd => if trimUnits cwd ≠ [] then trimUnits cwd else host.cwd
    | none => host.cwd
  let resolveArgPath := fun arg => if host.isAbsolute arg then arg else host.resolve base arg
  match argv.findIdx? fun arg => resolveArgPath arg = scriptPath with
  | some scriptIdx => argv.drop (scriptIdx + 1)
  | none =>
    match argv.findIdx? fun arg => normalizeLowercaseStringOrEmpty host (host.basename arg) = scriptBase with
    | some scriptIdx => argv.drop (scriptIdx + 1)
    | none => []

def buildScriptArgPatternFromArgv (argv : List JsString) (scriptPath : JsString) (cwd : Option JsString)
    (platform : JsString) : Option JsString :=
  if !isWindowsPlatform host platform then none
  else
    let normalized := (scriptArgsOf host argv scriptPath cwd).map normalizeArg
    if normalized.length = 0 then some noArgsPattern
    else some ([unitOf '^'] ++ [nul].intercalate (normalized.map escapeRegExpLiteral) ++ [nul, unitOf '$'])

/-- The text that a pattern is tested on. -/
def argsStringOf (argPattern : JsString) (argv : List JsString) : JsString :=
  let sep := if nul ∈ argPattern then nul else unitOf ' '
  let argsSlice := argv.drop 1
  if sep = nul then
    if argsSlice.length = 0 then [nul, nul] else [sep].intercalate argsSlice ++ [sep]
  else [sep].intercalate argsSlice

def matchArgPattern (engine : RegExpEngine) (argPattern : JsString) (argv : List JsString) (platform : JsString) :
    Bool :=
  let argsString := argsStringOf argPattern argv
  match engine.test argPattern argsString with
  | none => false
  | some true => true
  | some false =>
    if isWindowsPlatform host platform then
      let normalized := argsString.map backslashed
      normalized ≠ argsString && (engine.test argPattern normalized).getD false
    else false

/-! ## The join of a list of arguments -/

/-- Every argument with its NUL, and two NULs for none. -/
def joined (args : List JsString) : JsString :=
  if args = [] then [nul, nul] else [nul].intercalate args ++ [nul]

/-- The list whose terminated arguments are the join. -/
def written (args : List JsString) : List JsString := if args = [] then [[], []] else args

theorem intercalate_append {c : CodeUnit} : ∀ {args : List JsString}, args ≠ [] →
    [c].intercalate args ++ [c] = args.flatMap (· ++ [c])
  | [arg], _ => by simp [List.intercalate]
  | arg :: next :: rest, _ => by
    rw [List.intercalate_cons_cons, List.append_assoc, intercalate_append (List.cons_ne_nil next rest)]
    simp

theorem joined_eq (args : List JsString) : joined args = (written args).flatMap (· ++ [nul]) := by
  unfold joined written
  split
  · rfl
  · rename_i h
    exact intercalate_append h

/-- Terminated arguments are told apart, as no argument has a NUL in it. -/
theorem flatMap_nul_inj : ∀ {args other : List JsString}, (∀ arg ∈ args, nul ∉ arg) → (∀ arg ∈ other, nul ∉ arg) →
    args.flatMap (· ++ [nul]) = other.flatMap (· ++ [nul]) → args = other
  | [], [], _, _, _ => rfl
  | [], arg :: other, _, _, h => by simp at h
  | arg :: args, [], _, _, h => by simp at h
  | arg :: args, arg' :: other, hargs, hother, h => by
    obtain ⟨harg, hrest⟩ := List.forall_mem_cons.mp hargs
    obtain ⟨harg', hrest'⟩ := List.forall_mem_cons.mp hother
    simp only [List.flatMap_cons, List.append_assoc, List.singleton_append] at h
    obtain ⟨rfl, hmore⟩ := cut_unique harg harg' h
    rw [flatMap_nul_inj hrest hrest' hmore]

/-- The two lists with one join: no arguments and two empty ones. -/
def Confused (args other : List JsString) : Prop := args = [] ∧ other = [[], []] ∨ args = [[], []] ∧ other = []

theorem written_free {args : List JsString} (h : ∀ arg ∈ args, nul ∉ arg) : ∀ arg ∈ written args, nul ∉ arg := by
  unfold written
  split
  · simp
  · exact h

theorem joined_inj {args other : List JsString} (hargs : ∀ arg ∈ args, nul ∉ arg)
    (hother : ∀ arg ∈ other, nul ∉ arg) : joined args = joined other ↔ args = other ∨ Confused args other := by
  have hinj : joined args = joined other ↔ written args = written other := by
    rw [joined_eq, joined_eq]
    exact ⟨flatMap_nul_inj (written_free hargs) (written_free hother), fun h => by rw [h]⟩
  rw [hinj]
  unfold written Confused
  by_cases ha : args = [] <;> by_cases ho : other = []
  · simp [ha, ho]
  · rw [if_pos ha, if_neg ho]
    constructor
    · intro h
      exact .inr (.inl ⟨ha, h.symm⟩)
    · rintro (h | ⟨-, h⟩ | ⟨-, h⟩)
      · exact absurd (h ▸ ha) ho
      · exact h.symm
      · exact absurd h ho
  · simp [ha, ho]
  · simp [ha, ho]

/-! ## Arguments up to the slash -/

theorem backslashed_nul : backslashed nul = nul := by decide

theorem backslashed_eq_nul {unit : CodeUnit} : backslashed unit = nul ↔ unit = nul := by
  unfold backslashed
  split
  · rename_i h
    subst h
    decide
  · exact Iff.rfl

theorem backslashed_idem (unit : CodeUnit) : backslashed (backslashed unit) = backslashed unit := by
  by_cases h : unit = unitOf '/'
  · subst h
    decide
  · have hplain : backslashed unit = unit := if_neg h
    rw [hplain, hplain]

theorem normalizeArg_free {args : List JsString} (h : ∀ arg ∈ args, nul ∉ arg) :
    ∀ arg ∈ args.map normalizeArg, nul ∉ arg := by
  intro arg harg hnul
  obtain ⟨plain, hplain, rfl⟩ := List.mem_map.mp harg
  obtain ⟨unit, hunit, hslash⟩ := List.mem_map.mp hnul
  exact h plain hplain (backslashed_eq_nul.mp hslash ▸ hunit)

theorem intercalate_map (f : CodeUnit → CodeUnit) {c : CodeUnit} (hc : f c = c) : ∀ args : List JsString,
    [c].intercalate (args.map (List.map f)) = ([c].intercalate args).map f
  | [] => rfl
  | [arg] => by simp [List.intercalate]
  | arg :: next :: rest => by
    rw [List.map_cons, List.map_cons, List.intercalate_cons_cons, ← List.map_cons,
      intercalate_map f hc (next :: rest), List.intercalate_cons_cons]
    simp [hc]

theorem joined_normalize (args : List JsString) : joined (args.map normalizeArg) = (joined args).map backslashed := by
  unfold joined
  by_cases h : args = []
  · subst h
    simp [backslashed_nul]
  · rw [if_neg h, if_neg (by simpa using h), List.map_append, List.map_singleton, backslashed_nul]
    congr 1
    exact intercalate_map backslashed backslashed_nul args

/-! ## The text of a pattern -/

theorem isRegExpSpecial_eq (unit : CodeUnit) : isRegExpSpecial unit = isSyntaxUnit unit := by
  unfold isRegExpSpecial isSyntaxUnit
  rw [decide_eq_decide]
  simp only [List.mem_cons, List.not_mem_nil, or_false]
  omega

theorem escapeRegExpLiteral_eq (input : JsString) : escapeRegExpLiteral input = input.flatMap escapeUnit := by
  unfold escapeRegExpLiteral escapeUnit
  simp only [isRegExpSpecial_eq]

/-- Escaping the arguments and joining them is escaping the join. -/
theorem escape_intercalate {c : CodeUnit} (hc : isSyntaxUnit c = false) : ∀ args : List JsString,
    [c].intercalate (args.map escapeRegExpLiteral) = escapeRegExpLiteral ([c].intercalate args)
  | [] => rfl
  | [arg] => by simp [List.intercalate]
  | arg :: next :: rest => by
    have hsep : escapeUnit c = [c] := escapeUnit_plain hc
    rw [List.map_cons, List.map_cons, List.intercalate_cons_cons, ← List.map_cons,
      escape_intercalate hc (next :: rest), List.intercalate_cons_cons]
    simp [escapeRegExpLiteral_eq, hsep]

theorem nul_plain : isSyntaxUnit nul = false := by decide

/-- The pattern of arguments stands for their join. -/
def patternOf (args : List JsString) : RegPattern := literalPattern (joined (args.map normalizeArg))

theorem patternOf_source (args : List JsString) : (patternOf args).source = if args = [] then noArgsPattern
    else [unitOf '^'] ++ escapeRegExpLiteral ([nul].intercalate (args.map normalizeArg)) ++ [nul, unitOf '$'] := by
  rw [patternOf, RegPattern.source, literalPattern_terms, joined]
  by_cases h : args = []
  · subst h
    rfl
  · rw [if_neg h, if_neg (by simpa using h), List.flatMap_append, escapeRegExpLiteral_eq]
    simp [escapeUnit_plain nul_plain]

theorem nul_mem_source (args : List JsString) : nul ∈ (patternOf args).source := by
  rw [patternOf_source]
  split
  · decide
  · simp

variable {host} {platform : JsString}

theorem buildArgPattern_eq (hwin : isWindowsPlatform host platform = true) (argv : List JsString) :
    buildArgPatternFromArgv host argv platform = some (patternOf (argv.drop 1)).source := by
  rw [patternOf_source, buildArgPatternFromArgv, hwin]
  generalize argv.drop 1 = args
  by_cases h : args = []
  · simp [h]
  · simp [h]

theorem buildScriptArgPattern_eq (hwin : isWindowsPlatform host platform = true) (argv : List JsString)
    (scriptPath : JsString) (cwd : Option JsString) :
    buildScriptArgPatternFromArgv host argv scriptPath cwd platform =
      some (patternOf (scriptArgsOf host argv scriptPath cwd)).source := by
  rw [patternOf_source, buildScriptArgPatternFromArgv, hwin]
  dsimp only
  rw [escape_intercalate nul_plain]
  generalize scriptArgsOf host argv scriptPath cwd = args
  by_cases h : args = []
  · simp [h]
  · simp [h]

/-- **What a pattern accepts**: the arguments whose join is the same up to the slash. -/
theorem matchArgPattern_iff {engine : RegExpEngine} (hengine : engine.Standard)
    (hwin : isWindowsPlatform host platform = true) (args : List JsString) (argv : List JsString) :
    matchArgPattern host engine (patternOf args).source argv platform = true ↔
      joined ((argv.drop 1).map normalizeArg) = joined (args.map normalizeArg) := by
  have htext : argsStringOf (patternOf args).source argv = joined (argv.drop 1) := by
    simp only [argsStringOf, if_pos (nul_mem_source args), if_true, joined, List.length_eq_zero_iff]
  have htest (text : JsString) : engine.test (patternOf args).source text =
      some (accepts (patternOf args).words text) := hengine.test_source (literalPattern_plain _) text
  have haccepts (text : JsString) : accepts (patternOf args).words text = true ↔
      text = joined (args.map normalizeArg) := literalPattern_accepts
  rw [joined_normalize (argv.drop 1), matchArgPattern, htext, htest, hwin]
  by_cases hraw : accepts (patternOf args).words (joined (argv.drop 1)) = true
  · -- a join without slashes is its own normal form
    have hsame := (haccepts _).mp hraw
    rw [hraw]
    refine iff_of_true rfl ?_
    rw [hsame, joined_normalize, List.map_map]
    apply List.map_congr_left
    intro unit _
    exact backslashed_idem unit
  · rw [Bool.not_eq_true _ |>.mp hraw]
    simp only [if_true, htest, Option.getD_some, Bool.and_eq_true, decide_eq_true_eq, haccepts]
    constructor
    · rintro ⟨-, h⟩
      exact h
    · intro h
      refine ⟨fun hfixed => hraw ?_, h⟩
      rw [haccepts, ← h, hfixed]

/-! ## What a remembered approval binds -/

/-- The arguments up to the slash. -/
def SameArgs (args other : List JsString) : Prop := args.map normalizeArg = other.map normalizeArg

theorem confused_normalize {args other : List JsString} :
    Confused (args.map normalizeArg) (other.map normalizeArg) ↔ Confused args other := by
  have hempty (args : List JsString) : args.map normalizeArg = [[], []] ↔ args = [[], []] := by
    simp [List.map_eq_cons_iff, normalizeArg]
  simp only [Confused, List.map_eq_nil_iff, hempty]

theorem matchArgPattern_same {engine : RegExpEngine} (hengine : engine.Standard)
    (hwin : isWindowsPlatform host platform = true) {args : List JsString} (hargs : ∀ arg ∈ args, nul ∉ arg)
    {argv : List JsString} (hargv : ∀ arg ∈ argv, nul ∉ arg) :
    matchArgPattern host engine (patternOf args).source argv platform = true ↔
      SameArgs args (argv.drop 1) ∨ Confused args (argv.drop 1) := by
  have hdrop : ∀ arg ∈ argv.drop 1, nul ∉ arg := fun arg harg => hargv arg (List.mem_of_mem_drop harg)
  rw [matchArgPattern_iff hengine hwin, eq_comm,
    joined_inj (normalizeArg_free hargs) (normalizeArg_free hdrop), confused_normalize]
  rfl

theorem scriptArgsOf_mem {argv : List JsString} {scriptPath : JsString} {cwd : Option JsString} {arg : JsString}
    (h : arg ∈ scriptArgsOf host argv scriptPath cwd) : arg ∈ argv := by
  simp only [scriptArgsOf] at h
  split at h
  · exact List.mem_of_mem_drop h
  · split at h
    · exact List.mem_of_mem_drop h
    · cases h

theorem confused_not_same {args other : List JsString} (h : Confused args other) : ¬ SameArgs args other := by
  intro hsame
  rcases h with ⟨rfl, rfl⟩ | ⟨rfl, rfl⟩
  · cases hsame
  · cases hsame

/-- **A remembered approval binds its arguments, unless they are none and two empty ones**: both builders
write a pattern, and it accepts a command exactly when its arguments are the same up to the slash, for all
but the two lists with one join. -/
theorem argPattern_binds {engine : RegExpEngine} (hengine : engine.Standard)
    (hwin : isWindowsPlatform host platform = true) {a b : List JsString} (ha : ∀ arg ∈ a, nul ∉ arg)
    (hb : ∀ arg ∈ b, nul ∉ arg) (scriptPath : JsString) (cwd : Option JsString) :
    (∃ pattern, buildArgPatternFromArgv host a platform = some pattern ∧
      ((matchArgPattern host engine pattern b platform = true ↔ SameArgs (a.drop 1) (b.drop 1)) ↔
        ¬ Confused (a.drop 1) (b.drop 1))) ∧
    ∃ pattern, buildScriptArgPatternFromArgv host a scriptPath cwd platform = some pattern ∧
      ((matchArgPattern host engine pattern b platform = true ↔
          SameArgs (scriptArgsOf host a scriptPath cwd) (b.drop 1)) ↔
        ¬ Confused (scriptArgsOf host a scriptPath cwd) (b.drop 1)) := by
  have hbinds {args : List JsString} (hargs : ∀ arg ∈ args, nul ∉ arg) :
      (matchArgPattern host engine (patternOf args).source b platform = true ↔ SameArgs args (b.drop 1)) ↔
        ¬ Confused args (b.drop 1) := by
    rw [matchArgPattern_same hengine hwin hargs hb]
    constructor
    · intro h hconfused
      exact confused_not_same hconfused (h.mp (.inr hconfused))
    · intro h
      exact or_iff_left h
  refine ⟨⟨_, buildArgPattern_eq hwin a, hbinds fun arg harg => ha arg (List.mem_of_mem_drop harg)⟩, ?_⟩
  exact ⟨_, buildScriptArgPattern_eq hwin a scriptPath cwd, hbinds fun arg harg => ha arg (scriptArgsOf_mem harg)⟩

/-! ## Two empty arguments for none -/

/-- A Windows process in `C:\`; its lower case is that of ASCII. -/
def windowsHost : PathHost where
  cwd := units "C:\\"
  basename path := path.rtakeWhile fun unit => !(unit = unitOf '\\' || unit = unitOf '/')
  isAbsolute path := (units "C:\\").isPrefixOf path || (units "C:/").isPrefixOf path
  resolve base path := base ++ path
  toLowerCase text := text.map fun unit =>
    if 0x41 ≤ unit.val ∧ unit.val ≤ 0x5A then unitOfNat (unit.val + 0x20) else unit

/-- The pattern of `tool` accepts `tool "" ""`. -/
theorem noArgs_accepts_empty :
    buildArgPatternFromArgv windowsHost [units "tool"] (units "win32") = some noArgsPattern ∧
      matchArgPattern windowsHost plainEngine noArgsPattern [units "tool", [], []] (units "win32") = true ∧
      ¬ SameArgs [] [[], []] := by
  refine ⟨by decide, by decide, ?_⟩
  unfold SameArgs
  decide

/-- `argPattern_binds` for one argument with either slash. -/
theorem argPattern_binds_slash :
    (∃ pattern, buildArgPatternFromArgv windowsHost [units "tool", units "C:/a.b"] (units "win32") = some pattern ∧
      ((matchArgPattern windowsHost plainEngine pattern [units "tool", units "C:\\a.b"] (units "win32") = true ↔
          SameArgs [units "C:/a.b"] [units "C:\\a.b"]) ↔ ¬ Confused [units "C:/a.b"] [units "C:\\a.b"])) ∧
    ∃ pattern, buildScriptArgPatternFromArgv windowsHost [units "tool", units "C:/a.b"] (units "C:\\tool") none
        (units "win32") = some pattern ∧
      ((matchArgPattern windowsHost plainEngine pattern [units "tool", units "C:\\a.b"] (units "win32") = true ↔
          SameArgs (scriptArgsOf windowsHost [units "tool", units "C:/a.b"] (units "C:\\tool") none)
            [units "C:\\a.b"]) ↔
        ¬ Confused (scriptArgsOf windowsHost [units "tool", units "C:/a.b"] (units "C:\\tool") none)
            [units "C:\\a.b"]) :=
  argPattern_binds plainEngine_standard (by decide) (by decide) (by decide) (units "C:\\tool") none

end OpenClaw.Infra
