/-
# OpenClaw.Infra.WrapperTrustPlan -- the command behind its wrappers

`resolveExecWrapperTrustPlan` takes dispatch wrappers and shell multiplexers off a command until none is left, at
most `maxDispatchWrapperDepth` of them.  Where it is not blocked, the plan is a suffix of the input, behind every
wrapper.  An `env` goes as well if it has neither options nor assignments; but a lone dash empties the environment
too, and what stands where the command is expected may still be an assignment, so the environment of the command is
the given one exactly if neither stands there (`wrapper_plan_iff`).

This follows `exec-wrapper-trust-plan.ts` and the part of `shell-wrapper-resolution.ts` about multiplexers.  The
text that a planned shell is given to run is read off the planned words (see `ShellInlineCommand`) and is not in
the plan here.
-/
import OpenClaw.Infra.DispatchWrappers
import OpenClaw.Logic.Peeling

namespace OpenClaw.Infra

open OpenClaw.Data OpenClaw.Logic

variable (host : PathHost)

/-! ## Shell multiplexers -/

def shellWrapperNames : List JsString :=
  [units "ash", units "bash", units "dash", units "fish", units "ksh", units "sh", units "zsh", units "cmd",
    units "powershell", units "pwsh"]

def shellMultiplexerWrapperNames : List JsString := [units "busybox", units "toybox"]

def isShellWrapperExecutable (token : JsString) : Bool :=
  shellWrapperNames.contains (normalizeExecutableToken host token)

def unwrapKnownShellMultiplexerInvocation (argv : List JsString) : WrapperUnwrapResult :=
  if firstToken argv = [] then .notWrapper
  else
    let wrapper := normalizeExecutableToken host (firstToken argv)
    if !shellMultiplexerWrapperNames.contains wrapper then .notWrapper
    else
      let appletIndex := if argv[1]?.map trimUnits = some (units "--") then 2 else 1
      let applet := trimUnits (argv[appletIndex]?.getD [])
      if applet = [] || !isShellWrapperExecutable host applet then .blocked wrapper
      else if argv.drop appletIndex = [] then .blocked wrapper
      else .unwrapped wrapper (argv.drop appletIndex)

/-! ## The plan -/

structure ExecWrapperTrustPlan where
  argv : List JsString
  policyArgv : List JsString
  wrapperChain : List JsString
  blockedWrapper : Option JsString
  shellWrapperExecutable : Bool
  deriving DecidableEq

/-- A plan is blocked exactly if it names the wrapper. -/
def ExecWrapperTrustPlan.policyBlocked (plan : ExecWrapperTrustPlan) : Bool := plan.blockedWrapper.isSome

def blockedExecWrapperTrustPlan (argv policyArgv wrapperChain : List JsString) (blockedWrapper : JsString) :
    ExecWrapperTrustPlan := ⟨argv, policyArgv, wrapperChain, some blockedWrapper, false⟩

def finalizeExecWrapperTrustPlan (argv policyArgv wrapperChain : List JsString) : ExecWrapperTrustPlan :=
  ⟨argv, policyArgv, wrapperChain, none, firstToken argv ≠ [] && isShellWrapperExecutable host (firstToken argv)⟩

/-- Behind the loop: too many wrappers block. -/
def execPlanEnd (maxDepth : Nat) (platform : Platform) (current policyArgv wrapperChain : List JsString) :
    ExecWrapperTrustPlan :=
  if maxDepth ≤ wrapperChain.length then
    match unwrapKnownDispatchWrapperInvocation host current platform with
    | .blocked wrapper => blockedExecWrapperTrustPlan current policyArgv wrapperChain wrapper
    | .unwrapped wrapper _ => blockedExecWrapperTrustPlan current policyArgv wrapperChain wrapper
    | .notWrapper =>
      match unwrapKnownShellMultiplexerInvocation host current with
      | .blocked wrapper => blockedExecWrapperTrustPlan current policyArgv wrapperChain wrapper
      | .unwrapped wrapper _ => blockedExecWrapperTrustPlan current policyArgv wrapperChain wrapper
      | .notWrapper => finalizeExecWrapperTrustPlan host current policyArgv wrapperChain
  else finalizeExecWrapperTrustPlan host current policyArgv wrapperChain

/-- The loop, with so many rounds left. -/
def execPlanFrom (maxDepth : Nat) (platform : Platform) :
    Nat → List JsString → List JsString → Bool → List JsString → ExecWrapperTrustPlan
  | 0, current, policyArgv, _, wrapperChain => execPlanEnd host maxDepth platform current policyArgv wrapperChain
  | rounds + 1, current, policyArgv, sawShellMultiplexer, wrapperChain =>
    let dispatchPlan := resolveDispatchWrapperTrustPlan host current (maxDepth - wrapperChain.length) platform
    match dispatchPlan.blockedWrapper with
    | some wrapper => blockedExecWrapperTrustPlan dispatchPlan.argv dispatchPlan.argv wrapperChain wrapper
    | none =>
      if dispatchPlan.wrappers ≠ [] then
        let wrapperChain := wrapperChain ++ dispatchPlan.wrappers
        let policyArgv := if sawShellMultiplexer then policyArgv else dispatchPlan.argv
        if maxDepth ≤ wrapperChain.length then
          execPlanEnd host maxDepth platform dispatchPlan.argv policyArgv wrapperChain
        else execPlanFrom maxDepth platform rounds dispatchPlan.argv policyArgv sawShellMultiplexer wrapperChain
      else
        match unwrapKnownShellMultiplexerInvocation host current with
        | .blocked wrapper => blockedExecWrapperTrustPlan current policyArgv wrapperChain wrapper
        | .notWrapper => execPlanEnd host maxDepth platform current policyArgv wrapperChain
        | .unwrapped wrapper argv =>
          let wrapperChain := wrapperChain ++ [wrapper]
          -- the policy sees the multiplexer, not the shell behind it
          let policyArgv := if sawShellMultiplexer then policyArgv else current
          if maxDepth ≤ wrapperChain.length then execPlanEnd host maxDepth platform argv policyArgv wrapperChain
          else execPlanFrom maxDepth platform rounds argv policyArgv true wrapperChain

attribute [grind =] execPlanFrom

def resolveExecWrapperTrustPlan (argv : List JsString) (maxDepth : Nat) (platform : Platform) :
    ExecWrapperTrustPlan := execPlanFrom host maxDepth platform maxDepth argv argv false []

/-! ## Wrappers, one at a time -/

/-- The outermost wrapper and what is behind it: a dispatch wrapper in transparent use, or a multiplexer. -/
def peelWrapper (platform : Platform) (argv : List JsString) : Option (JsString × List JsString) :=
  match unwrapKnownDispatchWrapperInvocation host argv platform with
  | .blocked _ => none
  | .unwrapped wrapper next =>
    if isSemanticDispatchWrapperUsage host wrapper argv platform then none else some (wrapper, next)
  | .notWrapper =>
    match unwrapKnownShellMultiplexerInvocation host argv with
    | .unwrapped wrapper next => some (wrapper, next)
    | _ => none

attribute [grind =] peelWrapper

/-- Neither a dispatch wrapper nor a multiplexer. -/
structure IsCommand (platform : Platform) (argv : List JsString) : Prop where
  dispatch : unwrapKnownDispatchWrapperInvocation host argv platform = .notWrapper
  multiplexer : unwrapKnownShellMultiplexerInvocation host argv = .notWrapper

section Peeling

variable {platform : Platform} {argv next : List JsString} {wrapper : JsString}

theorem IsCommand.peel_none (h : IsCommand host platform argv) : peelWrapper host platform argv = none := by
  rw [peelWrapper, h.dispatch]
  dsimp only
  rw [h.multiplexer]

theorem multiplexer_suffix (h : unwrapKnownShellMultiplexerInvocation host argv = .unwrapped wrapper next) :
    next <:+ argv := by
  unfold unwrapKnownShellMultiplexerInvocation at h
  split at h
  · contradiction
  · dsimp only at h
    split at h
    · contradiction
    · generalize (if argv[1]?.map trimUnits = some (units "--") then 2 else 1) = appletIndex at h
      split at h
      · contradiction
      · split at h
        · contradiction
        · obtain ⟨-, rfl⟩ := WrapperUnwrapResult.unwrapped.inj h
          exact List.drop_suffix _ _

theorem peelWrapper_dispatch (h : unwrapKnownDispatchWrapperInvocation host argv platform = .unwrapped wrapper next)
    (hsemantic : isSemanticDispatchWrapperUsage host wrapper argv platform = false) :
    peelWrapper host platform argv = some (wrapper, next) := by
  rw [peelWrapper, h]
  dsimp only
  rw [hsemantic, if_neg Bool.false_ne_true]

theorem peelWrapper_multiplexer (hdispatch : unwrapKnownDispatchWrapperInvocation host argv platform = .notWrapper)
    (h : unwrapKnownShellMultiplexerInvocation host argv = .unwrapped wrapper next) :
    peelWrapper host platform argv = some (wrapper, next) := by
  rw [peelWrapper, hdispatch]
  dsimp only
  rw [h]

/-- What a peeled wrapper is. -/
theorem peelWrapper_cases (h : peelWrapper host platform argv = some (wrapper, next)) :
    (unwrapKnownDispatchWrapperInvocation host argv platform = .unwrapped wrapper next ∧
        isSemanticDispatchWrapperUsage host wrapper argv platform = false) ∨
      (unwrapKnownDispatchWrapperInvocation host argv platform = .notWrapper ∧
        unwrapKnownShellMultiplexerInvocation host argv = .unwrapped wrapper next) := by
  unfold peelWrapper at h
  split at h
  · contradiction
  case h_2 wrapper' next' hdispatch =>
    split at h
    · contradiction
    case isFalse hsemantic =>
      obtain ⟨rfl, rfl⟩ := Prod.mk.inj (Option.some.inj h)
      exact Or.inl ⟨hdispatch, Bool.eq_false_iff.mpr hsemantic⟩
  case h_3 hdispatch =>
    split at h
    case h_1 wrapper' next' hmultiplexer =>
      obtain ⟨rfl, rfl⟩ := Prod.mk.inj (Option.some.inj h)
      exact Or.inr ⟨hdispatch, hmultiplexer⟩
    · contradiction

theorem peelWrapper_suffix (h : peelWrapper host platform argv = some (wrapper, next)) : next <:+ argv := by
  rcases peelWrapper_cases host h with ⟨hdispatch, hsemantic⟩ | ⟨-, hmultiplexer⟩
  · exact (dispatch_sound host hdispatch).2 hsemantic
  · exact multiplexer_suffix host hmultiplexer

theorem peels_suffix {layers : List (JsString × List JsString)}
    (h : Peels (peelWrapper host platform) argv layers next) : next <:+ argv :=
  h.invariant (R := fun before after => after <:+ before) (fun _ => List.suffix_rfl) (fun h h' => h'.trans h)
    fun h => peelWrapper_suffix host h

end Peeling

/-! ## Plans and wrappers -/

section Plans

variable {platform : Platform} {maxDepth : Nat}

theorem dispatchPlanEnd_open {current wrappers : List JsString}
    (hopen : (dispatchPlanEnd host maxDepth platform current wrappers).blockedWrapper = none) :
    dispatchPlanEnd host maxDepth platform current wrappers = ⟨current, wrappers, none⟩ ∧
      (maxDepth ≤ wrappers.length → unwrapKnownDispatchWrapperInvocation host current platform = .notWrapper) := by
  unfold dispatchPlanEnd at hopen ⊢
  split at hopen
  case isTrue hdeep =>
    rw [if_pos hdeep]
    split at hopen
    · contradiction
    · contradiction
    case h_3 hdispatch =>
      rw [hdispatch]
      exact ⟨rfl, fun _ => rfl⟩
  case isFalse hdeep =>
    rw [if_neg hdeep]
    exact ⟨rfl, fun h => absurd h hdeep⟩

/-- The loop over dispatch wrappers: where it does not block, it has taken off all of them. -/
theorem dispatchPlanFrom_open (rounds : Nat) : ∀ {current wrappers : List JsString},
    maxDepth ≤ wrappers.length + rounds →
    (dispatchPlanFrom host maxDepth platform rounds current wrappers).blockedWrapper = none →
    ∃ layers, Peels (peelWrapper host platform) current layers
        (dispatchPlanFrom host maxDepth platform rounds current wrappers).argv ∧
      (dispatchPlanFrom host maxDepth platform rounds current wrappers).wrappers = wrappers ++ layers.map Prod.fst ∧
      layers.length ≤ rounds ∧ unwrapKnownDispatchWrapperInvocation host
        (dispatchPlanFrom host maxDepth platform rounds current wrappers).argv platform = .notWrapper := by
  induction rounds with
  | zero =>
    intro current wrappers hdepth hopen
    rw [dispatchPlanFrom] at hopen ⊢
    obtain ⟨hplan, hdispatch⟩ := dispatchPlanEnd_open host hopen
    rw [hplan]
    refine ⟨[], .done current, ?_, Nat.le_refl 0, hdispatch hdepth⟩
    rw [List.map_nil, List.append_nil]
  | succ rounds ih =>
    intro current wrappers hdepth hopen
    rw [dispatchPlanFrom] at hopen ⊢
    cases hdispatch : unwrapKnownDispatchWrapperInvocation host current platform with
    | blocked wrapper =>
      rw [hdispatch] at hopen
      contradiction
    | notWrapper =>
      rw [hdispatch] at hopen
      dsimp only at hopen ⊢
      obtain ⟨hplan, -⟩ := dispatchPlanEnd_open host hopen
      rw [hplan]
      refine ⟨[], .done current, ?_, Nat.zero_le _, hdispatch⟩
      rw [List.map_nil, List.append_nil]
    | unwrapped wrapper argv =>
      rw [hdispatch] at hopen
      dsimp only at hopen ⊢
      obtain ⟨hne, -⟩ := dispatch_sound host hdispatch
      rw [if_neg hne] at hopen ⊢
      cases hsemantic : isSemanticDispatchWrapperUsage host wrapper current platform with
      | true =>
        rw [hsemantic] at hopen
        contradiction
      | false =>
        rw [hsemantic, if_neg Bool.false_ne_true] at hopen
        rw [if_neg Bool.false_ne_true]
        have hdepth' : maxDepth ≤ (wrappers ++ [wrapper]).length + rounds := by
          rw [List.length_append, List.length_singleton]
          omega
        obtain ⟨layers, hpeels, hwrappers, hlength, hend⟩ := ih hdepth' hopen
        refine ⟨(wrapper, current) :: layers, ?_, ?_, ?_, hend⟩
        · exact .layer (peelWrapper_dispatch host hdispatch hsemantic) hpeels
        · rw [hwrappers, List.append_assoc]
          rfl
        · rw [List.length_cons]
          omega

theorem execPlanEnd_open {current policyArgv wrapperChain : List JsString}
    (hopen : (execPlanEnd host maxDepth platform current policyArgv wrapperChain).blockedWrapper = none) :
    execPlanEnd host maxDepth platform current policyArgv wrapperChain =
        finalizeExecWrapperTrustPlan host current policyArgv wrapperChain ∧
      (maxDepth ≤ wrapperChain.length → IsCommand host platform current) := by
  unfold execPlanEnd at hopen ⊢
  split at hopen
  case isTrue hdeep =>
    rw [if_pos hdeep]
    split at hopen
    · contradiction
    · contradiction
    case h_3 hdispatch =>
      split at hopen
      · contradiction
      · contradiction
      case h_3 hmultiplexer =>
        exact ⟨rfl, fun _ => ⟨hdispatch, hmultiplexer⟩⟩
  case isFalse hdeep =>
    rw [if_neg hdeep]
    exact ⟨rfl, fun h => absurd h hdeep⟩

/-- What the loop over all wrappers ends with. -/
structure PlannedFrom (maxDepth : Nat) (platform : Platform) (current wrapperChain : List JsString)
    (plan : ExecWrapperTrustPlan) : Prop where
  peeled : ∃ layers, Peels (peelWrapper host platform) current layers plan.argv ∧
    plan.wrapperChain = wrapperChain ++ layers.map Prod.fst
  depth : plan.wrapperChain.length ≤ maxDepth
  command : IsCommand host platform plan.argv

theorem planned_end {current policyArgv wrapperChain : List JsString} (hle : wrapperChain.length ≤ maxDepth)
    (hcommand : wrapperChain.length < maxDepth → IsCommand host platform current)
    (hopen : (execPlanEnd host maxDepth platform current policyArgv wrapperChain).blockedWrapper = none) :
    PlannedFrom host maxDepth platform current wrapperChain
      (execPlanEnd host maxDepth platform current policyArgv wrapperChain) := by
  obtain ⟨hplan, hdeep⟩ := execPlanEnd_open host hopen
  rw [hplan]
  refine ⟨⟨[], .done current, ?_⟩, hle, ?_⟩
  · rw [List.map_nil, List.append_nil]
    rfl
  · rcases Nat.lt_or_ge wrapperChain.length maxDepth with hlt | hge
    · exact hcommand hlt
    · exact hdeep hge

/-- Layers in front of a plan. -/
theorem PlannedFrom.front {current next wrapperChain : List JsString} {layers : List (JsString × List JsString)}
    {plan : ExecWrapperTrustPlan} (hpeels : Peels (peelWrapper host platform) current layers next)
    (h : PlannedFrom host maxDepth platform next (wrapperChain ++ layers.map Prod.fst) plan) :
    PlannedFrom host maxDepth platform current wrapperChain plan := by
  obtain ⟨⟨layers', hpeels', hchain⟩, hdepth, hcommand⟩ := h
  refine ⟨⟨layers ++ layers', hpeels.trans hpeels', ?_⟩, hdepth, hcommand⟩
  rw [hchain, List.map_append, List.append_assoc]

/-- **The loop over all wrappers**: where it does not block, it has taken off all of them. -/
theorem execPlanFrom_open (rounds : Nat) : ∀ {current policyArgv wrapperChain : List JsString} {saw : Bool},
    maxDepth ≤ wrapperChain.length + rounds → wrapperChain.length ≤ maxDepth →
    (0 < rounds → wrapperChain.length < maxDepth) →
    (execPlanFrom host maxDepth platform rounds current policyArgv saw wrapperChain).blockedWrapper = none →
    PlannedFrom host maxDepth platform current wrapperChain
      (execPlanFrom host maxDepth platform rounds current policyArgv saw wrapperChain) := by
  induction rounds with
  | zero =>
    intro current policyArgv wrapperChain saw hrounds hle hroom hopen
    rw [execPlanFrom] at hopen ⊢
    exact planned_end host hle (fun hlt => absurd hrounds (by omega)) hopen
  | succ rounds ih =>
    intro current policyArgv wrapperChain saw hrounds hle hroom hopen
    have hlt : wrapperChain.length < maxDepth := hroom (Nat.succ_pos rounds)
    -- after another layer at least, the loop ends or goes on
    have hnext : ∀ {next : List JsString} {layers : List (JsString × List JsString)} {policyArgv : List JsString}
        {saw : Bool}, Peels (peelWrapper host platform) current layers next → layers ≠ [] →
        (wrapperChain ++ layers.map Prod.fst).length ≤ maxDepth → ∀ {plan : ExecWrapperTrustPlan},
        plan = (if maxDepth ≤ (wrapperChain ++ layers.map Prod.fst).length then
            execPlanEnd host maxDepth platform next policyArgv (wrapperChain ++ layers.map Prod.fst)
          else execPlanFrom host maxDepth platform rounds next policyArgv saw (wrapperChain ++ layers.map Prod.fst)) →
        plan.blockedWrapper = none → PlannedFrom host maxDepth platform current wrapperChain plan := by
      intro next layers policyArgv saw hpeels hne hdepth plan hplan hopen
      apply PlannedFrom.front host hpeels
      split at hplan
      case isTrue hdeep =>
        rw [hplan] at hopen ⊢
        exact planned_end host hdepth (fun hlt => absurd hdeep (by omega)) hopen
      case isFalse hdeep =>
        rw [hplan] at hopen ⊢
        have hpos := List.length_pos_of_ne_nil hne
        have hlength : (wrapperChain ++ layers.map Prod.fst).length = wrapperChain.length + layers.length := by
          rw [List.length_append, List.length_map]
        exact ih (by omega) hdepth (fun _ => by omega) hopen
    rw [execPlanFrom] at hopen ⊢
    dsimp only at hopen ⊢
    cases hblocked : (resolveDispatchWrapperTrustPlan host current (maxDepth - wrapperChain.length)
        platform).blockedWrapper with
    | some wrapper =>
      rw [hblocked] at hopen
      contradiction
    | none =>
      rw [hblocked] at hopen
      dsimp only at hopen ⊢
      obtain ⟨layers, hpeels, hwrappers, hlength, hdispatch⟩ :=
        dispatchPlanFrom_open host (maxDepth - wrapperChain.length) (by simp) hblocked
      rw [List.nil_append] at hwrappers
      have hwrappers' : (resolveDispatchWrapperTrustPlan host current (maxDepth - wrapperChain.length)
          platform).wrappers = layers.map Prod.fst := hwrappers
      rw [hwrappers'] at hopen ⊢
      by_cases hlayers : layers = []
      · -- no dispatch wrapper is left
        rw [hlayers] at hpeels
        have hsame : (resolveDispatchWrapperTrustPlan host current (maxDepth - wrapperChain.length)
            platform).argv = current := by
          generalize hargv : (resolveDispatchWrapperTrustPlan host current (maxDepth - wrapperChain.length)
            platform).argv = argv
          have hpeels' : Peels (peelWrapper host platform) current [] argv := by
            rw [← hargv]
            exact hpeels
          cases hpeels'
          rfl
        have hnot : unwrapKnownDispatchWrapperInvocation host current platform = .notWrapper := by
          rw [← hsame]
          exact hdispatch
        rw [hlayers, List.map_nil, if_neg (by simp)] at hopen ⊢
        cases hmultiplexer : unwrapKnownShellMultiplexerInvocation host current with
        | blocked wrapper =>
          rw [hmultiplexer] at hopen
          contradiction
        | notWrapper =>
          rw [hmultiplexer] at hopen
          dsimp only at hopen ⊢
          exact planned_end host hle (fun _ => ⟨hnot, hmultiplexer⟩) hopen
        | unwrapped wrapper argv =>
          rw [hmultiplexer] at hopen
          dsimp only at hopen ⊢
          have hone := Peels.one (peelWrapper_multiplexer host hnot hmultiplexer)
          apply hnext hone (List.cons_ne_nil _ _) _ rfl hopen
          rw [List.length_append, List.length_map, List.length_singleton]
          omega
      · rw [if_pos (by simpa using hlayers)] at hopen ⊢
        apply hnext hpeels hlayers _ rfl hopen
        rw [List.length_append, List.length_map]
        omega

theorem resolveExecWrapperTrustPlan_open {argv : List JsString}
    (hopen : (resolveExecWrapperTrustPlan host argv maxDepth platform).blockedWrapper = none) :
    PlannedFrom host maxDepth platform argv [] (resolveExecWrapperTrustPlan host argv maxDepth platform) :=
  execPlanFrom_open host maxDepth (by simp) (Nat.zero_le _) (fun h => h) hopen

/-- A command is its own plan. -/
theorem resolveExecWrapperTrustPlan_command {argv : List JsString} (h : IsCommand host platform argv) :
    resolveExecWrapperTrustPlan host argv maxDepth platform = finalizeExecWrapperTrustPlan host argv argv [] := by
  have hend : ∀ policyArgv wrapperChain, execPlanEnd host maxDepth platform argv policyArgv wrapperChain =
      finalizeExecWrapperTrustPlan host argv policyArgv wrapperChain := by
    intro policyArgv wrapperChain
    rw [execPlanEnd, h.dispatch]
    dsimp only
    rw [h.multiplexer, ite_self]
  have hdispatch : ∀ depth, resolveDispatchWrapperTrustPlan host argv depth platform = ⟨argv, [], none⟩ := by
    intro depth
    cases depth with
    | zero => rw [resolveDispatchWrapperTrustPlan, dispatchPlanFrom, dispatchPlanEnd, h.dispatch, ite_self]
    | succ depth =>
      rw [resolveDispatchWrapperTrustPlan, dispatchPlanFrom, h.dispatch]
      dsimp only
      rw [dispatchPlanEnd, h.dispatch, ite_self]
  cases maxDepth with
  | zero => exact hend argv []
  | succ depth =>
    rw [resolveExecWrapperTrustPlan, execPlanFrom, hdispatch]
    dsimp only
    rw [if_neg (by simp), h.multiplexer]
    exact hend argv []

end Plans

/-! ## Environments -/

section Environments

variable (platform : Platform)

def isEnvInvocation (argv : List JsString) : Bool :=
  firstToken argv ≠ [] && normalizeExecutableToken host (firstToken argv) = units "env"

/-- In front of a command `env` empties the environment at a lone dash, and every word with an equals sign assigns. -/
def envOperandChanges (word : JsString) : Bool := word = [dash] || word.contains equalsSign

/-- **How `env` reads its words**: an option, a lone dash or an assignment in front of the command changes the
environment; two dashes end the options, but not the assignments. -/
def envChangesEnvironment (argv : List JsString) : Bool :=
  match argv.drop 1 with
  | [] => false
  | word :: rest =>
    if word = units "--" then rest.head?.any envOperandChanges
    else word[0]? = some dash || envOperandChanges word

/-- The word where the command should be: the first one, or the one behind two dashes. -/
def envCommandWord (argv : List JsString) : Option JsString :=
  match argv.drop 1 with
  | [] => none
  | word :: rest => if word = units "--" then rest.head? else some word

/-- Of the words that taking off wrappers leads to, no invocation of `env` has a lone dash or a word with an equals
sign where its command should be. -/
def NoHiddenEnvChange (argv : List JsString) : Prop :=
  ∀ layers stage, Peels (peelWrapper host platform) argv layers stage → isEnvInvocation host stage = true →
    ∀ word, envCommandWord stage = some word → word ≠ [dash] ∧ word.contains equalsSign = false

/-- **The command behind its wrappers.** -/
structure UnwrapsToCommand (argv : List JsString) (plan : ExecWrapperTrustPlan) : Prop where
  suffix : plan.argv <:+ argv
  command : IsCommand host platform plan.argv
  replanned : resolveExecWrapperTrustPlan host plan.argv maxDispatchWrapperDepth platform =
    finalizeExecWrapperTrustPlan host plan.argv plan.argv []
  depth : plan.wrapperChain.length ≤ 4
  environment : ∃ removed, Peels (peelWrapper host platform) argv removed plan.argv ∧
    plan.wrapperChain = removed.map Prod.fst ∧
    ∀ layer ∈ removed, isEnvInvocation host layer.2 = true → envChangesEnvironment layer.2 = false

end Environments

section Environments

variable {platform : Platform} {argv next : List JsString} {wrapper : JsString}

theorem dispatchWrapperSpec_env : dispatchWrapperSpec host (units "env") =
    some ⟨units "env", some fun argv _ => unwrapEnvInvocation host argv,
      fun argv _ => !envInvocationUsesModifiers host argv⟩ := rfl

/-- An `env` invocation is a dispatch wrapper. -/
theorem env_wrapper (henv : isEnvInvocation host argv = true) :
    unwrapKnownDispatchWrapperInvocation host argv platform ≠ .notWrapper := by
  intro hdispatch
  simp only [isEnvInvocation, Bool.and_eq_true, decide_eq_true_eq] at henv
  rw [unwrapKnownDispatchWrapperInvocation, if_neg henv.1] at hdispatch
  dsimp only at hdispatch
  rw [henv.2, dispatchWrapperSpec_env] at hdispatch
  dsimp only at hdispatch
  cases hunwrap : unwrapEnvInvocation host argv with
  | none =>
    rw [hunwrap] at hdispatch
    contradiction
  | some words =>
    rw [hunwrap] at hdispatch
    contradiction

/-- An `env` invocation that is taken off has no modifiers. -/
theorem env_unmodified (henv : isEnvInvocation host argv = true)
    (h : peelWrapper host platform argv = some (wrapper, next)) :
    envInvocationUsesModifiers host argv = false ∧ unwrapEnvInvocation host argv = some next := by
  rcases peelWrapper_cases host h with ⟨hdispatch, hsemantic⟩ | ⟨hdispatch, -⟩
  · simp only [isEnvInvocation, Bool.and_eq_true, decide_eq_true_eq] at henv
    obtain ⟨-, hwrapper, spec, unwrap, hspec, hunwrap, hnext⟩ := dispatch_unwrapped host hdispatch
    rw [hwrapper, henv.2, dispatchWrapperSpec_env] at hspec
    rw [isSemanticDispatchWrapperUsage, hwrapper, henv.2, dispatchWrapperSpec_env] at hsemantic
    obtain rfl := Option.some.inj hspec
    obtain rfl := Option.some.inj hunwrap
    exact ⟨by simpa using hsemantic, hnext⟩
  · exact absurd hdispatch (env_wrapper host henv)

/-- What a removed `env` invocation changes shows where its command should be. -/
theorem env_changes_iff (henv : isEnvInvocation host argv = true)
    (h : peelWrapper host platform argv = some (wrapper, next)) : envChangesEnvironment argv = false ↔
      ∀ word, envCommandWord argv = some word → word ≠ [dash] ∧ word.contains equalsSign = false := by
  obtain ⟨hmodifiers, hunwrap⟩ := env_unmodified host henv h
  obtain ⟨parsed, hparsed, -⟩ := Option.map_eq_some_iff.mp hunwrap
  rw [envInvocationUsesModifiers, hparsed] at hmodifiers
  rw [parseEnvInvocationPrelude, envPreludeWithin] at hparsed
  split at hparsed
  · contradiction
  · obtain ⟨-, token, rest, hwords, htoken⟩ := envPrelude_unmodified hparsed hmodifiers
    have hoperand : ∀ word : JsString, envOperandChanges word = false ↔
        word ≠ [dash] ∧ word.contains equalsSign = false := by
      intro word
      rw [envOperandChanges, Bool.or_eq_false_iff, decide_eq_false_iff_not]
    rw [envChangesEnvironment, envCommandWord, hwords]
    dsimp only
    by_cases hdashes : token = units "--"
    · rw [if_pos hdashes, if_pos hdashes]
      cases rest with
      | nil => simp
      | cons word rest => simpa using hoperand word
    · rw [if_neg hdashes, if_neg hdashes, Bool.or_eq_false_iff, decide_eq_false_iff_not, hoperand]
      constructor
      · rintro ⟨-, hchanges⟩ word hword
        obtain rfl := Option.some.inj hword
        exact hchanges
      · intro hchanges
        refine ⟨?_, hchanges token rfl⟩
        rcases htoken with htwo | hone | hplain
        · exact absurd htwo hdashes
        · exact absurd hone (hchanges token rfl).1
        · exact hplain

/-- **Unwrapping ends at the real command**, in its own environment exactly if no change of it is hidden where an
`env` expects its command. -/
theorem wrapper_plan_iff
    (hopen : (resolveExecWrapperTrustPlan host argv maxDispatchWrapperDepth platform).policyBlocked = false) :
    UnwrapsToCommand host platform argv (resolveExecWrapperTrustPlan host argv maxDispatchWrapperDepth platform) ↔
      NoHiddenEnvChange host platform argv := by
  have hnone : (resolveExecWrapperTrustPlan host argv maxDispatchWrapperDepth platform).blockedWrapper = none := by
    simpa [ExecWrapperTrustPlan.policyBlocked] using hopen
  obtain ⟨⟨removed, hpeels, hchain⟩, hdepth, hcommand⟩ := resolveExecWrapperTrustPlan_open host hnone
  constructor
  · rintro ⟨-, -, -, -, removed', hpeels', -, hclean⟩ layers stage hstage henv
    rcases hpeels'.reached hcommand.peel_none hstage with rfl | ⟨name, hmem⟩
    · exact absurd hcommand.dispatch (env_wrapper host henv)
    · obtain ⟨-, next, hpeel⟩ := hpeels'.of_mem _ hmem
      exact (env_changes_iff host henv hpeel).mp (hclean _ hmem henv)
  · intro hhidden
    refine ⟨peels_suffix host hpeels, hcommand, resolveExecWrapperTrustPlan_command host hcommand, hdepth, removed,
      hpeels, hchain, ?_⟩
    intro layer hlayer henv
    obtain ⟨⟨before, hbefore⟩, next, hpeel⟩ := hpeels.of_mem layer hlayer
    exact (env_changes_iff host henv hpeel).mpr (hhidden before layer.2 hbefore henv)

end Environments

/-- A Linux process; its lower case is that of ASCII. -/
def linuxHost : PathHost :=
  { windowsHost with
    cwd := units "/"
    basename := posixBasename
    isAbsolute := (units "/").isPrefixOf }

theorem wrapper_plan_nice : UnwrapsToCommand linuxHost .linux [units "nice", units "rg"]
        (resolveExecWrapperTrustPlan linuxHost [units "nice", units "rg"] maxDispatchWrapperDepth .linux) ↔
      NoHiddenEnvChange linuxHost .linux [units "nice", units "rg"] :=
  wrapper_plan_iff linuxHost (by decide)

/-- `env - rg` is planned as `rg`, and `env -- A=1 rg` as `A=1 rg`. -/
theorem env_change_hidden :
    (resolveExecWrapperTrustPlan linuxHost [units "env", units "-", units "rg"] maxDispatchWrapperDepth
        .linux).policyBlocked = false ∧
      ¬UnwrapsToCommand linuxHost .linux [units "env", units "-", units "rg"]
        (resolveExecWrapperTrustPlan linuxHost [units "env", units "-", units "rg"] maxDispatchWrapperDepth .linux) ∧
      (resolveExecWrapperTrustPlan linuxHost [units "env", units "--", units "A=1", units "rg"]
        maxDispatchWrapperDepth .linux).argv = [units "A=1", units "rg"] := by
  refine ⟨by decide, ?_, by decide⟩
  rintro ⟨-, -, -, -, removed, hpeels, -, hclean⟩
  cases hpeels with
  | layer hpeel hrest =>
    have henv : isEnvInvocation linuxHost [units "env", units "-", units "rg"] = true := by decide
    have hunchanged : envChangesEnvironment [units "env", units "-", units "rg"] = false :=
      hclean _ List.mem_cons_self henv
    revert hunchanged
    decide

end OpenClaw.Infra
