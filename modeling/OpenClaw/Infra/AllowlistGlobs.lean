/-
# OpenClaw.Infra.AllowlistGlobs -- which paths an allowlist glob matches

The language of a glob is a word pattern: `*` is a run without slashes, `**` any run, `?` one character that is no
slash, and everything else itself.  The compiled expression has this language, but for `**`, whose `.` matches no
line terminator; and both texts are changed before, where every two backslashes become a slash and backslashes
can make a dot segment.  `matches_iff_language` says where that shows.
-/
import OpenClaw.Infra.ExecAllowlistPattern

namespace OpenClaw.Infra

open OpenClaw.Data

/-! ## Languages -/

def notSlash (unit : CodeUnit) : Bool := unit ≠ slash

def globStep (ch : CodeUnit) : PatternStep CodeUnit :=
  if ch = star then .run notSlash else if ch = unitOf '?' then .once notSlash else .once (· = ch)

/-- The words of a glob, with a `**` that reads runs of what `deep` admits. -/
def globWords (deep : CodeUnit → Bool) : JsString → WordPattern CodeUnit
  | [] => []
  | [ch] => [globStep ch]
  | ch :: next :: rest =>
    if ch = star && next = star then .run deep :: globWords deep rest else globStep ch :: globWords deep (next :: rest)

/-- The language of a pattern. -/
def InGlob (pattern target : JsString) : Prop := Accepts (globWords (fun _ => true) pattern) target

/-- The same, where no `**` covers a line terminator. -/
def InGlobByLines (pattern target : JsString) : Prop :=
  Accepts (globWords (fun unit => !isLineTerminator unit) pattern) target

/-- The target belongs to the language of the trimmed and expanded pattern, with its dot segments resolved when
the pattern has a wildcard. -/
def InLanguage (home : Option JsString) (pattern target : JsString) : Prop :=
  InGlob (expandPattern home pattern) (if hasWildcard (expandPattern home pattern) then resolveDots target else target)

/-! ## Where the two agree -/

/-- No two backslashes stand side by side. -/
def NoBackslashPair (text : JsString) : Prop := text.IsChain fun a b => ¬ (a = backslash ∧ b = backslash)

instance (text : JsString) : Decidable (NoBackslashPair text) :=
  inferInstanceAs (Decidable (text.IsChain fun a b => ¬ (a = backslash ∧ b = backslash)))

/-- The backslashes of a pattern and a target mean nothing to the matcher: none stand side by side, and none makes
a dot segment, unless normalizing the target would leave it as it is. -/
structure PlainBackslashes (expanded target : JsString) : Prop where
  patternPairs : NoBackslashPair expanded
  targetPairs : NoBackslashPair target
  dots : hasDotPathSegment target = hasDotSegment target ∨ posixNormalize target = target

/-- Of a pattern without wildcards: it is the target, or still differs from it when every two backslashes are a
slash.  Of a glob: a resolved target in its language is in it with no line terminator under a `**`. -/
def MatchesAsWritten (expanded target : JsString) : Prop :=
  if hasWildcard expanded then InGlob expanded (resolveDots target) → InGlobByLines expanded (resolveDots target)
  else expanded = target ∨ normalizeMatchTarget expanded ≠ normalizeMatchTarget target

/-! ## The compiled expression -/

def globTerm (ch : CodeUnit) : RegTerm :=
  if ch = star then .star (.notIn [slash]) else if ch = unitOf '?' then .once (.notIn [slash]) else .once (.literal ch)

def globTerms : JsString → RegPattern
  | [] => []
  | [ch] => [globTerm ch]
  | ch :: next :: rest =>
    if ch = star && next = star then .star .dot :: globTerms rest else globTerm ch :: globTerms (next :: rest)

theorem globTerm_source (ch : CodeUnit) : (globTerm ch).source = globUnit ch := by
  unfold globTerm globUnit
  split
  · decide
  · split
    · decide
    · rw [escapeRegExpLiteral_eq]
      simp [RegTerm.source, RegAtom.source]

theorem globTerm_plain (ch : CodeUnit) : (globTerm ch).Plain := by
  have hclass : ∀ unit ∈ [slash], isClassUnit unit = true := List.forall_mem_singleton.mpr (by decide)
  unfold globTerm
  split
  · exact hclass
  · split
    · exact hclass
    · trivial

theorem globTerm_step (ch : CodeUnit) : (globTerm ch).step = globStep ch := by
  have hadmits : (RegAtom.notIn [slash]).admits = notSlash := by
    funext unit
    simp [RegAtom.admits, notSlash]
  unfold globTerm globStep
  split
  · rw [RegTerm.step, hadmits]
  · split
    · rw [RegTerm.step, hadmits]
    · rfl

theorem compileGlobRegex_eq (pattern : JsString) : compileGlobRegex pattern = (globTerms pattern).source := by
  have hterms : (globTerms pattern).terms = globBody pattern := by
    fun_induction globBody pattern with
    | case1 => rfl
    | case2 ch => simp [globTerms, RegPattern.terms, globTerm_source]
    | case3 ch next rest hstars ih =>
      rw [globTerms, if_pos hstars, ← ih]
      rfl
    | case4 ch next rest hstars ih =>
      rw [globTerms, if_neg hstars, ← ih, ← globTerm_source]
      rfl
  rw [RegPattern.source, hterms]
  rfl

theorem globTerms_plain (pattern : JsString) : (globTerms pattern).Plain := by
  fun_induction globTerms pattern with
  | case1 => exact fun term hterm => absurd hterm List.not_mem_nil
  | case2 ch => exact List.forall_mem_singleton.mpr (globTerm_plain ch)
  | case3 ch next rest hstars ih => exact List.forall_mem_cons.mpr ⟨trivial, ih⟩
  | case4 ch next rest hstars ih => exact List.forall_mem_cons.mpr ⟨globTerm_plain ch, ih⟩

theorem globTerms_words (pattern : JsString) :
    (globTerms pattern).words = globWords (fun unit => !isLineTerminator unit) pattern := by
  fun_induction globTerms pattern with
  | case1 => rfl
  | case2 ch => simp [RegPattern.words, globWords, globTerm_step]
  | case3 ch next rest hstars ih =>
    rw [globWords, if_pos hstars, ← ih]
    rfl
  | case4 ch next rest hstars ih =>
    rw [globWords, if_neg hstars, ← ih, ← globTerm_step]
    rfl

/-- The engine decides the language without line terminators under `**`. -/
theorem test_compileGlobRegex {engine : RegExpEngine} (h : engine.Standard) (pattern target : JsString) :
    engine.test (compileGlobRegex pattern) target = some true ↔ InGlobByLines pattern target := by
  rw [compileGlobRegex_eq, h.test_source (globTerms_plain pattern), Option.some_inj, accepts_iff, globTerms_words]
  rfl

/-! ## Languages of globs -/

theorem inGlob_of_byLines {pattern : JsString} : ∀ {target : JsString}, InGlobByLines pattern target →
    InGlob pattern target := by
  unfold InGlob InGlobByLines
  fun_induction globWords (fun _ => true) pattern with
  | case1 => exact id
  | case2 ch => exact id
  | case3 ch next rest hstars ih =>
    intro target h
    rw [globWords, if_pos hstars] at h
    obtain ⟨piece, more, htarget, -, hrest⟩ := h
    exact ⟨piece, more, htarget, fun _ _ => rfl, ih hrest⟩
  | case4 ch next rest hstars ih =>
    intro target h
    rw [globWords, if_neg hstars] at h
    obtain ⟨piece, more, htarget, hreads, hrest⟩ := h
    exact ⟨piece, more, htarget, hreads, ih hrest⟩

/-- A pattern without wildcards is a fixed word. -/
theorem globWords_literal {deep : CodeUnit → Bool} {pattern : JsString} (h : hasWildcard pattern = false) :
    globWords deep pattern = literally pattern := by
  have hstep : ∀ ch ∈ pattern, ch ≠ star ∧ globStep ch = .once (· = ch) := by
    intro ch hch
    have hplain := List.any_eq_false.mp h ch hch
    simp only [Bool.or_eq_true, decide_eq_true_eq, not_or] at hplain
    exact ⟨hplain.1, by rw [globStep, if_neg hplain.1, if_neg hplain.2]⟩
  clear h
  fun_induction globWords deep pattern with
  | case1 => rfl
  | case2 ch => rw [(hstep ch (List.mem_singleton_self ch)).2]; rfl
  | case3 ch next rest hstars ih =>
    simp only [Bool.and_eq_true, decide_eq_true_eq] at hstars
    exact absurd hstars.1 (hstep ch List.mem_cons_self).1
  | case4 ch next rest hstars ih =>
    rw [(hstep ch List.mem_cons_self).2, ih fun x hx => hstep x (List.mem_cons_of_mem _ hx)]
    rfl

theorem inGlob_literal {pattern target : JsString} (h : hasWildcard pattern = false) :
    InGlob pattern target ↔ target = pattern := by
  rw [InGlob, globWords_literal h, accepts_literally]

theorem inGlobByLines_literal {pattern target : JsString} (h : hasWildcard pattern = false) :
    InGlobByLines pattern target ↔ target = pattern := by
  rw [InGlobByLines, globWords_literal h, accepts_literally]

/-! ## Normalization -/

theorem normalizeMatchTarget_plain {text : JsString} (h : NoBackslashPair text) : normalizeMatchTarget text = text := by
  unfold NoBackslashPair at h
  fun_induction normalizeMatchTarget text with
  | case1 => rfl
  | case2 unit => rfl
  | case3 unit next rest hpair ih =>
    simp only [Bool.and_eq_true, decide_eq_true_eq] at hpair
    exact absurd hpair (List.isChain_cons_cons.mp h).1
  | case4 unit next rest hpair ih => rw [ih (List.isChain_cons_cons.mp h).2]

/-- Normalization writes no wildcards. -/
theorem hasWildcard_normalize {text : JsString} (h : hasWildcard text = false) :
    hasWildcard (normalizeMatchTarget text) = false := by
  fun_induction normalizeMatchTarget text with
  | case1 => rfl
  | case2 unit => exact h
  | case3 unit next rest hpair ih =>
    have hslash : (slash = star || slash = unitOf '?') = false := by decide
    have hrest : hasWildcard rest = false := by
      simp only [hasWildcard, List.any_cons, Bool.or_eq_false_iff] at h
      exact h.2.2
    rw [hasWildcard, List.any_cons, hslash, Bool.false_or]
    exact ih hrest
  | case4 unit next rest hpair ih =>
    rw [hasWildcard, List.any_cons, Bool.or_eq_false_iff] at h ⊢
    exact ⟨h.1, ih h.2⟩

theorem normalizeMatchTarget_ne_nil {text : JsString} (h : text ≠ []) : normalizeMatchTarget text ≠ [] := by
  fun_cases normalizeMatchTarget text with
  | case1 | case2 => exact h
  | case3 | case4 => exact List.cons_ne_nil _ _

/-- The target that is tested, when its backslashes mean nothing. -/
theorem tested_target {expanded target : JsString} (h : PlainBackslashes expanded target) :
    (if hasDotPathSegment (normalizeMatchTarget target) then normalizeDotPathSegments (normalizeMatchTarget target)
      else normalizeMatchTarget target) = resolveDots target := by
  have hslash : slash ≠ backslash := by decide
  have hnormal : NoBackslashPair (posixNormalize target) :=
    posixNormalize_chain (fun _ hpair => hslash hpair.2) (fun _ hpair => hslash hpair.1) h.targetPairs
  rw [normalizeMatchTarget_plain h.targetPairs, normalizeDotPathSegments, normalizeMatchTarget_plain hnormal, resolveDots]
  rcases h.dots with hsame | hsame
  · rw [hsame]
  · rw [hsame, ite_self, ite_self]

/-! ## The matcher -/

section Matcher

variable {engine : RegExpEngine} (hengine : engine.Standard) {home : Option JsString} {pattern target : JsString}
include hengine

/-- Without wildcards the two texts are compared after normalization. -/
theorem matches_literal (hne : trimUnits pattern ≠ []) (hwild : hasWildcard (expandPattern home pattern) = false) :
    matchesExecAllowlistPattern engine home pattern target = some true ↔
      normalizeMatchTarget target = normalizeMatchTarget (expandPattern home pattern) := by
  rw [matchesExecAllowlistPattern, if_neg hne]
  simp only [hwild, Bool.false_and, Bool.false_eq_true, if_false]
  rw [test_compileGlobRegex hengine, inGlobByLines_literal (hasWildcard_normalize hwild)]

theorem matches_glob (hne : trimUnits pattern ≠ []) (hwild : hasWildcard (expandPattern home pattern) = true)
    (hplain : PlainBackslashes (expandPattern home pattern) target) :
    matchesExecAllowlistPattern engine home pattern target = some true ↔
      InGlobByLines (expandPattern home pattern) (resolveDots target) := by
  rw [matchesExecAllowlistPattern, if_neg hne]
  simp only [hwild, Bool.true_and]
  rw [tested_target hplain, normalizeMatchTarget_plain hplain.patternPairs, test_compileGlobRegex hengine]

/-- **The matcher decides the language** of the pattern exactly where the texts match as they are written; for a
pattern with wildcards this is about texts whose backslashes mean nothing. -/
theorem matches_iff_language (habsolute : target.head? = some slash)
    (hplain : hasWildcard (expandPattern home pattern) = true → PlainBackslashes (expandPattern home pattern) target) :
    (matchesExecAllowlistPattern engine home pattern target = some true ↔ InLanguage home pattern target) ↔
      MatchesAsWritten (expandPattern home pattern) target := by
  have htarget : target ≠ [] := by
    rintro rfl
    contradiction
  by_cases hne : trimUnits pattern = []
  · -- a blank pattern has the empty word only
    have hexpanded : expandPattern home pattern = [] := by simp [expandPattern, hne]
    have hfalse : matchesExecAllowlistPattern engine home pattern target = some false := if_pos hne
    have hlanguage : ¬ InLanguage home pattern target := by
      rw [InLanguage, hexpanded]
      exact htarget
    have hwritten : MatchesAsWritten (expandPattern home pattern) target := by
      rw [hexpanded]
      exact Or.inr (Ne.symm (normalizeMatchTarget_ne_nil htarget))
    simp [hfalse, hlanguage, hwritten]
  · unfold MatchesAsWritten InLanguage
    by_cases hwild : hasWildcard (expandPattern home pattern) = true
    · rw [if_pos hwild, if_pos hwild, matches_glob hengine hne hwild (hplain hwild)]
      constructor
      · intro hiff
        exact hiff.mpr
      · intro hbreaks
        exact ⟨inGlob_of_byLines, hbreaks⟩
    · rw [Bool.not_eq_true] at hwild
      rw [hwild, if_neg Bool.false_ne_true, if_neg Bool.false_ne_true, matches_literal hengine hne hwild,
        inGlob_literal hwild]
      constructor
      · intro hiff
        by_cases hsame : normalizeMatchTarget (expandPattern home pattern) = normalizeMatchTarget target
        · exact Or.inl (hiff.mp hsame.symm).symm
        · exact Or.inr hsame
      · rintro (rfl | hdiffer)
        · exact ⟨fun _ => rfl, fun _ => rfl⟩
        · constructor
          · intro hsame
            exact absurd hsame.symm hdiffer
          · intro hsame
            rw [hsame]

end Matcher

/-! ## Two backslashes and a slash -/

/-- `matches_iff_language` for `/opt/*/tool`. -/
theorem matches_iff_language_tool :
    (matchesExecAllowlistPattern plainEngine none (units "/opt/*/tool") (units "/opt/x/../y/tool") = some true ↔
        InLanguage none (units "/opt/*/tool") (units "/opt/x/../y/tool")) ↔
      MatchesAsWritten (expandPattern none (units "/opt/*/tool")) (units "/opt/x/../y/tool") :=
  matches_iff_language plainEngine_standard (by decide) fun _ => ⟨by decide, by decide, by decide⟩

/-- The pattern `/opt/a/b` matches the file of that path and another one, whose name has two backslashes. -/
theorem backslashes_match_slash :
    matchesExecAllowlistPattern plainEngine none (units "/opt/a/b") (units "/opt/a/b") = some true ∧
      matchesExecAllowlistPattern plainEngine none (units "/opt/a/b") (units "/opt/a\\\\b") = some true ∧
      ¬ InLanguage none (units "/opt/a/b") (units "/opt/a\\\\b") := by
  refine ⟨?_, ?_, ?_⟩
  · decide
  · decide
  · intro hlanguage
    have hwild : hasWildcard (expandPattern none (units "/opt/a/b")) = false := by decide
    rw [InLanguage, hwild, if_neg Bool.false_ne_true, inGlob_literal hwild] at hlanguage
    revert hlanguage
    decide

end OpenClaw.Infra
