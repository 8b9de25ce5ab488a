/-
# OpenClaw.Data.RegExp -- anchored regular expressions of single units

The texts `^...$` whose terms are one unit, an escaped unit, `.` or a class `[^...]`, each alone or with a
star.  `RegPattern.source` writes such an expression and `parseRegExp` reads it back; what it matches is a
word pattern.  Other texts are outside of this module: `Engine.Standard` says nothing about them.
-/
import OpenClaw.Data.JsText
import OpenClaw.Data.WordPattern

namespace OpenClaw.Data

/-- The characters of the grammar: `^ $ \ . * + ? ( ) [ ] { } |`. -/
def isSyntaxUnit (unit : CodeUnit) : Bool :=
  unit.val ∈ [0x5E, 0x24, 0x5C, 0x2E, 0x2A, 0x2B, 0x3F, 0x28, 0x29, 0x5B, 0x5D, 0x7B, 0x7D, 0x7C]

/-- What stands for itself inside a class. -/
def isClassUnit (unit : CodeUnit) : Bool := unit.val ∉ [0x5C, 0x5D, 0x5E, 0x2D]

inductive RegAtom where
  | literal (unit : CodeUnit)
  | dot
  | notIn (excluded : JsString)

inductive RegTerm where
  | once (atom : RegAtom)
  | star (atom : RegAtom)

abbrev RegPattern := List RegTerm

/-- `.` matches no line terminator. -/
def RegAtom.admits : RegAtom → CodeUnit → Bool
  | literal unit, x => x = unit
  | dot, x => !isLineTerminator x
  | notIn excluded, x => !excluded.any fun unit => x = unit

def RegTerm.step : RegTerm → PatternStep CodeUnit
  | once atom => .once atom.admits
  | star atom => .run atom.admits

/-- What an expression matches, as words. -/
def RegPattern.words (pattern : RegPattern) : WordPattern CodeUnit := pattern.map RegTerm.step

/-! ## The text of an expression -/

/-- A unit as it stands in an expression for itself. -/
def escapeUnit (unit : CodeUnit) : JsString := if isSyntaxUnit unit then [unitOf '\\', unit] else [unit]

def RegAtom.source : RegAtom → JsString
  | literal unit => escapeUnit unit
  | dot => [unitOf '.']
  | notIn excluded => [unitOf '[', unitOf '^'] ++ excluded ++ [unitOf ']']

def RegTerm.source : RegTerm → JsString
  | once atom => atom.source
  | star atom => atom.source ++ [unitOf '*']

def RegPattern.terms (pattern : RegPattern) : JsString := pattern.flatMap RegTerm.source

def RegPattern.source (pattern : RegPattern) : JsString := unitOf '^' :: (pattern.terms ++ [unitOf '$'])

def RegAtom.Plain : RegAtom → Prop
  | notIn excluded => ∀ unit ∈ excluded, isClassUnit unit = true
  | _ => True

def RegTerm.Plain : RegTerm → Prop
  | once atom => atom.Plain
  | star atom => atom.Plain

/-- The classes of the expression need no escapes. -/
def RegPattern.Plain (pattern : RegPattern) : Prop := ∀ term ∈ pattern, term.Plain

/-! ## Reading the text -/

/-- Behind a backslash. -/
def parseEscape : JsString → Option (RegAtom × JsString)
  | [] => none
  | unit :: rest => if isSyntaxUnit unit then some (.literal unit, rest) else none

/-- Behind `[^`. -/
def parseClass (text : JsString) : Option (RegAtom × JsString) :=
  let rest := text.dropWhile isClassUnit
  if rest.head? = some (unitOf ']') then some (.notIn (text.takeWhile isClassUnit), rest.tail) else none

def parseAtom : JsString → Option (RegAtom × JsString)
  | [] => none
  | unit :: rest =>
    if unit = unitOf '\\' then parseEscape rest
    else if unit = unitOf '.' then some (.dot, rest)
    else if unit = unitOf '[' then if rest.head? = some (unitOf '^') then parseClass rest.tail else none
    else if isSyntaxUnit unit then none
    else some (.literal unit, rest)

/-- The terms up to the final `$`. -/
def parseTerms : Nat → JsString → Option RegPattern
  | 0, _ => none
  | fuel + 1, text =>
    if text = [unitOf '$'] then some []
    else
      match parseAtom text with
      | none => none
      | some (atom, rest) =>
        if rest.head? = some (unitOf '*') then (parseTerms fuel rest.tail).map (.star atom :: ·)
        else (parseTerms fuel rest).map (.once atom :: ·)

def parseRegExp : JsString → Option RegPattern
  | [] => none
  | unit :: rest => if unit = unitOf '^' then parseTerms rest.length rest else none

theorem escapeUnit_plain {unit : CodeUnit} (h : isSyntaxUnit unit = false) : escapeUnit unit = [unit] := by
  rw [escapeUnit, h]
  rfl

theorem escapeUnit_syntax {unit : CodeUnit} (h : isSyntaxUnit unit = true) :
    escapeUnit unit = [unitOf '\\', unit] := if_pos h

theorem parseAtom_source {atom : RegAtom} (h : atom.Plain) (rest : JsString) :
    parseAtom (atom.source ++ rest) = some (atom, rest) := by
  cases atom with
  | literal unit =>
    by_cases hunit : isSyntaxUnit unit = true
    · have htext : RegAtom.source (.literal unit) ++ rest = unitOf '\\' :: unit :: rest := by
        rw [RegAtom.source, escapeUnit_syntax hunit]
        rfl
      rw [htext, parseAtom, if_pos rfl, parseEscape, if_pos hunit]
    · have hplain : isSyntaxUnit unit = false := Bool.not_eq_true _ |>.mp hunit
      have htext : RegAtom.source (.literal unit) ++ rest = unit :: rest := by
        rw [RegAtom.source, escapeUnit_plain hplain]
        rfl
      have hne {c : Char} (hc : isSyntaxUnit (unitOf c) = true) : unit ≠ unitOf c := by
        rintro rfl
        exact hunit hc
      rw [htext, parseAtom, if_neg (hne (by decide)), if_neg (hne (by decide)), if_neg (hne (by decide)),
        if_neg hunit]
  | dot =>
    have htext : RegAtom.source .dot ++ rest = unitOf '.' :: rest := rfl
    rw [htext, parseAtom, if_neg (by decide), if_pos rfl]
  | notIn excluded =>
    have hstop : ¬ isClassUnit (unitOf ']') = true := by decide
    have htake : (excluded ++ unitOf ']' :: rest).takeWhile isClassUnit = excluded := by
      rw [List.takeWhile_append_of_pos h, List.takeWhile_cons_of_neg hstop, List.append_nil]
    have hdrop : (excluded ++ unitOf ']' :: rest).dropWhile isClassUnit = unitOf ']' :: rest := by
      rw [List.dropWhile_append_of_pos h, List.dropWhile_cons_of_neg hstop]
    have htext : RegAtom.source (.notIn excluded) ++ rest =
        unitOf '[' :: unitOf '^' :: (excluded ++ unitOf ']' :: rest) := by simp [RegAtom.source]
    rw [htext, parseAtom, if_neg (by decide), if_neg (by decide), if_pos rfl, List.head?_cons, if_pos rfl,
      List.tail_cons, parseClass, htake, hdrop]
    exact if_pos rfl

/-- No atom begins with a star, so none takes the star of its neighbour. -/
theorem head_source (atom : RegAtom) : ∃ unit rest, atom.source = unit :: rest ∧ unit ≠ unitOf '*' := by
  cases atom with
  | literal unit =>
    by_cases hunit : isSyntaxUnit unit = true
    · exact ⟨_, _, escapeUnit_syntax hunit, by decide⟩
    · refine ⟨_, _, escapeUnit_plain (Bool.not_eq_true _ |>.mp hunit), ?_⟩
      rintro rfl
      exact hunit (by decide)
  | dot => exact ⟨_, _, rfl, by decide⟩
  | notIn excluded => exact ⟨_, _, rfl, by decide⟩

theorem head_terms (pattern : RegPattern) : (pattern.terms ++ [unitOf '$']).head? ≠ some (unitOf '*') := by
  cases pattern with
  | nil =>
    have hend : (RegPattern.terms [] ++ [unitOf '$']).head? = some (unitOf '$') := rfl
    rw [hend]
    decide
  | cons term pattern =>
    have hterm : ∃ unit rest, term.source = unit :: rest ∧ unit ≠ unitOf '*' := by
      cases term with
      | once atom => exact head_source atom
      | star atom =>
        obtain ⟨unit, rest, hsource, hne⟩ := head_source atom
        exact ⟨unit, rest ++ [unitOf '*'], by rw [RegTerm.source, hsource]; rfl, hne⟩
    obtain ⟨unit, rest, hsource, hne⟩ := hterm
    rw [RegPattern.terms, List.flatMap_cons, hsource]
    intro h
    exact hne (Option.some.inj h)

theorem source_ne_end (atom : RegAtom) {rest : JsString} (hrest : rest ≠ []) : atom.source ++ rest ≠ [unitOf '$'] := by
  obtain ⟨unit, more, hsource, -⟩ := head_source atom
  rw [hsource]
  intro h
  exact hrest (List.append_eq_nil_iff.mp (List.cons.inj h).2).2

theorem source_length_pos (atom : RegAtom) : 0 < atom.source.length := by
  obtain ⟨unit, more, hsource, -⟩ := head_source atom
  rw [hsource]
  exact Nat.succ_pos _

theorem parseTerms_source {pattern : RegPattern} : ∀ {fuel : Nat}, RegPattern.Plain pattern →
    (RegPattern.terms pattern ++ [unitOf '$']).length ≤ fuel →
      parseTerms fuel (RegPattern.terms pattern ++ [unitOf '$']) = some pattern := by
  induction pattern with
  | nil =>
    intro fuel _ hfuel
    obtain ⟨n, rfl⟩ := Nat.exists_eq_add_of_le' hfuel
    exact if_pos rfl
  | cons term pattern ih =>
    intro fuel hplain hfuel
    obtain ⟨hterm, hrest⟩ := List.forall_mem_cons.mp hplain
    cases fuel with
    | zero => simp at hfuel
    | succ fuel =>
      cases term with
      | once atom =>
        have htext : RegPattern.terms (.once atom :: pattern) ++ [unitOf '$'] =
            atom.source ++ (RegPattern.terms pattern ++ [unitOf '$']) := by
          simp [RegPattern.terms, RegTerm.source]
        have hpos := source_length_pos atom
        rw [htext, List.length_append] at hfuel
        rw [htext, parseTerms, if_neg (source_ne_end atom (by simp)), parseAtom_source hterm]
        simp only [if_neg (head_terms pattern)]
        rw [ih hrest (by omega)]
        rfl
      | star atom =>
        have htext : RegPattern.terms (.star atom :: pattern) ++ [unitOf '$'] =
            atom.source ++ unitOf '*' :: (RegPattern.terms pattern ++ [unitOf '$']) := by
          simp [RegPattern.terms, RegTerm.source]
        rw [htext, List.length_append, List.length_cons] at hfuel
        rw [htext, parseTerms, if_neg (source_ne_end atom (List.cons_ne_nil _ _)), parseAtom_source hterm]
        simp only [List.head?_cons, if_true, List.tail_cons]
        rw [ih hrest (by omega)]
        rfl

/-- **An expression is read back from its text.** -/
theorem parseRegExp_source {pattern : RegPattern} (h : pattern.Plain) : parseRegExp pattern.source = some pattern := by
  rw [RegPattern.source, parseRegExp, if_pos rfl]
  exact parseTerms_source h (Nat.le_refl _)

/-! ## Engines -/

/-- `new RegExp(pattern).test(text)`; a pattern that is no expression throws. -/
structure RegExpEngine where
  test : JsString → JsString → Option Bool

/-- The engine matches the expressions above as they are specified. -/
def RegExpEngine.Standard (engine : RegExpEngine) : Prop :=
  ∀ source pattern text, parseRegExp source = some pattern → engine.test source text = some (accepts pattern.words text)

theorem RegExpEngine.Standard.test_source {engine : RegExpEngine} (h : engine.Standard) {pattern : RegPattern}
    (hplain : pattern.Plain) (text : JsString) :
    engine.test pattern.source text = some (accepts pattern.words text) :=
  h _ _ _ (parseRegExp_source hplain)

/-- The expressions above and no others. -/
def plainEngine : RegExpEngine where
  test source text := (parseRegExp source).map fun pattern => accepts pattern.words text

theorem plainEngine_standard : plainEngine.Standard := by
  intro source pattern text h
  simp [plainEngine, h]

/-! ## Literal texts -/

/-- The expression of a text that stands for itself. -/
def literalPattern (text : JsString) : RegPattern := text.map fun unit => .once (.literal unit)

theorem literalPattern_plain (text : JsString) : (literalPattern text).Plain := by
  intro term hterm
  obtain ⟨unit, -, rfl⟩ := List.mem_map.mp hterm
  trivial

theorem literalPattern_terms (text : JsString) : (literalPattern text).terms = text.flatMap escapeUnit := by
  rw [RegPattern.terms, literalPattern, List.flatMap_map]
  rfl

theorem literalPattern_accepts {text word : JsString} :
    accepts (literalPattern text).words word = true ↔ word = text := by
  have hwords : (literalPattern text).words = literally text := by
    rw [RegPattern.words, literalPattern, List.map_map]
    rfl
  rw [accepts_iff, hwords]
  exact accepts_literally

end OpenClaw.Data
