/-
# OpenClaw.OcPaths.JsoncParse -- from a text to a JSON value

`parseJsonc` of `jsonc/parse.ts` takes the tree of a fault-tolerant parser and turns it into a value,
unless the parser reported an error, the text is too long or the tree too deep.  That parser is not part
of the repository and is a parameter here, `JsoncParser`.
-/
import OpenClaw.OcPaths.JsoncTree

namespace OpenClaw.OcPaths

open OpenClaw.Data

/-! ## Numbers -/

/-- A double: one of the finite ones `δ`, among which `0` and `-0` are one, or a value that no JSON text
names. -/
inductive JsNumber (δ : Type) where
  | finite (value : δ)
  | infinity
  | negInfinity
  | nan

/-- `String(n)`; `decimal` is the decimal text of a finite double. -/
def numberText {δ : Type} (decimal : δ → Text) : JsNumber δ → Text
  | .finite value => decimal value
  | .infinity => "Infinity".toList
  | .negInfinity => "-Infinity".toList
  | .nan => "NaN".toList

/-! ## The parser's trees -/

structure ParserSpan where
  offset : Nat
  length : Nat

/-- A property node: its key node, and its value node if the parser found one. -/
structure ParserProperty (N : Type) where
  keyOffset : Nat
  key : Text
  value : Option N

inductive ParserNode (ν : Type) where
  | object (span : ParserSpan) (children : List (ParserProperty (ParserNode ν)))
  | array (span : ParserSpan) (children : List (ParserNode ν))
  | string (span : ParserSpan) (value : Text)
  | number (span : ParserSpan) (value : ν)
  | boolean (span : ParserSpan) (value : Bool)
  | null (span : ParserSpan)

variable {ν : Type}

def ParserNode.span : ParserNode ν → ParserSpan
  | .object span _ | .array span _ | .string span _ | .number span _ | .boolean span _ | .null span => span

structure ParseError where
  error : Nat
  offset : Nat

/-- `parseTree`, with trailing commas, comments and empty content allowed, and `printParseErrorCode`. -/
structure JsoncParser (ν : Type) where
  parseTree : Text → Option (ParserNode ν) × List ParseError
  printParseErrorCode : Nat → Text

/-! ## Diagnostics -/

inductive Severity where
  | info
  | warning
  | error
  deriving DecidableEq

structure Diagnostic where
  line : Nat
  message : Text
  severity : Severity
  code : Text
  deriving DecidableEq

def maxParseDepth : Nat := 256

def maxJsoncInputBytes : Nat := 16 * 1024 * 1024

def jsoncParseInvalidSymbol : Nat := 1

def jsoncParseEndOfFileExpected : Nat := 9

/-- `lineForOffset`: one more than the line breaks before the offset. -/
def lineForOffset (raw : Text) (offset : Nat) : Nat := ((raw.flatMap codeUnits).take offset).count '\n'.toNat + 1

def toDiagnostic (parser : JsoncParser ν) (raw : Text) (tree : Option (ParserNode ν))
    (error : ParseError) : Diagnostic :=
  let treeEnd := tree.elim 0 fun node => node.span.offset + node.span.length
  let isTrailingInput := error.error = jsoncParseEndOfFileExpected ∨
    (tree.isSome ∧ error.error = jsoncParseInvalidSymbol ∧ treeEnd ≤ error.offset)
  { line := lineForOffset raw error.offset
    message := parser.printParseErrorCode error.error
    severity := if isTrailingInput then .warning else .error
    code := if isTrailingInput then "OC_JSONC_TRAILING_INPUT".toList else "OC_JSONC_PARSE_FAILED".toList }

/-! ## Values -/

def depthExceeded : Text := "structural depth exceeded MAX_PARSE_DEPTH (".toList ++ decimalText maxParseDepth ++ [')']

mutual

def nodeToJsoncValue (lineFor : Nat → Nat) (depth : Nat) : ParserNode ν → Except Text (JsoncValue ν)
  | .object span children =>
    if maxParseDepth < depth then .error depthExceeded
    else (propertiesToEntries lineFor depth children).map fun entries =>
      .object entries (some (lineFor span.offset))
  | .array span children =>
    if maxParseDepth < depth then .error depthExceeded
    else (nodesToItems lineFor depth children).map fun items =>
      .array items (some (lineFor span.offset))
  | .string span value =>
    if maxParseDepth < depth then .error depthExceeded
    else .ok (.string value (some (lineFor span.offset)))
  | .number span value =>
    if maxParseDepth < depth then .error depthExceeded
    else .ok (.number value (some (lineFor span.offset)))
  | .boolean span value =>
    if maxParseDepth < depth then .error depthExceeded
    else .ok (.boolean value (some (lineFor span.offset)))
  | .null span =>
    if maxParseDepth < depth then .error depthExceeded
    else .ok (.null (some (lineFor span.offset)))

/-- The `flatMap` of the object case: a property without a value is left out. -/
def propertiesToEntries (lineFor : Nat → Nat) (depth : Nat) :
    List (ParserProperty (ParserNode ν)) → Except Text (List (JsoncEntry (JsoncValue ν)))
  | [] => .ok []
  | ⟨_, _, none⟩ :: rest => propertiesToEntries lineFor depth rest
  | ⟨keyOffset, key, some node⟩ :: rest => do
    let value ← nodeToJsoncValue lineFor (depth + 1) node
    let entries ← propertiesToEntries lineFor depth rest
    return ⟨key, value, lineFor keyOffset⟩ :: entries

/-- The `map` of the array case. -/
def nodesToItems (lineFor : Nat → Nat) (depth : Nat) :
    List (ParserNode ν) → Except Text (List (JsoncValue ν))
  | [] => .ok []
  | node :: rest => do
    let value ← nodeToJsoncValue lineFor (depth + 1) node
    let items ← nodesToItems lineFor depth rest
    return value :: items

end

attribute [grind =] propertiesToEntries

structure JsoncParseResult (ν : Type) where
  root : Option (JsoncValue ν)
  diagnostics : List Diagnostic

/-- `raw.trim().length === 0` -/
def isBlankText (raw : Text) : Bool := raw.all isJsWhitespace

/-- The tree is usable: no diagnostic is an error. -/
def accepted (diagnostics : List Diagnostic) : Bool := diagnostics.all fun d => d.severity ≠ .error

def byteOrderMark : Char := '\uFEFF'

/-- The text without a byte order mark in front. -/
def parseSource (raw : Text) : Text := if raw.head? = some byteOrderMark then raw.tail else raw

def inputTooLarge (raw : Text) : Diagnostic :=
  { line := 1
    message := "input exceeds MAX_JSONC_INPUT_BYTES (".toList ++ decimalText maxJsoncInputBytes ++
      " bytes; got ".toList ++ decimalText raw.jsLength ++ [')']
    severity := .error
    code := "OC_JSONC_INPUT_TOO_LARGE".toList }

def parseJsonc (parser : JsoncParser ν) (raw : Text) : JsoncParseResult ν :=
  if isBlankText raw then { root := none, diagnostics := [] }
  else if maxJsoncInputBytes < raw.jsLength then { root := none, diagnostics := [inputTooLarge raw] }
  else
    let tree := (parser.parseTree (parseSource raw)).1
    let diagnostics := (parser.parseTree (parseSource raw)).2.map (toDiagnostic parser raw tree)
    match tree with
    | none => { root := none, diagnostics }
    | some node =>
      if accepted diagnostics then
        match nodeToJsoncValue (lineForOffset raw) 0 node with
        | .ok value => { root := some value, diagnostics }
        | .error message =>
          { root := none
            diagnostics := diagnostics ++
              [{ line := 1, message, severity := .error, code := "OC_JSONC_DEPTH_EXCEEDED".toList }] }
      else { root := none, diagnostics }

/-! ## Lines apart -/

mutual

/-- The value apart from its lines. -/
def JsoncValue.plain : JsoncValue ν → JsoncValue ν
  | .object entries _ => .object (plainEntries entries) none
  | .array items _ => .array (plainItems items) none
  | .string value _ => .string value none
  | .number value _ => .number value none
  | .boolean value _ => .boolean value none
  | .null _ => .null none

def plainEntries : List (JsoncEntry (JsoncValue ν)) → List (JsoncEntry (JsoncValue ν))
  | [] => []
  | ⟨key, value, _⟩ :: rest => ⟨key, value.plain, 0⟩ :: plainEntries rest

def plainItems : List (JsoncValue ν) → List (JsoncValue ν)
  | [] => []
  | value :: rest => value.plain :: plainItems rest

end

mutual

/-- The value that a tree stands for. -/
def ParserNode.plain : ParserNode ν → JsoncValue ν
  | .object _ children => .object (plainProperties children) none
  | .array _ children => .array (plainNodes children) none
  | .string _ value => .string value none
  | .number _ value => .number value none
  | .boolean _ value => .boolean value none
  | .null _ => .null none

def plainProperties : List (ParserProperty (ParserNode ν)) → List (JsoncEntry (JsoncValue ν))
  | [] => []
  | ⟨_, _, none⟩ :: rest => plainProperties rest
  | ⟨_, key, some node⟩ :: rest => ⟨key, node.plain, 0⟩ :: plainProperties rest

def plainNodes : List (ParserNode ν) → List (JsoncValue ν)
  | [] => []
  | node :: rest => node.plain :: plainNodes rest

end

/-- Every node of the value is within the depth limit, when the value itself stands at `depth`. -/
def DepthOk (depth : Nat) (value : JsoncValue ν) : Prop :=
  ∀ position, (value.nodeAt position).isSome → depth + position.length ≤ maxParseDepth

theorem depthOk_iff {depth : Nat} {value : JsoncValue ν} :
    DepthOk depth value ↔ depth ≤ maxParseDepth ∧ ∀ child ∈ value.children, DepthOk (depth + 1) child := by
  constructor
  · intro h
    refine ⟨h [] rfl, fun child hchild position hposition => ?_⟩
    obtain ⟨i, hi, rfl⟩ := List.mem_iff_getElem.mp hchild
    have hbound := h (i :: position) (by
      rw [JsoncValue.nodeAt, List.getElem?_eq_getElem hi]
      exact hposition)
    rw [List.length_cons] at hbound
    omega
  · rintro ⟨hroot, hchildren⟩ position hposition
    cases position with
    | nil => exact hroot
    | cons i rest =>
      obtain ⟨node, hnode⟩ := Option.isSome_iff_exists.mp hposition
      obtain ⟨child, hchild, hrest⟩ := Option.bind_eq_some_iff.mp hnode
      have hbound := hchildren child (List.mem_of_getElem? hchild) rest (by rw [hrest]; rfl)
      rw [List.length_cons]
      omega

theorem plainEntries_eq (entries : List (JsoncEntry (JsoncValue ν))) :
    plainEntries entries = entries.map fun entry => ⟨entry.key, entry.value.plain, 0⟩ := by
  induction entries with
  | nil => rfl
  | cons entry rest ih => rw [plainEntries, List.map_cons, ih]

theorem plainItems_eq (items : List (JsoncValue ν)) : plainItems items = items.map JsoncValue.plain := by
  induction items with
  | nil => rfl
  | cons item rest ih => rw [plainItems, List.map_cons, ih]

theorem children_plain (value : JsoncValue ν) : value.plain.children = value.children.map JsoncValue.plain := by
  cases value with
  | object entries line =>
    simp only [JsoncValue.plain, JsoncValue.children, plainEntries_eq, List.map_map]
    rfl
  | array items line => simp only [JsoncValue.plain, JsoncValue.children, plainItems_eq]
  | string | number | boolean | null => rfl

/-- A value has its nodes apart from its lines. -/
theorem nodeAt_plain (value : JsoncValue ν) (position : List Nat) :
    value.plain.nodeAt position = (value.nodeAt position).map JsoncValue.plain := by
  induction position generalizing value with
  | nil => rfl
  | cons i rest ih =>
    rw [JsoncValue.nodeAt, JsoncValue.nodeAt, children_plain, List.getElem?_map]
    cases value.children[i]? with
    | none => rfl
    | some child => exact ih child

theorem depthOk_plain {depth : Nat} {value : JsoncValue ν} : DepthOk depth value.plain ↔ DepthOk depth value := by
  unfold DepthOk
  simp only [nodeAt_plain, Option.isSome_map]

/-- What turning a tree into a value comes to: the value, or the refusal of too deep a tree. -/
def Converts {α β : Type} (result : Except Text α) (plain : α → β) (target : β) (ok : Prop) : Prop :=
  (ok ∧ ∃ value, result = .ok value ∧ plain value = target) ∨ (¬ ok ∧ ∃ message, result = .error message)

theorem Converts.congr {α β : Type} {result : Except Text α} {plain : α → β} {target : β} {ok ok' : Prop}
    (h : Converts result plain target ok) (hiff : ok' ↔ ok) : Converts result plain target ok' := by
  rwa [Converts, hiff]

theorem Converts.map {α β γ δ : Type} {result : Except Text α} {plain : α → β} {target : β} {ok : Prop}
    {f : α → γ} {plain' : γ → δ} {target' : δ} (h : Converts result plain target ok)
    (hf : ∀ a, plain a = target → plain' (f a) = target') : Converts (result.map f) plain' target' ok := by
  rcases h with ⟨hok, value, rfl, hplain⟩ | ⟨hbad, message, rfl⟩
  · exact .inl ⟨hok, f value, rfl, hf value hplain⟩
  · exact .inr ⟨hbad, message, rfl⟩

/-- One part after another. -/
theorem Converts.seq {α β γ α' β' γ' : Type} {first : Except Text α} {rest : Except Text β}
    {plain : α → α'} {plain' : β → β'} {target : α'} {target' : β'} {ok ok' : Prop} {f : α → β → γ}
    {plain'' : γ → γ'} {target'' : γ'} (h : Converts first plain target ok)
    (h' : Converts rest plain' target' ok')
    (hf : ∀ a b, plain a = target → plain' b = target' → plain'' (f a b) = target'') :
    Converts (do let a ← first; let b ← rest; return f a b) plain'' target'' (ok ∧ ok') := by
  rcases h with ⟨hok, value, rfl, hplain⟩ | ⟨hbad, message, rfl⟩
  · rcases h' with ⟨hok', value', rfl, hplain'⟩ | ⟨hbad', message, rfl⟩
    · exact .inl ⟨⟨hok, hok'⟩, f value value', rfl, hf value value' hplain hplain'⟩
    · exact .inr ⟨fun h => hbad' h.2, message, rfl⟩
  · exact .inr ⟨fun h => hbad h.1, message, rfl⟩

/-- A container at `depth`, with what its children come to. -/
theorem Converts.atDepth {α β : Type} {result : Except Text α} {plain : α → β} {target : β}
    {depth : Nat} {ok ok' : Prop} (h : Converts result plain target ok) (hiff : ok' ↔ depth ≤ maxParseDepth ∧ ok) :
    Converts (if maxParseDepth < depth then .error depthExceeded else result) plain target ok' := by
  by_cases hdeep : maxParseDepth < depth
  · rw [if_pos hdeep]
    exact .inr ⟨fun hok => by have := (hiff.mp hok).1; omega, _, rfl⟩
  · rw [if_neg hdeep]
    exact h.congr ⟨fun hok => (hiff.mp hok).2, fun hok => hiff.mpr ⟨by omega, hok⟩⟩

theorem Converts.leaf {depth : Nat} {value : JsoncValue ν} {target : JsoncValue ν}
    (hplain : value.plain = target) (hleaf : target.children = []) :
    Converts (if maxParseDepth < depth then .error depthExceeded else .ok value) JsoncValue.plain target
      (DepthOk depth target) := by
  have hok : Converts (.ok value) JsoncValue.plain target True := .inl ⟨trivial, value, rfl, hplain⟩
  refine hok.atDepth ?_
  rw [depthOk_iff, hleaf]
  simp

mutual

/-- **A tree is turned into the value it stands for**, if it is not too deep. -/
theorem nodeToJsoncValue_converts (lineFor : Nat → Nat) (depth : Nat) : ∀ node : ParserNode ν,
    Converts (nodeToJsoncValue lineFor depth node) JsoncValue.plain node.plain (DepthOk depth node.plain)
  | .object span children => by
    rw [nodeToJsoncValue]
    refine ((propertiesToEntries_converts lineFor depth children).map fun entries hentries => ?_).atDepth ?_
    · rw [JsoncValue.plain, hentries]
      rfl
    · rw [ParserNode.plain, depthOk_iff]
      simp [JsoncValue.children]
  | .array span children => by
    rw [nodeToJsoncValue]
    refine ((nodesToItems_converts lineFor depth children).map fun items hitems => ?_).atDepth ?_
    · rw [JsoncValue.plain, hitems]
      rfl
    · rw [ParserNode.plain, depthOk_iff]
      rfl
  | .string span value => .leaf rfl rfl
  | .number span value => .leaf rfl rfl
  | .boolean span value => .leaf rfl rfl
  | .null span => .leaf rfl rfl

theorem propertiesToEntries_converts (lineFor : Nat → Nat) (depth : Nat) :
    ∀ children : List (ParserProperty (ParserNode ν)),
      Converts (propertiesToEntries lineFor depth children) plainEntries (plainProperties children)
        (∀ entry ∈ plainProperties children, DepthOk (depth + 1) entry.value)
  | [] => .inl ⟨fun _ h => absurd h List.not_mem_nil, [], rfl, rfl⟩
  | ⟨_, _, none⟩ :: rest => propertiesToEntries_converts lineFor depth rest
  | ⟨keyOffset, key, some node⟩ :: rest => by
    refine ((nodeToJsoncValue_converts lineFor (depth + 1) node).seq
      (propertiesToEntries_converts lineFor depth rest) fun value entries hvalue hentries => ?_).congr ?_
    · rw [plainEntries, hvalue, hentries]
      rfl
    · simp [plainProperties]

theorem nodesToItems_converts (lineFor : Nat → Nat) (depth : Nat) : ∀ children : List (ParserNode ν),
    Converts (nodesToItems lineFor depth children) plainItems (plainNodes children)
      (∀ item ∈ plainNodes children, DepthOk (depth + 1) item)
  | [] => .inl ⟨fun _ h => absurd h List.not_mem_nil, [], rfl, rfl⟩
  | node :: rest => by
    refine ((nodeToJsoncValue_converts lineFor (depth + 1) node).seq
      (nodesToItems_converts lineFor depth rest) fun value items hvalue hitems => ?_).congr ?_
    · rw [plainItems, hvalue, hitems]
      rfl
    · simp [plainNodes]

end

end OpenClaw.OcPaths
