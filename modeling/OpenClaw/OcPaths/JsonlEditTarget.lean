/-
# OpenClaw.OcPaths.JsonlEditTarget -- an edit changes the node that resolving finds

`resolveJsonlOcPath` and `setJsonlOcPath` walk down with rules of their own for quotes and positions.
`QuotingSlip` is where one step of the two differs.  On every other path the edit replaces the resolved
node and nothing else, unless the new document would carry the redaction marker.
-/
import OpenClaw.OcPaths.JsonlDocument

namespace OpenClaw.OcPaths

open OpenClaw.Data

variable {ν : Type}

/-! ## The step of an edit -/

/-- The child that `replaceAt` goes to. -/
def editStep (node : JsoncValue ν) (seg : Text) : Option Nat :=
  if seg = [] then none
  else
    match node with
    | .object .. => (editSeg node seg).bind fun segNorm => childIndex node (unquoteSeg segNorm)
    | .array .. => (editSeg node seg).bind (childIndex node)
    | _ => none

variable {entries : List (JsoncEntry (JsoncValue ν))} {seg : Text}

theorem editStep_object {line : Option Nat} (h : seg ≠ []) : editStep (.object entries line) seg =
      (editSeg (.object entries line) seg).bind fun segNorm => childIndex (.object entries line)
      (unquoteSeg segNorm) := if_neg h

theorem editStep_array {items : List (JsoncValue ν)} {line : Option Nat} (h : seg ≠ []) :
    editStep (.array items line) seg = (editSeg (.array items line) seg).bind (childIndex (.array items line)) := if_neg h

theorem editSeg_positional (h : isPositionalSeg seg = true) (current : JsoncValue ν) :
    editSeg current seg = positionalForJsonc current seg := if_pos h

theorem editSeg_plain (h : ¬ isPositionalSeg seg = true) (current : JsoncValue ν) : editSeg current seg = some seg := if_neg h

theorem setChild_object {line : Option Nat} {i : Nat} {entry : JsoncEntry (JsoncValue ν)}
    (h : entries[i]? = some entry) (child : JsoncValue ν) : (JsoncValue.object entries line).setChild i child =
      .object (entries.set i { entry with value := child }) line := by
  have : Inhabited (JsoncEntry (JsoncValue ν)) := ⟨entry⟩
  rw [JsoncValue.setChild, List.modify_eq_set, h, Option.getD_some]

/-- **An edit replaces the node at the end of its way.** -/
theorem replaceAt_eq (segments : List Text) (current newValue : JsoncValue ν) : replaceAt current newValue segments =
      (followSteps editStep current segments).bind (current.replaceNode newValue) := by
  induction segments generalizing current with
  | nil => rfl
  | cons seg rest ih =>
    by_cases hseg : seg = []
    · simp [replaceAt, followSteps, editStep, hseg]
    · -- Below the child the replacement is that of the child itself.
      have hbelow : ∀ (i : Nat) (child : JsoncValue ν), current.children[i]? = some child →
          (replaceAt child newValue rest).map (current.setChild i) =
            ((followSteps editStep child rest).map (i :: ·)).bind (current.replaceNode newValue) := by
        intro i child hchild
        rw [ih child, Option.bind_map, Option.map_bind]
        congr 1
        funext position
        simp [JsoncValue.replaceNode, hchild]
      cases current with
      | object entries line =>
        rw [replaceAt, if_neg hseg, followSteps, editStep_object hseg]
        cases heditseg : editSeg (.object entries line) seg with
        | none => rfl
        | some segNorm =>
          simp only [Option.bind_some, childIndex]
          cases hfind : entries.findIdx? fun entry => decide (entry.key = unquoteSeg segNorm) with
          | none => rfl
          | some i =>
            obtain ⟨hlt, -⟩ := List.findIdx?_eq_some_iff_getElem.mp hfind
            have hentry := List.getElem?_eq_getElem hlt
            have hchild : (JsoncValue.object entries line).children[i]? =
                some entries[i].value := by simp [JsoncValue.children, hlt]
            simp only [hentry, hchild, Option.bind_some, ← hbelow i _ hchild]
            congr 1
            funext child
            exact (setChild_object hentry child).symm
      | array items line =>
        rw [replaceAt, if_neg hseg, followSteps, editStep_array hseg]
        cases heditseg : editSeg (.array items line) seg with
        | none => rfl
        | some segNorm =>
          simp only [Option.bind_some, childIndex]
          cases hindex : parseArrayIndexSegment segNorm items.length with
          | none => rfl
          | some i =>
            have hlt := parseArrayIndexSegment_lt hindex
            have hitem := List.getElem?_eq_getElem hlt
            have hchild : (JsoncValue.array items line).children[i]? = some items[i] := hitem
            simp only [hitem, hchild, Option.bind_some]
            exact hbelow i _ hchild
      | string | number | boolean | null => simp [replaceAt, followSteps, editStep, hseg]

/-! ## Where the two walks differ -/

/-- **The quoting slip**, at one node.  Resolving unquotes a segment before it asks for a position, so
quoted text that spells a position or an index is read as one, and quoted empty text addresses nothing;
an edit asks for the position first, takes quoted text as a key, and unquotes the key that a position
stands for. -/
def QuotingSlip (node : JsoncValue ν) (seg : Text) : Prop :=
  match container node with
  | some (.keyed keys) =>
    (isQuotedSeg seg = true ∧ unquoteSeg seg = [] ∧ [] ∈ keys) ∨
    (isQuotedSeg seg = true ∧ ∃ key,
      resolvePositionalSeg (unquoteSeg seg) (.keyed keys) = some key ∧ key ≠ unquoteSeg seg) ∨
    ∃ key, resolvePositionalSeg seg (.keyed keys) = some key ∧ isQuotedSeg key = true
  | some (.indexable _) => isQuotedSeg seg = true ∧ resolveStep node (unquoteSeg seg) ≠ none
  | none => False

theorem isPositional_of_resolve {seg key : Text} {container : PositionalContainer}
    (h : resolvePositionalSeg seg container = some key) : isPositionalSeg seg = true := by
  rw [isPositionalSeg, Bool.or_eq_true, decide_eq_true_eq, decide_eq_true_eq]
  by_contra hneither
  obtain ⟨hfirst, hlast⟩ := not_or.mp hneither
  cases container <;> simp [resolvePositionalSeg, hfirst, hlast] at h

/-- A quoted text starts with its quote. -/
theorem eq_cons_of_quoted (h : isQuotedSeg seg = true) : ∃ rest, seg = '"' :: rest := by
  simp only [isQuotedSeg, Bool.and_eq_true, decide_eq_true_eq] at h
  cases seg with
  | nil => simp at h
  | cons c rest =>
    have hc : c = '"' := by simpa using h.1.2
    exact ⟨rest, by rw [hc]⟩

theorem parseArrayIndexSegment_quoted (h : isQuotedSeg seg = true) (length : Nat) :
    parseArrayIndexSegment seg length = none := by
  obtain ⟨rest, rfl⟩ := eq_cons_of_quoted h
  have hnumeral : isIndexNumeral ('"' :: rest) = false := by
    rw [isIndexNumeral, if_neg (by decide)]
    rfl
  rw [parseArrayIndexSegment, hnumeral]
  rfl

/-- Without a position, a token addresses nothing in an object. -/
theorem childIndex_of_noPosition {line : Option Nat} (hpositional : isPositionalSeg seg = true)
    (h : positionalForJsonc (.object entries line) seg = none) : childIndex (.object entries line) seg = none := by
  have hkeys : entries.map (·.key) = [] := by
    rw [isPositionalSeg, Bool.or_eq_true, decide_eq_true_eq, decide_eq_true_eq] at hpositional
    rcases hpositional with rfl | rfl
    · exact List.head?_eq_none_iff.mp h
    · exact List.getLast?_eq_none_iff.mp h
  rw [List.map_eq_nil_iff] at hkeys
  rw [hkeys]
  rfl

/-- **Off the slip both walks take the same step.** -/
theorem editStep_eq_resolveStep {node : JsoncValue ν} (h : ¬ QuotingSlip node seg) :
    editStep node seg = resolveStep node (unquoteSeg seg) := by
  by_cases hempty : seg = []
  · subst hempty
    simp [editStep, resolveStep, unquoteSeg, isQuotedSeg]
  cases hquoted : isQuotedSeg seg with
  | false =>
    rw [unquoteSeg_of_not hquoted, resolveStep, if_neg hempty]
    by_cases hpositional : isPositionalSeg seg = true
    · rw [concreteSeg, if_pos hpositional]
      cases node with
      | object entries line =>
        rw [editStep_object hempty, editSeg_positional hpositional]
        cases hkey : positionalForJsonc (.object entries line) seg with
        | none => exact (childIndex_of_noPosition hpositional hkey).symm
        | some key =>
          have hplain : isQuotedSeg key = false := by
            by_contra hslip
            exact h (.inr (.inr ⟨key, hkey, by simpa using hslip⟩))
          rw [Option.bind_some, unquoteSeg_of_not hplain]
          rfl
      | array items line =>
        rw [editStep_array hempty, editSeg_positional hpositional]
        cases hkey : positionalForJsonc (.array items line) seg with
        | some key => rfl
        | none =>
          -- A token is no numeral.
          rw [isPositionalSeg, Bool.or_eq_true, decide_eq_true_eq, decide_eq_true_eq] at hpositional
          rcases hpositional with rfl | rfl <;> rfl
      | string | number | boolean | null => simp [editStep, childIndex]
    · rw [concreteSeg, if_neg hpositional]
      cases node with
      | object entries line =>
        rw [editStep_object hempty, editSeg_plain hpositional, Option.bind_some, unquoteSeg_of_not hquoted]
      | array items line =>
        rw [editStep_array hempty, editSeg_plain hpositional, Option.bind_some]
      | string | number | boolean | null => simp [editStep, childIndex]
  | true =>
    have hpositional : ¬ isPositionalSeg seg = true := by
      intro hpositional
      rw [isQuotedSeg_positional hpositional] at hquoted
      cases hquoted
    cases node with
    | object entries line =>
      rw [editStep_object hempty, editSeg_plain hpositional, Option.bind_some, resolveStep]
      split
      · rename_i hnothing
        have hmissing : [] ∉ entries.map (·.key) := fun hmem => h (.inl ⟨hquoted, hnothing, hmem⟩)
        rw [hnothing, childIndex, List.findIdx?_eq_none_iff]
        intro entry hentry
        rw [decide_eq_false_iff_not]
        exact fun hkey => hmissing (List.mem_map.mpr ⟨entry, hentry, hkey⟩)
      · rw [concreteSeg]
        split
        · cases hkey : positionalForJsonc (.object entries line) (unquoteSeg seg) with
          | none => rfl
          | some key =>
            have hsame : key = unquoteSeg seg := by
              by_contra hne
              exact h (.inr (.inl ⟨hquoted, key, hkey, hne⟩))
            rw [hsame]
            rfl
        · rfl
    | array items line =>
      have hnone : resolveStep (.array items line) (unquoteSeg seg) = none := by
        by_contra hsome
        exact h ⟨hquoted, hsome⟩
      rw [hnone, editStep_array hempty, editSeg_plain hpositional, Option.bind_some]
      exact parseArrayIndexSegment_quoted hquoted items.length
    | string | number | boolean | null => simp [editStep, resolveStep, childIndex]

/-- No slip on the way that the segments go. -/
def SlipFree : JsoncValue ν → List Text → Prop
  | _, [] => True
  | node, seg :: rest => ¬ QuotingSlip node seg ∧ ∀ i child,
      resolveStep node (unquoteSeg seg) = some i → node.children[i]? = some child → SlipFree child rest

/-- **Off the slip both walks go the same way.** -/
theorem editPosition_eq {segments : List Text} {node : JsoncValue ν} (h : SlipFree node segments) :
    followSteps editStep node segments = resolvePosition node (segments.map unquoteSeg) := by
  induction segments generalizing node with
  | nil => rfl
  | cons seg rest ih =>
    obtain ⟨hslip, hbelow⟩ := h
    rw [followSteps, List.map_cons, resolvePosition, followSteps, editStep_eq_resolveStep hslip]
    cases hstep : resolveStep node (unquoteSeg seg) with
    | none => rfl
    | some i =>
      rw [Option.bind_some, Option.bind_some]
      cases hchild : node.children[i]? with
      | none => rfl
      | some child =>
        rw [Option.bind_some, Option.bind_some, ih (hbelow i child hstep hchild)]
        rfl

/-! ## The redaction marker -/

/-- A string of the value carries the marker. -/
def Tainted (value : JsoncValue ν) : Prop :=
  ∃ position text line, value.nodeAt position = some (.string text line) ∧ text.includes redactedSentinel = true

theorem tainted_iff_child {value : JsoncValue ν} (hstring : ∀ text line, value ≠ .string text line) :
    Tainted value ↔ ∃ child ∈ value.children, Tainted child := by
  constructor
  · rintro ⟨position, text, line, hnode, hmarker⟩
    cases position with
    | nil => exact absurd (Option.some.inj hnode) (hstring text line)
    | cons i rest =>
      obtain ⟨child, hchild, hrest⟩ := Option.bind_eq_some_iff.mp hnode
      exact ⟨child, List.mem_of_getElem? hchild, rest, text, line, hrest, hmarker⟩
  · rintro ⟨child, hmem, position, text, line, hnode, hmarker⟩
    obtain ⟨i, hi, rfl⟩ := List.mem_iff_getElem.mp hmem
    refine ⟨i :: position, text, line, ?_, hmarker⟩
    rw [JsoncValue.nodeAt, List.getElem?_eq_getElem hi, Option.bind_some]
    exact hnode

/-- **Putting a value in the place of a node** taints the tree with what the value carries, and keeps
what stands beside it. -/
theorem tainted_replaceNode {old new value : JsoncValue ν} {position : List Nat}
    (h : old.replaceNode new position = some value) : Tainted value ↔ Tainted new ∨
      ∃ other text line, ¬ position <+: other ∧ old.nodeAt other = some (.string text line) ∧
        text.includes redactedSentinel = true := by
  constructor
  · rintro ⟨other, text, line, hnode, hmarker⟩
    by_cases hbelow : position <+: other
    · obtain ⟨rest, rfl⟩ := hbelow
      refine .inl ⟨rest, text, line, ?_, hmarker⟩
      rw [JsoncValue.nodeAt_append, JsoncValue.nodeAt_replaceNode h, Option.bind_some] at hnode
      exact hnode
    · by_cases habove : other <+: position
      · have hnode' : (value.nodeAt position).isSome := by
          rw [JsoncValue.nodeAt_replaceNode h]
          rfl
        have heq := JsoncValue.eq_of_childless hnode rfl hnode' habove
        exact absurd (heq ▸ List.prefix_rfl) hbelow
      · refine .inr ⟨other, text, line, hbelow, ?_, hmarker⟩
        rw [← JsoncValue.nodeAt_replaceNode_of_apart h hbelow habove]
        exact hnode
  · rintro (⟨rest, text, line, hnode, hmarker⟩ | ⟨other, text, line, hbelow, hnode, hmarker⟩)
    · refine ⟨position ++ rest, text, line, ?_, hmarker⟩
      rw [JsoncValue.nodeAt_append, JsoncValue.nodeAt_replaceNode h, Option.bind_some]
      exact hnode
    · have habove : ¬ other <+: position := by
        intro habove
        have hnode' : (old.nodeAt position).isSome := by
          rw [← JsoncValue.replaceNode_isSome new, h]
          rfl
        have heq := JsoncValue.eq_of_childless hnode rfl hnode' habove
        exact hbelow (heq ▸ List.prefix_rfl)
      refine ⟨other, text, line, ?_, hmarker⟩
      rw [JsoncValue.nodeAt_replaceNode_of_apart h hbelow habove]
      exact hnode

/-- What rendering comes to: a text, or the refusal of the marker. -/
def Renders {α : Type} (result : Except OcError α) (tainted : Prop) : Prop :=
  (¬ tainted ∧ ∃ text, result = .ok text) ∨ (tainted ∧ ∃ place, result = .error (.emitSentinel place))

theorem Renders.congr {α : Type} {result : Except OcError α} {tainted tainted' : Prop}
    (h : Renders result tainted) (hiff : tainted' ↔ tainted) : Renders result tainted' := by
  rwa [Renders, hiff]

theorem Renders.ok {α : Type} {tainted : Prop} (text : α) (h : ¬ tainted) :
    Renders (.ok text) tainted := .inl ⟨h, text, rfl⟩

theorem Renders.map {α β : Type} {result : Except OcError α} {tainted : Prop} (f : α → β)
    (h : Renders result tainted) : Renders (result.map f) tainted := by
  rcases h with ⟨hclean, text, rfl⟩ | ⟨htainted, place, rfl⟩
  · exact .inl ⟨hclean, f text, rfl⟩
  · exact .inr ⟨htainted, place, rfl⟩

/-- One part after another: the first marker is refused. -/
theorem Renders.seq {α β γ : Type} {first : Except OcError α} {rest : Except OcError β}
    {tainted tainted' : Prop} (f : α → β → γ) (h : Renders first tainted) (h' : Renders rest tainted') :
    Renders (do let a ← first; let b ← rest; return f a b) (tainted ∨ tainted') := by
  rcases h with ⟨hclean, text, rfl⟩ | ⟨htainted, place, rfl⟩
  · rcases h' with ⟨hclean', text', rfl⟩ | ⟨htainted', place, rfl⟩
    · exact .inl ⟨not_or.mpr ⟨hclean, hclean'⟩, f text text', rfl⟩
    · exact .inr ⟨.inr htainted', place, rfl⟩
  · exact .inr ⟨.inl htainted, place, rfl⟩

variable (numberText : ν → Text)

mutual

/-- **Rendering refuses the marker**, and nothing else. -/
theorem renderValue_renders (guardPath : Text) (walked : List Text) :
    ∀ value : JsoncValue ν, Renders (renderValue numberText guardPath walked value) (Tainted value)
  | .object entries line => by
    refine ((renderEntries_renders guardPath walked entries).map _).congr ?_
    rw [tainted_iff_child fun _ _ h => by cases h]
    simp [JsoncValue.children]
  | .array items line => by
    refine ((renderItems_renders guardPath walked 0 items).map _).congr ?_
    rw [tainted_iff_child fun _ _ h => by cases h]
    rfl
  | .string text line => by
    rw [renderValue]
    split
    · rename_i hmarker
      exact .inr ⟨⟨[], text, line, rfl, hmarker⟩, _, rfl⟩
    · rename_i hclean
      refine .ok _ ?_
      rintro ⟨position, text', line', hnode, hmarker⟩
      cases position with
      | nil =>
        cases hnode
        exact hclean hmarker
      | cons => cases hnode
  | .number value line => .ok _ fun h => by simp [tainted_iff_child, JsoncValue.children] at h
  | .boolean value line => .ok _ fun h => by simp [tainted_iff_child, JsoncValue.children] at h
  | .null line => .ok _ fun h => by simp [tainted_iff_child, JsoncValue.children] at h

theorem renderEntries_renders (guardPath : Text) (walked : List Text) :
    ∀ entries : List (JsoncEntry (JsoncValue ν)),
      Renders (renderEntries numberText guardPath walked entries) (∃ entry ∈ entries, Tainted entry.value)
  | [] => .ok _ (by simp)
  | ⟨key, value, line⟩ :: rest => by
    rw [renderEntries]
    refine (Renders.seq _ (renderValue_renders guardPath (walked ++ [key]) value)
      (renderEntries_renders guardPath walked rest)).congr ?_
    simp

theorem renderItems_renders (guardPath : Text) (walked : List Text) (i : Nat) :
    ∀ items : List (JsoncValue ν),
      Renders (renderItems numberText guardPath walked i items) (∃ item ∈ items, Tainted item)
  | [] => .ok _ (by simp)
  | value :: rest => by
    rw [renderItems]
    refine (Renders.seq _ (renderValue_renders guardPath (walked ++ [decimalText i]) value)
      (renderItems_renders guardPath walked (i + 1) rest)).congr ?_
    simp

end

/-- A value line carries the marker. -/
def LineTainted : JsonlLine ν → Prop
  | .value _ value _ => Tainted value
  | _ => False

theorem renderLine_renders {opts : JsonlEmitOptions} (h : opts.acceptPreExistingSentinel = true)
    (ln : JsonlLine ν) : Renders (renderLine numberText opts ln) (LineTainted ln) := by
  cases ln with
  | value line value raw => exact renderValue_renders numberText _ [] value
  | blank line raw =>
    rw [renderLine, h]
    exact .ok raw fun h => h
  | malformed line raw =>
    rw [renderLine, h]
    exact .ok raw fun h => h

theorem renderLines_renders {opts : JsonlEmitOptions} (h : opts.acceptPreExistingSentinel = true)
    (lines : List (JsonlLine ν)) :
    Renders (lines.mapM (renderLine numberText opts)) (∃ ln ∈ lines, LineTainted ln) := by
  induction lines with
  | nil => exact .ok [] (by simp)
  | cons ln rest ih =>
    rw [List.mapM_cons]
    refine (Renders.seq _ (renderLine_renders numberText h ln) ih).congr ?_
    simp

/-- **Finishing an edit**: the lines are as edited, unless the marker would be rendered. -/
theorem finalize_renders (ast : JsonlAst ν) (i : Nat) (ln : JsonlLine ν) (fileName : Text) :
    (¬ (∃ other ∈ ast.lines.set i ln, LineTainted other) ∧ ∃ rendered,
      finalize numberText ast i ln fileName =
        .ok (.ok { ast with raw := rendered, lines := ast.lines.set i ln })) ∨
    ((∃ other ∈ ast.lines.set i ln, LineTainted other) ∧ ∃ place,
      finalize numberText ast i ln fileName = .error (.emitSentinel place)) := by
  unfold finalize emitJsonl
  dsimp only
  rcases (@renderLines_renders ν numberText { mode := .render, fileNameForGuard := some fileName }
      rfl (ast.lines.set i ln)).map (join (ast.lineEnding.getD .lf).text) with
    ⟨hclean, rendered, heq⟩ | ⟨htainted, place, heq⟩
  · exact .inl ⟨hclean, rendered, by rw [heq]; rfl⟩
  · exact .inr ⟨htainted, place, by rw [heq]; rfl⟩

/-! ## Addressed lines -/

/-- What a line address reads of a line. -/
def lineLabel (ln : JsonlLine ν) : Nat × Bool := (ln.line, ln.isValue)

theorem pickLineIndex_congr {ast ast' : JsonlAst ν}
    (h : ast'.lines.map lineLabel = ast.lines.map lineLabel) (addr : Text) :
    pickLineIndex ast' addr = pickLineIndex ast addr := by
  have hfind : ∀ q : Nat × Bool → Bool, ast'.lines.findIdx? (fun l => q (lineLabel l)) =
      ast.lines.findIdx? fun l => q (lineLabel l) := by
    intro q
    have hmap := congrArg (List.findIdx? q) h
    rwa [List.findIdx?_map, List.findIdx?_map] at hmap
  have hlast : ast'.lines.reverse.findIdx? (·.isValue) = ast.lines.reverse.findIdx? (·.isValue) := by
    have hmap := congrArg (fun labels => List.findIdx? (·.2) labels.reverse) h
    simp only [← List.map_reverse, List.findIdx?_map] at hmap
    exact hmap
  have hlength : ast'.lines.length = ast.lines.length := by
    simpa using congrArg List.length h
  unfold pickLineIndex
  rw [hlast, hlength]
  split
  · exact hfind (·.2)
  · split
    · rfl
    · cases lineDigits addr with
      | none => rfl
      | some digits => exact hfind fun label => numberOfDigits digits = some label.1

/-- Both look at the same line. -/
theorem pickJsonlLine_eq (ast : JsonlAst ν) (addr : Text) :
    pickJsonlLine ast addr = (pickLineIndex ast addr).bind fun i => ast.lines[i]? := by
  unfold pickJsonlLine pickLineIndex
  split
  · exact find?_eq_getElem?_findIdx? _ _
  · split
    · rw [find?_eq_getElem?_findIdx?]
      cases hfind : ast.lines.reverse.findIdx? (·.isValue) with
      | none => rfl
      | some i =>
        obtain ⟨hlt, -⟩ := List.findIdx?_eq_some_iff_getElem.mp hfind
        rw [List.length_reverse] at hlt
        exact List.getElem?_reverse hlt
    · cases lineDigits addr with
      | none => rfl
      | some digits => exact find?_eq_getElem?_findIdx? _ _

/-- The value that a match is about. -/
def JsonlOcPathMatch.valueNode : JsonlOcPathMatch ν → Option (JsoncValue ν)
  | .line (.value _ node _) => some node
  | .value node _ _ => some node
  | .objectEntry entry _ _ => some entry.value
  | _ => none

/-- The value that a result of resolving is about. -/
def foundNode : Except OcError (Option (JsonlOcPathMatch ν)) → Option (JsoncValue ν)
  | .ok (some found) => found.valueNode
  | _ => none

theorem foundNode_onLine (result : Option (JsoncValueOcPathMatch ν)) (line : Nat) :
    foundNode (.ok (result.map (·.onLine line))) = result.map (·.node) := by
  cases result with
  | none => rfl
  | some found => cases found <;> rfl

/-- The node inside a value line, or the whole value of one, that a path resolves to. -/
def resolvedNode (ast : JsonlAst ν) (path : OcPath) : Option (JsoncValue ν) := foundNode (resolveJsonlOcPath ast path)

/-- The path addresses the value line at `i`, and below it the segments. -/
structure Addresses (ast : JsonlAst ν) (path : OcPath) (i : Nat) (line : Nat) (value : JsoncValue ν)
    (raw : Text) (segments : List Text) : Prop where
  picked : ∃ head, path.section = some head ∧ pickLineIndex ast head = some i
  value : ast.lines[i]? = some (.value line value raw)
  segments : slotSegments path = .ok segments

theorem slotSegments_none {path : OcPath} (h : path.item = none ∧ path.field = none) : slotSegments path = .ok [] := by
  rw [slotSegments, h.1, h.2]
  rfl

theorem Addresses.resolvedNode_eq {ast : JsonlAst ν} {path : OcPath} {i line : Nat}
    {value : JsoncValue ν} {raw : Text} {segments : List Text} (h : Addresses ast path i line value raw segments) :
    resolvedNode ast path = (resolvePosition value (segments.map unquoteSeg)).bind value.nodeAt := by
  obtain ⟨⟨head, hhead, hpick⟩, hvalue, hsegments⟩ := h
  have hline : pickJsonlLine ast head = some (.value line value raw) := by
    rw [pickJsonlLine_eq, hpick, Option.bind_some, hvalue]
  rw [resolvedNode, resolveJsonlOcPath, hhead]
  dsimp only
  rw [hline]
  dsimp only
  by_cases hslots : path.item = none ∧ path.field = none
  · rw [if_pos hslots]
    rw [slotSegments_none hslots] at hsegments
    cases hsegments
    rfl
  · rw [if_neg hslots, hsegments, ← resolveJsoncValueOcPath_node]
    exact foundNode_onLine _ line

theorem Addresses.setJsonlOcPath_eq {ast : JsonlAst ν} {path : OcPath} {i line : Nat}
    {value : JsoncValue ν} {raw : Text} {segments : List Text}
    (h : Addresses ast path i line value raw segments) (newValue : JsoncValue ν) :
    setJsonlOcPath numberText ast path newValue =
      match replaceAt value newValue segments with
      | none => .ok (.refused .unresolved)
      | some replaced => finalize numberText ast i (.value line replaced raw) path.file := by
  obtain ⟨⟨head, hhead, hpick⟩, hvalue, hsegments⟩ := h
  rw [setJsonlOcPath, hhead]
  dsimp only
  rw [hpick]
  dsimp only
  rw [hvalue]
  dsimp only
  by_cases hslots : path.item = none ∧ path.field = none
  · rw [if_pos hslots]
    rw [slotSegments_none hslots] at hsegments
    cases hsegments
    rfl
  · rw [if_neg hslots, hsegments]
    rfl

/-- A path that addresses no value line resolves to no node of one, and no edit at it succeeds. -/
theorem addresses_or_not (ast : JsonlAst ν) (path : OcPath) :
    (∃ i line value raw segments, Addresses ast path i line value raw segments) ∨
      resolvedNode ast path = none ∧ ∀ newValue ast', setJsonlOcPath numberText ast path newValue ≠ .ok (.ok ast') := by
  unfold resolvedNode resolveJsonlOcPath setJsonlOcPath
  cases hhead : path.section with
  | none => exact .inr ⟨rfl, fun _ _ h => by cases h⟩
  | some head =>
    dsimp only
    rw [pickJsonlLine_eq]
    cases hpick : pickLineIndex ast head with
    | none => exact .inr ⟨rfl, fun _ _ h => by cases h⟩
    | some i =>
      rw [Option.bind_some]
      dsimp only
      cases hline : ast.lines[i]? with
      | none => exact .inr ⟨rfl, fun _ _ h => by cases h⟩
      | some ln =>
        cases ln with
        | value line value raw =>
          cases hsegments : slotSegments path with
          | ok segments =>
            exact .inl ⟨i, line, value, raw, segments, ⟨head, hhead, hpick⟩, hline, hsegments⟩
          | error thrown =>
            have hslots : ¬ (path.item = none ∧ path.field = none) := by
              intro hslots
              rw [slotSegments_none hslots] at hsegments
              cases hsegments
            dsimp only
            rw [if_neg hslots]
            refine .inr ⟨rfl, fun newValue ast' h => ?_⟩
            rw [if_neg hslots] at h
            cases h
        | blank line raw =>
          dsimp only
          by_cases hslots : path.item = none ∧ path.field = none
          · rw [if_pos hslots]
            exact .inr ⟨rfl, fun _ _ h => by cases h⟩
          · rw [if_neg hslots]
            exact .inr ⟨rfl, fun _ _ h => by cases h⟩
        | malformed line raw =>
          dsimp only
          by_cases hslots : path.item = none ∧ path.field = none
          · rw [if_pos hslots]
            exact .inr ⟨rfl, fun _ _ h => by cases h⟩
          · rw [if_neg hslots]
            exact .inr ⟨rfl, fun _ _ h => by cases h⟩

/-! ## Edits -/

/-- **`ast'` is `ast` with `newValue` in the place of one node**, the one at `position` in the value line
at `i`. -/
structure EditOf (ast ast' : JsonlAst ν) (i : Nat) (position : List Nat) (newValue : JsoncValue ν) :
    Prop where
  lineEnding : ast'.lineEnding = ast.lineEnding
  others : ∀ j, j ≠ i → ast'.lines[j]? = ast.lines[j]?
  target : ∃ line old new raw, ast.lines[i]? = some (.value line old raw) ∧
    ast'.lines[i]? = some (.value line new raw) ∧ new.nodeAt position = some newValue ∧
    (∀ other, ¬ position <+: other → ¬ other <+: position → new.nodeAt other = old.nodeAt other) ∧
    ∀ other, other <+: position → other ≠ position →
      (new.nodeAt other).map JsoncValue.shell = (old.nodeAt other).map JsoncValue.shell

/-- The node at `position` in the value line at `i`. -/
def NodeOf (ast : JsonlAst ν) (i : Nat) (position : List Nat) (node : JsoncValue ν) : Prop :=
  ∃ line value raw, ast.lines[i]? = some (.value line value raw) ∧ value.nodeAt position = some node

/-- Neither the new value nor a string outside the replaced node carries the marker. -/
def MarkerFree (ast : JsonlAst ν) (i : Nat) (position : List Nat) (newValue : JsoncValue ν) : Prop :=
  ¬ Tainted newValue ∧ ∀ j line value raw, ast.lines[j]? = some (.value line value raw) →
    ∀ other text textLine, value.nodeAt other = some (.string text textLine) →
      text.includes redactedSentinel = true → j = i ∧ position <+: other

theorem lineTainted_edited {ast : JsonlAst ν} {i line : Nat} {old new newValue : JsoncValue ν} {raw : Text}
    {position : List Nat} (hline : ast.lines[i]? = some (.value line old raw))
    (hnew : old.replaceNode newValue position = some new) :
    (∃ other ∈ ast.lines.set i (.value line new raw), LineTainted other) ↔ ¬ MarkerFree ast i position newValue := by
  obtain ⟨hlt, -⟩ := List.getElem?_eq_some_iff.mp hline
  constructor
  · rintro ⟨other, hmem, htainted⟩ ⟨hclean, hmarkers⟩
    obtain ⟨j, hj⟩ := List.mem_iff_getElem?.mp hmem
    cases other with
    | value line' value' raw' =>
      by_cases hij : i = j
      · subst hij
        rw [List.getElem?_set_self hlt] at hj
        cases hj
        rcases (tainted_replaceNode hnew).mp htainted with hnewValue | ⟨q, text, l, hq, hnode, hmarker⟩
        · exact hclean hnewValue
        · exact hq (hmarkers i line old raw hline q text l hnode hmarker).2
      · rw [List.getElem?_set_ne hij] at hj
        obtain ⟨q, text, l, hnode, hmarker⟩ := htainted
        exact hij (hmarkers j line' value' raw' hj q text l hnode hmarker).1.symm
    | blank | malformed => exact htainted
  · intro hmarked
    by_contra hnone
    have hclean : ∀ {j other}, (ast.lines.set i (.value line new raw))[j]? = some other → ¬ LineTainted other :=
      fun hj htainted => hnone ⟨_, List.mem_of_getElem? hj, htainted⟩
    have htarget := hclean (List.getElem?_set_self hlt)
    refine hmarked ⟨fun h => htarget ((tainted_replaceNode hnew).mpr (.inl h)), ?_⟩
    intro j line' value' raw' hj q text l hnode hmarker
    by_cases hij : i = j
    · subst hij
      rw [hline] at hj
      cases hj
      refine ⟨rfl, ?_⟩
      by_contra hq
      exact htarget ((tainted_replaceNode hnew).mpr (.inr ⟨q, text, l, hq, hnode, hmarker⟩))
    · have hother := hclean ((List.getElem?_set_ne hij).trans hj)
      exact absurd ⟨q, text, l, hnode, hmarker⟩ hother

/-- No quoting slip on the way of a path. -/
def SlipFreePath (ast : JsonlAst ν) (path : OcPath) : Prop :=
  ∀ i line value raw segments, Addresses ast path i line value raw segments → SlipFree value segments

/-- **An edit changes what resolving finds.**  A path without a quoting slip that resolves to no node of
a value line cannot be edited.  One that does is edited in the place of that node and nowhere else, and
resolves to the new value afterwards; only the redaction marker is refused. -/
theorem jsonl_edit_changes_resolved (ast : JsonlAst ν) (path : OcPath) (newValue : JsoncValue ν)
    (hslip : SlipFreePath ast path) :
    (resolvedNode ast path = none → ∀ ast', setJsonlOcPath numberText ast path newValue ≠ .ok (.ok ast')) ∧
    ∀ node, resolvedNode ast path = some node → ∃ i position, NodeOf ast i position node ∧
      (MarkerFree ast i position newValue → ∃ ast', setJsonlOcPath numberText ast path newValue = .ok (.ok ast') ∧
        EditOf ast ast' i position newValue ∧ resolvedNode ast' path = some newValue) ∧
      (¬ MarkerFree ast i position newValue → ∃ place,
        setJsonlOcPath numberText ast path newValue = .error (.emitSentinel place)) := by
  rcases addresses_or_not numberText ast path with ⟨i, line, value, raw, segments, haddress⟩ | ⟨hnone, hset⟩
  · have hedit := haddress.setJsonlOcPath_eq numberText newValue
    rw [replaceAt_eq, editPosition_eq (hslip i line value raw segments haddress)] at hedit
    rw [haddress.resolvedNode_eq]
    cases hposition : resolvePosition value (segments.map unquoteSeg) with
    | none =>
      rw [hposition] at hedit
      refine ⟨fun _ ast' h => ?_, fun node hnode => by cases hnode⟩
      rw [hedit] at h
      cases h
    | some position =>
      obtain ⟨node, hnode⟩ := Option.isSome_iff_exists.mp (nodeAt_resolvePosition hposition)
      obtain ⟨new, hnew⟩ : ∃ new, value.replaceNode newValue position = some new := by
        rw [← Option.isSome_iff_exists, JsoncValue.replaceNode_isSome, hnode]
        rfl
      rw [hposition, Option.bind_some, hnew] at hedit
      rw [Option.bind_some, hnode]
      refine ⟨fun h => by (cases h), fun found hfound => ?_⟩
      cases hfound
      refine ⟨i, position, ⟨line, value, raw, haddress.value, hnode⟩, ?_⟩
      have htainted := lineTainted_edited haddress.value hnew
      obtain ⟨hlt, -⟩ := List.getElem?_eq_some_iff.mp haddress.value
      rcases finalize_renders numberText ast i (.value line new raw) path.file with
        ⟨hclean, rendered, hok⟩ | ⟨hmarked, place, herror⟩
      · refine ⟨fun _ => ⟨_, hedit.trans hok, ?_, ?_⟩, fun h => absurd (htainted.mpr h) hclean⟩
        · refine ⟨rfl, fun j hj => List.getElem?_set_ne (Ne.symm hj), line, value, new, raw,
            haddress.value, List.getElem?_set_self hlt, JsoncValue.nodeAt_replaceNode hnew, ?_, ?_⟩
          · exact fun other => JsoncValue.nodeAt_replaceNode_of_apart hnew
          · exact fun other => JsoncValue.shell_replaceNode hnew
        · -- The edited document is addressed in the same way.
          obtain ⟨⟨head, hhead, hpick⟩, hvalue, hsegments⟩ := haddress
          have hlabels : (ast.lines.set i (.value line new raw)).map lineLabel = ast.lines.map lineLabel := by
            rw [List.map_set]
            apply List.ext_getElem?
            intro j
            by_cases hij : i = j
            · subst hij
              rw [List.getElem?_set_self (by simpa using hlt), List.getElem?_map, hvalue]
              rfl
            · rw [List.getElem?_set_ne hij]
          have haddress' : Addresses { ast with
              raw := rendered, lines := ast.lines.set i (.value line new raw) } path i line new raw
              segments := by
            refine ⟨⟨head, hhead, ?_⟩, List.getElem?_set_self hlt, hsegments⟩
            rw [← hpick]
            exact pickLineIndex_congr hlabels head
          rw [haddress'.resolvedNode_eq, resolvePosition_replaceNode hposition hnew, Option.bind_some]
          exact JsoncValue.nodeAt_replaceNode hnew
      · exact ⟨fun h => absurd h (htainted.mp hmarked), fun _ => ⟨place, hedit.trans herror⟩⟩
  · refine ⟨fun _ => hset newValue, fun node hnode => ?_⟩
    rw [hnone] at hnode
    cases hnode

/-- One line, `{"tags":[1,2]}`. -/
def tagsLog : JsonlAst Nat :=
  { raw := []
    lines := [.value 1 (.object [⟨"tags".toList, .array [.number 1 none, .number 2 none] none, 1⟩] none) []]
    lineEnding := some .lf }

/-- `L1/"tags".$last` -/
def lastTagPath : OcPath :=
  { file := "log.jsonl".toList, «section» := some "L1".toList, item := some "\"tags\".$last".toList }

theorem lastTagPath_slipFree : SlipFreePath tagsLog lastTagPath := by
  rintro i line value raw segments ⟨⟨head, hhead, hpick⟩, hvalue, hsegments⟩
  cases hhead
  have hfirst : pickLineIndex tagsLog "L1".toList = some 0 := by decide
  have hparts : slotSegments lastTagPath = .ok ["\"tags\"".toList, "$last".toList] := by rfl
  obtain rfl : 0 = i := Option.some.inj (hfirst.symm.trans hpick)
  obtain rfl : _ = segments := Except.ok.inj (hparts.symm.trans hsegments)
  cases hvalue
  -- No key is empty, a position or quoted, and the array is addressed by a position.
  refine ⟨?_, fun i child hstep hchild => ⟨?_, fun _ _ _ _ => trivial⟩⟩
  · rintro (⟨-, hnothing, -⟩ | ⟨-, key, hkey, -⟩ | ⟨key, hkey, -⟩)
    · exact absurd hnothing (by decide)
    · exact absurd (isPositional_of_resolve hkey) (by decide)
    · exact absurd (isPositional_of_resolve hkey) (by decide)
  · obtain rfl : 0 = i := Option.some.inj hstep
    cases hchild
    rintro ⟨hquoted, -⟩
    exact absurd hquoted (by decide)

/-- The last tag is replaced. -/
theorem jsonl_edit_changes_resolved_tag : ∃ i position, NodeOf tagsLog i position (.number 2 none) ∧
      (MarkerFree tagsLog i position (.number 7 none) → ∃ ast',
        setJsonlOcPath decimalText tagsLog lastTagPath (.number 7 none) = .ok (.ok ast') ∧
        EditOf tagsLog ast' i position (.number 7 none) ∧ resolvedNode ast' lastTagPath = some (.number 7 none)) ∧
      (¬ MarkerFree tagsLog i position (.number 7 none) → ∃ place,
        setJsonlOcPath decimalText tagsLog lastTagPath (.number 7 none) = .error (.emitSentinel place)) :=
  (jsonl_edit_changes_resolved decimalText tagsLog lastTagPath (.number 7 none) lastTagPath_slipFree).2
    (.number 2 none) rfl

/-- **The marker is refused** although the path resolves to the whole of a value line. -/
theorem edit_refuses_marker : ¬ ∀ (ast : JsonlAst Nat) (path : OcPath) (newValue : JsoncValue Nat),
    path.section ≠ none → ((∃ ast', setJsonlOcPath decimalText ast path newValue = .ok (.ok ast')) ↔
      resolvedNode ast path ≠ none) := by
  intro h
  have hresolved : resolvedNode tagsLog { lastTagPath with item := none } ≠ none := fun h => by cases h
  obtain ⟨ast', hset⟩ := (h tagsLog { lastTagPath with item := none }
    (.string redactedSentinel none) (by decide)).mpr hresolved
  cases hset

end OpenClaw.OcPaths
