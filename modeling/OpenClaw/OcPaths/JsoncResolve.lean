/-
# OpenClaw.OcPaths.JsoncResolve -- the node of a JSON value that a list of segments addresses

`resolveJsoncValueOcPath` of `resolve-value.ts` walks down one child for each segment.  `resolvePosition`
is the way it goes, and its result is the node there.
-/
import OpenClaw.OcPaths.JsoncTree

namespace OpenClaw.OcPaths

open OpenClaw.Data

variable {ν : Type}

inductive JsoncValueOcPathMatch (ν : Type) where
  | value (node : JsoncValue ν) (path : List Text)
  | objectEntry (node : JsoncEntry (JsoncValue ν)) (path : List Text)

/-- The value a match is about. -/
def JsoncValueOcPathMatch.node : JsoncValueOcPathMatch ν → JsoncValue ν
  | .value node _ => node
  | .objectEntry entry _ => entry.value

def positionalForJsonc (node : JsoncValue ν) (seg : Text) : Option Text :=
  match node with
  | .object entries _ => resolvePositionalSeg seg (.keyed (entries.map (·.key)))
  | .array items _ => resolvePositionalSeg seg (.indexable items.length)
  | _ => none

/-- The segment with a positional token made concrete. -/
def concreteSeg (node : JsoncValue ν) (seg : Text) : Text :=
  if isPositionalSeg seg then (positionalForJsonc node seg).getD seg else seg

/-- The loop: `lastEntry` is the entry whose value is `current`, if `current` is the value of one. -/
def resolveFrom (current : JsoncValue ν) (lastEntry : Option (JsoncEntry (JsoncValue ν)))
    (walked : List Text) : List Text → Option (JsoncValueOcPathMatch ν)
  | [] =>
    match lastEntry with
    | some entry => some (.objectEntry entry walked)
    | none => some (.value current walked)
  | seg :: rest =>
    if seg = [] then none
    else
      let seg := concreteSeg current seg
      match current with
      | .object entries _ =>
        match entries.find? fun entry => entry.key = seg with
        | none => none
        | some entry => resolveFrom entry.value (some entry) (walked ++ [seg]) rest
      | .array items _ =>
        match parseArrayIndexSegment seg items.length with
        | none => none
        | some idx =>
          match items[idx]? with
          | none => none
          | some item => resolveFrom item none (walked ++ [seg]) rest
      | _ => none

def resolveJsoncValueOcPath (root : JsoncValue ν) (segments : List Text) :
    Option (JsoncValueOcPathMatch ν) := resolveFrom root none [] segments

/-! ## The way down -/

/-- The child with a key, or at an index. -/
def childIndex (node : JsoncValue ν) (seg : Text) : Option Nat :=
  match node with
  | .object entries _ => entries.findIdx? fun entry => entry.key = seg
  | .array items _ => parseArrayIndexSegment seg items.length
  | _ => none

/-- The child that the loop goes to. -/
def resolveStep (node : JsoncValue ν) (seg : Text) : Option Nat :=
  if seg = [] then none else childIndex node (concreteSeg node seg)

/-- The positions that `step` goes through. -/
def followSteps (step : JsoncValue ν → Text → Option Nat) : JsoncValue ν → List Text → Option (List Nat)
  | _, [] => some []
  | node, seg :: rest =>
    (step node seg).bind fun i =>
      node.children[i]?.bind fun child => (followSteps step child rest).map (i :: ·)

def resolvePosition : JsoncValue ν → List Text → Option (List Nat) := followSteps resolveStep

theorem followSteps_cons {step : JsoncValue ν → Text → Option Nat} {node : JsoncValue ν} {seg : Text}
    {rest : List Text} {position : List Nat} (h : followSteps step node (seg :: rest) = some position) :
    ∃ i child below, step node seg = some i ∧ node.children[i]? = some child ∧
      followSteps step child rest = some below ∧ position = i :: below := by
  obtain ⟨i, hstep, hrest⟩ := Option.bind_eq_some_iff.mp h
  obtain ⟨child, hchild, hmap⟩ := Option.bind_eq_some_iff.mp hrest
  obtain ⟨below, hbelow, rfl⟩ := Option.map_eq_some_iff.mp hmap
  exact ⟨i, child, below, hstep, hchild, hbelow, rfl⟩

theorem parseArrayIndexSegment_lt {seg : Text} {length index : Nat}
    (h : parseArrayIndexSegment seg length = some index) : index < length := by
  unfold parseArrayIndexSegment at h
  split at h
  · have hbounds := (Option.filter_eq_some_iff.mp h).2
    rw [Bool.and_eq_true, decide_eq_true_eq, decide_eq_true_eq] at hbounds
    exact hbounds.2
  · cases h

/-- The entry that is found is the one at the index that is found. -/
theorem find?_eq_getElem?_findIdx? {α : Type} (p : α → Bool) (xs : List α) :
    xs.find? p = (xs.findIdx? p).bind fun i => xs[i]? := by
  induction xs with
  | nil => rfl
  | cons x rest ih =>
    rw [List.find?_cons, List.findIdx?_cons]
    cases p x with
    | true => rfl
    | false =>
      rw [ih]
      cases rest.findIdx? p <;> rfl

/-- **The loop ends at the node of its way.** -/
theorem resolveFrom_node (segments : List Text) (current : JsoncValue ν)
    (lastEntry : Option (JsoncEntry (JsoncValue ν))) (walked : List Text)
    (hlast : ∀ entry, lastEntry = some entry → entry.value = current) :
    (resolveFrom current lastEntry walked segments).map (·.node) =
      (resolvePosition current segments).bind current.nodeAt := by
  induction segments generalizing current lastEntry walked with
  | nil =>
    cases lastEntry with
    | none => rfl
    | some entry => exact congrArg some (hlast entry rfl)
  | cons seg rest ih =>
    by_cases hseg : seg = []
    · simp [resolveFrom, resolvePosition, followSteps, resolveStep, hseg]
    · rw [resolveFrom, if_neg hseg, resolvePosition, followSteps, resolveStep, if_neg hseg]
      dsimp only
      -- Below the child the walk goes on as from the child itself.
      have hbelow : ∀ (i : Nat) (child : JsoncValue ν) (last : Option (JsoncEntry (JsoncValue ν)))
          (walked : List Text), current.children[i]? = some child →
          (∀ entry, last = some entry → entry.value = child) →
          (resolveFrom child last walked rest).map (·.node) =
            ((resolvePosition child rest).map (i :: ·)).bind current.nodeAt := by
        intro i child last walked hchild hlast'
        rw [ih child last walked hlast', Option.bind_map]
        congr 1
        funext position
        simp [JsoncValue.nodeAt, hchild]
      cases current with
      | object entries line =>
        simp only [find?_eq_getElem?_findIdx?, childIndex]
        cases hfind : entries.findIdx? fun entry => decide (entry.key = concreteSeg
            (.object entries line) seg) with
        | none => rfl
        | some i =>
          obtain ⟨hlt, -⟩ := List.findIdx?_eq_some_iff_getElem.mp hfind
          have hchild : (JsoncValue.object entries line).children[i]? = some entries[i].value := by
            simp [JsoncValue.children, hlt]
          simp only [Option.bind_some, List.getElem?_eq_getElem hlt, hchild]
          apply hbelow i _ _ _ hchild
          rintro entry ⟨⟩
          rfl
      | array items line =>
        simp only [childIndex]
        cases hindex : parseArrayIndexSegment (concreteSeg (.array items line) seg) items.length with
        | none => rfl
        | some i =>
          have hlt := parseArrayIndexSegment_lt hindex
          have hchild : (JsoncValue.array items line).children[i]? = some items[i] := List.getElem?_eq_getElem hlt
          simp only [Option.bind_some, List.getElem?_eq_getElem hlt, hchild]
          exact hbelow i _ _ _ hchild fun entry hentry => by cases hentry
      | string | number | boolean | null => rfl

theorem resolveJsoncValueOcPath_node (root : JsoncValue ν) (segments : List Text) :
    (resolveJsoncValueOcPath root segments).map (·.node) = (resolvePosition root segments).bind root.nodeAt :=
  resolveFrom_node segments root none [] fun _ h => by cases h

/-- The way ends at a node. -/
theorem nodeAt_resolvePosition {segments : List Text} {root : JsoncValue ν} {position : List Nat}
    (h : resolvePosition root segments = some position) : (root.nodeAt position).isSome := by
  induction segments generalizing root position with
  | nil =>
    cases h
    rfl
  | cons seg rest ih =>
    obtain ⟨i, child, below, -, hchild, hposition, rfl⟩ := followSteps_cons h
    rw [JsoncValue.nodeAt, hchild, Option.bind_some]
    exact ih hposition

/-! ## Values of one shape -/

/-- What positions and indexes read of a value. -/
def container : JsoncValue ν → Option PositionalContainer
  | .object entries _ => some (.keyed (entries.map (·.key)))
  | .array items _ => some (.indexable items.length)
  | _ => none

theorem container_shell (node : JsoncValue ν) : container node.shell = container node := by
  cases node with
  | object entries line => simp [JsoncValue.shell, container]
  | array items line => simp [JsoncValue.shell, container]
  | string | number | boolean | null => rfl

theorem positionalForJsonc_eq (node : JsoncValue ν) (seg : Text) :
    positionalForJsonc node seg = (container node).bind (resolvePositionalSeg seg) := by
  cases node <;> rfl

/-- The child of a container with a key, or at an index. -/
def indexIn (seg : Text) : PositionalContainer → Option Nat
  | .keyed keys => keys.findIdx? (· = seg)
  | .indexable size => parseArrayIndexSegment seg size

theorem childIndex_eq (node : JsoncValue ν) (seg : Text) :
    childIndex node seg = (container node).bind (indexIn seg) := by
  cases node with
  | object entries line => simp [childIndex, container, indexIn, List.findIdx?_map, Function.comp_def]
  | array items line => rfl
  | string | number | boolean | null => rfl

/-- A step is the same from values of one shape. -/
theorem resolveStep_congr {node node' : JsoncValue ν} (h : node'.shell = node.shell) (seg : Text) :
    resolveStep node' seg = resolveStep node seg := by
  have hcontainer : container node' = container node := by
    rw [← container_shell node', ← container_shell node, h]
  simp only [resolveStep, concreteSeg, childIndex_eq, positionalForJsonc_eq, hcontainer]

/-- **The way to a replaced node is the way to the node it replaced.** -/
theorem resolvePosition_replaceNode {segments : List Text} {root root' new : JsoncValue ν}
    {position : List Nat} (h : resolvePosition root segments = some position)
    (hroot' : root.replaceNode new position = some root') : resolvePosition root' segments = some position := by
  induction segments generalizing root root' position with
  | nil => exact h
  | cons seg rest ih =>
    obtain ⟨i, child, below, hstep, hchild, hposition, rfl⟩ := followSteps_cons h
    obtain ⟨found, child', hfound, hchild', rfl⟩ := JsoncValue.replaceNode_cons hroot'
    obtain rfl : child = found := Option.some.inj (hchild.symm.trans hfound)
    obtain ⟨hlt, -⟩ := List.getElem?_eq_some_iff.mp hchild
    rw [resolvePosition, followSteps, resolveStep_congr (JsoncValue.shell_setChild root i child'), hstep,
      Option.bind_some, JsoncValue.children_setChild, List.getElem?_set_self hlt, Option.bind_some]
    exact congrArg (Option.map (i :: ·)) (ih hposition hchild')

end OpenClaw.OcPaths
