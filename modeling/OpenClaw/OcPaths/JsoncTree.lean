/-
# OpenClaw.OcPaths.JsoncTree -- JSON values as trees

A JSON value, with the line each part starts on, and its nodes: a node is reached by the positions of
the children on the way to it, so two equal subtrees are two nodes.  `replaceNode` puts a new subtree in
the place of one node and leaves everything beside the way to it as it was.

The numbers of a document are a parameter `ν`.
-/
import OpenClaw.OcPaths.PathSegments

namespace OpenClaw.OcPaths

open OpenClaw.Data

/-- An entry of an object whose values are `V`. -/
structure JsoncEntry (V : Type) where
  key : Text
  value : V
  line : Nat

inductive JsoncValue (ν : Type) where
  | object (entries : List (JsoncEntry (JsoncValue ν))) (line : Option Nat)
  | array (items : List (JsoncValue ν)) (line : Option Nat)
  | string (value : Text) (line : Option Nat)
  | number (value : ν) (line : Option Nat)
  | boolean (value : Bool) (line : Option Nat)
  | null (line : Option Nat)

variable {ν : Type}

namespace JsoncValue

/-! ## Children -/

def children : JsoncValue ν → List (JsoncValue ν)
  | .object entries _ => entries.map (·.value)
  | .array items _ => items
  | _ => []

/-- The value with another child at `i`. -/
def setChild (value : JsoncValue ν) (i : Nat) (child : JsoncValue ν) : JsoncValue ν :=
  match value with
  | .object entries line => .object (entries.modify i fun entry => { entry with value := child }) line
  | .array items line => .array (items.set i child) line
  | value => value

/-- What a value is apart from its children: its kind, its keys and its lines. -/
def shell : JsoncValue ν → JsoncValue ν
  | .object entries line => .object (entries.map fun entry => { entry with value := .null none }) line
  | .array items line => .array (items.map fun _ => .null none) line
  | value => value

@[simp] theorem children_setChild (value : JsoncValue ν) (i : Nat) (child : JsoncValue ν) :
    (value.setChild i child).children = value.children.set i child := by
  cases value with
  | object entries line =>
    apply List.ext_getElem?
    intro j
    simp only [setChild, children, List.getElem?_map, List.getElem?_modify, List.getElem?_set, List.length_map]
    by_cases hij : i = j
    · subst hij
      cases hentry : entries[i]? with
      | none =>
        have hlen := List.getElem?_eq_none_iff.mp hentry
        simp [Nat.not_lt.mpr hlen]
      | some entry =>
        obtain ⟨hlen, -⟩ := List.getElem?_eq_some_iff.mp hentry
        simp [hlen]
    · simp [hij]
  | array items line => rfl
  | string | number | boolean | null => rfl

@[simp] theorem shell_setChild (value : JsoncValue ν) (i : Nat) (child : JsoncValue ν) :
    (value.setChild i child).shell = value.shell := by
  cases value with
  | object entries line =>
    simp only [setChild, shell, JsoncValue.object.injEq, and_true]
    apply List.ext_getElem?
    intro j
    simp only [List.getElem?_map, List.getElem?_modify]
    by_cases hij : i = j
    · subst hij
      cases entries[i]? with
      | none => rfl
      | some entry => simp
    · simp [hij]
  | array items line =>
    simp only [setChild, shell, JsoncValue.array.injEq, and_true]
    apply List.ext_getElem?
    intro j
    simp only [List.getElem?_map, List.getElem?_set]
    by_cases hij : i = j
    · subst hij
      by_cases hlen : i < items.length
      · simp [hlen]
      · simp [hlen]
    · simp [hij]
  | string | number | boolean | null => rfl

/-! ## Nodes -/

/-- The node at a position. -/
def nodeAt : JsoncValue ν → List Nat → Option (JsoncValue ν)
  | value, [] => some value
  | value, i :: rest => value.children[i]?.bind fun child => child.nodeAt rest

/-- The tree with another subtree at a position. -/
def replaceNode : JsoncValue ν → JsoncValue ν → List Nat → Option (JsoncValue ν)
  | _, new, [] => some new
  | value, new, i :: rest =>
    value.children[i]?.bind fun child =>
      (child.replaceNode new rest).map fun child' => value.setChild i child'

@[simp] theorem nodeAt_nil (value : JsoncValue ν) : value.nodeAt [] = some value := rfl

theorem nodeAt_append (value : JsoncValue ν) (position rest : List Nat) :
    value.nodeAt (position ++ rest) = (value.nodeAt position).bind fun node => node.nodeAt rest := by
  induction position generalizing value with
  | nil => rfl
  | cons i tail ih =>
    rw [List.cons_append, nodeAt, nodeAt]
    cases value.children[i]? with
    | none => rfl
    | some child => exact ih child

/-- Nothing is below a node without children. -/
theorem eq_of_childless {value leaf : JsoncValue ν} {other position : List Nat}
    (hleaf : value.nodeAt other = some leaf) (hchildless : leaf.children = [])
    (hnode : (value.nodeAt position).isSome) (hlead : other <+: position) : other = position := by
  obtain ⟨rest, rfl⟩ := hlead
  rw [nodeAt_append, hleaf, Option.bind_some] at hnode
  cases rest with
  | nil => exact (List.append_nil other).symm
  | cons i tail =>
    rw [nodeAt, hchildless] at hnode
    cases hnode

variable {new value value' : JsoncValue ν}

/-- One step of a replacement. -/
theorem replaceNode_cons {i : Nat} {rest : List Nat} (h : value.replaceNode new (i :: rest) = some value') :
    ∃ child child', value.children[i]? = some child ∧ child.replaceNode new rest = some child' ∧
      value' = value.setChild i child' := by
  obtain ⟨child, hchild, hrest⟩ := Option.bind_eq_some_iff.mp h
  obtain ⟨child', hchild', rfl⟩ := Option.map_eq_some_iff.mp hrest
  exact ⟨child, child', hchild, hchild', rfl⟩

/-- A node can be replaced exactly where there is one. -/
theorem replaceNode_isSome (new value : JsoncValue ν) (position : List Nat) :
    (value.replaceNode new position).isSome = (value.nodeAt position).isSome := by
  induction position generalizing value with
  | nil => rfl
  | cons i rest ih =>
    rw [replaceNode, nodeAt]
    cases value.children[i]? with
    | none => rfl
    | some child =>
      rw [Option.bind_some, Option.bind_some, Option.isSome_map]
      exact ih child

/-- **The new subtree is there.** -/
theorem nodeAt_replaceNode {position : List Nat} (h : value.replaceNode new position = some value') :
    value'.nodeAt position = some new := by
  induction position generalizing value value' with
  | nil =>
    cases h
    rfl
  | cons i rest ih =>
    obtain ⟨child, child', hchild, hchild', rfl⟩ := replaceNode_cons h
    obtain ⟨hlen, -⟩ := List.getElem?_eq_some_iff.mp hchild
    rw [nodeAt, children_setChild, List.getElem?_set_self hlen, Option.bind_some]
    exact ih hchild'

/-- **Beside the way nothing changes**: a node at a position that is neither on the way to the replaced
one nor below it. -/
theorem nodeAt_replaceNode_of_apart {position other : List Nat} (h : value.replaceNode new position = some value')
    (hbelow : ¬ position <+: other) (habove : ¬ other <+: position) : value'.nodeAt other = value.nodeAt other := by
  induction position generalizing value value' other with
  | nil => exact absurd (List.nil_prefix) hbelow
  | cons i rest ih =>
    obtain ⟨child, child', hchild, hchild', rfl⟩ := replaceNode_cons h
    obtain ⟨hlen, -⟩ := List.getElem?_eq_some_iff.mp hchild
    cases other with
    | nil => exact absurd (List.nil_prefix) habove
    | cons j rest' =>
      rw [nodeAt, nodeAt, children_setChild]
      by_cases hij : i = j
      · subst hij
        rw [List.getElem?_set_self hlen, hchild, Option.bind_some, Option.bind_some]
        apply ih hchild'
        · exact fun hlead => hbelow ((List.prefix_cons_inj i).mpr hlead)
        · exact fun hlead => habove ((List.prefix_cons_inj i).mpr hlead)
      · rw [List.getElem?_set_ne hij]

/-- **On the way only the child changes**: a node above the replaced one keeps its shell. -/
theorem shell_replaceNode {position other : List Nat} (h : value.replaceNode new position = some value')
    (habove : other <+: position) (hproper : other ≠ position) : (value'.nodeAt other).map shell =
      (value.nodeAt other).map shell := by
  induction position generalizing value value' other with
  | nil => exact absurd (List.prefix_nil.mp habove) hproper
  | cons i rest ih =>
    obtain ⟨child, child', hchild, hchild', rfl⟩ := replaceNode_cons h
    obtain ⟨hlen, -⟩ := List.getElem?_eq_some_iff.mp hchild
    cases other with
    | nil => simp
    | cons j rest' =>
      obtain ⟨rfl, hrest⟩ := List.cons_prefix_cons.mp habove
      rw [nodeAt, nodeAt, children_setChild, List.getElem?_set_self hlen, hchild, Option.bind_some, Option.bind_some]
      exact ih hchild' hrest fun heq => hproper (congrArg _ heq)

end JsoncValue

end OpenClaw.OcPaths
