/-
# OpenClaw.Data.PosixPath -- lexical normalization of POSIX paths

`posixNormalize` is `path.posix.normalize`: the segments between slashes are pushed on a stack, where `.` and
empty segments are dropped and `..` takes the segment below it away.  Nothing that stands inside the segments of
a path appears in its normal form unless it appeared in the path (`posixNormalize_chain`).
-/
import Mathlib.Data.List.Chain
import OpenClaw.Data.JsText

namespace OpenClaw.Data

def slash : CodeUnit := unitOf '/'

/-- `path.split("/")` -/
def pathSegments (path : JsString) : List JsString := path.splitOn slash

/-- One segment onto the stack; without `allowAboveRoot` a `..` at the bottom goes away. -/
def pushSegment (allowAboveRoot : Bool) (stack : List JsString) (segment : JsString) : List JsString :=
  if segment = [] || segment = units "." then stack
  else if segment = units ".." then
    match stack with
    | [] => if allowAboveRoot then [segment] else []
    | top :: rest =>
      if top = units ".." then if allowAboveRoot then segment :: stack else stack
      else rest
  else segment :: stack

/-- The segments of the normal form. -/
def normalSegments (path : JsString) : List JsString :=
  ((pathSegments path).foldl (pushSegment (path.head? ≠ some slash)) []).reverse

/-- `path.posix.normalize` -/
def posixNormalize (path : JsString) : JsString :=
  if path = [] then units "."
  else
    let isAbsolute := path.head? = some slash
    let trailing := path.getLast? = some slash
    let normal := [slash].intercalate (normalSegments path)
    if normal = [] then
      if isAbsolute then units "/" else if trailing then units "./" else units "."
    else
      let ended := if trailing then normal ++ [slash] else normal
      if isAbsolute then slash :: ended else ended

/-- A segment of the path is `.` or `..`. -/
def hasDotSegment (path : JsString) : Bool :=
  (pathSegments path).any fun segment => segment = units "." || segment = units ".."

/-- The path with its dot segments resolved; a path without any stays as it is. -/
def resolveDots (path : JsString) : JsString := if hasDotSegment path then posixNormalize path else path

/-! ## Relations between neighbours -/

section Neighbours

variable {R : CodeUnit → CodeUnit → Prop}

/-- A join with a separator that goes with everything is a chain exactly if its parts are. -/
theorem isChain_intercalate {c : CodeUnit} (hleft : ∀ x, R x c) (hright : ∀ x, R c x) (parts : List JsString) :
    ([c].intercalate parts).IsChain R ↔ ∀ part ∈ parts, part.IsChain R := by
  induction parts with
  | nil => simp
  | cons part rest ih =>
    cases rest with
    | nil => simp
    | cons next rest =>
      rw [List.intercalate_cons_cons, List.append_assoc, List.singleton_append, List.isChain_append,
        List.isChain_cons, ih]
      constructor
      · rintro ⟨hpart, ⟨-, hrest⟩, -⟩
        exact List.forall_mem_cons.mpr ⟨hpart, hrest⟩
      · intro hall
        obtain ⟨hpart, hrest⟩ := List.forall_mem_cons.mp hall
        refine ⟨hpart, ⟨fun x _ => hright x, hrest⟩, ?_⟩
        intro x _ y hy
        obtain rfl : c = y := by simpa using hy
        exact hleft x

variable (hleft : ∀ x, R x slash) (hright : ∀ x, R slash x)
include hleft hright

theorem pathSegments_chain {path : JsString} (h : path.IsChain R) : ∀ segment ∈ pathSegments path, segment.IsChain R := by
  rw [← isChain_intercalate hleft hright, pathSegments, List.intercalate_splitOn]
  exact h

omit hleft hright in
theorem pushSegment_chain {allowAboveRoot : Bool} {stack : List JsString} {segment : JsString}
    (hstack : ∀ part ∈ stack, part.IsChain R) (hsegment : segment.IsChain R) :
    ∀ part ∈ pushSegment allowAboveRoot stack segment, part.IsChain R := by
  have hpush : ∀ part ∈ segment :: stack, part.IsChain R := List.forall_mem_cons.mpr ⟨hsegment, hstack⟩
  unfold pushSegment
  split
  · exact hstack
  · split
    · split
      · split
        · exact hpush
        · exact hstack
      · split
        · split
          · exact hpush
          · exact hstack
        · exact fun part hpart => hstack part (List.mem_cons_of_mem _ hpart)
    · exact hpush

theorem normalSegments_chain {path : JsString} (h : path.IsChain R) :
    ∀ segment ∈ normalSegments path, segment.IsChain R := by
  have hfold : ∀ (segments stack : List JsString), (∀ part ∈ segments, part.IsChain R) →
      (∀ part ∈ stack, part.IsChain R) →
      ∀ part ∈ segments.foldl (pushSegment (path.head? ≠ some slash)) stack, part.IsChain R := by
    intro segments
    induction segments with
    | nil =>
      intro stack _ hstack
      exact hstack
    | cons segment rest ih =>
      intro stack hsegments hstack
      obtain ⟨hsegment, hrest⟩ := List.forall_mem_cons.mp hsegments
      exact ih _ hrest (pushSegment_chain hstack hsegment)
  intro segment hsegment
  rw [normalSegments, List.mem_reverse] at hsegment
  exact hfold _ [] (pathSegments_chain hleft hright h) (by simp) segment hsegment

/-- Where a relation holds between all neighbours of a path, it does in the normal form. -/
theorem posixNormalize_chain {path : JsString} (h : path.IsChain R) : (posixNormalize path).IsChain R := by
  have hnormal := (isChain_intercalate hleft hright _).mpr (normalSegments_chain hleft hright h)
  have hended : ([slash].intercalate (normalSegments path) ++ [slash]).IsChain R := by
    rw [List.isChain_append]
    refine ⟨hnormal, List.isChain_singleton _, ?_⟩
    intro x _ y hy
    obtain rfl : slash = y := by simpa using hy
    exact hleft x
  have hdot : (units "./").IsChain R := by
    have hunits : units "./" = [unitOf '.', slash] := by decide
    rw [hunits, List.isChain_pair]
    exact hleft _
  have hrooted {text : JsString} (htext : text.IsChain R) : (slash :: text).IsChain R :=
    List.isChain_cons.mpr ⟨fun x _ => hright x, htext⟩
  unfold posixNormalize
  split
  · exact List.isChain_singleton _
  · dsimp only
    split
    · split
      · exact List.isChain_singleton _
      · split
        · exact hdot
        · exact List.isChain_singleton _
    · split
      · split
        · exact hrooted hended
        · exact hrooted hnormal
      · split
        · exact hended
        · exact hnormal

end Neighbours

end OpenClaw.Data
