/-
# OpenClaw.Sandbox.Allowlist -- which hosts a sandbox may talk to

An allowlist is a text with one host a line.  A line with a leading dot stands for the host behind the dot
and everything below it.  Hosts are compared without their case and without trailing dots.

This follows `allowlist.rs`.  `allowsHost_fromText` says what a text allows: label by label.
-/
import Mathlib.Data.List.DropRight
import Mathlib.Data.List.Infix
import OpenClaw.Data.JsNumeral

namespace OpenClaw.Sandbox

open OpenClaw.Data

/-! ## Strings of Rust -/

/-- `char::is_whitespace` -/
def isWhitespace (c : Char) : Bool :=
  (0x09 ≤ c.toNat && c.toNat ≤ 0x0D) || (0x2000 ≤ c.toNat && c.toNat ≤ 0x200A) ||
    c.toNat ∈ [0x20, 0x85, 0xA0, 0x1680, 0x2028, 0x2029, 0x202F, 0x205F, 0x3000]

/-- `str::trim` -/
def trim (text : Text) : Text := (text.dropWhile isWhitespace).rdropWhile isWhitespace

/-- A line without the carriage return before its newline. -/
def stripCarriageReturn (line : Text) : Text :=
  if line.getLast? = some '\r' then line.dropLast else line

/-- `str::lines`: a newline ends a line, and the text may end the last one. -/
def lines (text : Text) : List Text :=
  let parts := text.splitOn '\n'
  parts.dropLast.map stripCarriageReturn ++ parts.getLast?.toList.filter (· ≠ [])

/-! ## The allowlist -/

inductive Entry where
  | suffix (name : Text)
  | exact (name : Text)
  deriving DecidableEq

structure Allowlist where
  entries : List Entry
  deriving DecidableEq

def normalizeHost (host : Text) : Text := ((trim host).rdropWhile (· = '.')).map Char.toLower

/-- The entry of a trimmed line, if it has one. -/
def entryOf : Text → Option Entry
  | [] => none
  | '#' :: _ => none
  | '.' :: rest => some (.suffix (normalizeHost rest))
  | line => some (.exact (normalizeHost line))

def Allowlist.fromText (text : Text) : Allowlist := ⟨(lines text).filterMap fun line => entryOf (trim line)⟩

def Entry.allows (host : Text) : Entry → Bool
  | .exact name => host = name
  | .suffix name => host = name || decide ('.' :: name <:+ host)

def Allowlist.allowsHost (allowlist : Allowlist) (host : Text) : Bool :=
  allowlist.entries.any (·.allows (normalizeHost host))

/-! ## Labels -/

/-- The labels of a name. -/
def labels (name : Text) : List Text := name.splitOn '.'

theorem labels_cons (c : Char) (text : Text) :
    labels (c :: text) = if c = '.' then [] :: labels text else (labels text).modifyHead (c :: ·) := by
  simp [labels, List.splitOn, List.splitOnP_cons_eq_if_modifyHead]

theorem labels_ne_nil (name : Text) : labels name ≠ [] := List.splitOn_ne_nil _ _

/-- The labels behind a dot are the labels of what is behind it. -/
theorem labels_append (front name : Text) : labels (front ++ '.' :: name) = labels front ++ labels name := by
  induction front with
  | nil =>
    rw [List.nil_append, labels_cons, if_pos rfl]
    rfl
  | cons c rest ih =>
    rw [List.cons_append, labels_cons, labels_cons, ih]
    by_cases h : c = '.'
    · simp [h]
    · simp only [if_neg h]
      obtain ⟨part, parts, hparts⟩ := List.exists_cons_of_ne_nil (labels_ne_nil rest)
      rw [hparts]
      rfl

/-- A name is its labels with dots between them. -/
def joinLabels (parts : List Text) : Text := ['.'].intercalate parts

theorem joinLabels_labels (name : Text) : joinLabels (labels name) = name := List.intercalate_splitOn '.'

theorem joinLabels_append {front back : List Text} (hfront : front ≠ []) (hback : back ≠ []) :
    joinLabels (front ++ back) = joinLabels front ++ '.' :: joinLabels back := by
  induction front with
  | nil => exact absurd rfl hfront
  | cons part rest ih =>
    rcases List.eq_nil_or_concat rest with rfl | hrest
    · simp [joinLabels, List.intercalate_cons_of_ne_nil hback]
    · have hne : rest ≠ [] := by
        rintro rfl
        simp at hrest
      have hsum : rest ++ back ≠ [] := by simp [hne]
      rw [List.cons_append, joinLabels, List.intercalate_cons_of_ne_nil hsum, joinLabels,
        List.intercalate_cons_of_ne_nil hne]
      have ih := ih hne
      rw [joinLabels, joinLabels] at ih
      rw [ih]
      simp

/-- **The last labels of a host are those of a name** when it is the name, or ends in it behind a dot. -/
theorem labels_suffix_iff {name host : Text} : labels name <:+ labels host ↔ host = name ∨ '.' :: name <:+ host := by
  constructor
  · rintro ⟨front, hfront⟩
    rcases List.eq_nil_or_concat front with rfl | hne
    · left
      rw [← joinLabels_labels host, ← hfront, List.nil_append, joinLabels_labels]
    · right
      have hne : front ≠ [] := by
        rintro rfl
        simp at hne
      refine ⟨joinLabels front, ?_⟩
      rw [← joinLabels_labels host, ← hfront, joinLabels_append hne (labels_ne_nil name), joinLabels_labels]
  · rintro (rfl | ⟨front, rfl⟩)
    · exact List.suffix_refl _
    · rw [labels_append]
      exact List.suffix_append _ _

/-! ## What a text allows -/

/-- A line of an allowlist allows a host: it names the host, or with a leading dot its last labels. -/
def LineAllows (line host : Text) : Prop :=
  match trim line with
  | [] => False
  | '#' :: _ => False
  | '.' :: rest => labels (normalizeHost rest) <:+ labels (normalizeHost host)
  | name => normalizeHost host = normalizeHost name

theorem entry_allows_iff {line host : Text} :
    (∃ entry, entryOf (trim line) = some entry ∧ entry.allows (normalizeHost host) = true) ↔ LineAllows line host := by
  unfold LineAllows
  split
  · rename_i hline
    rw [hline]
    simp [entryOf]
  · rename_i hline
    rw [hline]
    simp [entryOf]
  · rename_i hline
    rw [hline]
    simp [entryOf, Entry.allows, labels_suffix_iff]
  · rename_i hnil hhash hdot
    rw [entryOf]
    · simp [Entry.allows]
    · exact hnil
    · exact hhash
    · exact hdot

/-- **A text allows exactly the hosts that one of its lines allows.** -/
theorem allowsHost_fromText (text host : Text) :
    (Allowlist.fromText text).allowsHost host = true ↔ ∃ line ∈ lines text, LineAllows line host := by
  simp only [Allowlist.allowsHost, Allowlist.fromText, List.any_eq_true, List.mem_filterMap]
  constructor
  · rintro ⟨entry, ⟨line, hline, hentry⟩, hallows⟩
    exact ⟨line, hline, entry_allows_iff.mp ⟨entry, hentry, hallows⟩⟩
  · rintro ⟨line, hline, hallows⟩
    obtain ⟨entry, hentry, hentryAllows⟩ := entry_allows_iff.mpr hallows
    exact ⟨entry, ⟨line, hline, hentry⟩, hentryAllows⟩

example : (Allowlist.fromText "# comment\n.OpenAI.com\n\nsokosumi.com.\n".toList).allowsHost
    "API.openai.com.".toList = true := by decide +kernel

example : (Allowlist.fromText ".openai.com\nsokosumi.com\n".toList).allowsHost "notopenai.com".toList =
    false := by decide +kernel

end OpenClaw.Sandbox
