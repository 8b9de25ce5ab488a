/-
# OpenClaw.Data.JsStrings -- string lengths, orders and lists as JavaScript has them

`length` counts UTF-16 code units and `<` compares them; a `String` here is a list of code points, so
both go through `utf16Units`.  `normalizeSortedUniqueTrimmedStringList` is the shared normalization
of string lists; a list it returned with at most one entry is its own normalization.
-/
import Mathlib.Data.List.Sort
import OpenClaw.Data.JsPrim

namespace OpenClaw.Data

/-- The UTF-16 code units of one code point. -/
def codeUnits (c : Char) : List Nat :=
  if c.toNat < 0x10000 then [c.toNat]
  else [0xD800 + (c.toNat - 0x10000) / 0x400, 0xDC00 + (c.toNat - 0x10000) % 0x400]

def utf16Units (s : String) : List Nat := s.toList.flatMap codeUnits

/-- `String.prototype.length`. -/
def jsLength (s : String) : Nat := (utf16Units s).length

/-- `s.startsWith(lead)`. -/
def startsWith (s lead : String) : Bool := lead.toList.isPrefixOf s.toList

/-- `left < right` on strings. -/
def jsLt (left right : String) : Bool := decide (utf16Units left < utf16Units right)

/-- `values.toSorted(compare)` with a strict comparison `lt`: stable. -/
def toSorted {α : Type} (lt : α → α → Bool) (values : List α) : List α := values.insertionSort fun a b => lt b a = false

theorem toSorted_perm {α : Type} (lt : α → α → Bool) (values : List α) : (toSorted lt values).Perm values :=
  List.perm_insertionSort _ _

/-- `/\s+/u` as a separator: the maximal runs of other code points. -/
def splitWhitespace (s : String) : List String := ((s.toList.splitOnP isJsWhitespace).filter (· ≠ [])).map String.ofList

/-! ## Character classes of the source's patterns -/

def isDigit (c : Char) : Bool := '0' ≤ c && c ≤ '9'

def isLower (c : Char) : Bool := 'a' ≤ c && c ≤ 'z'

def isUpper (c : Char) : Bool := 'A' ≤ c && c ≤ 'Z'

/-- `[A-Za-z0-9]` and the characters of `extra`. -/
def isAlnumOr (extra : List Char) (c : Char) : Bool := isDigit c || isLower c || isUpper c || c ∈ extra

/-- `/^[first][rest]{0,max}$/` -/
def matchesHeadTail (first rest : Char → Bool) (max : Nat) : List Char → Bool
  | [] => false
  | c :: tail => first c && tail.all rest && tail.length ≤ max

/-! ## Normalized string lists -/

/-- `uniqueStrings`: first-seen unique values. -/
def uniqueStrings (values : List String) : List String := values.eraseDups

def sortUniqueStrings (values : List String) : List String := toSorted jsLt (uniqueStrings values)

def normalizeTrimmedStringList (values : List String) : List String := (values.map trim).filter (· ≠ "")

def normalizeSortedUniqueTrimmedStringList (values : List String) : List String :=
  sortUniqueStrings (normalizeTrimmedStringList values)

theorem trimmed_of_mem_normalize {values : List String} {s : String}
    (h : s ∈ normalizeSortedUniqueTrimmedStringList values) : Trimmed s := by
  have hmem : s ∈ normalizeTrimmedStringList values := List.mem_eraseDups.mp ((toSorted_perm _ _).mem_iff.mp h)
  simp only [normalizeTrimmedStringList, List.mem_filter, List.mem_map, decide_eq_true_eq] at hmem
  obtain ⟨⟨v, _, rfl⟩, hne⟩ := hmem
  exact ⟨trim_trim v, hne⟩

theorem normalize_singleton {s : String} (h : Trimmed s) : normalizeSortedUniqueTrimmedStringList [s] = [s] := by
  simp [normalizeSortedUniqueTrimmedStringList, normalizeTrimmedStringList, h.1, h.2,
    sortUniqueStrings, uniqueStrings, toSorted, List.eraseDups_cons]

/-- A normalized list of at most one entry is its own normalization. -/
theorem normalize_idem_short {values : List String} (h : (normalizeSortedUniqueTrimmedStringList values).length ≤ 1) :
    normalizeSortedUniqueTrimmedStringList (normalizeSortedUniqueTrimmedStringList values)
      = normalizeSortedUniqueTrimmedStringList values := by
  cases hlist : normalizeSortedUniqueTrimmedStringList values with
  | nil => rfl
  | cons s rest =>
    rw [hlist] at h
    have hrest : rest = [] := by simpa using h
    subst hrest
    exact normalize_singleton (trimmed_of_mem_normalize (by rw [hlist]; exact List.mem_singleton_self s))

end OpenClaw.Data
