/-
# OpenClaw.OcPaths.JsonText -- JSON texts, and that rendered values are JSON texts

`JsonText` is the grammar of JSON without white space between the tokens: which value a text names, when
`literal` says which number a number literal names.  Everything `renderValue` writes is such a text.
-/
import Mathlib.Data.List.GetD
import OpenClaw.OcPaths.JsoncParse
import OpenClaw.OcPaths.JsonlDocument

namespace OpenClaw.OcPaths

open OpenClaw.Data

/-! ## The grammar -/

/-- One character inside the quotes of a string. -/
inductive JsonCharText : Text → Char → Prop where
  | plain (c : Char) : c ≠ '"' → c ≠ '\\' → 0x20 ≤ c.toNat → JsonCharText [c] c
  | quote : JsonCharText ['\\', '"'] '"'
  | backslash : JsonCharText ['\\', '\\'] '\\'
  | backspace (c : Char) : c.toNat = 0x08 → JsonCharText ['\\', 'b'] c
  | formFeed (c : Char) : c.toNat = 0x0C → JsonCharText ['\\', 'f'] c
  | lineFeed : JsonCharText ['\\', 'n'] '\n'
  | carriageReturn : JsonCharText ['\\', 'r'] '\r'
  | tab : JsonCharText ['\\', 't'] '\t'
  | unicode (c : Char) : c.toNat < 0x100 →
      JsonCharText ['\\', 'u', '0', '0', hexDigit (c.toNat / 16), hexDigit (c.toNat % 16)] c

inductive JsonChars : Text → Text → Prop where
  | nil : JsonChars [] []
  | cons {piece body text : Text} {c : Char} :
      JsonCharText piece c → JsonChars body text → JsonChars (piece ++ body) (c :: text)

variable {ν : Type}

mutual

inductive JsonText (literal : Text → ν → Prop) : Text → JsoncValue ν → Prop where
  | object {body : Text} {entries : List (JsoncEntry (JsoncValue ν))} :
      JsonMembers literal body entries → JsonText literal ('{' :: body ++ ['}']) (.object entries none)
  | array {body : Text} {items : List (JsoncValue ν)} :
      JsonElements literal body items → JsonText literal ('[' :: body ++ [']']) (.array items none)
  | string {body text : Text} :
      JsonChars body text → JsonText literal ('"' :: body ++ ['"']) (.string text none)
  | number {text : Text} {n : ν} : literal text n → JsonText literal text (.number n none)
  | true : JsonText literal "true".toList (.boolean true none)
  | false : JsonText literal "false".toList (.boolean false none)
  | null : JsonText literal "null".toList (.null none)

inductive JsonMembers (literal : Text → ν → Prop) : Text → List (JsoncEntry (JsoncValue ν)) → Prop where
  | none : JsonMembers literal [] []
  | last {keyText key text : Text} {value : JsoncValue ν} :
      JsonChars keyText key → JsonText literal text value →
      JsonMembers literal (('"' :: keyText ++ ['"']) ++ [':'] ++ text) [⟨key, value, 0⟩]
  | more {keyText key text rest : Text} {value : JsoncValue ν}
      {entries : List (JsoncEntry (JsoncValue ν))} :
      JsonChars keyText key → JsonText literal text value → JsonMembers literal rest entries →
      entries ≠ [] →
      JsonMembers literal ((('"' :: keyText ++ ['"']) ++ [':'] ++ text) ++ [','] ++ rest) (⟨key, value, 0⟩ :: entries)

inductive JsonElements (literal : Text → ν → Prop) : Text → List (JsoncValue ν) → Prop where
  | none : JsonElements literal [] []
  | last {text : Text} {value : JsoncValue ν} :
      JsonText literal text value → JsonElements literal text [value]
  | more {text rest : Text} {value : JsoncValue ν} {items : List (JsoncValue ν)} :
      JsonText literal text value → JsonElements literal rest items → items ≠ [] →
      JsonElements literal (text ++ [','] ++ rest) (value :: items)

end

/-- Every number of the value satisfies `P`. -/
def AllNumbers (P : ν → Prop) (value : JsoncValue ν) : Prop :=
  ∀ position n line, value.nodeAt position = some (.number n line) → P n

theorem AllNumbers.child {P : ν → Prop} {value child : JsoncValue ν} (h : AllNumbers P value)
    (hchild : child ∈ value.children) : AllNumbers P child := by
  intro position n line hnode
  obtain ⟨i, hi, rfl⟩ := List.mem_iff_getElem.mp hchild
  refine h (i :: position) n line ?_
  rw [JsoncValue.nodeAt, List.getElem?_eq_getElem hi]
  exact hnode

/-! ## Rendered texts -/

/-- An escaped character reads as the character. -/
theorem jsonEscape_char (c : Char) : JsonCharText (jsonEscape c) c := by
  unfold jsonEscape
  split
  · rename_i h
    rw [h]
    exact .quote
  · rename_i hquote
    split
    · rename_i h
      rw [h]
      exact .backslash
    · rename_i hbackslash
      split
      · rename_i h
        exact .backspace c h
      · split
        · rename_i h
          exact .formFeed c h
        · split
          · rename_i h
            rw [h]
            exact .lineFeed
          · split
            · rename_i h
              rw [h]
              exact .carriageReturn
            · split
              · rename_i h
                rw [h]
                exact .tab
              · split
                · rename_i h
                  exact .unicode c (by omega)
                · rename_i h
                  exact .plain c hquote hbackslash (by omega)

theorem jsonString_chars (text : Text) : JsonChars (text.flatMap jsonEscape) text := by
  induction text with
  | nil => exact .nil
  | cons c rest ih => exact .cons (jsonEscape_char c) ih

theorem join_cons (sep first : Text) {rest : List Text} (h : rest ≠ []) :
    join sep (first :: rest) = first ++ sep ++ join sep rest := by
  cases rest with
  | nil => exact absurd rfl h
  | cons second rest => simp [join, List.intercalate]

theorem join_singleton (sep part : Text) : join sep [part] = part := by simp [join, List.intercalate]

variable {numberText : ν → Text} {literal : Text → ν → Prop}

theorem renderEntries_cons {guardPath : Text} {walked : List Text} {key : Text} {value : JsoncValue ν}
    {line : Nat} {rest : List (JsoncEntry (JsoncValue ν))} {parts : List Text}
    (h : renderEntries numberText guardPath walked (⟨key, value, line⟩ :: rest) = .ok parts) :
    ∃ part parts', renderValue numberText guardPath (walked ++ [key]) value = .ok part ∧
      renderEntries numberText guardPath walked rest = .ok parts' ∧
      parts = (jsonString key ++ [':'] ++ part) :: parts' := by
  rw [renderEntries] at h
  cases hpart : renderValue numberText guardPath (walked ++ [key]) value with
  | error => rw [hpart] at h; cases h
  | ok part =>
    cases hrest : renderEntries numberText guardPath walked rest with
    | error => rw [hpart, hrest] at h; cases h
    | ok parts' =>
      rw [hpart, hrest] at h
      cases h
      exact ⟨part, parts', rfl, rfl, rfl⟩

theorem renderItems_cons {guardPath : Text} {walked : List Text} {i : Nat} {value : JsoncValue ν}
    {rest : List (JsoncValue ν)} {parts : List Text}
    (h : renderItems numberText guardPath walked i (value :: rest) = .ok parts) :
    ∃ part parts', renderValue numberText guardPath (walked ++ [decimalText i]) value = .ok part ∧
      renderItems numberText guardPath walked (i + 1) rest = .ok parts' ∧ parts = part :: parts' := by
  rw [renderItems] at h
  cases hpart : renderValue numberText guardPath (walked ++ [decimalText i]) value with
  | error => rw [hpart] at h; cases h
  | ok part =>
    cases hrest : renderItems numberText guardPath walked (i + 1) rest with
    | error => rw [hpart, hrest] at h; cases h
    | ok parts' =>
      rw [hpart, hrest] at h
      cases h
      exact ⟨part, parts', rfl, rfl, rfl⟩

mutual

/-- The text of a value does not depend on where it stands. -/
theorem renderValue_anywhere {guardPath guardPath' : Text} : ∀ (walked walked' : List Text)
    (value : JsoncValue ν) {text : Text}, renderValue numberText guardPath walked value = .ok text →
      renderValue numberText guardPath' walked' value = .ok text
  | walked, walked', .object entries line, text, h => by
    rw [renderValue] at h ⊢
    cases hparts : renderEntries numberText guardPath walked entries with
    | error => rw [hparts] at h; cases h
    | ok parts =>
      rw [hparts] at h
      rw [renderEntries_anywhere walked walked' entries hparts]
      exact h
  | walked, walked', .array items line, text, h => by
    rw [renderValue] at h ⊢
    cases hparts : renderItems numberText guardPath walked 0 items with
    | error => rw [hparts] at h; cases h
    | ok parts =>
      rw [hparts] at h
      rw [renderItems_anywhere walked walked' 0 items hparts]
      exact h
  | _, _, .string value line, text, h => by
    rw [renderValue] at h ⊢
    split at h
    · cases h
    · rename_i hclean
      rw [if_neg hclean]
      exact h
  | _, _, .number n line, text, h => h
  | _, _, .boolean value line, text, h => h
  | _, _, .null line, text, h => h

theorem renderEntries_anywhere {guardPath guardPath' : Text} : ∀ (walked walked' : List Text)
    (entries : List (JsoncEntry (JsoncValue ν))) {parts : List Text},
      renderEntries numberText guardPath walked entries = .ok parts →
        renderEntries numberText guardPath' walked' entries = .ok parts
  | _, _, [], parts, h => h
  | walked, walked', ⟨key, value, line⟩ :: rest, parts, h => by
    obtain ⟨part, parts', hpart, hrest, rfl⟩ := renderEntries_cons h
    rw [renderEntries, renderValue_anywhere _ (walked' ++ [key]) value hpart,
      renderEntries_anywhere _ walked' rest hrest]
    rfl

theorem renderItems_anywhere {guardPath guardPath' : Text} : ∀ (walked walked' : List Text) (i : Nat)
    (items : List (JsoncValue ν)) {parts : List Text},
      renderItems numberText guardPath walked i items = .ok parts →
        renderItems numberText guardPath' walked' i items = .ok parts
  | _, _, _, [], parts, h => h
  | walked, walked', i, value :: rest, parts, h => by
    obtain ⟨part, parts', hpart, hrest, rfl⟩ := renderItems_cons h
    rw [renderItems, renderValue_anywhere _ (walked' ++ [decimalText i]) value hpart,
      renderItems_anywhere _ walked' (i + 1) rest hrest]
    rfl

end

theorem renderEntries_length {guardPath : Text} {walked : List Text}
    {entries : List (JsoncEntry (JsoncValue ν))} {parts : List Text}
    (h : renderEntries numberText guardPath walked entries = .ok parts) : parts = [] ↔ plainEntries entries = [] := by
  cases entries with
  | nil =>
    cases h
    simp [plainEntries]
  | cons entry rest =>
    obtain ⟨key, value, line⟩ := entry
    obtain ⟨part, parts', -, -, rfl⟩ := renderEntries_cons h
    simp [plainEntries]

theorem renderItems_length {guardPath : Text} {walked : List Text} {i : Nat}
    {items : List (JsoncValue ν)} {parts : List Text}
    (h : renderItems numberText guardPath walked i items = .ok parts) : parts = [] ↔ plainItems items = [] := by
  cases items with
  | nil =>
    cases h
    simp [plainItems]
  | cons value rest =>
    obtain ⟨part, parts', -, -, rfl⟩ := renderItems_cons h
    simp [plainItems]

mutual

/-- **What is rendered is JSON**, with the literals that `numberText` writes. -/
theorem renderValue_jsonText (guardPath : Text) (walked : List Text) : ∀ (value : JsoncValue ν) {text : Text},
    AllNumbers (fun n => literal (numberText n) n) value →
    renderValue numberText guardPath walked value = .ok text → JsonText literal text value.plain
  | .object entries line, text, hnumbers, h => by
    rw [renderValue] at h
    cases hparts : renderEntries numberText guardPath walked entries with
    | error => rw [hparts] at h; cases h
    | ok parts =>
      rw [hparts] at h
      cases h
      refine .object (renderEntries_jsonText guardPath walked entries (fun entry hentry => ?_) hparts)
      exact hnumbers.child (List.mem_map.mpr ⟨entry, hentry, rfl⟩)
  | .array items line, text, hnumbers, h => by
    rw [renderValue] at h
    cases hparts : renderItems numberText guardPath walked 0 items with
    | error => rw [hparts] at h; cases h
    | ok parts =>
      rw [hparts] at h
      cases h
      exact .array (renderItems_jsonText guardPath walked 0 items
        (fun item hitem => hnumbers.child hitem) hparts)
  | .string value line, text, _, h => by
    rw [renderValue] at h
    split at h
    · cases h
    · cases h
      exact .string (jsonString_chars value)
  | .number n line, text, hnumbers, h => by
    cases h
    exact .number (hnumbers [] n line rfl)
  | .boolean value line, text, _, h => by
    cases value with
    | true =>
      cases h
      exact .true
    | false =>
      cases h
      exact .false
  | .null line, text, _, h => by
    cases h
    exact .null

theorem renderEntries_jsonText (guardPath : Text) (walked : List Text) :
    ∀ (entries : List (JsoncEntry (JsoncValue ν))) {parts : List Text},
      (∀ entry ∈ entries, AllNumbers (fun n => literal (numberText n) n) entry.value) →
      renderEntries numberText guardPath walked entries = .ok parts →
      JsonMembers literal (join [','] parts) (plainEntries entries)
  | [], parts, _, h => by
    cases h
    exact .none
  | ⟨key, value, line⟩ :: rest, parts, hnumbers, h => by
    obtain ⟨part, parts', hpart, hrest, rfl⟩ := renderEntries_cons h
    have hvalue := renderValue_jsonText guardPath (walked ++ [key]) value
      (hnumbers _ List.mem_cons_self) hpart
    have hmembers := renderEntries_jsonText guardPath walked rest
      (fun entry hentry => hnumbers entry (List.mem_cons_of_mem _ hentry)) hrest
    by_cases hlast : parts' = []
    · have hentries := (renderEntries_length hrest).mp hlast
      rw [hlast, join_singleton, plainEntries, hentries]
      exact .last (jsonString_chars key) hvalue
    · rw [join_cons _ _ hlast, plainEntries]
      exact .more (jsonString_chars key) hvalue hmembers fun h => hlast ((renderEntries_length hrest).mpr h)

theorem renderItems_jsonText (guardPath : Text) (walked : List Text) (i : Nat) :
    ∀ (items : List (JsoncValue ν)) {parts : List Text},
      (∀ item ∈ items, AllNumbers (fun n => literal (numberText n) n) item) →
      renderItems numberText guardPath walked i items = .ok parts →
      JsonElements literal (join [','] parts) (plainItems items)
  | [], parts, _, h => by
    cases h
    exact .none
  | value :: rest, parts, hnumbers, h => by
    obtain ⟨part, parts', hpart, hrest, rfl⟩ := renderItems_cons h
    have hvalue := renderValue_jsonText guardPath (walked ++ [decimalText i]) value
      (hnumbers _ List.mem_cons_self) hpart
    have helements := renderItems_jsonText guardPath walked (i + 1) rest
      (fun item hitem => hnumbers item (List.mem_cons_of_mem _ hitem)) hrest
    by_cases hlast : parts' = []
    · have hitems := (renderItems_length hrest).mp hlast
      rw [hlast, join_singleton, plainItems, hitems]
      exact .last hvalue
    · rw [join_cons _ _ hlast, plainItems]
      exact .more hvalue helements fun h => hlast ((renderItems_length hrest).mpr h)

end

/-! ## Texts on one line -/

/-- No control character. -/
def Printable (text : Text) : Prop := ∀ c ∈ text, 0x20 ≤ c.toNat

theorem Printable.append {xs ys : Text} (hxs : Printable xs) (hys : Printable ys) : Printable (xs ++ ys) := by
  intro c hc
  rcases List.mem_append.mp hc with hx | hy
  · exact hxs c hx
  · exact hys c hy

theorem Printable.cons {c : Char} {text : Text} (hc : 0x20 ≤ c.toNat) (h : Printable text) : Printable (c :: text) := by
  intro d hd
  rcases List.mem_cons.mp hd with rfl | hrest
  · exact hc
  · exact h d hrest

theorem printable_nil : Printable [] := fun _ h => absurd h List.not_mem_nil

theorem hexDigit_printable (n : Nat) : 0x20 ≤ (hexDigit n).toNat := by
  have hall : ∀ c ∈ "0123456789abcdef".toList, 0x20 ≤ c.toNat := by simp
  unfold hexDigit
  by_cases h : n < "0123456789abcdef".toList.length
  · rw [List.getD_eq_getElem _ _ h]
    exact hall _ (List.getElem_mem h)
  · rw [List.getD_eq_default _ _ (Nat.le_of_not_lt h)]
    decide

theorem printable_escape {c : Char} (h : 0x20 ≤ c.toNat) : Printable ['\\', c] :=
  .cons (by decide) (.cons h printable_nil)

theorem JsonCharText.printable {piece : Text} {c : Char} (h : JsonCharText piece c) : Printable piece := by
  cases h with
  | plain _ _ _ hc => exact .cons hc printable_nil
  | quote | backslash | backspace | formFeed | lineFeed | carriageReturn | tab => exact printable_escape (by decide)
  | unicode =>
    refine (printable_escape (by decide)).append (.cons (by decide) (.cons (by decide) ?_))
    exact .cons (hexDigit_printable _) (.cons (hexDigit_printable _) printable_nil)

theorem JsonChars.printable {body text : Text} (h : JsonChars body text) : Printable body := by
  induction h with
  | nil => exact printable_nil
  | cons hc _ ih => exact hc.printable.append ih

mutual

/-- A JSON text has no control character, as no number literal has one. -/
theorem JsonText.printable (hliteral : ∀ text n, literal text n → Printable text) :
    ∀ {text : Text} {value : JsoncValue ν}, JsonText literal text value → Printable text
  | _, _, .object h => .cons (by decide) ((h.printable hliteral).append (.cons (by decide) printable_nil))
  | _, _, .array h => .cons (by decide) ((h.printable hliteral).append (.cons (by decide) printable_nil))
  | _, _, .string h => .cons (by decide) (h.printable.append (.cons (by decide) printable_nil))
  | _, _, .number h => hliteral _ _ h
  | _, _, .true => by simp [Printable]
  | _, _, .false => by simp [Printable]
  | _, _, .null => by simp [Printable]

theorem JsonMembers.printable (hliteral : ∀ text n, literal text n → Printable text) :
    ∀ {text : Text} {entries : List (JsoncEntry (JsoncValue ν))}, JsonMembers literal text entries → Printable text
  | _, _, .none => printable_nil
  | _, _, .last hkey hvalue =>
    ((Printable.cons (by decide) (hkey.printable.append (.cons (by decide) printable_nil))).append
      (.cons (by decide) printable_nil)).append (hvalue.printable hliteral)
  | _, _, .more hkey hvalue hrest _ =>
    ((((Printable.cons (by decide) (hkey.printable.append (.cons (by decide) printable_nil))).append
      (.cons (by decide) printable_nil)).append (hvalue.printable hliteral)).append
      (.cons (by decide) printable_nil)).append (hrest.printable hliteral)

theorem JsonElements.printable (hliteral : ∀ text n, literal text n → Printable text) :
    ∀ {text : Text} {items : List (JsoncValue ν)}, JsonElements literal text items → Printable text
  | _, _, .none => printable_nil
  | _, _, .last hvalue => hvalue.printable hliteral
  | _, _, .more hvalue hrest _ =>
    ((hvalue.printable hliteral).append (.cons (by decide) printable_nil)).append
      (hrest.printable hliteral)

end

/-- A text that starts with something to see. -/
def StartsVisible (text : Text) : Prop := ∃ c rest, text = c :: rest ∧ isJsWhitespace c = false

theorem JsonText.startsVisible (hliteral : ∀ text n, literal text n → StartsVisible text) {text : Text}
    {value : JsoncValue ν} (h : JsonText literal text value) : StartsVisible text := by
  cases h with
  | object | array | string => exact ⟨_, _, rfl, by decide⟩
  | number h => exact hliteral _ _ h
  | true => exact ⟨'t', "rue".toList, by decide, by decide⟩
  | false => exact ⟨'f', "alse".toList, by decide, by decide⟩
  | null => exact ⟨'n', "ull".toList, by decide, by decide⟩

end OpenClaw.OcPaths
