/-
# OpenClaw.Data.JsonParsers -- parsers over a text, and what their result depends on

A parser is `Regular` when it leaves an end of its text, and more text behind what it left changes
nothing as long as it left something.  A `Steady` one does not even need that: it knows its end.
Sequences of parsers and lists between commas inherit both.
-/
import Mathlib.Data.List.Infix
import OpenClaw.Data.JsNumeral

namespace OpenClaw.Data

/-- What a parser reads at the start of a text, and the text it leaves. -/
abbrev Parser (α : Type) := Text → Option (α × Text)

variable {α β : Type}

namespace Parser

def done (value : α) : Parser α := fun text => some (value, text)

def fail : Parser α := fun _ => none

def bind (p : Parser α) (f : α → Parser β) : Parser β := fun text =>
  (p text).bind fun read => f read.1 read.2

def map (f : α → β) (p : Parser α) : Parser β := p.bind fun value => done (f value)

end Parser

/-- The white space between tokens. -/
def isJsonSpace (c : Char) : Bool := c ∈ [' ', '\t', '\n', '\r']

def skipSpace (text : Text) : Text := text.dropWhile isJsonSpace

/-- The next character that is not white space. -/
def token : Parser Char := fun text =>
  match skipSpace text with
  | [] => none
  | c :: rest => some (c, rest)

/-- Items between commas, up to the closing character; at least one. -/
def itemsUpTo (item : Parser α) (close : Char) : Nat → Parser (List α)
  | 0 => .fail
  | fuel + 1 =>
    item.bind fun first => token.bind fun c =>
      if c = ',' then (itemsUpTo item close fuel).map (first :: ·)
      else if c = close then .done [first]
      else .fail

/-- What stands between the opening and the closing character. -/
def listUpTo (item : Parser α) (close : Char) (fuel : Nat) : Parser (List α) := fun text =>
  match token text with
  | none => none
  | some (c, rest) => if c = close then some ([], rest) else itemsUpTo item close fuel text

/-! ## White space -/

theorem skipSpace_suffix (text : Text) : skipSpace text <:+ text := List.dropWhile_suffix _

variable {text rest : Text} {p : Parser α} {f : α → Parser β}

theorem skipSpace_append {c : Char} (h : skipSpace text = c :: rest) (more : Text) :
    skipSpace (text ++ more) = c :: (rest ++ more) := by
  unfold skipSpace at h ⊢
  rw [List.dropWhile_append, h]
  simp

theorem skipSpace_eq_nil {text : Text} : skipSpace text = [] ↔ ∀ c ∈ text, isJsonSpace c = true :=
  List.dropWhile_eq_nil_iff

theorem skipSpace_cons {c : Char} (h : isJsonSpace c = false) (text : Text) : skipSpace (c :: text) = c :: text := by
  rw [skipSpace, List.dropWhile_cons_of_neg (by simp [h])]

theorem token_eq_some {c : Char} : token text = some (c, rest) ↔ skipSpace text = c :: rest := by
  unfold token
  cases skipSpace text <;> simp

theorem token_cons {c : Char} (h : isJsonSpace c = false) (text : Text) : token (c :: text) = some (c, text) :=
  Iff.mpr token_eq_some (skipSpace_cons h text)

/-! ## Regular and steady parsers -/

/-- The parser leaves an end of its text. -/
def LeavesEnd (p : Parser α) : Prop := ∀ ⦃text value rest⦄, p text = some (value, rest) → rest <:+ text

structure Regular (p : Parser α) : Prop where
  leavesEnd : LeavesEnd p
  forward : ∀ ⦃text value rest⦄, p text = some (value, rest) → rest ≠ [] →
    ∀ more, p (text ++ more) = some (value, rest ++ more)

structure Steady (p : Parser α) : Prop where
  leavesEnd : LeavesEnd p
  forward : ∀ ⦃text value rest⦄, p text = some (value, rest) → ∀ more, p (text ++ more) = some (value, rest ++ more)

theorem Steady.regular (h : Steady p) : Regular p where
  leavesEnd := h.leavesEnd
  forward _ _ _ hread _ := h.forward hread

theorem bind_eq_some {value : β} : p.bind f text = some (value, rest) ↔ ∃ first left, p text = some (first, left) ∧
      f first left = some (value, rest) := by
  simp [Parser.bind, Option.bind_eq_some_iff]

theorem map_eq_some {f : α → β} {value : β} : p.map f text = some (value, rest) ↔
      ∃ first, p text = some (first, rest) ∧ f first = value := by
  simp only [Parser.map, bind_eq_some, Parser.done, Option.some.injEq, Prod.mk.injEq]
  constructor
  · rintro ⟨first, left, hread, rfl, rfl⟩
    exact ⟨first, hread, rfl⟩
  · rintro ⟨first, hread, rfl⟩
    exact ⟨first, rest, hread, rfl, rfl⟩

theorem LeavesEnd.bind (hp : LeavesEnd p) (hf : ∀ value, LeavesEnd (f value)) : LeavesEnd (p.bind f) := by
  intro text value rest h
  obtain ⟨first, left, hfirst, hrest⟩ := Iff.mp bind_eq_some h
  exact (hf first hrest).trans (hp hfirst)

theorem steady_done (value : α) : Steady (Parser.done value) where
  leavesEnd _ _ _ h := by
    cases h
    exact List.suffix_refl _
  forward _ _ _ h more := by
    cases h
    rfl

theorem steady_fail : Steady (Parser.fail : Parser α) where
  leavesEnd _ _ _ h := by cases h
  forward _ _ _ h := by cases h

theorem steady_token : Steady token where
  leavesEnd text c rest h := by
    have hspace := Iff.mp token_eq_some h
    exact (List.suffix_cons c rest).trans (hspace ▸ skipSpace_suffix text)
  forward _ _ _ h more := Iff.mpr token_eq_some (skipSpace_append (Iff.mp token_eq_some h) more)

theorem Steady.bind (hp : Steady p) (hf : ∀ value, Steady (f value)) : Steady (p.bind f) where
  leavesEnd := hp.leavesEnd.bind fun value => (hf value).leavesEnd
  forward _ _ _ h more := by
    obtain ⟨first, left, hfirst, hrest⟩ := Iff.mp bind_eq_some h
    exact Iff.mpr bind_eq_some ⟨first, left ++ more, hp.forward hfirst more, (hf first).forward hrest more⟩

theorem Steady.map (hp : Steady p) (f : α → β) : Steady (p.map f) := hp.bind fun value => steady_done (f value)

/-- What comes next reads something, so the first parser has left something. -/
theorem Regular.bindSteady (hp : Regular p) (hf : ∀ value, Steady (f value)) (hreads : ∀ value, f value [] = none) :
    Steady (p.bind f) where
  leavesEnd := hp.leavesEnd.bind fun value => (hf value).leavesEnd
  forward _ _ _ h more := by
    obtain ⟨first, left, hfirst, hrest⟩ := Iff.mp bind_eq_some h
    have hleft : left ≠ [] := by
      rintro rfl
      rw [hreads] at hrest
      cases hrest
    exact Iff.mpr bind_eq_some
      ⟨first, left ++ more, hp.forward hfirst hleft more, (hf first).forward hrest more⟩

theorem Steady.bindRegular (hp : Steady p) (hf : ∀ value, Regular (f value)) : Regular (p.bind f) where
  leavesEnd := hp.leavesEnd.bind fun value => (hf value).leavesEnd
  forward _ _ _ h hne more := by
    obtain ⟨first, left, hfirst, hrest⟩ := Iff.mp bind_eq_some h
    exact Iff.mpr bind_eq_some
      ⟨first, left ++ more, hp.forward hfirst more, (hf first).forward hrest hne more⟩

theorem Regular.map (hp : Regular p) (f : α → β) : Regular (p.map f) where
  leavesEnd := hp.leavesEnd.bind fun value => (steady_done (f value)).leavesEnd
  forward _ _ _ h hne more := by
    obtain ⟨first, hfirst, rfl⟩ := Iff.mp map_eq_some h
    exact Iff.mpr map_eq_some ⟨first, hp.forward hfirst hne more, rfl⟩

theorem token_bind_nil (f : Char → Parser β) : token.bind f [] = none := rfl

/-! ## Lists -/

variable {item : Parser α} {close : Char}

theorem itemsUpTo_steady (hitem : Regular item) (fuel : Nat) : Steady (itemsUpTo item close fuel) := by
  induction fuel with
  | zero => exact steady_fail
  | succ fuel ih =>
    refine hitem.bindSteady (fun first => steady_token.bind fun c => ?_) fun first => token_bind_nil _
    split
    · exact ih.map _
    · split
      · exact steady_done _
      · exact steady_fail

theorem listUpTo_eq_some {fuel : Nat} {items : List α} : listUpTo item close fuel text = some (items, rest) ↔
      ∃ c left, token text = some (c, left) ∧ (c = close ∧ items = [] ∧ left = rest ∨ c ≠ close ∧
      itemsUpTo item close fuel text = some (items, rest)) := by
  unfold listUpTo
  cases token text with
  | none => simp
  | some read =>
    obtain ⟨c, left⟩ := read
    by_cases hclose : c = close
    · simp [hclose, eq_comm]
    · simp [hclose]

theorem listUpTo_steady (hitem : Regular item) (fuel : Nat) : Steady (listUpTo item close fuel) where
  leavesEnd _ _ _ h := by
    obtain ⟨c, left, htoken, ⟨-, -, rfl⟩ | ⟨-, hitems⟩⟩ := Iff.mp listUpTo_eq_some h
    · exact steady_token.leavesEnd htoken
    · exact (itemsUpTo_steady hitem fuel).leavesEnd hitems
  forward _ _ _ h more := by
    obtain ⟨c, left, htoken, hcase⟩ := Iff.mp listUpTo_eq_some h
    refine Iff.mpr listUpTo_eq_some ⟨c, left ++ more, steady_token.forward htoken more, ?_⟩
    rcases hcase with ⟨hclose, hnil, rfl⟩ | ⟨hclose, hitems⟩
    · exact .inl ⟨hclose, hnil, rfl⟩
    · exact .inr ⟨hclose, (itemsUpTo_steady hitem fuel).forward hitems more⟩

theorem token_closes {c : Char} (h : token text = some (c, rest)) : c :: rest <:+ text :=
  Iff.mp token_eq_some h ▸ skipSpace_suffix text

/-- The closing character stands right before what is left. -/
theorem itemsUpTo_closes (hitem : LeavesEnd item) : ∀ (fuel : Nat) {text rest : Text} {items : List α},
    itemsUpTo item close fuel text = some (items, rest) → close :: rest <:+ text
  | 0, _, _, _, h => by cases h
  | fuel + 1, text, rest, items, h => by
    obtain ⟨first, left, hfirst, hmore⟩ := Iff.mp bind_eq_some h
    obtain ⟨c, behind, htoken, hcase⟩ := Iff.mp bind_eq_some hmore
    have hbehind : behind <:+ text := (steady_token.leavesEnd htoken).trans (hitem hfirst)
    split at hcase
    · obtain ⟨others, hothers, -⟩ := Iff.mp map_eq_some hcase
      exact (itemsUpTo_closes hitem fuel hothers).trans hbehind
    · split at hcase
      · rename_i hclose
        cases hcase
        exact hclose ▸ (token_closes htoken).trans (hitem hfirst)
      · cases hcase

theorem listUpTo_closes (hitem : LeavesEnd item) {fuel : Nat} {items : List α}
    (h : listUpTo item close fuel text = some (items, rest)) : close :: rest <:+ text := by
  obtain ⟨c, left, htoken, ⟨rfl, -, rfl⟩ | ⟨-, hitems⟩⟩ := Iff.mp listUpTo_eq_some h
  · exact token_closes htoken
  · exact itemsUpTo_closes hitem fuel hitems

/-! ## More fuel -/

/-- Whatever the first parser reads, the second one reads too. -/
def Refines (p q : Parser α) : Prop := ∀ ⦃text value rest⦄, p text = some (value, rest) → q text = some (value, rest)

theorem Refines.refl (p : Parser α) : Refines p p := fun _ _ _ h => h

theorem Refines.bind {p q : Parser α} {f g : α → Parser β} (hp : Refines p q)
    (hf : ∀ value, Refines (f value) (g value)) : Refines (p.bind f) (q.bind g) := by
  intro text value rest h
  obtain ⟨first, left, hfirst, hrest⟩ := Iff.mp bind_eq_some h
  exact Iff.mpr bind_eq_some ⟨first, left, hp hfirst, hf first hrest⟩

theorem Refines.map {p q : Parser α} (hp : Refines p q) (f : α → β) : Refines (p.map f) (q.map f) :=
  hp.bind fun _ => .refl _

theorem itemsUpTo_refines {item' : Parser α} (hitem : Refines item item') : ∀ {fuel fuel' : Nat},
    fuel ≤ fuel' → Refines (itemsUpTo item close fuel) (itemsUpTo item' close fuel')
  | 0, _, _ => fun _ _ _ h => by cases h
  | fuel + 1, 0, hle => absurd hle (by simp)
  | fuel + 1, fuel' + 1, hle => by
    refine hitem.bind fun first => (Refines.refl token).bind fun c => ?_
    split
    · exact (itemsUpTo_refines hitem (Nat.le_of_succ_le_succ hle)).map _
    · exact .refl _

theorem listUpTo_refines {item' : Parser α} (hitem : Refines item item') {fuel fuel' : Nat}
    (hle : fuel ≤ fuel') : Refines (listUpTo item close fuel) (listUpTo item' close fuel') := by
  intro text items rest h
  obtain ⟨c, left, htoken, hcase⟩ := Iff.mp listUpTo_eq_some h
  refine Iff.mpr listUpTo_eq_some ⟨c, left, htoken, ?_⟩
  rcases hcase with hclose | ⟨hclose, hitems⟩
  · exact .inl hclose
  · exact .inr ⟨hclose, itemsUpTo_refines hitem hle hitems⟩

/-! ## Reading what was joined -/

/-- `parts.join(",")` -/
def commas (parts : List Text) : Text := [','].intercalate parts

theorem commas_cons (first : Text) {rest : List Text} (h : rest ≠ []) :
    commas (first :: rest) = first ++ ',' :: commas rest := by
  cases rest with
  | nil => exact absurd rfl h
  | cons second rest => simp [commas, List.intercalate]

theorem commas_singleton (part : Text) : commas [part] = part := by simp [commas, List.intercalate]

/-- There is a part for every comma, and one more. -/
theorem length_le_commas (parts : List Text) : parts.length ≤ (commas parts).length + 1 := by
  induction parts with
  | nil => simp
  | cons first rest ih =>
    by_cases h : rest = []
    · simp [h]
    · rw [commas_cons first h]
      simp only [List.length_cons, List.length_append]
      omega

theorem part_le_commas {part : Text} {parts : List Text} (h : part ∈ parts) : part.length ≤ (commas parts).length := by
  induction parts with
  | nil => exact absurd h List.not_mem_nil
  | cons first rest ih =>
    by_cases hrest : rest = []
    · subst hrest
      rw [commas_singleton, List.mem_singleton.mp h]
    · rw [commas_cons first hrest]
      simp only [List.length_append, List.length_cons]
      rcases List.mem_cons.mp h with rfl | hmem
      · omega
      · have := ih hmem
        omega

/-- Items that are read in front of a comma or of the closing character are read back from their list. -/
theorem itemsUpTo_commas {text : α → Text} (hclose : close ≠ ',') (hspace : isJsonSpace close = false) :
    ∀ {items : List α}, items ≠ [] → ∀ {fuel : Nat}, items.length ≤ fuel →
      (∀ a ∈ items, ∀ c rest, c = ',' ∨ c = close → item (text a ++ c :: rest) = some (a, c :: rest)) →
      ∀ rest, itemsUpTo item close fuel (commas (items.map text) ++ close :: rest) = some (items, rest)
  | [], hne, _, _, _, _ => absurd rfl hne
  | [a], _, fuel + 1, _, hitems, rest => by
    refine Iff.mpr bind_eq_some ⟨a, close :: rest, ?_, Iff.mpr bind_eq_some ⟨close, rest, ?_, ?_⟩⟩
    · rw [List.map_singleton, commas_singleton]
      exact hitems a List.mem_cons_self close rest (.inr rfl)
    · exact token_cons hspace rest
    · rw [if_neg hclose, if_pos rfl]
      rfl
  | a :: b :: others, _, fuel + 1, hfuel, hitems, rest => by
    refine Iff.mpr bind_eq_some ⟨a, ',' :: (commas ((b :: others).map text) ++ close :: rest), ?_,
      Iff.mpr bind_eq_some ⟨',', _, token_cons (by decide) _, ?_⟩⟩
    · rw [List.map_cons, commas_cons _ (by simp), List.append_assoc, List.cons_append]
      exact hitems a List.mem_cons_self ',' _ (.inl rfl)
    · rw [if_pos rfl]
      refine Iff.mpr map_eq_some ⟨b :: others, ?_, rfl⟩
      exact itemsUpTo_commas hclose hspace (by simp) (Nat.le_of_succ_le_succ hfuel)
        (fun item hitem => hitems item (List.mem_cons_of_mem _ hitem)) rest

theorem listUpTo_commas {text : α → Text} (hclose : close ≠ ',') (hspace : isJsonSpace close = false)
    {items : List α} {fuel : Nat} (hfuel : items.length ≤ fuel) (hitems : ∀ a ∈ items, ∀ c rest, c = ',' ∨ c = close →
      item (text a ++ c :: rest) = some (a, c :: rest))
    (hstarts : ∀ a ∈ items, ∃ c front, text a = c :: front ∧ c ≠ close ∧ isJsonSpace c = false) (rest : Text) :
    listUpTo item close fuel (commas (items.map text) ++ close :: rest) = some (items, rest) := by
  cases items with
  | nil => exact Iff.mpr listUpTo_eq_some ⟨close, rest, token_cons hspace rest, .inl ⟨rfl, rfl, rfl⟩⟩
  | cons a others =>
    obtain ⟨c, front, htext, hne, hvisible⟩ := hstarts a List.mem_cons_self
    have hread := itemsUpTo_commas hclose hspace (by simp) hfuel hitems rest
    obtain ⟨behind, hbehind⟩ : ∃ behind, commas ((a :: others).map text) ++ close :: rest = c :: behind := by
      cases others with
      | nil => exact ⟨_, by rw [List.map_singleton, commas_singleton, htext, List.cons_append]⟩
      | cons b more => exact ⟨_, by rw [List.map_cons, commas_cons _ (by simp), htext]; rfl⟩
    rw [hbehind] at hread ⊢
    exact Iff.mpr listUpTo_eq_some ⟨c, behind, token_cons hvisible behind, .inr ⟨hne, hread⟩⟩

end OpenClaw.Data
