/-
# OpenClaw.Shared.OperatorScopes -- roles, scopes and what one scope covers

A role is granted a list of scopes.  `roleScopesAllow` decides whether the scopes a caller asks for are
covered by those it was granted: for `operator` under three implications (`operator.admin` covers every
operator scope, `operator.write` covers `operator.read`), for any other role by name.  This module
follows `operator-scope-compat.ts` and `device-auth.ts`.
-/
import Mathlib.Data.List.Lex
import OpenClaw.Data.JsStrings

namespace OpenClaw.Shared

open OpenClaw.Data

def operatorRole : String := "operator"
def operatorAdminScope : String := "operator.admin"
def operatorReadScope : String := "operator.read"
def operatorWriteScope : String := "operator.write"
def operatorScopePrefix : String := "operator."

/-- Trimmed, nonempty, first-seen unique. -/
def normalizeScopeList (scopes : List String) : List String := uniqueStrings (normalizeTrimmedStringList scopes)

def operatorScopeSatisfied (requestedScope : String) (granted : List String) : Bool :=
  if !startsWith requestedScope operatorScopePrefix then false
  else if operatorAdminScope ∈ granted then true
  else if requestedScope = operatorReadScope then
    operatorReadScope ∈ granted || operatorWriteScope ∈ granted
  else if requestedScope = operatorWriteScope then operatorWriteScope ∈ granted
  else requestedScope ∈ granted

def roleScopesAllow (role : String) (requestedScopes allowedScopes : List String) : Bool :=
  let requested := normalizeScopeList requestedScopes
  if requested = [] then true
  else
    let allowed := normalizeScopeList allowedScopes
    if allowed = [] then false
    else if trim role ≠ operatorRole then
      requested.all fun scope => startsWith scope (trim role ++ ".") && scope ∈ allowed
    else requested.all fun scope => operatorScopeSatisfied scope allowed

def normalizeDeviceAuthRole (role : String) : String := trim role

/-- `out.add(scope)` -/
def addScope (scope : String) (out : List String) : List String :=
  if scope ∈ out then out else out ++ [scope]

/-- The scopes an operator scope brings along. -/
def addImpliedScopes (out : List String) : List String :=
  if operatorAdminScope ∈ out then addScope operatorWriteScope (addScope operatorReadScope out)
  else if operatorWriteScope ∈ out then addScope operatorReadScope out
  else out

def normalizeDeviceAuthScopes (scopes : List String) : List String :=
  toSorted jsLt (addImpliedScopes (normalizeScopeList scopes))

/-! ## Membership -/

variable {values : List String} {scopes : List String} {s : String} {out : List String}

theorem mem_normalizeTrimmedStringList : s ∈ normalizeTrimmedStringList values ↔ ∃ v ∈ values, trim v = s ∧ s ≠ "" := by
  unfold normalizeTrimmedStringList
  rw [List.mem_filter, List.mem_map]
  constructor
  · rintro ⟨⟨v, hv, rfl⟩, hne⟩
    exact ⟨v, hv, rfl, by simpa using hne⟩
  · rintro ⟨v, hv, rfl, hne⟩
    exact ⟨⟨v, hv, rfl⟩, by simpa using hne⟩

@[simp] theorem mem_normalizeScopeList : s ∈ normalizeScopeList scopes ↔ s ∈ normalizeTrimmedStringList scopes := List.mem_eraseDups

theorem trimmed_of_mem (h : s ∈ normalizeTrimmedStringList values) : Trimmed s := by
  obtain ⟨v, -, rfl, hne⟩ := Iff.mp mem_normalizeTrimmedStringList h
  exact ⟨trim_trim v, hne⟩

@[simp] theorem mem_addScope {s scope : String} : s ∈ addScope scope out ↔ s ∈ out ∨ s = scope := by
  unfold addScope
  split
  · rename_i hmem
    constructor
    · exact .inl
    · rintro (h | rfl)
      · exact h
      · exact hmem
  · simp

/-- The scopes of `scopes`, closed under what each brings along. -/
def ScopeIn (scopes : List String) (s : String) : Prop :=
  s ∈ scopes ∨ (s = operatorReadScope ∧ (operatorAdminScope ∈ scopes ∨ operatorWriteScope ∈ scopes)) ∨
    (s = operatorWriteScope ∧ operatorAdminScope ∈ scopes)

theorem mem_addImpliedScopes : s ∈ addImpliedScopes out ↔ ScopeIn out s := by
  unfold addImpliedScopes ScopeIn
  split
  · rename_i hadmin
    simp only [mem_addScope]
    tauto
  · rename_i hadmin
    split
    · rename_i hwrite
      simp only [mem_addScope]
      tauto
    · rename_i hwrite
      tauto

@[simp] theorem mem_toSorted {α : Type} {lt : α → α → Bool} {values : List α} {x : α} :
    x ∈ toSorted lt values ↔ x ∈ values := (toSorted_perm lt values).mem_iff

theorem mem_normalizeDeviceAuthScopes : s ∈ normalizeDeviceAuthScopes scopes ↔
      ScopeIn (normalizeTrimmedStringList scopes) s := by
  unfold normalizeDeviceAuthScopes ScopeIn
  rw [mem_toSorted, mem_addImpliedScopes]
  unfold ScopeIn
  simp only [mem_normalizeScopeList]

theorem operatorScopes_trimmed :
    Trimmed operatorAdminScope ∧ Trimmed operatorReadScope ∧ Trimmed operatorWriteScope := by decide

theorem trimmed_normalizeDeviceAuthScopes (h : s ∈ normalizeDeviceAuthScopes scopes) : Trimmed s := by
  rcases Iff.mp mem_normalizeDeviceAuthScopes h with h | ⟨rfl, -⟩ | ⟨rfl, -⟩
  · exact trimmed_of_mem h
  · exact operatorScopes_trimmed.2.1
  · exact operatorScopes_trimmed.2.2

/-! ## Normal forms -/

/-- A list of trimmed strings is its own trimmed list. -/
theorem normalizeTrimmedStringList_of_trimmed (h : ∀ s ∈ values, Trimmed s) :
    normalizeTrimmedStringList values = values := by
  induction values with
  | nil => rfl
  | cons v rest ih =>
    obtain ⟨hv, hne⟩ := h v List.mem_cons_self
    have hrest := ih fun s hs => h s (List.mem_cons_of_mem v hs)
    unfold normalizeTrimmedStringList at hrest ⊢
    rw [List.map_cons, hv, List.filter_cons_of_pos (by simpa using hne), hrest]

theorem eraseDups_of_nodup (h : values.Nodup) : values.eraseDups = values := by
  induction values with
  | nil => rfl
  | cons v rest ih =>
    obtain ⟨hv, hrest⟩ := List.nodup_cons.mp h
    have hfilter : rest.filter (fun s => !s == v) = rest := by
      refine List.filter_eq_self.mpr fun s hs => ?_
      have hne : s ≠ v := fun h => hv (h ▸ hs)
      simpa using hne
    rw [List.eraseDups_cons, hfilter, ih hrest]

theorem nodup_eraseDups (values : List String) : values.eraseDups.Nodup := by
  induction h : values.length using Nat.strong_induction_on generalizing values with
  | _ n ih =>
    cases values with
    | nil => exact List.nodup_nil
    | cons v rest =>
      rw [List.eraseDups_cons, List.nodup_cons]
      have hlength : (rest.filter fun s => !s == v).length < n := by
        have hle := List.length_filter_le (fun s => !s == v) rest
        rw [← h, List.length_cons]
        omega
      refine ⟨fun hmem => ?_, ih _ hlength _ rfl⟩
      have hfiltered := List.mem_eraseDups.mp hmem
      simp at hfiltered

theorem nodup_addScope {scope : String} (h : out.Nodup) : (addScope scope out).Nodup := by
  unfold addScope
  split
  · exact h
  · rename_i hmem
    exact List.nodup_append.mpr ⟨h, List.nodup_singleton scope, fun a ha b hb => by
      rw [List.mem_singleton.mp hb]
      exact fun hab => hmem (hab ▸ ha)⟩

theorem nodup_addImpliedScopes (h : out.Nodup) : (addImpliedScopes out).Nodup := by
  unfold addImpliedScopes
  split
  · exact nodup_addScope (nodup_addScope h)
  · split
    · exact nodup_addScope h
    · exact h

/-- The order `toSorted` sorts by. -/
def JsLe (a b : String) : Prop := jsLt b a = false

instance : DecidableRel JsLe := fun a b => inferInstanceAs (Decidable (jsLt b a = false))

theorem jsLe_iff {a b : String} : JsLe a b ↔ utf16Units a ≤ utf16Units b := by
  unfold JsLe jsLt
  rw [decide_eq_false_iff_not, not_lt]

instance : Std.Total JsLe := ⟨fun a b => by
  rw [jsLe_iff, jsLe_iff]
  exact le_total _ _⟩

instance : IsTrans String JsLe := ⟨fun a b c hab hbc => by
  rw [jsLe_iff] at hab hbc ⊢
  exact le_trans hab hbc⟩

theorem toSorted_sorted (values : List String) : (toSorted jsLt values).Pairwise JsLe :=
  List.pairwise_insertionSort JsLe values

theorem toSorted_of_sorted (h : values.Pairwise JsLe) : toSorted jsLt values = values := List.Pairwise.insertionSort_eq h

/-- Nothing to add where every implied scope is there. -/
theorem addImpliedScopes_of_closed (h : ∀ s, ScopeIn out s → s ∈ out) : addImpliedScopes out = out := by
  unfold addImpliedScopes
  split
  · rename_i hadmin
    have hread := h _ (.inr (.inl ⟨rfl, .inl hadmin⟩))
    have hwrite := h _ (.inr (.inr ⟨rfl, hadmin⟩))
    unfold addScope
    rw [if_pos hread, if_pos hwrite]
  · split
    · rename_i hwrite
      have hread := h _ (.inr (.inl ⟨rfl, .inr hwrite⟩))
      unfold addScope
      rw [if_pos hread]
    · rfl

/-- A list as `normalizeDeviceAuthScopes` makes it. -/
structure NormalScopes (scopes : List String) : Prop where
  trimmed : ∀ s ∈ scopes, Trimmed s
  nodup : scopes.Nodup
  closed : ∀ s, ScopeIn scopes s → s ∈ scopes
  sorted : scopes.Pairwise JsLe

theorem scopeIn_idem {closure : List String} (h : ∀ s, s ∈ closure ↔ ScopeIn scopes s) (hs : ScopeIn closure s) :
    ScopeIn scopes s := by
  have hdistinct : operatorReadScope ≠ operatorAdminScope ∧ operatorWriteScope ≠ operatorAdminScope ∧
      operatorReadScope ≠ operatorWriteScope := by decide
  unfold ScopeIn at hs ⊢
  rcases hs with hs | ⟨rfl, hs | hs⟩ | ⟨rfl, hs⟩
  · exact (h s).mp hs
  · rcases (h _).mp hs with hs | ⟨heq, -⟩ | ⟨heq, -⟩
    · exact .inr (.inl ⟨rfl, .inl hs⟩)
    · exact absurd heq.symm hdistinct.1
    · exact absurd heq.symm hdistinct.2.1
  · rcases (h _).mp hs with hs | ⟨heq, -⟩ | ⟨-, hs⟩
    · exact .inr (.inl ⟨rfl, .inr hs⟩)
    · exact absurd heq.symm hdistinct.2.2
    · exact .inr (.inl ⟨rfl, .inl hs⟩)
  · rcases (h _).mp hs with hs | ⟨heq, -⟩ | ⟨heq, -⟩
    · exact .inr (.inr ⟨rfl, hs⟩)
    · exact absurd heq.symm hdistinct.1
    · exact absurd heq.symm hdistinct.2.1

theorem normalizeDeviceAuthScopes_normal (scopes : List String) : NormalScopes (normalizeDeviceAuthScopes scopes) where
  trimmed := fun _ => trimmed_normalizeDeviceAuthScopes
  nodup := (toSorted_perm _ _).nodup_iff.mpr (nodup_addImpliedScopes (nodup_eraseDups _))
  closed := fun _ hs => Iff.mpr mem_normalizeDeviceAuthScopes
    (scopeIn_idem (fun _ => mem_normalizeDeviceAuthScopes) hs)
  sorted := toSorted_sorted _

/-- **Normalized scopes are their own normal form.** -/
theorem normalizeDeviceAuthScopes_of_normal (h : NormalScopes scopes) : normalizeDeviceAuthScopes scopes = scopes := by
  unfold normalizeDeviceAuthScopes normalizeScopeList uniqueStrings
  rw [normalizeTrimmedStringList_of_trimmed h.trimmed, eraseDups_of_nodup h.nodup,
    addImpliedScopes_of_closed h.closed, toSorted_of_sorted h.sorted]

/-! ## What is covered depends on the set of scopes only -/

theorem operatorScopeSatisfied_congr {granted granted' : List String}
    (h : ∀ s, s ∈ granted ↔ s ∈ granted') (scope : String) :
    operatorScopeSatisfied scope granted = operatorScopeSatisfied scope granted' := by
  unfold operatorScopeSatisfied
  simp only [h]

theorem eq_nil_congr {values values' : List String} (h : ∀ s, s ∈ values ↔ s ∈ values') :
    values = [] ↔ values' = [] := by
  simp only [List.eq_nil_iff_forall_not_mem, h]

theorem roleScopesAllow_congr {allowed allowed' : List String}
    (h : ∀ s, s ∈ normalizeTrimmedStringList allowed ↔ s ∈ normalizeTrimmedStringList allowed')
    (role : String) (requested : List String) :
    roleScopesAllow role requested allowed = roleScopesAllow role requested allowed' := by
  have hlist : ∀ s, s ∈ normalizeScopeList allowed ↔ s ∈ normalizeScopeList allowed' := by
    intro s
    rw [mem_normalizeScopeList, mem_normalizeScopeList]
    exact h s
  unfold roleScopesAllow
  simp only [eq_nil_congr hlist, hlist, operatorScopeSatisfied_congr hlist]

theorem operatorScopeSatisfied_mono {granted granted' : List String}
    (h : ∀ s ∈ granted, s ∈ granted') {scope : String} (hsatisfied : operatorScopeSatisfied scope granted = true) :
    operatorScopeSatisfied scope granted' = true := by
  unfold operatorScopeSatisfied at hsatisfied ⊢
  split at hsatisfied
  · cases hsatisfied
  · rename_i hoperator
    rw [if_neg hoperator]
    by_cases hadmin : operatorAdminScope ∈ granted'
    · rw [if_pos hadmin]
    · rw [if_neg fun hmem => hadmin (h _ hmem)] at hsatisfied
      rw [if_neg hadmin]
      split at hsatisfied
      · rename_i hread
        rw [if_pos hread]
        simp only [Bool.or_eq_true, decide_eq_true_eq] at hsatisfied ⊢
        exact hsatisfied.imp (h _) (h _)
      · rename_i hread
        rw [if_neg hread]
        split at hsatisfied
        · rename_i hwrite
          rw [if_pos hwrite]
          exact decide_eq_true (h _ (of_decide_eq_true hsatisfied))
        · rename_i hwrite
          rw [if_neg hwrite]
          exact decide_eq_true (h _ (of_decide_eq_true hsatisfied))

/-- More granted scopes cover no less. -/
theorem roleScopesAllow_mono {allowed allowed' : List String}
    (h : ∀ s ∈ normalizeTrimmedStringList allowed, s ∈ normalizeTrimmedStringList allowed')
    {role : String} {requested : List String} (hallow : roleScopesAllow role requested allowed = true) :
    roleScopesAllow role requested allowed' = true := by
  have hlist : ∀ s ∈ normalizeScopeList allowed, s ∈ normalizeScopeList allowed' := by
    intro s hs
    exact Iff.mpr mem_normalizeScopeList (h s (Iff.mp mem_normalizeScopeList hs))
  unfold roleScopesAllow at hallow ⊢
  dsimp only at hallow ⊢
  split at hallow
  · rename_i hnone
    rw [if_pos hnone]
  · rename_i hsome
    rw [if_neg hsome]
    split at hallow
    · cases hallow
    · rename_i hallowed
      have hallowed' : normalizeScopeList allowed' ≠ [] := by
        obtain ⟨s, hs⟩ := List.exists_mem_of_ne_nil _ hallowed
        exact List.ne_nil_of_mem (hlist s hs)
      rw [if_neg hallowed']
      split at hallow
      · rename_i hrole
        rw [if_pos hrole, List.all_eq_true]
        intro scope hscope
        have hok := List.all_eq_true.mp hallow scope hscope
        rw [Bool.and_eq_true, decide_eq_true_eq] at hok ⊢
        exact ⟨hok.1, hlist _ hok.2⟩
      · rename_i hrole
        rw [if_neg hrole, List.all_eq_true]
        intro scope hscope
        exact operatorScopeSatisfied_mono hlist (List.all_eq_true.mp hallow scope hscope)

/-- Two closed lists together are closed. -/
theorem scopeIn_append {a b : List String} (ha : ∀ s, ScopeIn a s → s ∈ a) (hb : ∀ s, ScopeIn b s → s ∈ b) :
    ScopeIn (a ++ b) s ↔ s ∈ a ++ b := by
  constructor
  · unfold ScopeIn
    simp only [List.mem_append]
    rintro (hs | ⟨rfl, (hs | hs) | (hs | hs)⟩ | ⟨rfl, hs | hs⟩)
    · exact hs
    · exact .inl (ha _ (.inr (.inl ⟨rfl, .inl hs⟩)))
    · exact .inr (hb _ (.inr (.inl ⟨rfl, .inl hs⟩)))
    · exact .inl (ha _ (.inr (.inl ⟨rfl, .inr hs⟩)))
    · exact .inr (hb _ (.inr (.inl ⟨rfl, .inr hs⟩)))
    · exact .inl (ha _ (.inr (.inr ⟨rfl, hs⟩)))
    · exact .inr (hb _ (.inr (.inr ⟨rfl, hs⟩)))
  · exact .inl

end OpenClaw.Shared
