/-
# OpenClaw.Reef.AuditChain -- what the chain proves

Entries that verify are linked one after another, and what `createAuditEntry` makes is the next link.  So
the entries of a store verify in memory, and read back from its file.  Two chains of one length and one
head hold the same events, entry by entry: the last hash fixes the last event and the hash before it.
-/
import OpenClaw.Reef.AuditStore
import OpenClaw.Reef.DurableLog

namespace OpenClaw.Reef

open OpenClaw.Data OpenClaw.Logic Json

variable {ν : Type}

/-! ## Links -/

variable {entries : List (JsonValue ν)} {read : Except String (Option (Json ν))} {entry : JsonValue ν}

theorem property_event_eq {event : Json ν} : read.bind defined = .ok event ↔ read = .ok (some event) := by
  cases read with
  | error message => simp [Except.bind]
  | ok value => cases value <;> simp [Except.bind, defined]

theorem stringOf_eq_some {s : JsString} : stringOf read = some s ↔ read = .ok (some (.string s)) := by
  unfold stringOf
  split <;> simp_all

theorem numberOf_eq_some {n : ν} : numberOf read = some n ↔ read = .ok (some (.number n)) := by
  unfold numberOf
  split <;> simp_all

variable [JsNumber ν] [DecidableEq ν] {hash : Hash}

/-- An entry that verifies behind `previous`, with its event and its hash. -/
structure LinksTo (hash : Hash) (index : ν) (previous : JsString) (entry : JsonValue ν) (event : Json ν)
    (entryHash : JsString) : Prop where
  event_eq : property entry.json "event" = .ok (some event)
  seq_eq : property event "seq" = .ok (some (.number (JsNumber.next index)))
  prevHash_eq : property entry.json "prevHash" = .ok (some (.string previous))
  entryHash_eq : property entry.json "entryHash" = .ok (some (.string entryHash))
  hash_eq : hashEntry hash previous event = .ok entryHash

theorem verifyEntry_eq_some {index : ν} {previous entryHash : JsString} :
    verifyEntry hash index previous entry = .ok (some entryHash) ↔ ∃ event,
      LinksTo hash index previous entry event entryHash := by
  unfold verifyEntry
  constructor
  · intro h
    obtain ⟨event, hevent, h⟩ := bind_eq_ok.mp h
    obtain ⟨seq, hseq, h⟩ := bind_eq_ok.mp h
    by_cases hnumber : numberOf (.ok seq) = some (JsNumber.next index)
    · rw [if_neg (not_not.mpr hnumber)] at h
      obtain ⟨prevHash, hprevHash, h⟩ := bind_eq_ok.mp h
      by_cases hprevious : stringOf (.ok prevHash) = some previous
      · rw [if_neg (not_not.mpr hprevious)] at h
        obtain ⟨entryHash', hentryHash, h⟩ := bind_eq_ok.mp h
        obtain ⟨expected, hexpected, h⟩ := bind_eq_ok.mp h
        by_cases hequal : stringOf (.ok entryHash') = some expected
        · rw [if_neg (not_not.mpr hequal)] at h
          cases h
          exact ⟨event, property_event_eq.mp hevent, hseq.trans (numberOf_eq_some.mp hnumber),
            hprevHash.trans (stringOf_eq_some.mp hprevious), hentryHash.trans (stringOf_eq_some.mp hequal),
            hexpected⟩
        · rw [if_pos hequal] at h
          cases h
      · rw [if_pos hprevious] at h
        cases h
    · rw [if_pos hnumber] at h
      cases h
  · rintro ⟨event, h⟩
    rw [property_event_eq.mpr h.event_eq]
    simp only [h.seq_eq, h.prevHash_eq, h.entryHash_eq, h.hash_eq, bind, Except.bind, numberOf, stringOf,
      ne_eq, not_true_eq_false, if_false]
    rfl

theorem verifyFrom_cons {index : ν} {previous last : JsString} {rest : List (JsonValue ν)} :
    verifyFrom hash index previous (entry :: rest) = .ok (some last) ↔ ∃ event entryHash,
      LinksTo hash index previous entry event entryHash ∧ verifyFrom hash (JsNumber.next index) entryHash rest =
      .ok (some last) := by
  rw [verifyFrom]
  cases hentry : verifyEntry hash index previous entry with
  | error message =>
    simp only [reduceCtorEq, false_iff, not_exists, not_and]
    intro event entryHash hlinks
    rw [verifyEntry_eq_some.mpr ⟨event, hlinks⟩] at hentry
    cases hentry
  | ok linked =>
    cases linked with
    | none =>
      simp only [Except.ok.injEq, reduceCtorEq, false_iff, not_exists, not_and]
      intro event entryHash hlinks
      rw [verifyEntry_eq_some.mpr ⟨event, hlinks⟩] at hentry
      cases hentry
    | some found =>
      constructor
      · intro h
        obtain ⟨event, hlinks⟩ := verifyEntry_eq_some.mp hentry
        exact ⟨event, found, hlinks, h⟩
      · rintro ⟨event, entryHash, hlinks, h⟩
        rw [verifyEntry_eq_some.mpr ⟨event, hlinks⟩] at hentry
        cases hentry
        exact h

/-- The number of the n-th entry, counted up from zero. -/
def countUp (ν : Type) [JsNumber ν] (n : Nat) : ν := JsNumber.next^[n] JsNumber.zero

/-- The entries verify, and `last` is their last hash. -/
def Verifies (hash : Hash) (entries : List (JsonValue ν)) (last : JsString) : Prop :=
  verifyFrom hash JsNumber.zero [] entries = .ok (some last)

theorem verifies_nil {last : JsString} : Verifies hash ([] : List (JsonValue ν)) last ↔ last = [] := by
  simp [Verifies, verifyFrom, eq_comm]

theorem verifyFrom_concat (entries : List (JsonValue ν)) (entry : JsonValue ν) :
    ∀ {index : ν} {previous last : JsString}, verifyFrom hash index previous (entries ++ [entry]) = .ok (some last) ↔
        ∃ between event, verifyFrom hash index previous entries = .ok (some between) ∧
          LinksTo hash (JsNumber.next^[entries.length] index) between entry event last := by
  induction entries with
  | nil =>
    intro index previous last
    rw [List.nil_append, verifyFrom_cons]
    simp only [verifyFrom, Except.ok.injEq, Option.some.injEq, List.length_nil, Function.iterate_zero, id]
    constructor
    · rintro ⟨event, entryHash, hlinks, rfl⟩
      exact ⟨previous, event, rfl, hlinks⟩
    · rintro ⟨between, event, rfl, hlinks⟩
      exact ⟨event, last, hlinks, rfl⟩
  | cons first rest ih =>
    intro index previous last
    rw [List.cons_append, verifyFrom_cons]
    constructor
    · rintro ⟨event, entryHash, hlinks, hrest⟩
      obtain ⟨between, event', hbetween, hlinks'⟩ := ih.mp hrest
      exact ⟨between, event', verifyFrom_cons.mpr ⟨event, entryHash, hlinks, hbetween⟩, hlinks'⟩
    · rintro ⟨between, event', hbetween, hlinks'⟩
      obtain ⟨event, entryHash, hlinks, hrest⟩ := verifyFrom_cons.mp hbetween
      exact ⟨event, entryHash, hlinks, ih.mpr ⟨between, event', hrest, hlinks'⟩⟩

/-- **One entry more verifies** exactly when it links to the chain so far. -/
theorem verifies_concat {last : JsString} : Verifies hash (entries ++ [entry]) last ↔
      ∃ between event, Verifies hash entries between ∧
      LinksTo hash (countUp ν entries.length) between entry event last :=
  verifyFrom_concat entries entry

theorem verifyChain_eq_true {head : Option JsString} {length : Option Nat} :
    verifyChain hash entries head length = .ok true ↔ (∀ n ∈ length, n = entries.length) ∧
      ∃ last, Verifies hash entries last ∧ ∀ h ∈ head, last = h := by
  have hlength : length.any (· ≠ entries.length) = true ↔ ¬ ∀ n ∈ length, n = entries.length := by
    cases length <;> simp
  unfold verifyChain Verifies
  by_cases hall : ∀ n ∈ length, n = entries.length
  · rw [if_neg (by rw [hlength]; exact not_not.mpr hall)]
    cases verifyFrom hash JsNumber.zero [] entries with
    | error message => simp [Except.map]
    | ok last =>
      cases last with
      | none => simp [Except.map]
      | some last =>
        simp only [Except.map, Except.ok.injEq, Option.any_some, Option.some.injEq, exists_eq_left']
        cases head with
        | none => simpa using hall
        | some h => simpa using fun _ => hall
  · rw [if_pos (hlength.mpr hall)]
    exact ⟨fun h => (by cases h), fun h => absurd h.1 hall⟩

/-! ## What is appended -/

omit [DecidableEq ν] in
/-- What `createAuditEntry` returned. -/
theorem createAuditEntry_eq_ok {cipher : AuditCipher} {call : AppendCall ν} {head : AuditHead ν}
    {entry : AuditEntry ν} (h : createAuditEntry hash cipher call head = .ok entry) :
    entry.event.seq = JsNumber.next head.seq ∧ entry.prevHash = head.hash ∧
      hashEntry hash head.hash entry.event.json.json = .ok entry.entryHash := by
  unfold createAuditEntry at h
  split at h
  · cases h
  · obtain ⟨payload, -, h⟩ := bind_eq_ok.mp h
    obtain ⟨entryHash, hhash, h⟩ := bind_eq_ok.mp h
    cases h
    exact ⟨rfl, rfl, hhash⟩

omit [DecidableEq ν] in
/-- A created entry links to the head it was created for. -/
theorem AuditEntry.linksTo {entry : AuditEntry ν} {index : ν} {previous : JsString}
    (hseq : entry.event.seq = JsNumber.next index) (hprevious : entry.prevHash = previous)
    (hhash : hashEntry hash previous entry.event.json.json = .ok entry.entryHash) :
    LinksTo hash index previous entry.json entry.event.json.json entry.entryHash where
  event_eq := rfl
  seq_eq := by
    rw [← hseq]
    rfl
  prevHash_eq := by
    rw [← hprevious]
    rfl
  entryHash_eq := rfl
  hash_eq := hhash

/-- The memory of a store: its entries verify up to its head. -/
structure HoldsChain (hash : Hash) (entries : List (JsonValue ν)) (memory : AuditMemory ν) : Prop where
  entries_eq : memory.entries = entries
  verifies : Verifies hash entries memory.head.hash
  seq_eq : memory.head.seq = countUp ν entries.length

theorem holdsChain_empty : HoldsChain hash [] (AuditMemory.empty : AuditMemory ν) where
  entries_eq := rfl
  verifies := verifies_nil.mpr rfl
  seq_eq := rfl

omit [DecidableEq ν] in
theorem countUp_succ (n : Nat) : countUp ν (n + 1) = JsNumber.next (countUp ν n) := Function.iterate_succ_apply' _ _ _

/-- **Appending keeps the chain.** -/
theorem HoldsChain.append {memory : AuditMemory ν} (h : HoldsChain hash entries memory) (cipher : AuditCipher)
    (call : AppendCall ν) : (∃ message, memory.append hash cipher call = (.error message, memory)) ∨
      ∃ entry memory', memory.append hash cipher call = (.ok entry, memory') ∧
      HoldsChain hash (entries ++ [entry.json]) memory' := by
  unfold AuditMemory.append
  cases hcreate : createAuditEntry hash cipher call memory.head with
  | error message => exact .inl ⟨message, rfl⟩
  | ok entry =>
    obtain ⟨hseq, hprevious, hhash⟩ := createAuditEntry_eq_ok hcreate
    refine .inr ⟨entry, _, rfl, ⟨by rw [h.entries_eq], ?_, ?_⟩⟩
    · rw [h.seq_eq] at hseq
      exact verifies_concat.mpr ⟨_, _, h.verifies, entry.linksTo hseq hprevious hhash⟩
    · rw [List.length_append, List.length_singleton, countUp_succ, ← h.seq_eq]
      exact hseq

/-- The head of verified entries is the hash and the number of the last one. -/
theorem headOf_verifies {last : JsString} (h : Verifies hash entries last) :
    headOf entries = ⟨last, countUp ν entries.length⟩ := by
  rcases List.eq_nil_or_concat entries with rfl | ⟨front, entry, rfl⟩
  · rw [verifies_nil.mp h]
    rfl
  · rw [List.concat_eq_append] at h ⊢
    obtain ⟨between, event, -, hlinks⟩ := verifies_concat.mp h
    have hevent : ((property entry.json "event").bind defined >>= (property · "seq")) =
        .ok (some (.number (JsNumber.next (countUp ν front.length)))) := by
      rw [property_event_eq.mpr hlinks.event_eq, ← hlinks.seq_eq]
      rfl
    rw [headOf, List.getLast?_concat, List.length_append, List.length_singleton, countUp_succ]
    simp only [stringOf_eq_some.mpr hlinks.entryHash_eq, numberOf_eq_some.mpr hevent, Option.getD_some]

omit [JsNumber ν] [DecidableEq ν] in
theorem AuditEntry.json_object (entry : AuditEntry ν) : ∃ members, entry.json.json = .object members :=
  ⟨_, rfl⟩

/-- **The JSONL store accepts what it appends.** -/
theorem jsonlAuditStore_sound (cipher : AuditCipher) :
    (jsonlAuditStore hash cipher : LogClient ν _ _ _).Sound (HoldsChain hash) where
  fresh := holdsChain_empty
  appends h call := by
    rcases h.append cipher call with ⟨message, happend⟩ | ⟨entry, memory', happend, hholds⟩
    · refine .inl ⟨?_, ?_⟩
      · simp only [jsonlAuditStore, happend]
      · simp only [jsonlAuditStore, happend]
        exact h
    · obtain ⟨members, hobject⟩ := entry.json_object
      refine .inr ⟨entry.json, members, ?_, hobject, ?_⟩
      · simp only [jsonlAuditStore, happend]
      · simp only [jsonlAuditStore, happend]
        exact hholds
  accepts {entries memory} h := by
    have hverify : verifyChain hash entries none none = .ok true :=
      verifyChain_eq_true.mpr ⟨by simp, _, h.verifies, by simp⟩
    refine ⟨⟨entries, headOf entries⟩, ?_, ⟨rfl, ?_, ?_⟩⟩
    · simp only [jsonlAuditStore, hverify]
      rfl
    · rw [headOf_verifies h.verifies]
      exact h.verifies
    · rw [headOf_verifies h.verifies]

/-! ## What the head fixes -/

/-- The event of an entry. -/
def eventOf (entry : JsonValue ν) : Json ν :=
  match property entry.json "event" with
  | .ok (some event) => event
  | _ => .null

/-- The message that is hashed for an entry. -/
def entryMessage (entry : JsonValue ν) : List UInt8 :=
  ((stringOf (property entry.json "prevHash")).bind previousBytes).getD [] ++ canonicalBytes (eventOf entry)

omit [JsNumber ν] [DecidableEq ν] in
theorem property_distinct {value member : Json ν} {name : String} (hvalue : value.Distinct)
    (h : property value name = .ok (some member)) : member.Distinct := by
  cases value with
  | object members =>
    obtain ⟨found, hfound, rfl⟩ := Option.map_eq_some_iff.mp (Except.ok.inj h)
    exact (distinct_object.mp hvalue).2 found (List.mem_of_find?_eq_some hfound)
  | _ => simp [property] at h

omit [DecidableEq ν] in
theorem LinksTo.eventOf_eq {index : ν} {previous entryHash : JsString} {event : Json ν}
    (h : LinksTo hash index previous entry event entryHash) : eventOf entry = event := by
  rw [eventOf, h.event_eq]

omit [DecidableEq ν] in
/-- The hash of an entry is the hash of its message. -/
theorem LinksTo.message {index : ν} {previous entryHash : JsString} {event : Json ν}
    (h : LinksTo hash index previous entry event entryHash) : ∃ bytes, previousBytes previous = some bytes ∧
      entryMessage entry = bytes ++ canonicalBytes event ∧
      entryHash = unitsOf (hex (hash.digest (entryMessage entry))) := by
  have hhash := h.hash_eq
  unfold hashEntry at hhash
  cases hbytes : previousBytes previous with
  | none =>
    rw [hbytes] at hhash
    cases hhash
  | some bytes =>
    have hmessage : entryMessage entry = bytes ++ canonicalBytes event := by
      rw [entryMessage, stringOf_eq_some.mpr h.prevHash_eq, Option.bind_some, hbytes, Option.getD_some, h.eventOf_eq]
    refine ⟨bytes, rfl, hmessage, ?_⟩
    rw [hbytes] at hhash
    rw [hmessage]
    exact (Except.ok.inj hhash).symm

theorem unitsOf_hex_injective {bytes bytes' : List UInt8} (h : unitsOf (hex bytes) = unitsOf (hex bytes')) :
    bytes = bytes' := by
  have hread := hexPairs_hex bytes
  rw [h, hexPairs_hex] at hread
  exact (Option.some.inj hread).symm

/-- The last hash of a chain: empty in front of the first entry, and then a hash. -/
theorem verifies_last {last : JsString} (h : Verifies hash entries last) : entries = [] ∧ last = [] ∨ entries ≠ [] ∧
      ∃ bytes, bytes.length = 32 ∧ last = unitsOf (hex bytes) ∧ previousBytes last = some bytes := by
  rcases List.eq_nil_or_concat entries with rfl | ⟨front, entry, rfl⟩
  · exact .inl ⟨rfl, verifies_nil.mp h⟩
  · rw [List.concat_eq_append] at h ⊢
    obtain ⟨between, event, -, hlinks⟩ := verifies_concat.mp h
    obtain ⟨-, -, -, hlast⟩ := hlinks.message
    have hlength := hash.length_digest (entryMessage entry)
    refine .inr ⟨by simp, _, hlength, hlast, ?_⟩
    have hne : last ≠ [] := by
      rintro rfl
      have := congrArg List.length hlast
      rw [unitsOf_hex_length, hlength] at this
      cases this
    rw [previousBytes, if_neg hne, hlast, fromHex_hex hlength]

/-- The bytes of the previous hash are as many in two chains of one length, and fix the hash. -/
theorem previous_eq {left right : List (JsonValue ν)} {last last' : JsString} {bytes bytes' : List UInt8}
    (hleft : Verifies hash left last) (hright : Verifies hash right last')
    (hlength : left.length = right.length) (hbytes : previousBytes last = some bytes)
    (hbytes' : previousBytes last' = some bytes') :
    bytes.length = bytes'.length ∧ (bytes = bytes' → last = last') := by
  rcases verifies_last hleft with ⟨rfl, rfl⟩ | ⟨hne, digest, hdigest, rfl, hread⟩
  · obtain rfl : right = [] := List.length_eq_zero_iff.mp hlength.symm
    obtain rfl := verifies_nil.mp hright
    rw [hbytes] at hbytes'
    cases hbytes'
    exact ⟨rfl, fun _ => rfl⟩
  · rcases verifies_last hright with ⟨rfl, -⟩ | ⟨-, digest', hdigest', rfl, hread'⟩
    · exact absurd (List.length_eq_zero_iff.mp hlength) hne
    · rw [hread] at hbytes
      rw [hread'] at hbytes'
      cases hbytes
      cases hbytes'
      exact ⟨hdigest.trans hdigest'.symm, fun h => by rw [h]⟩

/-- Two entries that hold the same event. -/
def SameEvent (left right : JsonValue ν) : Prop := Same (eventOf left) (eventOf right)

/-- No two different messages of these entries have one hash. -/
def NoCollision (hash : Hash) (entries : List (JsonValue ν)) : Prop :=
  Set.InjOn hash.digest {message | ∃ entry ∈ entries, message = entryMessage entry}

/-- **The head fixes the events**: two chains of one length and one head hold the same ones. -/
theorem sameEvents_of_head (left : List (JsonValue ν)) : ∀ {right : List (JsonValue ν)} {last : JsString},
    left.length = right.length → NoCollision hash (left ++ right) → Verifies hash left last →
      Verifies hash right last → List.Forall₂ SameEvent left right := by
  induction left using List.reverseRecOn with
  | nil =>
    intro right last hlength _ _ _
    rw [List.length_eq_zero_iff.mp hlength.symm]
    exact .nil
  | append_singleton left entry ih =>
    intro right last hlength hcollision hleft hright
    rcases List.eq_nil_or_concat right with rfl | ⟨right, entry', rfl⟩
    · simp at hlength
    · rw [List.concat_eq_append] at *
      have hlength : left.length = right.length := by simpa using hlength
      obtain ⟨previous, event, hfront, hlinks⟩ := verifies_concat.mp hleft
      obtain ⟨previous', event', hfront', hlinks'⟩ := verifies_concat.mp hright
      obtain ⟨bytes, hbytes, hmessage, hhash⟩ := hlinks.message
      obtain ⟨bytes', hbytes', hmessage', hhash'⟩ := hlinks'.message
      obtain ⟨hsize, hprevious⟩ := previous_eq hfront hfront' hlength hbytes hbytes'
      -- one hash, so one message, and the previous hash and the event are its two parts
      have hequal : entryMessage entry = entryMessage entry' :=
        hcollision ⟨entry, by simp, rfl⟩ ⟨entry', by simp, rfl⟩
          (unitsOf_hex_injective (hhash.symm.trans hhash'))
      rw [hmessage, hmessage'] at hequal
      obtain ⟨hparts, hcanonical⟩ := List.append_inj hequal hsize
      have hevent : SameEvent entry entry' := by
        rw [SameEvent, hlinks.eventOf_eq, hlinks'.eventOf_eq]
        exact same_of_canonicalJson (property_distinct entry.distinct hlinks.event_eq)
          (property_distinct entry'.distinct hlinks'.event_eq) (utf8_injective hcanonical)
      have hfronts : List.Forall₂ SameEvent left right := by
        refine ih hlength (hcollision.mono ?_) hfront (hprevious hparts ▸ hfront')
        rintro _ ⟨found, hfound, rfl⟩
        refine ⟨found, ?_, rfl⟩
        rcases List.mem_append.mp hfound with h | h <;> simp [h]
      exact List.rel_append hfronts (.cons hevent .nil)

/-! ## Runs -/

/-- What happens to an audit store that does not crash. -/
inductive AuditStep (ν : Type) where
  | append (call : AppendCall ν)
  | restart

def AuditStep.event : AuditStep ν → LogEvent (AppendCall ν)
  | .append call => .append call
  | .restart => .restart

omit [JsNumber ν] [DecidableEq ν] in
theorem AuditStep.event_isCrash (step : AuditStep ν) : step.event.isCrash = false := by
  cases step <;> rfl

omit [JsNumber ν] [DecidableEq ν] in
/-- Where every append returned, all that was attempted is there. -/
theorem Recovered.eq_of_returned {attempts : List (JsonValue ν × Bool)} {records : List (JsonValue ν)}
    (h : Recovered attempts records) (hreturned : ∀ attempt ∈ attempts, attempt.2 = true) :
    records = attempts.map Prod.fst := by
  induction h with
  | nil => rfl
  | kept record returned _ ih =>
    rw [List.map_append, ih fun attempt hattempt => hreturned attempt (List.mem_append_left _ hattempt)]
    rfl
  | lost record _ ih => exact absurd (hreturned (record, false) (by simp)) (by simp)

variable {μ ρ α : Type}

omit [DecidableEq ν] in
theorem attempts_returned (client : LogClient ν μ ρ α) : ∀ (events : List (LogEvent ρ)) (st : LogStore μ),
    (∀ event ∈ events, event.isCrash = false) → ∀ attempt ∈ st.attempts client events, attempt.2 = true
  | [], _, _, attempt, h => absurd h List.not_mem_nil
  | event :: rest, st, hcrash, attempt, h => by
    rcases List.mem_append.mp h with hfirst | hrest
    · have hevent := hcrash event List.mem_cons_self
      cases event with
      | append request =>
        obtain ⟨record, -, rfl⟩ := Option.map_eq_some_iff.mp (Option.mem_toList.mp hfirst)
        rfl
      | crash request written => cases hevent
      | restart => exact absurd hfirst List.not_mem_nil
    · exact attempts_returned client rest _ (fun event hevent => hcrash event (List.mem_cons_of_mem _ hevent))
        attempt hrest

/-- The store after a run that started without a file. -/
def auditRun (hash : Hash) (cipher : AuditCipher) (steps : List (AuditStep ν)) : LogStore (AuditMemory ν) :=
  run (LogStore.step (jsonlAuditStore hash cipher)) (.opened (jsonlAuditStore hash cipher) [])
    (steps.map AuditStep.event)

/-- The entries that `appendEvent` returned in a run. -/
def returnedEntries (hash : Hash) (cipher : AuditCipher) (steps : List (AuditStep ν)) : List (JsonValue ν) :=
  (LogStore.attempts (jsonlAuditStore hash cipher) (.opened (jsonlAuditStore hash cipher) [])
    (steps.map AuditStep.event)).map Prod.fst

theorem holdsChain_verifyChain {memory : AuditMemory ν} (h : HoldsChain hash entries memory) :
    verifyChain hash entries none none = .ok true :=
  verifyChain_eq_true.mpr ⟨by simp, _, h.verifies, by simp⟩

/-- The entries of the file verify, and so do those in memory. -/
theorem auditRun_verifies (cipher : AuditCipher) (steps : List (AuditStep ν)) :
    verifyChain hash (auditRun hash cipher steps).memory.entries none none = .ok true ∧
      readJsonl (auditRun hash cipher steps).file =
        .ok (returnedEntries hash cipher steps, (auditRun hash cipher steps).file) ∧
      verifyChain hash (returnedEntries hash cipher steps) none none = .ok true ∧
      ((auditRun hash cipher steps).loaded = true →
        (auditRun hash cipher steps).memory.entries = returnedEntries hash cipher steps) := by
  have hcrash : ∀ event ∈ steps.map AuditStep.event, event.isCrash = false := by
    intro event hevent
    obtain ⟨step, -, rfl⟩ := List.mem_map.mp hevent
    exact step.event_isCrash
  have hsound : (jsonlAuditStore hash cipher : LogClient ν _ _ _).Sound (HoldsChain hash) :=
    jsonlAuditStore_sound cipher
  obtain ⟨entries, h⟩ := (intact_fresh hsound).runWhole hsound (steps.map AuditStep.event) hcrash
  change Intact _ _ _ _ _ _ (auditRun hash cipher steps) at h
  rw [List.nil_append] at h
  have hentries : entries = returnedEntries hash cipher steps := by
    rw [← List.append_nil entries]
    exact h.recovered.eq_of_returned (attempts_returned _ _ _ hcrash)
  obtain ⟨memory, hheld⟩ := h.held
  have hread := readJsonl_settled entries .ended
  rw [← h.file_eq] at hread
  rw [List.append_nil] at hread hheld
  rw [← hentries]
  refine ⟨?_, hread, holdsChain_verifyChain hheld, ?_⟩
  · cases hloaded : (auditRun hash cipher steps).loaded with
    | true =>
      have hlive := (h.live hloaded).2
      rw [List.append_nil] at hlive
      rw [hlive.entries_eq]
      exact holdsChain_verifyChain hlive
    | false =>
      rw [h.unloaded hloaded]
      exact holdsChain_verifyChain holdsChain_empty
  · intro hloaded
    have hlive := (h.live hloaded).2
    rw [List.append_nil] at hlive
    exact hlive.entries_eq

theorem memoryRun_verifies (cipher : AuditCipher) (calls : List (AppendCall ν)) :
    verifyChain hash (run (fun memory call => (AuditMemory.append hash cipher memory call).2)
      AuditMemory.empty calls).entries none none = .ok true := by
  have hrun : ∃ entries, HoldsChain hash entries (run
      (fun memory call => (AuditMemory.append hash cipher memory call).2) AuditMemory.empty calls) := by
    refine run_invariant (P := fun memory => ∃ entries, HoldsChain hash entries memory) ?_ calls
      ⟨[], holdsChain_empty⟩
    rintro memory call ⟨entries, h⟩
    rcases h.append cipher call with ⟨message, happend⟩ | ⟨entry, memory', happend, hholds⟩
    · exact ⟨entries, by rw [happend]; exact h⟩
    · exact ⟨_, by rw [happend]; exact hholds⟩
  obtain ⟨entries, h⟩ := hrun
  have hverify := holdsChain_verifyChain h
  rwa [← h.entries_eq] at hverify

/-- **The audit chain.**  What a store appended verifies, in memory and read back from its lines; and as
long as no two messages that were hashed have one hash, the head fixes every event. -/
theorem audit_chain (hash : Hash) (cipher : AuditCipher) : (∀ steps : List (AuditStep ν),
      verifyChain hash (auditRun hash cipher steps).memory.entries none none = .ok true ∧
        readJsonl (auditRun hash cipher steps).file =
          .ok (returnedEntries hash cipher steps, (auditRun hash cipher steps).file) ∧
        verifyChain hash (returnedEntries hash cipher steps) none none = .ok true ∧
        ((auditRun hash cipher steps).loaded = true →
          (auditRun hash cipher steps).memory.entries = returnedEntries hash cipher steps)) ∧
      (∀ calls : List (AppendCall ν),
        verifyChain hash (run (fun memory call => (AuditMemory.append hash cipher memory call).2)
          AuditMemory.empty calls).entries none none = .ok true) ∧
      ∀ (left right : List (JsonValue ν)) (head : JsString), left.length = right.length →
        NoCollision hash (left ++ right) → verifyChain hash left (some head) none = .ok true →
        verifyChain hash right (some head) none = .ok true → List.Forall₂ SameEvent left right := by
  refine ⟨auditRun_verifies cipher, memoryRun_verifies cipher, ?_⟩
  intro left right head hlength hcollision hleft hright
  obtain ⟨-, last, hlast, hhead⟩ := verifyChain_eq_true.mp hleft
  obtain ⟨-, last', hlast', hhead'⟩ := verifyChain_eq_true.mp hright
  obtain rfl := hhead head rfl
  obtain rfl := hhead' _ rfl
  exact sameEvents_of_head left hlength hcollision hlast hlast'

section Sample

/-- A hash function that is SHA-256 on the two messages that are hashed below. -/
def sampleHash : Hash where
  digest message :=
    let first := [98, 46, 46, 136, 70, 149, 96, 46, 36, 58, 78, 90, 118, 165, 30, 131, 178, 201, 98, 237, 225, 127, 156,
      232, 241, 23, 114, 111, 13, 200, 230, 219]
    if message = utf8 "\x7b\"payload\":\x7b\"a\":1\x7d,\"seq\":1,\"ts\":7,\"type\":\"start\"\x7d".toList then first
    else if message =
        first ++ utf8 "\x7b\"payload\":\x7b\"a\":1\x7d,\"seq\":2,\"ts\":9,\"type\":\"stop\"\x7d".toList then
      [194, 5, 127, 31, 246, 184, 86, 55, 205, 207, 216, 242, 213, 107, 127, 73, 212, 243, 20, 174, 118, 152,
      182, 87, 152, 242, 206, 118, 130, 134, 4, 37]
    else List.replicate 32 0
  length_digest message := by
    dsimp only
    split
    · rfl
    · split <;> rfl

def sampleAuditLink : JsString := key "622e2e884695602e243a4e5a76a51e83b2c962ede17f9ce8f117726f0dc8e6db"

def sampleAuditHead : JsString := key "c2057f1ff6b85637cdcfd8f2d56b7f49d4f314ae7698b65798f2ce7682860425"

def sampleAuditPayload : Json Nat := .object [(key "a", .number 1)]

def sampleAuditMembers (seq ts : Nat) (type : String) : List (JsString × Json Nat) :=
  [(key "seq", .number seq), (key "ts", .number ts), (key "type", .string (key type)), (key "payload", sampleAuditPayload)]

theorem sampleAuditMembers_distinct {seq ts : Nat} {type : String} {members : List (JsString × Json Nat)}
    (h : members.Perm (sampleAuditMembers seq ts type)) : (Json.object members).Distinct := by
  refine distinct_object.mpr ⟨(h.map Prod.fst).nodup_iff.mpr ?_, fun member hmember => ?_⟩
  · simp only [sampleAuditMembers, List.map_cons, List.map_nil]
    decide
  · have hmem := h.mem_iff.mp hmember
    simp only [sampleAuditMembers, List.mem_cons, List.not_mem_nil, or_false] at hmem
    rcases hmem with rfl | rfl | rfl | rfl <;> simp [Distinct, sampleAuditPayload, DistinctMembers]

/-- An entry for one event, with the members of the event in any order. -/
def sampleAuditEntry (previous entryHash : JsString) {seq ts : Nat} {type : String}
    {members : List (JsString × Json Nat)} (h : members.Perm (sampleAuditMembers seq ts type)) : JsonValue Nat where
  json := .object [(key "event", .object members), (key "prevHash", .string previous),
    (key "entryHash", .string entryHash)]
  distinct := by
    refine distinct_object.mpr ⟨by simp only [List.map_cons, List.map_nil]; decide, ?_⟩
    intro member hmember
    simp only [List.mem_cons, List.not_mem_nil, or_false] at hmember
    rcases hmember with rfl | rfl | rfl
    · exact sampleAuditMembers_distinct h
    · trivial
    · trivial

/-- Two linked entries, the members of their events as they are made or the other way round. -/
def sampleAuditLog (reversed : Bool) : List (JsonValue Nat) :=
  if reversed then
    [sampleAuditEntry [] sampleAuditLink (List.reverse_perm (sampleAuditMembers 1 7 "start")),
      sampleAuditEntry sampleAuditLink sampleAuditHead (List.reverse_perm (sampleAuditMembers 2 9 "stop"))]
  else
    [sampleAuditEntry [] sampleAuditLink (.refl (sampleAuditMembers 1 7 "start")),
      sampleAuditEntry sampleAuditLink sampleAuditHead (.refl (sampleAuditMembers 2 9 "stop"))]

def sampleAuditMessage (seq : Nat) : List UInt8 :=
  ((sampleAuditLog false)[seq - 1]?.map entryMessage).getD []

theorem sampleAuditLog_message : ∀ reversed, ∀ entry ∈ sampleAuditLog reversed,
    entryMessage entry = sampleAuditMessage 1 ∨ entryMessage entry = sampleAuditMessage 2 := by
  decide +kernel

/-- The order in which an event lists its members does not matter. -/
theorem audit_chain_reordered : List.Forall₂ SameEvent (sampleAuditLog false) (sampleAuditLog true) := by
  refine (audit_chain sampleHash fun _ plaintext => plaintext).2.2 _ _ sampleAuditHead rfl ?_ (by decide +kernel)
    (by decide +kernel)
  have hdigest : sampleHash.digest (sampleAuditMessage 1) ≠ sampleHash.digest (sampleAuditMessage 2) := by
    decide +kernel
  rintro _ ⟨entry, hentry, rfl⟩ _ ⟨entry', hentry', rfl⟩ hsame
  have hmessage : ∀ entry ∈ sampleAuditLog false ++ sampleAuditLog true,
      entryMessage entry = sampleAuditMessage 1 ∨ entryMessage entry = sampleAuditMessage 2 := fun entry hentry =>
    (List.mem_append.mp hentry).elim (sampleAuditLog_message _ _) (sampleAuditLog_message _ _)
  rcases hmessage entry hentry with h | h <;> rcases hmessage entry' hentry' with h' | h' <;> rw [h, h'] at hsame ⊢
  · exact absurd hsame hdigest
  · exact absurd hsame hdigest.symm

end Sample

end OpenClaw.Reef
