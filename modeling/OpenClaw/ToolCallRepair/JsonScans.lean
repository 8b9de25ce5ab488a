/-
# OpenClaw.ToolCallRepair.JsonScans -- what a longer text changes in the scan of a JSON call

An invalid scan is the scan of every longer text, a scan that has a name goes on with it, and a complete call stays
as it is when something other than white space follows its object.
-/
import OpenClaw.ToolCallRepair.JsonOpenings

namespace OpenClaw.ToolCallRepair

open OpenClaw.Data

variable {text more : JsString} {start : Nat} {lineBreakOffsets : Nat → Bool}

def ScanGoesOn (text text' : JsString) : ToolCallScan → ToolCallScan → Prop
  | .invalid at' candidate, scan' => scan' = .invalid at' candidate
  | .incomplete none _, _ => True
  | .incomplete (some value) _, scan' => CarriesOn text text' value scan'
  | .complete value _ _, scan' => CarriesOn text text' value scan'

/-- A scan with the name of this candidate. -/
def HasNameOf (value : Candidate) (scan : ToolCallScan) : Prop :=
  ∃ value', scan.value = some value' ∧ value'.name = value.name ∧ value'.nameComplete = value.nameComplete

theorem CarriesOn.of_hasNameOf {text' : JsString} {value value' : Candidate} {scan : ToolCallScan}
    (hsame : SameName text text' value value') (hscan : HasNameOf value' scan) : CarriesOn text text' value scan := by
  obtain ⟨value'', hvalue, hname, hcomplete⟩ := hscan
  refine .inr ⟨value'', hvalue, ?_⟩
  unfold SameName at hsame ⊢
  rw [hname, hcomplete]
  exact hsame

/-! ## What an opening has read -/

theorem consumeLineBreak_bounds {stop : Nat} (h : consumeLineBreak text start = some stop) :
    start < stop ∧ stop ≤ text.length := by
  unfold consumeLineBreak at h
  by_cases hcr : text[start]? = some (unit '\r')
  · have hlt : start < text.length := (List.getElem?_eq_some_iff.mp hcr).1
    rw [if_pos hcr, Option.some.injEq] at h
    by_cases hlf : text[start + 1]? = some (unit '\n')
    · have hlt' : start + 1 < text.length := (List.getElem?_eq_some_iff.mp hlf).1
      rw [if_pos hlf] at h
      omega
    · rw [if_neg hlf] at h
      omega
  · rw [if_neg hcr] at h
    by_cases hlf : text[start]? = some (unit '\n')
    · have hlt : start < text.length := (List.getElem?_eq_some_iff.mp hlf).1
      rw [if_pos hlf, Option.some.injEq] at h
      omega
    · rw [if_neg hlf] at h
      cases h

theorem consumeStructuralLineBreak_bounds {stop : Nat} (hstart : start ≤ text.length)
    (h : consumeStructuralLineBreakAfterHorizontalWhitespace lineBreakOffsets text start = some stop) :
    start ≤ stop ∧ stop ≤ text.length := by
  have hle := le_skipHorizontalWhitespace text start
  have hright : skipHorizontalWhitespace text start ≤ text.length := skipWhile_le hstart
  unfold consumeStructuralLineBreakAfterHorizontalWhitespace at h
  dsimp only at h
  rw [Option.or_eq_some_iff] at h
  rcases h with hbreak | ⟨-, hfound⟩
  · obtain ⟨hlt, hstop⟩ := consumeLineBreak_bounds hbreak
    exact ⟨by omega, hstop⟩
  · obtain ⟨hlow, hhigh⟩ := List.mem_range'_1.mp (List.mem_of_find?_eq_some hfound)
    exact ⟨hlow, by omega⟩

/-- From the end of a name on, an opening keeps its candidate and gets past that end. -/
def ReadsOn (text : JsString) (afterName : Nat → Candidate → Except ToolCallScan (Nat × Candidate)) : Prop :=
  ∀ nameEnd value cursor value', nameEnd < text.length → afterName nameEnd value = .ok (cursor, value') →
    value' = value ∧ nameEnd < cursor ∧ cursor ≤ text.length

theorem scanAfterBracketName_readsOn (lineBreakOffsets : Nat → Bool) (text : JsString) :
    ReadsOn text (scanAfterBracketName lineBreakOffsets text) := by
  intro nameEnd value cursor value' hlt h
  unfold scanAfterBracketName at h
  dsimp only at h
  split at h
  · split at h
    · cases h
    · split at h
      · cases h
      · rename_i stop hstop
        simp only [Except.ok.injEq, Prod.mk.injEq] at h
        obtain ⟨rfl, rfl⟩ := h
        obtain ⟨hle, hstop⟩ := consumeStructuralLineBreak_bounds hlt hstop
        exact ⟨rfl, hle, hstop⟩
  · simp only [Except.ok.injEq, Prod.mk.injEq] at h
    obtain ⟨rfl, rfl⟩ := h
    exact ⟨rfl, by omega, hlt⟩

theorem scanAfterHarmonyName_readsOn (text : JsString) : ReadsOn text (scanAfterHarmonyName text) := by
  intro nameEnd value cursor value' hlt h
  have hblank := le_skipHorizontalWhitespace text nameEnd
  unfold scanAfterHarmonyName at h
  dsimp only at h
  by_cases hcode : startsAt (units "code") text (skipHorizontalWhitespace text nameEnd) = true
  · have hcodeEnd := startsAt_length hcode code_ne_nil
    have hcodePos : 0 < (units "code").length := List.length_pos_iff.mpr code_ne_nil
    rw [hcode] at h
    simp only [Bool.not_true, Bool.false_eq_true, if_false] at h
    generalize hafter : skipHorizontalWhitespace text nameEnd + (units "code").length = afterCode at hcodeEnd h
    have hspace := le_skipWhitespace text afterCode
    by_cases hmessage : startsAt harmonyMessageMarker text (skipWhitespace text afterCode) = true
    · have hmessageEnd := startsAt_length hmessage harmonyMessageMarker_ne_nil
      rw [if_pos hmessage] at h
      simp only [Except.ok.injEq, Prod.mk.injEq] at h
      obtain ⟨rfl, rfl⟩ := h
      have hle := le_skipWhitespace text (skipWhitespace text afterCode + harmonyMessageMarker.length)
      exact ⟨rfl, by omega, skipWhile_le hmessageEnd⟩
    · rw [if_neg hmessage] at h
      split at h
      · cases h
      · split at h
        · cases h
        · simp only [Except.ok.injEq, Prod.mk.injEq] at h
          obtain ⟨rfl, rfl⟩ := h
          exact ⟨rfl, by omega, skipWhile_le hcodeEnd⟩
  · rw [Bool.eq_false_of_not_eq_true hcode] at h
    simp only [Bool.not_false, if_true] at h
    split at h <;> cases h

/-- What the scan of a name has read, and no payload yet. -/
theorem scanName_sound (callSyntax : CallSyntax) (endsName : CodeUnit → Bool)
    {afterName : Nat → Candidate → Except ToolCallScan (Nat × Candidate)} (hkeeps : KeepsName afterName)
    (hreads : ReadsOn text afterName) (hstart : start ≤ text.length) :
    ((openingScan (scanName text callSyntax endsName afterName start)).value.bind (·.payload) = none) ∧
      ∀ cursor value, scanName text callSyntax endsName afterName start = .ok (cursor, value) →
        start < cursor ∧ cursor ≤ text.length ∧ value.name.end' ≤ text.length ∧ value.nameComplete = true := by
  have hle : start ≤ nameEnd isPlainTextToolNameChar text start := le_runEnd _ _ _ _
  unfold scanName scanToolNameEnd
  dsimp only
  by_cases hlong : nameEnd isPlainTextToolNameChar text start - start > 120
  · rw [if_pos hlong]
    exact ⟨rfl, nofun⟩
  rw [if_neg hlong]
  dsimp only
  by_cases hend : nameEnd isPlainTextToolNameChar text start = text.length
  · rw [if_pos hend]
    refine ⟨?_, nofun⟩
    split <;> rfl
  have hlt : nameEnd isPlainTextToolNameChar text start < text.length := Nat.lt_of_le_of_ne (nameEnd_le _ hstart) hend
  rw [if_neg hend]
  split
  · exact ⟨rfl, nofun⟩
  · constructor
    · rcases hkeeps _ _ with hvalue | ⟨at', hinvalid⟩
      · rw [hvalue]
        rfl
      · rw [hinvalid]
        rfl
    · intro cursor value h
      obtain ⟨rfl, hafter, hcursor⟩ := hreads _ _ _ _ hlt h
      exact ⟨by omega, hcursor, hlt.le, rfl⟩

/-- Where the name may start in an opening. -/
theorem scanJsonOpening_cases (lineBreakOffsets : Nat → Bool) (hstart : start < text.length) :
    (∃ nameStart callSyntax endsName afterName, start < nameStart ∧ nameStart ≤ text.length ∧ KeepsName afterName ∧
        ReadsOn text afterName ∧
        scanJsonOpening lineBreakOffsets text start = scanName text callSyntax endsName afterName nameStart) ∨
      ∃ scan, scanJsonOpening lineBreakOffsets text start = .error scan ∧ scan.value = none := by
  unfold scanJsonOpening
  by_cases hbracket : text[start]? = some (unit '[')
  · rw [if_pos hbracket, scanBracketOpening_eq]
    cases hfound : bracketName text start with
    | none => exact .inr ⟨_, rfl, rfl⟩
    | some found =>
      obtain ⟨callSyntax, nameStart⟩ := found
      obtain ⟨-, hle⟩ := bracketName_append [] hstart hfound
      exact .inl ⟨nameStart, callSyntax, _, _, bracketName_lt hfound, hle, scanAfterBracketName_keeps _ _,
        scanAfterBracketName_readsOn lineBreakOffsets text, rfl⟩
  · rw [if_neg hbracket]
    have hchannel : ∀ cursor, start ≤ cursor → cursor ≤ text.length →
        (∃ nameStart callSyntax endsName afterName, start < nameStart ∧ nameStart ≤ text.length ∧ KeepsName afterName ∧
          ReadsOn text afterName ∧
          scanHarmonyChannel text cursor = scanName text callSyntax endsName afterName nameStart) ∨
        ∃ scan, scanHarmonyChannel text cursor = .error scan ∧ scan.value = none := by
      intro cursor hcursor hlength
      unfold scanHarmonyChannel
      split
      · split <;> exact .inr ⟨_, rfl, rfl⟩
      · rename_i channel hfound
        dsimp only
        split
        · exact .inr ⟨_, rfl, rfl⟩
        · split
          · exact .inr ⟨_, rfl, rfl⟩
          · by_cases hto : startsAt (units "to=") text (skipHorizontalWhitespace text (cursor + channel.length)) = true
            · have htoEnd := startsAt_length hto to_ne_nil
              have htoPos : 0 < (units "to=").length := List.length_pos_iff.mpr to_ne_nil
              have hle := le_skipHorizontalWhitespace text (cursor + channel.length)
              rw [hto]
              exact .inl ⟨_, .harmony, _, _, by omega, htoEnd, scanAfterHarmonyName_keeps text,
                scanAfterHarmonyName_readsOn text, rfl⟩
            · rw [Bool.eq_false_of_not_eq_true hto]
              simp only [Bool.not_false, if_true]
              split <;> exact .inr ⟨_, rfl, rfl⟩
    unfold scanHarmonyOpening
    by_cases hmarker : startsAt harmonyChannelMarker text start = true
    · rw [if_pos hmarker]
      exact hchannel _ (Nat.le_add_right _ _) (startsAt_length hmarker harmonyChannelMarker_ne_nil)
    · rw [if_neg hmarker]
      split
      · exact .inr ⟨_, rfl, rfl⟩
      · split
        · exact .inr ⟨_, rfl, rfl⟩
        · exact hchannel start (Nat.le_refl _) hstart.le

theorem scanJsonOpening_sound (lineBreakOffsets : Nat → Bool) (hstart : start < text.length) :
    ((openingScan (scanJsonOpening lineBreakOffsets text start)).value.bind (·.payload) = none) ∧
      ∀ cursor value, scanJsonOpening lineBreakOffsets text start = .ok (cursor, value) →
        start < cursor ∧ cursor ≤ text.length ∧ value.name.end' ≤ text.length ∧ value.nameComplete = true := by
  rcases scanJsonOpening_cases lineBreakOffsets hstart with
    ⟨nameStart, callSyntax, endsName, afterName, hlt, hle, hkeeps, hreads, heq⟩ | ⟨scan, heq, hvalue⟩
  · rw [heq]
    obtain ⟨hpayload, hok⟩ := scanName_sound callSyntax endsName hkeeps hreads hle
    refine ⟨hpayload, fun cursor value h => ?_⟩
    obtain ⟨hcursor, hrest⟩ := hok cursor value h
    exact ⟨hlt.trans hcursor, hrest⟩
  · rw [heq]
    refine ⟨?_, nofun⟩
    change scan.value.bind _ = none
    rw [hvalue]
    rfl

/-! ## Objects -/

/-- One turn of the loop closes the object or goes on, whatever follows. -/
theorem scanJsonUnits_cons (char : CodeUnit) (state : JsonState) :
    (∃ last, ∀ rest index, scanJsonUnits (char :: rest) index state = (true, index + 1, last)) ∨
      ∃ next, ∀ rest index, scanJsonUnits (char :: rest) index state = scanJsonUnits rest (index + 1) next := by
  by_cases hstring : state.inString = true
  · right
    by_cases hescaped : state.escaped = true
    · exact ⟨_, fun rest index => by rw [scanJsonUnits, if_pos hstring, if_pos hescaped]⟩
    by_cases hbackslash : char = unit '\\'
    · exact ⟨_, fun rest index => by rw [scanJsonUnits, if_pos hstring, if_neg hescaped, if_pos hbackslash]⟩
    by_cases hquote : char = unit '"'
    · refine ⟨{ state with inString := false }, fun rest index => ?_⟩
      rw [scanJsonUnits, if_pos hstring, if_neg hescaped, if_neg hbackslash, if_pos hquote]
    · refine ⟨state, fun rest index => ?_⟩
      rw [scanJsonUnits, if_pos hstring, if_neg hescaped, if_neg hbackslash, if_neg hquote]
  · by_cases hquote : char = unit '"'
    · exact .inr ⟨_, fun rest index => by rw [scanJsonUnits, if_neg hstring, if_pos hquote]⟩
    by_cases hopen : char = unit '\x7b'
    · exact .inr ⟨_, fun rest index => by rw [scanJsonUnits, if_neg hstring, if_neg hquote, if_pos hopen]⟩
    by_cases hclose : char = unit '\x7d'
    · by_cases hdepth : state.depth - 1 = 0
      · refine .inl ⟨{ state with depth := state.depth - 1 }, fun rest index => ?_⟩
        rw [scanJsonUnits, if_neg hstring, if_neg hquote, if_neg hopen, if_pos hclose, if_pos hdepth]
      · refine .inr ⟨{ state with depth := state.depth - 1 }, fun rest index => ?_⟩
        rw [scanJsonUnits, if_neg hstring, if_neg hquote, if_neg hopen, if_pos hclose, if_neg hdepth]
    · refine .inr ⟨state, fun rest index => ?_⟩
      rw [scanJsonUnits, if_neg hstring, if_neg hquote, if_neg hopen, if_neg hclose]

theorem scanJsonUnits_append (more : JsString) (l : JsString) (index : Nat) (state : JsonState) {stop : Nat} {last : JsonState}
    (h : scanJsonUnits l index state = (true, stop, last)) :
    scanJsonUnits (l ++ more) index state = (true, stop, last) ∧ index < stop ∧ stop ≤ index + l.length := by
  induction l generalizing index state with
  | nil => cases h
  | cons char rest ih =>
    rw [List.cons_append, List.length_cons]
    rcases scanJsonUnits_cons char state with ⟨closed, hclosed⟩ | ⟨next, hnext⟩
    · rw [hclosed] at h ⊢
      simp only [Prod.mk.injEq, true_and] at h
      obtain ⟨rfl, rfl⟩ := h
      exact ⟨rfl, by omega, by omega⟩
    · rw [hnext] at h ⊢
      obtain ⟨happend, hlt, hle⟩ := ih (index + 1) next h
      exact ⟨happend, by omega, by omega⟩

theorem scanJsonObject_append (more : JsString) (hstart : start ≤ text.length) {stop : Nat} {last : JsonState}
    (h : scanJsonObject text start = (true, stop, last)) :
    scanJsonObject (text ++ more) start = (true, stop, last) ∧ start < stop ∧ stop ≤ text.length := by
  unfold scanJsonObject at h ⊢
  obtain ⟨happend, hlt, hle⟩ := scanJsonUnits_append more _ _ _ h
  rw [List.length_drop] at hle
  rw [drop_append hstart]
  exact ⟨happend, hlt, by omega⟩

/-! ## Closings -/

theorem findClosing_append (more : JsString) {markerStart : Nat} (hstart : markerStart ≤ text.length) (closings : List JsString) :
    findClosing (text ++ more) markerStart closings = findClosing text markerStart closings ∨
      findClosing text markerStart closings = .cut := by
  induction closings with
  | nil => exact .inl rfl
  | cons closing rest ih =>
    unfold findClosing
    by_cases hstarts : startsAt closing text markerStart = true
    · rw [if_pos hstarts, if_pos (startsAt_append hstarts)]
      exact .inl rfl
    · rw [if_neg hstarts]
      by_cases hcut : cutAt closing text markerStart = true
      · rw [if_pos hcut]
        exact .inr rfl
      · obtain ⟨hno, hnocut⟩ := startsAt_append_of_not more hstart (Bool.eq_false_of_not_eq_true hstarts)
          (Bool.eq_false_of_not_eq_true hcut)
        rw [if_neg hcut, hno, hnocut]
        exact ih

theorem scanClosing_hasNameOf (text : JsString) (value : Candidate) (payload : Span) (state : JsonState) :
    HasNameOf value (scanClosing text value payload state) := by
  unfold scanClosing
  dsimp only
  split
  · split
    · exact ⟨_, rfl, rfl, rfl⟩
    · split <;> exact ⟨_, rfl, rfl, rfl⟩
  · split
    · exact ⟨_, rfl, rfl, rfl⟩
    · split <;> exact ⟨_, rfl, rfl, rfl⟩

theorem namedClosing_append {name : Span} (h : name.end' ≤ text.length) :
    namedClosing (text ++ more) name = namedClosing text name := by
  unfold namedClosing
  rw [slice_append h]

variable {value : Candidate}

/-- Where something follows the object, only a closing that is cut short can change. -/
theorem scanClosing_append (more : JsString) (payload : Span) (state : JsonState)
    (hname : value.name.end' ≤ text.length) (hrest : skipWhitespace text payload.end' < text.length) :
    scanClosing (text ++ more) value payload state = scanClosing text value payload state ∨
      (scanClosing text value payload state).isIncomplete = true := by
  have hmarker : skipWhitespace (text ++ more) payload.end' = skipWhitespace text payload.end' := skipWhile_append hrest
  unfold scanClosing
  dsimp only
  rw [hmarker, namedClosing_append hname, if_neg (Nat.ne_of_lt hrest), if_neg (ne_length_append hrest)]
  split
  · rcases findClosing_append more hrest.le [harmonyCallMarker, endToolRequest, namedClosing text value.name]
      with hsame | hcut
    · rw [hsame]
      exact .inl rfl
    · rw [hcut]
      exact .inr rfl
  · rw [if_neg (Nat.ne_of_lt hrest), if_neg (ne_length_append hrest)]
    rcases findClosing_append more hrest.le [endToolRequest, namedClosing text value.name] with hsame | hcut
    · rw [hsame]
      exact .inl rfl
    · rw [hcut]
      exact .inr rfl

/-- Where nothing follows it, a call that need not be closed is complete, and the others wait. -/
theorem scanClosing_end (value : Candidate) (payload : Span) (state : JsonState)
    (hend : skipWhitespace text payload.end' = text.length) :
    (∃ value', scanClosing text value payload state = .complete value' payload payload.end') ∨
      (scanClosing text value payload state).isIncomplete = true := by
  unfold scanClosing
  simp only [hend, if_true]
  split
  · exact .inl ⟨_, rfl⟩
  · exact .inr rfl

theorem scanClosing_payload {value value' : Candidate} {payload payload' : Span} {state : JsonState} {end' : Nat}
    (h : scanClosing text value payload state = .complete value' payload' end') : payload' = payload := by
  unfold scanClosing at h
  dsimp only at h
  split at h
  · split at h
    · cases h
      rfl
    · split at h <;> cases h <;> rfl
  · split at h
    · cases h
    · split at h <;> cases h
      rfl

theorem scanClosing_value {value value' : Candidate} {payload : Span} {state : JsonState}
    (h : (scanClosing text value payload state).value = some value') : value'.payload = some payload := by
  unfold scanClosing at h
  dsimp only at h
  split at h
  · split at h
    · cases h
      rfl
    · split at h <;> cases h <;> rfl
  · split at h
    · cases h
      rfl
    · split at h <;> cases h <;> rfl

theorem findClosing_le {markerStart end' : Nat} {closings : List JsString}
    (h : findClosing text markerStart closings = .found end') : markerStart ≤ end' := by
  induction closings with
  | nil => cases h
  | cons closing rest ih =>
    unfold findClosing at h
    split at h
    · cases h
      exact Nat.le_add_right _ _
    · split at h
      · cases h
      · exact ih h

/-- What follows the object is looked for after it. -/
theorem scanClosing_progress (value : Candidate) (payload : Span) (state : JsonState)
    (h : payload.end' ≤ text.length) : payload.end' ≤ (scanClosing text value payload state).progress text := by
  have hspace := le_skipWhitespace text payload.end'
  unfold scanClosing
  dsimp only
  split
  · split
    · exact Nat.le_refl _
    · split
      · rename_i hfound
        exact hspace.trans (findClosing_le hfound)
      · exact h
      · exact Nat.le_refl _
  · split
    · exact h
    · split
      · rename_i hfound
        exact hspace.trans (findClosing_le hfound)
      · exact h
      · exact hspace

/-! ## The scan -/

theorem scanJson_error {scan : ToolCallScan} (h : scanJsonOpening lineBreakOffsets text start = .error scan) :
    scanPlainTextJsonToolCall lineBreakOffsets text start = scan := by
  rw [scanPlainTextJsonToolCall, h]

theorem scanJson_hasNameOf {cursor : Nat} (h : scanJsonOpening lineBreakOffsets text start = .ok (cursor, value)) :
    HasNameOf value (scanPlainTextJsonToolCall lineBreakOffsets text start) := by
  unfold scanPlainTextJsonToolCall
  rw [h]
  dsimp only
  split
  · exact ⟨_, rfl, rfl, rfl⟩
  · split
    · exact ⟨_, rfl, rfl, rfl⟩
    · split
      · exact ⟨_, rfl, rfl, rfl⟩
      · exact scanClosing_hasNameOf _ _ _ _

/-- Once it has been read, an opening is followed by white space, by something else than an object, by an object
that the text leaves open, or by an object and what closes the call. -/
theorem scanJson_ok {cursor : Nat} (hcursor : cursor ≤ text.length) (h :
    scanJsonOpening lineBreakOffsets text start = .ok (cursor, value)) :
    (scanPlainTextJsonToolCall lineBreakOffsets text start).isIncomplete = true ∨
      (skipWhitespace text cursor < text.length ∧ ((text[skipWhitespace text cursor]? ≠ some (unit '\x7b') ∧
      scanPlainTextJsonToolCall lineBreakOffsets text start = .invalid (skipWhitespace text cursor) (some value)) ∨
      (text[skipWhitespace text cursor]? = some (unit '\x7b') ∧ ∃ stop state,
      scanJsonObject text (skipWhitespace text cursor) = (true, stop, state) ∧
      scanPlainTextJsonToolCall lineBreakOffsets text start = scanClosing text value ⟨skipWhitespace text cursor,
      stop⟩ state))) := by
  have hspace : skipWhitespace text cursor ≤ text.length := skipWhile_le hcursor
  unfold scanPlainTextJsonToolCall
  rw [h]
  dsimp only
  by_cases hend : skipWhitespace text cursor = text.length
  · rw [if_pos hend]
    exact .inl rfl
  rw [if_neg hend]
  by_cases hbrace : text[skipWhitespace text cursor]? = some (unit '\x7b')
  · rw [if_neg (not_not_intro hbrace)]
    rcases hobject : scanJsonObject text (skipWhitespace text cursor) with ⟨closed, stop, state⟩
    cases closed with
    | false => exact .inl rfl
    | true => exact .inr ⟨Nat.lt_of_le_of_ne hspace hend, .inr ⟨hbrace, stop, state, rfl, rfl⟩⟩
  · rw [if_pos hbrace]
    exact .inr ⟨Nat.lt_of_le_of_ne hspace hend, .inl ⟨hbrace, rfl⟩⟩

/-- With the same opening before an object that is closed, the longer text has the same object. -/
theorem scanJson_closing_append {cursor cursor' stop : Nat} {state : JsonState}
    (hsame : skipWhitespace text cursor < text.length → cursor' = cursor)
    (hlt : skipWhitespace text cursor < text.length) (hbrace : text[skipWhitespace text cursor]? = some (unit '\x7b'))
    (hobject : scanJsonObject text (skipWhitespace text cursor) = (true, stop, state))
    (hopening' : scanJsonOpening lineBreakOffsets (text ++ more) start = .ok (cursor', value)) :
    scanPlainTextJsonToolCall lineBreakOffsets (text ++ more) start = scanClosing (text ++
      more) value ⟨skipWhitespace text cursor, stop⟩ state := by
  have hspace : skipWhitespace (text ++ more) cursor = skipWhitespace text cursor := skipWhile_append hlt
  obtain ⟨hobject', -, -⟩ := scanJsonObject_append more hlt.le hobject
  unfold scanPlainTextJsonToolCall
  rw [hopening', hsame hlt]
  dsimp only
  rw [hspace, if_neg (ne_length_append hlt), getElem?_append hlt, if_neg (not_not_intro hbrace), hobject']

theorem scanJson_goesOn (hstart : start < text.length) :
    ScanGoesOn text (text ++ more) (scanPlainTextJsonToolCall lineBreakOffsets text start)
      (scanPlainTextJsonToolCall lineBreakOffsets (text ++ more) start) := by
  have hopening := scanJsonOpening_goesOn lineBreakOffsets more hstart
  -- a name that the opening carries on with is the name of the whole scan
  have hcarries : ∀ value,
      CarriesOn text (text ++ more) value (openingScan (scanJsonOpening lineBreakOffsets (text ++ more) start)) →
      CarriesOn text (text ++ more) value (scanPlainTextJsonToolCall lineBreakOffsets (text ++ more) start) := by
    intro value h
    cases hopening' : scanJsonOpening lineBreakOffsets (text ++ more) start with
    | error scan =>
      rw [hopening'] at h
      rw [scanJson_error hopening']
      exact h
    | ok read =>
      obtain ⟨cursor, value'⟩ := read
      rw [hopening'] at h
      rcases h with ⟨at', hinvalid⟩ | ⟨value'', hvalue, hsame⟩
      · cases hinvalid
      · cases hvalue
        exact CarriesOn.of_hasNameOf hsame (scanJson_hasNameOf hopening')
  cases hread : scanJsonOpening lineBreakOffsets text start with
  | error scan =>
    rw [hread] at hopening
    rw [scanJson_error hread]
    cases scan with
    | invalid at' candidate => exact scanJson_error hopening
    | incomplete candidate completeEnd =>
      cases candidate with
      | none => trivial
      | some value => exact hcarries value hopening
    | complete value payload end' => exact hopening.elim
  | ok read =>
    obtain ⟨cursor, value⟩ := read
    rw [hread] at hopening
    obtain ⟨cursor', hopening', hsame⟩ := hopening
    obtain ⟨-, hcursor, hname, hcomplete⟩ := (scanJsonOpening_sound _ hstart).2 cursor value hread
    have hself : SameName text (text ++ more) value value := by
      unfold SameName
      rw [if_pos hcomplete]
      exact ⟨hcomplete, slice_append hname⟩
    obtain ⟨value', hvalue, hvalueName, hvalueComplete⟩ := scanJson_hasNameOf hread
    have hon : CarriesOn text (text ++ more) value' (scanPlainTextJsonToolCall lineBreakOffsets (text ++ more) start) := by
      refine CarriesOn.of_hasNameOf (?_ : SameName text (text ++ more) _ value) (scanJson_hasNameOf hopening')
      unfold SameName at hself ⊢
      rw [hvalueName, hvalueComplete]
      exact hself
    cases hscan : scanPlainTextJsonToolCall lineBreakOffsets text start with
    | complete value₁ payload end' =>
      rw [hscan] at hvalue
      cases hvalue
      exact hon
    | incomplete candidate completeEnd =>
      rw [hscan] at hvalue
      cases hvalue
      exact hon
    | invalid at' candidate =>
      rcases scanJson_ok hcursor hread with hincomplete | ⟨hlt, ⟨hbrace, heq⟩ | ⟨hbrace, stop, state, hobject, heq⟩⟩
      · rw [hscan] at hincomplete
        cases hincomplete
      · have hspace : skipWhitespace (text ++ more) cursor = skipWhitespace text cursor := skipWhile_append hlt
        rw [← hscan, heq]
        change scanPlainTextJsonToolCall lineBreakOffsets (text ++ more) start = _
        unfold scanPlainTextJsonToolCall
        rw [hopening', hsame hlt]
        dsimp only
        rw [hspace, if_neg (ne_length_append hlt), getElem?_append hlt, if_pos hbrace]
      · obtain ⟨-, -, hstop⟩ := scanJsonObject_append more hlt.le hobject
        have hrest : skipWhitespace text stop < text.length := by
          refine Nat.lt_of_le_of_ne (skipWhile_le hstop) fun hend => ?_
          rcases scanClosing_end value ⟨skipWhitespace text cursor, stop⟩ state hend
            with ⟨value₁, hcall⟩ | hcall <;> rw [← heq, hscan] at hcall <;> cases hcall
        rw [← hscan]
        rw [heq] at hscan ⊢
        rcases scanClosing_append more ⟨skipWhitespace text cursor, stop⟩ state
          hname hrest with hstays | hincomplete
        · rw [hscan] at hstays ⊢
          exact (scanJson_closing_append hsame hlt hbrace hobject hopening').trans hstays
        · rw [hscan] at hincomplete
          cases hincomplete

/-- A complete call stays as it is when something other than white space follows its object. -/
theorem scanJson_complete_append (hstart : start < text.length) {payload : Span} {end' : Nat}
    (hscan : scanPlainTextJsonToolCall lineBreakOffsets text start = .complete value payload end')
    (hrest : skipWhitespace text payload.end' < text.length) : scanPlainTextJsonToolCall lineBreakOffsets (text ++
      more) start = .complete value payload end' := by
  have hopening := scanJsonOpening_goesOn lineBreakOffsets more hstart
  cases hread : scanJsonOpening lineBreakOffsets text start with
  | error scan =>
    rw [hread] at hopening
    rw [scanJson_error hread] at hscan
    rw [hscan] at hopening
    exact hopening.elim
  | ok read =>
    obtain ⟨cursor, opened⟩ := read
    rw [hread] at hopening
    obtain ⟨cursor', hopening', hsame⟩ := hopening
    obtain ⟨-, hcursor, hname, -⟩ := (scanJsonOpening_sound _ hstart).2 cursor opened hread
    rcases scanJson_ok hcursor hread with hincomplete | ⟨hlt, ⟨hbrace, heq⟩ | ⟨hbrace, stop, state, hobject, heq⟩⟩
    · rw [hscan] at hincomplete
      cases hincomplete
    · rw [hscan] at heq
      cases heq
    · have hpayload : payload = ⟨skipWhitespace text cursor, stop⟩ := by
        rw [hscan] at heq
        exact scanClosing_payload heq.symm
      rw [hpayload] at hrest
      rcases scanClosing_append more _ state hname hrest with hstays | hincomplete
      · rw [scanJson_closing_append hsame hlt hbrace hobject hopening', hstays, ← heq, hscan]
      · rw [← heq, hscan] at hincomplete
        cases hincomplete

end OpenClaw.ToolCallRepair
