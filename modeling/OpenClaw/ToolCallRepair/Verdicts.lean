/-
# OpenClaw.ToolCallRepair.Verdicts -- which verdicts a longer text keeps

A branch is dead when it is invalid or has a name that no tool has, and dead branches stay dead.  An invalid verdict
has two dead branches, or the branch of a JSON call is the one that decides: complete with a payload that is no
object of arguments, or still incomplete while the other one is too large already.
-/
import OpenClaw.ToolCallRepair.XmlishScans

namespace OpenClaw.ToolCallRepair

open OpenClaw.Data

variable {text more : JsString} {start cursor : Nat} {lineBreakOffsets : Nat → Bool}

/-! ## Two branches at one place -/

theorem functionClose_eq : functionClose = unit '<' :: units "/function>" := by decide

theorem parameterOpen_eq : parameterOpen = unit '<' :: units "parameter=" := by decide

theorem brace_not_marker : unit '<' ≠ asciiLower (unit '\x7b') := by decide

/-- An object is nothing that the XML-ish scanner knows. -/
theorem scanParameters_brace {callSyntax : CallSyntax} {name : Span}
    (hbrace : text[skipWhitespace text cursor]? = some (unit '\x7b')) :
    scanParameters text callSyntax name cursor cursor [] none =
      .invalid (skipWhitespace text cursor) (some { callSyntax, name, nameComplete := true,
                                                    payload := some ⟨cursor, skipWhitespace text cursor⟩ }) := by
  have hlt : skipWhitespace text cursor < text.length := (List.getElem?_eq_some_iff.mp hbrace).1
  have hlower : (text.map asciiLower)[skipWhitespace text cursor]? = some (asciiLower (unit '\x7b')) := by
    rw [List.getElem?_map, hbrace]
    rfl
  obtain ⟨hno, hnocut⟩ := startsAt_of_head_ne (units "/function>") hlower brace_not_marker
  obtain ⟨hno', hnocut'⟩ := startsAt_of_head_ne (units "parameter=") hlower brace_not_marker
  rw [← functionClose_eq] at hno hnocut
  rw [← parameterOpen_eq] at hno' hnocut'
  rw [scanParameters]
  simp only [startsWithAsciiMarkerIgnoreCase, isAsciiMarkerPrefixIgnoreCase, hno, hnocut, hno', hnocut']
  rw [if_neg (Nat.ne_of_lt hlt)]
  simp

variable {value : Candidate} {scan : ToolCallScan} {payload : Span}

/-- A JSON opening in a bracket is an opening of the XML-ish scanner too, and ends at the same place. -/
theorem scanXmlishBracketName_of_json {callSyntax : CallSyntax} {nameStart : Nat} (hstart : nameStart ≤ text.length)
    (hcursor : skipWhitespace text cursor < text.length)
    (h : scanBracketName lineBreakOffsets text callSyntax nameStart = .ok (cursor, value)) :
    ∃ name, scanXmlishBracketName lineBreakOffsets text callSyntax nameStart = .ok (cursor, callSyntax, name) := by
  refine ⟨⟨nameStart, nameEnd isPlainTextToolNameChar text nameStart⟩, ?_⟩
  unfold scanBracketName scanName scanToolNameEnd at h
  dsimp only at h
  by_cases hlong : nameEnd isPlainTextToolNameChar text nameStart - nameStart > 120
  · rw [if_pos hlong] at h
    cases h
  rw [if_neg hlong] at h
  dsimp only at h
  by_cases hend : nameEnd isPlainTextToolNameChar text nameStart = text.length
  · rw [if_pos hend] at h
    cases h
  rw [if_neg hend] at h
  have hlt : nameEnd isPlainTextToolNameChar text nameStart < text.length := Nat.lt_of_le_of_ne (nameEnd_le _ hstart) hend
  rw [scanXmlishBracketName, if_neg hlong, scanBracketEnd]
  dsimp only
  rw [if_neg hend]
  rw [List.getElem?_eq_getElem hlt] at h ⊢
  simp only [Option.any_some, Bool.or_eq_true, decide_eq_true_eq, Bool.not_eq_true', decide_eq_false_iff_not,
    ne_eq, Option.some.injEq] at h ⊢
  split at h
  · cases h
  rename_i hname
  rw [if_neg hname]
  unfold scanAfterBracketName at h
  dsimp only at h
  by_cases hnamed : callSyntax = .namedBracket
  · rw [if_pos hnamed] at h ⊢
    by_cases hblank : skipHorizontalWhitespace text (nameEnd isPlainTextToolNameChar text nameStart + 1) = text.length
    · rw [if_pos hblank] at h
      cases h
    rw [if_neg hblank] at h
    have hblank' : skipHorizontalWhitespace text (nameEnd isPlainTextToolNameChar text nameStart + 1) < text.length :=
      Nat.lt_of_le_of_ne (skipWhile_le hlt) hblank
    have hnext : nameEnd isPlainTextToolNameChar text nameStart + 1 ≠ text.length :=
      Nat.ne_of_lt (Nat.lt_of_le_of_lt (le_skipHorizontalWhitespace text _) hblank')
    rw [if_neg hnext]
    cases hstop : consumeStructuralLineBreakAfterHorizontalWhitespace lineBreakOffsets text
        (nameEnd isPlainTextToolNameChar text nameStart + 1) with
    | none =>
      rw [hstop] at h
      cases h
    | some stop =>
      rw [hstop] at h
      cases h
      rfl
  · rw [if_neg hnamed] at h ⊢
    cases h
    rfl

/-- The marker of a Harmony channel is none of a function. -/
theorem not_functionOpen_of_channel (h : startsAt harmonyChannelMarker text start = true) :
    startsWithAsciiMarkerIgnoreCase text start functionOpen = false ∧
      isAsciiMarkerPrefixIgnoreCase text start functionOpen = false := by
  have hnone : harmonyChannelMarker.map asciiLower ≠ [] := by decide
  have hleft : ¬harmonyChannelMarker.map asciiLower <+: functionOpen := by decide
  have hright : ¬functionOpen <+: harmonyChannelMarker.map asciiLower := by decide
  have hpre : harmonyChannelMarker.map asciiLower <+: (text.map asciiLower).drop start := by
    rw [← List.map_drop]
    exact (startsAt_iff.mp h).map asciiLower
  constructor
  · rw [← Bool.not_eq_true, startsWithAsciiMarkerIgnoreCase, startsAt_iff]
    intro hfunction
    rcases List.prefix_or_prefix_of_prefix hpre hfunction with h | h
    · exact hleft h
    · exact hright h
  · rw [← Bool.not_eq_true]
    intro hcut
    exact hleft (hpre.trans (List.isPrefixOf_iff_prefix.mp (Bool.and_eq_true_iff.mp hcut).2))

/-- Where a JSON call has its object the XML-ish scan is invalid. -/
theorem scanXmlish_invalid_of_object (hstart : start < text.length) (hopening :
    scanJsonOpening lineBreakOffsets text start = .ok (cursor, value)) (hbrace :
    text[skipWhitespace text cursor]? = some (unit '\x7b')) : ∃ at' candidate,
      scanXmlishToolCall lineBreakOffsets text start = .invalid at' candidate := by
  unfold scanJsonOpening at hopening
  by_cases hbracket : text[start]? = some (unit '[')
  · rw [if_pos hbracket, scanBracketOpening_eq] at hopening
    have hangle : ¬text[start]? = some (unit '<') := by
      rw [hbracket]
      decide
    cases hfound : bracketName text start with
    | none =>
      rw [hfound] at hopening
      cases hopening
    | some found =>
      obtain ⟨callSyntax, nameStart⟩ := found
      rw [hfound] at hopening
      obtain ⟨-, hname⟩ := bracketName_append [] hstart hfound
      obtain ⟨name, hread⟩ := scanXmlishBracketName_of_json hname (List.getElem?_eq_some_iff.mp hbrace).1 hopening
      have hxmlish : scanXmlishOpening lineBreakOffsets text start = .ok (cursor, callSyntax, name) := by
        rw [scanXmlishOpening, if_neg hangle, if_pos hbracket, scanXmlishBracketOpening_eq _ hstart, hfound]
        exact hread
      exact ⟨_, _, (scanXmlish_ok hxmlish).trans (scanParameters_brace hbrace)⟩
  · rw [if_neg hbracket] at hopening
    by_cases hangle : text[start]? = some (unit '<')
    · -- only the marker of a channel starts so
      have hmarker : startsAt harmonyChannelMarker text start = true := by
        by_contra hno
        unfold scanHarmonyOpening at hopening
        rw [if_neg hno] at hopening
        split at hopening <;> cases hopening
      obtain ⟨hno, hnocut⟩ := not_functionOpen_of_channel hmarker
      refine ⟨start, none, scanXmlish_error ?_⟩
      rw [scanXmlishOpening, if_pos hangle, scanFunctionOpening, hno, hnocut]
      rfl
    · refine ⟨start, none, scanXmlish_error ?_⟩
      rw [scanXmlishOpening, if_neg hangle, if_neg hbracket]

/-- A payload is one of an opening that was read and of an object that starts there. -/
theorem scanJson_payload (hstart : start < text.length)
    (hvalue : (scanPlainTextJsonToolCall lineBreakOffsets text start).value = some value)
    (hpayload : value.payload = some payload) : ∃ cursor opened, scanJsonOpening lineBreakOffsets text start =
      .ok (cursor, opened) ∧ text[skipWhitespace text cursor]? = some (unit '\x7b') := by
  obtain ⟨hnone, hok⟩ := scanJsonOpening_sound lineBreakOffsets hstart
  cases hread : scanJsonOpening lineBreakOffsets text start with
  | error scan =>
    rw [scanJson_error hread] at hvalue
    rw [hread] at hnone
    change scan.value.bind _ = none at hnone
    rw [hvalue] at hnone
    exact absurd (hpayload.symm.trans hnone) nofun
  | ok read =>
    obtain ⟨cursor, opened⟩ := read
    refine ⟨cursor, opened, rfl, ?_⟩
    by_contra hbrace
    unfold scanPlainTextJsonToolCall at hvalue
    rw [hread] at hvalue
    rw [hread] at hnone
    change opened.payload = none at hnone
    dsimp only at hvalue
    by_cases hend : skipWhitespace text cursor = text.length
    · rw [if_pos hend] at hvalue
      cases hvalue
      exact absurd (hpayload.symm.trans hnone) nofun
    · rw [if_neg hend, if_pos hbrace] at hvalue
      cases hvalue
      exact absurd (hpayload.symm.trans hnone) nofun

/-! ## Names -/

/-- The prefix test accepts the prefixes of the accepted names and nothing else. -/
def PlainTextToolCallNameMatcher.PrefixTest (matcher : PlainTextToolCallNameMatcher) : Prop :=
  ∀ start, matcher.hasNamePrefix start = true ↔ ∃ name, matcher.hasExactName name = true ∧ start <+: name

variable {matcher : Option PlainTextToolCallNameMatcher}

theorem nameMatches_of_sameName {value value' : Candidate} (hmatcher : ∀ m ∈ matcher, m.PrefixTest)
    (hsame : SameName text (text ++ more) value value') (h : nameMatches matcher (text ++ more) value' = true) :
    nameMatches matcher text value = true := by
  unfold nameMatches at h ⊢
  cases matcher with
  | none => rfl
  | some m =>
    have htest := hmatcher m rfl
    unfold SameName at hsame
    dsimp only at h ⊢
    by_cases hcomplete : value.nameComplete = true
    · rw [if_pos hcomplete] at hsame ⊢
      rw [if_pos hsame.1, hsame.2] at h
      exact h
    · rw [if_neg hcomplete] at hsame ⊢
      rw [htest]
      by_cases hcomplete' : value'.nameComplete = true
      · rw [if_pos hcomplete'] at h
        exact ⟨_, h, hsame⟩
      · rw [if_neg hcomplete', htest] at h
        obtain ⟨name, hname, hpre⟩ := h
        exact ⟨name, hname, hsame.trans hpre⟩

/-! ## Dead branches -/

/-- Nothing can come of the branch: it is invalid, or its name is none of the tools'. -/
def Dead (matcher : Option PlainTextToolCallNameMatcher) (text : JsString) (scan : ToolCallScan) : Prop :=
  accepted matcher text scan = false ∨ ∃ at' candidate, scan = .invalid at' candidate

theorem CarriesOn.dead {scan' : ToolCallScan} (hmatcher : ∀ m ∈ matcher, m.PrefixTest)
    (h : CarriesOn text (text ++ more) value scan') (hno : nameMatches matcher text value = false) :
    Dead matcher (text ++ more) scan' := by
  rcases h with ⟨at', hinvalid⟩ | ⟨value', hvalue, hsame⟩
  · exact .inr ⟨at', none, hinvalid⟩
  · left
    unfold accepted
    rw [hvalue]
    dsimp only
    by_contra hyes
    rw [Bool.not_eq_false] at hyes
    rw [nameMatches_of_sameName hmatcher hsame hyes] at hno
    cases hno

theorem ScanGoesOn.dead {scan scan' : ToolCallScan} (hmatcher : ∀ m ∈ matcher, m.PrefixTest)
    (h : ScanGoesOn text (text ++ more) scan scan') (hdead : Dead matcher text scan) :
    Dead matcher (text ++ more) scan' := by
  cases scan with
  | invalid at' candidate => exact .inr ⟨at', candidate, h⟩
  | incomplete candidate completeEnd =>
    rcases hdead with hno | ⟨at', candidate', hinvalid⟩
    · cases candidate with
      | none => cases hno
      | some value => exact CarriesOn.dead hmatcher h hno
    · cases hinvalid
  | complete value payload end' =>
    rcases hdead with hno | ⟨at', candidate', hinvalid⟩
    · exact CarriesOn.dead hmatcher h hno
    · cases hinvalid

/-- Dead branches stay dead: an XML-ish one that might come alive has the name that the JSON one waits with. -/
theorem dead_append (more : JsString) (hmatcher : ∀ m ∈ matcher, m.PrefixTest) (hstart : start < text.length)
    (hxmlish : Dead matcher text (scanXmlishToolCall lineBreakOffsets text start))
    (hjson : Dead matcher text (scanPlainTextJsonToolCall lineBreakOffsets text start)) :
    Dead matcher (text ++ more) (scanXmlishToolCall lineBreakOffsets (text ++ more) start) ∧
      Dead matcher (text ++ more) (scanPlainTextJsonToolCall lineBreakOffsets (text ++ more) start) := by
  refine ⟨?_, (scanJson_goesOn hstart).dead hmatcher hjson⟩
  rcases scanXmlish_goesOn lineBreakOffsets more hstart with h | ⟨value, hwaits, hcarries⟩
  · exact h.dead hmatcher hxmlish
  · rw [hwaits] at hjson
    rcases hjson with hno | ⟨at', candidate, hinvalid⟩
    · exact hcarries.dead hmatcher hno
    · cases hinvalid

/-! ## Verdicts -/

variable {isArguments : JsString → Bool} {options : ScanOptions}

theorem Dead.not_complete {end' : Nat} (h : Dead matcher text scan) (haccepted : accepted matcher text scan = true) :
    scan ≠ .complete value payload end' := by
  rintro rfl
  rcases h with hno | ⟨at', candidate, hinvalid⟩
  · rw [haccepted] at hno
    cases hno
  · cases hinvalid

theorem Dead.not_incomplete (h : Dead matcher text scan) : (accepted matcher text scan && scan.isIncomplete) =
      false := by
  rcases h with hno | ⟨at', candidate, hinvalid⟩
  · rw [hno]
    rfl
  · rw [hinvalid]
    exact Bool.and_false _

theorem verdict_of_dead (hxmlish : Dead options.matcher text (scanXmlishToolCall options.lineBreakOffsets text start))
    (hjson : Dead options.matcher text (scanPlainTextJsonToolCall options.lineBreakOffsets text start)) :
    ∃ at', (scanPlainTextToolCall isArguments options text start).verdict = .invalid at' := by
  unfold scanPlainTextToolCall
  dsimp only
  split
  · rename_i haccepted hcomplete
    exact absurd hcomplete (hxmlish.not_complete haccepted)
  · rename_i haccepted hcomplete _
    exact absurd hcomplete (hjson.not_complete haccepted)
  · split
    · exact ⟨_, rfl⟩
    · exact ⟨_, rfl⟩
    · rw [hxmlish.not_incomplete, hjson.not_incomplete]
      exact ⟨_, rfl⟩

/-- What the end of an object says of its place: it is in the text, and after the start. -/
theorem scanJson_object (value : Candidate) (hstart : start < text.length)
    (hvalue : (scanPlainTextJsonToolCall lineBreakOffsets text start).value = some value)
    (hpayload : value.payload = some payload) (hdone :
    (scanPlainTextJsonToolCall lineBreakOffsets text start).isIncomplete = false) : payload.end' ≤ text.length ∧
      start < (scanPlainTextJsonToolCall lineBreakOffsets text start).progress text := by
  obtain ⟨cursor, opened, hread, hbrace⟩ := scanJson_payload hstart hvalue hpayload
  obtain ⟨hcursor, hlength, -⟩ := (scanJsonOpening_sound _ hstart).2 cursor opened hread
  have hspace := le_skipWhitespace text cursor
  rcases scanJson_ok hlength hread with hincomplete | ⟨hlt, ⟨hno, -⟩ | ⟨-, stop, state, hobject, heq⟩⟩
  · rw [hdone] at hincomplete
    cases hincomplete
  · exact absurd hbrace hno
  · obtain ⟨-, hstop, hle⟩ := scanJsonObject_append [] hlt.le hobject
    have hprogress := scanClosing_progress opened ⟨skipWhitespace text cursor, stop⟩ state hle
    rw [heq] at hvalue ⊢
    refine ⟨?_, by dsimp only at hprogress; omega⟩
    rw [scanClosing_value hvalue] at hpayload
    cases hpayload
    exact hle

theorem scanJson_complete_payload {end' : Nat} (hstart : start < text.length)
    (h : scanPlainTextJsonToolCall lineBreakOffsets text start = .complete value payload end') :
    value.payload = some payload := by
  cases hread : scanJsonOpening lineBreakOffsets text start with
  | error scan =>
    have hopening := scanJsonOpening_goesOn lineBreakOffsets [] hstart
    rw [hread] at hopening
    rw [scanJson_error hread] at h
    rw [h] at hopening
    exact hopening.elim
  | ok read =>
    obtain ⟨cursor, opened⟩ := read
    obtain ⟨-, hlength, -⟩ := (scanJsonOpening_sound _ hstart).2 cursor opened hread
    rcases scanJson_ok hlength hread with hincomplete | ⟨-, ⟨-, heq⟩ | ⟨-, stop, state, -, heq⟩⟩
    · rw [h] at hincomplete
      cases hincomplete
    · rw [h] at heq
      cases heq
    · rw [h] at heq
      rw [scanClosing_payload heq.symm]
      exact scanClosing_value (congrArg ToolCallScan.value heq.symm)

/-- Past the end of the text a JSON call is waited for, and an XML-ish one is not. -/
theorem scans_at_end (lineBreakOffsets : Nat → Bool) (h : text.length ≤ start) :
    scanPlainTextJsonToolCall lineBreakOffsets text start = .incomplete none none ∧
      scanXmlishToolCall lineBreakOffsets text start = .invalid start none := by
  have hnone : text[start]? = none := List.getElem?_eq_none_iff.mpr h
  have hno : startsAt harmonyChannelMarker text start = false := by
    rw [← Bool.not_eq_true]
    intro hyes
    have hlength := startsAt_length hyes harmonyChannelMarker_ne_nil
    have hpos : 0 < harmonyChannelMarker.length := List.length_pos_iff.mpr harmonyChannelMarker_ne_nil
    omega
  constructor
  · apply scanJson_error
    rw [scanJsonOpening, hnone, if_neg nofun, scanHarmonyOpening, hno, cutAt_end harmonyChannelMarker_ne_nil h]
    rfl
  · apply scanXmlish_error
    rw [scanXmlishOpening, hnone, if_neg nofun, if_neg nofun]

theorem alive (haccepted : accepted matcher text scan = true) (hcomplete :
    ∀ value payload end', scan ≠ .complete value payload end') (hincomplete : scan.isIncomplete = false) :
    ∃ at' candidate, scan = .invalid at' candidate := by
  cases scan with
  | invalid at' candidate => exact ⟨at', candidate, rfl⟩
  | incomplete candidate completeEnd => cases hincomplete
  | complete value payload end' => exact absurd rfl (hcomplete value payload end')

/-- A branch that has been read without result is dead. -/
theorem dead_of_not_alive (hcomplete : ∀ value payload end', accepted matcher text scan = true →
    scan ≠ .complete value payload end') (hincomplete : (accepted matcher text scan && scan.isIncomplete) = false) :
    Dead matcher text scan := by
  cases haccepted : accepted matcher text scan with
  | false => exact .inl haccepted
  | true =>
    rw [haccepted] at hincomplete
    exact .inr (alive haccepted (fun value payload end' => hcomplete value payload end' haccepted) hincomplete)

theorem overCap_candidate {maxPayloadBytes : Nat}
    (h : payloadOverCap text maxPayloadBytes (acceptedPayload matcher text scan) = true) :
    ∃ value payload, scan.value = some value ∧ value.payload = some payload := by
  cases hpayload : acceptedPayload matcher text scan with
  | none =>
    rw [hpayload] at h
    cases h
  | some payload =>
    unfold acceptedPayload at hpayload
    split at hpayload
    · obtain ⟨value, hvalue, hpayload⟩ := Option.bind_eq_some_iff.mp hpayload
      exact ⟨value, payload, hvalue, hpayload⟩
    · cases hpayload

theorem overCapAt_eq_some {overCap : Bool} {at' : Nat} (h : scan.overCapAt overCap = some at') :
    ∃ candidate, scan = .invalid at' candidate ∧ overCap = true := by
  cases scan with
  | invalid stop candidate =>
    rw [ToolCallScan.overCapAt] at h
    by_cases hover : overCap = true
    · rw [if_pos hover] at h
      cases h
      exact ⟨candidate, rfl, hover⟩
    · rw [if_neg hover] at h
      cases h
  | incomplete candidate completeEnd => cases h
  | complete value payload end' => cases h

/-- How a verdict comes to be invalid. -/
theorem verdict_invalid_cases {at' : Nat}
    (h : (scanPlainTextToolCall isArguments options text start).verdict = .invalid at') :
    (Dead options.matcher text (scanXmlishToolCall options.lineBreakOffsets text start) ∧
        Dead options.matcher text (scanPlainTextJsonToolCall options.lineBreakOffsets text start)) ∨
      (∃ value payload end',
        scanPlainTextJsonToolCall options.lineBreakOffsets text start = .complete value payload end' ∧
          accepted options.matcher text (.complete value payload end') = true ∧
          payloadOverCap text options.maxPayloadBytes value.payload = false ∧
          isArguments (slice text payload.start payload.end') = false) ∨
      (accepted options.matcher text (scanPlainTextJsonToolCall options.lineBreakOffsets text start) &&
        (scanPlainTextJsonToolCall options.lineBreakOffsets text start).isIncomplete) = true ∨ ∃ stop value payload,
        scanPlainTextJsonToolCall options.lineBreakOffsets text start = .invalid stop (some value) ∧
          value.payload = some payload := by
  unfold scanPlainTextToolCall at h
  dsimp only at h
  generalize scanXmlishToolCall options.lineBreakOffsets text start = xmlish at h ⊢
  generalize scanPlainTextJsonToolCall options.lineBreakOffsets text start = json at h ⊢
  split at h
  · cases h
  · rename_i value payload end' _ haccepted
    split at h
    · cases h
    · rename_i hno
      right
      left
      rw [Bool.or_eq_true, not_or, Bool.not_eq_true, Bool.not_eq_true] at hno
      refine ⟨value, payload, end', rfl, haccepted, ?_, hno.2⟩
      rw [← hno.1, acceptedPayload, haccepted]
      rfl
  · rename_i xmlish json _ _ _ _ hxmlish hjson
    by_cases hwaits : (accepted options.matcher text json && json.isIncomplete) = true
    · exact .inr (.inr (.inl hwaits))
    have hjsonDead : Dead options.matcher text json :=
      dead_of_not_alive (fun value payload end' => hjson value payload end') (Bool.eq_false_of_not_eq_true hwaits)
    by_cases hwaits' : (accepted options.matcher text xmlish && xmlish.isIncomplete) = true
    · -- then it is the object of the JSON call that is too large
      right
      right
      right
      obtain ⟨candidate, completeEnd, rfl⟩ : ∃ candidate completeEnd, xmlish = .incomplete candidate completeEnd := by
        cases xmlish with
        | incomplete candidate completeEnd => exact ⟨candidate, completeEnd, rfl⟩
        | invalid at' candidate => simp [ToolCallScan.isIncomplete] at hwaits'
        | complete value payload end' => simp [ToolCallScan.isIncomplete] at hwaits'
      cases hover : json.overCapAt (payloadOverCap text options.maxPayloadBytes
          (acceptedPayload options.matcher text json)) with
      | none =>
        rw [hover, hwaits'] at h
        cases h
      | some stop =>
        obtain ⟨candidate', rfl, hlarge⟩ := overCapAt_eq_some hover
        obtain ⟨value, payload, hvalue, hpayload⟩ := overCap_candidate hlarge
        cases hvalue
        exact ⟨stop, value, payload, rfl, hpayload⟩
    · exact .inl ⟨dead_of_not_alive (fun value payload end' => hxmlish value payload end')
        (Bool.eq_false_of_not_eq_true hwaits'), hjsonDead⟩

theorem payloadOverCap_append (h : payload.end' ≤ text.length) (maxPayloadBytes : Nat) :
    payloadOverCap (text ++ more) maxPayloadBytes (some payload) =
      payloadOverCap text maxPayloadBytes (some payload) := by
  unfold payloadOverCap utf8ByteLengthWithinLimit
  rw [Option.any_some, Option.any_some, slice_append h]

/-- Without arguments a complete JSON call is no call, and no other branch is there. -/
theorem verdict_of_no_arguments {end' : Nat} (hstart : start < text.length)
    (hjson : scanPlainTextJsonToolCall options.lineBreakOffsets text start = .complete value payload end')
    (hcap : payloadOverCap text options.maxPayloadBytes value.payload = false)
    (hno : isArguments (slice text payload.start payload.end') = false) :
    ∃ at', (scanPlainTextToolCall isArguments options text start).verdict = .invalid at' := by
  have hpayload := scanJson_complete_payload hstart hjson
  obtain ⟨cursor, opened, hread, hbrace⟩ := scanJson_payload hstart (congrArg ToolCallScan.value hjson) hpayload
  obtain ⟨stop, candidate, hxmlish⟩ := scanXmlish_invalid_of_object hstart hread hbrace
  cases haccepted : accepted options.matcher text (.complete value payload end') with
  | false =>
    apply verdict_of_dead
    · exact .inr ⟨stop, candidate, hxmlish⟩
    · rw [hjson]
      exact .inl haccepted
  | true =>
    have hcap' : payloadOverCap text options.maxPayloadBytes
        (acceptedPayload options.matcher text (.complete value payload end')) = false := by
      rw [acceptedPayload, haccepted]
      exact hcap
    unfold scanPlainTextToolCall
    dsimp only
    split
    · rename_i hcomplete
      rw [hxmlish] at hcomplete
      cases hcomplete
    · rename_i hcomplete _
      rw [hjson] at hcomplete
      cases hcomplete
      rw [hjson, hcap', hno]
      exact ⟨end', rfl⟩
    · rename_i hnone
      rw [hjson] at hnone
      exact (hnone value payload end' haccepted rfl).elim

/-- Unless it waits for more text, the search goes on behind the place. -/
theorem start_lt_next
    (h : ∀ completeEnd, (scanPlainTextToolCall isArguments options text start).verdict ≠ .incomplete completeEnd) :
    start < (scanPlainTextToolCall isArguments options text start).next := by
  rcases Nat.lt_or_ge start text.length with hstart | hend
  · revert h
    unfold scanPlainTextToolCall
    dsimp only
    split
    · rename_i value payload end' _ hcomplete
      intro _
      have hprogress := scanXmlish_progress options.lineBreakOffsets value hstart
        (by rw [hcomplete]; rfl) (by rw [hcomplete]; rfl)
      rw [hcomplete] at hprogress
      exact hprogress
    · rename_i value payload end' _ hcomplete _
      intro _
      have hpayload := scanJson_complete_payload hstart hcomplete
      have hprogress := (scanJson_object value hstart (by rw [hcomplete]; rfl) hpayload
        (by rw [hcomplete]; rfl)).2
      rw [hcomplete] at hprogress
      split <;> exact hprogress
    · split
      · rename_i hover
        intro _
        obtain ⟨candidate, hinvalid, hlarge⟩ := overCapAt_eq_some hover
        obtain ⟨value, payload, hvalue, -⟩ := overCap_candidate hlarge
        have hprogress := scanXmlish_progress _ _ hstart hvalue (by rw [hinvalid]; rfl)
        rw [hinvalid] at hprogress
        exact hprogress
      · rename_i hover
        intro _
        obtain ⟨candidate, hinvalid, hlarge⟩ := overCapAt_eq_some hover
        obtain ⟨value, payload, hvalue, hpayload⟩ := overCap_candidate hlarge
        have hprogress := (scanJson_object _ hstart hvalue hpayload (by rw [hinvalid]; rfl)).2
        rw [hinvalid] at hprogress
        exact hprogress
      · split
        · intro h
          exact absurd rfl (h _)
        · intro _
          dsimp only
          omega
  · obtain ⟨hjson, hxmlish⟩ := scans_at_end options.lineBreakOffsets hend
    exfalso
    apply h none
    unfold scanPlainTextToolCall
    rw [hjson, hxmlish]
    rfl

theorem scan_json (isArguments : JsString → Bool) (options : ScanOptions) (text : JsString) (start : Nat) :
    (scanPlainTextToolCall isArguments options text start).json =
        scanPlainTextJsonToolCall options.lineBreakOffsets text start ∧
      (scanPlainTextToolCall isArguments options text start).matchesJson =
        accepted options.matcher text (scanPlainTextJsonToolCall options.lineBreakOffsets text start) := by
  unfold scanPlainTextToolCall
  dsimp only
  split
  · exact ⟨rfl, rfl⟩
  · split <;> exact ⟨rfl, rfl⟩
  · split
    · exact ⟨rfl, rfl⟩
    · exact ⟨rfl, rfl⟩
    · split <;> exact ⟨rfl, rfl⟩

/-- The JSON branch has a complete call, and nothing but white space follows its object. -/
def PlainTextToolCallScan.PayloadAtEnd (scan : PlainTextToolCallScan) (text : JsString) : Prop :=
  ∃ value payload end', scan.json = .complete value payload end' ∧ scan.matchesJson = true ∧
    skipWhitespace text payload.end' = text.length

/-- The JSON branch waits for more text. -/
def PlainTextToolCallScan.WaitsForJson (scan : PlainTextToolCallScan) : Prop :=
  scan.matchesJson = true ∧ scan.json.isIncomplete = true

/-- **An invalid verdict is final** unless the JSON branch may go on: its object stands at the end of the text, or
it waits for one while the XML-ish branch is too large.  Every other verdict than waiting moves the search on. -/
theorem invalid_verdict_final (isArguments : JsString → Bool) (options : ScanOptions) (text : JsString) (start : Nat) :
    ((∀ matcher ∈ options.matcher, matcher.PrefixTest) →
      (∃ at', (scanPlainTextToolCall isArguments options text start).verdict = .invalid at') →
      ¬(scanPlainTextToolCall isArguments options text start).PayloadAtEnd text →
      ¬(scanPlainTextToolCall isArguments options text start).WaitsForJson →
      ∀ more, ∃ at', (scanPlainTextToolCall isArguments options (text ++ more) start).verdict = .invalid at') ∧
    ((∀ completeEnd, (scanPlainTextToolCall isArguments options text start).verdict ≠ .incomplete completeEnd) →
      start < (scanPlainTextToolCall isArguments options text start).next) := by
  refine ⟨?_, start_lt_next⟩
  rintro hmatcher ⟨at', hinvalid⟩ hend hwaits more
  obtain ⟨hjson, haccepted⟩ := scan_json isArguments options text start
  have hstart : start < text.length := by
    by_contra hle
    obtain ⟨hjson', -⟩ := scans_at_end options.lineBreakOffsets (Nat.le_of_not_lt hle)
    refine hwaits ⟨?_, ?_⟩
    · rw [haccepted, hjson']
      rfl
    · rw [hjson, hjson']
      rfl
  rcases verdict_invalid_cases hinvalid with
    ⟨hxmlishDead, hjsonDead⟩ | ⟨value, payload, end', hcomplete, haccepts, hcap, hno⟩ | hwaits' |
      ⟨stop, value, payload, hstopped, hpayload⟩
  · obtain ⟨hxmlishDead', hjsonDead'⟩ := dead_append more hmatcher hstart hxmlishDead hjsonDead
    exact verdict_of_dead hxmlishDead' hjsonDead'
  · -- the call stays as it is, with the same payload
    have hpayload := scanJson_complete_payload hstart hcomplete
    obtain ⟨hlength, -⟩ := scanJson_object value hstart (by rw [hcomplete]; rfl) hpayload
      (by rw [hcomplete]; rfl)
    have hrest : skipWhitespace text payload.end' < text.length := by
      refine Nat.lt_of_le_of_ne (skipWhile_le hlength) fun hspace => hend ⟨value, payload, end', ?_, ?_, hspace⟩
      · rw [hjson, hcomplete]
      · rw [haccepted, hcomplete]
        exact haccepts
    apply verdict_of_no_arguments (length_lt_append hstart) (scanJson_complete_append hstart hcomplete hrest)
    · rw [hpayload] at hcap ⊢
      rw [payloadOverCap_append hlength]
      exact hcap
    · rw [slice_append hlength]
      exact hno
  · rw [Bool.and_eq_true] at hwaits'
    refine absurd ⟨?_, ?_⟩ hwaits
    · rw [haccepted]
      exact hwaits'.1
    · rw [hjson]
      exact hwaits'.2
  · -- an object that is too large, and no call for the other scanner
    obtain ⟨cursor, opened, hread, hbrace⟩ := scanJson_payload hstart (by rw [hstopped]; rfl) hpayload
    obtain ⟨at'', candidate, hxmlish⟩ := scanXmlish_invalid_of_object hstart hread hbrace
    obtain ⟨hxmlishDead', hjsonDead'⟩ := dead_append more hmatcher hstart (.inr ⟨at'', candidate, hxmlish⟩)
      (.inr ⟨stop, some value, hstopped⟩)
    exact verdict_of_dead hxmlishDead' hjsonDead'

/-- The names of a request with one tool, `f`. -/
def oneTool : PlainTextToolCallNameMatcher where
  hasExactName name := name = units "f"
  hasNamePrefix start := start.isPrefixOf (units "f")

theorem oneTool_prefixTest : oneTool.PrefixTest := by
  intro start
  simp [oneTool]

/-- `JSON.parse` on an object without members and on texts that are no JSON. -/
def emptyObject (payload : JsString) : Bool := payload = units "\x7b\x7d"

theorem invalid_verdict_final_no_line_break :
    ∃ at', (scanPlainTextToolCall emptyObject { matcher := some oneTool }
      (units "[f] x" ++ units "\n\x7b\x7d[/f]") 0).verdict = .invalid at' := by
  have hverdict : (scanPlainTextToolCall emptyObject { matcher := some oneTool } (units "[f] x") 0).verdict =
      .invalid 4 := by decide
  have hjson : (scanPlainTextToolCall emptyObject { matcher := some oneTool } (units "[f] x") 0).json =
      .invalid 4 (some { callSyntax := .namedBracket, name := ⟨1, 2⟩, nameComplete := true }) := by decide
  apply (invalid_verdict_final emptyObject { matcher := some oneTool } (units "[f] x") 0).1
  · intro matcher hmem
    cases hmem
    exact oneTool_prefixTest
  · exact ⟨4, hverdict⟩
  · rintro ⟨value, payload, end', hcomplete, -⟩
    rw [hjson] at hcomplete
    cases hcomplete
  · rintro ⟨-, hwaits⟩
    rw [hjson] at hwaits
    cases hwaits

/-- `[tool:f]` with an object of no arguments is no call, and may be one that waits when a bracket follows; an
opening with more white space than the cap is no call, and is one when its object follows. -/
theorem invalid_verdict_reopened :
    oneTool.PrefixTest ∧
    (scanPlainTextToolCall emptyObject { matcher := some oneTool } (units "[tool:f]\x7bbad\x7d") 0).verdict =
        .invalid 13 ∧
    (scanPlainTextToolCall emptyObject { matcher := some oneTool } (units "[tool:f]\x7bbad\x7d" ++ units "[") 0).verdict =
        .incomplete none ∧
    (scanPlainTextToolCall emptyObject { matcher := some oneTool, maxPayloadBytes := 2 } (units "[f]\n   \x7b") 0).verdict =
        .invalid 7 ∧
    (scanPlainTextToolCall emptyObject { matcher := some oneTool, maxPayloadBytes := 2 }
        (units "[f]\n   \x7b" ++ units "\x7d[/f]") 0).verdict = .complete 13 := by
  -- the XML-ish scanner stops at the object of each of the four texts
  have hbrace : ∀ (text : JsString) (callSyntax : CallSyntax) (cursor stop : Nat) (name : Span),
      scanXmlishOpening (fun _ => false) text 0 = .ok (cursor, callSyntax, name) →
      skipWhitespace text cursor = stop → text[stop]? = some (unit '\x7b') →
      scanXmlishToolCall (fun _ => false) text 0 =
        .invalid stop (some { callSyntax, name, nameComplete := true, payload := some ⟨cursor, stop⟩ }) := by
    intro text callSyntax cursor stop name hopening hstop hbrace
    rw [scanXmlish_ok hopening]
    subst hstop
    exact scanParameters_brace hbrace
  refine ⟨oneTool_prefixTest, ?_, ?_, ?_, ?_⟩
  · rw [scanPlainTextToolCall, hbrace _ .toolBracket 8 8 ⟨6, 7⟩ rfl (by decide) (by decide)]
    decide
  · rw [scanPlainTextToolCall, hbrace _ .toolBracket 8 8 ⟨6, 7⟩ rfl (by decide) (by decide)]
    decide
  · rw [scanPlainTextToolCall, hbrace _ .namedBracket 4 7 ⟨1, 2⟩ rfl (by decide) (by decide)]
    decide
  · rw [scanPlainTextToolCall, hbrace _ .namedBracket 4 7 ⟨1, 2⟩ rfl (by decide) (by decide)]
    decide

end OpenClaw.ToolCallRepair
