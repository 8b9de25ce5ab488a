/-
# OpenClaw.ToolCallRepair.XmlishScans -- what a longer text changes in the scan of an XML-ish call

An invalid scan is the scan of every longer text, with one exception: a named bracket with blanks after it up to the
end of the text, where a line break may follow.  There the scan of a JSON call waits with the same name.
-/
import OpenClaw.ToolCallRepair.JsonScans

namespace OpenClaw.ToolCallRepair

open OpenClaw.Data

variable {text more marker : JsString} {start cursor : Nat} {lineBreakOffsets : Nat → Bool}

/-! ## Markers -/

theorem startsWith_append (h : startsWithAsciiMarkerIgnoreCase text cursor marker = true) :
    startsWithAsciiMarkerIgnoreCase (text ++ more) cursor marker = true := by
  unfold startsWithAsciiMarkerIgnoreCase at h ⊢
  rw [List.map_append]
  exact startsAt_append h

theorem startsWith_append_of_not (more : JsString) (hcursor : cursor ≤ text.length)
    (hno : startsWithAsciiMarkerIgnoreCase text cursor marker = false)
    (hcut : isAsciiMarkerPrefixIgnoreCase text cursor marker = false) :
    startsWithAsciiMarkerIgnoreCase (text ++ more) cursor marker = false ∧
      isAsciiMarkerPrefixIgnoreCase (text ++ more) cursor marker = false := by
  unfold startsWithAsciiMarkerIgnoreCase isAsciiMarkerPrefixIgnoreCase at *
  rw [List.map_append]
  exact startsAt_append_of_not _ (by rwa [List.length_map]) hno hcut

/-- A marker for which there is room is not cut short. -/
theorem not_markerPrefix_of_room (h : cursor + marker.length ≤ text.length) :
    isAsciiMarkerPrefixIgnoreCase text cursor marker = false := by
  rw [isAsciiMarkerPrefixIgnoreCase, cutAt, Bool.and_eq_false_iff]
  left
  rw [decide_eq_false_iff_not, List.length_drop, List.length_map]
  omega

/-- The first place of a marker is the first one in a longer text: an earlier one would end before it. -/
theorem indexOf_append (more : JsString) {found : Nat} (hne : marker ≠ [])
    (h : indexOfAsciiMarkerIgnoreCase text marker start = some found) :
    indexOfAsciiMarkerIgnoreCase (text ++ more) marker start = some found := by
  obtain ⟨-, hstarts⟩ := indexOf_eq_some h
  have hroom := startsWith_length hne hstarts
  have hpos := List.length_pos_iff.mpr hne
  unfold indexOfAsciiMarkerIgnoreCase at h ⊢
  rw [List.find?_range'_eq_some] at h ⊢
  obtain ⟨hfound, hmem, hbefore⟩ := h
  rw [Bool.and_eq_true, decide_eq_true_eq] at hfound
  refine ⟨?_, ?_, fun index hindex hlt => ?_⟩
  · rw [Bool.and_eq_true, decide_eq_true_eq, getElem?_append (by omega)]
    exact ⟨hfound.1, startsWith_append hfound.2⟩
  · rw [List.mem_range'_1] at hmem ⊢
    rw [List.length_append]
    omega
  · have hno := hbefore index hindex hlt
    rw [Bool.not_eq_true', Bool.and_eq_false_iff] at hno ⊢
    rw [getElem?_append (by omega)]
    refine hno.imp_right fun hno => ?_
    exact (startsWith_append_of_not _ (by omega) hno (not_markerPrefix_of_room (by omega))).1

/-! ## Parameters -/

theorem functionClose_ne_nil : functionClose ≠ [] := by simp [functionClose]

theorem functionOpen_ne_nil : functionOpen ≠ [] := by simp [functionOpen]

theorem parameterOpen_ne_nil : parameterOpen ≠ [] := by simp [parameterOpen]

/-- What a scan says of a call whose body starts at a place. -/
def ReadsBody (text : JsString) (name : Span) (bodyStart : Nat) (scan : ToolCallScan) : Prop :=
  (∃ value payload, scan.value = some value ∧ value.name = name ∧ value.nameComplete = true ∧
    value.payload = some payload ∧ payload.start = bodyStart) ∧ bodyStart ≤ scan.progress text

theorem scanParameters_readsBody (text : JsString) (callSyntax : CallSyntax) (name : Span) (bodyStart cursor : Nat)
    (parameters : List ParameterSpan) (lastParameterEnd : Option Nat) (hbody : bodyStart ≤ cursor)
    (hlength : bodyStart ≤ text.length) (hlast : ∀ last ∈ lastParameterEnd, bodyStart ≤ last) :
    ReadsBody text name bodyStart
      (scanParameters text callSyntax name bodyStart cursor parameters lastParameterEnd) := by
  -- a body ends at its last parameter or at a marker, and neither stands before its start
  have hopen : ∀ {last : Nat} {lastParameterEnd : Option Nat},
      (if callSyntax = .toolBracket then lastParameterEnd else none) = some last → lastParameterEnd = some last := by
    intro last lastParameterEnd h
    split at h
    · exact h
    · cases h
  have hmarker : ∀ {cursor : Nat}, bodyStart ≤ cursor → bodyStart ≤ skipWhitespace text cursor :=
    fun h => h.trans (le_skipWhitespace text _)
  fun_induction scanParameters text callSyntax name bodyStart cursor parameters lastParameterEnd
  case case1 | case12 =>
    exact ⟨⟨_, _, rfl, rfl, rfl, rfl, rfl⟩, hlast _ (hopen ‹_ = some _›)⟩
  case case2 | case5 | case7 | case9 | case11 => exact ⟨⟨_, _, rfl, rfl, rfl, rfl, rfl⟩, hlength⟩
  case case3 | case6 | case8 | case13 => exact ⟨⟨_, _, rfl, rfl, rfl, rfl, rfl⟩, hmarker hbody⟩
  case case4 => exact ⟨⟨_, _, rfl, rfl, rfl, rfl, rfl⟩, (hmarker hbody).trans (Nat.le_add_right _ _)⟩
  case case10 cursor _ _ markerStart _ _ _ _ nameStart end' _ _ _ closeStart hclose ih =>
    have hstart : bodyStart ≤ markerStart := hmarker hbody
    have hname : markerStart + parameterOpen.length ≤ end' := le_nameEnd isXmlishNameChar text nameStart
    have hfound := (indexOf_eq_some hclose).1
    have hend : bodyStart ≤ closeStart + parameterClose.length := by omega
    apply ih hend
    intro last hlast
    cases hlast
    exact hend

/-- The loop of a longer text takes the same turns up to the place that is invalid. -/
theorem scanParameters_append {at' : Nat} {candidate' : Option Candidate} (callSyntax : CallSyntax) (name : Span)
    (bodyStart cursor : Nat) (parameters : List ParameterSpan) (lastParameterEnd : Option Nat)
    (hcursor : cursor ≤ text.length)
    (h : scanParameters text callSyntax name bodyStart cursor parameters lastParameterEnd = .invalid at' candidate') :
    scanParameters (text ++ more) callSyntax name bodyStart cursor parameters lastParameterEnd =
      .invalid at' candidate' := by
  -- at a marker that is neither there nor cut short both texts take the same branch
  have hlt : ∀ {cursor : Nat}, cursor ≤ text.length → ¬skipWhitespace text cursor = text.length →
      skipWhitespace text cursor < text.length := fun hle hne => Nat.lt_of_le_of_ne (skipWhile_le hle) hne
  have hspace : ∀ {cursor : Nat}, skipWhitespace text cursor < text.length →
      skipWhitespace (text ++ more) cursor = skipWhitespace text cursor := fun h => skipWhile_append h
  have hnot : ∀ {marker : JsString} {cursor : Nat}, cursor < text.length →
      ¬startsWithAsciiMarkerIgnoreCase text cursor marker = true →
      ¬isAsciiMarkerPrefixIgnoreCase text cursor marker = true →
      startsWithAsciiMarkerIgnoreCase (text ++ more) cursor marker = false ∧
        isAsciiMarkerPrefixIgnoreCase (text ++ more) cursor marker = false := fun hlt hno hcut =>
    startsWith_append_of_not _ hlt.le (Bool.eq_false_of_not_eq_true hno) (Bool.eq_false_of_not_eq_true hcut)
  fun_induction scanParameters text callSyntax name bodyStart cursor parameters lastParameterEnd
  case case1 | case2 | case4 | case5 | case7 | case9 | case11 | case12 => cases h
  case case3 cursor _ _ _ markerStart hend hclose hparameters =>
    have hmarker : markerStart < text.length := hlt hcursor hend
    rw [scanParameters]
    dsimp only
    rw [hspace hmarker, if_neg (ne_length_append hmarker), if_pos (startsWith_append hclose), if_pos hparameters]
    exact h
  case case6 cursor _ _ _ markerStart hend hno hnocut hopen nameStart end' hlong =>
    have hmarker : markerStart < text.length := hlt hcursor hend
    have hroom := startsWith_length parameterOpen_ne_nil hopen
    have hend' : nameEnd isXmlishNameChar (text ++ more) nameStart = end' := nameEnd_append _ hroom (.inr hlong)
    rw [scanParameters]
    dsimp only
    rw [hspace hmarker, if_neg (ne_length_append hmarker), (hnot hmarker hno hnocut).1, (hnot hmarker hno hnocut).2,
      startsWith_append hopen, hend', if_pos hlong]
    exact h
  case case8 cursor _ _ _ markerStart hend hno hnocut hopen nameStart end' hshort hname hbad =>
    have hmarker : markerStart < text.length := hlt hcursor hend
    have hroom := startsWith_length parameterOpen_ne_nil hopen
    have hname' : end' < text.length := Nat.lt_of_le_of_ne (nameEnd_le _ hroom) hname
    have hend' : nameEnd isXmlishNameChar (text ++ more) nameStart = end' := nameEnd_append _ hroom (.inl hname')
    rw [scanParameters]
    dsimp only
    rw [hspace hmarker, if_neg (ne_length_append hmarker), (hnot hmarker hno hnocut).1, (hnot hmarker hno hnocut).2,
      startsWith_append hopen, hend', if_neg hshort, if_neg (ne_length_append hname'), getElem?_append hname',
      if_pos hbad]
    exact h
  case case10 cursor _ _ markerStart hend hno hnocut hopen nameStart end' hshort hname hgood closeStart hclose ih =>
    have hmarker : markerStart < text.length := hlt hcursor hend
    have hroom := startsWith_length parameterOpen_ne_nil hopen
    have hname' : end' < text.length := Nat.lt_of_le_of_ne (nameEnd_le _ hroom) hname
    have hend' : nameEnd isXmlishNameChar (text ++ more) nameStart = end' := nameEnd_append _ hroom (.inl hname')
    have hclose' := indexOf_append more parameterClose_ne_nil hclose
    have hcloseEnd := startsWith_length parameterClose_ne_nil (indexOf_eq_some hclose).2
    rw [scanParameters]
    dsimp only
    rw [hspace hmarker, if_neg (ne_length_append hmarker), (hnot hmarker hno hnocut).1, (hnot hmarker hno hnocut).2,
      startsWith_append hopen, hend', if_neg hshort, if_neg (ne_length_append hname'), getElem?_append hname',
      if_neg hgood]
    simp only [Bool.false_eq_true, if_false, if_true]
    split
    · rename_i hnone
      rw [hclose'] at hnone
      cases hnone
    · rename_i found hsome
      rw [hclose', Option.some.injEq] at hsome
      rw [← hsome]
      exact ih hcloseEnd h
  case case13 cursor _ _ _ _ markerStart hend hno hnocut hno' hnocut' hopenEnd =>
    have hmarker : markerStart < text.length := hlt hcursor hend
    rw [scanParameters]
    dsimp only
    rw [hspace hmarker, if_neg (ne_length_append hmarker), (hnot hmarker hno hnocut).1, (hnot hmarker hno hnocut).2,
      (hnot hmarker hno' hnocut').1, (hnot hmarker hno' hnocut').2]
    simp only [Bool.false_eq_true, if_false]
    split
    · rename_i last hsome
      exact absurd (hsome.symm.trans hopenEnd) nofun
    · exact h

/-! ## Openings -/

/-- An opening with the candidate that it makes. -/
def namedOpening : Except ToolCallScan (Nat × CallSyntax × Span) → Except ToolCallScan (Nat × Candidate)
  | .error scan => .error scan
  | .ok (cursor, callSyntax, name) => .ok (cursor, { callSyntax, name, nameComplete := true })

variable {callSyntax : CallSyntax} {name : Span}

theorem namedOpening_ok {opening : Except ToolCallScan (Nat × CallSyntax × Span)}
    (h : namedOpening opening = .ok (cursor, { callSyntax, name, nameComplete := true })) :
    opening = .ok (cursor, callSyntax, name) := by
  cases opening with
  | error scan => cases h
  | ok read =>
    obtain ⟨cursor', callSyntax', name'⟩ := read
    simp only [namedOpening, Except.ok.injEq, Prod.mk.injEq, Candidate.mk.injEq] at h
    obtain ⟨rfl, rfl, rfl, -⟩ := h
    rfl

/-- What an opening says of the name that it has read. -/
def ReadsName (text : JsString) (name : Span) (opening : Except ToolCallScan (Nat × Candidate)) : Prop :=
  (∃ at', opening = .error (.invalid at' none)) ∨
    ∃ value, (openingScan opening).value = some value ∧ value.name = name ∧
      (name.end' ≠ text.length → value.nameComplete = true)

theorem scanBracketEnd_readsName (lineBreakOffsets : Nat → Bool) (text : JsString) (callSyntax : CallSyntax)
    (name : Span) : ReadsName text name (namedOpening (scanBracketEnd lineBreakOffsets text callSyntax name)) := by
  unfold scanBracketEnd
  dsimp only
  by_cases hend : name.end' = text.length
  · rw [if_pos hend]
    exact .inr ⟨_, rfl, rfl, fun h => absurd hend h⟩
  rw [if_neg hend]
  split
  · exact .inl ⟨_, rfl⟩
  · split
    · split
      · exact .inr ⟨_, rfl, rfl, fun _ => rfl⟩
      · split
        · exact .inl ⟨_, rfl⟩
        · exact .inr ⟨_, rfl, rfl, fun _ => rfl⟩
    · exact .inr ⟨_, rfl, rfl, fun _ => rfl⟩

/-- The name of a longer text carries on with the one of the text, complete or not. -/
theorem ReadsName.carriesOn (isNameChar : CodeUnit → Bool) {value : Candidate}
    {opening' : Except ToolCallScan (Nat × Candidate)} (hstart : start ≤ text.length)
    (hname : value.name = ⟨start, nameEnd isNameChar text start⟩)
    (hcomplete : value.nameComplete = true → nameEnd isNameChar text start < text.length)
    (h : ReadsName (text ++ more) ⟨start, nameEnd isNameChar (text ++ more) start⟩ opening') :
    CarriesOn text (text ++ more) value (openingScan opening') := by
  rcases h with ⟨at', hinvalid⟩ | ⟨value', hvalue, hname', hcomplete'⟩
  · exact .inl ⟨at', by rw [hinvalid]; rfl⟩
  · refine .inr ⟨value', hvalue, sameName hstart hname hname' fun hvalueComplete => ?_⟩
    have hlt := hcomplete hvalueComplete
    refine ⟨hlt, hcomplete' ?_⟩
    change nameEnd isNameChar (text ++ more) start ≠ (text ++ more).length
    rw [nameEnd_append _ hstart (.inl hlt)]
    exact ne_length_append hlt

/-- With nothing but blanks up to the end of the text only a boundary of its parts can be the line break, and the
longer text has one too. -/
theorem consumeStructuralLineBreak_end (more : JsString) {stop : Nat} (hstart : start ≤ text.length)
    (hend : skipHorizontalWhitespace text start = text.length)
    (h : consumeStructuralLineBreakAfterHorizontalWhitespace lineBreakOffsets text start = some stop) :
    (∃ stop', consumeStructuralLineBreakAfterHorizontalWhitespace lineBreakOffsets (text ++ more) start = some stop') ∧
      skipWhitespace text stop = text.length := by
  have hnone : consumeLineBreak text text.length = none := by simp [consumeLineBreak]
  obtain ⟨hlow, hhigh⟩ := consumeStructuralLineBreak_bounds hstart h
  have hall := (skipWhile_eq_length_iff (p := isBlank) hstart).mp hend
  unfold consumeStructuralLineBreakAfterHorizontalWhitespace at h
  dsimp only at h
  rw [hend, hnone, Option.none_or] at h
  refine ⟨?_, ?_⟩
  · have hgrows : text.length ≤ skipHorizontalWhitespace (text ++ more) start := by
      have hpre := (takeWhile_prefix_append isBlank more (text.drop start)).length_le
      rw [skipHorizontalWhitespace, skipWhile, drop_append hstart]
      rw [skipHorizontalWhitespace, skipWhile] at hend
      omega
    have hfound : (List.range' start (skipHorizontalWhitespace (text ++ more) start + 1 - start)).find? lineBreakOffsets ≠
        none := by
      rw [ne_eq, List.find?_eq_none]
      intro hno
      obtain ⟨hmemLow, hmemHigh⟩ := List.mem_range'_1.mp (List.mem_of_find?_eq_some h)
      apply hno stop _ (List.find?_some h)
      rw [List.mem_range'_1]
      omega
    unfold consumeStructuralLineBreakAfterHorizontalWhitespace
    dsimp only
    obtain ⟨found, hfound⟩ := Option.ne_none_iff_exists'.mp hfound
    rw [hfound]
    cases consumeLineBreak (text ++ more) (skipHorizontalWhitespace (text ++ more) start) with
    | none => exact ⟨found, rfl⟩
    | some stop' => exact ⟨stop', rfl⟩
  · apply (skipWhile_eq_length_iff hhigh).mpr
    intro u hu
    have hmem : u ∈ text.drop start := by
      rw [← Nat.add_sub_cancel' hlow, ← List.drop_drop] at hu
      exact List.mem_of_mem_drop hu
    have hblank := hall u hmem
    unfold isBlank at hblank
    rw [Bool.or_eq_true, decide_eq_true_eq, decide_eq_true_eq] at hblank
    rcases hblank with rfl | rfl <;> decide

theorem scanXmlishBracketName_readsName (lineBreakOffsets : Nat → Bool) (text : JsString) (callSyntax : CallSyntax)
    (nameStart : Nat) : ReadsName text ⟨nameStart, nameEnd isPlainTextToolNameChar text nameStart⟩
      (namedOpening (scanXmlishBracketName lineBreakOffsets text callSyntax nameStart)) := by
  unfold scanXmlishBracketName
  split
  · exact .inl ⟨_, rfl⟩
  · exact scanBracketEnd_readsName _ _ _ _

/-- The other scanner waits for the line break after a named bracket. -/
theorem scanBracketName_blank {callSyntax : CallSyntax} {nameStart : Nat}
    (hshort : ¬nameEnd isPlainTextToolNameChar text nameStart - nameStart > 120)
    (hlt : nameEnd isPlainTextToolNameChar text nameStart < text.length)
    (hname : ¬nameStart = nameEnd isPlainTextToolNameChar text nameStart ∧
      text[nameEnd isPlainTextToolNameChar text nameStart]? = some (unit ']'))
    (hnamed : callSyntax = .namedBracket)
    (hblank : skipHorizontalWhitespace text (nameEnd isPlainTextToolNameChar text nameStart + 1) = text.length) :
    scanBracketName lineBreakOffsets text callSyntax nameStart =
      .error (.incomplete (some { callSyntax, name := ⟨nameStart, nameEnd isPlainTextToolNameChar text nameStart⟩,
                                  nameComplete := true }) none) := by
  unfold scanBracketName scanName scanToolNameEnd
  dsimp only
  rw [if_neg hshort]
  dsimp only
  rw [if_neg (Nat.ne_of_lt hlt), hname.2]
  simp only [Option.any_some, decide_true, Bool.not_true, Bool.or_false, decide_eq_true_eq]
  rw [if_neg hname.1, scanAfterBracketName]
  dsimp only
  rw [if_pos hnamed, if_pos hblank]

theorem scanXmlishBracketName_goesOn {nameStart : Nat} (hstart : nameStart ≤ text.length) :
    OpeningGoesOn text (text ++ more)
      (namedOpening (scanXmlishBracketName lineBreakOffsets text callSyntax nameStart))
      (namedOpening (scanXmlishBracketName lineBreakOffsets (text ++ more) callSyntax nameStart)) ∨
      ∃ value, scanBracketName lineBreakOffsets text callSyntax nameStart = .error (.incomplete (some value) none) ∧
      CarriesOn text (text ++ more) value (openingScan (namedOpening (scanXmlishBracketName lineBreakOffsets (text ++
      more) callSyntax nameStart))) := by
  have hreads := scanXmlishBracketName_readsName lineBreakOffsets (text ++ more) callSyntax nameStart
  have hcarries : ∀ value : Candidate, value.name = ⟨nameStart, nameEnd isPlainTextToolNameChar text nameStart⟩ →
      (value.nameComplete = true → nameEnd isPlainTextToolNameChar text nameStart < text.length) →
      CarriesOn text (text ++ more) value
        (openingScan (namedOpening (scanXmlishBracketName lineBreakOffsets (text ++ more) callSyntax nameStart))) :=
    fun value hname hcomplete => hreads.carriesOn _ hstart hname hcomplete
  by_cases hlong : nameEnd isPlainTextToolNameChar text nameStart - nameStart > 120
  · left
    have hend := nameEnd_append more hstart (.inr hlong)
    rw [scanXmlishBracketName, scanXmlishBracketName, hend, if_pos hlong, if_pos hlong]
    exact rfl
  by_cases hend : nameEnd isPlainTextToolNameChar text nameStart = text.length
  · left
    have hopening : scanXmlishBracketName lineBreakOffsets text callSyntax nameStart =
        .error (.incomplete (some { callSyntax, name := ⟨nameStart, text.length⟩, nameComplete := false }) none) := by
      rw [scanXmlishBracketName, if_neg hlong, scanBracketEnd]
      dsimp only
      rw [if_pos hend, hend]
    rw [hopening]
    exact hcarries _ (by rw [hend]) nofun
  have hlt : nameEnd isPlainTextToolNameChar text nameStart < text.length := Nat.lt_of_le_of_ne (nameEnd_le _ hstart) hend
  have hend' := nameEnd_append more hstart (.inl hlt)
  revert hcarries
  rw [scanXmlishBracketName, scanXmlishBracketName, hend', if_neg hlong, if_neg hlong]
  unfold scanBracketEnd
  dsimp only
  rw [if_neg hend, if_neg (ne_length_append hlt), getElem?_append hlt]
  intro hcarries
  by_cases hbad : (decide (nameStart = nameEnd isPlainTextToolNameChar text nameStart) ||
      decide (text[nameEnd isPlainTextToolNameChar text nameStart]? ≠ some (unit ']'))) = true
  · left
    rw [if_pos hbad, if_pos hbad]
    exact rfl
  rw [if_neg hbad] at hcarries
  rw [if_neg hbad, if_neg hbad]
  by_cases hnamed : callSyntax = .namedBracket
  · rw [if_pos hnamed] at hcarries
    rw [if_pos hnamed, if_pos hnamed]
    by_cases hlast : nameEnd isPlainTextToolNameChar text nameStart + 1 = text.length
    · left
      rw [if_pos hlast]
      exact hcarries _ rfl fun _ => hlt
    rw [if_neg hlast]
    rcases Nat.lt_or_ge (skipHorizontalWhitespace text (nameEnd isPlainTextToolNameChar text nameStart + 1)) text.length
      with hblank | hblank
    · left
      have hnext : nameEnd isPlainTextToolNameChar text nameStart + 1 < text.length :=
        Nat.lt_of_le_of_lt (le_skipHorizontalWhitespace text _) hblank
      rw [if_neg (ne_length_append hnext)]
      rcases consumeStructuralLineBreak_append lineBreakOffsets more hblank with
        ⟨hnone, hnone'⟩ | ⟨stop, stop', hsome, hsome', hsame⟩
      · rw [hnone, hnone']
        exact rfl
      · rw [hsome, hsome']
        exact ⟨stop', rfl, fun hspace => hsame (Nat.lt_of_le_of_lt (le_skipWhitespace text stop) hspace)⟩
    · -- blanks up to the end of the text
      have hblank' : skipHorizontalWhitespace text (nameEnd isPlainTextToolNameChar text nameStart + 1) = text.length :=
        Nat.le_antisymm (skipWhile_le hlt) hblank
      have hnext : nameEnd isPlainTextToolNameChar text nameStart + 1 ≠ (text ++ more).length := by
        rw [List.length_append]
        omega
      rw [if_neg hnext] at hcarries ⊢
      cases hbreak : consumeStructuralLineBreakAfterHorizontalWhitespace lineBreakOffsets text
          (nameEnd isPlainTextToolNameChar text nameStart + 1) with
      | some stop =>
        left
        obtain ⟨⟨stop', hsome'⟩, hspace⟩ := consumeStructuralLineBreak_end more hlt hblank' hbreak
        rw [hsome']
        exact ⟨stop', rfl, fun h => absurd hspace (Nat.ne_of_lt h)⟩
      | none =>
        right
        refine ⟨{ callSyntax, name := ⟨nameStart, nameEnd isPlainTextToolNameChar text nameStart⟩, nameComplete := true },
          ?_, hcarries _ rfl fun _ => hlt⟩
        exact scanBracketName_blank hlong hlt (by simpa using hbad) hnamed hblank'
  · left
    rw [if_neg hnamed, if_neg hnamed]
    exact ⟨_, rfl, fun _ => rfl⟩

theorem scanFunctionOpening_goesOn (hstart : start < text.length) :
    OpeningGoesOn text (text ++ more) (namedOpening (scanFunctionOpening text start))
      (namedOpening (scanFunctionOpening (text ++ more) start)) := by
  unfold scanFunctionOpening
  by_cases hopen : startsWithAsciiMarkerIgnoreCase text start functionOpen = true
  · -- the marker is there, and the name follows
    have hroom := startsWith_length functionOpen_ne_nil hopen
    have hroom' : ¬text.length - start < functionOpen.length := by omega
    have hroom'' : ¬(text ++ more).length - start < functionOpen.length := by
      rw [List.length_append]
      omega
    rw [hopen, startsWith_append hopen]
    simp only [Bool.not_true, Bool.false_and, Bool.false_eq_true, if_false]
    rw [if_neg hroom', if_neg hroom'']
    generalize start + functionOpen.length = nameStart at hroom
    by_cases hlong : nameEnd isXmlishNameChar text nameStart - nameStart > 120
    · rw [nameEnd_append _ hroom (.inr hlong), if_pos hlong, if_pos hlong]
      exact rfl
    rw [if_neg hlong]
    by_cases hend : nameEnd isXmlishNameChar text nameStart = text.length
    · rw [if_pos hend]
      refine ReadsName.carriesOn isXmlishNameChar hroom rfl nofun ?_
      split
      · exact .inl ⟨_, rfl⟩
      · split
        · rename_i hend'
          exact .inr ⟨_, rfl, rfl, fun h => absurd hend' h⟩
        · split
          · exact .inl ⟨_, rfl⟩
          · exact .inr ⟨_, rfl, rfl, fun _ => rfl⟩
    · have hlt := Nat.lt_of_le_of_ne (nameEnd_le _ hroom) hend
      rw [nameEnd_append _ hroom (.inl hlt), if_neg hlong, if_neg hend, if_neg (ne_length_append hlt), getElem?_append hlt]
      split
      · exact rfl
      · exact ⟨_, rfl, fun _ => rfl⟩
  · have hopen' := Bool.eq_false_of_not_eq_true hopen
    by_cases hcut : isAsciiMarkerPrefixIgnoreCase text start functionOpen = true
    · have hshort : text.length - start < functionOpen.length := by
        have hlt := (Bool.and_eq_true_iff.mp hcut).1
        rw [decide_eq_true_eq, List.length_drop, List.length_map] at hlt
        exact hlt
      rw [hcut]
      simp only [Bool.not_true, Bool.and_false, Bool.false_eq_true, if_false]
      rw [if_pos hshort]
      trivial
    · have hcut' := Bool.eq_false_of_not_eq_true hcut
      obtain ⟨hno, hnocut⟩ := startsWith_append_of_not more hstart.le hopen' hcut'
      rw [hopen', hcut', hno, hnocut]
      exact rfl

theorem scanXmlishOpening_goesOn (lineBreakOffsets : Nat → Bool) (more : JsString) (hstart : start < text.length) :
    OpeningGoesOn text (text ++ more) (namedOpening (scanXmlishOpening lineBreakOffsets text start))
        (namedOpening (scanXmlishOpening lineBreakOffsets (text ++ more) start)) ∨
      ∃ value, scanJsonOpening lineBreakOffsets text start = .error (.incomplete (some value) none) ∧
        CarriesOn text (text ++ more) value
          (openingScan (namedOpening (scanXmlishOpening lineBreakOffsets (text ++ more) start))) := by
  unfold scanXmlishOpening scanJsonOpening
  rw [getElem?_append hstart]
  by_cases hangle : text[start]? = some (unit '<')
  · left
    rw [if_pos hangle, if_pos hangle]
    exact scanFunctionOpening_goesOn hstart
  rw [if_neg hangle, if_neg hangle]
  by_cases hbracket : text[start]? = some (unit '[')
  · rw [if_pos hbracket, if_pos hbracket, if_pos hbracket, scanXmlishBracketOpening_eq _ hstart,
      scanXmlishBracketOpening_eq _ (length_lt_append hstart), scanBracketOpening_eq]
    cases hfound : bracketName text start with
    | none => exact .inl trivial
    | some found =>
      obtain ⟨callSyntax, nameStart⟩ := found
      obtain ⟨hfound', hname⟩ := bracketName_append more hstart hfound
      rw [hfound']
      exact scanXmlishBracketName_goesOn hname
  · left
    rw [if_neg hbracket, if_neg hbracket]
    exact rfl

/-! ## The scan -/

theorem scanBracketEnd_bounds {read : Nat × CallSyntax × Span} (hname : name.end' ≤ text.length)
    (h : scanBracketEnd lineBreakOffsets text callSyntax name = .ok read) : name.end' < read.1 ∧
      read.1 ≤ text.length ∧ read.2.2 = name := by
  unfold scanBracketEnd at h
  dsimp only at h
  by_cases hend : name.end' = text.length
  · rw [if_pos hend] at h
    cases h
  have hlt : name.end' < text.length := Nat.lt_of_le_of_ne hname hend
  rw [if_neg hend] at h
  split at h
  · cases h
  · split at h
    · split at h
      · cases h
      · split at h
        · cases h
        · rename_i stop hstop
          cases h
          obtain ⟨hlow, hhigh⟩ := consumeStructuralLineBreak_bounds hlt hstop
          exact ⟨hlow, hhigh, rfl⟩
    · cases h
      exact ⟨Nat.lt_succ_self _, hlt, rfl⟩

theorem scanXmlishOpening_bounds (hstart : start < text.length) (h : scanXmlishOpening lineBreakOffsets text start =
    .ok (cursor, callSyntax, name)) : start < cursor ∧ cursor ≤ text.length ∧ name.end' ≤ text.length := by
  unfold scanXmlishOpening at h
  split at h
  · unfold scanFunctionOpening at h
    split at h
    · cases h
    · dsimp only at h
      split at h
      · cases h
      · rename_i hroom
        have hroom' : start + functionOpen.length ≤ text.length := by omega
        have hname := nameEnd_le isXmlishNameChar hroom'
        have hle := le_nameEnd isXmlishNameChar text (start + functionOpen.length)
        split at h
        · cases h
        · split at h
          · cases h
          · rename_i hend
            split at h
            · cases h
            · cases h
              exact ⟨by omega, by omega, hname⟩
  · split at h
    · rw [scanXmlishBracketOpening_eq _ hstart] at h
      cases hfound : bracketName text start with
      | none =>
        rw [hfound] at h
        cases h
      | some found =>
        obtain ⟨callSyntax', nameStart⟩ := found
        rw [hfound] at h
        obtain ⟨-, hle⟩ := bracketName_append [] hstart hfound
        have hlt := bracketName_lt hfound
        have hname := nameEnd_le isPlainTextToolNameChar hle
        have hgrows := le_nameEnd isPlainTextToolNameChar text nameStart
        dsimp only at h
        unfold scanXmlishBracketName at h
        split at h
        · cases h
        · obtain ⟨hcursor, hlength, rfl⟩ := scanBracketEnd_bounds hname h
          exact ⟨(Nat.lt_of_lt_of_le hlt hgrows).trans hcursor, hlength, hname⟩
    · cases h

/-- A rejected opening has no candidate, and one that waits has nothing to strip. -/
theorem scanXmlishOpening_error {scan : ToolCallScan} (h : scanXmlishOpening lineBreakOffsets text start = .error scan) :
    (∃ at', scan = .invalid at' none) ∨ ∃ candidate, scan = .incomplete candidate none := by
  have hend : ∀ {callSyntax : CallSyntax} {name : Span},
      scanBracketEnd lineBreakOffsets text callSyntax name = .error scan →
      (∃ at', scan = .invalid at' none) ∨ ∃ candidate, scan = .incomplete candidate none := by
    intro callSyntax name h
    unfold scanBracketEnd at h
    dsimp only at h
    split at h
    · cases h
      exact .inr ⟨_, rfl⟩
    · split at h
      · cases h
        exact .inl ⟨_, rfl⟩
      · split at h
        · split at h
          · cases h
            exact .inr ⟨_, rfl⟩
          · split at h
            · cases h
              exact .inl ⟨_, rfl⟩
            · cases h
        · cases h
  unfold scanXmlishOpening at h
  split at h
  · unfold scanFunctionOpening at h
    dsimp only at h
    split at h
    · cases h
      exact .inl ⟨_, rfl⟩
    · split at h
      · cases h
        exact .inr ⟨_, rfl⟩
      · split at h
        · cases h
          exact .inl ⟨_, rfl⟩
        · split at h
          · cases h
            exact .inr ⟨_, rfl⟩
          · split at h
            · cases h
              exact .inl ⟨_, rfl⟩
            · cases h
  · split at h
    · unfold scanXmlishBracketOpening at h
      dsimp only at h
      split at h
      · cases h
        exact .inl ⟨_, rfl⟩
      · split at h
        · cases h
          exact .inr ⟨_, rfl⟩
        · split at h
          · split at h
            · cases h
              exact .inl ⟨_, rfl⟩
            · exact hend h
          · exact hend h
    · cases h
      exact .inl ⟨_, rfl⟩

theorem scanXmlish_error {scan : ToolCallScan} (h : scanXmlishOpening lineBreakOffsets text start = .error scan) :
    scanXmlishToolCall lineBreakOffsets text start = scan := by
  rw [scanXmlishToolCall, h]

theorem scanXmlish_ok (h : scanXmlishOpening lineBreakOffsets text start = .ok (cursor, callSyntax, name)) :
    scanXmlishToolCall lineBreakOffsets text start = scanParameters text callSyntax name cursor cursor [] none := by
  rw [scanXmlishToolCall, h]

theorem scanXmlish_readsBody (hstart : start < text.length) (h : scanXmlishOpening lineBreakOffsets text start =
    .ok (cursor, callSyntax, name)) :
    ReadsBody text name cursor (scanXmlishToolCall lineBreakOffsets text start) := by
  rw [scanXmlish_ok h]
  exact scanParameters_readsBody text callSyntax name cursor cursor [] none (Nat.le_refl _)
    (scanXmlishOpening_bounds hstart h).2.1 nofun

/-- A scan that has come to a candidate without waiting for more text has got past the opening. -/
theorem scanXmlish_progress (lineBreakOffsets : Nat → Bool) (value : Candidate) (hstart : start < text.length)
    (hvalue : (scanXmlishToolCall lineBreakOffsets text start).value = some value)
    (hdone : (scanXmlishToolCall lineBreakOffsets text start).isIncomplete = false) :
    start < (scanXmlishToolCall lineBreakOffsets text start).progress text := by
  cases hread : scanXmlishOpening lineBreakOffsets text start with
  | error scan =>
    rw [scanXmlish_error hread] at hvalue hdone
    rcases scanXmlishOpening_error hread with ⟨at', rfl⟩ | ⟨candidate, rfl⟩
    · cases hvalue
    · cases hdone
  | ok read =>
    obtain ⟨cursor, callSyntax, name⟩ := read
    have hcursor := (scanXmlishOpening_bounds hstart hread).1
    exact Nat.lt_of_lt_of_le hcursor (scanXmlish_readsBody hstart hread).2

theorem ReadsBody.hasNameOf {bodyStart : Nat} {scan : ToolCallScan} {value : Candidate}
    (h : ReadsBody text name bodyStart scan) (hname : value.name = name) (hcomplete : value.nameComplete = true) :
    HasNameOf value scan := by
  obtain ⟨⟨value', payload, hvalue, hname', hcomplete', -⟩, -⟩ := h
  exact ⟨value', hvalue, hname'.trans hname.symm, hcomplete'.trans hcomplete.symm⟩

/-- With nothing but white space up to the end of the text the loop waits, or the call is complete. -/
theorem scanParameters_end {bodyStart at' : Nat} {parameters : List ParameterSpan} {lastParameterEnd : Option Nat}
    {candidate : Option Candidate} (hend : skipWhitespace text cursor = text.length) :
    scanParameters text callSyntax name bodyStart cursor parameters lastParameterEnd ≠ .invalid at' candidate := by
  rw [scanParameters]
  dsimp only
  rw [if_pos hend]
  split <;> simp

theorem scanXmlish_goesOn (lineBreakOffsets : Nat → Bool) (more : JsString) (hstart : start < text.length) :
    ScanGoesOn text (text ++ more) (scanXmlishToolCall lineBreakOffsets text start)
        (scanXmlishToolCall lineBreakOffsets (text ++ more) start) ∨
      ∃ value, scanPlainTextJsonToolCall lineBreakOffsets text start = .incomplete (some value) none ∧
        CarriesOn text (text ++ more) value (scanXmlishToolCall lineBreakOffsets (text ++ more) start) := by
  -- a name that the opening carries on with is the name of the whole scan
  have hcarries : ∀ value,
      CarriesOn text (text ++ more) value
        (openingScan (namedOpening (scanXmlishOpening lineBreakOffsets (text ++ more) start))) →
      CarriesOn text (text ++ more) value (scanXmlishToolCall lineBreakOffsets (text ++ more) start) := by
    intro value h
    cases hopening' : scanXmlishOpening lineBreakOffsets (text ++ more) start with
    | error scan =>
      rw [hopening'] at h
      rw [scanXmlish_error hopening']
      exact h
    | ok read =>
      obtain ⟨cursor, callSyntax, name⟩ := read
      rw [hopening'] at h
      rcases h with ⟨at', hinvalid⟩ | ⟨value', hvalue, hsame⟩
      · cases hinvalid
      · cases hvalue
        exact CarriesOn.of_hasNameOf hsame
          ((scanXmlish_readsBody (length_lt_append hstart) hopening').hasNameOf rfl rfl)
  rcases scanXmlishOpening_goesOn lineBreakOffsets more hstart with
    hopening | ⟨value, hjson, hcarry⟩
  · left
    cases hread : scanXmlishOpening lineBreakOffsets text start with
    | error scan =>
      rw [hread] at hopening
      rw [scanXmlish_error hread]
      cases scan with
      | invalid at' candidate =>
        change namedOpening _ = .error (.invalid at' candidate) at hopening
        cases hopening' : scanXmlishOpening lineBreakOffsets (text ++ more) start with
        | error scan' =>
          rw [hopening'] at hopening
          cases hopening
          exact scanXmlish_error hopening'
        | ok read =>
          rw [hopening'] at hopening
          cases hopening
      | incomplete candidate completeEnd =>
        cases candidate with
        | none => trivial
        | some value => exact hcarries value hopening
      | complete value payload end' => exact hopening.elim
    | ok read =>
      obtain ⟨cursor, callSyntax, name⟩ := read
      rw [hread] at hopening
      obtain ⟨cursor', hopening', hsame⟩ := hopening
      have hread' := namedOpening_ok hopening'
      obtain ⟨-, hcursor, hname⟩ := scanXmlishOpening_bounds hstart hread
      obtain ⟨⟨value, payload, hvalue, hvalueName, hvalueComplete, -⟩, -⟩ := scanXmlish_readsBody hstart hread
      have hon : CarriesOn text (text ++ more) value (scanXmlishToolCall lineBreakOffsets (text ++ more) start) := by
        refine CarriesOn.of_hasNameOf (?_ : SameName text (text ++ more) _ value)
          ((scanXmlish_readsBody (length_lt_append hstart) hread').hasNameOf hvalueName hvalueComplete)
        unfold SameName
        rw [if_pos hvalueComplete, hvalueName]
        exact ⟨hvalueComplete, slice_append hname⟩
      cases hscan : scanXmlishToolCall lineBreakOffsets text start with
      | complete value₁ payload₁ end' =>
        rw [hscan] at hvalue
        cases hvalue
        exact hon
      | incomplete candidate completeEnd =>
        rw [hscan] at hvalue
        cases hvalue
        exact hon
      | invalid at' candidate =>
        rw [scanXmlish_ok hread] at hscan
        have hspace : skipWhitespace text cursor < text.length :=
          Nat.lt_of_le_of_ne (skipWhile_le hcursor) fun hend => scanParameters_end hend hscan
        rw [hsame hspace] at hread'
        rw [scanXmlish_ok hread']
        exact scanParameters_append callSyntax name cursor cursor [] none hcursor hscan
  · exact .inr ⟨value, scanJson_error hjson, hcarries value hcarry⟩

end OpenClaw.ToolCallRepair
