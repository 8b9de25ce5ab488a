/-
# OpenClaw.ToolCallRepair.JsonOpenings -- what a longer text changes in the opening of a JSON call

A rejected opening stays rejected, one that was read is read again, and one that has a name goes on with it.
-/
import OpenClaw.ToolCallRepair.Openings

namespace OpenClaw.ToolCallRepair

open OpenClaw.Data

variable {text more : JsString} {start cursor : Nat} {lineBreakOffsets : Nat → Bool}

/-! ## Openings -/

/-- What an opening has read of a call. -/
def openingScan : Except ToolCallScan (Nat × Candidate) → ToolCallScan
  | .error scan => scan
  | .ok (_, value) => .incomplete (some value) none

def OpeningGoesOn (text text' : JsString) (opening opening' : Except ToolCallScan (Nat × Candidate)) : Prop :=
  match opening with
  | .error (.invalid _ _) => opening' = opening
  | .error (.incomplete (some value) _) => CarriesOn text text' value (openingScan opening')
  | .error (.incomplete none _) => True
  | .error (.complete _ _ _) => False
  | .ok (cursor, value) =>
    ∃ cursor', opening' = .ok (cursor', value) ∧ (skipWhitespace text cursor < text.length → cursor' = cursor)

theorem getElem?_append (h : cursor < text.length) : (text ++ more)[cursor]? = text[cursor]? :=
  List.getElem?_append_left h

theorem length_lt_append (h : cursor < text.length) : cursor < (text ++ more).length := by
  rw [List.length_append]
  omega

theorem ne_length_append (h : cursor < text.length) : cursor ≠ (text ++ more).length :=
  Nat.ne_of_lt (length_lt_append h)

/-- What `afterName` keeps of a name that has been read. -/
def KeepsName (afterName : Nat → Candidate → Except ToolCallScan (Nat × Candidate)) : Prop :=
  ∀ nameEnd value, (openingScan (afterName nameEnd value)).value = some value ∨
    ∃ at', afterName nameEnd value = .error (.invalid at' none)

theorem scanToolNameEnd_append (hstart : start ≤ text.length)
    (h : nameEnd isPlainTextToolNameChar text start < text.length ∨ nameEnd isPlainTextToolNameChar text start - start > 120) :
    scanToolNameEnd (text ++ more) start = scanToolNameEnd text start := by
  unfold scanToolNameEnd
  rw [nameEnd_append _ hstart h]

/-- The name that the scan of a longer text has found, if any. -/
theorem scanName_value (callSyntax : CallSyntax) (endsName : CodeUnit → Bool)
    {afterName : Nat → Candidate → Except ToolCallScan (Nat × Candidate)} (hkeeps : KeepsName afterName)
    (hshort : nameEnd isPlainTextToolNameChar text start - start ≤ 120)
    (hname : start < nameEnd isPlainTextToolNameChar text start) :
    (∃ at', scanName text callSyntax endsName afterName start = .error (.invalid at' none)) ∨
      ∃ value, (openingScan (scanName text callSyntax endsName afterName start)).value = some value ∧
        value.name = ⟨start, nameEnd isPlainTextToolNameChar text start⟩ ∧
        (nameEnd isPlainTextToolNameChar text start ≠ text.length → value.nameComplete = true) := by
  unfold scanName scanToolNameEnd
  dsimp only
  rw [if_neg (by omega)]
  dsimp only
  by_cases hend : nameEnd isPlainTextToolNameChar text start = text.length
  · right
    rw [if_pos hend, if_neg (by omega)]
    exact ⟨_, rfl, rfl, fun h => absurd hend h⟩
  · rw [if_neg hend]
    split
    · exact .inl ⟨_, rfl⟩
    · rcases hkeeps (nameEnd isPlainTextToolNameChar text start)
        { callSyntax, name := ⟨start, nameEnd isPlainTextToolNameChar text start⟩, nameComplete := true } with h | h
      · exact .inr ⟨_, h, rfl, fun _ => rfl⟩
      · exact .inl h

theorem scanName_goesOn {callSyntax : CallSyntax} {endsName : CodeUnit → Bool}
    {afterName afterName' : Nat → Candidate → Except ToolCallScan (Nat × Candidate)} (hkeeps : KeepsName afterName')
    (hstart : start ≤ text.length) (hafter : ∀ value, nameEnd isPlainTextToolNameChar text start < text.length →
      value.nameComplete = true → value.name = ⟨start, nameEnd isPlainTextToolNameChar text start⟩ →
      OpeningGoesOn text (text ++ more) (afterName (nameEnd isPlainTextToolNameChar text start) value)
        (afterName' (nameEnd isPlainTextToolNameChar text start) value)) :
    OpeningGoesOn text (text ++ more) (scanName text callSyntax endsName afterName start)
      (scanName (text ++ more) callSyntax endsName afterName' start) := by
  by_cases hlong : nameEnd isPlainTextToolNameChar text start - start > 120
  · -- too long already
    have hnone : scanToolNameEnd text start = none := if_pos hlong
    have hnone' : scanToolNameEnd (text ++ more) start = none := (scanToolNameEnd_append hstart (.inr hlong)).trans hnone
    simp only [scanName, hnone, hnone', OpeningGoesOn]
  have hsome : scanToolNameEnd text start = some (nameEnd isPlainTextToolNameChar text start) := if_neg hlong
  by_cases hend : nameEnd isPlainTextToolNameChar text start = text.length
  · by_cases hempty : start = nameEnd isPlainTextToolNameChar text start
    · have hopening : scanName text callSyntax endsName afterName start = .error (.incomplete none none) := by
        simp only [scanName, hsome]
        rw [if_pos hend, if_pos hempty]
      rw [hopening]
      trivial
    · obtain ⟨value, hopening, hname, hcomplete⟩ : ∃ value,
          scanName text callSyntax endsName afterName start = .error (.incomplete (some value) none) ∧
            value.name = ⟨start, nameEnd isPlainTextToolNameChar text start⟩ ∧ value.nameComplete = false := by
        simp only [scanName, hsome]
        rw [if_pos hend, if_neg hempty]
        exact ⟨_, rfl, rfl, rfl⟩
      rw [hopening]
      -- the longer text has at least this much of a name
      have hgrows : nameEnd isPlainTextToolNameChar text start ≤ nameEnd isPlainTextToolNameChar (text ++ more) start := by
        have hpre := (slice_runEnd_append isPlainTextToolNameChar 121 more hstart).length_le
        rw [slice_length _ (runEnd_le hstart), slice_length _ (runEnd_le (hstart.trans (by simp)))] at hpre
        have hle : start ≤ nameEnd isPlainTextToolNameChar text start := le_runEnd _ _ _ _
        unfold nameEnd at hle hempty ⊢
        omega
      have hle : start ≤ nameEnd isPlainTextToolNameChar text start := le_runEnd _ _ _ _
      by_cases hlong' : nameEnd isPlainTextToolNameChar (text ++ more) start - start > 120
      · left
        have hnone' : scanToolNameEnd (text ++ more) start = none := if_pos hlong'
        exact ⟨start + 120, by simp only [scanName, hnone', openingScan]⟩
      · rcases scanName_value callSyntax endsName hkeeps
          (Nat.le_of_not_lt hlong') (by omega) with ⟨at', hinvalid⟩ | ⟨value', hvalue, hname', -⟩
        · exact .inl ⟨at', by rw [hinvalid]; rfl⟩
        · exact .inr ⟨value', hvalue, sameName hstart hname hname' fun h => absurd h (by rw [hcomplete]; nofun)⟩
  · have hlt : nameEnd isPlainTextToolNameChar text start < text.length :=
      Nat.lt_of_le_of_ne (nameEnd_le _ hstart) hend
    have hsome' : scanToolNameEnd (text ++ more) start = some (nameEnd isPlainTextToolNameChar text start) :=
      (scanToolNameEnd_append hstart (.inl hlt)).trans hsome
    simp only [scanName, hsome, hsome']
    rw [if_neg hend, if_neg (ne_length_append hlt), getElem?_append hlt]
    split
    · exact rfl
    · exact hafter _ hlt rfl rfl

/-! ## Brackets -/

/-- A line break at the end of the text may be half of one. -/
theorem consumeLineBreak_append (more : JsString) (h : start < text.length) :
    (consumeLineBreak text start = none ∧ consumeLineBreak (text ++ more) start = none) ∨
      ∃ stop stop', consumeLineBreak text start = some stop ∧ consumeLineBreak (text ++ more) start = some stop' ∧
        (stop < text.length → stop' = stop) := by
  unfold consumeLineBreak
  rw [getElem?_append h]
  by_cases hcr : text[start]? = some (unit '\r')
  · right
    rw [if_pos hcr, if_pos hcr]
    refine ⟨_, _, rfl, rfl, fun hlt => ?_⟩
    have hnext : start + 1 < text.length := by
      revert hlt
      split <;> omega
    rw [getElem?_append hnext]
  · rw [if_neg hcr, if_neg hcr]
    by_cases hlf : text[start]? = some (unit '\n')
    · right
      rw [if_pos hlf]
      exact ⟨_, _, rfl, rfl, fun _ => rfl⟩
    · left
      rw [if_neg hlf]
      exact ⟨rfl, rfl⟩

theorem consumeStructuralLineBreak_append (lineBreakOffsets : Nat → Bool) (more : JsString) (h : skipHorizontalWhitespace text start < text.length) :
    (consumeStructuralLineBreakAfterHorizontalWhitespace lineBreakOffsets text start = none ∧
        consumeStructuralLineBreakAfterHorizontalWhitespace lineBreakOffsets (text ++ more) start = none) ∨
      ∃ stop stop', consumeStructuralLineBreakAfterHorizontalWhitespace lineBreakOffsets text start = some stop ∧
        consumeStructuralLineBreakAfterHorizontalWhitespace lineBreakOffsets (text ++ more) start = some stop' ∧
        (stop < text.length → stop' = stop) := by
  have hright : skipHorizontalWhitespace (text ++ more) start = skipHorizontalWhitespace text start :=
    skipWhile_append h
  unfold consumeStructuralLineBreakAfterHorizontalWhitespace
  dsimp only
  rw [hright]
  rcases consumeLineBreak_append more h with ⟨hnone, hnone'⟩ | ⟨stop, stop', hsome, hsome', hsame⟩
  · -- then the boundaries of the text parts decide, and they are the same
    rw [hnone, hnone', Option.none_or]
    cases hfound : (List.range' start (skipHorizontalWhitespace text start + 1 - start)).find? lineBreakOffsets with
    | none => exact .inl ⟨rfl, rfl⟩
    | some stop => exact .inr ⟨stop, stop, rfl, rfl, fun _ => rfl⟩
  · rw [hsome, hsome']
    exact .inr ⟨stop, stop', rfl, rfl, hsame⟩

theorem scanAfterBracketName_keeps (lineBreakOffsets : Nat → Bool) (text : JsString) :
    KeepsName (scanAfterBracketName lineBreakOffsets text) := by
  intro nameEnd value
  left
  unfold scanAfterBracketName
  dsimp only
  split
  · split
    · rfl
    · split <;> rfl
  · rfl

theorem scanAfterBracketName_goesOn {nameEnd : Nat} {value : Candidate} (hend : nameEnd < text.length)
    (hcarries : ∀ scan, scan.value = some value → CarriesOn text (text ++ more) value scan) :
    OpeningGoesOn text (text ++ more) (scanAfterBracketName lineBreakOffsets text nameEnd value)
      (scanAfterBracketName lineBreakOffsets (text ++ more) nameEnd value) := by
  have hkeeps := scanAfterBracketName_keeps lineBreakOffsets (text ++ more) nameEnd value
  have hstart : nameEnd + 1 ≤ text.length := hend
  unfold scanAfterBracketName at hkeeps ⊢
  dsimp only at hkeeps ⊢
  by_cases hnamed : value.callSyntax = .namedBracket
  · rw [if_pos hnamed] at hkeeps
    rw [if_pos hnamed, if_pos hnamed]
    by_cases hhorizontal : skipHorizontalWhitespace text (nameEnd + 1) = text.length
    · rw [if_pos hhorizontal]
      rcases hkeeps with hvalue | ⟨at', hinvalid⟩
      · exact hcarries _ hvalue
      · exact .inl ⟨at', by rw [hinvalid]; rfl⟩
    · have hlt : skipHorizontalWhitespace text (nameEnd + 1) < text.length :=
        Nat.lt_of_le_of_ne (skipWhile_le hstart) hhorizontal
      have hright : skipHorizontalWhitespace (text ++ more) (nameEnd + 1) = skipHorizontalWhitespace text (nameEnd + 1) :=
        skipWhile_append hlt
      rw [if_neg hhorizontal, hright, if_neg (ne_length_append hlt)]
      rcases consumeStructuralLineBreak_append lineBreakOffsets more hlt with
        ⟨hnone, hnone'⟩ | ⟨stop, stop', hsome, hsome', hsame⟩
      · rw [hnone, hnone']
        exact rfl
      · rw [hsome, hsome']
        refine ⟨stop', rfl, fun hspace => hsame ?_⟩
        exact Nat.lt_of_le_of_lt (le_skipWhile isSpace text stop) hspace
  · rw [if_neg hnamed, if_neg hnamed]
    exact ⟨nameEnd + 1, rfl, fun _ => rfl⟩

theorem bracketName_append (more : JsString) (hstart : start < text.length) {found : CallSyntax × Nat}
    (h : bracketName text start = some found) :
    bracketName (text ++ more) start = some found ∧ found.2 ≤ text.length := by
  unfold bracketName at h ⊢
  by_cases htool : startsAt (units "tool:") text (start + 1) = true
  · rw [if_pos htool, Option.some.injEq] at h
    rw [if_pos (startsAt_append htool), ← h]
    exact ⟨rfl, startsAt_length htool (by simp [toolColon_units])⟩
  · rw [if_neg htool] at h
    by_cases hcut : cutAt (units "tool:") text (start + 1) = true
    · rw [if_pos hcut] at h
      cases h
    · rw [if_neg hcut, Option.some.injEq] at h
      obtain ⟨hno, hnocut⟩ := startsAt_append_of_not more hstart (Bool.eq_false_of_not_eq_true htool)
        (Bool.eq_false_of_not_eq_true hcut)
      rw [hno, hnocut, ← h]
      exact ⟨rfl, hstart⟩

theorem bracketName_lt {found : CallSyntax × Nat} (h : bracketName text start = some found) : start < found.2 := by
  unfold bracketName at h
  split at h
  · cases h
    exact Nat.lt_of_lt_of_le (Nat.lt_succ_self start) (Nat.le_add_right _ _)
  · split at h
    · cases h
    · cases h
      exact Nat.lt_succ_self start

theorem carriesOn_self {isNameChar : CodeUnit → Bool} {value : Candidate} (hstart : start ≤ text.length)
    (hcomplete : value.nameComplete = true) (hname : value.name = ⟨start, nameEnd isNameChar text start⟩) (scan : ToolCallScan) (hvalue : scan.value = some value) :
    CarriesOn text (text ++ more) value scan := by
  refine .inr ⟨value, hvalue, ?_⟩
  unfold SameName
  rw [if_pos hcomplete, hname]
  exact ⟨hcomplete, slice_append (nameEnd_le _ hstart)⟩

theorem scanBracketOpening_goesOn (hstart : start < text.length) :
    OpeningGoesOn text (text ++ more) (scanBracketOpening lineBreakOffsets text start)
      (scanBracketOpening lineBreakOffsets (text ++ more) start) := by
  rw [scanBracketOpening_eq, scanBracketOpening_eq]
  cases hfound : bracketName text start with
  | none => trivial
  | some found =>
    obtain ⟨callSyntax, nameStart⟩ := found
    obtain ⟨hfound', hname⟩ := bracketName_append more hstart hfound
    rw [hfound']
    apply scanName_goesOn (scanAfterBracketName_keeps _ _) hname
    intro value hlt hcomplete hvalue
    exact scanAfterBracketName_goesOn hlt (carriesOn_self hname hcomplete hvalue)

/-! ## Harmony headers -/

theorem scanAfterHarmonyName_keeps (text : JsString) : KeepsName (scanAfterHarmonyName text) := by
  intro nameEnd value
  left
  unfold scanAfterHarmonyName
  dsimp only
  split
  · split <;> rfl
  · split
    · rfl
    · split
      · rfl
      · split <;> rfl

theorem code_ne_nil : units "code" ≠ [] := by decide

theorem harmonyMessageMarker_ne_nil : harmonyMessageMarker ≠ [] := by decide

/-- A literal that neither is at a place nor may come there stands before the end of the text. -/
theorem lt_length_of_not_cutAt {literal : JsString} (hne : literal ≠ []) (h : cutAt literal text start = false) :
    start < text.length := by
  by_contra hle
  rw [cutAt_end hne (Nat.le_of_not_lt hle)] at h
  cases h

theorem scanAfterHarmonyName_goesOn {nameEnd : Nat} {value : Candidate} (hend : nameEnd < text.length)
    (hcarries : ∀ scan, scan.value = some value → CarriesOn text (text ++ more) value scan) :
    OpeningGoesOn text (text ++ more) (scanAfterHarmonyName text nameEnd value)
      (scanAfterHarmonyName (text ++ more) nameEnd value) := by
  have hcarries' : CarriesOn text (text ++ more) value (openingScan (scanAfterHarmonyName (text ++ more) nameEnd value)) := by
    rcases scanAfterHarmonyName_keeps (text ++ more) nameEnd value with hvalue | ⟨at', hinvalid⟩
    · exact hcarries _ hvalue
    · exact .inl ⟨at', by rw [hinvalid]; rfl⟩
  have hblank : skipHorizontalWhitespace text nameEnd ≤ text.length := skipWhile_le hend.le
  revert hcarries'
  unfold scanAfterHarmonyName
  dsimp only
  intro hcarries'
  by_cases hcode : startsAt (units "code") text (skipHorizontalWhitespace text nameEnd) = true
  · have hcodeEnd := startsAt_length hcode code_ne_nil
    have hcodePos : 0 < (units "code").length := List.length_pos_iff.mpr code_ne_nil
    have hright : skipHorizontalWhitespace (text ++ more) nameEnd = skipHorizontalWhitespace text nameEnd :=
      skipWhile_append (by unfold skipHorizontalWhitespace at hcodeEnd; omega)
    rw [hright] at hcarries' ⊢
    rw [startsAt_append hcode] at hcarries' ⊢
    rw [hcode]
    simp only [Bool.not_true, Bool.false_eq_true, if_false] at hcarries' ⊢
    generalize skipHorizontalWhitespace text nameEnd + (units "code").length = afterCode at hcodeEnd hcarries' ⊢
    have hspace : skipWhitespace text afterCode ≤ text.length := skipWhile_le hcodeEnd
    by_cases hmessage : startsAt harmonyMessageMarker text (skipWhitespace text afterCode) = true
    · have hmessageEnd := startsAt_length hmessage harmonyMessageMarker_ne_nil
      have hmessagePos : 0 < harmonyMessageMarker.length := List.length_pos_iff.mpr harmonyMessageMarker_ne_nil
      have hspace' : skipWhitespace (text ++ more) afterCode = skipWhitespace text afterCode :=
        skipWhile_append (by unfold skipWhitespace at hmessageEnd; omega)
      rw [hspace', if_pos hmessage, if_pos (startsAt_append hmessage)]
      refine ⟨_, rfl, fun hlt => ?_⟩
      exact skipWhile_append (Nat.lt_of_le_of_lt (le_skipWhile isSpace text _) hlt)
    · rw [if_neg hmessage]
      by_cases hcut : cutAt harmonyMessageMarker text (skipWhitespace text afterCode) = true
      · rw [if_pos hcut]
        exact hcarries'
      · have hcut' := Bool.eq_false_of_not_eq_true hcut
        have hlt := lt_length_of_not_cutAt harmonyMessageMarker_ne_nil hcut'
        have hspace' : skipWhitespace (text ++ more) afterCode = skipWhitespace text afterCode := skipWhile_append hlt
        obtain ⟨hno, hnocut⟩ := startsAt_append_of_not more hspace (Bool.eq_false_of_not_eq_true hmessage) hcut'
        rw [hspace', if_neg hcut, hno, hnocut, getElem?_append hlt]
        simp only [Bool.false_eq_true, if_false]
        split
        · exact rfl
        · exact ⟨_, rfl, fun _ => rfl⟩
  · have hcode' := Bool.eq_false_of_not_eq_true hcode
    rw [hcode']
    simp only [Bool.not_false, if_true]
    by_cases hcut : cutAt (units "code") text (skipHorizontalWhitespace text nameEnd) = true
    · rw [if_pos hcut]
      exact hcarries'
    · have hcut' := Bool.eq_false_of_not_eq_true hcut
      have hlt := lt_length_of_not_cutAt code_ne_nil hcut'
      have hright : skipHorizontalWhitespace (text ++ more) nameEnd = skipHorizontalWhitespace text nameEnd :=
        skipWhile_append hlt
      obtain ⟨hno, hnocut⟩ := startsAt_append_of_not more hblank hcode' hcut'
      rw [if_neg hcut, hright, hno, hnocut]
      exact rfl

theorem harmonyChannels_ne_nil : ∀ channel ∈ harmonyChannels, channel ≠ [] := by
  have hall : harmonyChannels.all (· ≠ []) = true := by decide
  exact fun channel hmem => of_decide_eq_true (List.all_eq_true.mp hall channel hmem)

/-- No channel is a prefix of another. -/
theorem harmonyChannels_apart : ∀ a ∈ harmonyChannels, ∀ b ∈ harmonyChannels, a <+: b → a = b := by
  have hall : harmonyChannels.all (fun a => harmonyChannels.all fun b => !a.isPrefixOf b || decide (a = b)) = true := by
    decide
  intro a ha b hb hpre
  have hor := List.all_eq_true.mp (List.all_eq_true.mp hall a ha) b hb
  rw [List.isPrefixOf_iff_prefix.mpr hpre] at hor
  simpa using hor

theorem find_channel_append {channel : JsString}
    (h : harmonyChannels.find? (fun channel => startsAt channel text cursor) = some channel) :
    harmonyChannels.find? (fun channel => startsAt channel (text ++ more) cursor) = some channel := by
  have hmem := List.mem_of_find?_eq_some h
  have hfirst : startsAt channel text cursor = true := by simpa using List.find?_some h
  have hstarts : startsAt channel (text ++ more) cursor = true := startsAt_append hfirst
  cases hfound : harmonyChannels.find? (fun channel => startsAt channel (text ++ more) cursor) with
  | none => exact absurd hstarts (List.find?_eq_none.mp hfound channel hmem)
  | some other =>
    have hmem' := List.mem_of_find?_eq_some hfound
    have hstarts' : startsAt other (text ++ more) cursor = true := by simpa using List.find?_some hfound
    rcases List.prefix_or_prefix_of_prefix (startsAt_iff.mp hstarts) (startsAt_iff.mp hstarts') with hpre | hpre
    · rw [harmonyChannels_apart channel hmem other hmem' hpre]
    · rw [harmonyChannels_apart other hmem' channel hmem hpre]

theorem scanHarmonyName_goesOn (hstart : start ≤ text.length) :
    OpeningGoesOn text (text ++ more) (scanHarmonyName text start) (scanHarmonyName (text ++ more) start) := by
  apply scanName_goesOn (scanAfterHarmonyName_keeps _) hstart
  intro value hlt hcomplete hvalue
  exact scanAfterHarmonyName_goesOn hlt (carriesOn_self hstart hcomplete hvalue)

theorem to_ne_nil : units "to=" ≠ [] := by decide

theorem scanHarmonyChannel_goesOn (hstart : cursor ≤ text.length) :
    OpeningGoesOn text (text ++ more) (scanHarmonyChannel text cursor) (scanHarmonyChannel (text ++ more) cursor) := by
  unfold scanHarmonyChannel
  cases hfound : harmonyChannels.find? (fun channel => startsAt channel text cursor) with
  | none =>
    dsimp only
    by_cases hcut : (harmonyChannels.any fun channel => cutAt channel text cursor) = true
    · rw [if_pos hcut]
      trivial
    · rw [if_neg hcut]
      have hno : ∀ channel ∈ harmonyChannels, startsAt channel (text ++ more) cursor = false ∧
          cutAt channel (text ++ more) cursor = false := by
        intro channel hmem
        apply startsAt_append_of_not _ hstart
        · exact Bool.eq_false_of_not_eq_true (List.find?_eq_none.mp hfound channel hmem)
        · exact Bool.eq_false_of_not_eq_true fun h => hcut (List.any_eq_true.mpr ⟨channel, hmem, h⟩)
      have hfound' : harmonyChannels.find? (fun channel => startsAt channel (text ++ more) cursor) = none := by
        rw [List.find?_eq_none]
        intro channel hmem
        rw [(hno channel hmem).1]
        nofun
      have hcut' : (harmonyChannels.any fun channel => cutAt channel (text ++ more) cursor) = false := by
        rw [List.any_eq_false]
        intro channel hmem
        rw [(hno channel hmem).2]
        nofun
      rw [hfound', hcut']
      exact rfl
  | some channel =>
    rw [find_channel_append hfound]
    dsimp only
    have hchannel : startsAt channel text cursor = true := by simpa using List.find?_some hfound
    have hchannelEnd := startsAt_length hchannel
      (harmonyChannels_ne_nil channel (List.mem_of_find?_eq_some hfound))
    generalize cursor + channel.length = afterChannel at hchannelEnd
    by_cases hend : afterChannel = text.length
    · rw [if_pos hend]
      trivial
    have hlt := Nat.lt_of_le_of_ne hchannelEnd hend
    rw [if_neg hend, if_neg (ne_length_append hlt), getElem?_append hlt]
    split
    · exact rfl
    have hblank : skipHorizontalWhitespace text afterChannel ≤ text.length := skipWhile_le hchannelEnd
    by_cases hto : startsAt (units "to=") text (skipHorizontalWhitespace text afterChannel) = true
    · have htoEnd := startsAt_length hto to_ne_nil
      have htoPos : 0 < (units "to=").length := List.length_pos_iff.mpr to_ne_nil
      have hright : skipHorizontalWhitespace (text ++ more) afterChannel = skipHorizontalWhitespace text afterChannel :=
        skipWhile_append (by unfold skipHorizontalWhitespace at htoEnd; omega)
      rw [hright, hto, startsAt_append hto]
      simp only [Bool.not_true, Bool.false_eq_true, if_false]
      exact scanHarmonyName_goesOn htoEnd
    · have hto' := Bool.eq_false_of_not_eq_true hto
      rw [hto']
      simp only [Bool.not_false, if_true]
      by_cases hcut : cutAt (units "to=") text (skipHorizontalWhitespace text afterChannel) = true
      · rw [if_pos hcut]
        trivial
      · have hcut' := Bool.eq_false_of_not_eq_true hcut
        have hright : skipHorizontalWhitespace (text ++ more) afterChannel = skipHorizontalWhitespace text afterChannel :=
          skipWhile_append (lt_length_of_not_cutAt to_ne_nil hcut')
        obtain ⟨hno, hnocut⟩ := startsAt_append_of_not more hblank hto' hcut'
        rw [if_neg hcut, hright, hno, hnocut]
        exact rfl

theorem harmonyChannelMarker_ne_nil : harmonyChannelMarker ≠ [] := by decide

theorem scanHarmonyOpening_goesOn (hstart : start < text.length) :
    OpeningGoesOn text (text ++ more) (scanHarmonyOpening text start) (scanHarmonyOpening (text ++ more) start) := by
  unfold scanHarmonyOpening
  by_cases hmarker : startsAt harmonyChannelMarker text start = true
  · rw [if_pos hmarker, if_pos (startsAt_append hmarker)]
    exact scanHarmonyChannel_goesOn (startsAt_length hmarker harmonyChannelMarker_ne_nil)
  · rw [if_neg hmarker]
    by_cases hcut : cutAt harmonyChannelMarker text start = true
    · rw [if_pos hcut]
      trivial
    · obtain ⟨hno, hnocut⟩ := startsAt_append_of_not more hstart.le (Bool.eq_false_of_not_eq_true hmarker)
        (Bool.eq_false_of_not_eq_true hcut)
      rw [if_neg hcut, hno, hnocut, getElem?_append hstart]
      simp only [Bool.false_eq_true, if_false]
      split
      · exact rfl
      · exact scanHarmonyChannel_goesOn hstart.le

theorem scanJsonOpening_goesOn (lineBreakOffsets : Nat → Bool) (more : JsString) (hstart : start < text.length) :
    OpeningGoesOn text (text ++ more) (scanJsonOpening lineBreakOffsets text start)
      (scanJsonOpening lineBreakOffsets (text ++ more) start) := by
  unfold scanJsonOpening
  rw [getElem?_append hstart]
  split
  · exact scanBracketOpening_goesOn hstart
  · exact scanHarmonyOpening_goesOn hstart

end OpenClaw.ToolCallRepair
