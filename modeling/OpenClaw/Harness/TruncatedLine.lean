/-
# OpenClaw.Harness.TruncatedLine -- bytes are counted right, and the end of a line is the longest that fits
-/
import OpenClaw.Harness.Truncate

namespace OpenClaw.Harness

open OpenClaw.Data

/-! ## Counting bytes -/

theorem countBytes_eq (s : JsString) : countBytes s = byteLength s := by
  induction s using codePoints.induct with
  | case1 => rfl
  | case2 unit =>
    rw [byteLength_unit]
    rfl
  | case3 unit next rest hpair ih =>
    obtain ⟨hlead, htrail⟩ := Bool.and_eq_true_iff.mp hpair
    have hbytes : byteLength (unit :: next :: rest) = 4 + byteLength rest := by
      have hparted : Parted [unit, next] rest := by
        apply Parted.of_not_lead
        intro x hx
        obtain rfl : next = x := Option.some.inj hx
        by_contra hnext
        rw [not_trail_of_lead (Bool.not_eq_false _ |>.mp hnext)] at htrail
        cases htrail
      rw [← byteLength_pair hlead htrail]
      exact byteLength_append hparted
    have hlarge : ¬ unit.val ≤ 0x7FF := by
      simp only [isLeadSurrogate, Bool.and_eq_true, decide_eq_true_eq] at hlead
      omega
    rw [countBytes, if_neg (by omega), if_neg hlarge, if_pos hpair, ih, hbytes]
  | case4 unit next rest hpair ih =>
    have hbytes : byteLength (unit :: next :: rest) = unitBytes unit + byteLength (next :: rest) := by
      have hparted : Parted [unit] (next :: rest) := by
        intro x hx y hy hlead htrail
        obtain rfl : unit = x := Option.some.inj hx
        obtain rfl : next = y := Option.some.inj hy
        exact hpair (Bool.and_eq_true_iff.mpr ⟨hlead, htrail⟩)
      rw [← byteLength_unit]
      exact byteLength_append hparted
    rw [countBytes, if_neg hpair, ih, hbytes, unitBytes]
    split
    · rfl
    · split <;> rfl

theorem not_lead_of_ascii {unit : CodeUnit} (h : isAsciiUnit unit = true) : isLeadSurrogate unit = false := by
  simp only [isAsciiUnit, decide_eq_true_eq] at h
  simp only [isLeadSurrogate, Bool.and_eq_false_iff, decide_eq_false_iff_not]
  omega

theorem byteLength_ascii {s : JsString} (h : ∀ unit ∈ s, isAsciiUnit unit = true) : byteLength s = s.length := by
  induction s with
  | nil => rfl
  | cons unit s ih =>
    obtain ⟨hunit, hrest⟩ := List.forall_mem_cons.mp h
    have hparted : Parted [unit] s := by
      apply Parted.of_not_lead
      intro x hx
      obtain rfl : unit = x := Option.some.inj hx
      exact not_lead_of_ascii hunit
    have hbytes : byteLength ([unit] ++ s) = 1 + s.length := by
      rw [byteLength_append hparted, byteLength_unit, ih hrest, unitBytes, if_pos (of_decide_eq_true hunit)]
    rw [List.length_cons, Nat.add_comm]
    exact hbytes

/-- **Bytes are counted as UTF-8 has them**, with `Buffer` and without. -/
theorem utf8ByteLength_eq {runtime : Runtime} (h : runtime.Documented) (content : JsString) :
    utf8ByteLength runtime content = byteLength content := by
  unfold utf8ByteLength
  cases hcount : runtime.byteLength with
  | some count => exact congrFun (h count hcount) content
  | none =>
    dsimp only
    cases hfind : content.findIdx? fun unit => !isAsciiUnit unit with
    | none =>
      have hall := List.findIdx?_eq_none_iff.mp hfind
      refine (byteLength_ascii fun unit hunit => ?_).symm
      simpa using hall unit hunit
    | some first =>
      obtain ⟨hlt, -, hbefore⟩ := List.findIdx?_eq_some_iff_getElem.mp hfind
      have hascii : ∀ unit ∈ content.take first, isAsciiUnit unit = true := by
        intro unit hunit
        obtain ⟨i, hi, rfl⟩ := List.mem_iff_getElem.mp hunit
        rw [List.length_take] at hi
        have hbit := hbefore i (by omega)
        rw [List.getElem_take]
        simpa using hbit
      have hparted : Parted (content.take first) (content.drop first) := by
        apply Parted.of_not_lead
        intro x hx
        exact not_lead_of_ascii (hascii x (List.mem_of_getLast? hx))
      have hsplit := byteLength_append hparted
      rw [List.take_append_drop, byteLength_ascii hascii, List.length_take, Nat.min_eq_left hlt.le] at hsplit
      dsimp only
      rw [countBytes_eq, hsplit]

theorem replaceUnpairedSurrogates_eq (s : JsString) : replaceUnpairedSurrogates s = repaired s := by
  have hlone (unit : CodeUnit) : charUnits (codePointOf unit).written =
      if isSurrogate unit then [unitOf replacementCharacter] else [unit] := by
    by_cases h : isSurrogate unit = true
    · have hpoint : codePointOf unit = .lone unit := if_pos h
      rw [if_pos h, hpoint]
      rfl
    · have hpoint : codePointOf unit = .char (Char.ofNat unit.val) := if_neg h
      have hunits := codePointOf_units unit
      rw [hpoint] at hunits
      rw [if_neg h, hpoint]
      exact hunits
  induction s using codePoints.induct with
  | case1 => rfl
  | case2 unit =>
    rw [replaceUnpairedSurrogates, repaired, codePoints, List.flatMap_singleton, hlone]
  | case3 unit next rest hpair ih =>
    obtain ⟨hlead, htrail⟩ := Bool.and_eq_true_iff.mp hpair
    rw [replaceUnpairedSurrogates, if_pos hlead, if_pos htrail, ih, repaired, repaired, codePoints, if_pos hpair,
      List.flatMap_cons, CodePoint.written, surrogatePair_units hlead htrail]
    rfl
  | case4 unit next rest hpair ih =>
    have hpoints : repaired (unit :: next :: rest) =
        charUnits (codePointOf unit).written ++ repaired (next :: rest) := by
      rw [repaired, codePoints, if_neg hpair, List.flatMap_cons]
      rfl
    rw [hpoints, hlone, replaceUnpairedSurrogates, ih]
    by_cases hlead : isLeadSurrogate unit = true
    · have htrail : ¬ isTrailSurrogate next = true := fun h => hpair (Bool.and_eq_true_iff.mpr ⟨hlead, h⟩)
      have hsurrogate : isSurrogate unit = true := by rw [isSurrogate, hlead, Bool.true_or]
      rw [if_pos hlead, if_neg htrail, if_pos hsurrogate]
      rfl
    · by_cases htrail : isTrailSurrogate unit = true
      · have hsurrogate : isSurrogate unit = true := by rw [isSurrogate, htrail, Bool.or_true]
        rw [if_neg hlead, if_pos htrail, if_pos hsurrogate]
        rfl
      · have hplain : ¬ isSurrogate unit = true := by simp [isSurrogate, hlead, htrail]
        rw [if_neg hlead, if_neg htrail, if_neg hplain]
        rfl

/-! ## The longest end -/

/-- `kept` is the longest end of `line` on a character boundary within `maxBytes`. -/
structure LongestEnd (maxBytes : Nat) (line kept : JsString) : Prop where
  isEnd : ∃ front, line = front ++ kept ∧ Parted front kept
  bytes : byteLength kept ≤ maxBytes
  longest : ∀ front other, line = front ++ other → Parted front other → byteLength other ≤ maxBytes →
    other.length ≤ kept.length

/-- The units of one code point. -/
def IsPoint (point : JsString) : Prop :=
  (∃ unit, point = [unit]) ∨
    ∃ lead trail, point = [lead, trail] ∧ isLeadSurrogate lead = true ∧ isTrailSurrogate trail = true

theorem longestEnd_all {maxBytes : Nat} {kept : JsString} (h : byteLength kept ≤ maxBytes) :
    LongestEnd maxBytes kept kept where
  isEnd := ⟨[], rfl, parted_nil_left kept⟩
  bytes := h
  longest front other hline _ _ := by
    rw [hline, List.length_append]
    omega

/-- An end is longest when the code point in front of it does not fit any more. -/
theorem longestEnd_of_full {maxBytes : Nat} {front point kept : JsString} (hpoint : IsPoint point)
    (hfront : Parted front (point ++ kept)) (hparted : Parted point kept) (hkept : byteLength kept ≤ maxBytes)
    (hend : Parted (front ++ point) kept) (hfull : maxBytes < byteLength point + byteLength kept) :
    LongestEnd maxBytes (front ++ point ++ kept) kept := by
  refine ⟨⟨front ++ point, rfl, hend⟩, hkept, ?_⟩
  intro front' other hline hother hbytes
  by_contra hlong
  obtain ⟨more, rfl, hcut⟩ : ∃ more, other = more ++ kept ∧ front ++ point = front' ++ more := by
    rcases List.append_eq_append_iff.mp hline with ⟨more, -, hkept'⟩ | ⟨more, hmore, hother'⟩
    · have hlengths := congrArg List.length hkept'
      rw [List.length_append] at hlengths
      omega
    · exact ⟨more, hother', hmore⟩
  have hmore : more ≠ [] := by
    rintro rfl
    exact hlong (Nat.le_refl _)
  rcases List.append_eq_append_iff.mp hcut with ⟨rest, hrest, hpieces⟩ | ⟨rest, hrest, hpieces⟩
  · -- the other end begins inside the point, or at its start
    cases rest with
    | nil =>
      rw [List.nil_append] at hpieces
      subst hpieces
      rw [byteLength_append hparted] at hbytes
      omega
    | cons x rest =>
      have hpair : ∃ lead trail, x :: rest = [lead] ∧ more = [trail] ∧ isLeadSurrogate lead = true ∧
          isTrailSurrogate trail = true := by
        rcases hpoint with ⟨unit, hunit⟩ | ⟨lead, trail, hunits, hlead, htrail⟩
        · rw [hunit] at hpieces
          have hlengths := congrArg List.length hpieces
          have hpos := List.length_pos_of_ne_nil hmore
          simp only [List.length_append, List.length_cons, List.length_nil] at hlengths
          omega
        · rw [hunits] at hpieces
          cases rest with
          | nil =>
            obtain ⟨rfl, rfl⟩ := List.cons.inj hpieces
            exact ⟨_, _, rfl, rfl, hlead, htrail⟩
          | cons y rest =>
            have hlengths := congrArg List.length hpieces
            have hpos := List.length_pos_of_ne_nil hmore
            simp only [List.length_append, List.length_cons, List.length_nil] at hlengths
            omega
      obtain ⟨lead, trail, hx, rfl, hlead, htrail⟩ := hpair
      rw [hrest, hx] at hother
      exact hother lead (by simp) trail rfl hlead htrail
  · -- the other end has the whole point
    subst hpieces
    have hrestParted : Parted rest (point ++ kept) := by
      intro x hx
      exact hfront x (by rw [hrest]; exact List.mem_getLast?_append_of_mem_getLast? hx)
    rw [List.append_assoc, byteLength_append hrestParted, byteLength_append hparted] at hbytes
    omega

/-- What the loop has kept at any time: an end of the line that fits, and what is noted about it. -/
structure KeptEnd (maxBytes : Nat) (before : JsString) (cut : LineEnd) : Prop where
  parted : Parted before.reverse cut.kept
  outputBytes : cut.outputBytes = byteLength cut.kept
  needsReplacement : cut.needsReplacement = hasLone cut.kept
  bytes : byteLength cut.kept ≤ maxBytes

theorem KeptEnd.point_parted {maxBytes : Nat} {before point : JsString} {cut : LineEnd}
    (h : KeptEnd maxBytes (point.reverse ++ before) cut) : Parted point cut.kept := by
  intro x hx
  apply h.parted x
  rw [List.reverse_append, List.reverse_reverse]
  exact List.mem_getLast?_append_of_mem_getLast? hx

/-- One point more. -/
theorem KeptEnd.push {maxBytes : Nat} {before point : JsString} {cut : LineEnd}
    (h : KeptEnd maxBytes (point.reverse ++ before) cut) (hfront : Parted before.reverse (point ++ cut.kept))
    (hfits : ¬ cut.outputBytes + byteLength point > maxBytes) :
    KeptEnd maxBytes before
      ⟨point ++ cut.kept, cut.outputBytes + byteLength point, cut.needsReplacement || hasLone point⟩ where
  parted := hfront
  outputBytes := by rw [byteLength_append h.point_parted, h.outputBytes, Nat.add_comm]
  needsReplacement := by rw [hasLone_append h.point_parted, h.needsReplacement, Bool.or_comm]
  bytes := by
    rw [byteLength_append h.point_parted]
    have hcount := h.outputBytes
    omega

/-- No point more. -/
theorem KeptEnd.full {maxBytes : Nat} {before point : JsString} {cut : LineEnd}
    (h : KeptEnd maxBytes (point.reverse ++ before) cut) (hpoint : IsPoint point)
    (hfront : Parted before.reverse (point ++ cut.kept)) (hfull : cut.outputBytes + byteLength point > maxBytes) :
    LongestEnd maxBytes ((point.reverse ++ before).reverse ++ cut.kept) cut.kept ∧
      cut.needsReplacement = hasLone cut.kept := by
  have hcount := h.outputBytes
  have hend := h.parted
  rw [List.reverse_append, List.reverse_reverse] at hend ⊢
  exact ⟨longestEnd_of_full hpoint hfront h.point_parted h.bytes hend (by omega), h.needsReplacement⟩

theorem parted_unit {previous code : CodeUnit} {rest kept : JsString}
    (hpair : ¬ (isTrailSurrogate code && isLeadSurrogate previous) = true) :
    Parted (previous :: rest).reverse ([code] ++ kept) := by
  intro x hx y hy hlead htrail
  rw [List.reverse_cons, List.getLast?_append, List.getLast?_singleton, Option.some_or] at hx
  obtain rfl : previous = x := Option.some.inj hx
  obtain rfl : code = y := Option.some.inj hy
  exact hpair (Bool.and_eq_true_iff.mpr ⟨htrail, hlead⟩)

theorem parted_pair {lead trail : CodeUnit} {front kept : JsString} (hlead : isLeadSurrogate lead = true) :
    Parted front ([lead, trail] ++ kept) := by
  apply Parted.of_not_trail
  intro y hy
  obtain rfl : lead = y := Option.some.inj hy
  exact not_trail_of_lead hlead

/-- **The loop keeps the longest end that fits.** -/
theorem cutFromEnd_longest {maxBytes : Nat} : ∀ {before : JsString} {cut : LineEnd}, KeptEnd maxBytes before cut →
    LongestEnd maxBytes (before.reverse ++ cut.kept) (cutFromEnd maxBytes before cut).kept ∧
      (cutFromEnd maxBytes before cut).needsReplacement = hasLone (cutFromEnd maxBytes before cut).kept := by
  have hunit (code : CodeUnit) : IsPoint [code] := .inl ⟨code, rfl⟩
  intro before cut
  induction before, cut using cutFromEnd.induct maxBytes with
  | case1 cut =>
    intro h
    exact ⟨longestEnd_all h.bytes, h.needsReplacement⟩
  | case2 code cut hfull =>
    intro h
    rw [cutFromEnd, if_pos hfull]
    rw [← byteLength_unit] at hfull
    exact @KeptEnd.full _ [] _ _ h (hunit code) (parted_nil_left _) hfull
  | case3 code cut hfits =>
    intro h
    rw [cutFromEnd, if_neg hfits]
    rw [← byteLength_unit] at hfits
    have hnext := @KeptEnd.push _ [] _ _ h (parted_nil_left _) hfits
    rw [byteLength_unit, hasLone_unit] at hnext
    exact ⟨longestEnd_all hnext.bytes, hnext.needsReplacement⟩
  | case4 code previous rest cut hpair hfull =>
    intro h
    obtain ⟨htrail, hlead⟩ := Bool.and_eq_true_iff.mp hpair
    rw [cutFromEnd, if_pos hpair, if_pos hfull]
    rw [← byteLength_pair hlead htrail] at hfull
    exact @KeptEnd.full _ _ [previous, code] _ h (.inr ⟨_, _, rfl, hlead, htrail⟩) (parted_pair hlead) hfull
  | case5 code previous rest cut hpair hfits ih =>
    intro h
    obtain ⟨htrail, hlead⟩ := Bool.and_eq_true_iff.mp hpair
    rw [cutFromEnd, if_pos hpair, if_neg hfits]
    rw [← byteLength_pair hlead htrail] at hfits
    have hnext := @KeptEnd.push _ _ [previous, code] _ h (parted_pair hlead) hfits
    rw [byteLength_pair hlead htrail, hasLone_pair hlead htrail, Bool.or_false] at hnext
    have hrest := ih hnext
    simpa using hrest
  | case6 code previous rest cut hpair hfull =>
    intro h
    rw [cutFromEnd, if_neg hpair, if_pos hfull]
    rw [← byteLength_unit] at hfull
    exact KeptEnd.full h (hunit code) (parted_unit hpair) hfull
  | case7 code previous rest cut hpair hfits ih =>
    intro h
    rw [cutFromEnd, if_neg hpair, if_neg hfits]
    rw [← byteLength_unit] at hfits
    have hnext := KeptEnd.push h (parted_unit hpair) hfits
    rw [byteLength_unit, hasLone_unit] at hnext
    have hrest := ih hnext
    simpa using hrest

/-- **What is kept of a line that is too long**: the longest end that fits, repaired. -/
theorem truncateStringToBytesFromEnd_eq (str : JsString) (maxBytes : Nat) :
    ∃ kept, LongestEnd maxBytes str kept ∧ truncateStringToBytesFromEnd str maxBytes = repaired kept := by
  have hstart : KeptEnd maxBytes str.reverse ⟨[], 0, false⟩ :=
    ⟨parted_nil_right _, rfl, rfl, Nat.zero_le _⟩
  obtain ⟨hlongest, hneeds⟩ := cutFromEnd_longest hstart
  rw [List.reverse_reverse, List.append_nil] at hlongest
  refine ⟨_, hlongest, ?_⟩
  unfold truncateStringToBytesFromEnd
  split
  · -- without any bytes nothing is kept
    rename_i hzero
    subst hzero
    have hempty := Nat.le_zero.mp hlongest.bytes
    rw [byteLength_eq_zero hempty]
    rfl
  · dsimp only
    rw [hneeds]
    split
    · exact replaceUnpairedSurrogates_eq _
    · rename_i hlone
      exact (repaired_of_not_hasLone (Bool.not_eq_true _ |>.mp hlone)).symm

end OpenClaw.Harness
