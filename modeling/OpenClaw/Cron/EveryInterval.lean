/-
# OpenClaw.Cron.EveryInterval -- fixed intervals in double arithmetic

The `every` branches of `computeNextRunAtMs` and `computeJobNextRunAtMs`, on numbers as the program has
them: an interval, an anchor and a time are doubles, and each operation is rounded.  Interval and anchor
are taken down to integers.  Up to `2 ^ 53` nothing is rounded on the way, except for the quotient, and
its floor is the exact one; so the next run is the least multiple of the interval after now, counted from
the anchor.  On integers this is the next run of the other modules.
-/
import OpenClaw.Cron.CronJob
import OpenClaw.Data.Double

namespace OpenClaw.Cron.Every

open OpenClaw.Data

/-! ## The code -/

structure EverySchedule where
  everyMs : ℚ
  anchorMs : Option ℚ

structure EveryJob where
  enabled : Option Bool
  schedule : EverySchedule
  createdAtMs : Option ℚ
  lastRunAtMs : Option ℚ

/-- A value that is not safe counts as missing. -/
def coerceFiniteScheduleNumber (value : ℚ) : Option ℚ :=
  if |value| ≤ maxSafeInteger then some value else none

/-- `isFiniteTimestamp(value) ? value : undefined`; a result that overflowed is at least `2 ^ 1024`. -/
def finiteTimestamp (value : ℚ) : Option ℚ := if |value| < 2 ^ 1024 then some value else none

/-- `Math.max(1, Math.floor(everyMsRaw))` -/
def wholeInterval (everyMsRaw : ℚ) : ℤ := max 1 ⌊everyMsRaw⌋

def resolveEveryAnchorMs (anchorMs : Option ℚ) (fallbackAnchorMs : ℚ) : ℤ :=
  max 0 ⌊(anchorMs.bind coerceFiniteScheduleNumber).getD fallbackAnchorMs⌋

def computeNextRunAtMs (schedule : EverySchedule) (nowMs : ℚ) : Option ℚ :=
  (coerceFiniteScheduleNumber schedule.everyMs).map fun everyMsRaw =>
    let everyMs := wholeInterval everyMsRaw
    let anchor := resolveEveryAnchorMs schedule.anchorMs nowMs
    if nowMs < anchor then (anchor : ℚ)
    else
      let elapsed := toDouble (nowMs - anchor)
      let steps := toDouble (⌊toDouble (elapsed / everyMs)⌋ + 1)
      toDouble (anchor + toDouble (steps * everyMs))

def computeJobNextRunAtMs (job : EveryJob) (nowMs : ℚ) : Option ℚ :=
  if job.enabled.getD true then
    (coerceFiniteScheduleNumber job.schedule.everyMs).bind fun everyMsRaw =>
      let everyMs := wholeInterval everyMsRaw
      match job.lastRunAtMs.filter fun lastRunAtMs => nowMs < toDouble (⌊lastRunAtMs⌋ + everyMs) with
      | some lastRunAtMs => some (toDouble (⌊lastRunAtMs⌋ + everyMs))
      | none =>
        let anchorMs := resolveEveryAnchorMs job.schedule.anchorMs (job.createdAtMs.getD nowMs)
        (computeNextRunAtMs ⟨everyMs, some anchorMs⟩ nowMs).bind finiteTimestamp
  else none

/-! ## One step more than those that have passed -/

/-- The first slot after now, counted from an anchor that is not in the future. -/
def nextSlot (anchor everyMs : ℤ) (nowMs : ℚ) : ℤ := anchor + (⌊(nowMs - anchor) / everyMs⌋ + 1) * everyMs

variable {anchor everyMs : ℤ} {nowMs : ℚ}

theorem lt_nextSlot (hevery : 1 ≤ everyMs) : nowMs < nextSlot anchor everyMs nowMs := by
  have hpos : (0 : ℚ) < everyMs := by exact_mod_cast hevery
  have hlt := Int.lt_floor_add_one ((nowMs - anchor) / everyMs)
  rw [div_lt_iff₀ hpos] at hlt
  unfold nextSlot
  push_cast
  linarith

theorem nextSlot_le (anchor : ℤ) (nowMs : ℚ) (hevery : 1 ≤ everyMs) :
    (nextSlot anchor everyMs nowMs : ℚ) ≤ nowMs + everyMs := by
  have hpos : (0 : ℚ) < everyMs := by exact_mod_cast hevery
  have hle := Int.floor_le ((nowMs - anchor) / everyMs)
  rw [le_div_iff₀ hpos] at hle
  unfold nextSlot
  push_cast
  linarith

/-- The next slot is the least one after now. -/
theorem nextSlot_isLeast (hevery : 1 ≤ everyMs) (hanchor : (anchor : ℚ) ≤ nowMs) :
    IsLeast {t : ℚ | (∃ k : ℕ, t = anchor + k * everyMs) ∧ nowMs < t} (nextSlot anchor everyMs nowMs) := by
  have hpos : (0 : ℚ) < everyMs := by exact_mod_cast hevery
  constructor
  · refine ⟨⟨(⌊(nowMs - anchor) / everyMs⌋ + 1).toNat, ?_⟩, lt_nextSlot hevery⟩
    have hnonneg : 0 ≤ ⌊(nowMs - anchor) / everyMs⌋ := Int.floor_nonneg.mpr (div_nonneg (by linarith) hpos.le)
    have hcast : (((⌊(nowMs - anchor) / everyMs⌋ + 1).toNat : ℤ) : ℚ) = (⌊(nowMs - anchor) / everyMs⌋ : ℚ) + 1 := by
      rw [Int.toNat_of_nonneg (by omega)]
      push_cast
      rfl
    rw [Int.cast_natCast] at hcast
    rw [hcast, nextSlot]
    push_cast
    rfl
  · rintro t ⟨⟨k, rfl⟩, hlater⟩
    -- an earlier multiple has passed
    have hk : ⌊(nowMs - anchor) / everyMs⌋ < (k : ℤ) := by
      apply Int.floor_lt.mpr
      rw [div_lt_iff₀ hpos, Int.cast_natCast]
      linarith
    have hk : (⌊(nowMs - anchor) / everyMs⌋ : ℚ) + 1 ≤ k := by exact_mod_cast hk
    have hmul := mul_le_mul_of_nonneg_right hk hpos.le
    unfold nextSlot
    push_cast
    linarith

/-! ## Rounding -/

/-- As long as the next slot is not beyond the safe integers, rounding does not move it. -/
theorem rounded_nextSlot (hnow : IsDouble nowMs) (hevery : 1 ≤ everyMs) (hnonneg : 0 ≤ anchor)
    (hanchor : (anchor : ℚ) ≤ nowMs) (hsafe : nowMs + everyMs ≤ 2 ^ 53) :
    toDouble (anchor + toDouble (toDouble (⌊toDouble (toDouble (nowMs - anchor) / everyMs)⌋ + 1) *
      everyMs)) = nextSlot anchor everyMs nowMs := by
  have hpos : (0 : ℚ) < everyMs := by exact_mod_cast hevery
  have heveryq : (1 : ℚ) ≤ everyMs := by exact_mod_cast hevery
  have hnonnegq : (0 : ℚ) ≤ anchor := by exact_mod_cast hnonneg
  have hdouble : IsDouble (nowMs - anchor) := hnow.sub_intCast hnonneg hanchor (by linarith)
  have helapsed : 0 ≤ nowMs - anchor := by linarith
  have hsteps : 0 ≤ ⌊(nowMs - anchor) / everyMs⌋ := Int.floor_nonneg.mpr (div_nonneg helapsed hpos.le)
  have hslot : nextSlot anchor everyMs nowMs ≤ 2 ^ 53 := by
    have hle := nextSlot_le anchor nowMs hevery
    exact_mod_cast hle.trans hsafe
  have hproduct : (⌊(nowMs - anchor) / everyMs⌋ + 1) * everyMs ≤ 2 ^ 53 := by
    unfold nextSlot at hslot
    omega
  have hstep : ⌊(nowMs - anchor) / everyMs⌋ + 1 ≤ (⌊(nowMs - anchor) / everyMs⌋ + 1) * everyMs :=
    le_mul_of_one_le_right (by omega) hevery
  rw [toDouble_of_isDouble hdouble, floor_toDouble_div hdouble helapsed hevery hproduct]
  -- each of the remaining results is an integer up to `2 ^ 53`
  have hcount : toDouble ((⌊(nowMs - anchor) / everyMs⌋ : ℚ) + 1) = ((⌊(nowMs - anchor) / everyMs⌋ + 1 : ℤ) : ℚ) := by
    rw [← toDouble_intCast (n := ⌊(nowMs - anchor) / everyMs⌋ + 1) (abs_le.mpr ⟨by omega, by omega⟩)]
    push_cast
    rfl
  rw [hcount, ← Int.cast_mul, toDouble_intCast (abs_le.mpr ⟨by omega, hproduct⟩), ← Int.cast_add]
  unfold nextSlot at hslot ⊢
  exact toDouble_intCast (abs_le.mpr ⟨by omega, hslot⟩)

/-! ## The next run of a schedule -/

theorem one_le_wholeInterval (everyMsRaw : ℚ) : 1 ≤ wholeInterval everyMsRaw := le_max_left _ _

theorem resolveEveryAnchorMs_nonneg (anchorMs : Option ℚ) (fallbackAnchorMs : ℚ) :
    0 ≤ resolveEveryAnchorMs anchorMs fallbackAnchorMs := le_max_left _ _

/-- A whole interval is as safe as the one that it was taken from. -/
theorem wholeInterval_safe {everyMsRaw : ℚ} (h : |everyMsRaw| ≤ maxSafeInteger) :
    |((wholeInterval everyMsRaw : ℤ) : ℚ)| ≤ maxSafeInteger := by
  have hpos := one_le_wholeInterval everyMsRaw
  have hfloor : ⌊everyMsRaw⌋ ≤ maxSafeInteger := by
    exact_mod_cast (Int.floor_le everyMsRaw).trans (le_of_abs_le h)
  have hle : wholeInterval everyMsRaw ≤ maxSafeInteger := max_le (by decide) hfloor
  rw [abs_of_nonneg (by exact_mod_cast zero_le_one.trans hpos)]
  exact_mod_cast hle

theorem wholeInterval_wholeInterval (everyMsRaw : ℚ) :
    wholeInterval (wholeInterval everyMsRaw : ℤ) = wholeInterval everyMsRaw := by
  unfold wholeInterval
  rw [Int.floor_intCast]
  exact max_eq_right (le_max_left _ _)

theorem computeNextRunAtMs_before (schedule : EverySchedule) (hinterval : |schedule.everyMs| ≤ maxSafeInteger)
    (hbefore : nowMs < resolveEveryAnchorMs schedule.anchorMs nowMs) :
    computeNextRunAtMs schedule nowMs = some (resolveEveryAnchorMs schedule.anchorMs nowMs : ℚ) := by
  unfold computeNextRunAtMs coerceFiniteScheduleNumber
  rw [if_pos hinterval, Option.map_some]
  dsimp only
  rw [if_pos hbefore]

theorem computeNextRunAtMs_since (schedule : EverySchedule) (hinterval : |schedule.everyMs| ≤ maxSafeInteger)
    (hnow : IsDouble nowMs) (hanchor : (resolveEveryAnchorMs schedule.anchorMs nowMs : ℚ) ≤ nowMs)
    (hsafe : nowMs + wholeInterval schedule.everyMs ≤ 2 ^ 53) : computeNextRunAtMs schedule nowMs =
      some (nextSlot (resolveEveryAnchorMs schedule.anchorMs nowMs) (wholeInterval schedule.everyMs) nowMs : ℚ) := by
  unfold computeNextRunAtMs
  rw [coerceFiniteScheduleNumber, if_pos hinterval, Option.map_some]
  dsimp only
  rw [if_neg (not_lt.mpr hanchor), rounded_nextSlot hnow (one_le_wholeInterval _)
    (resolveEveryAnchorMs_nonneg _ _) hanchor hsafe]

/-- The next run is the anchor while it is in the future, and the least later multiple since then. -/
theorem computeNextRunAtMs_least (schedule : EverySchedule)
    (hinterval : |schedule.everyMs| ≤ maxSafeInteger) (hnow : IsDouble nowMs)
    (hsafe : nowMs + wholeInterval schedule.everyMs ≤ 2 ^ 53) :
    ∃ next, computeNextRunAtMs schedule nowMs = some next ∧ (nowMs < resolveEveryAnchorMs schedule.anchorMs nowMs →
        next = resolveEveryAnchorMs schedule.anchorMs nowMs) ∧
      ((resolveEveryAnchorMs schedule.anchorMs nowMs : ℚ) ≤ nowMs →
        IsLeast {t : ℚ | (∃ k : ℕ, t = resolveEveryAnchorMs schedule.anchorMs nowMs +
          k * wholeInterval schedule.everyMs) ∧ nowMs < t} next ∧ next ≤ nowMs + wholeInterval schedule.everyMs) := by
  rcases lt_or_ge nowMs (resolveEveryAnchorMs schedule.anchorMs nowMs : ℚ) with hbefore | hsince
  · exact ⟨_, computeNextRunAtMs_before schedule hinterval hbefore, fun _ => rfl, fun hle => by linarith⟩
  · refine ⟨_, computeNextRunAtMs_since schedule hinterval hnow hsince hsafe, fun hlt => by linarith, fun _ => ?_⟩
    exact ⟨nextSlot_isLeast (one_le_wholeInterval _) hsince, nextSlot_le _ _ (one_le_wholeInterval _)⟩

/-! ## The next run of a job -/

/-- A run that is the interval after a last run that is not in the future. -/
theorem toDouble_lastRun_le {lastRunAtMs : ℚ} (hevery : 1 ≤ everyMs) (hlast : lastRunAtMs ≤ nowMs)
    (hlow : -2 ^ 53 ≤ nowMs) (hsafe : nowMs + everyMs ≤ 2 ^ 53) :
    toDouble ((⌊lastRunAtMs⌋ : ℚ) + everyMs) ≤ nowMs + everyMs := by
  have heveryq : (1 : ℚ) ≤ everyMs := by exact_mod_cast hevery
  have hfloor := Int.floor_le lastRunAtMs
  have hcast : (⌊lastRunAtMs⌋ : ℚ) + everyMs = ((⌊lastRunAtMs⌋ + everyMs : ℤ) : ℚ) := by push_cast; rfl
  have hupper : ⌊lastRunAtMs⌋ + everyMs ≤ 2 ^ 53 := by
    have hle : ((⌊lastRunAtMs⌋ + everyMs : ℤ) : ℚ) ≤ 2 ^ 53 := by
      rw [← hcast]
      linarith
    exact_mod_cast hle
  rcases le_or_gt (-2 ^ 53) (⌊lastRunAtMs⌋ + everyMs) with hlower | hbelow
  · rw [hcast, toDouble_intCast (abs_le.mpr ⟨hlower, hupper⟩), ← hcast]
    linarith
  · -- far below, half a last place is not enough to come back up
    have hbelowq : ((⌊lastRunAtMs⌋ + everyMs : ℤ) : ℚ) < -2 ^ 53 := by exact_mod_cast hbelow
    rw [← hcast] at hbelowq
    have habs : |(⌊lastRunAtMs⌋ : ℚ) + everyMs| = -((⌊lastRunAtMs⌋ : ℚ) + everyMs) := abs_of_neg (by linarith)
    have hulp := ulp_mul_le (x := (⌊lastRunAtMs⌋ : ℚ) + everyMs) (by rw [habs]; linarith)
    rw [habs] at hulp
    have herror := (abs_le.mp (abs_toDouble_sub_le ((⌊lastRunAtMs⌋ : ℚ) + everyMs))).2
    linarith

variable {job : EveryJob}

theorem computeJobNextRunAtMs_eq (henabled : job.enabled.getD true = true)
    (hinterval : |job.schedule.everyMs| ≤ maxSafeInteger) :
    computeJobNextRunAtMs job nowMs =
      match job.lastRunAtMs.filter fun lastRunAtMs =>
          nowMs < toDouble (⌊lastRunAtMs⌋ + wholeInterval job.schedule.everyMs) with
      | some lastRunAtMs => some (toDouble (⌊lastRunAtMs⌋ + wholeInterval job.schedule.everyMs))
      | none =>
        (computeNextRunAtMs ⟨wholeInterval job.schedule.everyMs,
          some (resolveEveryAnchorMs job.schedule.anchorMs (job.createdAtMs.getD nowMs) : ℚ)⟩
          nowMs).bind finiteTimestamp := by
  unfold computeJobNextRunAtMs
  rw [if_pos henabled, coerceFiniteScheduleNumber, if_pos hinterval, Option.bind_some]

/-- From an anchor that is a safe integer and not in the future. -/
theorem resolveEveryAnchorMs_anchor {anchor : ℤ} (hnonneg : 0 ≤ anchor) (hsafe : anchor ≤ maxSafeInteger)
    (nowMs : ℚ) : resolveEveryAnchorMs (some (anchor : ℚ)) nowMs = anchor := by
  have hle : |(anchor : ℚ)| ≤ maxSafeInteger := by
    rw [abs_of_nonneg (by exact_mod_cast hnonneg)]
    exact_mod_cast hsafe
  unfold resolveEveryAnchorMs coerceFiniteScheduleNumber
  rw [Option.bind_some, if_pos hle, Option.getD_some, Int.floor_intCast]
  exact max_eq_right hnonneg

theorem resolveEveryAnchorMs_le (anchorMs : Option ℚ) (hnow : nowMs ≤ 2 ^ 53) :
    (resolveEveryAnchorMs anchorMs nowMs : ℚ) ≤ 2 ^ 53 := by
  have hvalue : (anchorMs.bind coerceFiniteScheduleNumber).getD nowMs ≤ 2 ^ 53 := by
    cases hcoerced : anchorMs.bind coerceFiniteScheduleNumber with
    | none => exact hnow
    | some value =>
      obtain ⟨raw, _, hraw⟩ := Option.bind_eq_some_iff.mp hcoerced
      unfold coerceFiniteScheduleNumber at hraw
      split at hraw
      · rename_i hsafe
        rw [Option.some.inj hraw] at hsafe
        have hle := (le_of_abs_le hsafe).trans (by norm_num [maxSafeInteger] : (maxSafeInteger : ℚ) ≤ 2 ^ 53)
        exact hle
      · cases hraw
  have hfloor := (Int.floor_le _).trans hvalue
  unfold resolveEveryAnchorMs
  push_cast
  exact max_le (by norm_num) hfloor

theorem finiteTimestamp_eq_some {value : ℚ} (hlow : -2 ^ 53 ≤ value) (hhigh : value ≤ 2 ^ 53) :
    finiteTimestamp value = some value := by
  have hlarge : (2 : ℚ) ^ 53 < 2 ^ 1024 := pow_lt_pow_right₀ (by norm_num) (by norm_num)
  exact if_pos ((abs_le.mpr ⟨hlow, hhigh⟩).trans_lt hlarge)

/-- The next run of a job is later than now, and not more than an interval later unless its anchor or its
last run is in the future. -/
theorem computeJobNextRunAtMs_later (henabled : job.enabled.getD true = true)
    (hinterval : |job.schedule.everyMs| ≤ maxSafeInteger) (hnow : IsDouble nowMs) (hlow : -2 ^ 53 ≤ nowMs)
    (hsafe : nowMs + wholeInterval job.schedule.everyMs ≤ 2 ^ 53) :
    ∃ next, computeJobNextRunAtMs job nowMs = some next ∧ nowMs < next ∧
      (next ≤ nowMs + wholeInterval job.schedule.everyMs ∨
        nowMs < resolveEveryAnchorMs job.schedule.anchorMs (job.createdAtMs.getD nowMs) ∨
        ∃ lastRunAtMs, job.lastRunAtMs = some lastRunAtMs ∧ nowMs < lastRunAtMs) := by
  have hevery := one_le_wholeInterval job.schedule.everyMs
  have heveryq : (1 : ℚ) ≤ wholeInterval job.schedule.everyMs := by exact_mod_cast hevery
  rw [computeJobNextRunAtMs_eq henabled hinterval]
  cases hlast : job.lastRunAtMs.filter fun lastRunAtMs =>
      nowMs < toDouble (⌊lastRunAtMs⌋ + wholeInterval job.schedule.everyMs) with
  | some lastRunAtMs =>
    obtain ⟨hsome, hlater⟩ := Option.filter_eq_some_iff.mp hlast
    refine ⟨_, rfl, of_decide_eq_true hlater, ?_⟩
    rcases le_or_gt lastRunAtMs nowMs with hpast | hfuture
    · exact .inl (toDouble_lastRun_le hevery hpast hlow hsafe)
    · exact .inr (.inr ⟨lastRunAtMs, hsome, hfuture⟩)
  | none =>
    dsimp only
    generalize hanchor : resolveEveryAnchorMs job.schedule.anchorMs (job.createdAtMs.getD nowMs) = anchor
    have hnonneg : 0 ≤ anchor := by
      rw [← hanchor]
      exact resolveEveryAnchorMs_nonneg _ _
    obtain ⟨next, hnext, hfuture, hsince⟩ := computeNextRunAtMs_least
      ⟨(wholeInterval job.schedule.everyMs : ℤ), some (anchor : ℚ)⟩
      (wholeInterval_safe hinterval) hnow (by rwa [wholeInterval_wholeInterval])
    rw [wholeInterval_wholeInterval] at hsince
    dsimp only at hfuture hsince
    have hbelow : nowMs ≤ 2 ^ 53 := by linarith
    have hbound := resolveEveryAnchorMs_le (some (anchor : ℚ)) hbelow
    have hlater : nowMs < next ∧ next ≤ 2 ^ 53 := by
      rcases lt_or_ge nowMs (resolveEveryAnchorMs (some (anchor : ℚ)) nowMs : ℚ) with hlt | hle
      · rw [hfuture hlt]
        exact ⟨hlt, hbound⟩
      · exact ⟨(hsince hle).1.1.2, (hsince hle).2.trans hsafe⟩
    refine ⟨next, ?_, hlater.1, ?_⟩
    · rw [hnext, Option.bind_some]
      exact finiteTimestamp_eq_some (by linarith) hlater.2
    · rcases lt_or_ge nowMs (anchor : ℚ) with hlt | hle
      · exact .inr (.inl hlt)
      · -- an anchor that is not in the future is a safe integer
        have hanchorSafe : anchor ≤ maxSafeInteger := by
          have hq : (anchor : ℚ) + 1 ≤ 2 ^ 53 := by linarith
          have hz : anchor + 1 ≤ 2 ^ 53 := by exact_mod_cast hq
          unfold maxSafeInteger
          omega
        have hsame := resolveEveryAnchorMs_anchor hnonneg hanchorSafe nowMs
        rw [hsame] at hsince
        exact .inl (hsince hle).2

/-- **Fixed intervals**: the next run of a schedule is the least multiple after now, and the next run of a
job is later than now by an interval at most. -/
theorem every_next_run (schedule : EverySchedule) (job : EveryJob) (nowMs : ℚ)
    (hjob : job.schedule = schedule) (henabled : job.enabled.getD true = true)
    (hinterval : |schedule.everyMs| ≤ maxSafeInteger) (hnow : IsDouble nowMs) (hlow : -2 ^ 53 ≤ nowMs)
    (hsafe : nowMs + wholeInterval schedule.everyMs ≤ 2 ^ 53) :
    (∃ next, computeNextRunAtMs schedule nowMs = some next ∧ (nowMs < resolveEveryAnchorMs schedule.anchorMs nowMs →
        next = resolveEveryAnchorMs schedule.anchorMs nowMs) ∧
      ((resolveEveryAnchorMs schedule.anchorMs nowMs : ℚ) ≤ nowMs →
        IsLeast {t : ℚ | (∃ k : ℕ, t = resolveEveryAnchorMs schedule.anchorMs nowMs +
          k * wholeInterval schedule.everyMs) ∧ nowMs < t} next)) ∧
    ∃ next, computeJobNextRunAtMs job nowMs = some next ∧ nowMs < next ∧
      (next ≤ nowMs + wholeInterval schedule.everyMs ∨
        nowMs < resolveEveryAnchorMs schedule.anchorMs (job.createdAtMs.getD nowMs) ∨
        ∃ lastRunAtMs, job.lastRunAtMs = some lastRunAtMs ∧ nowMs < lastRunAtMs) := by
  subst hjob
  obtain ⟨next, hnext, hfuture, hsince⟩ := computeNextRunAtMs_least _ hinterval hnow hsafe
  refine ⟨⟨next, hnext, hfuture, fun hle => (hsince hle).1⟩, ?_⟩
  exact computeJobNextRunAtMs_later henabled hinterval hnow hlow hsafe

/-- Every ten milliseconds, from an anchor between two integers. -/
def halfAnchor : EverySchedule := ⟨10, some (1 / 2)⟩

def halfAnchorJob : EveryJob := ⟨none, halfAnchor, none, some 3⟩

theorem every_next_run_ten : (∃ next, computeNextRunAtMs halfAnchor 25 = some next ∧ (25 : ℚ) < next) ∧
      ∃ next, computeJobNextRunAtMs halfAnchorJob 25 = some next ∧ (25 : ℚ) < next := by
  have hnow : IsDouble 25 := by exact_mod_cast isDouble_intCast (n := 25) (by norm_num)
  have hwhole : wholeInterval halfAnchor.everyMs = 10 := by norm_num [wholeInterval, halfAnchor]
  have hanchor : (resolveEveryAnchorMs halfAnchor.anchorMs 25 : ℚ) ≤ 25 := by
    norm_num [resolveEveryAnchorMs, halfAnchor, coerceFiniteScheduleNumber, maxSafeInteger]
  have hrun := every_next_run halfAnchor halfAnchorJob 25 rfl rfl
    (by norm_num [halfAnchor, maxSafeInteger]) hnow (by norm_num) (by rw [hwhole]; norm_num)
  obtain ⟨⟨next, hnext, _, hsince⟩, jobNext, hjobNext, hlater, _⟩ := hrun
  exact ⟨⟨next, hnext, (hsince hanchor).1.2⟩, jobNext, hjobNext, hlater⟩

/-- A fractional anchor is not waited for, and beyond the safe integers the next run is now. -/
theorem every_next_run_apart : computeNextRunAtMs halfAnchor 0 = some 10 ∧ (0 : ℚ) < 1 / 2 ∧
      computeNextRunAtMs ⟨1, some 0⟩ (2 ^ 53) = some (2 ^ 53) := by
  have hzero : IsDouble 0 := by exact_mod_cast isDouble_intCast (n := 0) (by norm_num)
  have hwhole : wholeInterval halfAnchor.everyMs = 10 := by norm_num [wholeInterval, halfAnchor]
  have hanchor : resolveEveryAnchorMs halfAnchor.anchorMs 0 = 0 := by
    norm_num [resolveEveryAnchorMs, halfAnchor, coerceFiniteScheduleNumber, maxSafeInteger]
  refine ⟨?_, by norm_num, ?_⟩
  · rw [computeNextRunAtMs_since halfAnchor (by norm_num [halfAnchor, maxSafeInteger]) hzero
      (by rw [hanchor]; norm_num)
      (by rw [hwhole]; norm_num), hwhole, hanchor]
    norm_num [nextSlot]
  · have hanchor : resolveEveryAnchorMs (some 0) (2 ^ 53) = 0 := by
      norm_num [resolveEveryAnchorMs, coerceFiniteScheduleNumber, maxSafeInteger]
    have hone : wholeInterval 1 = 1 := by norm_num [wholeInterval]
    have hwhole : (2 ^ 53 : ℚ) = ((2 ^ 53 : ℤ) : ℚ) := by norm_num
    have hfloor : (⌊(2 ^ 53 : ℚ)⌋ : ℚ) = 2 ^ 53 := by
      rw [hwhole, Int.floor_intCast]
    unfold computeNextRunAtMs
    rw [coerceFiniteScheduleNumber, if_pos (by norm_num [maxSafeInteger]), Option.map_some]
    dsimp only
    rw [hanchor, hone, if_neg (by norm_num), Int.cast_zero, sub_zero, zero_add, Int.cast_one, mul_one,
      div_one, toDouble_two_pow, toDouble_two_pow, hfloor]
    rw [toDouble_two_pow_succ, toDouble_two_pow, toDouble_two_pow]

/-! ## Integers -/

theorem wholeInterval_intCast (everyMs : ℤ) : wholeInterval everyMs = max 1 everyMs := by
  unfold wholeInterval
  rw [Int.floor_intCast]

/-- On safe integers this is the next run that the other modules compute. -/
theorem computeNextRunAtMs_intCast (engine : CronEngine) {everyMs nowMs : ℤ} {anchorMs : Option ℤ}
    (hinterval : |everyMs| ≤ maxSafeInteger) (hanchor : ∀ anchor ∈ anchorMs, |anchor| ≤ maxSafeInteger)
    (hlow : -2 ^ 53 ≤ nowMs) (hsafe : nowMs + max 1 everyMs ≤ 2 ^ 53) :
    ∃ next : ℤ, OpenClaw.Cron.computeNextRunAtMs engine (.every everyMs anchorMs) nowMs = .ok (some next) ∧
      computeNextRunAtMs ⟨everyMs, anchorMs.map (fun anchor : ℤ => (anchor : ℚ))⟩ nowMs = some (next : ℚ) := by
  have hinterval : |(everyMs : ℚ)| ≤ maxSafeInteger := by exact_mod_cast hinterval
  have hnow : IsDouble nowMs := isDouble_intCast (abs_le.mpr ⟨hlow, by omega⟩)
  have hresolved : resolveEveryAnchorMs (anchorMs.map fun anchor : ℤ => (anchor : ℚ)) nowMs =
      max 0 (anchorMs.getD nowMs) := by
    unfold resolveEveryAnchorMs coerceFiniteScheduleNumber
    cases anchorMs with
    | none => simp
    | some anchor =>
        have hle : |(anchor : ℚ)| ≤ maxSafeInteger := by exact_mod_cast hanchor anchor rfl
        simp [hle]
  unfold OpenClaw.Cron.computeNextRunAtMs
  dsimp only
  split
  · rename_i hbefore
    refine ⟨_, rfl, ?_⟩
    have hbeforeq : (nowMs : ℚ) <
        resolveEveryAnchorMs (anchorMs.map fun anchor : ℤ => (anchor : ℚ)) nowMs := by
      rw [hresolved]
      exact_mod_cast hbefore
    rw [← hresolved]
    exact computeNextRunAtMs_before ⟨everyMs, _⟩ hinterval hbeforeq
  · rename_i hsince
    refine ⟨_, rfl, ?_⟩
    have hsinceq : (resolveEveryAnchorMs (anchorMs.map fun anchor : ℤ => (anchor : ℚ)) nowMs : ℚ) ≤
        nowMs := by
      rw [hresolved]
      exact_mod_cast not_lt.mp hsince
    have hsafeq : (nowMs : ℚ) + wholeInterval everyMs ≤ 2 ^ 53 := by
      rw [wholeInterval_intCast]
      exact_mod_cast hsafe
    have hnext : computeNextRunAtMs ⟨everyMs, anchorMs.map fun anchor : ℤ => (anchor : ℚ)⟩ nowMs =
        some (nextSlot (resolveEveryAnchorMs (anchorMs.map fun anchor : ℤ => (anchor : ℚ)) nowMs)
          (wholeInterval everyMs) nowMs : ℚ) :=
      computeNextRunAtMs_since ⟨everyMs, _⟩ hinterval hnow hsinceq hsafeq
    rw [hresolved, wholeInterval_intCast, nextSlot] at hnext
    -- the floor of the quotient is the quotient of the integers
    obtain ⟨n, hn⟩ := Int.eq_ofNat_of_zero_le (a := max 1 everyMs) (by omega)
    have hfloor : ⌊((nowMs : ℚ) - (max 0 (anchorMs.getD nowMs) : ℤ)) / (max 1 everyMs : ℤ)⌋ =
        (nowMs - max 0 (anchorMs.getD nowMs)) / max 1 everyMs := by
      rw [← Int.cast_sub, hn, Int.cast_natCast, Rat.floor_intCast_div_natCast]
    rw [hfloor] at hnext
    exact hnext

end OpenClaw.Cron.Every
