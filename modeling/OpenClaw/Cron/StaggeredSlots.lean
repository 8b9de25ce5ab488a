/-
# OpenClaw.Cron.StaggeredSlots -- next and previous staggered slots agree

A staggered job runs a fixed offset after the base times of its expression.  The next slot is searched
from a cursor that is moved back by the offset, a slot is recognised by asking for the previous one from a
second later, and a stored slot that is not recognised may be repaired.  If the library takes both of its
answers from one set of whole seconds, the three agree: every slot that is given is recognised, and a
genuine slot is never moved.  The cursor stops at the epoch, so base times up to it are not reached.
-/
import Mathlib.Order.Bounds.Basic
import Mathlib.Tactic.Ring
import OpenClaw.Cron.Maintenance

namespace OpenClaw.Cron

open OpenClaw.Data

/-! ## Neighbours in a set of times -/

/-- The least time after `t`, if there is one. -/
def NextIn (times : Set Int) (t : Int) : Option Int → Prop
  | some next => IsLeast {b | b ∈ times ∧ t < b} next
  | none => ∀ b ∈ times, b ≤ t

/-- The greatest time before `t`, if there is one. -/
def PreviousIn (times : Set Int) (t : Int) : Option Int → Prop
  | some previous => IsGreatest {b | b ∈ times ∧ b < t} previous
  | none => ∀ b ∈ times, t ≤ b

/-- The times moved by an offset. -/
def slots (times : Set Int) (offsetMs : Int) : Set Int := {t | ∃ b ∈ times, t = b + offsetMs}

variable {times : Set Int} {t offsetMs : Int} {answer : Option Int}

theorem NextIn.shift (h : NextIn times t answer) (offsetMs : Int) :
    NextIn (slots times offsetMs) (t + offsetMs) (answer.map (· + offsetMs)) := by
  cases answer with
  | none =>
    rintro slot ⟨b, hb, rfl⟩
    have hle := h b hb
    omega
  | some next =>
    obtain ⟨⟨hmem, hlt⟩, hleast⟩ := h
    refine ⟨⟨⟨next, hmem, rfl⟩, by dsimp only; omega⟩, ?_⟩
    rintro slot ⟨⟨b, hb, rfl⟩, hslot⟩
    have hle := hleast ⟨hb, by omega⟩
    dsimp only
    omega

theorem slots_zero (times : Set Int) : slots times 0 = times := by
  ext t
  constructor
  · rintro ⟨b, hb, rfl⟩
    rwa [add_zero]
  · intro ht
    exact ⟨t, ht, (add_zero t).symm⟩

/-- A whole second is the last one before the next second. -/
theorem previousIn_whole {b cut : Int} (hwhole : ∀ b ∈ times, 1000 ∣ b) (hb : b ∈ times)
    (hcut : (b + 1000) / 1000 * 1000 ≤ cut) (hle : cut ≤ b + 1000) (h : PreviousIn times cut answer) :
    answer = some b := by
  have hdvd := hwhole b hb
  -- the cut is the next second itself
  have hcut : cut = b + 1000 := by omega
  subst hcut
  cases answer with
  | none =>
    have hle := h b hb
    omega
  | some previous =>
    obtain ⟨⟨hmem, hlt⟩, hgreatest⟩ := h
    have hge : b ≤ previous := hgreatest ⟨hb, by omega⟩
    have hdvd' := hwhole previous hmem
    congr 1
    omega

/-! ## The library -/

/-- The library answers from one set of base times.  Backwards it looks from the time it is given, or
from the second of that time. -/
structure Enumerates (engine : CronEngine) (expr : String) (tz : Option String) (times : Set Int) :
    Prop where
  wholeSeconds : ∀ b ∈ times, 1000 ∣ b
  next : ∀ t, ∃ answer, engine.nextRun expr tz t = .ok answer ∧ NextIn times t answer
  previous : ∀ t, ∃ cut answer, t / 1000 * 1000 ≤ cut ∧ cut ≤ t ∧
    engine.previousRun expr tz t = .ok answer ∧ PreviousIn times cut answer

variable {S : Type} {engine : CronEngine} {expr : String} {tz : Option String} {staggerMs : Option Int}
  {job : CronJob S}

/-- The retries for a run that is not in the future are not needed. -/
theorem computeNextCronRunAtMs_nextIn (hlib : Enumerates engine expr tz times) (nowMs : Int) :
    ∃ answer, computeNextCronRunAtMs engine expr tz nowMs = .ok answer ∧ NextIn times nowMs answer := by
  obtain ⟨answer, hnext, hin⟩ := hlib.next nowMs
  refine ⟨answer, ?_, hin⟩
  rw [computeNextCronRunAtMs, hnext]
  cases answer with
  | none => rfl
  | some next =>
    have hlt : nowMs < next := hin.1.2
    simp [bind, Except.bind, pure, Except.pure, hlt]

/-- From a second later, a base time is the previous run. -/
theorem computePreviousRunAtMs_base (hlib : Enumerates engine expr tz times) {b : Int} (hb : b ∈ times) :
    computePreviousRunAtMs engine expr tz (b + 1000) = .ok (some b) := by
  obtain ⟨cut, answer, hlo, hhi, hprevious, hin⟩ := hlib.previous (b + 1000)
  rw [computePreviousRunAtMs, hprevious, previousIn_whole hlib.wholeSeconds hb hlo hhi hin]
  have hlt : b < b + 1000 := by omega
  simp [Except.map, hlt]

/-! ## Staggering -/

/-- The offset of a job with a cron schedule. -/
def cronOffsetMs (engine : CronEngine) (jobId expr : String) (staggerMs : Option Int) : Int :=
  resolveStableCronOffsetMs engine jobId (resolveCronStaggerMs engine expr staggerMs)

theorem cronOffsetMs_nonneg (engine : CronEngine) (jobId expr : String) (staggerMs : Option Int) :
    0 ≤ cronOffsetMs engine jobId expr staggerMs := by
  unfold cronOffsetMs resolveStableCronOffsetMs
  split
  · exact le_rfl
  · apply Int.emod_nonneg
    omega

theorem computeStaggeredCronNextRunAtMs_cron (hschedule : job.schedule = .cron expr tz staggerMs) (nowMs : Int) :
    computeStaggeredCronNextRunAtMs engine job nowMs =
      if cronOffsetMs engine job.id expr staggerMs ≤ 0 then computeNextCronRunAtMs engine expr tz nowMs
      else staggeredNextFrom engine expr tz (cronOffsetMs engine job.id expr staggerMs) nowMs 4
        (max 0 (nowMs - cronOffsetMs engine job.id expr staggerMs)) := by
  unfold computeStaggeredCronNextRunAtMs
  rw [hschedule]
  rfl

theorem isStaggeredCronRunAtMs_cron (hschedule : job.schedule = .cron expr tz staggerMs) (runAtMs : Int) :
    isStaggeredCronRunAtMs engine job runAtMs = (if cronOffsetMs engine job.id expr staggerMs ≤ 0 then
          computePreviousRunAtMs engine expr tz (runAtMs + 1000)
        else staggeredPreviousFrom engine expr tz (cronOffsetMs engine job.id expr staggerMs) (runAtMs + 1000) 4
          (max 0 (runAtMs + 1000 - cronOffsetMs engine job.id expr staggerMs))).map
        fun previous => decide (previous = some runAtMs) := by
  unfold isStaggeredCronRunAtMs computeStaggeredCronPreviousRunAtMs
  rw [hschedule]
  rfl

/-- The base times that the cursor reaches: all without an offset, else those after the epoch. -/
def reachedTimes (times : Set Int) (offsetMs : Int) : Set Int := {b | b ∈ times ∧ (offsetMs = 0 ∨ 0 < b)}

theorem NextIn.reached (hoffset : 0 < offsetMs) {nowMs : Int} (h : NextIn times (max 0 (nowMs - offsetMs)) answer) :
    NextIn (reachedTimes times offsetMs) (nowMs - offsetMs) answer := by
  cases answer with
  | none =>
    rintro b ⟨hb, hreached⟩
    have hle := h b hb
    omega
  | some next =>
    obtain ⟨⟨hmem, hlt⟩, hleast⟩ := h
    refine ⟨⟨⟨hmem, .inr (by omega)⟩, by omega⟩, ?_⟩
    rintro b ⟨⟨hb, hreached⟩, hafter⟩
    exact hleast ⟨hb, by omega⟩

/-- The next slot is the least one after now, and the first attempt finds it. -/
theorem computeStaggeredCronNextRunAtMs_nextIn (hschedule : job.schedule = .cron expr tz staggerMs)
    (hlib : Enumerates engine expr tz times) (nowMs : Int) :
    ∃ answer, computeStaggeredCronNextRunAtMs engine job nowMs = .ok answer ∧
      NextIn (slots (reachedTimes times (cronOffsetMs engine job.id expr staggerMs))
        (cronOffsetMs engine job.id expr staggerMs)) nowMs answer := by
  have hnonneg := cronOffsetMs_nonneg engine job.id expr staggerMs
  rw [computeStaggeredCronNextRunAtMs_cron hschedule]
  generalize cronOffsetMs engine job.id expr staggerMs = offsetMs at hnonneg ⊢
  rcases hnonneg.eq_or_lt with hzero | hpos
  · subst hzero
    have hall : reachedTimes times 0 = times := by
      ext b
      simp [reachedTimes]
    rw [if_pos le_rfl, hall, slots_zero]
    exact computeNextCronRunAtMs_nextIn hlib nowMs
  · obtain ⟨answer, hanswer, hin⟩ := computeNextCronRunAtMs_nextIn hlib (max 0 (nowMs - offsetMs))
    have hshift := (hin.reached hpos).shift offsetMs
    rw [sub_add_cancel] at hshift
    refine ⟨answer.map (· + offsetMs), ?_, hshift⟩
    rw [if_neg (by omega), staggeredNextFrom, hanswer]
    cases answer with
    | none => rfl
    | some baseNext =>
      have hlater : nowMs < baseNext + offsetMs := hshift.1.2
      simp [bind, Except.bind, pure, Except.pure, hlater]

/-- A slot whose base time is not before the epoch is recognised. -/
theorem isStaggeredCronRunAtMs_slot (hschedule : job.schedule = .cron expr tz staggerMs)
    (hlib : Enumerates engine expr tz times) {b : Int} (hb : b ∈ times)
    (hreached : cronOffsetMs engine job.id expr staggerMs = 0 ∨ 0 ≤ b) :
    isStaggeredCronRunAtMs engine job (b + cronOffsetMs engine job.id expr staggerMs) = .ok true := by
  have hnonneg := cronOffsetMs_nonneg engine job.id expr staggerMs
  rw [isStaggeredCronRunAtMs_cron hschedule]
  generalize cronOffsetMs engine job.id expr staggerMs = offsetMs at hnonneg hreached ⊢
  have hprevious := computePreviousRunAtMs_base hlib hb
  rcases hnonneg.eq_or_lt with hzero | hpos
  · subst hzero
    rw [if_pos le_rfl, add_zero, hprevious]
    simp [Except.map]
  · -- the probe, moved back by the offset, is a second after the base time
    have hcursor : max 0 (b + offsetMs + 1000 - offsetMs) = b + 1000 := by omega
    have hearlier : b + offsetMs ≤ b + offsetMs + 1000 := by omega
    rw [if_neg (by omega), hcursor, staggeredPreviousFrom, hprevious]
    simp [Except.map, bind, Except.bind, pure, Except.pure, hearlier]

/-! ## Repairs -/

/-- A slot that is recognised is not repaired. -/
theorem shouldRepair_of_isStaggered {slot : Int} (hslot : isStaggeredCronRunAtMs engine job slot = .ok true)
    (hnext : job.state.nextRunAtMs = some slot) (nowMs : Int) :
    shouldRepairFutureCronNextRunAtMs engine job nowMs = false := by
  unfold shouldRepairFutureCronNextRunAtMs
  split
  · rename_i nextRun _ hstored
    rw [hnext] at hstored
    cases hstored
    split
    · rw [shouldRepairFutureSlot, hslot]
      cases caught (computeStaggeredCronNextRunAtMs engine job nowMs) <;> simp
    · rfl
  · rfl

/-- **Staggered slots agree**: the next slot is the least one after now, it is recognised, and a genuine
slot is never moved. -/
theorem staggered_slots_agree (hschedule : job.schedule = .cron expr tz staggerMs)
    (hlib : Enumerates engine expr tz times) :
    (∀ nowMs, ∃ answer, computeStaggeredCronNextRunAtMs engine job nowMs = .ok answer ∧
      NextIn (slots (reachedTimes times (cronOffsetMs engine job.id expr staggerMs))
        (cronOffsetMs engine job.id expr staggerMs)) nowMs answer) ∧
    (∀ nowMs slot, computeStaggeredCronNextRunAtMs engine job nowMs = .ok (some slot) →
      isStaggeredCronRunAtMs engine job slot = .ok true) ∧
    ∀ nowMs, ∀ b ∈ times, cronOffsetMs engine job.id expr staggerMs = 0 ∨ 0 ≤ b →
      job.state.nextRunAtMs = some (b + cronOffsetMs engine job.id expr staggerMs) →
      shouldRepairFutureCronNextRunAtMs engine job nowMs = false := by
  refine ⟨computeStaggeredCronNextRunAtMs_nextIn hschedule hlib, ?_, ?_⟩
  · intro nowMs slot hslot
    obtain ⟨answer, hanswer, hin⟩ := computeStaggeredCronNextRunAtMs_nextIn hschedule hlib nowMs
    rw [hslot] at hanswer
    cases hanswer
    obtain ⟨⟨⟨b, ⟨hb, hreached⟩, rfl⟩, _⟩, _⟩ := hin
    exact isStaggeredCronRunAtMs_slot hschedule hlib hb (hreached.imp_right le_of_lt)
  · intro nowMs b hb hreached hnext
    exact shouldRepair_of_isStaggered (isStaggeredCronRunAtMs_slot hschedule hlib hb hreached) hnext nowMs

/-- The expression fires every second, and the offset of each job is half a second. -/
def everySecond : CronEngine where
  parseAbsoluteTimeMs := fun _ => none
  nextRun := fun _ _ t => .ok (some (t / 1000 * 1000 + 1000))
  previousRun := fun _ _ t => .ok (some ((t - 1) / 1000 * 1000))
  isRecurringTopOfHourCronExpr := fun _ => false
  digest := fun _ => 500
  firstBackoffMs := 30000
  laterBackoffMs := []

def everySecondJob : CronJob Unit where
  id := "a"
  name := "a"
  enabled := some true
  createdAtMs := none
  updatedAtMs := 0
  agentId := none
  sessionKey := none
  declarationKey := none
  schedule := .cron "* * * * * *" none (some 1000)
  payloadKind := .systemEvent
  state := { nextRunAtMs := some 2500 }
  spec := ()

theorem everySecond_enumerates : Enumerates everySecond "* * * * * *" none {b | 1000 ∣ b} where
  wholeSeconds := fun _ hb => hb
  next := by
    intro t
    refine ⟨_, rfl, ⟨?_, ?_⟩, ?_⟩
    · have hdvd : (1000 : Int) ∣ t / 1000 * 1000 + 1000 := by omega
      exact hdvd
    · omega
    · rintro b ⟨hb, hlt⟩
      have hb : (1000 : Int) ∣ b := hb
      omega
  previous := by
    intro t
    refine ⟨t, _, by omega, le_rfl, rfl, ⟨?_, ?_⟩, ?_⟩
    · exact Dvd.intro_left _ rfl
    · omega
    · rintro b ⟨hb, hlt⟩
      have hb : (1000 : Int) ∣ b := hb
      omega

theorem staggered_slots_agree_every_second :
    computeStaggeredCronNextRunAtMs everySecond everySecondJob 2000 = .ok (some 2500) ∧
      isStaggeredCronRunAtMs everySecond everySecondJob 2500 = .ok true ∧
      shouldRepairFutureCronNextRunAtMs everySecond everySecondJob 0 = false := by
  have hschedule : everySecondJob.schedule = .cron "* * * * * *" none (some 1000) := rfl
  have hagree := staggered_slots_agree hschedule everySecond_enumerates
  exact ⟨rfl, hagree.2.1 2000 2500 rfl, hagree.2.2 0 2000 (by decide) (.inr (by decide)) rfl⟩

/-- The slot half a second after the epoch is skipped. -/
theorem slot_of_epoch_skipped : computeStaggeredCronNextRunAtMs everySecond everySecondJob 0 = .ok (some 1500) ∧
      Enumerates everySecond "* * * * * *" none {b | 1000 ∣ b} ∧
      ¬ NextIn (slots {b | 1000 ∣ b} 500) 0 (some 1500) := by
  refine ⟨rfl, everySecond_enumerates, fun h => ?_⟩
  have hle : (1500 : Int) ≤ 500 := h.2 ⟨⟨0, dvd_zero _, by omega⟩, by omega⟩
  omega

end OpenClaw.Cron
