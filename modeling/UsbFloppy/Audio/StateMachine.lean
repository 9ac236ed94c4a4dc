import Mathlib.Data.Int.Bitwise
import Mathlib.Tactic.SplitIfs

/-! FloppyStepDetector of state_machine.py: one sound command from each snapshot of the
kernel's counters. -/

namespace UsbFloppy.Audio

/-- `IOEvent`. -/
structure IOEvent where
  counter : ℤ
  lastLba : ℤ
  lastIsWrite : Bool
  lastUs : ℤ
  trackCrossings : ℤ
  deriving DecidableEq, Repr

inductive SoundKind
  | silence
  | stepClick
  | seekBurst
  | motorSpin
  | activityTick
  deriving DecidableEq, Repr

structure SoundCommand where
  kind : SoundKind
  clicks : ℤ
  spacingUs : ℤ
  baseHz : ℤ
  jitterSeed : ℤ
  deriving DecidableEq, Repr

def defaultMinClickSpacingUs : ℤ := 2700
def defaultSeekSpacingUs : ℤ := 6000
def defaultMaxBurstClicks : ℤ := 10
def defaultActivityIntervalUs : ℤ := 80000
def defaultMotorIdleUs : ℤ := 250000

namespace SoundCommand

def silence : SoundCommand := ⟨.silence, 0, 0, 0, 0⟩

def seekBurst (clicks spacingUs jitterSeed : ℤ) : SoundCommand :=
  ⟨.seekBurst, max 0 clicks, max defaultMinClickSpacingUs spacingUs, 0, jitterSeed⟩

def activityTick (jitterSeed : ℤ) : SoundCommand := ⟨.activityTick, 1, 0, 1100, jitterSeed⟩

def motorSpin (jitterSeed : ℤ) : SoundCommand :=
  ⟨.motorSpin, max 1 3, max defaultMinClickSpacingUs 5000, 900, jitterSeed⟩

end SoundCommand

structure FloppyStepDetector where
  seekSpacingUs : ℤ
  minClickSpacingUs : ℤ
  maxBurst : ℤ
  activityIntervalUs : ℤ
  motorIdleUs : ℤ
  lastCrossings : Option ℤ
  lastCounter : Option ℤ
  lastActivityUs : ℤ
  lastIoUs : ℤ
  deriving DecidableEq, Repr

/-- `__init__`. The last two arguments are compatibility names, which win if given. -/
def FloppyStepDetector.init (seekSpacingUs minClickSpacingUs maxBurstClicks activityIntervalUs
    motorIdleUs : ℤ) (clickMaskUs maxPendingClicks : Option ℤ) : FloppyStepDetector where
  seekSpacingUs := max (clickMaskUs.getD minClickSpacingUs) seekSpacingUs
  minClickSpacingUs := clickMaskUs.getD minClickSpacingUs
  maxBurst := maxPendingClicks.getD maxBurstClicks
  activityIntervalUs := activityIntervalUs
  motorIdleUs := motorIdleUs
  lastCrossings := none
  lastCounter := none
  lastActivityUs := -10 ^ 9
  lastIoUs := -10 ^ 9

/-- `(a ^ b ^ c) & 0xFFFF`. -/
def jitterSeed (a b c : ℤ) : ℤ := ((a.xor b).xor c).land 0xFFFF

variable (d : FloppyStepDetector) (event : IOEvent) (nowUs : ℤ)

/-- The counters are seen. -/
def FloppyStepDetector.observe : FloppyStepDetector :=
  { d with lastCrossings := some event.trackCrossings, lastCounter := some event.counter }

/-- What is heard of I/O that crosses no track. -/
def FloppyStepDetector.activity : SoundCommand × FloppyStepDetector :=
  let seed := jitterSeed nowUs event.counter event.lastLba
  let wasIdle := nowUs - d.lastIoUs ≥ d.motorIdleUs
  let d := { d with lastIoUs := nowUs }
  if wasIdle then (.motorSpin seed, { d with lastActivityUs := nowUs })
  else if nowUs - d.lastActivityUs < d.activityIntervalUs then (.silence, d)
  else (.activityTick seed, { d with lastActivityUs := nowUs })

def FloppyStepDetector.tick : SoundCommand × FloppyStepDetector :=
  match d.lastCrossings with
  -- the first observation is the baseline
  | none => (.silence, d.observe event)
  | some lastCrossings =>
    let delta := event.trackCrossings - lastCrossings
    let counterDelta := event.counter - d.lastCounter.getD event.counter
    let d := d.observe event
    if delta > 0 then
      (.seekBurst (min delta d.maxBurst) (max d.seekSpacingUs d.minClickSpacingUs)
        (jitterSeed nowUs event.lastLba event.trackCrossings), { d with lastIoUs := nowUs })
    else if counterDelta > 0 then d.activity event nowUs
    else (.silence, d)

/-! ### What a tick keeps and what it answers -/

variable {d event nowUs}

theorem FloppyStepDetector.tick_lastCrossings :
    (d.tick event nowUs).2.lastCrossings = some event.trackCrossings := by
  unfold FloppyStepDetector.tick FloppyStepDetector.activity
  split
  · rfl
  · dsimp only
    split_ifs <;> rfl

theorem FloppyStepDetector.tick_lastCounter :
    (d.tick event nowUs).2.lastCounter = some event.counter := by
  unfold FloppyStepDetector.tick FloppyStepDetector.activity
  split
  · rfl
  · dsimp only
    split_ifs <;> rfl

theorem FloppyStepDetector.tick_maxBurst : (d.tick event nowUs).2.maxBurst = d.maxBurst := by
  unfold FloppyStepDetector.tick FloppyStepDetector.activity
  split
  · rfl
  · dsimp only
    split_ifs <;> rfl

variable (event nowUs) in
theorem FloppyStepDetector.tick_baseline (h : d.lastCrossings = none) :
    (d.tick event nowUs).1 = .silence := by
  unfold FloppyStepDetector.tick
  rw [h]

variable (nowUs) in
theorem FloppyStepDetector.tick_seek {last : ℤ} (h : d.lastCrossings = some last)
    (hdelta : last < event.trackCrossings) :
    (d.tick event nowUs).1.kind = .seekBurst ∧
      (d.tick event nowUs).1.clicks = max 0 (min (event.trackCrossings - last) d.maxBurst) := by
  unfold FloppyStepDetector.tick
  rw [h]
  dsimp only
  rw [if_pos (Int.sub_pos_of_lt hdelta)]
  exact ⟨rfl, rfl⟩

variable (nowUs) in
theorem FloppyStepDetector.tick_no_seek {last : ℤ} (h : d.lastCrossings = some last)
    (hdelta : event.trackCrossings ≤ last) :
    (d.tick event nowUs).1.kind = .silence ∨ (d.tick event nowUs).1.kind = .motorSpin ∨
      (d.tick event nowUs).1.kind = .activityTick := by
  have hnone : ¬ event.trackCrossings - last > 0 := by omega
  unfold FloppyStepDetector.tick FloppyStepDetector.activity
  rw [h]
  dsimp only
  rw [if_neg hnone]
  split_ifs
  · exact Or.inr (Or.inl rfl)
  · exact Or.inl rfl
  · exact Or.inr (Or.inr rfl)
  · exact Or.inl rfl

variable (d event nowUs) in
/-- The tick has only new blocks to make a sound of, and is not too early for one. -/
def FloppyStepDetector.HearsBlocks : Prop :=
  (∃ last ∈ d.lastCrossings, event.trackCrossings ≤ last) ∧
    d.lastCounter.getD event.counter < event.counter ∧
    (d.motorIdleUs ≤ nowUs - d.lastIoUs ∨ d.activityIntervalUs ≤ nowUs - d.lastActivityUs)

instance : Decidable (d.HearsBlocks event nowUs) :=
  inferInstanceAs (Decidable ((∃ last ∈ d.lastCrossings, event.trackCrossings ≤ last) ∧
    d.lastCounter.getD event.counter < event.counter ∧
    (d.motorIdleUs ≤ nowUs - d.lastIoUs ∨ d.activityIntervalUs ≤ nowUs - d.lastActivityUs)))

theorem FloppyStepDetector.tick_sound {last : ℤ} (h : d.lastCrossings = some last)
    (hdelta : event.trackCrossings ≤ last) (hsound : (d.tick event nowUs).1.kind ≠ .silence) :
    d.HearsBlocks event nowUs := by
  have hnone : ¬ event.trackCrossings - last > 0 := by omega
  unfold FloppyStepDetector.tick FloppyStepDetector.activity at hsound
  rw [h] at hsound
  dsimp only at hsound
  rw [if_neg hnone] at hsound
  refine ⟨⟨last, h, hdelta⟩, ?_⟩
  split_ifs at hsound with hblocks hidle hearly
  · exact ⟨by omega, Or.inl hidle⟩
  · exact absurd rfl hsound
  · exact ⟨by omega, Or.inr (Int.not_lt.mp hearly)⟩
  · exact absurd rfl hsound

end UsbFloppy.Audio
