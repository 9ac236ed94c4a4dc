import Mathlib.Data.Rat.Defs
import UsbFloppy.Lib.Run
import UsbFloppy.Audio.StateMachine

/-! SoundRenderer of renderer.py, and the tick of AudioLoop that puts a detector in front of
it. Times are in microseconds. -/

namespace UsbFloppy.Audio
open Transition

inductive BuzzerCall
  | playTone (freqHz : ℤ) (volumeScale : ℚ)
  | silence
  deriving DecidableEq

/-- What the renderer does, in order. -/
inductive RenderAction
  | buzzer (call : BuzzerCall)
  | sleep (us : ℤ)
  deriving DecidableEq

structure SoundRenderer where
  clickHz : ℤ
  clickDurationUs : ℤ
  activityHz : ℤ
  activityDurationUs : ℤ
  activityVolumeScale : ℚ
  motorSpinVolumeScale : ℚ

def jitter (seed index width : ℤ) : ℤ := (seed + index * 1103515245 + 12345).land 0x7FFFFFFF % width

/-- Python's `a or b` on numbers. -/
def orElse (a b : ℤ) : ℤ := if a = 0 then b else a

def pulse (freqHz durationUs : ℤ) (volumeScale : ℚ) : List RenderAction :=
  [.buzzer (.playTone freqHz volumeScale), .sleep durationUs, .buzzer .silence]

namespace SoundRenderer

variable (r : SoundRenderer)

def seekHz (base seed index : ℤ) : ℤ := max 1300 (min 1900 (base + (jitter seed index 601 - 300)))

def seekDuration (seed index : ℤ) : ℤ :=
  if r.clickDurationUs = 0 then 0 else 400 + jitter (seed.xor 0x5A5A) index 501

def activityTickHz (base seed : ℤ) : ℤ :=
  max 700 (min 1100 (base + (jitter (seed.xor 0xA5A5) 0 401 - 200)))

def motorSpinHz (base seed index : ℤ) : ℤ :=
  max 750 (min 1250 (base + index * 90 + (jitter (seed.xor 0x3333) index 151 - 75)))

/-- The pulses of a loop over `clicks`, with a sleep after all but the last. -/
def burst (clicks : ℕ) (spacingUs : ℤ) (freqHz durationUs : ℤ → ℤ) (volumeScale : ℚ) :
    List RenderAction :=
  (List.range clicks).flatMap fun i : ℕ =>
    pulse (freqHz i) (durationUs i) volumeScale ++
      if i ≠ clicks - 1 then [.sleep (max 0 (max 0 spacingUs - durationUs i))] else []

def render (cmd : SoundCommand) : List RenderAction :=
  match cmd.kind with
  | .stepClick | .seekBurst =>
    burst (max 1 (orElse cmd.clicks 1)).toNat cmd.spacingUs
      (seekHz (orElse cmd.baseHz r.clickHz) cmd.jitterSeed) (r.seekDuration cmd.jitterSeed) 1
  | .activityTick =>
    pulse (activityTickHz (orElse cmd.baseHz r.activityHz) cmd.jitterSeed) r.activityDurationUs
      r.activityVolumeScale
  | .motorSpin =>
    burst (max 1 (orElse cmd.clicks 3)).toNat cmd.spacingUs
      (motorSpinHz (orElse cmd.baseHz r.activityHz) cmd.jitterSeed) (fun i => 900 + i * 150)
      r.motorSpinVolumeScale
  -- fails closed
  | .silence => [.buzzer .silence]

end SoundRenderer

/-! ### Pulses -/

def buzzerCalls (actions : List RenderAction) : List BuzzerCall :=
  actions.filterMap fun
    | .buzzer call => some call
    | .sleep _ => none

/-- How many pulses the calls are: each tone is silenced by the next call. -/
def pulses : List BuzzerCall → Option ℕ
  | [] => some 0
  | .silence :: calls => pulses calls
  | .playTone _ _ :: .silence :: calls => (pulses calls).map (· + 1)
  | .playTone _ _ :: _ => none

def endsSilent (actions : List RenderAction) : Prop :=
  (buzzerCalls actions).getLast? = some .silence

theorem buzzerCalls_append (as bs : List RenderAction) :
    buzzerCalls (as ++ bs) = buzzerCalls as ++ buzzerCalls bs := List.filterMap_append

theorem pulses_append {as bs : List BuzzerCall} {m n : ℕ} (ha : pulses as = some m)
    (hb : pulses bs = some n) : pulses (as ++ bs) = some (m + n) := by
  fun_induction pulses as generalizing m with
  | case1 =>
    cases ha
    rw [List.nil_append, hb, Nat.zero_add]
  | case2 calls ih => exact ih ha
  | case3 f v calls ih =>
    obtain ⟨k, hk, rfl⟩ := Option.map_eq_some_iff.mp ha
    rw [List.cons_append, List.cons_append, pulses, ih hk, Option.map_some, Nat.add_right_comm]
  | case4 => cases ha

theorem endsSilent_append (as : List RenderAction) {bs : List RenderAction} (h : endsSilent bs) :
    endsSilent (as ++ bs) := by
  have hne : buzzerCalls bs ≠ [] := by
    intro hnil
    rw [endsSilent, hnil] at h
    cases h
  rw [endsSilent, buzzerCalls_append, List.getLast?_append_of_ne_nil _ hne]
  exact h

/-- Actions that are one pulse each are as many pulses as there are. -/
theorem pulses_flatMap {f : ℕ → List RenderAction} (hf : ∀ i, pulses (buzzerCalls (f i)) = some 1)
    (l : List ℕ) : pulses (buzzerCalls (l.flatMap f)) = some l.length := by
  induction l with
  | nil => rfl
  | cons i l ih =>
    rw [List.flatMap_cons, buzzerCalls_append, pulses_append (hf i) ih, List.length_cons, Nat.add_comm]

theorem endsSilent_flatMap {f : ℕ → List RenderAction} (hf : ∀ i, endsSilent (f i)) {l : List ℕ}
    (hl : l ≠ []) : endsSilent (l.flatMap f) := by
  rw [← List.dropLast_append_getLast hl, List.flatMap_append, List.flatMap_singleton]
  exact endsSilent_append _ (hf _)

namespace SoundRenderer

theorem burst_pulses (clicks : ℕ) (spacingUs : ℤ) (freqHz durationUs : ℤ → ℤ) (volumeScale : ℚ) :
    pulses (buzzerCalls (burst clicks spacingUs freqHz durationUs volumeScale)) = some clicks := by
  have hclick := pulses_flatMap (f := fun i => pulse (freqHz i) (durationUs i) volumeScale ++
      if i ≠ clicks - 1 then [.sleep (max 0 (max 0 spacingUs - durationUs i))] else []) (fun i => by
    split_ifs <;> rfl) (List.range clicks)
  rw [List.length_range] at hclick
  rw [burst]
  exact hclick

theorem burst_endsSilent {clicks : ℕ} (hclicks : 0 < clicks) (spacingUs : ℤ)
    (freqHz durationUs : ℤ → ℤ) (volumeScale : ℚ) :
    endsSilent (burst clicks spacingUs freqHz durationUs volumeScale) := by
  rw [burst]
  apply endsSilent_flatMap
  · intro i
    split_ifs <;> rfl
  · intro hnil
    rw [List.range_eq_nil] at hnil
    omega

variable (r : SoundRenderer)

theorem render_endsSilent (cmd : SoundCommand) : endsSilent (r.render cmd) := by
  have hpos : ∀ n : ℤ, 0 < (max 1 n).toNat := fun n => by omega
  unfold render
  split
  · exact burst_endsSilent (hpos _) _ _ _ _
  · exact burst_endsSilent (hpos _) _ _ _ _
  · rfl
  · exact burst_endsSilent (hpos _) _ _ _ _
  · rfl

theorem render_pulses (cmd : SoundCommand) : ∃ n, pulses (buzzerCalls (r.render cmd)) = some n := by
  unfold render
  split
  · exact ⟨_, burst_pulses _ _ _ _ _⟩
  · exact ⟨_, burst_pulses _ _ _ _ _⟩
  · exact ⟨1, rfl⟩
  · exact ⟨_, burst_pulses _ _ _ _ _⟩
  · exact ⟨0, rfl⟩

theorem render_seek {cmd : SoundCommand} (hkind : cmd.kind = .seekBurst) (hclicks : 1 ≤ cmd.clicks) :
    pulses (buzzerCalls (r.render cmd)) = some cmd.clicks.toNat := by
  have hcount : max 1 (orElse cmd.clicks 1) = cmd.clicks := by
    rw [orElse, if_neg (by omega)]
    omega
  unfold render
  rw [hkind]
  dsimp only
  rw [hcount]
  exact burst_pulses _ _ _ _ _

end SoundRenderer

end UsbFloppy.Audio
