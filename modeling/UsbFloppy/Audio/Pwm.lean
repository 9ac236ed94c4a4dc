import Mathlib.Algebra.Order.Floor.Semiring
import Mathlib.Data.Rat.Floor
import UsbFloppy.Lib.Run
import UsbFloppy.Audio.Buzzer

/-! play_tone and the settings, write by write, on the attributes of the PWM channel. The volume
scale is an exact number here. -/

namespace UsbFloppy.Audio
open Transition

/-- What play_tone is called with. -/
def Frequency := {freq : ℕ // 1 ≤ freq ∧ freq ≤ 1000000000}

/-- `latest` is not in the code: the frequency of the latest play_tone, and the settings it read. -/
structure PwmBuzzer where
  buzzer : SysfsPWMBuzzer
  period : ℕ
  dutyCycle : ℕ
  latest : Option (Frequency × SysfsPWMBuzzer)

inductive PwmWrite
  | enable (on : Bool)
  | period (ns : ℕ)
  | dutyCycle (ns : ℕ)

inductive PwmCall
  | playTone (freq : Frequency) (volumeScale : ℚ)
  | silence
  | setVolume (volume : ℤ)
  | setMute (mute : Bool)
  | setEnabled (enabled : Bool)

def periodNs (freq : Frequency) : ℕ := 1000000000 / freq.1

def SysfsPWMBuzzer.effectiveVolume (b : SysfsPWMBuzzer) (volumeScale : ℚ) : ℚ :=
  max 0 (min 1 volumeScale) * b.volume

def SysfsPWMBuzzer.dutyNs (b : SysfsPWMBuzzer) (freq : Frequency) (volumeScale : ℚ) : ℕ :=
  min (periodNs freq) ⌊periodNs freq * b.effectiveVolume volumeScale / 200⌋₊

/-- The tone is played, and not silence. -/
def SysfsPWMBuzzer.Plays (b : SysfsPWMBuzzer) (volumeScale : ℚ) : Prop :=
  b.mute = false ∧ b.enabled = true ∧ 0 < b.effectiveVolume volumeScale

instance (b : SysfsPWMBuzzer) (volumeScale : ℚ) : Decidable (b.Plays volumeScale) :=
  inferInstanceAs (Decidable (_ ∧ _))

namespace PwmBuzzer

def write (s : PwmBuzzer) : PwmWrite → PwmBuzzer
  | .enable on => { s with buzzer := { s.buzzer with pwmEnable := on } }
  | .period ns => { s with period := ns }
  | .dutyCycle ns => { s with dutyCycle := ns }

/-- What a call does before its first write. -/
def prepare (s : PwmBuzzer) : PwmCall → PwmBuzzer
  | .playTone freq _ => { s with latest := some (freq, s.buzzer) }
  | .silence => s
  | .setVolume volume => { s with buzzer := s.buzzer.setVolume volume }
  | .setMute mute => { s with buzzer := { s.buzzer with mute := mute } }
  | .setEnabled enabled => { s with buzzer := { s.buzzer with enabled := enabled } }

def writes (b : SysfsPWMBuzzer) : PwmCall → List PwmWrite
  | .playTone freq volumeScale =>
    if b.Plays volumeScale then
      [.enable false, .period (periodNs freq), .dutyCycle (b.dutyNs freq volumeScale), .enable true]
    else [.enable false]
  | .silence => [.enable false]
  | .setVolume _ => []
  | .setMute mute => if mute then [.enable false] else []
  | .setEnabled enabled => if enabled then [] else [.enable false]

def step (s : PwmBuzzer) (c : PwmCall) : PwmBuzzer := run write (s.prepare c) (writes s.buzzer c)

/-- The channel is off and nothing was written to it. -/
def init (volume : ℤ) (mute enabled : Bool) : PwmBuzzer := ⟨.init volume mute enabled false, 0, 0, none⟩

/-- What is promised of the channel. -/
structure Sound (s : PwmBuzzer) : Prop where
  duty : s.dutyCycle ≤ s.period
  tone : s.buzzer.pwmEnable = true → ∃ freq b, s.latest = some (freq, b) ∧
    s.period = periodNs freq ∧ b.mute = false ∧ b.enabled = true ∧ 0 < b.volume

/-- The promise holds after every write of the call, and at its end. -/
def Observed (s : PwmBuzzer) (c : PwmCall) : Prop :=
  AfterEach write Sound (s.prepare c) (writes s.buzzer c) ∧ (s.step c).Sound

/-- A tone that is played has a period that the duty cycle left by the tone before it fits in. -/
def FitsPeriod (s : PwmBuzzer) : PwmCall → Prop
  | .playTone freq volumeScale => s.buzzer.Plays volumeScale → s.dutyCycle ≤ periodNs freq
  | _ => True

variable {s : PwmBuzzer}

/-- The calls do to the settings what they do without a channel. -/
theorem step_settings (s : PwmBuzzer) (volume : ℤ) (mute enabled : Bool) :
    (s.step .silence).buzzer = s.buzzer.silence false ∧
      (s.step (.setVolume volume)).buzzer = s.buzzer.setVolume volume ∧
      (s.step (.setMute mute)).buzzer = s.buzzer.setMute mute false ∧
      (s.step (.setEnabled enabled)).buzzer = s.buzzer.setEnabled enabled false := by
  refine ⟨rfl, rfl, ?_, ?_⟩
  · cases mute <;> rfl
  · cases enabled <;> rfl

theorem Sound.off (h : s.dutyCycle ≤ s.period) : (s.write (.enable false)).Sound :=
  ⟨h, fun hon => by cases hon⟩

theorem volume_pos {b : SysfsPWMBuzzer} {volumeScale : ℚ} (h : 0 < b.effectiveVolume volumeScale) :
    0 < b.volume := by
  by_contra hle
  have hvolume : (b.volume : ℚ) ≤ 0 := by exact_mod_cast not_lt.mp hle
  have hscale : (0 : ℚ) ≤ max 0 (min 1 volumeScale) := le_max_left _ _
  exact absurd h (not_lt.mpr (mul_nonpos_of_nonneg_of_nonpos hscale hvolume))

theorem observed_iff (h : s.Sound) (c : PwmCall) : s.Observed c ↔ s.FitsPeriod c := by
  have hoff : (s.write (.enable false)).Sound := .off h.duty
  cases c with
  | playTone freq volumeScale =>
    unfold Observed FitsPeriod step
    by_cases hplays : s.buzzer.Plays volumeScale
    · have hwrites : writes s.buzzer (.playTone freq volumeScale) = [.enable false,
          .period (periodNs freq), .dutyCycle (s.buzzer.dutyNs freq volumeScale), .enable true] :=
        if_pos hplays
      rw [hwrites]
      constructor
      · rintro ⟨⟨-, hperiod, -⟩, -⟩ _
        exact hperiod.duty
      · intro hfits
        have hend : (((((s.prepare (.playTone freq volumeScale)).write (.enable false)).write
            (.period (periodNs freq))).write (.dutyCycle (s.buzzer.dutyNs freq volumeScale))).write
            (.enable true)).Sound := by
          refine ⟨min_le_left _ _, fun _ => ⟨freq, s.buzzer, rfl, rfl, hplays.1, hplays.2.1, ?_⟩⟩
          exact volume_pos hplays.2.2
        refine ⟨⟨⟨h.duty, fun hon => by cases hon⟩, ⟨hfits hplays, fun hon => by cases hon⟩,
          ⟨min_le_left _ _, fun hon => by cases hon⟩, hend, trivial⟩, hend⟩
    · have hwrites : writes s.buzzer (.playTone freq volumeScale) = [.enable false] := if_neg hplays
      rw [hwrites]
      have hquiet : ((s.prepare (.playTone freq volumeScale)).write (.enable false)).Sound :=
        .off h.duty
      exact iff_of_true ⟨⟨hquiet, trivial⟩, hquiet⟩ fun hno => absurd hno hplays
  | silence => exact iff_of_true ⟨⟨hoff, trivial⟩, hoff⟩ trivial
  | setVolume volume => exact iff_of_true ⟨trivial, h.duty, h.tone⟩ trivial
  | setMute mute =>
    refine iff_of_true ?_ trivial
    have hquiet : ((s.prepare (.setMute mute)).write (.enable false)).Sound := .off h.duty
    cases mute with
    | true => exact ⟨⟨hquiet, trivial⟩, hquiet⟩
    | false => exact ⟨trivial, h.duty, h.tone⟩
  | setEnabled enabled =>
    refine iff_of_true ?_ trivial
    have hquiet : ((s.prepare (.setEnabled enabled)).write (.enable false)).Sound := .off h.duty
    cases enabled with
    | true => exact ⟨trivial, h.duty, h.tone⟩
    | false => exact ⟨⟨hquiet, trivial⟩, hquiet⟩

theorem sound_init (volume : ℤ) (mute enabled : Bool) : (init volume mute enabled).Sound :=
  ⟨le_rfl, fun hon => by cases hon⟩

/-- The promise holds after every write of a run of calls exactly if each tone that is played
has a period which the duty cycle before it fits in. -/
theorem pwm_sound_iff (volume : ℤ) (mute enabled : Bool) (calls : List PwmCall) :
    Guarded step Observed (init volume mute enabled) calls ↔
      Guarded step FitsPeriod (init volume mute enabled) calls := by
  have hkeeps : ∀ (s : PwmBuzzer) c, s.Sound → s.FitsPeriod c → (s.step c).Sound := fun s c h hfits =>
    ((observed_iff h c).mpr hfits).2
  constructor
  · intro h
    exact guarded_invariant (fun _ _ _ hobserved => hobserved.2)
      (fun s c h hobserved => (observed_iff h c).mp hobserved) (sound_init volume mute enabled) h
  · intro h
    exact guarded_invariant hkeeps (fun s c h hfits => (observed_iff h c).mpr hfits)
      (sound_init volume mute enabled) h

/-- Two tones at full volume, the second an octave higher and more. -/
def risingTones : List PwmCall :=
  [.playTone ⟨1000, by decide⟩ 1, .playTone ⟨4000, by decide⟩ 1]

/-- The second period is written while the first duty cycle, twice as long, is in place. -/
theorem rising_tone_exceeds_period :
    ¬ ∀ (volume : ℤ) (mute enabled : Bool) (calls : List PwmCall),
      Guarded step Observed (init volume mute enabled) calls := by
  intro h
  obtain ⟨-, ⟨hwrites, -⟩, -⟩ := h 100 false true risingTones
  have hfirst : ((init 100 false true).step (.playTone ⟨1000, by decide⟩ 1)).dutyCycle = 500000 := by
    decide +kernel
  have hplays : ((init 100 false true).step (.playTone ⟨1000, by decide⟩ 1)).buzzer.Plays 1 := by
    decide +kernel
  generalize (init 100 false true).step (.playTone ⟨1000, by decide⟩ 1) = s at hwrites hfirst hplays
  have hlist : writes s.buzzer (.playTone ⟨4000, by decide⟩ 1) = [.enable false,
      .period (periodNs ⟨4000, by decide⟩), .dutyCycle (s.buzzer.dutyNs ⟨4000, by decide⟩ 1),
      .enable true] := if_pos hplays
  rw [hlist] at hwrites
  have hduty : s.dutyCycle ≤ 1000000000 / 4000 := hwrites.2.1.duty
  rw [hfirst] at hduty
  exact absurd hduty (by decide)

end PwmBuzzer

end UsbFloppy.Audio
