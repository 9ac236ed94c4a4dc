import Mathlib.Data.Int.Notation

/-! The settings of SysfsPWMBuzzer, of buzzer.py. -/

namespace UsbFloppy.Audio

/-- `pwmEnable` is the attribute `enable` of the PWM channel. -/
structure SysfsPWMBuzzer where
  volume : ℤ
  mute : Bool
  enabled : Bool
  pwmEnable : Bool
  deriving DecidableEq, Repr

def clampVolume (volume : ℤ) : ℤ := max 0 (min 100 volume)

namespace SysfsPWMBuzzer

/-- `__init__`, which leaves the PWM channel alone. -/
def init (volume : ℤ) (mute enabled pwmEnable : Bool) : SysfsPWMBuzzer :=
  ⟨clampVolume volume, mute, enabled, pwmEnable⟩

variable (b : SysfsPWMBuzzer)

/-- Whether the write raises an OSError is `fails`. -/
def silence (fails : Bool) : SysfsPWMBuzzer := if fails then b else { b with pwmEnable := false }

def setVolume (volume : ℤ) : SysfsPWMBuzzer := { b with volume := clampVolume volume }

/-- The field is set before `silence` may raise. -/
def setMute (mute fails : Bool) : SysfsPWMBuzzer :=
  let b := { b with mute := mute }
  if mute then b.silence fails else b

def setEnabled (enabled fails : Bool) : SysfsPWMBuzzer :=
  let b := { b with enabled := enabled }
  if enabled then b else b.silence fails

end SysfsPWMBuzzer

end UsbFloppy.Audio
