import UsbFloppy.Kernel.Basic
import UsbFloppy.Kernel.IoEvents

/-! The rate limiter of floppy_throttle.c. A hook returns the new state together with
the calls of `usleep_range` it makes. -/

namespace UsbFloppy.Kernel

/-- `struct floppy_throttle_state`, without its spinlock. -/
structure FloppyThrottleState where
  readKbps : UInt32
  writeKbps : UInt32
  seekUs : UInt32
  lastTrack : UInt32
  deriving DecidableEq, Repr

structure FloppyThrottlePreset where
  name : Text
  readKbps : UInt32
  writeKbps : UInt32
  seekUs : UInt32
  deriving DecidableEq, Repr

/-- The first entry of `PRESETS`, the boot default. -/
def floppyReal : FloppyThrottlePreset := ⟨"floppy-real".toList, 50, 30, 6000⟩

/-- `PRESETS`. -/
def presets : List FloppyThrottlePreset :=
  [floppyReal, ⟨"floppy-fast".toList, 200, 200, 500⟩, ⟨"unthrottled".toList, 0, 0, 0⟩]

/-- Not the track of any sector: the first request always seeks. -/
def noTrack : UInt32 := ~~~0

def floppyThrottleInit : FloppyThrottleState where
  readKbps := floppyReal.readKbps
  writeKbps := floppyReal.writeKbps
  seekUs := floppyReal.seekUs
  lastTrack := noTrack

def FloppyThrottleState.apply (st : FloppyThrottleState) (p : FloppyThrottlePreset) :
    FloppyThrottleState :=
  { st with readKbps := p.readKbps, writeKbps := p.writeKbps, seekUs := p.seekUs }

/-- `floppy_throttle_set_preset`. The length test also catches the negative result of
`strscpy`, which is huge as a `size_t`. -/
def floppyThrottleSetPreset (st : FloppyThrottleState) (name : Text) :
    Except Errno FloppyThrottleState :=
  let (n, clean) := strscpy 32 name
  if sizeT n ≥ 32 - 1 then .error .EINVAL
  else
    match presets.find? fun p => p.name = clean.takeWhile (· ≠ '\n') with
    | some p => .ok (st.apply p)
    | none => .error .EINVAL

/-- The bounds given to `usleep_range`, where the code calls it. -/
structure IoDelay where
  seek : Option (UInt32 × UInt32)
  transfer : Option (UInt32 × UInt32)
  deriving DecidableEq, Repr

/-- The transfer time in microseconds. -/
def ioUs (nblocks kbps : UInt32) : UInt32 := nblocks * 512 * 1000 / (kbps * 1024 / 1000 + 1)

def applyIoDelay (st : FloppyThrottleState) (lba nblocks kbps : UInt32) :
    FloppyThrottleState × IoDelay :=
  if kbps = 0 ∧ st.seekUs = 0 then (st, ⟨none, none⟩)
  else
    let track := lba / sectorsPerTrack
    let needSeek := track ≠ st.lastTrack ∧ st.seekUs > 0
    let us := ioUs nblocks kbps
    ({ st with lastTrack := track },
      { seek := if needSeek then some (st.seekUs, st.seekUs + 500) else none
        transfer :=
          if kbps > 0 ∧ nblocks > 0 ∧ us > 0 then some (us, us + us / 10 + 1) else none })

def floppyThrottleOnRead (st : FloppyThrottleState) (lba nblocks : UInt32) :
    FloppyThrottleState × IoDelay := applyIoDelay st lba nblocks st.readKbps

def floppyThrottleOnWrite (st : FloppyThrottleState) (lba nblocks : UInt32) :
    FloppyThrottleState × IoDelay := applyIoDelay st lba nblocks st.writeKbps

/-- The hook of the request's direction. -/
def floppyThrottleOn (st : FloppyThrottleState) (r : IoRequest) :
    FloppyThrottleState × IoDelay :=
  if r.isWrite then floppyThrottleOnWrite st r.lba r.nblocks
  else floppyThrottleOnRead st r.lba r.nblocks

/-- While seeks cost time a request sleeps for one exactly when it starts on another
track than the last throttled request did. -/
theorem floppyThrottleOn_seek_isSome {st : FloppyThrottleState} (hseek : 0 < st.seekUs)
    (r : IoRequest) :
    (floppyThrottleOn st r).2.seek.isSome ↔ startTrack r.lba ≠ st.lastTrack := by
  have hne : st.seekUs ≠ 0 := UInt32.pos_iff_ne_zero.mp hseek
  unfold floppyThrottleOn floppyThrottleOnWrite floppyThrottleOnRead applyIoDelay startTrack
  split_ifs with hw h h <;> simp_all

end UsbFloppy.Kernel
