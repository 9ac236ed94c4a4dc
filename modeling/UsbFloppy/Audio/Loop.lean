import Mathlib.Algebra.Order.Ring.Int
import UsbFloppy.Lib.Run
import UsbFloppy.Audio.Renderer

/-! AudioLoop of loop.py: a snapshot goes through the detector, its command through the
renderer. -/

namespace UsbFloppy.Audio
open Transition

/-- `played` are the commands so far, with what the renderer did for each. -/
structure AudioLoop where
  sm : FloppyStepDetector
  renderer : SoundRenderer
  played : List (SoundCommand × List RenderAction)

def AudioLoop.tick (loop : AudioLoop) : IOEvent × ℤ → AudioLoop
  | (evt, nowUs) =>
    let (cmd, sm) := loop.sm.tick evt nowUs
    { loop with sm := sm, played := loop.played ++ [(cmd, loop.renderer.render cmd)] }

namespace AudioLoop

variable (loop : AudioLoop)

def calls : List BuzzerCall := loop.played.flatMap fun p => buzzerCalls p.2

/-- The calls made for seek bursts. -/
def seekCalls : List BuzzerCall :=
  loop.played.flatMap fun p => if p.1.kind = .seekBurst then buzzerCalls p.2 else []

def LastCallSilent : Prop := loop.calls.getLast? = some .silence

end AudioLoop

/-- The clicks that the counts of crossings ask for, neighbour by neighbour. -/
def clicksDue (maxBurst : ℤ) : List ℤ → ℤ
  | c :: c' :: cs => min (max 0 (c' - c)) maxBurst + clicksDue maxBurst (c' :: cs)
  | _ => 0

theorem clicksDue_nonneg {maxBurst : ℤ} (hcap : 1 ≤ maxBurst) (cs : List ℤ) :
    0 ≤ clicksDue maxBurst cs := by
  fun_induction clicksDue maxBurst cs with
  | case1 c c' cs ih => omega
  | case2 => exact le_rfl

namespace AudioLoop

variable {loop : AudioLoop}

theorem tick_seek_pulses {last : ℤ} (hlast : loop.sm.lastCrossings = some last)
    (hcap : 1 ≤ loop.sm.maxBurst) (evt : IOEvent) (nowUs : ℤ) {n : ℕ}
    (hn : pulses loop.seekCalls = some n) :
    pulses (loop.tick (evt, nowUs)).seekCalls =
      some (n + (min (max 0 (evt.trackCrossings - last)) loop.sm.maxBurst).toNat) := by
  have hplayed : (loop.tick (evt, nowUs)).seekCalls = loop.seekCalls ++
      if (loop.sm.tick evt nowUs).1.kind = .seekBurst then
        buzzerCalls (loop.renderer.render (loop.sm.tick evt nowUs).1) else [] := by
    rw [seekCalls, tick, List.flatMap_append, List.flatMap_singleton]
    rfl
  rw [hplayed]
  apply pulses_append hn
  rcases lt_or_ge last evt.trackCrossings with hdelta | hdelta
  · obtain ⟨hkind, hclicks⟩ := FloppyStepDetector.tick_seek nowUs hlast hdelta
    have hcount : (loop.sm.tick evt nowUs).1.clicks =
        min (max 0 (evt.trackCrossings - last)) loop.sm.maxBurst := by
      rw [hclicks]
      omega
    rw [if_pos hkind, loop.renderer.render_seek hkind (by omega), hcount]
  · have hkind := FloppyStepDetector.tick_no_seek nowUs hlast hdelta
    have hzero : (min (max 0 (evt.trackCrossings - last)) loop.sm.maxBurst).toNat = 0 := by omega
    rw [if_neg, hzero]
    · rfl
    · intro hseek
      rw [hseek] at hkind
      simp only [reduceCtorEq, or_self] at hkind

theorem tick_calls (snapshot : IOEvent × ℤ) :
    (loop.tick snapshot).calls = loop.calls ++
      buzzerCalls (loop.renderer.render (loop.sm.tick snapshot.1 snapshot.2).1) := by
  rw [calls, tick, List.flatMap_append, List.flatMap_singleton]
  rfl

theorem tick_pulses (snapshot : IOEvent × ℤ) (h : ∃ n, pulses loop.calls = some n) :
    ∃ n, pulses (loop.tick snapshot).calls = some n := by
  obtain ⟨n, hn⟩ := h
  obtain ⟨m, hm⟩ := loop.renderer.render_pulses (loop.sm.tick snapshot.1 snapshot.2).1
  rw [tick_calls]
  exact ⟨n + m, pulses_append hn hm⟩

theorem tick_lastCallSilent (snapshot : IOEvent × ℤ) : (loop.tick snapshot).LastCallSilent := by
  have hend := loop.renderer.render_endsSilent (loop.sm.tick snapshot.1 snapshot.2).1
  have hne : buzzerCalls (loop.renderer.render (loop.sm.tick snapshot.1 snapshot.2).1) ≠ [] := by
    intro hnil
    rw [endsSilent, hnil] at hend
    cases hend
  rw [LastCallSilent, tick_calls, List.getLast?_append_of_ne_nil _ hne]
  exact hend

theorem run_lastCallSilent (loop : AudioLoop) (snapshots : List (IOEvent × ℤ)) :
    AfterEach tick LastCallSilent loop snapshots := by
  induction snapshots generalizing loop with
  | nil => trivial
  | cons snapshot snapshots ih => exact ⟨tick_lastCallSilent snapshot, ih (loop.tick snapshot)⟩

theorem run_pulses (snapshots : List (IOEvent × ℤ)) (h : ∃ n, pulses loop.calls = some n) :
    ∃ n, pulses (run tick loop snapshots).calls = some n := by
  induction snapshots generalizing loop with
  | nil => exact h
  | cons snapshot snapshots ih => exact ih (tick_pulses snapshot h)

theorem run_seek_pulses (snapshots : List (IOEvent × ℤ)) {last : ℤ}
    (hlast : loop.sm.lastCrossings = some last) (hcap : 1 ≤ loop.sm.maxBurst) {n : ℕ}
    (hn : pulses loop.seekCalls = some n) :
    pulses (run tick loop snapshots).seekCalls =
      some (n + (clicksDue loop.sm.maxBurst
        (last :: snapshots.map fun snapshot => snapshot.1.trackCrossings)).toNat) := by
  induction snapshots generalizing loop last n with
  | nil => exact hn
  | cons snapshot snapshots ih =>
    obtain ⟨evt, nowUs⟩ := snapshot
    have hmax : (loop.tick (evt, nowUs)).sm.maxBurst = loop.sm.maxBurst :=
      FloppyStepDetector.tick_maxBurst
    have hlast' : (loop.tick (evt, nowUs)).sm.lastCrossings = some evt.trackCrossings :=
      FloppyStepDetector.tick_lastCrossings
    have hrest := ih hlast' (by omega) (tick_seek_pulses hlast hcap evt nowUs hn)
    have hnonneg := clicksDue_nonneg hcap
      (evt.trackCrossings :: snapshots.map fun snapshot => snapshot.1.trackCrossings)
    rw [run_cons, hrest, hmax, List.map_cons, clicksDue, Nat.add_assoc,
      ← Int.toNat_add (by omega) hnonneg]

/-- From a loop that has heard nothing: the first tick is the baseline. -/
theorem run_seek_pulses_fresh (hfresh : loop.sm.lastCrossings = none) (hplayed : loop.played = [])
    (hcap : 1 ≤ loop.sm.maxBurst) (snapshots : List (IOEvent × ℤ)) :
    pulses (run tick loop snapshots).seekCalls = some (clicksDue loop.sm.maxBurst
      (snapshots.map fun snapshot => snapshot.1.trackCrossings)).toNat := by
  cases snapshots with
  | nil => rw [run_nil, seekCalls, hplayed]; rfl
  | cons snapshot snapshots =>
    obtain ⟨evt, nowUs⟩ := snapshot
    have hmax : (loop.tick (evt, nowUs)).sm.maxBurst = loop.sm.maxBurst :=
      FloppyStepDetector.tick_maxBurst
    have hsilent : (loop.tick (evt, nowUs)).played =
        [(.silence, loop.renderer.render .silence)] := by
      calc
        (loop.tick (evt, nowUs)).played =
            loop.played ++ [((loop.sm.tick evt nowUs).1,
              loop.renderer.render (loop.sm.tick evt nowUs).1)] := rfl
        _ = [(.silence, loop.renderer.render .silence)] := by
          rw [hplayed, List.nil_append, FloppyStepDetector.tick_baseline evt nowUs hfresh]
    have hfirst : pulses (loop.tick (evt, nowUs)).seekCalls = some 0 := by
      rw [seekCalls, hsilent]
      rfl
    have hlast : (loop.tick (evt, nowUs)).sm.lastCrossings = some evt.trackCrossings :=
      FloppyStepDetector.tick_lastCrossings
    have hrest := run_seek_pulses snapshots hlast (by omega) hfirst
    rw [run_cons, hrest, hmax, List.map_cons, Nat.zero_add]

end AudioLoop

variable (r : SoundRenderer) (seekSpacingUs minClickSpacingUs maxBurstClicks activityIntervalUs
  motorIdleUs : ℤ) (clickMaskUs maxPendingClicks : Option ℤ)

/-- A loop as it is built, before its first tick. -/
def AudioLoop.init : AudioLoop :=
  ⟨.init seekSpacingUs minClickSpacingUs maxBurstClicks activityIntervalUs motorIdleUs
    clickMaskUs maxPendingClicks, r, []⟩

/-- Every crossing is clicked once, up to the cap of a burst, and the buzzer ends silent. -/
theorem crossings_clicked_once (hcap : 1 ≤ maxPendingClicks.getD maxBurstClicks)
    (snapshots : List (IOEvent × ℤ)) :
    let loop := AudioLoop.init r seekSpacingUs minClickSpacingUs maxBurstClicks activityIntervalUs
      motorIdleUs clickMaskUs maxPendingClicks
    pulses (run AudioLoop.tick loop snapshots).seekCalls =
        some (clicksDue (maxPendingClicks.getD maxBurstClicks)
          (snapshots.map fun snapshot => snapshot.1.trackCrossings)).toNat ∧
      (∃ n, pulses (run AudioLoop.tick loop snapshots).calls = some n) ∧
      AfterEach AudioLoop.tick AudioLoop.LastCallSilent loop snapshots := by
  intro loop
  refine ⟨loop.run_seek_pulses_fresh rfl rfl hcap snapshots,
    AudioLoop.run_pulses snapshots ⟨0, rfl⟩, loop.run_lastCallSilent snapshots⟩

/-- A seek over twelve tracks and a counter reset, with the renderer of the program. -/
theorem crossings_clicked_once_example :
    1 ≤ (none : Option ℤ).getD defaultMaxBurstClicks ∧
      pulses (run AudioLoop.tick (AudioLoop.init ⟨1600, 600, 900, 350, 7 / 20, 13 / 20⟩ 6000 2700 10
        80000 250000 none none) [(⟨0, 0, false, 0, 3⟩, 0), (⟨24, 216, false, 9, 15⟩, 10),
          (⟨0, 0, false, 0, 0⟩, 20), (⟨8, 18, true, 30, 1⟩, 30)]).seekCalls = some 11 :=
  ⟨by decide, (crossings_clicked_once _ 6000 2700 10 80000 250000 none none (by decide) _).1⟩

end UsbFloppy.Audio
