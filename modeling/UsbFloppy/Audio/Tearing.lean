import UsbFloppy.Lib.Run
import UsbFloppy.Kernel.IoEvents
import UsbFloppy.Audio.StateMachine

/-! SysfsIOEventReader of io_events.py reads five attributes one by one, while
floppy_io_event_record of the kernel updates the counters behind them one by one. -/

namespace UsbFloppy.Audio
open Transition Kernel

/-- The updates of `floppy_io_event_record`. -/
inductive Update
  | trackCrossings
  | notify
  | totalBlocks
  | lastLba
  | lastEndTrack
  | lastIsWrite
  | lastUs
  deriving DecidableEq, Repr

/-- Their order in the source. -/
def updates : List Update :=
  [.trackCrossings, .notify, .totalBlocks, .lastLba, .lastEndTrack, .lastIsWrite, .lastUs]

/-- One update, with the crossings that the function found at its start. -/
def Update.apply (r : IoRequest) (crossings : UInt32) (st : FloppyIoEventState) :
    Update → FloppyIoEventState
  | .trackCrossings =>
    if crossings > 0 then
      { st with trackCrossings := st.trackCrossings + crossings.toUInt64.toInt64 }
    else st
  | .notify => st
  | .totalBlocks => { st with totalBlocks := st.totalBlocks + r.nblocks.toUInt64.toInt64 }
  | .lastLba => { st with lastLba := r.lba.toInt32 }
  | .lastEndTrack => { st with lastEndTrack := (endTrack r.lba r.nblocks).toInt32 }
  | .lastIsWrite => { st with lastIsWrite := if r.isWrite then 1 else 0 }
  | .lastUs => { st with lastUs := r.now.toInt64 }

/-- Undisturbed, the updates are the function. -/
theorem updates_record (st : FloppyIoEventState) {r : IoRequest} (hn : r.nblocks ≠ 0) :
    updates.foldl (Update.apply r (floppyIoEventCrossings st r.lba r.nblocks)) st = r.record st := by
  simp only [updates, List.foldl, Update.apply, IoRequest.record, floppyIoEventRecord, if_neg hn]
  split_ifs <;> rfl

/-- A call of `floppy_io_event_record` with the updates it has yet to make. -/
structure Recording where
  request : IoRequest
  crossings : UInt32
  left : List Update
  deriving DecidableEq, Repr

/-- What `read` has read so far. -/
inductive Reading
  | idle
  | counter (counter : ℤ)
  | lastLba (counter lastLba : ℤ)
  | lastIsWrite (counter lastLba : ℤ) (lastIsWrite : Bool)
  | lastUs (counter lastLba : ℤ) (lastIsWrite : Bool) (lastUs : ℤ)
  deriving DecidableEq, Repr

def Reading.counter? : Reading → Option ℤ
  | .idle => none
  | .counter c => some c
  | .lastLba c _ => some c
  | .lastIsWrite c _ _ => some c
  | .lastUs c _ _ _ => some c

/-- The kernel, the reader and the detector. Requests are numbered from 1 in the order they
are recorded; the numbers below are not in the code. -/
structure Overlap where
  st : FloppyIoEventState
  recording : Option Recording
  reading : Reading
  sm : FloppyStepDetector
  /-- the non-silent commands so far -/
  sounds : ℕ
  /-- the last request whose recording has begun -/
  begun : ℕ
  /-- the last request counted in `totalBlocks` -/
  counted : ℕ
  /-- the last request that has added crossings -/
  crossed : ℕ
  /-- `counted` at the last read of `io_counter` -/
  seen : ℕ
  /-- `seen` of the baseline tick -/
  baseline : ℕ
  /-- `crossed` at the last tick that was a seek burst -/
  sought : ℕ
  deriving DecidableEq, Repr

inductive OverlapStep
  /-- `floppy_io_event_record` is called -/
  | record (r : IoRequest)
  /-- it makes its next update -/
  | update
  /-- `read` reads its next attribute; after the last one comes the tick -/
  | read (nowUs : ℤ)
  deriving DecidableEq, Repr

namespace Overlap

variable (s : Overlap)

/-- The requests whose recording was not over when the baseline was read. -/
def recorded : ℕ := s.begun - s.baseline

def update (p : Recording) (u : Update) (left : List Update) : Overlap :=
  { s with
    st := u.apply p.request p.crossings s.st
    recording := if left = [] then none else some { p with left := left }
    counted := if u = .totalBlocks then s.begun else s.counted
    crossed := if u = .trackCrossings ∧ p.crossings > 0 then s.begun else s.crossed }

/-- The snapshot that the last of the five reads completes. -/
def snapshot (counter lastLba : ℤ) (lastIsWrite : Bool) (lastUs : ℤ) : IOEvent :=
  ⟨counter, lastLba, lastIsWrite, lastUs, (floppyIoEventTrackCrossings s.st).toNat⟩

def tick (event : IOEvent) (nowUs : ℤ) : Overlap :=
  let (cmd, sm) := s.sm.tick event nowUs
  { s with
    sm := sm
    reading := .idle
    sounds := if cmd.kind = .silence then s.sounds else s.sounds + 1
    baseline := if s.sm.lastCrossings = none then s.seen else s.baseline
    sought := if cmd.kind = .seekBurst then s.crossed else s.sought }

def read (nowUs : ℤ) : Overlap :=
  match s.reading with
  | .idle =>
    { s with reading := .counter (floppyIoEventTotalBlocks s.st).toNat, seen := s.counted }
  | .counter c => { s with reading := .lastLba c s.st.lastLba.toUInt32.toNat }
  | .lastLba c l => { s with reading := .lastIsWrite c l (s.st.lastIsWrite ≠ 0) }
  | .lastIsWrite c l w => { s with reading := .lastUs c l w s.st.lastUs.toUInt64.toNat }
  | .lastUs c l w us => s.tick (s.snapshot c l w us) nowUs

def step (s : Overlap) : OverlapStep → Overlap
  | .record r =>
    -- the gadget I/O thread is the only writer
    if s.recording ≠ none ∨ r.nblocks = 0 then s
    else
      { s with
        recording := some ⟨r, floppyIoEventCrossings s.st r.lba r.nblocks, updates⟩
        begun := s.begun + 1 }
  | .update =>
    match s.recording with
    | some ⟨r, crossings, u :: left⟩ => s.update ⟨r, crossings, u :: left⟩ u left
    | _ => s
  | .read nowUs => s.read nowUs

/-- A tick that sounds for new blocks alone counts a request whose crossings were not there
yet at the last seek burst. -/
def Untorn (s : Overlap) : OverlapStep → Prop
  | .read nowUs =>
    match s.reading with
    | .lastUs c l w us => s.sm.HearsBlocks (s.snapshot c l w us) nowUs → s.sought < s.seen
    | _ => True
  | _ => True

def Silenced (s : Overlap) : Prop := s.sounds ≤ s.recorded

def start (st : FloppyIoEventState) (sm : FloppyStepDetector) : Overlap :=
  ⟨st, none, .idle, sm, 0, 0, 0, 0, 0, 0, 0⟩

/-! ### The invariant -/

/-- The updates left are the end of the list, and what they have yet to publish is not
counted. -/
structure Pending (begun counted crossed : ℕ) (p : Recording) : Prop where
  suffix : p.left <:+ updates
  blocks : .totalBlocks ∈ p.left → counted < begun
  crossings : .trackCrossings ∈ p.left → crossed < begun ∧ counted < begun

/-- `told` is the last request in the `io_counter` of the last tick. -/
structure Inv (told : ℕ) (s : Overlap) : Prop where
  budget : s.sounds + s.baseline ≤ max s.sought told
  deaf : s.sm.lastCrossings = none → s.sounds = 0 ∧ s.sought = 0
  told_le : told ≤ s.seen
  seen_le : s.seen ≤ s.counted
  counted_le : s.counted ≤ s.begun
  sought_le : s.sought ≤ s.crossed
  crossed_le : s.crossed ≤ s.begun
  pending : ∀ p ∈ s.recording, Pending s.begun s.counted s.crossed p
  blocks : ∀ n ∈ s.sm.lastCounter, n ≠ (floppyIoEventTotalBlocks s.st).toNat → told < s.counted
  reading : ∀ c ∈ s.reading.counter?,
    (∀ n ∈ s.sm.lastCounter, n ≠ c → told < s.seen) ∧
      (c ≠ (floppyIoEventTotalBlocks s.st).toNat → s.seen < s.counted)
  crossings : ∀ c ∈ s.sm.lastCrossings,
    c ≠ (floppyIoEventTrackCrossings s.st).toNat → max s.sought told < s.crossed

variable {s : Overlap} {told : ℕ}

theorem inv_start (st : FloppyIoEventState) {sm : FloppyStepDetector}
    (hcrossings : sm.lastCrossings = none) (hcounter : sm.lastCounter = none) :
    Inv 0 (start st sm) where
  budget := le_rfl
  deaf _ := ⟨rfl, rfl⟩
  told_le := le_rfl
  seen_le := le_rfl
  counted_le := le_rfl
  sought_le := le_rfl
  crossed_le := le_rfl
  pending p hp := by cases hp
  blocks n hn := by
    rw [start, hcounter] at hn
    cases hn
  reading c hc := by cases hc
  crossings c hc := by
    rw [start, hcrossings] at hc
    cases hc

theorem Inv.silenced (h : Inv told s) : s.Silenced := by
  have := h.budget
  have := h.told_le
  have := h.seen_le
  have := h.counted_le
  have := h.sought_le
  have := h.crossed_le
  unfold Silenced recorded
  omega

theorem inv_record (h : Inv told s) (r : IoRequest) : Inv told (s.step (.record r)) := by
  dsimp only [step]
  split_ifs with hbusy
  · exact h
  · have hcounted := h.counted_le
    have hcrossed := h.crossed_le
    refine { h with counted_le := ?_, crossed_le := ?_, pending := ?_ }
    · exact Nat.le_succ_of_le hcounted
    · exact Nat.le_succ_of_le hcrossed
    · rintro p ⟨⟩
      exact ⟨List.suffix_refl _, fun _ => Nat.lt_succ_of_le hcounted,
        fun _ => ⟨Nat.lt_succ_of_le hcrossed, Nat.lt_succ_of_le hcounted⟩⟩

theorem apply_totalBlocks (r : IoRequest) (crossings : UInt32) (st : FloppyIoEventState)
    {u : Update} (hu : u ≠ .totalBlocks) :
    (u.apply r crossings st).totalBlocks = st.totalBlocks := by
  cases u with
  | trackCrossings =>
    unfold Update.apply
    split_ifs <;> rfl
  | totalBlocks => exact absurd rfl hu
  | _ => rfl

theorem apply_trackCrossings (r : IoRequest) (crossings : UInt32) (st : FloppyIoEventState)
    {u : Update} (hu : ¬ (u = .trackCrossings ∧ crossings > 0)) :
    (u.apply r crossings st).trackCrossings = st.trackCrossings := by
  cases u with
  | trackCrossings => rw [Update.apply, if_neg fun hpos => hu ⟨rfl, hpos⟩]
  | _ => rfl

theorem trackCrossings_not_later {u : Update} {left : List Update} (h : u :: left <:+ updates) :
    .trackCrossings ∉ left := by
  have htail : left <:+ updates.tail := by
    rcases List.suffix_cons_iff.mp h with heq | hlater
    · rw [(List.cons.inj heq).2]
      exact List.suffix_refl _
    · exact (List.suffix_cons u left).trans hlater
  intro hmem
  exact absurd (htail.subset hmem) (by decide)

section Update

variable {p : Recording} {u : Update} {left : List Update}

theorem counted_le_update (h : Inv told s) : s.counted ≤ (s.update p u left).counted := by
  have hcounted := h.counted_le
  unfold update
  dsimp only
  split_ifs
  · exact hcounted
  · exact le_rfl

/-- What was counted beyond `b` while the blocks differ from `n` still is, whether or not they are
updated now. -/
theorem lt_counted_update (h : Inv told s) (hblocks : .totalBlocks ∈ u :: left → s.counted < s.begun)
    {b : ℕ} {n : ℤ} (hb : b ≤ s.counted)
    (hold : n ≠ (floppyIoEventTotalBlocks s.st).toNat → b < s.counted)
    (hne : n ≠ (floppyIoEventTotalBlocks (s.update p u left).st).toNat) :
    b < (s.update p u left).counted := by
  by_cases hu : u = .totalBlocks
  · have hlt := hblocks (hu ▸ List.mem_cons_self)
    rw [update, if_pos hu]
    exact hb.trans_lt hlt
  · have hsame : (s.update p u left).st.totalBlocks = s.st.totalBlocks :=
      apply_totalBlocks _ _ _ hu
    rw [floppyIoEventTotalBlocks, hsame] at hne
    exact (hold hne).trans_le (counted_le_update h)

theorem pending_update (hpending : Pending s.begun s.counted s.crossed p)
    (hleft : p.left = u :: left) : ∀ q ∈ (s.update p u left).recording,
      Pending (s.update p u left).begun (s.update p u left).counted (s.update p u left).crossed q := by
  obtain ⟨hsuffix, hblocks, hcross⟩ := hpending
  rw [hleft] at hsuffix hblocks hcross
  have hfresh : u ∉ left := (List.nodup_cons.mp (hsuffix.sublist.nodup (by decide))).1
  intro q hq
  have hq : q = { p with left := left } := by
    unfold update at hq
    dsimp only at hq
    split_ifs at hq
    · cases hq
    · exact (Option.some.inj hq).symm
  subst hq
  refine ⟨(List.suffix_cons u left).trans hsuffix, ?_, ?_⟩
  · intro hmem
    have hu : u ≠ .totalBlocks := fun hu => hfresh (hu ▸ hmem)
    rw [update, if_neg hu]
    exact hblocks (List.mem_cons_of_mem u hmem)
  · intro hmem
    exact absurd hmem (trackCrossings_not_later hsuffix)

theorem inv_update (h : Inv told s) (hp : s.recording = some p) (hleft : p.left = u :: left) :
    Inv told (s.update p u left) := by
  have hpending := h.pending p hp
  have hblocks : .totalBlocks ∈ u :: left → s.counted < s.begun := by
    rw [← hleft]
    exact hpending.blocks
  have htold := h.told_le
  have hseen := h.seen_le
  have hcounted := h.counted_le
  have hsought := h.sought_le
  have hcrossed := h.crossed_le
  refine { h with seen_le := hseen.trans (counted_le_update h), counted_le := ?_, sought_le := ?_,
                  crossed_le := ?_, pending := pending_update hpending hleft, blocks := ?_,
                  reading := ?_, crossings := ?_ }
  · unfold update
    dsimp only
    split_ifs <;> omega
  · unfold update
    dsimp only
    split_ifs <;> omega
  · unfold update
    dsimp only
    split_ifs <;> omega
  · intro n hn
    exact lt_counted_update h hblocks (htold.trans hseen) (h.blocks n hn)
  · intro c hc
    exact ⟨(h.reading c hc).1, lt_counted_update h hblocks hseen (h.reading c hc).2⟩
  · intro c hc hne
    by_cases hu : u = .trackCrossings ∧ p.crossings > 0
    · have hmem : .trackCrossings ∈ p.left := by
        rw [hleft, hu.1]
        exact List.mem_cons_self
      have hlt := hpending.crossings hmem
      have hcrossed : (s.update p u left).crossed = s.begun := if_pos hu
      rw [hcrossed]
      change max s.sought told < s.begun
      omega
    · have hcrossed : (s.update p u left).crossed = s.crossed := if_neg hu
      have hsame : (s.update p u left).st.trackCrossings = s.st.trackCrossings :=
        apply_trackCrossings _ _ _ hu
      rw [hcrossed]
      exact h.crossings c hc (by rwa [floppyIoEventTrackCrossings, hsame] at hne)

end Update

/-- Every sound is for crossings beyond the last seek burst, or for blocks beyond those told. -/
theorem budget_tick (h : Inv told s) {event : IOEvent} {nowUs : ℤ}
    (hcrossings : event.trackCrossings = (floppyIoEventTrackCrossings s.st).toNat)
    (hcounter : event.counter ∈ s.reading.counter?)
    (hok : s.sm.HearsBlocks event nowUs → s.sought < s.seen) :
    (s.tick event nowUs).sounds + (s.tick event nowUs).baseline ≤
      max (s.tick event nowUs).sought s.seen := by
  have htold := h.told_le
  have hbudget := h.budget
  cases hlast : s.sm.lastCrossings with
  | none =>
    -- the baseline tick is silent
    have hsilent := FloppyStepDetector.tick_baseline event nowUs hlast
    obtain ⟨hsounds, hsought⟩ := h.deaf hlast
    have hkind : (s.sm.tick event nowUs).1.kind = .silence := by rw [hsilent]; rfl
    simp only [tick, hkind, hlast, if_true, hsounds]
    omega
  | some last =>
    rcases lt_or_ge last event.trackCrossings with hdelta | hdelta
    · have hkind := (FloppyStepDetector.tick_seek nowUs hlast hdelta).1
      have hcross := h.crossings last hlast (by omega)
      simp only [tick, hkind, hlast, if_true, reduceCtorEq, if_false]
      omega
    · have hkind := FloppyStepDetector.tick_no_seek nowUs hlast hdelta
      have hseek : (s.sm.tick event nowUs).1.kind ≠ .seekBurst := by
        intro hseek
        rw [hseek] at hkind
        simp only [reduceCtorEq, or_self] at hkind
      by_cases hsilent : (s.sm.tick event nowUs).1.kind = .silence
      · simp only [tick, hlast, hsilent, if_true, reduceCtorEq, if_false]
        omega
      · have hears := FloppyStepDetector.tick_sound hlast hdelta hsilent
        have hsought := hok hears
        have hnew : told < s.seen := by
          cases hcount : s.sm.lastCounter with
          | none =>
            have hlt := hears.2.1
            rw [hcount, Option.getD_none] at hlt
            exact absurd hlt (lt_irrefl _)
          | some n =>
            have hlt := hears.2.1
            rw [hcount, Option.getD_some] at hlt
            exact (h.reading _ hcounter).1 n hcount hlt.ne
        simp only [tick, hlast, hsilent, hseek, reduceCtorEq, if_false]
        omega

theorem inv_tick (h : Inv told s) {event : IOEvent} {nowUs : ℤ}
    (hcrossings : event.trackCrossings = (floppyIoEventTrackCrossings s.st).toNat)
    (hcounter : event.counter ∈ s.reading.counter?)
    (hok : s.sm.HearsBlocks event nowUs → s.sought < s.seen) :
    Inv s.seen (s.tick event nowUs) := by
  have hlastCrossings : (s.tick event nowUs).sm.lastCrossings = some event.trackCrossings :=
    FloppyStepDetector.tick_lastCrossings
  have hlastCounter : (s.tick event nowUs).sm.lastCounter = some event.counter :=
    FloppyStepDetector.tick_lastCounter
  refine { h with budget := budget_tick h hcrossings hcounter hok, deaf := ?_, told_le := le_rfl,
                  sought_le := ?_, blocks := ?_, reading := ?_, crossings := ?_ }
  · rw [hlastCrossings]
    intro hnone
    cases hnone
  · have hsought := h.sought_le
    unfold tick
    dsimp only
    split_ifs
    · exact le_rfl
    · exact hsought
  · rw [hlastCounter]
    rintro n ⟨⟩ hne
    exact (h.reading _ hcounter).2 hne
  · intro c hc
    cases hc
  · rw [hlastCrossings]
    rintro c ⟨⟩ hne
    exact absurd hcrossings hne

theorem inv_read (h : Inv told s) {nowUs : ℤ} (hok : s.Untorn (.read nowUs)) :
    ∃ told', Inv told' (s.read nowUs) := by
  unfold Untorn at hok
  unfold read
  cases hreading : s.reading with
  | idle =>
    have hseen := h.seen_le
    have htold := h.told_le
    refine ⟨told, { h with told_le := htold.trans hseen, seen_le := le_rfl, reading := ?_ }⟩
    rintro c ⟨⟩
    exact ⟨h.blocks, fun hne => absurd rfl hne⟩
  | counter c =>
    have hc := h.reading c (by rw [hreading]; rfl)
    exact ⟨told, { h with reading := by rintro c ⟨⟩; exact hc }⟩
  | lastLba c l =>
    have hc := h.reading c (by rw [hreading]; rfl)
    exact ⟨told, { h with reading := by rintro c ⟨⟩; exact hc }⟩
  | lastIsWrite c l w =>
    have hc := h.reading c (by rw [hreading]; rfl)
    exact ⟨told, { h with reading := by rintro c ⟨⟩; exact hc }⟩
  | lastUs c l w us =>
    rw [hreading] at hok
    exact ⟨s.seen, inv_tick h rfl (by rw [hreading]; rfl) hok⟩

theorem inv_step (i : OverlapStep) (h : ∃ told, Inv told s) (hok : s.Untorn i) :
    ∃ told, Inv told (s.step i) := by
  obtain ⟨told, h⟩ := h
  cases i with
  | record r => exact ⟨told, inv_record h r⟩
  | update =>
    dsimp only [step]
    split
    next r crossings u left hp => exact ⟨told, inv_update h hp rfl⟩
    next => exact ⟨told, h⟩
  | read nowUs => exact inv_read h hok

instance : Decidable s.Silenced := inferInstanceAs (Decidable (s.sounds ≤ s.recorded))

instance : ∀ i : OverlapStep, Decidable (s.Untorn i)
  | .record _ | .update => isTrue trivial
  | .read nowUs => by
    unfold Untorn
    dsimp only
    split <;> infer_instance

end Overlap

variable (seekSpacingUs minClickSpacingUs maxBurstClicks activityIntervalUs motorIdleUs : ℤ)
  (clickMaskUs maxPendingClicks : Option ℤ)

/-- As long as no half of a request is heard twice, there are at most as many sounds as
requests. -/
theorem sounds_le_recorded (st : FloppyIoEventState) {steps : List OverlapStep}
    (hok : Guarded Overlap.step Overlap.Untorn (.start st (.init seekSpacingUs minClickSpacingUs
      maxBurstClicks activityIntervalUs motorIdleUs clickMaskUs maxPendingClicks)) steps) :
    Throughout Overlap.step Overlap.Silenced (.start st (.init seekSpacingUs minClickSpacingUs
      maxBurstClicks activityIntervalUs motorIdleUs clickMaskUs maxPendingClicks)) steps := by
  have hinv : Throughout Overlap.step (fun s => ∃ told, Overlap.Inv told s) _ steps :=
    throughout_invariant (fun _ i => Overlap.inv_step i) ⟨0, Overlap.inv_start st rfl rfl⟩ hok
  refine hinv.mono ?_
  rintro s ⟨told, h⟩
  exact h.silenced

/-- A whole `read` with its tick. -/
def readAll (nowUs : ℤ) : List OverlapStep := List.replicate 5 (.read nowUs)

def update (n : ℕ) : List OverlapStep := List.replicate n .update

/-- Two requests, each heard whole. -/
theorem sounds_le_recorded_example :
    Throughout Overlap.step Overlap.Silenced (.start floppyIoEventInit (.init 6000 2700 10 80000
      250000 none none)) (readAll 0 ++ [.record ⟨0, 72, false, 5⟩] ++ update 7 ++ readAll 1000000 ++
        [.record ⟨0, 8, false, 9⟩] ++ update 7 ++ readAll 1100000) :=
  sounds_le_recorded 6000 2700 10 80000 250000 none none floppyIoEventInit (by decide)

/-- One request is heard twice: its crossings while it is recorded, its blocks 0.1 s later. -/
theorem torn_request_sounds_twice :
    ¬ Throughout Overlap.step Overlap.Silenced (.start floppyIoEventInit (.init 6000 2700 10 80000
      250000 none none)) (readAll 0 ++ [.record ⟨0, 72, false, 5⟩] ++ update 1 ++ readAll 1000000 ++
        update 6 ++ readAll 1100000) := by
  intro h
  exact absurd (h _ List.prefix_rfl) (by decide)

end UsbFloppy.Audio
