import Mathlib.Tactic.Linarith
import UsbFloppy.Lib.Run
import UsbFloppy.Lib.PathLength

/-! The I/O event tracker of floppy_io_events.c. The counters are closed forms of
each request; they are compared with a head that visits every sector in turn. -/

namespace UsbFloppy.Kernel
open Transition PathLength

/-- `FLOPPY_SECTORS_PER_TRACK`: 18 sectors on each of 2 heads. -/
def sectorsPerTrack : UInt32 := 36

/-- `struct floppy_io_event_state`. The kernel's `atomic_t` and `atomic64_t` are signed. -/
structure FloppyIoEventState where
  totalBlocks : Int64
  lastLba : Int32
  lastIsWrite : Int32
  lastUs : Int64
  trackCrossings : Int64
  lastEndTrack : Int32
  notifyKobj : Bool
  deriving DecidableEq, Repr

def floppyIoEventInit : FloppyIoEventState where
  totalBlocks := 0
  lastLba := 0
  lastIsWrite := 0
  lastUs := 0
  trackCrossings := 0
  lastEndTrack := 0
  notifyKobj := false

def startTrack (lba : UInt32) : UInt32 := lba / sectorsPerTrack

def endTrack (lba nblocks : UInt32) : UInt32 := (lba + nblocks - 1) / sectorsPerTrack

/-- Crossings within a request, which may span several tracks. -/
def crossingsWithin (lba nblocks : UInt32) : UInt32 :=
  if endTrack lba nblocks > startTrack lba then endTrack lba nblocks - startTrack lba else 0

/-- Crossings between the previous request's end and this request's start. A state that
has counted no block has no previous request. -/
def crossingsBetween (st : FloppyIoEventState) (lba : UInt32) : UInt32 :=
  if st.totalBlocks.toUInt64 > 0 then
    let prevEndTrack := st.lastEndTrack.toUInt32
    if startTrack lba ≠ prevEndTrack then
      if startTrack lba > prevEndTrack then startTrack lba - prevEndTrack
      else prevEndTrack - startTrack lba
    else 0
  else 0

def floppyIoEventCrossings (st : FloppyIoEventState) (lba nblocks : UInt32) : UInt32 :=
  crossingsWithin lba nblocks + crossingsBetween st lba

/-- `floppy_io_event_record`, with the time `ktime_get` returns as its last argument. -/
def floppyIoEventRecord (st : FloppyIoEventState) (lba nblocks : UInt32) (isWrite : Bool)
    (now : UInt64) : FloppyIoEventState :=
  if nblocks = 0 then st
  else
    let crossings := floppyIoEventCrossings st lba nblocks
    { st with
      trackCrossings :=
        if crossings > 0 then st.trackCrossings + crossings.toUInt64.toInt64
        else st.trackCrossings
      totalBlocks := st.totalBlocks + nblocks.toUInt64.toInt64
      lastLba := lba.toInt32
      lastEndTrack := (endTrack lba nblocks).toInt32
      lastIsWrite := if isWrite then 1 else 0
      lastUs := now.toInt64 }

def floppyIoEventTotalBlocks (st : FloppyIoEventState) : UInt64 := st.totalBlocks.toUInt64

def floppyIoEventTrackCrossings (st : FloppyIoEventState) : UInt64 := st.trackCrossings.toUInt64

/-- One call of the hook. -/
structure IoRequest where
  lba : UInt32
  nblocks : UInt32
  isWrite : Bool
  now : UInt64
  deriving DecidableEq, Repr

def IoRequest.record (st : FloppyIoEventState) (r : IoRequest) : FloppyIoEventState :=
  floppyIoEventRecord st r.lba r.nblocks r.isWrite r.now

/-! ### The head -/

/-- The track a sector lies on. -/
def track (sector : ℕ) : ℕ := sector / 36

/-- How far the head steps when it visits the sectors in turn. -/
def headTravel (sectors : List ℕ) : ℕ := pathLength Nat.dist (sectors.map track)

/-- How far the head steps from the last of the sectors `before` through `sectors`. -/
def headTravelFrom (before : Option ℕ) (sectors : List ℕ) : ℕ :=
  pathFrom Nat.dist (before.map track) (sectors.map track)

def IoRequest.sectors (r : IoRequest) : List ℕ := List.range' r.lba.toNat r.nblocks.toNat

/-- The sectors the head visits during the requests, in order. -/
def visited (rs : List IoRequest) : List ℕ := rs.flatMap IoRequest.sectors

theorem headTravel_append (as bs : List ℕ) :
    headTravel (as ++ bs) = headTravel as + headTravelFrom as.getLast? bs := by
  simp only [headTravel, headTravelFrom, List.map_append, pathLength_append, List.getLast?_map]

theorem headTravel_range' (lba n : ℕ) :
    headTravel (List.range' lba (n + 1)) = track (lba + n) - track lba :=
  pathLength_range'_div 36 lba n

theorem headTravelFrom_range' (before : Option ℕ) (lba n : ℕ) :
    headTravelFrom before (List.range' lba (n + 1)) =
      (before.elim 0 fun s => Nat.dist (track s) (track lba)) +
        (track (lba + n) - track lba) := by
  cases before with
  | none =>
    rw [Option.elim_none, zero_add, ← headTravel_range']
    rfl
  | some s =>
    rw [← headTravel_range']
    simp only [headTravelFrom, headTravel, Option.map_some, List.range'_succ, List.map_cons,
      pathFrom_some, Option.elim_some]

/-! ### One request -/

theorem ofNat_toNat_toUInt64 (n : UInt32) : UInt64.ofNat n.toNat = n.toUInt64 := by
  apply UInt64.toNat_inj.mp
  rw [UInt64.toNat_ofNat_of_lt' (n.toNat_lt.trans (by decide)), UInt32.toNat_toUInt64]

theorem startTrack_toNat (lba : UInt32) : (startTrack lba).toNat = track lba.toNat := by
  simp only [startTrack, sectorsPerTrack, UInt32.toNat_div, track]
  rfl

theorem endTrack_toNat {lba nblocks : UInt32} (hn : nblocks ≠ 0)
    (hfit : lba.toNat + nblocks.toNat ≤ 2 ^ 32) :
    (endTrack lba nblocks).toNat = track (lba.toNat + (nblocks.toNat - 1)) := by
  have hpos : nblocks.toNat ≠ 0 := fun h => hn (UInt32.toNat_inj.mp h)
  have hsub : (lba + nblocks - 1).toNat = lba.toNat + (nblocks.toNat - 1) := by
    rw [UInt32.toNat_sub, UInt32.toNat_add, show (1 : UInt32).toNat = 1 from rfl]
    omega
  simp only [endTrack, sectorsPerTrack, UInt32.toNat_div, hsub, track]
  rfl

theorem crossingsWithin_toNat {lba nblocks : UInt32} (hn : nblocks ≠ 0)
    (hfit : lba.toNat + nblocks.toNat ≤ 2 ^ 32) :
    (crossingsWithin lba nblocks).toNat =
      track (lba.toNat + (nblocks.toNat - 1)) - track lba.toNat := by
  have hle : startTrack lba ≤ endTrack lba nblocks := by
    rw [UInt32.le_iff_toNat_le, startTrack_toNat, endTrack_toNat hn hfit]
    exact Nat.div_le_div_right (Nat.le_add_right _ _)
  unfold crossingsWithin
  split_ifs with hgt
  · rw [UInt32.toNat_sub_of_le _ _ hle, startTrack_toNat, endTrack_toNat hn hfit]
  · have heq : endTrack lba nblocks = startTrack lba :=
      UInt32.le_antisymm (UInt32.not_lt.mp hgt) hle
    have hnat := congrArg UInt32.toNat heq
    rw [startTrack_toNat, endTrack_toNat hn hfit] at hnat
    rw [hnat, Nat.sub_self]
    rfl

theorem crossingsBetween_of_fresh {st : FloppyIoEventState}
    (h : st.totalBlocks.toUInt64 = 0) (lba : UInt32) : crossingsBetween st lba = 0 := by
  simp [crossingsBetween, h]

theorem crossingsBetween_toNat {st : FloppyIoEventState}
    (h : st.totalBlocks.toUInt64 ≠ 0) (lba : UInt32) :
    (crossingsBetween st lba).toNat =
      Nat.dist st.lastEndTrack.toUInt32.toNat (track lba.toNat) := by
  have hpos : st.totalBlocks.toUInt64 > 0 := UInt64.pos_iff_ne_zero.mpr h
  rw [← startTrack_toNat]
  simp only [crossingsBetween, if_pos hpos]
  split_ifs with hne hgt
  · have hlt := UInt32.lt_iff_toNat_lt.mp hgt
    rw [UInt32.toNat_sub_of_le _ _ (UInt32.le_of_lt hgt), Nat.dist_eq_sub_of_le hlt.le]
  · have hle := UInt32.not_lt.mp hgt
    rw [UInt32.toNat_sub_of_le _ _ hle,
      Nat.dist_eq_sub_of_le_right (UInt32.le_iff_toNat_le.mp hle)]
  · rw [not_not.mp hne, Nat.dist_self]
    rfl

theorem record_zero (st : FloppyIoEventState) (lba : UInt32) (isWrite : Bool) (now : UInt64) :
    floppyIoEventRecord st lba 0 isWrite now = st := if_pos rfl

theorem record_trackCrossings (st : FloppyIoEventState) {lba nblocks : UInt32}
    (hn : nblocks ≠ 0) (isWrite : Bool) (now : UInt64) :
    (floppyIoEventRecord st lba nblocks isWrite now).trackCrossings.toUInt64 =
      st.trackCrossings.toUInt64 + (floppyIoEventCrossings st lba nblocks).toUInt64 := by
  simp only [floppyIoEventRecord, if_neg hn]
  split_ifs with hpos
  · rfl
  · have hzero : floppyIoEventCrossings st lba nblocks = 0 :=
      not_not.mp fun hne => hpos (UInt32.pos_iff_ne_zero.mpr hne)
    rw [hzero]
    exact (UInt64.add_zero _).symm

theorem record_totalBlocks (st : FloppyIoEventState) {lba nblocks : UInt32}
    (hn : nblocks ≠ 0) (isWrite : Bool) (now : UInt64) :
    (floppyIoEventRecord st lba nblocks isWrite now).totalBlocks.toUInt64 =
      st.totalBlocks.toUInt64 + nblocks.toUInt64 := by
  rw [floppyIoEventRecord, if_neg hn]
  rfl

theorem record_lastEndTrack (st : FloppyIoEventState) {lba nblocks : UInt32}
    (hn : nblocks ≠ 0) (isWrite : Bool) (now : UInt64) :
    (floppyIoEventRecord st lba nblocks isWrite now).lastEndTrack.toUInt32 =
      endTrack lba nblocks := by
  rw [floppyIoEventRecord, if_neg hn]
  rfl

/-! ### Whole runs -/

/-- The counters say what the head did on `sectors`. Both are counted modulo `2 ^ 64`. -/
structure Describes (st : FloppyIoEventState) (sectors : List ℕ) : Prop where
  blocks : st.totalBlocks.toUInt64 = UInt64.ofNat sectors.length
  crossings : st.trackCrossings.toUInt64 = UInt64.ofNat (headTravel sectors)
  lastTrack : ∀ s, sectors.getLast? = some s → st.lastEndTrack.toUInt32.toNat = track s
  addressable : ∀ s ∈ sectors, s < 2 ^ 32

theorem describes_init : Describes floppyIoEventInit [] :=
  ⟨rfl, rfl, fun _ h => absurd h (by simp), fun _ h => absurd h (by simp)⟩

theorem Describes.crossingsBetween {st : FloppyIoEventState} {sectors : List ℕ}
    (h : Describes st sectors) (hlen : sectors.length < 2 ^ 64) (lba : UInt32) :
    (crossingsBetween st lba).toNat =
      sectors.getLast?.elim 0 fun s => Nat.dist (track s) (track lba.toNat) := by
  rcases List.eq_nil_or_concat sectors with rfl | ⟨as, s, rfl⟩
  · rw [crossingsBetween_of_fresh h.blocks]
    rfl
  · have hlast : (as.concat s).getLast? = some s := by simp
    have hne : st.totalBlocks.toUInt64 ≠ 0 := by
      intro hzero
      have hnat := congrArg UInt64.toNat (h.blocks.symm.trans hzero)
      rw [UInt64.toNat_ofNat_of_lt' hlen] at hnat
      simp at hnat
    rw [crossingsBetween_toNat hne, h.lastTrack s hlast, hlast, Option.elim_some]

theorem Describes.crossings_toNat {st : FloppyIoEventState} {sectors : List ℕ}
    (h : Describes st sectors) (hlen : sectors.length < 2 ^ 64) {lba nblocks : UInt32}
    (hn : nblocks ≠ 0) (hfit : lba.toNat + nblocks.toNat ≤ 2 ^ 32) :
    (floppyIoEventCrossings st lba nblocks).toNat =
      headTravelFrom sectors.getLast? (List.range' lba.toNat nblocks.toNat) := by
  obtain ⟨m, hm⟩ : ∃ m, nblocks.toNat = m + 1 :=
    Nat.exists_eq_succ_of_ne_zero fun h0 => hn (UInt32.toNat_inj.mp h0)
  have hwithin := crossingsWithin_toNat hn hfit
  have hbetween := h.crossingsBetween hlen lba
  rw [hm, Nat.add_sub_cancel] at hwithin
  -- neither term leaves the addressable tracks, so their sum does not wrap
  have htrack : ∀ s, s < 2 ^ 32 → track s < 2 ^ 27 := fun s hs => by unfold track; omega
  have hbound : (Kernel.crossingsBetween st lba).toNat < 2 ^ 27 := by
    rw [hbetween]
    rcases hlast : sectors.getLast? with _ | s
    · exact Nat.two_pow_pos 27
    · have hs := htrack s (h.addressable s (List.mem_of_getLast? hlast))
      have hl := htrack lba.toNat (by omega)
      simp only [Option.elim_some, Nat.dist]
      omega
  have hend := htrack (lba.toNat + m) (by omega)
  rw [floppyIoEventCrossings, UInt32.toNat_add, hwithin,
    Nat.mod_eq_of_lt (by omega), hbetween, hm, headTravelFrom_range', Nat.add_comm]

theorem Describes.record {st : FloppyIoEventState} {sectors : List ℕ}
    (h : Describes st sectors) (hlen : sectors.length < 2 ^ 64) {lba nblocks : UInt32}
    (hfit : lba.toNat + nblocks.toNat ≤ 2 ^ 32) (isWrite : Bool) (now : UInt64) :
    Describes (floppyIoEventRecord st lba nblocks isWrite now)
      (sectors ++ List.range' lba.toNat nblocks.toNat) := by
  by_cases hn : nblocks = 0
  · subst hn
    rw [record_zero, show (0 : UInt32).toNat = 0 from rfl, List.range'_zero, List.append_nil]
    exact h
  have hpos : nblocks.toNat ≠ 0 := fun h0 => hn (UInt32.toNat_inj.mp h0)
  refine ⟨?_, ?_, ?_, ?_⟩
  · rw [record_totalBlocks st hn, h.blocks, List.length_append, List.length_range',
      UInt64.ofNat_add, ofNat_toNat_toUInt64]
  · rw [record_trackCrossings st hn, h.crossings, headTravel_append, UInt64.ofNat_add,
      ← h.crossings_toNat hlen hn hfit, ofNat_toNat_toUInt64]
  · intro s hs
    have hlast : s = lba.toNat + (nblocks.toNat - 1) := by
      rw [List.getLast?_append, List.getLast?_range'] at hs
      simp [hpos] at hs
      omega
    rw [record_lastEndTrack st hn, endTrack_toNat hn hfit, hlast]
  · intro s hs
    rcases List.mem_append.mp hs with hs | hs
    · exact h.addressable s hs
    · have := (List.mem_range'_1.mp hs).2
      omega

theorem Describes.run {st : FloppyIoEventState} {sectors : List ℕ} (h : Describes st sectors)
    {rs : List IoRequest} (hfit : ∀ r ∈ rs, r.lba.toNat + r.nblocks.toNat ≤ 2 ^ 32)
    (hlen : (sectors ++ visited rs).length < 2 ^ 64) :
    Describes (run IoRequest.record st rs) (sectors ++ visited rs) := by
  induction rs generalizing st sectors with
  | nil => simpa only [visited, List.flatMap_nil, List.append_nil, run_nil] using h
  | cons r rs ih =>
    rw [visited, List.flatMap_cons, ← List.append_assoc] at hlen ⊢
    have hfirst : sectors.length < 2 ^ 64 := by
      simp only [List.length_append] at hlen
      omega
    exact ih (h.record hfirst (hfit r List.mem_cons_self) r.isWrite r.now)
      (fun q hq => hfit q (List.mem_cons_of_mem r hq)) hlen

/-- After any run of requests the counters are those of the head that visited every
sector in turn, and a request of no blocks changes nothing. -/
theorem counters_eq_head_simulation (rs : List IoRequest)
    (hfit : ∀ r ∈ rs, r.lba.toNat + r.nblocks.toNat ≤ 2 ^ 32)
    (hblocks : (visited rs).length < 2 ^ 63) (hcross : headTravel (visited rs) < 2 ^ 63) :
    (floppyIoEventTrackCrossings (run IoRequest.record floppyIoEventInit rs)).toNat =
        headTravel (visited rs) ∧
      (floppyIoEventTotalBlocks (run IoRequest.record floppyIoEventInit rs)).toNat =
        (visited rs).length ∧
      (∀ s, (visited rs).getLast? = some s →
        (run IoRequest.record floppyIoEventInit rs).lastEndTrack.toUInt32.toNat = track s) ∧
      ∀ (st : FloppyIoEventState) (r : IoRequest), r.nblocks = 0 → r.record st = st := by
  have h : Describes (run IoRequest.record floppyIoEventInit rs) (visited rs) :=
    describes_init.run hfit (by rw [List.nil_append]; omega)
  refine ⟨?_, ?_, h.lastTrack, ?_⟩
  · rw [floppyIoEventTrackCrossings, h.crossings,
      UInt64.toNat_ofNat_of_lt' (hcross.trans (by decide))]
  · rw [floppyIoEventTotalBlocks, h.blocks,
      UInt64.toNat_ofNat_of_lt' (hblocks.trans (by decide))]
  · intro st r hn
    rw [IoRequest.record, hn, record_zero]

/-- A read over a track boundary, an empty request, and a write back on the first track. -/
theorem counters_eq_head_simulation_example :
    (floppyIoEventTrackCrossings (run IoRequest.record floppyIoEventInit
      [⟨30, 80, false, 1⟩, ⟨9, 0, true, 2⟩, ⟨35, 1, true, 3⟩])).toNat = 6 ∧
    (floppyIoEventTotalBlocks (run IoRequest.record floppyIoEventInit
      [⟨30, 80, false, 1⟩, ⟨9, 0, true, 2⟩, ⟨35, 1, true, 3⟩])).toNat = 81 := by
  have h := counters_eq_head_simulation [⟨30, 80, false, 1⟩, ⟨9, 0, true, 2⟩, ⟨35, 1, true, 3⟩]
    (by decide) (by decide) (by decide)
  exact ⟨h.1.trans (by decide), h.2.1.trans (by decide)⟩

end UsbFloppy.Kernel
