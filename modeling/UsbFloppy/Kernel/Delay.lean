import Mathlib.Algebra.Order.Field.Rat
import Mathlib.Tactic.Linarith
import Mathlib.Tactic.NormNum
import UsbFloppy.Kernel.Scsi

/-! How long a request sleeps for its transfer, beside what the presets mean. -/

namespace UsbFloppy.Kernel

def FloppyThrottlePreset.rate (p : FloppyThrottlePreset) (isWrite : Bool) : UInt32 :=
  if isWrite then p.writeKbps else p.readKbps

/-- What do_read and do_write hand to the throttle. -/
def Transfer.request (t : Transfer) (lba : ℕ) (isWrite : Bool) (now : UInt64) : IoRequest :=
  ⟨UInt32.ofNat lba, UInt32.ofNat (t.dataSizeFromCmnd.toNat >>> t.curlun.blkbits), isWrite, now⟩

/-- The least time slept for the transfer. -/
def IoDelay.us (d : IoDelay) : ℕ :=
  match d.transfer with
  | some (lower, _) => lower.toNat
  | none => 0

/-- The formula of the delay, in numbers that do not wrap. -/
def exactUs (nblocks kbps : ℕ) : ℕ := nblocks * 512000 / (kbps * 1024 / 1000 + 1)

/-- The time in microseconds that the blocks take at the rate. -/
def idealUs (nblocks kbps : ℕ) : ℚ := nblocks * 512 / (kbps * 1024) * 1000000

/-- A request is delayed as its preset says. -/
structure Paced (st : FloppyThrottleState) (p : FloppyThrottlePreset) (r : IoRequest) : Prop where
  bounds : ∃ lower upper, (floppyThrottleOn (st.apply p) r).2.transfer = some (lower, upper) ∧
    lower.toNat = exactUs r.nblocks.toNat (p.rate r.isWrite).toNat ∧
    upper.toNat = exactUs r.nblocks.toNat (p.rate r.isWrite).toNat +
      exactUs r.nblocks.toNat (p.rate r.isWrite).toNat / 10 + 1
  monotone : ∀ n, n ≤ r.nblocks → (floppyThrottleOn (st.apply p) { r with nblocks := n }).2.us ≤
    (floppyThrottleOn (st.apply p) r).2.us
  near : |((floppyThrottleOn (st.apply p) r).2.us : ℚ) -
    idealUs r.nblocks.toNat (p.rate r.isWrite).toNat| ≤
      5 / 100 * idealUs r.nblocks.toNat (p.rate r.isWrite).toNat + 1

theorem hooks_throttle (t : Transfer) (lba : ℕ) (isWrite : Bool) (now : UInt64) :
    (t.hooks lba isWrite now).throttle =
      (floppyThrottleOn t.throttle (t.request lba isWrite now)).1 := rfl

theorem request_nblocks_lt {t : Transfer} (hbits : t.curlun.blkbits = 9) (lba : ℕ)
    (isWrite : Bool) (now : UInt64) : (t.request lba isWrite now).nblocks.toNat < 2 ^ 23 := by
  have hsize := t.dataSizeFromCmnd.toNat_lt
  have hshift : t.dataSizeFromCmnd.toNat >>> t.curlun.blkbits < 2 ^ 23 := by
    rw [hbits, Nat.shiftRight_eq_div_pow]
    omega
  change (UInt32.ofNat (t.dataSizeFromCmnd.toNat >>> t.curlun.blkbits)).toNat < 2 ^ 23
  rw [UInt32.toNat_ofNat_of_lt' (hshift.trans (by decide))]
  exact hshift

variable {st : FloppyThrottleState} {p : FloppyThrottlePreset} {r : IoRequest}

theorem rate_cases (hp : p ∈ presets) {isWrite : Bool} (hrate : p.rate isWrite ≠ 0) :
    p.rate isWrite = 50 ∨ p.rate isWrite = 30 ∨ p.rate isWrite = 200 := by
  simp only [presets, List.mem_cons, List.not_mem_nil, or_false] at hp
  rcases hp with rfl | rfl | rfl <;> cases isWrite
  · exact Or.inl rfl
  · exact Or.inr (Or.inl rfl)
  · exact Or.inr (Or.inr rfl)
  · exact Or.inr (Or.inr rfl)
  · exact absurd rfl hrate
  · exact absurd rfl hrate

theorem floppyThrottleOn_apply (hrate : p.rate r.isWrite ≠ 0) :
    (floppyThrottleOn (st.apply p) r).2.transfer =
      if r.nblocks > 0 ∧ ioUs r.nblocks (p.rate r.isWrite) > 0 then
        some (ioUs r.nblocks (p.rate r.isWrite), ioUs r.nblocks (p.rate r.isWrite) +
          ioUs r.nblocks (p.rate r.isWrite) / 10 + 1)
      else none := by
  have hpos : p.rate r.isWrite > 0 := UInt32.pos_iff_ne_zero.mpr hrate
  have hon : (floppyThrottleOn (st.apply p) r).2 =
      (applyIoDelay (st.apply p) r.lba r.nblocks (p.rate r.isWrite)).2 := by
    unfold floppyThrottleOn floppyThrottleOnWrite floppyThrottleOnRead FloppyThrottlePreset.rate
    split_ifs <;> rfl
  have hwork : ¬ (p.rate r.isWrite = 0 ∧ (st.apply p).seekUs = 0) := fun h => hrate h.1
  rw [hon, applyIoDelay, if_neg hwork]
  simp only [hpos, true_and]

/-- The multiplication wraps; the division is of what is left. -/
theorem ioUs_toNat (nblocks : UInt32) {kbps : UInt32} (hk : kbps = 50 ∨ kbps = 30 ∨ kbps = 200) :
    (ioUs nblocks kbps).toNat =
      nblocks.toNat * 512000 % 2 ^ 32 / (kbps.toNat * 1024 / 1000 + 1) := by
  have hmul : (nblocks * 512 * 1000).toNat = nblocks.toNat * 512000 % 2 ^ 32 := by
    simp only [UInt32.toNat_mul, UInt32.reduceToNat]
    omega
  unfold ioUs
  rw [UInt32.toNat_div, hmul]
  rcases hk with rfl | rfl | rfl <;> rfl

/-- The formula wraps from 8389 blocks on, and is never right again. -/
theorem ioUs_eq_exactUs_iff (nblocks : UInt32) {kbps : UInt32}
    (hk : kbps = 50 ∨ kbps = 30 ∨ kbps = 200) :
    (ioUs nblocks kbps).toNat = exactUs nblocks.toNat kbps.toNat ↔ nblocks.toNat ≤ 8388 := by
  rw [ioUs_toNat nblocks hk, exactUs]
  rcases hk with rfl | rfl | rfl <;> simp only [UInt32.reduceToNat] <;> omega

theorem exactUs_pos {nblocks : ℕ} (hn : 0 < nblocks) {kbps : UInt32}
    (hk : kbps = 50 ∨ kbps = 30 ∨ kbps = 200) : 0 < exactUs nblocks kbps.toNat := by
  unfold exactUs
  rcases hk with rfl | rfl | rfl <;> simp only [UInt32.reduceToNat] <;> omega

theorem exactUs_mono {m n : ℕ} (h : m ≤ n) (kbps : ℕ) : exactUs m kbps ≤ exactUs n kbps :=
  Nat.div_le_div_right (Nat.mul_le_mul_right 512000 h)

theorem exactUs_le {nblocks : ℕ} (hn : nblocks ≤ 8388) {kbps : UInt32}
    (hk : kbps = 50 ∨ kbps = 30 ∨ kbps = 200) : exactUs nblocks kbps.toNat ≤ 2 ^ 31 := by
  unfold exactUs
  rcases hk with rfl | rfl | rfl <;> simp only [UInt32.reduceToNat] <;> omega

theorem us_of_small (hk : p.rate r.isWrite = 50 ∨ p.rate r.isWrite = 30 ∨ p.rate r.isWrite = 200)
    (hrate : p.rate r.isWrite ≠ 0) (hsmall : r.nblocks.toNat ≤ 8388) :
    (floppyThrottleOn (st.apply p) r).2.us = exactUs r.nblocks.toNat (p.rate r.isWrite).toNat := by
  have hexact := (ioUs_eq_exactUs_iff r.nblocks hk).mpr hsmall
  unfold IoDelay.us
  rw [floppyThrottleOn_apply hrate]
  split_ifs with hsleeps
  · exact hexact
  · have hzero : r.nblocks.toNat = 0 := by
      by_contra hne
      have hpos : 0 < r.nblocks.toNat := Nat.pos_of_ne_zero hne
      refine hsleeps ⟨UInt32.lt_iff_toNat_lt.mpr hpos, UInt32.lt_iff_toNat_lt.mpr ?_⟩
      rw [hexact]
      exact exactUs_pos hpos hk
    rw [hzero, exactUs, Nat.zero_mul, Nat.zero_div]

theorem div_near (a : ℕ) {divisor : ℕ} {e : ℚ} (he : 0 < e) (hlow : e ≤ divisor)
    (hhigh : (divisor : ℚ) ≤ 21 / 20 * e) :
    |((a / divisor : ℕ) : ℚ) - a / e| ≤ 5 / 100 * (a / e) + 1 := by
  have ha : (0 : ℚ) ≤ a := Nat.cast_nonneg a
  have hdivisor : (0 : ℚ) < divisor := he.trans_le hlow
  have hideal : 0 ≤ a / e := div_nonneg ha he.le
  have hfloor : ((a / divisor : ℕ) : ℚ) ≤ a / divisor := by
    rw [le_div_iff₀ hdivisor]
    exact_mod_cast Nat.div_mul_le_self a divisor
  have hceil : (a : ℚ) / divisor < (a / divisor : ℕ) + 1 := by
    rw [div_lt_iff₀' hdivisor]
    exact_mod_cast Nat.lt_mul_div_succ a (Nat.cast_pos.mp hdivisor)
  have hupper : (a : ℚ) / divisor ≤ a / e := div_le_div_of_nonneg_left ha he hlow
  have hlower : 20 / 21 * (a / e) ≤ a / divisor := by
    have h := div_le_div_of_nonneg_left ha hdivisor hhigh
    have htwentieth : (a : ℚ) / (21 / 20 * e) = 20 / 21 * (a / e) := by
      rw [div_mul_eq_div_div_swap]
      ring
    rwa [htwentieth] at h
  rw [abs_le]
  constructor
  · linarith
  · linarith

theorem exactUs_near (nblocks : ℕ) {kbps : UInt32} (hk : kbps = 50 ∨ kbps = 30 ∨ kbps = 200) :
    |(exactUs nblocks kbps.toNat : ℚ) - idealUs nblocks kbps.toNat| ≤
      5 / 100 * idealUs nblocks kbps.toNat + 1 := by
  have hideal : idealUs nblocks kbps.toNat =
      ((nblocks * 512000 : ℕ) : ℚ) / ((kbps.toNat : ℚ) * 1024 / 1000) := by
    unfold idealUs
    push_cast
    rcases hk with rfl | rfl | rfl <;> simp only [UInt32.reduceToNat] <;> ring
  rw [hideal]
  unfold exactUs
  apply div_near
  · rcases hk with rfl | rfl | rfl <;> simp only [UInt32.reduceToNat] <;> norm_num
  · rcases hk with rfl | rfl | rfl <;> simp only [UInt32.reduceToNat] <;> norm_num
  · rcases hk with rfl | rfl | rfl <;> simp only [UInt32.reduceToNat] <;> norm_num

/-- A request is delayed as its preset says exactly if it has at most 8388 blocks. -/
theorem paced_iff (st : FloppyThrottleState) (hp : p ∈ presets)
    (hrate : p.rate r.isWrite ≠ 0) (hblocks : 0 < r.nblocks) :
    Paced st p r ↔ r.nblocks ≤ 8388 := by
  have hk := rate_cases hp hrate
  rw [UInt32.le_iff_toNat_le, show (8388 : UInt32).toNat = 8388 from rfl]
  constructor
  · rintro ⟨⟨lower, upper, htransfer, hlower, -⟩, -, -⟩
    rw [floppyThrottleOn_apply hrate] at htransfer
    split_ifs at htransfer
    cases htransfer
    exact (ioUs_eq_exactUs_iff r.nblocks hk).mp hlower
  · intro hsmall
    have hexact := (ioUs_eq_exactUs_iff r.nblocks hk).mpr hsmall
    have hus : (floppyThrottleOn (st.apply p) r).2.us =
        exactUs r.nblocks.toNat (p.rate r.isWrite).toNat := us_of_small hk hrate hsmall
    have hsleeps : r.nblocks > 0 ∧ ioUs r.nblocks (p.rate r.isWrite) > 0 := by
      refine ⟨hblocks, UInt32.lt_iff_toNat_lt.mpr ?_⟩
      rw [hexact]
      exact exactUs_pos (UInt32.lt_iff_toNat_lt.mp hblocks) hk
    refine ⟨⟨_, _, (floppyThrottleOn_apply hrate).trans (if_pos hsleeps), hexact, ?_⟩, ?_, ?_⟩
    · have hlt := exactUs_le hsmall hk
      rw [UInt32.toNat_add, UInt32.toNat_add, UInt32.toNat_div, hexact]
      simp only [UInt32.reduceToNat]
      omega
    · intro n hn
      have hn' : n.toNat ≤ r.nblocks.toNat := UInt32.le_iff_toNat_le.mp hn
      rw [hus, us_of_small (r := { r with nblocks := n }) hk hrate (hn'.trans hsmall)]
      exact exactUs_mono hn' _
    · rw [hus]
      exact exactUs_near _ hk

theorem paced_iff_example : Paced floppyThrottleInit floppyReal ⟨0, 18, false, 0⟩ :=
  (paced_iff (r := ⟨0, 18, false, 0⟩) floppyThrottleInit (by decide) (by decide) (by decide)).mpr
    (by decide)

/-- A READ_10 of 8389 blocks from the first one on. -/
def longRead : HostCommand where
  cmnd i := if i = 0 then READ_10 else if i = 7 then 0x20 else if i = 8 then 0xc5 else 0
  cmndSize := 10
  dataDir := .toHost
  dataSize := 8389 * 512

def floppyLun : FsgLun :=
  { removableLun with
    filp := some ⟨"/home/pi/floppies/games/disk.img".toList, .reg, 1474560, true, true, true⟩
    fileLength := 1474560
    numSectors := 2880
    blkbits := 9
    blksize := 512 }

/-- The command passes its checks with all its blocks, and sleeps 4 ms instead of 82 s. -/
theorem long_read_wraps :
    (∃ c, checkScsi (longRead.received floppyLun) = .ok c ∧
      ∀ t now, ((c.begin floppyLun t).request 0 false now).nblocks = 8389) ∧
      ¬ Paced floppyThrottleInit floppyReal ⟨0, 8389, false, 0⟩ := by
  have hsize : (checkScsi (longRead.received floppyLun)).state.dataSizeFromCmnd = 8389 * 512 := by
    decide
  refine ⟨⟨_, rfl, fun t now => ?_⟩, ?_⟩
  · change UInt32.ofNat
      ((checkScsi (longRead.received floppyLun)).state.dataSizeFromCmnd.toNat >>> 9) = 8389
    rw [hsize]
    decide
  rintro ⟨⟨lower, upper, htransfer, hlower, -⟩, -, -⟩
  have hwrapped : (floppyThrottleOn (floppyThrottleInit.apply floppyReal)
      ⟨0, 8389, false, 0⟩).2.transfer = some (3859, 4245) := by decide
  cases htransfer.symm.trans hwrapped
  exact absurd hlower (by decide)

end UsbFloppy.Kernel
