import UsbFloppy.Kernel.Counters
import UsbFloppy.Kernel.Medium

/-! Which bytes a READ delivers and which a WRITE stores, whatever the host, the backing file
and the signals make of the single buffers. -/

namespace UsbFloppy.Files
open Patch

variable {c : Contents} {start n k : ℕ} {data : ℕ → UInt8}

@[simp] theorem Contents.write_zero : c.write start 0 data = c :=
  Contents.ext rfl patch_zero

theorem Contents.write_write (c : Contents) (start n k : ℕ) (data : ℕ → UInt8) :
    (c.write start n data).write (start + n) k (fun i => data (n + i)) =
      c.write start (n + k) data := by
  refine Contents.ext ?_ (patch_patch c.byte start n k data)
  simp only [Contents.write]
  split_ifs <;> omega

theorem Contents.write_size (h : 0 < n → start + n ≤ c.size) :
    (c.write start n data).size = c.size := by
  rcases Nat.eq_zero_or_pos n with rfl | hpos
  · rw [Contents.write_zero]
  · exact (if_neg hpos.ne').trans (max_eq_left (h hpos))

end UsbFloppy.Files

namespace UsbFloppy.Kernel
open Files Patch

theorem sub_ofNat_toNat {r : UInt32} {n : ℕ} (h : n ≤ r.toNat) :
    (r - UInt32.ofNat n).toNat + n = r.toNat := by
  have hn : (UInt32.ofNat n).toNat = n := UInt32.toNat_ofNat_of_lt' (lt_of_le_of_lt h r.toNat_lt)
  have hle : UInt32.ofNat n ≤ r := UInt32.le_iff_toNat_le.mpr (hn.le.trans h)
  rw [UInt32.toNat_sub_of_le _ _ hle, hn, Nat.sub_add_cancel h]

theorem settle_le (lun : FsgLun) (available : Option ℕ) (amount : ℕ) :
    lun.settle amount (kernelIo available amount) ≤ amount := by
  have hle := kernelIo_le available amount
  unfold FsgLun.settle
  split
  · exact Nat.zero_le _
  · rename_i n hn
    rw [hn, Option.getD_some] at hle
    split_ifs
    · exact (Nat.div_mul_le_self _ _).trans hle
    · exact hle

/-- Fewer bytes than were asked for count as the whole blocks among them. -/
theorem settle_of_lt {lun : FsgLun} {result : Option ℕ} {amount : ℕ}
    (h : lun.settle amount result < amount) :
    lun.settle amount result = result.getD 0 / lun.blksize * lun.blksize := by
  cases result with
  | none => rw [Option.getD_none, Nat.zero_div, Nat.zero_mul, FsgLun.settle]
  | some n =>
    rw [FsgLun.settle] at h ⊢
    split_ifs at h ⊢ with hn
    · rfl
    · omega

theorem getD_of_settle {lun : FsgLun} {available : Option ℕ} {amount : ℕ}
    (h : ¬ lun.settle amount (kernelIo available amount) < amount) :
    lun.settle amount (kernelIo available amount) = amount ∧
      (kernelIo available amount).getD 0 = amount := by
  have hsettle := le_antisymm (settle_le lun available amount) (not_lt.mp h)
  refine ⟨hsettle, ?_⟩
  have hle := kernelIo_le available amount
  cases hresult : kernelIo available amount with
  | none =>
    rw [hresult, FsgLun.settle] at hsettle
    exact hsettle
  | some n =>
    rw [hresult, FsgLun.settle] at hsettle
    rw [hresult, Option.getD_some] at hle
    rw [Option.getD_some]
    split_ifs at hsettle with hn
    · have hdiv := Nat.div_mul_le_self n lun.blksize
      omega
    · exact hsettle

/-! ### What is read -/

/-- The bytes a read left in buffers for the host: `n` of the `size` bytes from `start` on,
by which the residue fell. -/
structure Delivered (c : Contents) (start size : ℕ) (t : Transfer) (before : List UInt8)
    (r : (Errno × Transfer) × List UInt8) (n : ℕ) : Prop where
  le : n ≤ size
  sent : r.2 = before ++ slice c.byte start n
  residue : r.1.2.residue.toNat + n = t.residue.toNat
  inFile : 0 < n → start + n ≤ t.curlun.fileLength

theorem Delivered.none {c : Contents} {start size : ℕ} {t : Transfer} {before : List UInt8}
    {r : (Errno × Transfer) × List UInt8} (hres : r.1.2.residue = t.residue)
    (hsent : r.2 = before) : Delivered c start size t before r 0 where
  le := Nat.zero_le _
  sent := by rw [hsent, slice_zero, List.append_nil]
  residue := congrArg UInt32.toNat hres
  inFile h := absurd h (lt_irrefl 0)

theorem readLoopBytes_delivered (chunks : ℕ → ReadChunk) (c : Contents) (k : ℕ) (t : Transfer)
    (before : List UInt8) (fileOffset amountLeft : ℕ) (hres : amountLeft ≤ t.residue.toNat) :
    ∃ n, Delivered c fileOffset amountLeft t before
      (readLoopBytes chunks c k t before fileOffset amountLeft) n := by
  fun_induction readLoopBytes chunks c k t before fileOffset amountLeft with
  | case1 k t before fileOffset amountLeft hint => exact ⟨0, .none rfl rfl⟩
  | case2 k t before fileOffset amountLeft amount hint hzero => exact ⟨0, .none rfl rfl⟩
  | case3 k t before fileOffset amountLeft amount hint hzero result t' hsignal =>
    exact ⟨0, .none rfl rfl⟩
  | case4 k t before fileOffset amountLeft amount hint hzero result nread t₁ hsignal t₂ sent hless =>
    have hle : nread ≤ amount := settle_le _ _ _
    have hfit : nread ≤ t.residue.toNat := by omega
    exact ⟨nread, by omega, rfl, sub_ofNat_toNat hfit, by omega⟩
  | case5 k t before fileOffset amountLeft amount hint hzero result nread t₁ hsignal t₂ sent hless
      hdone =>
    have hle : nread ≤ amount := settle_le _ _ _
    have hfit : nread ≤ t.residue.toNat := by omega
    exact ⟨nread, by omega, rfl, sub_ofNat_toNat hfit, by omega⟩
  | case6 k t before fileOffset amountLeft amount hint hzero result nread t₁ hsignal t₂ sent hless
      hdone hstarted ih =>
    have hle : nread ≤ amount := settle_le _ _ _
    have hfit : nread ≤ t.residue.toNat := by omega
    have hres₂ : t₂.residue.toNat + nread = t.residue.toNat := sub_ofNat_toNat hfit
    obtain ⟨n, h⟩ := ih (by omega)
    refine ⟨nread + n, ?_, ?_, ?_, fun _ => ?_⟩
    · have hn := h.le
      omega
    · rw [h.sent, List.append_assoc, slice_append]
    · have hresidue := h.residue
      omega
    · have hfile : 0 < n → fileOffset + nread + n ≤ t.curlun.fileLength := h.inFile
      omega
  | case7 k t before fileOffset amountLeft amount hint hzero result nread t₁ hsignal t₂ sent hless
      hdone hstarted =>
    have hle : nread ≤ amount := settle_le _ _ _
    have hfit : nread ≤ t.residue.toNat := by omega
    exact ⟨nread, by omega, rfl, sub_ofNat_toNat hfit, by omega⟩

/-! ### What is written -/

/-- What a write made of the file `c`: the first `n` bytes of the host are stored, and the
residue, when it is reported, fell by the whole blocks among them. Without a residue all the
data were asked for and no buffer is under way. -/
structure StoredBytes (c : Contents) (data : ℕ → UInt8) (start size residue blksize fileLength : ℕ)
    (r : (Errno × Transfer) × Contents × WriteState) (n : ℕ) : Prop where
  le : n ≤ size
  contents : r.2.1 = c.write start n data
  residue : r.1.1 ≠ .EINTR → r.1.2.residue.toNat + n / blksize * blksize = residue
  inFile : 0 < n → start + n ≤ fileLength
  taken : r.1.1 ≠ .EINTR → r.1.2.residue.toNat = 0 →
    r.1.2.usbAmountLeft.toNat = 0 ∧ r.2.2.inFlight = []

/-- Where the loop of a write stands after `done` bytes were stored. The buffer that comes
back next continues them, unless no further block fits or no buffer is left. -/
structure Streaming (c₀ : Contents) (data : ℕ → UInt8) (start size residue : ℕ) (t : Transfer)
    (c : Contents) (w : WriteState) (done : ℕ) : Prop where
  order : w.drained ≤ w.requested
  inFlight : w.inFlight =
    (List.range' w.drained (w.requested - w.drained)).map (chunkLength size)
  leftToReq : w.leftToReq = size - FSG_BUFLEN * w.requested
  more : w.getSomeMore = true → FSG_BUFLEN * w.requested < size
  asked : w.drained < w.requested → FSG_BUFLEN * (w.requested - 1) < size
  usbAmountLeft : t.usbAmountLeft.toNat + min size (FSG_BUFLEN * w.requested) = residue
  behind : done ≤ FSG_BUFLEN * w.drained
  fileOffset : w.fileOffset = start + done
  leftToWrite : w.leftToWrite = size - done
  contents : c = c₀.write start done data
  claimed : size ≤ residue
  residue : t.residue.toNat + done = residue
  le : done ≤ size
  inFile : 0 < done → start + done ≤ t.curlun.fileLength
  whole : t.curlun.blksize ∣ done
  next : done = FSG_BUFLEN * w.drained ∨ t.curlun.fileLength - w.fileOffset < t.curlun.blksize ∨
    size ≤ FSG_BUFLEN * w.drained

variable {c₀ c : Contents} {data : ℕ → UInt8} {start size residue done : ℕ} {t : Transfer}
  {w : WriteState}

/-- The loop ends here and nothing more was stored. -/
theorem Streaming.stop (h : Streaming c₀ data start size residue t c w done)
    (hleft : ¬ w.leftToWrite = 0) {r : (Errno × Transfer) × Contents × WriteState}
    (hres : r.1.2.residue = t.residue) (hcontents : r.2.1 = c) :
    ∃ n, StoredBytes c₀ data start size residue t.curlun.blksize t.curlun.fileLength r n := by
  refine ⟨done, h.le, hcontents.trans h.contents, fun _ => ?_, h.inFile, fun _ hzero => ?_⟩
  · rw [Nat.div_mul_cancel h.whole, hres]
    exact h.residue
  · have hresidue := h.residue
    have hclaimed := h.claimed
    have hrest := h.leftToWrite
    rw [hres] at hzero
    omega

theorem Streaming.nothing_in_flight (h : Streaming c₀ data start size residue t c w done)
    (hdone : size ≤ done) : w.drained = w.requested ∧ w.inFlight = [] := by
  have horder := h.order
  have hbehind := h.behind
  have hsame : w.drained = w.requested := by
    refine le_antisymm horder (not_lt.mp fun hlt => ?_)
    have hlast := h.asked hlt
    have hmul : FSG_BUFLEN * w.drained ≤ FSG_BUFLEN * (w.requested - 1) :=
      Nat.mul_le_mul_left _ (by omega)
    omega
  refine ⟨hsame, ?_⟩
  rw [h.inFlight, hsame, Nat.sub_self, List.range'_zero, List.map_nil]

/-- All bytes are stored. -/
theorem Streaming.finish (h : Streaming c₀ data start size residue t c w done)
    (hleft : w.leftToWrite = 0) (e : Errno) :
    ∃ n, StoredBytes c₀ data start size residue t.curlun.blksize t.curlun.fileLength
      ((e, t), c, w) n := by
  have hrest := h.leftToWrite
  obtain ⟨hsame, hempty⟩ := h.nothing_in_flight (by omega)
  refine ⟨done, h.le, h.contents, fun _ => ?_, h.inFile, fun _ hzero => ⟨?_, hempty⟩⟩
  · rw [Nat.div_mul_cancel h.whole]
    exact h.residue
  · have husb := h.usbAmountLeft
    have hresidue := h.residue
    have hclaimed := h.claimed
    have hbehind := h.behind
    have hle := h.le
    rw [← hsame] at husb
    simp only at hzero ⊢
    omega

/-- The medium has no room for another buffer. -/
theorem Streaming.shut (h : Streaming c₀ data start size residue t c w done)
    {sense fileOffset : ℕ} :
    Streaming c₀ data start size residue (t.fail sense fileOffset) c
      { w with getSomeMore := false } done :=
  { h with more := fun hmore => (by cases hmore) }

theorem Streaming.request (h : Streaming c₀ data start size residue t c w done)
    (hmore : w.getSomeMore = true) (usbOffset : ℕ) :
    Streaming c₀ data start size residue
      { t with usbAmountLeft := t.usbAmountLeft - UInt32.ofNat (min w.leftToReq FSG_BUFLEN) } c
      { w with
        usbOffset := usbOffset
        leftToReq := w.leftToReq - min w.leftToReq FSG_BUFLEN
        getSomeMore := w.leftToReq - min w.leftToReq FSG_BUFLEN ≠ 0
        inFlight := w.inFlight ++ [min w.leftToReq FSG_BUFLEN]
        requested := w.requested + 1 } done where
  order := h.order.trans (Nat.le_succ _)
  inFlight := by
    have horder := h.order
    have hlast : w.requested + 1 - w.drained = w.requested - w.drained + 1 := by omega
    have hend : w.drained + (w.requested - w.drained) = w.requested := by omega
    simp only
    rw [hlast, List.range'_concat, List.map_append, ← h.inFlight, Nat.one_mul, hend, h.leftToReq]
    rfl
  leftToReq := by
    have hleft := h.leftToReq
    simp only
    rw [Nat.mul_add, hleft]
    omega
  more hmore' := by
    have hleft := h.leftToReq
    have hmore' := of_decide_eq_true hmore'
    simp only [Nat.mul_add]
    omega
  asked _ := h.more hmore
  usbAmountLeft := by
    have husb := h.usbAmountLeft
    have hleft := h.leftToReq
    have hclaimed := h.claimed
    have hsub := sub_ofNat_toNat
      (show min w.leftToReq FSG_BUFLEN ≤ t.usbAmountLeft.toNat by omega)
    simp only [Nat.mul_add]
    omega
  behind := h.behind
  fileOffset := h.fileOffset
  leftToWrite := h.leftToWrite
  contents := h.contents
  residue := h.residue
  claimed := h.claimed
  le := h.le
  inFile := h.inFile
  whole := h.whole
  next := h.next

theorem cons_eq_map_range' {f : ℕ → ℕ} {a n x : ℕ} {xs : List ℕ}
    (h : x :: xs = (List.range' a n).map f) :
    0 < n ∧ x = f a ∧ xs = (List.range' (a + 1) (n - 1)).map f := by
  cases n with
  | zero => cases h
  | succ n =>
    rw [List.range'_succ, List.map_cons] at h
    obtain ⟨rfl, rfl⟩ := List.cons.inj h
    exact ⟨Nat.succ_pos n, rfl, rfl⟩

section Draining

variable {intended actual amount : ℕ} {rest : List ℕ}

theorem Streaming.head (h : Streaming c₀ data start size residue t c w done)
    (hw : w.inFlight = intended :: rest) :
    w.drained < w.requested ∧ FSG_BUFLEN * w.drained < size ∧
      intended = chunkLength size w.drained ∧
      rest = (List.range' (w.drained + 1) (w.requested - (w.drained + 1))).map
        (chunkLength size) := by
  obtain ⟨hpos, hintended, hrest⟩ := cons_eq_map_range' (hw.symm.trans h.inFlight)
  have hlast := h.asked (by omega)
  have hmul : FSG_BUFLEN * w.drained ≤ FSG_BUFLEN * (w.requested - 1) :=
    Nat.mul_le_mul_left _ (by omega)
  refine ⟨by omega, by omega, hintended, ?_⟩
  rw [hrest, Nat.sub_sub]

/-- The whole blocks taken from a buffer continue what is stored. -/
theorem Streaming.amount_spec (h : Streaming c₀ data start size residue t c w done)
    (hw : w.inFlight = intended :: rest)
    (hamount : amount = min (min actual (t.curlun.fileLength - w.fileOffset)) intended /
      t.curlun.blksize * t.curlun.blksize) :
    done + amount ≤ size ∧
      (0 < amount → done = FSG_BUFLEN * w.drained ∧ start + done + amount ≤ t.curlun.fileLength) := by
  obtain ⟨-, hmore, hintended, -⟩ := h.head hw
  have hle : amount ≤ min (min actual (t.curlun.fileLength - w.fileOffset)) intended :=
    hamount.le.trans (Nat.div_mul_le_self _ _)
  have hoffset := h.fileOffset
  have hdone := h.le
  have hchunk : intended ≤ size - FSG_BUFLEN * w.drained := hintended.le.trans (min_le_left _ _)
  rcases h.next with horder | hfull | hend
  · exact ⟨by omega, fun _ => ⟨horder, by omega⟩⟩
  · have hzero : amount = 0 := by
      rw [hamount, Nat.div_eq_of_lt (by omega), Nat.zero_mul]
    exact ⟨by omega, fun hpos => by omega⟩
  · omega

/-- A buffer that came back in full is followed by the next one, at the same place or behind
the blocks it held. -/
theorem Streaming.drain (h : Streaming c₀ data start size residue t c w done)
    (hblk : t.curlun.blksize ∣ FSG_BUFLEN) (hw : w.inFlight = intended :: rest)
    (hamount : amount = min (min actual (t.curlun.fileLength - w.fileOffset)) intended /
      t.curlun.blksize * t.curlun.blksize)
    (hactual : ¬ actual < intended) {t' : Transfer} {c' : Contents} (hlun : t'.curlun = t.curlun)
    (husb : t'.usbAmountLeft = t.usbAmountLeft)
    (hresidue : t'.residue.toNat + (done + amount) = residue)
    (hcontents : c' = c₀.write start (done + amount) data) :
    Streaming c₀ data start size residue t' c'
      { w with
        inFlight := rest
        drained := w.drained + 1
        fileOffset := w.fileOffset + amount
        leftToWrite := w.leftToWrite - amount } (done + amount) := by
  obtain ⟨hlt, hmore, hintended, hrest⟩ := h.head hw
  obtain ⟨hle, hfits⟩ := h.amount_spec hw hamount
  have hoffset := h.fileOffset
  have hleft := h.leftToWrite
  refine
    { order := hlt
      inFlight := hrest
      leftToReq := h.leftToReq
      more := h.more
      asked := fun _ => h.asked hlt
      usbAmountLeft := by rw [husb]; exact h.usbAmountLeft
      behind := ?_
      fileOffset := by simp only [hoffset, Nat.add_assoc]
      leftToWrite := by simp only [hleft, Nat.sub_sub]
      contents := hcontents
      residue := hresidue
      claimed := h.claimed
      le := hle
      inFile := fun hpos => ?_
      whole := ?_
      next := ?_ }
  · have hbehind := h.behind
    have hsmall : amount ≤ FSG_BUFLEN :=
      (hamount.le.trans (Nat.div_mul_le_self _ _)).trans ((min_le_right _ _).trans
        (hintended.le.trans (min_le_right _ _)))
    simp only [Nat.mul_add, Nat.mul_one]
    omega
  · rw [hlun]
    rcases Nat.eq_zero_or_pos amount with hzero | hsome
    · have hold := h.inFile
      omega
    · have hnew := (hfits hsome).2
      omega
  · rw [hlun]
    exact (Nat.dvd_add_right h.whole).mpr (hamount ▸ Nat.dvd_mul_left _ _)
  · rw [hlun]
    simp only [Nat.mul_add, Nat.mul_one]
    simp only [chunkLength] at hintended
    rcases h.next with horder | hfull | hend
    · -- in order: the buffer was full, the last one, or did not fit on the medium
      by_cases hlast : size ≤ FSG_BUFLEN * w.drained + FSG_BUFLEN
      · exact Or.inr (Or.inr hlast)
      have hfull : intended = FSG_BUFLEN := by omega
      by_cases hfit : FSG_BUFLEN ≤ t.curlun.fileLength - w.fileOffset
      · left
        have hmin : min (min actual (t.curlun.fileLength - w.fileOffset)) intended = FSG_BUFLEN := by
          omega
        rw [hmin, Nat.div_mul_cancel hblk] at hamount
        omega
      · right; left
        have hmin : min (min actual (t.curlun.fileLength - w.fileOffset)) intended =
            t.curlun.fileLength - w.fileOffset := by omega
        have hpos : 0 < t.curlun.blksize := Nat.pos_of_dvd_of_pos hblk (by decide)
        have hmod := Nat.mod_lt (t.curlun.fileLength - w.fileOffset) hpos
        have hdiv := Nat.div_add_mod' (t.curlun.fileLength - w.fileOffset) t.curlun.blksize
        rw [hmin] at hamount
        omega
    · exact Or.inr (Or.inl (by omega))
    · omega

end Draining

/-- The bytes of one buffer behind those stored before. -/
theorem Streaming.write (h : Streaming c₀ data start size residue t c w done) {bytes : ℕ}
    (horder : 0 < bytes → done = FSG_BUFLEN * w.drained) :
    c.write w.fileOffset bytes (fun i => data (FSG_BUFLEN * w.drained + i)) =
      c₀.write start (done + bytes) data := by
  rcases Nat.eq_zero_or_pos bytes with rfl | hpos
  · rw [Contents.write_zero]
    exact h.contents
  · rw [h.contents, h.fileOffset, ← horder hpos, Contents.write_write]

theorem Streaming.count (h : Streaming c₀ data start size residue t c w done) {bytes : ℕ}
    (hle : done + bytes ≤ size) :
    (t.residue - UInt32.ofNat bytes).toNat + (done + bytes) = residue := by
  have hres := h.residue
  have hclaimed := h.claimed
  have hsub := sub_ofNat_toNat (show bytes ≤ t.residue.toNat by omega)
  omega

/-- Whatever the loop of a write ends by, the bytes it stored are a first part of those the
host sent, in one piece from `start` on. -/
theorem writeLoopBytes_stored (chunks : ℕ → WriteChunk) (data : ℕ → UInt8)
    (h : Streaming c₀ data start size residue t c w done) (hblk : t.curlun.blksize ∣ FSG_BUFLEN) :
    ∃ n, StoredBytes c₀ data start size residue t.curlun.blksize t.curlun.fileLength
      (writeLoopBytes chunks data t c w) n := by
  -- `done` bytes lie in the file at the start of each round, in one piece
  fun_induction writeLoopBytes chunks data t c w generalizing done
  case case1 t c w hleft => exact h.finish hleft _
  case case2 t c w hleft hfill hend ih => exact ih h.shut hblk
  case case3 t c w hleft hfill amount hend t' hstarted ih => exact ih (h.request hfill.2 _) hblk
  case case4 => exact h.stop (by assumption) rfl rfl
  case case5 => exact h.stop (by assumption) rfl rfl
  case case6 => exact h.stop (by assumption) rfl rfl
  case case7 => exact h.stop (by assumption) rfl rfl
  case case8 => exact h.stop (by assumption) rfl rfl
  case case9 t c w hleft hfill intended rest hw chunk w' hint hstatus whole amount hzero hshort ih =>
    exact ih (h.drain hblk hw hzero.symm hshort rfl rfl h.residue h.contents) hblk
  -- a signal: what the file took of the buffer is there, but not counted
  case case10 t c w hleft hfill intended rest hw chunk w' hint hstatus whole amount hne result t'
      c' hsignal =>
    obtain ⟨hle, hfits⟩ := h.amount_spec hw (rfl : amount = _)
    have hbytes : result.getD 0 ≤ amount := kernelIo_le _ _
    obtain ⟨horder, hfile⟩ := hfits (Nat.pos_of_ne_zero hne)
    exact ⟨done + result.getD 0, by omega, h.write fun _ => horder, fun hne => absurd rfl hne,
      by omega, fun hne => absurd rfl hne⟩
  -- an error: the residue counts whole blocks only
  case case11 t c w hleft hfill intended rest hw chunk w' hint hstatus whole amount hne result
      nwritten t₁ c' hsignal t₂ hless =>
    obtain ⟨hle, hfits⟩ := h.amount_spec hw (rfl : amount = _)
    have hbytes : result.getD 0 ≤ amount := kernelIo_le _ _
    obtain ⟨horder, hfile⟩ := hfits (Nat.pos_of_ne_zero hne)
    have hsettle : nwritten = result.getD 0 / t.curlun.blksize * t.curlun.blksize :=
      settle_of_lt hless
    have hwhole : (done + result.getD 0) / t.curlun.blksize * t.curlun.blksize =
        done + nwritten := by
      obtain ⟨q, hq⟩ := h.whole
      have hpos : 0 < t.curlun.blksize := Nat.pos_of_dvd_of_pos hblk (by decide)
      rw [hsettle, hq, Nat.mul_add_div hpos, Nat.add_mul, Nat.mul_comm q]
    have hclaimed := h.claimed
    have hcount : t₂.residue.toNat + (done + nwritten) = residue := h.count (by omega)
    refine ⟨done + result.getD 0, by omega, h.write fun _ => horder, fun _ => ?_, by omega,
      fun _ hzero => ?_⟩
    · rw [hwhole]
      exact hcount
    · have hnone : t₂.residue.toNat = 0 := hzero
      omega
  -- a short packet ends the loop when its blocks are stored
  case case12 t c w hleft hfill intended rest hw chunk w' hint hstatus whole amount hne result
      nwritten t₁ c' hsignal t₂ hless hshort =>
    obtain ⟨hle, hfits⟩ := h.amount_spec hw (rfl : amount = _)
    obtain ⟨horder, hfile⟩ := hfits (Nat.pos_of_ne_zero hne)
    obtain ⟨hsettle, hbytes⟩ : nwritten = amount ∧ result.getD 0 = amount := getD_of_settle hless
    have hwhole : (done + result.getD 0) / t.curlun.blksize * t.curlun.blksize =
        done + nwritten := by
      rw [hbytes, hsettle]
      exact Nat.div_mul_cancel ((Nat.dvd_add_right h.whole).mpr (Nat.dvd_mul_left _ _))
    have hclaimed := h.claimed
    have hcount : t₂.residue.toNat + (done + nwritten) = residue := h.count (by omega)
    refine ⟨done + result.getD 0, by omega, h.write fun _ => horder, fun _ => ?_, by omega,
      fun _ hzero => ?_⟩
    · rw [hwhole]
      exact hcount
    · have hnone : t₂.residue.toNat = 0 := hzero
      obtain ⟨-, -, hintended, -⟩ := h.head hw
      have hchunk : intended ≤ size - FSG_BUFLEN * w.drained := hintended.le.trans (min_le_left _ _)
      have hshort' : (chunks w.drained).actual < intended := hshort
      have hamount : amount ≤ min (min (chunks w.drained).actual
          (t.curlun.fileLength - w.fileOffset)) intended := Nat.div_mul_le_self _ _
      omega
  case case13 t c w hleft hfill intended rest hw chunk w' hint hstatus whole amount hne result
      nwritten t₁ c' hsignal t₂ hless hshort ih =>
    obtain ⟨hle, hfits⟩ := h.amount_spec hw (rfl : amount = _)
    obtain ⟨horder, hfile⟩ := hfits (Nat.pos_of_ne_zero hne)
    obtain ⟨hsettle, hbytes⟩ : nwritten = amount ∧ result.getD 0 = amount := getD_of_settle hless
    have hcontents : c' = c₀.write start (done + nwritten) data := by
      rw [hsettle, ← hbytes]
      exact h.write fun _ => horder
    exact ih (h.drain hblk hw hsettle hshort rfl rfl (h.count (by omega)) hcontents) hblk

/-! ### The two commands -/

theorem doReadBytes_delivered (t : Transfer) (c : Contents) (now : UInt64)
    (chunks : ℕ → ReadChunk) (hclaimed : t.dataSizeFromCmnd.toNat ≤ t.residue.toNat) :
    ∃ n, Delivered c (lbaOf READ_6 READ_16 t.cmnd <<< t.curlun.blkbits)
      t.dataSizeFromCmnd.toNat t [] (doReadBytes t c now chunks) n := by
  unfold doReadBytes
  dsimp only
  split_ifs
  · exact ⟨0, .none rfl rfl⟩
  · exact ⟨0, .none rfl rfl⟩
  · exact ⟨0, .none rfl rfl⟩
  · obtain ⟨n, h⟩ := readLoopBytes_delivered chunks c 0 (t.hooks _ false now) [] _ _ hclaimed
    exact ⟨n, h.le, h.sent, h.residue, h.inFile⟩

theorem StoredBytes.none {c : Contents} {data : ℕ → UInt8}
    {start size residue blksize fileLength : ℕ} {r : (Errno × Transfer) × Contents × WriteState}
    (hres : r.1.2.residue.toNat = residue) (husb : r.1.2.usbAmountLeft.toNat = residue)
    (hcontents : r.2.1 = c) (hempty : r.2.2.inFlight = []) :
    StoredBytes c data start size residue blksize fileLength r 0 where
  le := Nat.zero_le _
  contents := by rw [hcontents, Contents.write_zero]
  residue _ := by rw [Nat.zero_div, Nat.zero_mul, Nat.add_zero, hres]
  inFile h := absurd h (lt_irrefl 0)
  taken _ hzero := ⟨husb.trans (hres.symm.trans hzero), hempty⟩

theorem streaming_start (c : Contents) (data : ℕ → UInt8) (start : ℕ) {size residue : ℕ}
    (hclaimed : size ≤ residue) {t : Transfer} (hresidue : t.residue.toNat = residue)
    (husb : t.usbAmountLeft.toNat = residue) (hpos : 0 < size) : Streaming c data start size residue t c
      (writeStart start size) 0 where
  order := le_refl 0
  inFlight := rfl
  leftToReq := rfl
  more _ := hpos
  asked h := absurd h (lt_irrefl 0)
  usbAmountLeft := by
    rw [show FSG_BUFLEN * (writeStart start size).requested = 0 from rfl, Nat.min_zero]
    exact husb
  behind := Nat.zero_le _
  fileOffset := rfl
  leftToWrite := rfl
  contents := Contents.write_zero.symm
  claimed := hclaimed
  residue := hresidue
  le := Nat.zero_le _
  inFile h := absurd h (lt_irrefl 0)
  whole := Nat.dvd_zero _
  next := Or.inl rfl

theorem writeLoopBytes_start (chunks : ℕ → WriteChunk) (c : Contents) (data : ℕ → UInt8)
    (start : ℕ) {size residue : ℕ} (hclaimed : size ≤ residue) (t : Transfer)
    (hresidue : t.residue.toNat = residue) (husb : t.usbAmountLeft.toNat = residue)
    (hblk : t.curlun.blksize ∣ FSG_BUFLEN) :
    ∃ n, StoredBytes c data start size residue t.curlun.blksize t.curlun.fileLength
      (writeLoopBytes chunks data t c (writeStart start size)) n := by
  rcases Nat.eq_zero_or_pos size with rfl | hpos
  · rw [writeLoopBytes, if_pos (show (writeStart start 0).leftToWrite = 0 from rfl)]
    exact ⟨0, .none hresidue husb rfl rfl⟩
  · exact writeLoopBytes_stored chunks data
      (streaming_start c data start hclaimed hresidue husb hpos) hblk

/-- A WRITE stores a first part of the host's bytes, none of them on a read-only LUN. -/
theorem doWriteBytes_stored (t : Transfer) (c : Contents) (now : UInt64)
    (chunks : ℕ → WriteChunk) (data : ℕ → UInt8) (hblk : t.curlun.blksize ∣ FSG_BUFLEN)
    (hclaimed : t.dataSizeFromCmnd.toNat ≤ t.residue.toNat)
    (husb : t.usbAmountLeft = t.residue) :
    ∃ n, StoredBytes c data (lbaOf WRITE_6 WRITE_16 t.cmnd <<< t.curlun.blkbits)
        t.dataSizeFromCmnd.toNat t.residue.toNat t.curlun.blksize t.curlun.fileLength
        (doWriteBytes t c now chunks data) n ∧
      (t.curlun.ro = true → n = 0) := by
  unfold doWriteBytes
  dsimp only
  split_ifs with hro hinvalid hend
  · exact ⟨0, .none rfl (congrArg UInt32.toNat husb) rfl rfl, fun _ => rfl⟩
  · exact ⟨0, .none rfl (congrArg UInt32.toNat husb) rfl rfl, fun _ => rfl⟩
  · exact ⟨0, .none rfl (congrArg UInt32.toNat husb) rfl rfl, fun _ => rfl⟩
  · generalize decide (t.cmnd 0 ≠ WRITE_6 ∧ t.curlun.nofua = false ∧ t.cmnd 1 &&& 0x08 ≠ 0) = fua
    obtain ⟨n, h⟩ := writeLoopBytes_start chunks c data
      (lbaOf WRITE_6 WRITE_16 t.cmnd <<< t.curlun.blkbits) hclaimed
      (Transfer.hooks { t with oSync := fua } (lbaOf WRITE_6 WRITE_16 t.cmnd) true now) rfl
      (congrArg UInt32.toNat husb) hblk
    exact ⟨n, h, fun hro' => absurd hro' hro⟩

end UsbFloppy.Kernel
