import UsbFloppy.Kernel.Transfer

/-! The counters against the transfers. The hooks of do_read and do_write count the blocks a
command claims before any of them is moved. -/

namespace UsbFloppy.Kernel
open Transition

/-- A LUN on a regular file: blocks of 512 bytes, as many as the file holds in full. -/
structure OnRegularFile (lun : FsgLun) : Prop where
  blkbits : lun.blkbits = 9
  blksize : lun.blksize = 512
  numSectors : lun.numSectors = lun.fileLength / 512

/-- The command adds to the counters exactly the blocks it moves, and the way of the head
over them from the block accessed before. -/
def Publishes (t : Transfer) (cmd : IoCommand) : Prop :=
  ∃ blocks, (ioStep t cmd).moved = t.moved ++ blocks ∧
    (ioStep t cmd).io.totalBlocks.toUInt64 =
      t.io.totalBlocks.toUInt64 + UInt64.ofNat blocks.length ∧
    (ioStep t cmd).io.trackCrossings.toUInt64 =
      t.io.trackCrossings.toUInt64 + UInt64.ofNat (headTravelFrom t.moved.getLast? blocks)

/-! ### The condition -/

/-- The blocks lie on the medium, and no counter is at its end. -/
structure Fits (t : Transfer) (lba n : ℕ) : Prop where
  medium : lba + n ≤ t.curlun.numSectors
  addressable : lba + n ≤ 2 ^ 32
  total : t.moved.length + n < 2 ^ 64

/-- The bytes buffer `i` carries of `n` whole blocks. -/
def blockBytes (n i : ℕ) : ℕ := 512 * min (n - 32 * i) 32

theorem blockBytes_ne_zero {n i : ℕ} (h : 32 * i < n) : blockBytes n i ≠ 0 := by
  unfold blockBytes
  omega

/-- From buffer `k` on, `n` blocks can be read, and nothing ends the loop before the last of
them is read. -/
def ReadsInFull (chunks : ℕ → ReadChunk) (k n : ℕ) : Prop :=
  ∀ i, 32 * i < n → (chunks (k + i)).interrupted = false ∧
    (∃ bytes, (chunks (k + i)).available = some bytes ∧ blockBytes n i ≤ bytes) ∧
    (32 * (i + 1) < n → (chunks (k + i)).signal = false ∧ (chunks (k + i)).started = true)

/-- Every buffer is asked of the host, and those with the `n` blocks arrive and are written. -/
structure WritesInFull (chunks : ℕ → WriteChunk) (size n : ℕ) : Prop where
  started : ∀ i, FSG_BUFLEN * i < size → (chunks i).started = true
  written : ∀ i, 32 * i < n → (chunks i).interrupted = false ∧ (chunks i).status = 0 ∧
    blockBytes n i ≤ (chunks i).actual ∧
    (∃ bytes, (chunks i).available = some bytes ∧ blockBytes n i ≤ bytes) ∧
    (32 * (i + 1) < n → (chunks i).signal = false)

/-- A command that is not refused, and claims a block, moves all the blocks it claims. -/
def MovedInFull (t : Transfer) (cmd : IoCommand) : Prop :=
  let n := cmd.dataSizeFromCmnd.toNat / 512
  match cmd.chunks with
  | .read chunks => ¬ invalidField READ_6 cmd.cmnd →
    lbaOf READ_6 READ_16 cmd.cmnd < t.curlun.numSectors → 0 < n →
      Fits t (lbaOf READ_6 READ_16 cmd.cmnd) n ∧ ReadsInFull chunks 0 n
  | .write chunks => t.curlun.ro = false → ¬ invalidField WRITE_6 cmd.cmnd →
    lbaOf WRITE_6 WRITE_16 cmd.cmnd < t.curlun.numSectors → 0 < n →
      Fits t (lbaOf WRITE_6 WRITE_16 cmd.cmnd) n ∧
        WritesInFull chunks cmd.dataSizeFromCmnd.toNat n

/-! ### Blocks moved by one buffer -/

variable {t : Transfer}

theorem kernelIo_le (available : Option ℕ) (amount : ℕ) :
    (kernelIo available amount).getD 0 ≤ amount := by
  cases available with
  | none => exact Nat.zero_le _
  | some n => exact min_le_right _ _

theorem move_of_lt (hblk : t.curlun.blksize = 512) (fileOffset : ℕ) {bytes : Option ℕ}
    (h : bytes.getD 0 < 512) : (t.move fileOffset bytes).moved = t.moved := by
  simp only [Transfer.move, hblk, Nat.div_eq_of_lt h, List.range'_zero, List.append_nil]

theorem move_of_blocks (hblk : t.curlun.blksize = 512) {bytes n : ℕ} (h : bytes / 512 = n)
    (b : ℕ) : (t.move (512 * b) (some bytes)).moved = t.moved ++ List.range' b n := by
  simp only [Transfer.move, hblk, Option.getD_some, h, Nat.mul_div_cancel_left b (by decide : 0 < 512)]

/-! ### The read loop -/

theorem readLoop_tail (chunks : ℕ → ReadChunk) {left : ℕ} (hleft : left < 512) (k : ℕ)
    (t : Transfer) (hblk : t.curlun.blksize = 512) (fileOffset : ℕ) :
    (readLoop chunks k t fileOffset left).2.moved = t.moved := by
  induction left using Nat.strong_induction_on generalizing k t fileOffset with
  | _ left ih =>
    have hmove := move_of_lt hblk fileOffset (lt_of_le_of_lt (kernelIo_le (chunks k).available
      (min (min left FSG_BUFLEN) (t.curlun.fileLength - fileOffset))) (by omega))
    rw [readLoop]
    dsimp only
    split_ifs with hint hzero hsignal hpartial hdone hstarted
    · rfl
    · rfl
    · exact hmove
    · exact hmove
    · exact hmove
    · rw [ih _ (by omega) (by omega)]
      · exact hmove
      · exact hblk
    · exact hmove

theorem ReadsInFull.next {chunks : ℕ → ReadChunk} {k n : ℕ} (h : ReadsInFull chunks k n)
    (hmore : 32 < n) : ReadsInFull chunks (k + 1) (n - 32) := by
  intro i hi
  have hnext := h (i + 1) (by omega)
  have hbytes : blockBytes n (i + 1) = blockBytes (n - 32) i := by
    rw [blockBytes, blockBytes, show n - 32 * (i + 1) = n - 32 - 32 * i by omega]
  rw [show k + (i + 1) = k + 1 + i by omega, hbytes] at hnext
  exact ⟨hnext.1, hnext.2.1, fun hi' => hnext.2.2 (by omega)⟩

/-- A read that nothing ends too early moves the blocks it claims. -/
theorem readLoop_moved {chunks : ℕ → ReadChunk} {n k : ℕ} (hfull : ReadsInFull chunks k n)
    (t : Transfer) (hblk : t.curlun.blksize = 512) {b left : ℕ} (hleft : left / 512 = n)
    (hfile : 512 * (b + n) ≤ t.curlun.fileLength) :
    (readLoop chunks k t (512 * b) left).2.moved = t.moved ++ List.range' b n := by
  induction n using Nat.strong_induction_on generalizing k t b left with
  | _ n ih =>
    rcases Nat.eq_zero_or_pos n with rfl | hpos
    · rw [readLoop_tail chunks (by omega) k t hblk, List.range'_zero, List.append_nil]
    have hfirst := hfull 0 hpos
    rw [Nat.add_zero] at hfirst
    obtain ⟨hint, ⟨bytes, havailable, hbytes⟩, hnext⟩ := hfirst
    set amount := min (min left FSG_BUFLEN) (t.curlun.fileLength - 512 * b) with hamount
    have hbuf : FSG_BUFLEN = 512 * 32 := rfl
    have hblocks : min bytes amount / 512 = min n 32 := by
      simp only [blockBytes] at hbytes
      omega
    have hresult : kernelIo (chunks k).available amount = some (min bytes amount) := by
      rw [havailable]
      rfl
    have hmove := move_of_blocks hblk hblocks b
    rw [readLoop, if_neg (by simp [hint]), if_neg (by omega)]
    simp only [← hamount, hresult]
    by_cases hmore : 32 < n
    · obtain ⟨hsignal, hstarted⟩ := hnext hmore
      have hfull₀ : amount = 16384 ∧ min bytes amount = 16384 := by
        simp only [blockBytes] at hbytes
        omega
      have hsettle : t.curlun.settle amount (some (min bytes amount)) = 16384 := by
        rw [FsgLun.settle, if_neg (by omega)]
        exact hfull₀.2
      rw [min_eq_right hmore.le] at hmove
      rw [hsettle, if_neg (by simp [hsignal]), if_neg (by omega), if_neg (by omega), if_pos hstarted,
        show 512 * b + 16384 = 512 * (b + 32) by ring, ih (n - 32) (by omega) (hfull.next hmore)]
      · rw [hmove, List.append_assoc, List.range'_append_1]
        congr 2
        omega
      · exact hblk
      · omega
      · have hlength : 512 * (b + 32 + (n - 32)) ≤ t.curlun.fileLength := by omega
        exact hlength
    · rw [min_eq_left (not_lt.mp hmore)] at hmove
      split_ifs with hsignal hpartial hdone hstarted
      · exact hmove
      · exact hmove
      · exact hmove
      · rw [readLoop_tail chunks (by omega)]
        · exact hmove
        · exact hblk
      · exact hmove

/-! ### The write loop -/

theorem writeLoop_tail (chunks : ℕ → WriteChunk) (t : Transfer) (w : WriteState)
    (hblk : t.curlun.blksize = 512) (hreq : w.leftToReq < 512)
    (hflight : ∀ a ∈ w.inFlight, a < 512) : (writeLoop chunks t w).2.moved = t.moved := by
  have hempty : ∀ {t : Transfer} {w : WriteState} {actual file intended : ℕ} {rest : List ℕ},
      t.curlun.blksize = 512 → w.inFlight = intended :: rest → (∀ a ∈ w.inFlight, a < 512) →
        min (min actual file) intended / t.curlun.blksize * t.curlun.blksize = 0 := by
    intro t w actual file intended rest hblk hw hall
    have hsmall := hall intended (by rw [hw]; exact List.mem_cons_self)
    rw [hblk, Nat.div_eq_of_lt (by omega), Nat.zero_mul]
  fun_induction writeLoop chunks t w with
  | case1 => rfl
  | case2 t w hleft hfill hend ih => exact ih hblk hreq hflight
  | case3 t₀ w hleft hfill amount hend t hstarted ih =>
    refine ih hblk (by simp only; omega) fun a ha => ?_
    rcases List.mem_append.mp ha with hold | hnew
    · exact hflight a hold
    · rw [List.mem_singleton.mp hnew]
      exact lt_of_le_of_lt (min_le_left _ _) hreq
  | case4 => rfl
  | case5 => rfl
  | case6 => rfl
  | case7 => rfl
  | case8 => rfl
  | case9 t w hleft hfill intended rest hw chunk hint hstatus amount' amount w' hzero hshort ih =>
    exact ih hblk hreq fun a ha => hflight a (by rw [hw]; exact List.mem_cons_of_mem _ ha)
  | case10 t w hleft hfill intended rest hw chunk hint hstatus whole amount hne =>
    exact absurd (hempty hblk hw hflight) hne
  | case11 t w hleft hfill intended rest hw chunk hint hstatus whole amount hne =>
    exact absurd (hempty hblk hw hflight) hne
  | case12 t w hleft hfill intended rest hw chunk hint hstatus whole amount hne =>
    exact absurd (hempty hblk hw hflight) hne
  | case13 t w hleft hfill intended rest hw chunk hint hstatus whole amount w' hne =>
    exact absurd (hempty hblk hw hflight) hne

/-- The length asked of the host for buffer `i`. -/
def chunkLength (size i : ℕ) : ℕ := min (size - FSG_BUFLEN * i) FSG_BUFLEN

/-- Where a write stands that has moved everything so far: `drained` full buffers are
written, and those up to `requested` are under way. -/
structure Piped (before : List ℕ) (lba size : ℕ) (t : Transfer) (w : WriteState) : Prop where
  order : w.drained ≤ w.requested
  inFlight : w.inFlight =
    (List.range' w.drained (w.requested - w.drained)).map (chunkLength size)
  leftToReq : w.leftToReq = size - FSG_BUFLEN * w.requested
  leftToWrite : w.leftToWrite = size - FSG_BUFLEN * w.drained
  usbOffset : w.getSomeMore = true → w.usbOffset = 512 * lba + FSG_BUFLEN * w.requested
  fileOffset : w.fileOffset = 512 * (lba + 32 * w.drained)
  more : w.getSomeMore = true → FSG_BUFLEN * w.requested < size
  enough : w.getSomeMore = false → size / 512 ≤ 32 * w.requested
  moved : t.moved = before ++ List.range' lba (32 * w.drained)

variable {before : List ℕ} {lba size : ℕ} {w : WriteState}

theorem Piped.head (h : Piped before lba size t w) {intended : ℕ} {rest : List ℕ}
    (hw : w.inFlight = intended :: rest) : w.drained < w.requested ∧
      intended = chunkLength size w.drained ∧
      rest = (List.range' (w.drained + 1) (w.requested - (w.drained + 1))).map (chunkLength size) := by
  obtain ⟨m, hm⟩ : ∃ m, w.requested - w.drained = m + 1 := by
    refine Nat.exists_eq_succ_of_ne_zero fun hzero => ?_
    rw [h.inFlight, hzero] at hw
    cases hw
  have hcons := h.inFlight
  rw [hw, hm, List.range'_succ, List.map_cons] at hcons
  obtain ⟨hhead, hrest⟩ := List.cons.inj hcons
  refine ⟨by omega, hhead, ?_⟩
  rw [hrest, show w.requested - (w.drained + 1) = m by omega]

theorem Piped.request (h : Piped before lba size t w) (hmore : w.getSomeMore = true)
    (usbAmountLeft : UInt32) :
    Piped before lba size { t with usbAmountLeft := usbAmountLeft }
      { w with
        usbOffset := w.usbOffset + min w.leftToReq FSG_BUFLEN
        leftToReq := w.leftToReq - min w.leftToReq FSG_BUFLEN
        getSomeMore := w.leftToReq - min w.leftToReq FSG_BUFLEN ≠ 0
        inFlight := w.inFlight ++ [min w.leftToReq FSG_BUFLEN]
        requested := w.requested + 1 } where
  order := h.order.trans (Nat.le_succ _)
  inFlight := by
    have horder := h.order
    have hlast : w.requested + 1 - w.drained = w.requested - w.drained + 1 := by omega
    have hend : w.drained + (w.requested - w.drained) = w.requested := by omega
    simp only
    rw [hlast, List.range'_concat, List.map_append, ← h.inFlight, Nat.one_mul, hend, h.leftToReq]
    rfl
  leftToReq := by
    have hleft := h.leftToReq
    simp only
    rw [Nat.mul_add, hleft]
    omega
  leftToWrite := h.leftToWrite
  usbOffset hmore' := by
    have husb := h.usbOffset hmore
    have hleft := h.leftToReq
    have hmore' := of_decide_eq_true hmore'
    simp only [Nat.mul_add]
    omega
  fileOffset := h.fileOffset
  more hmore' := by
    have hleft := h.leftToReq
    have hmore' := of_decide_eq_true hmore'
    simp only [Nat.mul_add]
    omega
  enough hmore' := by
    have hleft := h.leftToReq
    have hmore' := not_not.mp (of_decide_eq_false hmore')
    simp only [FSG_BUFLEN] at hleft hmore' ⊢
    omega
  moved := h.moved

theorem Piped.amount_eq (h : Piped before lba size t w) {intended actual : ℕ} {rest : List ℕ}
    (hblk : t.curlun.blksize = 512) (hw : w.inFlight = intended :: rest)
    (hfile : 512 * (lba + size / 512) ≤ t.curlun.fileLength)
    (hleft : 32 * w.drained < size / 512) (hactual : blockBytes (size / 512) w.drained ≤ actual) :
    min (min actual (t.curlun.fileLength - w.fileOffset)) intended / t.curlun.blksize *
      t.curlun.blksize = blockBytes (size / 512) w.drained := by
  obtain ⟨-, hintended, -⟩ := h.head hw
  have hoffset := h.fileOffset
  simp only [chunkLength, FSG_BUFLEN, blockBytes] at hintended hactual ⊢
  rw [hblk, Nat.mul_comm]
  congr 1
  omega

theorem Piped.written (h : Piped before lba size t w) (hblk : t.curlun.blksize = 512)
    (hleft : 32 * w.drained < size / 512) {available : Option ℕ} {amount bytes : ℕ}
    (hamount : amount = blockBytes (size / 512) w.drained) (havailable : available = some bytes)
    (hbytes : blockBytes (size / 512) w.drained ≤ bytes) :
    t.curlun.settle amount (kernelIo available amount) = amount ∧
      (t.move w.fileOffset (kernelIo available amount)).moved =
        before ++ List.range' lba (min (size / 512) (32 * (w.drained + 1))) := by
  have hblocks : amount / 512 = min (size / 512 - 32 * w.drained) 32 := by
    rw [hamount, blockBytes, Nat.mul_div_cancel_left _ (by decide : 0 < 512)]
  have hio : kernelIo available amount = some amount := by
    rw [havailable, kernelIo, Option.map_some, min_eq_right (hamount.le.trans hbytes)]
  rw [hio, FsgLun.settle, if_neg (lt_irrefl amount), h.fileOffset, move_of_blocks hblk hblocks,
    h.moved, List.append_assoc, List.range'_append_1]
  refine ⟨rfl, ?_⟩
  congr 2
  omega

/-- What a write that nothing ends too early does with the next buffer. -/
theorem Piped.chunk {chunks : ℕ → WriteChunk} (h : Piped before lba size t w)
    (hfull : WritesInFull chunks size (size / 512)) {intended : ℕ} {rest : List ℕ}
    (hblk : t.curlun.blksize = 512) (hw : w.inFlight = intended :: rest)
    (hfile : 512 * (lba + size / 512) ≤ t.curlun.fileLength)
    (hleft : 32 * w.drained < size / 512) :
    let chunk := chunks w.drained
    let amount := min (min chunk.actual (t.curlun.fileLength - w.fileOffset)) intended /
      t.curlun.blksize * t.curlun.blksize
    amount = blockBytes (size / 512) w.drained ∧
      t.curlun.settle amount (kernelIo chunk.available amount) = amount ∧
      (t.move w.fileOffset (kernelIo chunk.available amount)).moved =
        before ++ List.range' lba (min (size / 512) (32 * (w.drained + 1))) := by
  intro chunk amount
  obtain ⟨-, -, hactual, ⟨bytes, havailable, hbytes⟩, -⟩ := hfull.written w.drained hleft
  have hamount := h.amount_eq hblk hw hfile hleft hactual
  exact ⟨hamount, h.written hblk hleft hamount havailable hbytes⟩

theorem Piped.drain (h : Piped before lba size t w) {intended : ℕ} {rest : List ℕ}
    (hw : w.inFlight = intended :: rest) (hmore : 32 * (w.drained + 1) < size / 512) {t' : Transfer}
    (hmoved : t'.moved = before ++ List.range' lba (min (size / 512) (32 * (w.drained + 1))))
    {written : ℕ} (hwritten : written = blockBytes (size / 512) w.drained) :
    Piped before lba size t'
      { w with
        fileOffset := w.fileOffset + written
        leftToWrite := w.leftToWrite - written
        inFlight := rest
        drained := w.drained + 1 } := by
  obtain ⟨horder, -, hrest⟩ := h.head hw
  have hbytes : written = FSG_BUFLEN := by
    rw [hwritten, blockBytes, min_eq_right (by omega)]
    rfl
  refine ⟨horder, hrest, h.leftToReq, ?_, h.usbOffset, ?_, h.more, h.enough, ?_⟩
  · simp only [h.leftToWrite, hbytes, FSG_BUFLEN]
    omega
  · simp only [h.fileOffset, hbytes, FSG_BUFLEN]
    ring
  · rw [hmoved, min_eq_right hmore.le]

theorem Piped.getSomeMore_of_empty (h : Piped before lba size t w) (hw : w.inFlight = [])
    (hleft : 32 * w.drained < size / 512) : w.getSomeMore = true := by
  have hempty : w.requested ≤ w.drained := by
    have hnil := h.inFlight
    rw [hw, eq_comm, List.map_eq_nil_iff, List.range'_eq_nil_iff] at hnil
    omega
  by_contra hstop
  have henough := h.enough (eq_false_of_ne_true hstop)
  omega

/-- Behind the last whole block less than a block is asked for. -/
theorem Piped.rest_lt (h : Piped before lba size t w) {intended : ℕ} {rest : List ℕ}
    (hw : w.inFlight = intended :: rest) (hlast : size / 512 ≤ 32 * (w.drained + 1)) :
    w.leftToReq < 512 ∧ ∀ a ∈ rest, a < 512 := by
  obtain ⟨horder, -, hrest⟩ := h.head hw
  constructor
  · have hreq := h.leftToReq
    simp only [FSG_BUFLEN] at hreq
    omega
  · intro a ha
    rw [hrest, List.mem_map] at ha
    obtain ⟨i, hi, rfl⟩ := ha
    have hi' := (List.mem_range'_1.mp hi).1
    simp only [chunkLength, FSG_BUFLEN]
    omega

/-- A write that nothing ends too early moves the blocks it claims. -/
theorem writeLoop_moved {chunks : ℕ → WriteChunk} (hfull : WritesInFull chunks size (size / 512))
    (h : Piped before lba size t w) (hblk : t.curlun.blksize = 512)
    (hfile : 512 * (lba + size / 512) ≤ t.curlun.fileLength) (hleft : 32 * w.drained < size / 512) :
    (writeLoop chunks t w).2.moved = before ++ List.range' lba (size / 512) := by
  -- the blocks of the first `drained` buffers have been moved at the start of each round
  fun_induction writeLoop chunks t w with
  | case1 t w hzero =>
    have hwrite := h.leftToWrite
    simp only [FSG_BUFLEN] at hwrite
    omega
  | case2 t w hwrite hfill hend ih =>
    have hmore := hfill.2
    refine ih ⟨h.order, h.inFlight, h.leftToReq, h.leftToWrite, fun hfalse => ?_, h.fileOffset,
      fun hfalse => ?_, fun _ => ?_, h.moved⟩ hblk hfile hleft
    · cases hfalse
    · cases hfalse
    · have husb := h.usbOffset hmore
      simp only [FSG_BUFLEN] at husb ⊢
      omega
  | case3 t₀ w hwrite hfill amount hend t hstarted ih =>
    exact ih (h.request hfill.2 _) hblk hfile hleft
  | case4 t₀ w hwrite hfill amount hend t hstarted =>
    exact absurd (hfull.started w.requested (h.more hfill.2)) hstarted
  -- with buffers still to come, the queue is not empty
  | case5 t w hwrite hfill hw =>
    have hmore := h.getSomeMore_of_empty hw hleft
    refine absurd ⟨?_, hmore⟩ hfill
    rw [hw]
    exact t.numBuffers.2
  | case6 t w hwrite hfill intended rest hw chunk hint =>
    rw [(hfull.written w.drained hleft).1] at hint
    cases hint
  | case7 t w hwrite hfill intended rest hw chunk hint hstatus =>
    exact absurd (hfull.written w.drained hleft).2.1 hstatus
  | case8 t w hwrite hfill intended rest hw chunk hint hstatus whole amount hzero =>
    have hamount := (h.chunk hfull hblk hw hfile hleft).1.symm.trans hzero
    exact absurd hamount (blockBytes_ne_zero hleft)
  | case9 t w hwrite hfill intended rest hw chunk hint hstatus whole amount w' hzero =>
    have hamount := (h.chunk hfull hblk hw hfile hleft).1.symm.trans hzero
    exact absurd hamount (blockBytes_ne_zero hleft)
  -- a signal, or a short packet, may come with the last buffer only
  | case10 t w hwrite hfill intended rest hw chunk hint hstatus whole amount hne result t' hsignal =>
    obtain ⟨-, -, -, -, hnext⟩ := hfull.written w.drained hleft
    obtain ⟨-, -, hmoved⟩ := h.chunk hfull hblk hw hfile hleft
    have hlast : size / 512 ≤ 32 * (w.drained + 1) := by
      by_contra hmore
      exact absurd hsignal (by simp [chunk, hnext (not_le.mp hmore)])
    rw [min_eq_left hlast] at hmoved
    exact hmoved
  | case11 t w hwrite hfill intended rest hw chunk hint hstatus whole amount hne result nwritten t₁
      hsignal t₂ hpartial =>
    obtain ⟨-, hsettle, -⟩ := h.chunk hfull hblk hw hfile hleft
    exact absurd hsettle hpartial.ne
  | case12 t w hwrite hfill intended rest hw chunk hint hstatus whole amount hne result nwritten t₁
      hsignal t₂ hpartial hshort =>
    have hactual := (hfull.written w.drained hleft).2.2.1
    obtain ⟨-, -, hmoved⟩ := h.chunk hfull hblk hw hfile hleft
    have hlast : size / 512 ≤ 32 * (w.drained + 1) := by
      obtain ⟨-, hintended, -⟩ := h.head hw
      have hshort' : (chunks w.drained).actual < intended := hshort
      simp only [chunkLength, FSG_BUFLEN, blockBytes] at hintended hactual
      omega
    rw [min_eq_left hlast] at hmoved
    exact hmoved
  | case13 t w hwrite hfill intended rest hw chunk hint hstatus whole amount w' hne result nwritten
      t₁ hsignal t₂ hpartial hshort ih =>
    obtain ⟨hamount, hsettle, hmoved⟩ := h.chunk hfull hblk hw hfile hleft
    -- the buffer was the last one that counts, or the next round goes on
    by_cases hmore : 32 * (w.drained + 1) < size / 512
    · have hmoved₂ : t₂.moved =
          before ++ List.range' lba (min (size / 512) (32 * (w.drained + 1))) := hmoved
      have hnext := h.drain hw hmore hmoved₂ (hsettle.trans hamount)
      exact ih hnext hblk hfile hmore
    · obtain ⟨hreq, hrest⟩ := h.rest_lt hw (not_lt.mp hmore)
      rw [min_eq_left (not_lt.mp hmore)] at hmoved
      refine (writeLoop_tail chunks t₂ _ hblk ?_ ?_).trans hmoved
      · exact hreq
      · exact hrest

theorem writeLoop_start {chunks : ℕ → WriteChunk} {offset : ℕ} (hoffset : offset = 512 * lba)
    (hfull : 0 < size / 512 → WritesInFull chunks size (size / 512)) (t : Transfer)
    (hblk : t.curlun.blksize = 512) (hfile : 512 * (lba + size / 512) ≤ t.curlun.fileLength) :
    (writeLoop chunks t ⟨offset, offset, size, size, true, [], 0, 0⟩).2.moved =
      t.moved ++ List.range' lba (size / 512) := by
  rcases Nat.eq_zero_or_pos (size / 512) with hzero | hpos
  · have hsize : size < 512 := by omega
    rw [writeLoop_tail chunks t _ hblk hsize, hzero, List.range'_zero, List.append_nil]
    intro a ha
    cases ha
  · have hsize : FSG_BUFLEN * 0 < size := by omega
    have hstart : Piped t.moved lba size t ⟨offset, offset, size, size, true, [], 0, 0⟩ :=
      ⟨le_refl _, rfl, rfl, rfl, fun _ => hoffset, hoffset, fun _ => hsize,
        fun hfalse => (by cases hfalse), (List.append_nil _).symm⟩
    exact writeLoop_moved (hfull hpos) hstart hblk hfile hpos

/-! ### Commands -/

/-- The counters describe the blocks moved so far, on a LUN with blocks of 512 bytes. -/
structure Counted (t : Transfer) : Prop where
  lun : OnRegularFile t.curlun
  describes : Describes t.io t.moved

theorem SameShape.onRegularFile {t' : Transfer} (h : SameShape t t')
    (hlun : OnRegularFile t.curlun) : OnRegularFile t'.curlun where
  blkbits := h.blkbits.trans hlun.blkbits
  blksize := h.blksize.trans hlun.blksize
  numSectors := by rw [h.numSectors, h.fileLength, hlun.numSectors]

theorem Counted.hooks (h : Counted t) {lba : ℕ} (isWrite : Bool) (now : UInt64)
    (hfits : 0 < t.dataSizeFromCmnd.toNat / 512 → Fits t lba (t.dataSizeFromCmnd.toNat / 512)) :
    Describes (t.hooks lba isWrite now).io
      (t.moved ++ List.range' lba (t.dataSizeFromCmnd.toNat / 512)) := by
  have hblocks : t.dataSizeFromCmnd.toNat >>> t.curlun.blkbits = t.dataSizeFromCmnd.toNat / 512 := by
    rw [h.lun.blkbits, Nat.shiftRight_eq_div_pow]
  have hio : (t.hooks lba isWrite now).io = floppyIoEventRecord t.io (UInt32.ofNat lba)
      (UInt32.ofNat (t.dataSizeFromCmnd.toNat / 512)) isWrite now := by
    rw [← hblocks]
    rfl
  rw [hio]
  rcases Nat.eq_zero_or_pos (t.dataSizeFromCmnd.toNat / 512) with hzero | hpos
  · rw [hzero, show UInt32.ofNat 0 = 0 from rfl, record_zero, List.range'_zero, List.append_nil]
    exact h.describes
  · have hf := hfits hpos
    have haddr := hf.addressable
    have hsize := t.dataSizeFromCmnd.toNat_lt
    have hword : UInt32.size = 2 ^ 32 := rfl
    have hlba : (UInt32.ofNat lba).toNat = lba := UInt32.toNat_ofNat_of_lt' (by omega)
    have hn : (UInt32.ofNat (t.dataSizeFromCmnd.toNat / 512)).toNat =
        t.dataSizeFromCmnd.toNat / 512 := UInt32.toNat_ofNat_of_lt' (by omega)
    have htotal := hf.total
    have hfit : (UInt32.ofNat lba).toNat +
        (UInt32.ofNat (t.dataSizeFromCmnd.toNat / 512)).toNat ≤ 2 ^ 32 := by
      rw [hlba, hn]
      exact haddr
    have hrecord := h.describes.record (by omega) hfit isWrite now
    rwa [hlba, hn] at hrecord

/-- Where a step leaves the counters: still describing all blocks, the new ones last. -/
structure Counts (t t' : Transfer) : Prop where
  counted : Counted t'
  grows : t.moved <+: t'.moved

theorem Counted.refuse (h : Counted t) {t' : Transfer} (hshape : SameShape t t')
    (hmoved : t'.moved = t.moved) : Counts t t' where
  counted := ⟨hshape.onRegularFile h.lun, by rw [hshape.io, hmoved]; exact h.describes⟩
  grows := hmoved.symm ▸ List.prefix_refl t.moved

theorem Counted.loop (h : Counted t) {lba : ℕ} (isWrite : Bool) (now : UInt64)
    (hfits : 0 < t.dataSizeFromCmnd.toNat / 512 → Fits t lba (t.dataSizeFromCmnd.toNat / 512))
    {t' : Transfer} (hshape : SameShape (t.hooks lba isWrite now) t')
    (hmoved : t'.moved = t.moved ++ List.range' lba (t.dataSizeFromCmnd.toNat / 512)) :
    Counts t t' where
  counted := by
    refine ⟨hshape.onRegularFile h.lun, ?_⟩
    rw [hshape.io, hmoved]
    exact h.hooks isWrite now hfits
  grows := by
    rw [hmoved]
    exact List.prefix_append _ _

theorem Counted.inFile (h : Counted t) {lba n : ℕ} (hlba : lba < t.curlun.numSectors)
    (hfits : 0 < n → Fits t lba n) : 512 * (lba + n) ≤ t.curlun.fileLength := by
  have hsectors := h.lun.numSectors
  rcases Nat.eq_zero_or_pos n with rfl | hpos
  · omega
  · have hmedium := (hfits hpos).medium
    omega

theorem Counted.doRead (h : Counted t) (now : UInt64) (chunks : ℕ → ReadChunk)
    (hok : ¬ invalidField READ_6 t.cmnd → lbaOf READ_6 READ_16 t.cmnd < t.curlun.numSectors →
      0 < t.dataSizeFromCmnd.toNat / 512 →
        Fits t (lbaOf READ_6 READ_16 t.cmnd) (t.dataSizeFromCmnd.toNat / 512) ∧
          ReadsInFull chunks 0 (t.dataSizeFromCmnd.toNat / 512)) :
    Counts t (doRead t now chunks).2 := by
  unfold Kernel.doRead
  dsimp only
  split_ifs with hinvalid hend hzero
  · exact h.refuse ⟨rfl, rfl, rfl, rfl, rfl, rfl⟩ rfl
  · exact h.refuse ⟨rfl, rfl, rfl, rfl, rfl, rfl⟩ rfl
  · have hn : t.dataSizeFromCmnd.toNat / 512 = 0 := by
      have hzero' : t.dataSizeFromCmnd = 0 := hzero
      rw [hzero']
      rfl
    have hfits : 0 < t.dataSizeFromCmnd.toNat / 512 →
        Fits t (lbaOf READ_6 READ_16 t.cmnd) (t.dataSizeFromCmnd.toNat / 512) := by omega
    refine h.loop false now hfits ⟨rfl, rfl, rfl, rfl, rfl, rfl⟩ ?_
    · rw [hn, List.range'_zero, List.append_nil]
      rfl
  · have hlba := not_le.mp hend
    have hfits := fun hpos => (hok hinvalid hlba hpos).1
    have hfull : ReadsInFull chunks 0 (t.dataSizeFromCmnd.toNat / 512) := fun i hi =>
      (hok hinvalid hlba (by omega)).2 i hi
    have hoffset : lbaOf READ_6 READ_16 t.cmnd <<< t.curlun.blkbits =
        512 * lbaOf READ_6 READ_16 t.cmnd := by
      rw [h.lun.blkbits, Nat.shiftLeft_eq, Nat.mul_comm]
    refine h.loop false now hfits (readLoop_sameShape _ _ _ _ _) ?_
    change (readLoop chunks 0 _ (lbaOf READ_6 READ_16 t.cmnd <<< t.curlun.blkbits)
      t.dataSizeFromCmnd.toNat).2.moved = _
    rw [hoffset]
    exact readLoop_moved hfull (t.hooks _ false now) h.lun.blksize rfl (h.inFile hlba hfits)

theorem Counted.doWrite (h : Counted t) (now : UInt64) (chunks : ℕ → WriteChunk)
    (hok : t.curlun.ro = false → ¬ invalidField WRITE_6 t.cmnd →
      lbaOf WRITE_6 WRITE_16 t.cmnd < t.curlun.numSectors → 0 < t.dataSizeFromCmnd.toNat / 512 →
        Fits t (lbaOf WRITE_6 WRITE_16 t.cmnd) (t.dataSizeFromCmnd.toNat / 512) ∧
          WritesInFull chunks t.dataSizeFromCmnd.toNat (t.dataSizeFromCmnd.toNat / 512)) :
    Counts t (doWrite t now chunks).2 := by
  unfold Kernel.doWrite
  dsimp only
  split_ifs with hro hinvalid hend
  · exact h.refuse ⟨rfl, rfl, rfl, rfl, rfl, rfl⟩ rfl
  · exact h.refuse ⟨rfl, rfl, rfl, rfl, rfl, rfl⟩ rfl
  · exact h.refuse ⟨rfl, rfl, rfl, rfl, rfl, rfl⟩ rfl
  · have hlba := not_le.mp hend
    have hro := eq_false_of_ne_true hro
    have hfits := fun hpos => (hok hro hinvalid hlba hpos).1
    have hoffset : lbaOf WRITE_6 WRITE_16 t.cmnd <<< t.curlun.blkbits =
        512 * lbaOf WRITE_6 WRITE_16 t.cmnd := by
      rw [h.lun.blkbits, Nat.shiftLeft_eq, Nat.mul_comm]
    generalize decide (t.cmnd 0 ≠ WRITE_6 ∧ t.curlun.nofua = false ∧ t.cmnd 1 &&& 0x08 ≠ 0) = fua
    have hsync : Counted { t with oSync := fua } := ⟨h.lun, h.describes⟩
    have hmoved := writeLoop_start hoffset (fun hpos => (hok hro hinvalid hlba hpos).2)
      (Transfer.hooks { t with oSync := fua } (lbaOf WRITE_6 WRITE_16 t.cmnd) true now)
      h.lun.blksize (h.inFile hlba hfits)
    have hloop := hsync.loop true now (fun hpos => ⟨(hfits hpos).medium, (hfits hpos).addressable,
      (hfits hpos).total⟩) (writeLoop_sameShape chunks _ _) hmoved
    exact ⟨hloop.counted, hloop.grows⟩

theorem Counted.step (h : Counted t) {cmd : IoCommand} (hok : MovedInFull t cmd) :
    Counts t (ioStep t cmd) := by
  have hreceived : Counted (t.receive cmd) := ⟨h.lun, h.describes⟩
  unfold ioStep
  unfold MovedInFull at hok
  dsimp only at hok
  generalize cmd.chunks = kind at hok ⊢
  rcases kind with chunks | chunks
  · have hread := hreceived.doRead cmd.now chunks fun hinvalid hlba hpos => by
      obtain ⟨hfits, hfull⟩ := hok hinvalid hlba hpos
      exact ⟨⟨hfits.medium, hfits.addressable, hfits.total⟩, hfull⟩
    exact ⟨hread.counted, hread.grows⟩
  · have hwrite := hreceived.doWrite cmd.now chunks fun hro hinvalid hlba hpos => by
      obtain ⟨hfits, hfull⟩ := hok hro hinvalid hlba hpos
      exact ⟨⟨hfits.medium, hfits.addressable, hfits.total⟩, hfull⟩
    exact ⟨hwrite.counted, hwrite.grows⟩

theorem Counted.publishes (h : Counted t) {cmd : IoCommand} (hnext : Counts t (ioStep t cmd)) :
    Publishes t cmd := by
  obtain ⟨blocks, hblocks⟩ := hnext.grows
  have hafter := hnext.counted.describes
  rw [← hblocks] at hafter
  refine ⟨blocks, hblocks.symm, ?_, ?_⟩
  · rw [hafter.blocks, h.describes.blocks, List.length_append, UInt64.ofNat_add]
  · rw [hafter.crossings, h.describes.crossings, headTravel_append, UInt64.ofNat_add]

/-- In a run whose commands move all the blocks they claim, every command adds to the
counters what it moves. -/
theorem counters_publish_transfers {t : Transfer} (hlun : OnRegularFile t.curlun)
    (hio : t.io = floppyIoEventInit) (hmoved : t.moved = []) {cmds : List IoCommand}
    (hfull : Guarded ioStep MovedInFull t cmds) : Guarded ioStep Publishes t cmds := by
  have hcounted : Counted t := ⟨hlun, by rw [hio, hmoved]; exact describes_init⟩
  exact guarded_invariant (fun t cmd h hok => (h.step hok).counted)
    (fun t cmd h hok => h.publishes (h.step hok)) hcounted hfull

/-- A file that was opened is such a LUN. -/
theorem onRegularFile_of_open {vfs : Vfs} {lun : FsgLun} {filename : Text}
    (hcd : lun.cdrom = false) (h : RegularFile vfs filename) :
    ∃ lun', fsgLunOpen vfs lun filename = .ok lun' ∧ OnRegularFile lun' := by
  obtain ⟨f, -, -, hopen⟩ := fsgLunOpen_of_regularFile hcd h
  exact ⟨_, hopen, rfl, rfl, Nat.shiftRight_eq_div_pow f.size 9⟩

/-- A drive with a file of three blocks. -/
def sampleTransfer : Transfer where
  cmnd _ := 0
  dataSizeFromCmnd := 0
  residue := 0
  usbAmountLeft := 0
  shortPacketReceived := false
  numBuffers := ⟨2, Nat.zero_lt_two⟩
  curlun := { removableLun with fileLength := 1536, numSectors := 3, blkbits := 9, blksize := 512 }
  oSync := false
  throttle := floppyThrottleInit
  io := floppyIoEventInit
  filled := []
  moved := []

/-- READ(6) of `n` blocks from block `lba`, which nothing disturbs. -/
def sampleRead (lba n : UInt8) : IoCommand where
  cmnd i := if i = 0 then READ_6 else if i = 3 then lba else if i = 4 then n else 0
  dataSizeFromCmnd := 512 * n.toUInt32
  dataSize := 512 * n.toUInt32
  now := 0
  chunks := .read fun _ => ⟨false, some 16384, false, true⟩

/-- WRITE(6) of `n` blocks from block `lba`, all of which the host sends. -/
def sampleWrite (lba n : UInt8) : IoCommand where
  cmnd i := if i = 0 then WRITE_6 else if i = 3 then lba else if i = 4 then n else 0
  dataSizeFromCmnd := 512 * n.toUInt32
  dataSize := 512 * n.toUInt32
  now := 0
  chunks := .write fun _ => ⟨true, false, 0, 16384, some 16384, false⟩

/-- A drive with a file of two tracks. -/
def twoTracks : Transfer :=
  { sampleTransfer with
    curlun := { sampleTransfer.curlun with fileLength := 36864, numSectors := 72 } }

/-- Two blocks of the first track are read, and then one of the second is written. -/
theorem counters_publish_transfers_example :
    Guarded ioStep Publishes twoTracks [sampleRead 0 2, sampleWrite 40 1] := by
  have hread : ReadsInFull (fun _ => ⟨false, some 16384, false, true⟩) 0 2 := by
    intro i hi
    refine ⟨rfl, ⟨16384, rfl, ?_⟩, fun _ => ⟨rfl, rfl⟩⟩
    simp only [blockBytes]
    omega
  have hwrite : WritesInFull (fun _ => ⟨true, false, 0, 16384, some 16384, false⟩) 512 1 := by
    refine ⟨fun _ _ => rfl, fun i hi => ⟨rfl, rfl, ?_, ⟨16384, rfl, ?_⟩, fun _ => rfl⟩⟩ <;>
      simp only [blockBytes] <;> omega
  let start := (twoTracks.receive (sampleRead 0 2)).hooks 0 false 0
  have hstep : ioStep twoTracks (sampleRead 0 2) =
      (readLoop (fun _ => ⟨false, some 16384, false, true⟩) 0 start (512 * 0) 1024).2 := rfl
  have hsectors : (ioStep twoTracks (sampleRead 0 2)).curlun.numSectors = 72 :=
    (readLoop_sameShape _ 0 start (512 * 0) 1024).numSectors
  have hmoved : (ioStep twoTracks (sampleRead 0 2)).moved.length = 2 := by
    rw [hstep, readLoop_moved hread start rfl rfl (by decide)]
    rfl
  refine counters_publish_transfers ⟨rfl, rfl, rfl⟩ rfl rfl ⟨?_, ?_, trivial⟩
  · exact fun _ _ _ => ⟨⟨by decide, by decide, by decide⟩, hread⟩
  · refine fun _ _ _ _ => ⟨⟨?_, by decide, ?_⟩, hwrite⟩
    · rw [hsectors]
      decide
    · rw [hmoved]
      decide

/-- READ of two blocks at the last block of the medium: one block is read, two are counted. -/
theorem counters_count_beyond_end : ¬ Guarded ioStep Publishes sampleTransfer [sampleRead 2 2] := by
  rintro ⟨⟨blocks, hmoved, htotal, -⟩, -⟩
  let start := (sampleTransfer.receive (sampleRead 2 2)).hooks 2 false 0
  have hstep : ioStep sampleTransfer (sampleRead 2 2) =
      (readLoop (fun _ => ⟨false, some 16384, false, true⟩) 0 start 1024 1024).2 := rfl
  rw [hstep, (readLoop_sameShape _ 0 start 1024 1024).io] at htotal
  have hlast : (readLoop (fun _ => ⟨false, some 16384, false, true⟩) 0 start 1024 1024).2.moved =
      [2] := by
    have hamount : min (min 1024 FSG_BUFLEN) (start.curlun.fileLength - 1024) = 512 := by decide
    have hsettle : start.curlun.settle 512 (kernelIo (some 16384) 512) = 512 := by decide
    rw [readLoop]
    simp only [hamount, hsettle, Bool.false_eq_true, ↓reduceIte, Nat.reduceAdd, Nat.reduceSub,
      OfNat.ofNat_ne_zero, lt_self_iff_false]
    rw [readLoop, if_neg (by decide), if_pos (by decide)]
    decide
  rw [hstep, hlast] at hmoved
  have hblocks : blocks = [2] := hmoved.symm
  rw [hblocks] at htotal
  exact absurd htotal (by decide)

end UsbFloppy.Kernel
