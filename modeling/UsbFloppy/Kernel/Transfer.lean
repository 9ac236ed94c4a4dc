import UsbFloppy.Kernel.Command
import UsbFloppy.Kernel.Throttle

/-! do_read and do_write of f_floppy.c. What kernel_read, kernel_write and the host make of
each buffer is an input; the blocks that reach or leave the backing file are written down
beside the state. -/

namespace UsbFloppy.Kernel

def READ_6 : UInt8 := 0x08
def READ_16 : UInt8 := 0x88
def WRITE_6 : UInt8 := 0x0a
def WRITE_16 : UInt8 := 0x8a

def FSG_BUFLEN : ℕ := 16384

/-- The loops send their replies themselves. -/
def noDefaultReply : Errno := Errno.EIO

/-- What the two loops read and change, of `struct fsg_common` and of the modules they call.
`filled` are the lengths of the buffers filled for the host, `moved` the whole blocks read
from or written to the backing file since the tracker was initialised. -/
structure Transfer where
  cmnd : ℕ → UInt8
  dataSizeFromCmnd : UInt32
  residue : UInt32
  usbAmountLeft : UInt32
  shortPacketReceived : Bool
  numBuffers : {n : ℕ // 0 < n}
  curlun : FsgLun
  oSync : Bool
  throttle : FloppyThrottleState
  io : FloppyIoEventState
  filled : List ℕ
  moved : List ℕ

/-- `get_unaligned_be24`, `be32` and `be64`. -/
def getUnalignedBe (bytes : ℕ) (cmnd : ℕ → UInt8) (start : ℕ) : ℕ :=
  (List.range bytes).foldl (fun n i => 256 * n + (cmnd (start + i)).toNat) 0

/-- The first block a command names, where `op6` and `op16` are its shortest and longest
variant. -/
def lbaOf (op6 op16 : UInt8) (cmnd : ℕ → UInt8) : ℕ :=
  if cmnd 0 = op6 then getUnalignedBe 3 cmnd 1
  else if cmnd 0 = op16 then getUnalignedBe 8 cmnd 2
  else getUnalignedBe 4 cmnd 2

/-- Only DPO and FUA may be set in the second byte. -/
def invalidField (op6 : UInt8) (cmnd : ℕ → UInt8) : Prop :=
  cmnd 0 ≠ op6 ∧ cmnd 1 &&& ~~~0x18 ≠ 0

instance (op6 : UInt8) (cmnd : ℕ → UInt8) : Decidable (invalidField op6 cmnd) :=
  inferInstanceAs (Decidable (_ ∧ _))

def Transfer.setSense (t : Transfer) (sense : ℕ) : Transfer :=
  { t with curlun := { t.curlun with senseData := sense } }

/-- An error and the position it is reported at. -/
def Transfer.fail (t : Transfer) (sense fileOffset : ℕ) : Transfer :=
  { t with curlun := { t.curlun with
      senseData := sense
      senseDataInfo := fileOffset >>> t.curlun.blkbits
      infoValid := true } }

/-- The calls of the throttle and of the tracker, with the length the command claims. -/
def Transfer.hooks (t : Transfer) (lba : ℕ) (isWrite : Bool) (now : UInt64) : Transfer :=
  let nblocks := t.dataSizeFromCmnd.toNat >>> t.curlun.blkbits
  let r : IoRequest := ⟨UInt32.ofNat lba, UInt32.ofNat nblocks, isWrite, now⟩
  { t with throttle := (floppyThrottleOn t.throttle r).1, io := r.record t.io }

/-- `kernel_read` and `kernel_write`: no more than `amount` bytes, of those that could be
moved; none is an error. -/
def kernelIo (available : Option ℕ) (amount : ℕ) : Option ℕ := available.map fun n => min n amount

/-- What a loop goes on by: nothing after an error, whole blocks after a partial transfer. -/
def FsgLun.settle (lun : FsgLun) (amount : ℕ) : Option ℕ → ℕ
  | none => 0
  | some n => if n < amount then n / lun.blksize * lun.blksize else n

def Transfer.move (t : Transfer) (fileOffset : ℕ) (bytes : Option ℕ) : Transfer :=
  { t with moved := t.moved ++
      List.range' (fileOffset / t.curlun.blksize) (bytes.getD 0 / t.curlun.blksize) }

/-! ### do_read -/

/-- What happens to one buffer of a read: a signal while it waits, the bytes there are to
read, a signal after the read, and whether it can be queued for the host. -/
structure ReadChunk where
  interrupted : Bool
  available : Option ℕ
  signal : Bool
  started : Bool
  deriving DecidableEq, Repr

/-- The loop of `do_read`, from buffer `k` on. -/
def readLoop (chunks : ℕ → ReadChunk) (k : ℕ) (t : Transfer) (fileOffset amountLeft : ℕ) :
    Errno × Transfer :=
  let amount := min (min amountLeft FSG_BUFLEN) (t.curlun.fileLength - fileOffset)
  if (chunks k).interrupted then (.EINTR, t)
  else if amount = 0 then
    -- asked to read past the end of the file: an empty buffer
    (noDefaultReply,
      { t with filled := t.filled ++ [0] }.fail SS_LOGICAL_BLOCK_ADDRESS_OUT_OF_RANGE fileOffset)
  else
    let result := kernelIo (chunks k).available amount
    let nread := t.curlun.settle amount result
    let t := t.move fileOffset result
    if (chunks k).signal then (.EINTR, t)
    else
      let t := { t with residue := t.residue - UInt32.ofNat nread, filled := t.filled ++ [nread] }
      if nread < amount then
        (noDefaultReply, t.fail SS_UNRECOVERED_READ_ERROR (fileOffset + nread))
      else if amountLeft - nread = 0 then (noDefaultReply, t)
      else if (chunks k).started then
        readLoop chunks (k + 1) t (fileOffset + nread) (amountLeft - nread)
      else (noDefaultReply, t)
termination_by amountLeft
decreasing_by
  have hless : amountLeft - nread < amountLeft := by omega
  exact hless

def doRead (t : Transfer) (now : UInt64) (chunks : ℕ → ReadChunk) : Errno × Transfer :=
  let lba := lbaOf READ_6 READ_16 t.cmnd
  if invalidField READ_6 t.cmnd then (.EINVAL, t.setSense SS_INVALID_FIELD_IN_CDB)
  else if lba ≥ t.curlun.numSectors then
    (.EINVAL, t.setSense SS_LOGICAL_BLOCK_ADDRESS_OUT_OF_RANGE)
  else
    let t := t.hooks lba false now
    if t.dataSizeFromCmnd = 0 then (noDefaultReply, t)
    else readLoop chunks 0 t (lba <<< t.curlun.blkbits) t.dataSizeFromCmnd.toNat

/-! ### do_write -/

/-- What happens to one buffer of a write: whether it can be queued for the host, a signal
while it is waited for, its status and length when it arrives, the bytes that can be written,
and a signal after the write. -/
structure WriteChunk where
  started : Bool
  interrupted : Bool
  status : ℤ
  actual : ℕ
  available : Option ℕ
  signal : Bool
  deriving DecidableEq, Repr

/-- The variables of `do_write`. The buffers between `next_buffhd_to_drain` and
`next_buffhd_to_fill` are kept as the lengths asked of the host; all others are empty. -/
structure WriteState where
  usbOffset : ℕ
  fileOffset : ℕ
  leftToReq : ℕ
  leftToWrite : ℕ
  getSomeMore : Bool
  inFlight : List ℕ
  requested : ℕ
  drained : ℕ
  deriving DecidableEq, Repr

/-- The loop of `do_write`. -/
def writeLoop (chunks : ℕ → WriteChunk) (t : Transfer) (w : WriteState) : Errno × Transfer :=
  if w.leftToWrite = 0 then (noDefaultReply, t)
  else if w.inFlight.length < t.numBuffers.1 ∧ w.getSomeMore then
    let amount := min w.leftToReq FSG_BUFLEN
    if w.usbOffset ≥ t.curlun.fileLength then
      writeLoop chunks (t.fail SS_LOGICAL_BLOCK_ADDRESS_OUT_OF_RANGE w.usbOffset)
        { w with getSomeMore := false }
    else
      let t := { t with usbAmountLeft := t.usbAmountLeft - UInt32.ofNat amount }
      if (chunks w.requested).started then
        writeLoop chunks t
          { w with
            usbOffset := w.usbOffset + amount
            leftToReq := w.leftToReq - amount
            getSomeMore := w.leftToReq - amount ≠ 0
            inFlight := w.inFlight ++ [amount]
            requested := w.requested + 1 }
      else (noDefaultReply, t)
  else
    match _hbuffers : w.inFlight with
    | [] => (noDefaultReply, t)
    | intended :: rest =>
      let chunk := chunks w.drained
      if chunk.interrupted then (.EINTR, t)
      else if chunk.status ≠ 0 then (noDefaultReply, t.fail SS_COMMUNICATION_FAILURE w.fileOffset)
      else
        let amount := min (min chunk.actual (t.curlun.fileLength - w.fileOffset)) intended
        -- no partial block is written
        let amount := amount / t.curlun.blksize * t.curlun.blksize
        let w' := { w with inFlight := rest, drained := w.drained + 1 }
        if amount = 0 then
          if chunk.actual < intended then (noDefaultReply, { t with shortPacketReceived := true })
          else writeLoop chunks t w'
        else
          let result := kernelIo chunk.available amount
          let nwritten := t.curlun.settle amount result
          let t := t.move w.fileOffset result
          if chunk.signal then (.EINTR, t)
          else
            let t := { t with residue := t.residue - UInt32.ofNat nwritten }
            if nwritten < amount then
              (noDefaultReply, t.fail SS_WRITE_ERROR (w.fileOffset + nwritten))
            else if chunk.actual < intended then (noDefaultReply, { t with shortPacketReceived := true })
            else
              writeLoop chunks t
                { w' with
                  fileOffset := w.fileOffset + nwritten
                  leftToWrite := w.leftToWrite - nwritten }
termination_by 2 * w.leftToReq + w.inFlight.length + 2 * w.getSomeMore.toNat
decreasing_by
  · rename_i hfill _
    rw [hfill.2]
    exact Nat.add_lt_add_left (by decide) _
  · rename_i hfill _ _
    rw [hfill.2, List.length_append]
    by_cases hlast : w.leftToReq - min w.leftToReq FSG_BUFLEN = 0
    · rw [decide_eq_false (not_not.mpr hlast), hlast, List.length_singleton, Bool.toNat_false,
        Bool.toNat_true]
      omega
    · have hbuf : 0 < FSG_BUFLEN := by decide
      rw [decide_eq_true hlast, List.length_singleton, Bool.toNat_true]
      omega
  · rw [_hbuffers, List.length_cons]
    omega
  · rw [_hbuffers, List.length_cons]
    omega

def doWrite (t : Transfer) (now : UInt64) (chunks : ℕ → WriteChunk) : Errno × Transfer :=
  let lba := lbaOf WRITE_6 WRITE_16 t.cmnd
  if t.curlun.ro then (.EINVAL, t.setSense SS_WRITE_PROTECTED)
  else if invalidField WRITE_6 t.cmnd then
    (.EINVAL, { t with oSync := false }.setSense SS_INVALID_FIELD_IN_CDB)
  else
    let fua := t.cmnd 0 ≠ WRITE_6 ∧ t.curlun.nofua = false ∧ t.cmnd 1 &&& 0x08 ≠ 0
    let t := { t with oSync := fua }
    if lba ≥ t.curlun.numSectors then
      (.EINVAL, t.setSense SS_LOGICAL_BLOCK_ADDRESS_OUT_OF_RANGE)
    else
      let t := t.hooks lba true now
      let size := t.dataSizeFromCmnd.toNat
      let offset := lba <<< t.curlun.blkbits
      writeLoop chunks t ⟨offset, offset, size, size, true, [], 0, 0⟩

/-! ### Commands -/

inductive Chunks
  | read (chunks : ℕ → ReadChunk)
  | write (chunks : ℕ → WriteChunk)

/-- A command that passed its checks: its bytes, the length they claim, cut down to the
`dataSize` the host announced, the time, and what happens to its buffers. -/
structure IoCommand where
  cmnd : ℕ → UInt8
  dataSizeFromCmnd : UInt32
  dataSize : UInt32
  now : UInt64
  chunks : Chunks

def Transfer.receive (t : Transfer) (cmd : IoCommand) : Transfer :=
  { t with
    cmnd := cmd.cmnd
    dataSizeFromCmnd := cmd.dataSizeFromCmnd
    residue := cmd.dataSize
    usbAmountLeft := cmd.dataSize
    shortPacketReceived := false
    filled := [] }

def ioStep (t : Transfer) (cmd : IoCommand) : Transfer :=
  match cmd.chunks with
  | .read chunks => (doRead (t.receive cmd) cmd.now chunks).2
  | .write chunks => (doWrite (t.receive cmd) cmd.now chunks).2

/-! ### What the loops leave alone -/

/-- The tracker and the shape of the LUN. -/
structure SameShape (t t' : Transfer) : Prop where
  io : t'.io = t.io
  numBuffers : t'.numBuffers = t.numBuffers
  fileLength : t'.curlun.fileLength = t.curlun.fileLength
  numSectors : t'.curlun.numSectors = t.curlun.numSectors
  blkbits : t'.curlun.blkbits = t.curlun.blkbits
  blksize : t'.curlun.blksize = t.curlun.blksize

theorem SameShape.trans {a b c : Transfer} (h : SameShape a b) (h' : SameShape b c) :
    SameShape a c :=
  ⟨h'.io.trans h.io, h'.numBuffers.trans h.numBuffers, h'.fileLength.trans h.fileLength,
    h'.numSectors.trans h.numSectors, h'.blkbits.trans h.blkbits, h'.blksize.trans h.blksize⟩

theorem readLoop_sameShape (chunks : ℕ → ReadChunk) (k : ℕ) (t : Transfer)
    (fileOffset amountLeft : ℕ) : SameShape t (readLoop chunks k t fileOffset amountLeft).2 := by
  fun_induction readLoop chunks k t fileOffset amountLeft
  all_goals try exact ⟨rfl, rfl, rfl, rfl, rfl, rfl⟩
  rename_i ih
  refine SameShape.trans ?_ ih
  exact ⟨rfl, rfl, rfl, rfl, rfl, rfl⟩

theorem writeLoop_sameShape (chunks : ℕ → WriteChunk) (t : Transfer) (w : WriteState) :
    SameShape t (writeLoop chunks t w).2 := by
  fun_induction writeLoop chunks t w
  all_goals try exact ⟨rfl, rfl, rfl, rfl, rfl, rfl⟩
  all_goals
    rename_i ih
    refine SameShape.trans ?_ ih
    exact ⟨rfl, rfl, rfl, rfl, rfl, rfl⟩

end UsbFloppy.Kernel
