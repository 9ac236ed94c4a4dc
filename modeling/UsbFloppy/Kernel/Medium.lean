import UsbFloppy.Files.Fs
import UsbFloppy.Kernel.Transfer
import UsbFloppy.Lib.Patch

/-! The loops of do_read and do_write once more, with the bytes they move. The loops of
Transfer, which know lengths only, are what is left when the bytes are forgotten. -/

namespace UsbFloppy.Files
open Patch

/-- `kernel_write` of the first `n` bytes of a buffer. -/
def Contents.write (c : Contents) (start n : ℕ) (data : ℕ → UInt8) : Contents where
  size := if n = 0 then c.size else max c.size (start + n)
  byte := patch c.byte start n data
  zeroPast i hi := by
    split_ifs at hi with hn
    · rw [hn, patch_zero]
      exact c.zeroPast i hi
    · rw [patch_of_outside (Or.inr ((le_max_right _ _).trans hi))]
      exact c.zeroPast i ((le_max_left _ _).trans hi)

end UsbFloppy.Files

namespace UsbFloppy.Kernel
open Files Patch

/-- The loop of `do_read` on a file `c`. `sent` are the bytes put into buffers for the host. -/
def readLoopBytes (chunks : ℕ → ReadChunk) (c : Contents) (k : ℕ) (t : Transfer)
    (sent : List UInt8) (fileOffset amountLeft : ℕ) : (Errno × Transfer) × List UInt8 :=
  let amount := min (min amountLeft FSG_BUFLEN) (t.curlun.fileLength - fileOffset)
  if (chunks k).interrupted then ((.EINTR, t), sent)
  else if amount = 0 then
    ((noDefaultReply,
      { t with filled := t.filled ++ [0] }.fail SS_LOGICAL_BLOCK_ADDRESS_OUT_OF_RANGE fileOffset),
      sent)
  else
    let result := kernelIo (chunks k).available amount
    let nread := t.curlun.settle amount result
    let t := t.move fileOffset result
    if (chunks k).signal then ((.EINTR, t), sent)
    else
      let t := { t with residue := t.residue - UInt32.ofNat nread, filled := t.filled ++ [nread] }
      let sent := sent ++ slice c.byte fileOffset nread
      if nread < amount then
        ((noDefaultReply, t.fail SS_UNRECOVERED_READ_ERROR (fileOffset + nread)), sent)
      else if amountLeft - nread = 0 then ((noDefaultReply, t), sent)
      else if (chunks k).started then
        readLoopBytes chunks c (k + 1) t sent (fileOffset + nread) (amountLeft - nread)
      else ((noDefaultReply, t), sent)
termination_by amountLeft
decreasing_by
  have hless : amountLeft - nread < amountLeft := by omega
  exact hless

def doReadBytes (t : Transfer) (c : Contents) (now : UInt64) (chunks : ℕ → ReadChunk) :
    (Errno × Transfer) × List UInt8 :=
  let lba := lbaOf READ_6 READ_16 t.cmnd
  if invalidField READ_6 t.cmnd then ((.EINVAL, t.setSense SS_INVALID_FIELD_IN_CDB), [])
  else if lba ≥ t.curlun.numSectors then
    ((.EINVAL, t.setSense SS_LOGICAL_BLOCK_ADDRESS_OUT_OF_RANGE), [])
  else
    let t := t.hooks lba false now
    if t.dataSizeFromCmnd = 0 then ((noDefaultReply, t), [])
    else readLoopBytes chunks c 0 t [] (lba <<< t.curlun.blkbits) t.dataSizeFromCmnd.toNat

/-- The loop of `do_write` on a file `c`. `data` is what the host sends: every buffer but the
last is asked for in full, so that buffer `k` holds the bytes from `FSG_BUFLEN * k` on. The
variables are returned for the buffers that are still under way. -/
def writeLoopBytes (chunks : ℕ → WriteChunk) (data : ℕ → UInt8) (t : Transfer) (c : Contents)
    (w : WriteState) : (Errno × Transfer) × Contents × WriteState :=
  if w.leftToWrite = 0 then ((noDefaultReply, t), c, w)
  else if w.inFlight.length < t.numBuffers.1 ∧ w.getSomeMore then
    let amount := min w.leftToReq FSG_BUFLEN
    if w.usbOffset ≥ t.curlun.fileLength then
      writeLoopBytes chunks data (t.fail SS_LOGICAL_BLOCK_ADDRESS_OUT_OF_RANGE w.usbOffset) c
        { w with getSomeMore := false }
    else
      let t := { t with usbAmountLeft := t.usbAmountLeft - UInt32.ofNat amount }
      if (chunks w.requested).started then
        writeLoopBytes chunks data t c
          { w with
            usbOffset := w.usbOffset + amount
            leftToReq := w.leftToReq - amount
            getSomeMore := w.leftToReq - amount ≠ 0
            inFlight := w.inFlight ++ [amount]
            requested := w.requested + 1 }
      else ((noDefaultReply, t), c, w)
  else
    match _hbuffers : w.inFlight with
    | [] => ((noDefaultReply, t), c, w)
    | intended :: rest =>
      let chunk := chunks w.drained
      let w' := { w with inFlight := rest, drained := w.drained + 1 }
      if chunk.interrupted then ((.EINTR, t), c, w)
      else if chunk.status ≠ 0 then
        ((noDefaultReply, t.fail SS_COMMUNICATION_FAILURE w.fileOffset), c, w')
      else
        let amount := min (min chunk.actual (t.curlun.fileLength - w.fileOffset)) intended
        let amount := amount / t.curlun.blksize * t.curlun.blksize
        if amount = 0 then
          if chunk.actual < intended then
            ((noDefaultReply, { t with shortPacketReceived := true }), c, w')
          else writeLoopBytes chunks data t c w'
        else
          let result := kernelIo chunk.available amount
          let nwritten := t.curlun.settle amount result
          let t := t.move w.fileOffset result
          let c := c.write w.fileOffset (result.getD 0) fun i => data (FSG_BUFLEN * w.drained + i)
          if chunk.signal then ((.EINTR, t), c, w')
          else
            let t := { t with residue := t.residue - UInt32.ofNat nwritten }
            if nwritten < amount then
              ((noDefaultReply, t.fail SS_WRITE_ERROR (w.fileOffset + nwritten)), c, w')
            else if chunk.actual < intended then
              ((noDefaultReply, { t with shortPacketReceived := true }), c, w')
            else
              writeLoopBytes chunks data t c
                { w' with
                  fileOffset := w.fileOffset + nwritten
                  leftToWrite := w.leftToWrite - nwritten }
termination_by 2 * w.leftToReq + w.inFlight.length + 2 * w.getSomeMore.toNat
decreasing_by
  · rename_i hfill _
    rw [hfill.2]
    exact Nat.add_lt_add_left (by decide) _
  · rename_i hfill _ _
    rw [hfill.2, List.length_append]
    by_cases hlast : w.leftToReq - min w.leftToReq FSG_BUFLEN = 0
    · rw [decide_eq_false (not_not.mpr hlast), hlast, List.length_singleton, Bool.toNat_false,
        Bool.toNat_true]
      omega
    · have hbuf : 0 < FSG_BUFLEN := by decide
      rw [decide_eq_true hlast, List.length_singleton, Bool.toNat_true]
      omega
  · rw [_hbuffers, List.length_cons]
    omega
  · rw [_hbuffers, List.length_cons]
    omega

/-- Before the first buffer of a WRITE is asked for. -/
def writeStart (offset size : ℕ) : WriteState := ⟨offset, offset, size, size, true, [], 0, 0⟩

def doWriteBytes (t : Transfer) (c : Contents) (now : UInt64) (chunks : ℕ → WriteChunk)
    (data : ℕ → UInt8) : (Errno × Transfer) × Contents × WriteState :=
  let lba := lbaOf WRITE_6 WRITE_16 t.cmnd
  if t.curlun.ro then ((.EINVAL, t.setSense SS_WRITE_PROTECTED), c, writeStart 0 0)
  else if invalidField WRITE_6 t.cmnd then
    ((.EINVAL, { t with oSync := false }.setSense SS_INVALID_FIELD_IN_CDB), c, writeStart 0 0)
  else
    let fua := t.cmnd 0 ≠ WRITE_6 ∧ t.curlun.nofua = false ∧ t.cmnd 1 &&& 0x08 ≠ 0
    let t := { t with oSync := fua }
    if lba ≥ t.curlun.numSectors then
      ((.EINVAL, t.setSense SS_LOGICAL_BLOCK_ADDRESS_OUT_OF_RANGE), c, writeStart 0 0)
    else
      let t := t.hooks lba true now
      writeLoopBytes chunks data t c
        (writeStart (lba <<< t.curlun.blkbits) t.dataSizeFromCmnd.toNat)

/-! ### Without the bytes -/

theorem readLoopBytes_fst (chunks : ℕ → ReadChunk) (c : Contents) (k : ℕ) (t : Transfer)
    (sent : List UInt8) (fileOffset amountLeft : ℕ) :
    (readLoopBytes chunks c k t sent fileOffset amountLeft).1 =
      readLoop chunks k t fileOffset amountLeft := by
  fun_induction readLoopBytes chunks c k t sent fileOffset amountLeft with
  | case1 k t sent fileOffset amountLeft hint => rw [readLoop, if_pos hint]
  | case2 k t sent fileOffset amountLeft amount hint hzero =>
    rw [readLoop, if_neg hint, if_pos hzero]
  | case3 k t sent fileOffset amountLeft amount hint hzero result t' hsignal =>
    rw [readLoop, if_neg hint, if_neg hzero]
    exact (if_pos hsignal).symm
  | case4 k t sent fileOffset amountLeft amount hint hzero result nread t₁ hsignal t₂ sent' hless =>
    rw [readLoop, if_neg hint, if_neg hzero]
    exact ((if_neg hsignal).trans (if_pos hless)).symm
  | case5 k t sent fileOffset amountLeft amount hint hzero result nread t₁ hsignal t₂ sent' hless
      hdone =>
    rw [readLoop, if_neg hint, if_neg hzero]
    exact ((if_neg hsignal).trans ((if_neg hless).trans (if_pos hdone))).symm
  | case6 k t sent fileOffset amountLeft amount hint hzero result nread t₁ hsignal t₂ sent' hless
      hdone hstarted ih =>
    rw [readLoop, if_neg hint, if_neg hzero, ih]
    exact ((if_neg hsignal).trans
      ((if_neg hless).trans ((if_neg hdone).trans (if_pos hstarted)))).symm
  | case7 k t sent fileOffset amountLeft amount hint hzero result nread t₁ hsignal t₂ sent' hless
      hdone hstarted =>
    rw [readLoop, if_neg hint, if_neg hzero]
    exact ((if_neg hsignal).trans
      ((if_neg hless).trans ((if_neg hdone).trans (if_neg hstarted)))).symm

/-- The loop takes up the buffer that comes back first. -/
theorem writeLoop_drain {chunks : ℕ → WriteChunk} {t : Transfer} {w : WriteState} {intended : ℕ}
    {rest : List ℕ} (hleft : ¬ w.leftToWrite = 0)
    (hfill : ¬ (w.inFlight.length < t.numBuffers.1 ∧ w.getSomeMore))
    (hw : w.inFlight = intended :: rest) :
    writeLoop chunks t w =
      let chunk := chunks w.drained
      if chunk.interrupted then (.EINTR, t)
      else if chunk.status ≠ 0 then (noDefaultReply, t.fail SS_COMMUNICATION_FAILURE w.fileOffset)
      else
        let amount := min (min chunk.actual (t.curlun.fileLength - w.fileOffset)) intended
        let amount := amount / t.curlun.blksize * t.curlun.blksize
        let w' := { w with inFlight := rest, drained := w.drained + 1 }
        if amount = 0 then
          if chunk.actual < intended then (noDefaultReply, { t with shortPacketReceived := true })
          else writeLoop chunks t w'
        else
          let result := kernelIo chunk.available amount
          let nwritten := t.curlun.settle amount result
          let t := t.move w.fileOffset result
          if chunk.signal then (.EINTR, t)
          else
            let t := { t with residue := t.residue - UInt32.ofNat nwritten }
            if nwritten < amount then
              (noDefaultReply, t.fail SS_WRITE_ERROR (w.fileOffset + nwritten))
            else if chunk.actual < intended then (noDefaultReply, { t with shortPacketReceived := true })
            else
              writeLoop chunks t
                { w' with
                  fileOffset := w.fileOffset + nwritten
                  leftToWrite := w.leftToWrite - nwritten } := by
  obtain ⟨usb, file, req, left, more, flight, requested, drained⟩ := w
  obtain rfl : flight = intended :: rest := hw
  rw [writeLoop, if_neg hleft, if_neg hfill]

theorem writeLoopBytes_fst (chunks : ℕ → WriteChunk) (data : ℕ → UInt8) (t : Transfer)
    (c : Contents) (w : WriteState) :
    (writeLoopBytes chunks data t c w).1 = writeLoop chunks t w := by
  fun_induction writeLoopBytes chunks data t c w with
  | case1 t c w hleft => rw [writeLoop, if_pos hleft]
  | case2 t c w hleft hfill hend ih =>
    rw [writeLoop, if_neg hleft, if_pos hfill, ih]
    exact (if_pos hend).symm
  | case3 t c w hleft hfill amount hend t' hstarted ih =>
    rw [writeLoop, if_neg hleft, if_pos hfill, ih]
    exact ((if_neg hend).trans (if_pos hstarted)).symm
  | case4 t c w hleft hfill amount hend t' hstarted =>
    rw [writeLoop, if_neg hleft, if_pos hfill]
    exact ((if_neg hend).trans (if_neg hstarted)).symm
  | case5 t c w hleft hfill hw =>
    obtain ⟨usb, file, req, left, more, flight, requested, drained⟩ := w
    obtain rfl : flight = [] := hw
    rw [writeLoop, if_neg hleft, if_neg hfill]
  | case6 t c w hleft hfill intended rest hw chunk hint =>
    rw [writeLoop_drain hleft hfill hw]
    exact (if_pos hint).symm
  | case7 t c w hleft hfill intended rest hw chunk w' hint hstatus =>
    rw [writeLoop_drain hleft hfill hw]
    exact ((if_neg hint).trans (if_pos hstatus)).symm
  | case8 t c w hleft hfill intended rest hw chunk w' hint hstatus whole amount hzero hshort =>
    rw [writeLoop_drain hleft hfill hw]
    exact ((if_neg hint).trans ((if_neg hstatus).trans ((if_pos hzero).trans (if_pos hshort)))).symm
  | case9 t c w hleft hfill intended rest hw chunk w' hint hstatus whole amount hzero hshort ih =>
    rw [writeLoop_drain hleft hfill hw, ih]
    exact ((if_neg hint).trans ((if_neg hstatus).trans ((if_pos hzero).trans (if_neg hshort)))).symm
  | case10 t c w hleft hfill intended rest hw chunk w' hint hstatus whole amount hne result t' c'
      hsignal =>
    rw [writeLoop_drain hleft hfill hw]
    exact ((if_neg hint).trans ((if_neg hstatus).trans ((if_neg hne).trans (if_pos hsignal)))).symm
  | case11 t c w hleft hfill intended rest hw chunk w' hint hstatus whole amount hne result nwritten
      t₁ c' hsignal t₂ hless =>
    rw [writeLoop_drain hleft hfill hw]
    exact ((if_neg hint).trans ((if_neg hstatus).trans ((if_neg hne).trans ((if_neg hsignal).trans
      (if_pos hless))))).symm
  | case12 t c w hleft hfill intended rest hw chunk w' hint hstatus whole amount hne result nwritten
      t₁ c' hsignal t₂ hless hshort =>
    rw [writeLoop_drain hleft hfill hw]
    exact ((if_neg hint).trans ((if_neg hstatus).trans ((if_neg hne).trans ((if_neg hsignal).trans
      ((if_neg hless).trans (if_pos hshort)))))).symm
  | case13 t c w hleft hfill intended rest hw chunk w' hint hstatus whole amount hne result nwritten
      t₁ c' hsignal t₂ hless hshort ih =>
    rw [writeLoop_drain hleft hfill hw, ih]
    exact ((if_neg hint).trans ((if_neg hstatus).trans ((if_neg hne).trans ((if_neg hsignal).trans
      ((if_neg hless).trans (if_neg hshort)))))).symm

theorem doReadBytes_fst (t : Transfer) (c : Contents) (now : UInt64) (chunks : ℕ → ReadChunk) :
    (doReadBytes t c now chunks).1 = doRead t now chunks := by
  unfold doReadBytes doRead
  dsimp only
  split_ifs
  · rfl
  · rfl
  · rfl
  · exact readLoopBytes_fst chunks c 0 _ [] _ _

theorem doWriteBytes_fst (t : Transfer) (c : Contents) (now : UInt64)
    (chunks : ℕ → WriteChunk) (data : ℕ → UInt8) :
    (doWriteBytes t c now chunks data).1 = doWrite t now chunks := by
  unfold doWriteBytes doWrite
  dsimp only
  split_ifs
  · rfl
  · rfl
  · rfl
  · exact writeLoopBytes_fst chunks data _ c _

end UsbFloppy.Kernel
