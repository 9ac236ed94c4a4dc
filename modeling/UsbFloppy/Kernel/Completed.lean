import UsbFloppy.Kernel.ReadBack

/-! Transfers that nothing disturbs: all the bytes they claim are moved, and the status says
so. -/

namespace UsbFloppy.Kernel
open Files Patch Transition

/-! ### The loops -/

/-- Every buffer can be filled from the file and queued, and no signal comes. -/
def ReadChunk.Smooth (chunk : ReadChunk) : Prop :=
  chunk.interrupted = false ∧ (∃ n, chunk.available = some n ∧ FSG_BUFLEN ≤ n) ∧
    chunk.signal = false ∧ chunk.started = true

/-- Every buffer can be queued, comes back full and can be written, and no signal comes. -/
structure WriteChunk.Smooth (chunk : WriteChunk) : Prop where
  started : chunk.started = true
  interrupted : chunk.interrupted = false
  status : chunk.status = 0
  actual : FSG_BUFLEN ≤ chunk.actual
  available : ∃ n, chunk.available = some n ∧ FSG_BUFLEN ≤ n
  signal : chunk.signal = false

theorem settle_smooth {lun : FsgLun} {available : Option ℕ} {amount : ℕ}
    (h : ∃ n, available = some n ∧ FSG_BUFLEN ≤ n) (hamount : amount ≤ FSG_BUFLEN) :
    lun.settle amount (kernelIo available amount) = amount := by
  obtain ⟨n, rfl, hn⟩ := h
  have hmin : min n amount = amount := min_eq_right (hamount.trans hn)
  rw [kernelIo, Option.map_some, hmin, FsgLun.settle, if_neg (lt_irrefl amount)]

theorem readLoop_smooth {chunks : ℕ → ReadChunk} (hsmooth : ∀ i, (chunks i).Smooth) (k : ℕ)
    (t : Transfer) (fileOffset amountLeft : ℕ) (hpos : 0 < amountLeft)
    (hfile : fileOffset + amountLeft ≤ t.curlun.fileLength)
    (hres : amountLeft ≤ t.residue.toNat) :
    (readLoop chunks k t fileOffset amountLeft).1 = noDefaultReply ∧
      (readLoop chunks k t fileOffset amountLeft).2.residue.toNat + amountLeft =
        t.residue.toNat := by
  fun_induction readLoop chunks k t fileOffset amountLeft
  case case1 k t fileOffset amountLeft hint =>
    rw [(hsmooth k).1] at hint
    cases hint
  case case2 k t fileOffset amountLeft amount hint hzero =>
    have hbuf : 0 < FSG_BUFLEN := by decide
    omega
  case case3 k t fileOffset amountLeft amount hint hzero result t' hsignal =>
    rw [(hsmooth k).2.2.1] at hsignal
    cases hsignal
  case case4 k t fileOffset amountLeft amount hint hzero result nread t₁ hsignal t₂ hless =>
    have hsettle : nread = amount := settle_smooth (hsmooth k).2.1 (by omega)
    omega
  case case5 k t fileOffset amountLeft amount hint hzero result nread t₁ hsignal t₂ hless hdone =>
    have hsettle : nread = amount := settle_smooth (hsmooth k).2.1 (by omega)
    have hfit : nread ≤ t.residue.toNat := by omega
    have hsub : t₂.residue.toNat + nread = t.residue.toNat := sub_ofNat_toNat hfit
    have hall : t₂.residue.toNat + amountLeft = t.residue.toNat := by omega
    exact ⟨rfl, hall⟩
  case case6 k t fileOffset amountLeft amount hint hzero result nread t₁ hsignal t₂ hless hdone
      hstarted ih =>
    have hsettle : nread = amount := settle_smooth (hsmooth k).2.1 (by omega)
    have hfit : nread ≤ t.residue.toNat := by omega
    have hsub : t₂.residue.toNat + nread = t.residue.toNat := sub_ofNat_toNat hfit
    have hfile₂ : fileOffset + nread + (amountLeft - nread) ≤ t₂.curlun.fileLength := by
      change _ ≤ t.curlun.fileLength
      omega
    obtain ⟨herr, hrest⟩ := ih (by omega) hfile₂ (by omega)
    exact ⟨herr, by omega⟩
  case case7 k t fileOffset amountLeft amount hint hzero result nread t₁ hsignal t₂ hless hdone
      hstarted =>
    exact absurd (hsmooth k).2.2.2 hstarted

/-- Where a write stands that nothing has disturbed so far. -/
structure Flowing (start size : ℕ) (t : Transfer) (w : WriteState) (done : ℕ) : Prop where
  fits : start + size ≤ t.curlun.fileLength
  whole : t.curlun.blksize ∣ size
  usbOffset : w.getSomeMore = true → w.usbOffset = start + FSG_BUFLEN * w.requested
  enough : w.getSomeMore = false → size ≤ FSG_BUFLEN * w.requested
  order : done = FSG_BUFLEN * w.drained ∨ done = size

section Flowing
variable {c₀ c : Contents} {data : ℕ → UInt8} {start size residue done : ℕ} {t : Transfer}
  {w : WriteState} {intended : ℕ} {rest : List ℕ}

/-- A full buffer holds whole blocks that fit. -/
theorem Flowing.amount (hf : Flowing start size t w done)
    (h : Streaming c₀ data start size residue t c w done) (hblk : t.curlun.blksize ∣ FSG_BUFLEN)
    (hleft : ¬ w.leftToWrite = 0) (hw : w.inFlight = intended :: rest) {actual : ℕ}
    (hactual : FSG_BUFLEN ≤ actual) :
    min (min actual (t.curlun.fileLength - w.fileOffset)) intended / t.curlun.blksize *
        t.curlun.blksize = intended ∧
      0 < intended ∧ intended ≤ FSG_BUFLEN ∧
      (done + intended = FSG_BUFLEN * (w.drained + 1) ∨ done + intended = size) := by
  obtain ⟨-, hmore, hintended, -⟩ := h.head hw
  have hoffset := h.fileOffset
  have hrest := h.leftToWrite
  have hfits := hf.fits
  have horder : done = FSG_BUFLEN * w.drained := by
    rcases hf.order with horder | hend
    · exact horder
    · omega
  simp only [chunkLength] at hintended
  have hmin : min (min actual (t.curlun.fileLength - w.fileOffset)) intended = intended := by omega
  have hdvd : t.curlun.blksize ∣ intended := by
    rw [hintended]
    rcases min_choice (size - FSG_BUFLEN * w.drained) FSG_BUFLEN with hmin | hmin <;> rw [hmin]
    · exact Nat.dvd_sub hf.whole (hblk.mul_right _)
    · exact hblk
  have hbuf : 0 < FSG_BUFLEN := by decide
  rw [hmin, Nat.div_mul_cancel hdvd, Nat.mul_add, Nat.mul_one]
  omega

theorem writeLoop_smooth {chunks : ℕ → WriteChunk} (hsmooth : ∀ i, (chunks i).Smooth)
    (h : Streaming c₀ data start size residue t c w done) (hf : Flowing start size t w done)
    (hblk : t.curlun.blksize ∣ FSG_BUFLEN) :
    (writeLoopBytes chunks data t c w).1.1 = noDefaultReply ∧
      (writeLoopBytes chunks data t c w).1.2.residue.toNat + size = residue := by
  -- of the ends of the loop only that with nothing left to write can be reached
  fun_induction writeLoopBytes chunks data t c w generalizing done
  case case1 t c w hleft =>
    have hres := h.residue
    have hrest := h.leftToWrite
    have hle := h.le
    have hall : t.residue.toNat + size = residue := by omega
    exact ⟨rfl, hall⟩
  case case2 t c w hleft hfill hend ih =>
    have husb := hf.usbOffset hfill.2
    have hmore := h.more hfill.2
    have hfits := hf.fits
    omega
  case case3 t c w hleft hfill amount hend t' hstarted ih =>
    refine ih (h.request hfill.2 _) ⟨hf.fits, hf.whole, fun hmore' => ?_, fun hmore' => ?_,
      hf.order⟩ hblk
    · have husb := hf.usbOffset hfill.2
      have hreq := h.leftToReq
      have hmore' := of_decide_eq_true hmore'
      simp only [Nat.mul_add]
      omega
    · have hreq := h.leftToReq
      have hmore' := not_not.mp (of_decide_eq_false hmore')
      simp only [Nat.mul_add]
      omega
  case case4 t c w hleft hfill amount hend t' hstarted =>
    exact absurd (hsmooth _).started hstarted
  -- nothing under way, nothing to ask for, but something left to write
  case case5 t c w hleft hfill hw =>
    have hmore : w.getSomeMore = false := by
      refine eq_false_of_ne_true fun hmore => hfill ⟨?_, hmore⟩
      rw [hw]
      exact t.numBuffers.2
    have henough := hf.enough hmore
    have hrest := h.leftToWrite
    have hlen := congrArg List.length h.inFlight
    rw [hw, List.length_map, List.length_range', List.length_nil] at hlen
    have horder := h.order
    have hsame : w.requested = w.drained := by omega
    rw [hsame] at henough
    have hle := h.le
    rcases hf.order with horder | hend <;> omega
  case case6 t c w hleft hfill intended rest hw chunk hint =>
    rw [(hsmooth w.drained).interrupted] at hint
    cases hint
  case case7 t c w hleft hfill intended rest hw chunk w' hint hstatus =>
    exact absurd (hsmooth w.drained).status hstatus
  case case8 t c w hleft hfill intended rest hw chunk w' hint hstatus whole amount hzero hshort =>
    obtain ⟨hamount, hpos, -⟩ := hf.amount h hblk hleft hw (hsmooth w.drained).actual
    exact absurd (hamount.symm.trans hzero) hpos.ne'
  case case9 t c w hleft hfill intended rest hw chunk w' hint hstatus whole amount hzero hshort ih =>
    obtain ⟨hamount, hpos, -⟩ := hf.amount h hblk hleft hw (hsmooth w.drained).actual
    exact absurd (hamount.symm.trans hzero) hpos.ne'
  case case10 t c w hleft hfill intended rest hw chunk w' hint hstatus whole amount hne result t'
      c' hsignal =>
    rw [(hsmooth w.drained).signal] at hsignal
    cases hsignal
  case case11 t c w hleft hfill intended rest hw chunk w' hint hstatus whole amount hne result
      nwritten t₁ c' hsignal t₂ hless =>
    obtain ⟨hamount, -, hle, -⟩ := hf.amount h hblk hleft hw (hsmooth w.drained).actual
    have hsettle : nwritten = amount :=
      settle_smooth (hsmooth w.drained).available (hamount.le.trans hle)
    exact absurd hsettle hless.ne
  case case12 t c w hleft hfill intended rest hw chunk w' hint hstatus whole amount hne result
      nwritten t₁ c' hsignal t₂ hless hshort =>
    obtain ⟨-, -, hle, -⟩ := hf.amount h hblk hleft hw (hsmooth w.drained).actual
    exact absurd (hle.trans (hsmooth w.drained).actual) (not_le.mpr hshort)
  -- the only way on from a buffer that came back
  case case13 t c w hleft hfill intended rest hw chunk w' hint hstatus whole amount hne result
      nwritten t₁ c' hsignal t₂ hless hshort ih =>
    obtain ⟨hamount, -, -, hnext⟩ := hf.amount h hblk hleft hw (hsmooth w.drained).actual
    obtain ⟨hle, hfits⟩ := h.amount_spec hw (rfl : amount = _)
    obtain ⟨horder, hfile⟩ := hfits (Nat.pos_of_ne_zero hne)
    obtain ⟨hsettle, hbytes⟩ : nwritten = amount ∧ result.getD 0 = amount := getD_of_settle hless
    have hcontents : c' = c₀.write start (done + nwritten) data := by
      rw [hsettle, ← hbytes]
      exact h.write fun _ => horder
    refine ih (h.drain hblk hw hsettle hshort rfl rfl (h.count (by omega)) hcontents)
      ⟨hf.fits, hf.whole, hf.usbOffset, hf.enough, ?_⟩ hblk
    rw [hsettle, show amount = intended from hamount]
    exact hnext

end Flowing

/-! ### The commands -/

theorem doRead_smooth {chunks : ℕ → ReadChunk} (hsmooth : ∀ i, (chunks i).Smooth) (t : Transfer)
    (now : UInt64) (hfield : ¬ invalidField READ_6 t.cmnd)
    (hlba : lbaOf READ_6 READ_16 t.cmnd < t.curlun.numSectors)
    (hfile : lbaOf READ_6 READ_16 t.cmnd <<< t.curlun.blkbits + t.dataSizeFromCmnd.toNat ≤
      t.curlun.fileLength)
    (hclaimed : t.dataSizeFromCmnd.toNat ≤ t.residue.toNat) :
    (doRead t now chunks).1 = noDefaultReply ∧
      (doRead t now chunks).2.residue.toNat + t.dataSizeFromCmnd.toNat = t.residue.toNat := by
  unfold doRead
  dsimp only
  rw [if_neg hfield, if_neg (not_le.mpr hlba)]
  split_ifs with hzero
  · have hnone : t.dataSizeFromCmnd = 0 := hzero
    rw [hnone]
    exact ⟨rfl, rfl⟩
  · have hpos : 0 < t.dataSizeFromCmnd.toNat := by
      refine Nat.pos_of_ne_zero fun hnone => hzero ?_
      exact UInt32.toNat_inj.mp hnone
    exact readLoop_smooth hsmooth 0 (t.hooks _ false now) _ _ hpos hfile hclaimed

theorem writeLoopBytes_smooth {chunks : ℕ → WriteChunk} (hsmooth : ∀ i, (chunks i).Smooth)
    (c : Contents) (data : ℕ → UInt8) {start size : ℕ} (t : Transfer)
    (hfits : start + size ≤ t.curlun.fileLength) (hwhole : t.curlun.blksize ∣ size)
    (hclaimed : size ≤ t.residue.toNat) (husb : t.usbAmountLeft = t.residue)
    (hblk : t.curlun.blksize ∣ FSG_BUFLEN) :
    let r := writeLoopBytes chunks data t c (writeStart start size)
    r.1.1 = noDefaultReply ∧ r.1.2.residue.toNat + size = t.residue.toNat := by
  rcases Nat.eq_zero_or_pos size with rfl | hpos
  · rw [writeLoopBytes, if_pos (show (writeStart start 0).leftToWrite = 0 from rfl)]
    exact ⟨rfl, rfl⟩
  · have hf : Flowing start size t (writeStart start size) 0 :=
      ⟨hfits, hwhole, fun _ => rfl, fun hfalse => (by cases hfalse), Or.inl rfl⟩
    exact writeLoop_smooth hsmooth (streaming_start c data start hclaimed rfl
      (congrArg UInt32.toNat husb) hpos) hf hblk

theorem doWrite_smooth {chunks : ℕ → WriteChunk} (hsmooth : ∀ i, (chunks i).Smooth) (t : Transfer)
    (now : UInt64) (hro : t.curlun.ro = false) (hfield : ¬ invalidField WRITE_6 t.cmnd)
    (hlba : lbaOf WRITE_6 WRITE_16 t.cmnd < t.curlun.numSectors)
    (hfile : lbaOf WRITE_6 WRITE_16 t.cmnd <<< t.curlun.blkbits + t.dataSizeFromCmnd.toNat ≤
      t.curlun.fileLength)
    (hclaimed : t.dataSizeFromCmnd.toNat ≤ t.residue.toNat)
    (husb : t.usbAmountLeft = t.residue)
    (hwhole : t.curlun.blksize ∣ t.dataSizeFromCmnd.toNat) (hblk : t.curlun.blksize ∣ FSG_BUFLEN) :
    (doWrite t now chunks).1 = noDefaultReply ∧
      (doWrite t now chunks).2.residue.toNat + t.dataSizeFromCmnd.toNat = t.residue.toNat := by
  have hro' : ¬ t.curlun.ro = true := by
    rw [hro]
    exact Bool.false_ne_true
  unfold doWrite
  dsimp only
  rw [if_neg hro', if_neg hfield, if_neg (not_le.mpr hlba)]
  generalize decide (t.cmnd 0 ≠ WRITE_6 ∧ t.curlun.nofua = false ∧ t.cmnd 1 &&& 0x08 ≠ 0) = fua
  have hloop := writeLoopBytes_smooth hsmooth (Contents.zeros 0) (fun _ => 0)
    (Transfer.hooks { t with oSync := fua } (lbaOf WRITE_6 WRITE_16 t.cmnd) true now)
    hfile hwhole hclaimed husb hblk
  dsimp only at hloop
  rw [writeLoopBytes_fst] at hloop
  exact hloop

/-- A transfer the LUN accepts, within its file, that neither the host nor a fault nor a
signal disturbs. -/
structure Undisturbed (d : Drive) (a : Access) : Prop where
  reads : ∀ i, (a.io.reads i).Smooth
  writes : ∀ i, (a.io.writes i).Smooth
  signal : a.io.signal = false
  writable : a.isWrite = true → d.thread.lun.ro = false
  field : ¬ invalidField (if a.isWrite then WRITE_6 else READ_6) a.transfer.cmnd
  onMedium : a.lba < d.thread.lun.numSectors
  fits : a.start + a.length ≤ (d.files a.file).size
  whole : d.thread.lun.blksize ∣ a.length

theorem Undisturbed.reply {d : Drive} {e : DriveEvent} {a : Access} (h : Undisturbed d a)
    (hvalid : d.Valid) (ha : d.access e = some a) :
    let r := if a.isWrite then doWrite a.transfer a.io.now a.io.writes
      else doRead a.transfer a.io.now a.io.reads
    r.1 = noDefaultReply ∧ r.2.residue.toNat + a.length = a.announced := by
  obtain ⟨f, hfilp, hfile, hbacked, hclaimed, husb, hkept⟩ := hvalid.access ha
  have hfits := h.fits
  have hwhole := h.whole
  have hlba := h.onMedium
  have hfield := h.field
  rw [← hbacked.fileLength] at hfits
  rw [← hkept.blksize] at hwhole
  rw [← hkept.numSectors] at hlba
  obtain ⟨file, isWrite, t, io⟩ := a
  cases isWrite with
  | false => exact doRead_smooth h.reads t io.now hfield hlba hfits hclaimed
  | true =>
    exact doWrite_smooth h.writes t io.now (hkept.ro.trans (h.writable rfl)) hfield hlba hfits
      hclaimed husb hwhole hbacked.buffer

theorem Undisturbed.residue {d : Drive} {e : DriveEvent} {a : Access} (h : Undisturbed d a)
    (hvalid : d.Valid) (ha : d.access e = some a) :
    (d.step e).thread.residue = some (a.announced - a.length) := by
  obtain ⟨hreply, hresidue⟩ := h.reply hvalid ha
  obtain ⟨cmd, io, data, f, rfl, hloop, hfilp, hfile, rfl, hstart⟩ := Drive.access_some ha
  obtain ⟨c₂, hdone, hc₂⟩ := doScsiCommand_reply hstart h.signal hreply
  simp only [FsgThread.residue, Drive.step, FsgThread.step, hloop, hdone, if_true, hc₂]
  congr 1
  omega

/-- A transfer that nothing disturbs moves every byte it claims, and the status says so. -/
theorem undisturbed_completes {files : Text → Contents} {es : List DriveEvent} {e : DriveEvent}
    {a : Access} (hhonest : Guarded Drive.step Honest (Drive.start files) es)
    (ha : (run Drive.step (Drive.start files) es).access e = some a)
    (hclear : Undisturbed (run Drive.step (Drive.start files) es) a) :
    let d := run Drive.step (Drive.start files) es
    (d.step e).thread.residue = some (a.announced - a.length) ∧
      if a.isWrite then slice ((d.step e).files a.file).byte a.start a.length =
        slice e.data 0 a.length
      else d.delivered e = slice (d.files a.file).byte a.start a.length := by
  have hvalid := valid_run hhonest
  set d := run Drive.step (Drive.start files) es
  have hres := hclear.residue hvalid ha
  obtain ⟨f, hfilp, hfile, hbacked, hclaimed, husb, hkept⟩ := hvalid.access ha
  refine ⟨hres, ?_⟩
  split_ifs with hkind
  · obtain ⟨n, hwrote⟩ := hvalid.wrote ha hkind
    exact hwrote.whole hres (by omega)
  · obtain ⟨n, hread⟩ := hvalid.readOut ha (eq_false_of_ne_true hkind)
    have hresidue := hread.residue _ hres
    obtain rfl : n = a.length := by omega
    exact hread.delivered

/-- What is looked at of a transfer to see that nothing disturbs it. -/
structure Digest where
  file : Text
  isWrite : Bool
  lba : ℕ
  start : ℕ
  length : ℕ
  announced : ℕ
  invalid : Bool
  deriving DecidableEq

def Access.digest (a : Access) : Digest :=
  ⟨a.file, a.isWrite, a.lba, a.start, a.length, a.announced,
    decide (invalidField (if a.isWrite then WRITE_6 else READ_6) a.transfer.cmnd)⟩

theorem sample_undisturbed {d : Drive} {op lba n : UInt8} {dir : DataDirection} {a : Access}
    {file : Text} {isWrite : Bool} {block start length announced : ℕ}
    (ha : d.access (sampleCommand op lba n dir) = some a)
    (hdigest : a.digest = ⟨file, isWrite, block, start, length, announced, false⟩)
    (hro : d.thread.lun.ro = false) (hblock : block < d.thread.lun.numSectors)
    (hfits : start + length ≤ (d.files file).size) (hwhole : d.thread.lun.blksize ∣ length) :
    Undisturbed d a := by
  simp only [Access.digest, Digest.mk.injEq, decide_eq_false_iff_not] at hdigest
  obtain ⟨rfl, rfl, rfl, rfl, rfl, rfl, hfield⟩ := hdigest
  obtain ⟨cmd, io, data, f, he, -, -, -, hio, -⟩ := Drive.access_some ha
  obtain rfl : io = sampleIo := by
    injection he with hbus
    injection hbus with _ _ hio
    exact hio.symm
  refine ⟨fun i => ?_, fun i => ?_, by rw [hio]; rfl, fun _ => hro, hfield, hblock, hfits, hwhole⟩
  · rw [hio]
    exact ⟨rfl, ⟨16384, rfl, le_refl _⟩, rfl, rfl⟩
  · rw [hio]
    exact ⟨rfl, rfl, rfl, le_refl _, ⟨16384, rfl, le_refl _⟩, rfl⟩

/-- A WRITE of the second block. -/
theorem sampleWrite_access : ∃ a,
    (run Drive.step (Drive.start sampleFiles) sampleMount).access
      (sampleCommand WRITE_6 1 1 .fromHost) = some a ∧
    a.digest = ⟨['a'], true, 1, 512, 512, 512, false⟩ := by
  have hmap : ((run Drive.step (Drive.start sampleFiles) sampleMount).access
      (sampleCommand WRITE_6 1 1 .fromHost)).map Access.digest =
        some ⟨['a'], true, 1, 512, 512, 512, false⟩ := by decide +kernel
  obtain ⟨a, ha, hdigest⟩ := Option.map_eq_some_iff.mp hmap
  exact ⟨a, ha, hdigest⟩

theorem undisturbed_completes_example : ∃ a,
    (run Drive.step (Drive.start sampleFiles) sampleMount).access
      (sampleCommand WRITE_6 1 1 .fromHost) = some a ∧
    ((run Drive.step (Drive.start sampleFiles) sampleMount).step
      (sampleCommand WRITE_6 1 1 .fromHost)).thread.residue = some (a.announced - a.length) := by
  obtain ⟨a, ha, hdigest⟩ := sampleWrite_access
  have hclear := sample_undisturbed ha hdigest (by decide +kernel) (by decide +kernel)
    (by decide +kernel) (by decide +kernel)
  have hhonest : Guarded Drive.step Honest (Drive.start sampleFiles) (sampleMount ++ []) :=
    sampleMount_honest trivial
  exact ⟨a, ha, (undisturbed_completes hhonest ha hclear).1⟩

/-! ### Written and read back -/

/-- What a WRITE stored without a residue is what any later READ of these bytes delivers,
whatever happens in between, as long as no other WRITE claims one of them. -/
theorem write_read_back {files : Text → Contents} {before between : List DriveEvent}
    {w r : DriveEvent} {a b : Access}
    (hhonest : Guarded Drive.step Honest (Drive.start files) (before ++ w :: between))
    (ha : (run Drive.step (Drive.start files) before).access w = some a) (hw : a.isWrite = true)
    (hstored : (run Drive.step (Drive.start files) (before ++ [w])).thread.residue = some 0)
    (hspare : Guarded Drive.step (Spares a.file a.start a.length)
      (run Drive.step (Drive.start files) (before ++ [w])) between)
    (hb : (run Drive.step (Drive.start files) (before ++ w :: between)).access r = some b)
    (hr : b.isWrite = false) (hfile : b.file = a.file) (hstart : a.start ≤ b.start)
    (hend : b.start + b.length ≤ a.start + a.length) :
    ∃ n ≤ b.length, (run Drive.step (Drive.start files) (before ++ w :: between)).delivered r =
        slice w.data (b.start - a.start) n ∧
      ∀ residue, (run Drive.step (Drive.start files)
        (before ++ w :: between ++ [r])).thread.residue = some residue →
          residue + n = b.announced := by
  obtain ⟨hbefore, hhonest₁⟩ := (guarded_append _ _ _).mp hhonest
  simp only [run_append, run_cons, run_nil] at hstored hspare hb ⊢
  set d₁ := run Drive.step (Drive.start files) before with hd₁
  set d₂ := run Drive.step (d₁.step w) between with hd₂
  have hvalid₁ : d₁.Valid := valid_run hbefore
  obtain ⟨-, -, -, -, hclaimed, -, -⟩ := hvalid₁.access ha
  obtain ⟨m, hwrote⟩ := hvalid₁.wrote ha hw
  have hwhole := hwrote.whole hstored (by omega)
  obtain ⟨hvalid₂, hkept⟩ := (hvalid₁.step hhonest₁.1).run_spared hhonest₁.2 hspare
  obtain ⟨n, hread⟩ := hvalid₂.readOut hb hr
  refine ⟨n, hread.le, ?_, hread.residue⟩
  have hle := hread.le
  have hsame := slice_sub (hkept.trans hwhole) (show b.start - a.start + n ≤ a.length by omega)
  rw [hread.delivered, hfile, show b.start = a.start + (b.start - a.start) by omega, hsame,
    Nat.zero_add, Nat.add_sub_cancel_left]


theorem write_read_back_example : ∃ n ≤ 512,
    (run Drive.step (Drive.start sampleFiles)
      (sampleMount ++ sampleCommand WRITE_6 1 1 .fromHost :: [sampleStatus])).delivered
        (sampleCommand READ_6 1 1 .toHost) = slice (fun _ => 7) 0 n := by
  obtain ⟨a, ha, hdigest⟩ := sampleWrite_access
  have hmap : ((run Drive.step (Drive.start sampleFiles)
      (sampleMount ++ sampleCommand WRITE_6 1 1 .fromHost :: [sampleStatus])).access
        (sampleCommand READ_6 1 1 .toHost)).map Access.digest =
          some ⟨['a'], false, 1, 512, 512, 512, false⟩ := by decide +kernel
  obtain ⟨b, hb, hdigest'⟩ := Option.map_eq_some_iff.mp hmap
  simp only [Access.digest, Digest.mk.injEq] at hdigest hdigest'
  obtain ⟨hfile, hwrite, -, hstart, hlength, -⟩ := hdigest
  obtain ⟨hfile', hread, -, hstart', hlength', -⟩ := hdigest'
  have hspare : Guarded Drive.step (Spares a.file a.start a.length)
      (run Drive.step (Drive.start sampleFiles)
        (sampleMount ++ [sampleCommand WRITE_6 1 1 .fromHost])) [sampleStatus] :=
    ⟨fun _ h => (by cases h), trivial⟩
  have hhonest : Guarded Drive.step Honest (Drive.start sampleFiles)
      (sampleMount ++ sampleCommand WRITE_6 1 1 .fromHost :: [sampleStatus]) :=
    sampleMount_honest ⟨trivial, trivial, trivial⟩
  obtain ⟨n, hle, hdelivered, -⟩ := write_read_back hhonest ha hwrite (by decide +kernel) hspare hb
    hread (hfile'.trans hfile.symm) (by rw [hstart, hstart'])
    (by rw [hstart, hstart', hlength, hlength'])
  rw [hstart, hstart', Nat.sub_self] at hdelivered
  exact ⟨n, hle.trans hlength'.le, hdelivered⟩

end UsbFloppy.Kernel
