import UsbFloppy.Kernel.Transfer

/-! `do_scsi_command` of f_floppy.c: which command the bytes name, what it is checked
against, and its handler. A reply is modelled by its length; its bytes are left out. -/

namespace UsbFloppy.Kernel

def TEST_UNIT_READY : UInt8 := 0x00
def MODE_SELECT : UInt8 := 0x15
def MODE_SENSE : UInt8 := 0x1a
def READ_FORMAT_CAPACITIES : UInt8 := 0x23
def READ_CAPACITY : UInt8 := 0x25
def READ_10 : UInt8 := 0x28
def WRITE_10 : UInt8 := 0x2a
def VERIFY : UInt8 := 0x2f
def SYNCHRONIZE_CACHE : UInt8 := 0x35
def READ_TOC : UInt8 := 0x43
def READ_HEADER : UInt8 := 0x44
def MODE_SELECT_10 : UInt8 := 0x55
def MODE_SENSE_10 : UInt8 := 0x5a
def SERVICE_ACTION_IN_16 : UInt8 := 0x9e
def READ_12 : UInt8 := 0xa8
def WRITE_12 : UInt8 := 0xaa
def SAI_READ_CAPACITY_16 : UInt8 := 0x10

def SS_LOGICAL_UNIT_NOT_SUPPORTED : ℕ := 0x052500
def SS_RESET_OCCURRED : ℕ := 0x062900
def SS_SAVING_PARAMETERS_NOT_SUPPORTED : ℕ := 0x053900

/-- The cases of the switch. -/
inductive ScsiCommand
  | inquiry | modeSelect | modeSelect10 | modeSense | modeSense10 | allowMediumRemoval
  | read6 | read10 | read12 | read16 | readCapacity | readHeader | readToc
  | readFormatCapacities | requestSense | readCapacity16 | startStop | synchronizeCache
  | testUnitReady | verify | write6 | write10 | write12 | write16 | unknown
  deriving DecidableEq, Repr

def scsiCommands : List (UInt8 × ScsiCommand) :=
  [(INQUIRY, .inquiry), (MODE_SELECT, .modeSelect), (MODE_SELECT_10, .modeSelect10),
    (MODE_SENSE, .modeSense), (MODE_SENSE_10, .modeSense10),
    (ALLOW_MEDIUM_REMOVAL, .allowMediumRemoval), (READ_6, .read6), (READ_10, .read10),
    (READ_12, .read12), (READ_16, .read16), (READ_CAPACITY, .readCapacity),
    (READ_HEADER, .readHeader), (READ_TOC, .readToc),
    (READ_FORMAT_CAPACITIES, .readFormatCapacities), (REQUEST_SENSE, .requestSense),
    (SERVICE_ACTION_IN_16, .readCapacity16), (START_STOP, .startStop),
    (SYNCHRONIZE_CACHE, .synchronizeCache), (TEST_UNIT_READY, .testUnitReady),
    (VERIFY, .verify), (WRITE_6, .write6), (WRITE_10, .write10), (WRITE_12, .write12),
    (WRITE_16, .write16)]

/-- Two commands are known for a CD-ROM only, and of the service actions only one. -/
def scsiCommand (c : FsgCommon) : ScsiCommand :=
  let cdrom := c.curlun.any fun lun => lun.cdrom
  match (scsiCommands.lookup (c.cmnd 0)).getD .unknown with
  | .readHeader => if cdrom then .readHeader else .unknown
  | .readToc => if cdrom then .readToc else .unknown
  | .readCapacity16 =>
    if c.cmnd 1 &&& 0x1f = SAI_READ_CAPACITY_16 then .readCapacity16 else .unknown
  | cmd => cmd

/-- What a case sets `data_size_from_cmnd` to, and the arguments of its check. -/
structure CommandForm where
  dataSize : UInt32
  inBlocks : Bool
  cmndSize : ℕ
  dataDir : DataDirection
  mask : ℕ
  needsMedium : Bool

def FsgCommon.be (c : FsgCommon) (bytes start : ℕ) : UInt32 :=
  UInt32.ofNat (getUnalignedBe bytes c.cmnd start)

/-- The block count of the six-byte commands, where 0 stands for 256. -/
def FsgCommon.blocks6 (c : FsgCommon) : UInt32 := if c.cmnd 4 = 0 then 256 else c.be 1 4

def commandForm (c : FsgCommon) : ScsiCommand → CommandForm
  | .inquiry => ⟨c.be 1 4, false, 6, .toHost, 1 <<< 4, false⟩
  | .modeSelect => ⟨c.be 1 4, false, 6, .fromHost, 1 <<< 1 ||| 1 <<< 4, false⟩
  | .modeSelect10 => ⟨c.be 2 7, false, 10, .fromHost, 1 <<< 1 ||| 3 <<< 7, false⟩
  | .modeSense => ⟨c.be 1 4, false, 6, .toHost, 1 <<< 1 ||| 1 <<< 2 ||| 1 <<< 4, false⟩
  | .modeSense10 => ⟨c.be 2 7, false, 10, .toHost, 1 <<< 1 ||| 1 <<< 2 ||| 3 <<< 7, false⟩
  | .allowMediumRemoval => ⟨0, false, 6, .none, 1 <<< 4, false⟩
  | .read6 => ⟨c.blocks6, true, 6, .toHost, 7 <<< 1 ||| 1 <<< 4, true⟩
  | .read10 => ⟨c.be 2 7, true, 10, .toHost, 1 <<< 1 ||| 0xf <<< 2 ||| 3 <<< 7, true⟩
  | .read12 => ⟨c.be 4 6, true, 12, .toHost, 1 <<< 1 ||| 0xf <<< 2 ||| 0xf <<< 6, true⟩
  | .read16 => ⟨c.be 4 10, true, 16, .toHost, 1 <<< 1 ||| 0xff <<< 2 ||| 0xf <<< 10, true⟩
  | .readCapacity => ⟨8, false, 10, .toHost, 0xf <<< 2 ||| 1 <<< 8, true⟩
  | .readHeader => ⟨c.be 2 7, false, 10, .toHost, 3 <<< 7 ||| 0x1f <<< 1, true⟩
  | .readToc => ⟨c.be 2 7, false, 10, .toHost, 0xf <<< 6 ||| 3 <<< 1, true⟩
  | .readFormatCapacities => ⟨c.be 2 7, false, 10, .toHost, 3 <<< 7, true⟩
  | .requestSense => ⟨c.be 1 4, false, 6, .toHost, 1 <<< 4, false⟩
  | .readCapacity16 =>
    ⟨c.be 4 10, false, 16, .toHost, 1 <<< 1 ||| 0xff <<< 2 ||| 0xf <<< 10 ||| 1 <<< 14, true⟩
  | .startStop => ⟨0, false, 6, .none, 1 <<< 1 ||| 1 <<< 4, false⟩
  | .synchronizeCache => ⟨0, false, 10, .none, 0xf <<< 2 ||| 3 <<< 7, true⟩
  | .testUnitReady => ⟨0, false, 6, .none, 0, true⟩
  | .verify => ⟨0, false, 10, .none, 1 <<< 1 ||| 0xf <<< 2 ||| 3 <<< 7, true⟩
  | .write6 => ⟨c.blocks6, true, 6, .fromHost, 7 <<< 1 ||| 1 <<< 4, true⟩
  | .write10 => ⟨c.be 2 7, true, 10, .fromHost, 1 <<< 1 ||| 0xf <<< 2 ||| 3 <<< 7, true⟩
  | .write12 => ⟨c.be 4 6, true, 12, .fromHost, 1 <<< 1 ||| 0xf <<< 2 ||| 0xf <<< 6, true⟩
  | .write16 => ⟨c.be 4 10, true, 16, .fromHost, 1 <<< 1 ||| 0xff <<< 2 ||| 0xf <<< 10, true⟩
  | .unknown => ⟨0, false, c.cmndSize, .unknown, 0xffffffff, false⟩

/-- `data_size_from_cmnd` as the check finds it; `check_command_size_in_blocks` shifts it. -/
def claimedSize (c : FsgCommon) (form : CommandForm) : UInt32 :=
  match c.curlun with
  | some lun =>
    if form.inBlocks then form.dataSize <<< UInt32.ofNat lun.blkbits else form.dataSize
  | none => form.dataSize

def checkScsi (c : FsgCommon) : Checked :=
  let form := commandForm c (scsiCommand c)
  checkCommand { c with dataSizeFromCmnd := claimedSize c form } form.cmndSize form.dataDir
    form.mask form.needsMedium

/-! ### Handlers -/

/-- What a handler returns, the length of its reply or an error, and the state it leaves. -/
abbrev Handled := Except Errno ℕ × FsgCommon

def Checked.handled : Checked → Handled
  | .ok c => (.ok 0, c)
  | .error c => (.error .EINVAL, c)

/-- A handler that sets sense data and gives up. -/
def FsgCommon.refuse (c : FsgCommon) (sense : ℕ) : Handled := (.error .EINVAL, c.setSense sense)

/-- What happens around the backing file while a command is carried out. -/
structure CommandIo where
  now : UInt64
  /-- The throttle, the tracker and the buffers. -/
  transfer : Transfer
  reads : ℕ → ReadChunk
  writes : ℕ → WriteChunk
  /-- The bytes there are to verify, and whether a signal came after they were read. -/
  verifies : ℕ → Option ℕ × Bool
  /-- A signal came before the first of them is read. -/
  interrupted : Bool
  fsyncFails : Bool
  /-- A signal is pending when the handler is done. -/
  signal : Bool

def FsgCommon.begin (c : FsgCommon) (lun : FsgLun) (t : Transfer) : Transfer :=
  { t with
    cmnd := c.cmnd
    dataSizeFromCmnd := c.dataSizeFromCmnd
    residue := c.residue
    usbAmountLeft := c.usbAmountLeft
    shortPacketReceived := false
    curlun := lun
    filled := [] }

def FsgCommon.finish (c : FsgCommon) (r : Errno × Transfer) : Handled :=
  (.error r.1, { c with
    residue := r.2.residue, usbAmountLeft := r.2.usbAmountLeft, curlun := some r.2.curlun })

def doInquiry (c : FsgCommon) : Handled :=
  match c.curlun with
  | none => (.ok 36, { c with badLunOkay := true })
  | some _ => (.ok 36, c)

/-- Pending sense data is reported and a unit attention is preserved. -/
def doRequestSense (c : FsgCommon) : Handled :=
  match c.curlun with
  | none => (.ok 18, { c with badLunOkay := true })
  | some lun =>
    (.ok 18, { c with curlun := some { lun with
      senseData := SS_NO_SENSE, senseDataInfo := 0, infoValid := false } })

/-- The PMI and LBA fields, for both lengths of the command. -/
def doReadCapacity (c : FsgCommon) (lba : ℕ) (pmi : UInt8) (reply : ℕ) : Handled :=
  if pmi > 1 ∨ pmi = 0 ∧ lba ≠ 0 then c.refuse SS_INVALID_FIELD_IN_CDB else (.ok reply, c)

def doReadHeader (c : FsgCommon) (lun : FsgLun) : Handled :=
  if c.cmnd 1 &&& ~~~0x02 ≠ 0 then c.refuse SS_INVALID_FIELD_IN_CDB
  else if getUnalignedBe 4 c.cmnd 2 ≥ lun.numSectors then
    c.refuse SS_LOGICAL_BLOCK_ADDRESS_OUT_OF_RANGE
  else (.ok 8, c)

def doReadToc (c : FsgCommon) : Handled :=
  let format := c.cmnd 2 &&& 0xf
  if c.cmnd 1 &&& ~~~0x02 ≠ 0 ∨ c.cmnd 6 > 1 ∧ format ≠ 1 then c.refuse SS_INVALID_FIELD_IN_CDB
  else
    let format := if format = 0 then c.cmnd 9 >>> 6 &&& 0x3 else format
    if format = 0 ∨ format = 1 then (.ok (4 + 2 * 8), c)
    else if format = 2 then (.ok (4 + 3 * 11), c)
    else c.refuse SS_INVALID_FIELD_IN_CDB

def doModeSense (c : FsgCommon) : Handled :=
  let pageCode := c.cmnd 2 &&& 0x3f
  if c.cmnd 1 &&& ~~~0x08 ≠ 0 then c.refuse SS_INVALID_FIELD_IN_CDB
  else if c.cmnd 2 >>> 6 = 3 then c.refuse SS_SAVING_PARAMETERS_NOT_SUPPORTED
  else if pageCode = 0x08 ∨ pageCode = 0x3f then
    (.ok ((if c.cmnd 0 = MODE_SENSE then 4 else 8) + 12), c)
  else c.refuse SS_INVALID_FIELD_IN_CDB

/-- MODE SELECT is not supported. -/
def doModeSelect (c : FsgCommon) : Handled := c.refuse SS_INVALID_COMMAND

def doSynchronizeCache (c : FsgCommon) (io : CommandIo) : Handled :=
  (.ok 0, if io.fsyncFails then c.setSense SS_WRITE_ERROR else c)

/-- The loop of `do_verify`, from chunk `k` on. -/
def verifyLoop (chunks : ℕ → Option ℕ × Bool) (k : ℕ) (lun : FsgLun) (fileOffset amountLeft : ℕ) :
    Except Errno ℕ × FsgLun :=
  let fail (sense : ℕ) : Except Errno ℕ × FsgLun :=
    (.ok 0, { lun with
      senseData := sense, senseDataInfo := fileOffset >>> lun.blkbits, infoValid := true })
  if amountLeft = 0 then (.ok 0, lun)
  else
    let amount := min (min amountLeft FSG_BUFLEN) (lun.fileLength - fileOffset)
    if amount = 0 then fail SS_LOGICAL_BLOCK_ADDRESS_OUT_OF_RANGE
    else
      let nread := lun.settle amount (kernelIo (chunks k).1 amount)
      if (chunks k).2 then (.error .EINTR, lun)
      else if nread = 0 then fail SS_UNRECOVERED_READ_ERROR
      else verifyLoop chunks (k + 1) lun (fileOffset + nread) (amountLeft - nread)
termination_by amountLeft
decreasing_by exact Nat.sub_lt (by omega) (Nat.pos_of_ne_zero ‹¬ nread = 0›)

def doVerify (c : FsgCommon) (lun : FsgLun) (io : CommandIo) : Handled :=
  let lba := getUnalignedBe 4 c.cmnd 2
  let verificationLength := getUnalignedBe 2 c.cmnd 7
  if lba ≥ lun.numSectors then c.refuse SS_LOGICAL_BLOCK_ADDRESS_OUT_OF_RANGE
  else if c.cmnd 1 &&& ~~~0x10 ≠ 0 then c.refuse SS_INVALID_FIELD_IN_CDB
  else if verificationLength = 0 then (.error noDefaultReply, c)
  else if io.interrupted then (.error .EINTR, c)
  else
    let amountLeft := UInt32.ofNat verificationLength <<< UInt32.ofNat lun.blkbits
    let r := verifyLoop io.verifies 0 lun (lba <<< lun.blkbits) amountLeft.toNat
    (r.1, { c with curlun := some r.2 })

/-- The handler of a command that passed its check. -/
def handleScsi (io : CommandIo) (cmd : ScsiCommand) (c : FsgCommon) : Handled :=
  match cmd, c.curlun with
  | .inquiry, _ => doInquiry c
  | .requestSense, _ => doRequestSense c
  | .modeSelect, _ | .modeSelect10, _ => doModeSelect c
  | .allowMediumRemoval, _ => (doPreventAllow c).handled
  | .startStop, _ => (doStartStop c).handled
  | .unknown, _ => c.refuse SS_INVALID_COMMAND
  | .testUnitReady, _ => (.ok 0, c)
  | .synchronizeCache, _ => doSynchronizeCache c io
  | .readFormatCapacities, _ => (.ok 12, c)
  | .readCapacity, _ => doReadCapacity c (getUnalignedBe 4 c.cmnd 2) (c.cmnd 8) 8
  | .readCapacity16, _ => doReadCapacity c (getUnalignedBe 8 c.cmnd 2) (c.cmnd 14) 32
  | .readToc, _ => doReadToc c
  | .modeSense, _ | .modeSense10, _ => doModeSense c
  | .readHeader, some lun => doReadHeader c lun
  | .verify, some lun => doVerify c lun io
  | .read6, some lun | .read10, some lun | .read12, some lun | .read16, some lun =>
    c.finish (doRead (c.begin lun io.transfer) io.now io.reads)
  | .write6, some lun | .write10, some lun | .write12, some lun | .write16, some lun =>
    c.finish (doWrite (c.begin lun io.transfer) io.now io.writes)
  -- the check refuses every other command for a LUN that is not there
  | _, none => (.error .EINVAL, c)

/-- The length of the reply is cut to the data the command claims. -/
def setReply (c : FsgCommon) (reply : ℕ) : FsgCommon :=
  if c.dataDir = .toHost then
    { c with residue := c.residue - min (UInt32.ofNat reply) c.dataSizeFromCmnd }
  else c

/-- The switch of `do_scsi_command`. -/
def scsiSwitch (io : CommandIo) (c : FsgCommon) : Handled :=
  match checkScsi c with
  | .error c => (.error .EINVAL, c)
  | .ok c' => handleScsi io (scsiCommand c) c'

/-- `do_scsi_command`, after the wait for a buffer; `false` stands for `-EINTR`. -/
def doScsiCommand (io : CommandIo) (c : FsgCommon) : Bool × FsgCommon :=
  let (reply, c) := scsiSwitch io { c with phaseError := false }
  if io.signal then (false, c)
  else match reply with
    | .error .EINTR => (false, c)
    | .error .EINVAL => (true, setReply c 0)
    | .error _ => (true, c)
    | .ok reply => (true, setReply c reply)

/-! ### What a command does to the unit attention -/

/-- The unit attention is as it was, and no medium came in. -/
structure AttentionKept (lun lun' : FsgLun) : Prop where
  attention : lun'.unitAttentionData = lun.unitAttentionData
  filp : lun'.filp = lun.filp ∨ lun'.filp = none

theorem AttentionKept.refl (lun : FsgLun) : AttentionKept lun lun := ⟨rfl, Or.inl rfl⟩

theorem AttentionKept.trans {a b c : FsgLun} (h : AttentionKept a b) (h' : AttentionKept b c) :
    AttentionKept a c where
  attention := h'.attention.trans h.attention
  filp := by
    rcases h'.filp with heq | hnone
    · rw [heq]
      exact h.filp
    · exact Or.inr hnone

theorem AttentionKept.isOpen {lun lun' : FsgLun} (h : AttentionKept lun lun')
    (hopen : lun'.isOpen = true) : lun.isOpen = true := by
  rcases h.filp with heq | hnone
  · rwa [FsgLun.isOpen, ← heq]
  · rw [FsgLun.isOpen, hnone] at hopen
    cases hopen

/-- The same of the LUN a command is for. -/
def AttentionLeft (lun : FsgLun) (c : FsgCommon) : Prop :=
  ∃ lun', c.curlun = some lun' ∧ AttentionKept lun lun'

theorem AttentionLeft.of_eq {lun : FsgLun} {c : FsgCommon} (h : c.curlun = some lun) :
    AttentionLeft lun c := ⟨lun, h, .refl lun⟩

theorem AttentionLeft.setSense {lun : FsgLun} {c : FsgCommon} (h : AttentionLeft lun c)
    (sense : ℕ) : AttentionLeft lun (c.setSense sense) := by
  obtain ⟨lun', hc, hkept⟩ := h
  refine ⟨{ lun' with senseData := sense }, ?_, hkept.trans ⟨rfl, Or.inl rfl⟩⟩
  rw [FsgCommon.setSense, FsgCommon.mapLun, hc]
  rfl

theorem readLoop_kept (chunks : ℕ → ReadChunk) (k : ℕ) (t : Transfer)
    (fileOffset amountLeft : ℕ) :
    AttentionKept t.curlun (readLoop chunks k t fileOffset amountLeft).2.curlun := by
  fun_induction readLoop chunks k t fileOffset amountLeft
  all_goals try exact ⟨rfl, Or.inl rfl⟩
  rename_i ih
  exact ih

theorem writeLoop_kept (chunks : ℕ → WriteChunk) (t : Transfer) (w : WriteState) :
    AttentionKept t.curlun (writeLoop chunks t w).2.curlun := by
  fun_induction writeLoop chunks t w
  all_goals try exact ⟨rfl, Or.inl rfl⟩
  all_goals
    rename_i ih
    refine AttentionKept.trans ?_ ih
    exact ⟨rfl, Or.inl rfl⟩

theorem doRead_kept (t : Transfer) (now : UInt64) (chunks : ℕ → ReadChunk) :
    AttentionKept t.curlun (doRead t now chunks).2.curlun := by
  unfold doRead
  dsimp only
  split_ifs
  · exact ⟨rfl, Or.inl rfl⟩
  · exact ⟨rfl, Or.inl rfl⟩
  · exact ⟨rfl, Or.inl rfl⟩
  · exact readLoop_kept chunks 0 (t.hooks _ false now) _ _

theorem doWrite_kept (t : Transfer) (now : UInt64) (chunks : ℕ → WriteChunk) :
    AttentionKept t.curlun (doWrite t now chunks).2.curlun := by
  unfold doWrite
  dsimp only
  split_ifs
  · exact ⟨rfl, Or.inl rfl⟩
  · exact ⟨rfl, Or.inl rfl⟩
  · exact ⟨rfl, Or.inl rfl⟩
  · refine AttentionKept.trans ?_ (writeLoop_kept chunks _ _)
    exact ⟨rfl, Or.inl rfl⟩

theorem verifyLoop_kept (chunks : ℕ → Option ℕ × Bool) (k : ℕ) (lun : FsgLun)
    (fileOffset amountLeft : ℕ) :
    AttentionKept lun (verifyLoop chunks k lun fileOffset amountLeft).2 := by
  fun_induction verifyLoop chunks k lun fileOffset amountLeft
  all_goals try exact ⟨rfl, Or.inl rfl⟩
  rename_i ih
  exact ih

section Handlers
variable {lun : FsgLun} {c : FsgCommon}

theorem doInquiry_left (h : AttentionLeft lun c) : AttentionLeft lun (doInquiry c).2 := by
  unfold doInquiry
  split <;> exact h

theorem doRequestSense_left (h : AttentionLeft lun c) : AttentionLeft lun (doRequestSense c).2 := by
  obtain ⟨lun', hc, hkept⟩ := h
  simp only [doRequestSense, hc]
  exact ⟨_, rfl, hkept.trans ⟨rfl, Or.inl rfl⟩⟩

theorem doReadCapacity_left (h : AttentionLeft lun c) (lba : ℕ) (pmi : UInt8) (reply : ℕ) :
    AttentionLeft lun (doReadCapacity c lba pmi reply).2 := by
  unfold doReadCapacity
  split_ifs
  · exact h.setSense _
  · exact h

theorem doReadHeader_left (h : AttentionLeft lun c) (lun' : FsgLun) :
    AttentionLeft lun (doReadHeader c lun').2 := by
  unfold doReadHeader
  split_ifs
  · exact h.setSense _
  · exact h.setSense _
  · exact h

theorem doReadToc_left (h : AttentionLeft lun c) : AttentionLeft lun (doReadToc c).2 := by
  unfold doReadToc
  dsimp only
  split_ifs <;> first | exact h | exact h.setSense _

theorem doModeSense_left (h : AttentionLeft lun c) : AttentionLeft lun (doModeSense c).2 := by
  unfold doModeSense
  dsimp only
  split_ifs <;> first | exact h | exact h.setSense _

theorem doSynchronizeCache_left (h : AttentionLeft lun c) (io : CommandIo) :
    AttentionLeft lun (doSynchronizeCache c io).2 := by
  unfold doSynchronizeCache
  dsimp only
  split_ifs
  · exact h.setSense _
  · exact h

theorem doVerify_left (h : AttentionLeft lun c) {lun' : FsgLun} (hc : c.curlun = some lun')
    (io : CommandIo) : AttentionLeft lun (doVerify c lun' io).2 := by
  obtain ⟨lun'', hc', hkept⟩ := h
  obtain rfl : lun' = lun'' := Option.some.inj (hc.symm.trans hc')
  have h : AttentionLeft lun c := ⟨lun', hc, hkept⟩
  unfold doVerify
  dsimp only
  split_ifs
  · exact h.setSense _
  · exact h.setSense _
  · exact h
  · exact h
  · exact ⟨_, rfl, hkept.trans (verifyLoop_kept _ _ _ _ _)⟩

theorem finish_left {r : Errno × Transfer} (h : AttentionKept lun r.2.curlun) :
    AttentionLeft lun (c.finish r).2 := ⟨_, rfl, h⟩

theorem doPreventAllow_left (h : AttentionLeft lun c) :
    AttentionLeft lun (doPreventAllow c).handled.2 := by
  obtain ⟨lun', hc, hkept⟩ := h
  have h : AttentionLeft lun c := ⟨lun', hc, hkept⟩
  simp only [doPreventAllow, hc]
  split_ifs
  · exact h.setSense _
  · exact h.setSense _
  · refine ⟨_, congrArg (Option.map _) hc, hkept.trans ⟨rfl, Or.inl rfl⟩⟩

theorem doStartStop_left (h : AttentionLeft lun c) :
    AttentionLeft lun (doStartStop c).handled.2 := by
  obtain ⟨lun', hc, hkept⟩ := h
  have h : AttentionLeft lun c := ⟨lun', hc, hkept⟩
  simp only [doStartStop, hc]
  split_ifs
  · exact h.setSense _
  · exact h.setSense _
  · exact h.setSense _
  · exact h
  · exact h.setSense _
  · exact h
  · exact ⟨_, congrArg (Option.map _) hc, hkept.trans ⟨rfl, Or.inr rfl⟩⟩

theorem handleScsi_left (h : AttentionLeft lun c) (io : CommandIo) (cmd : ScsiCommand) :
    AttentionLeft lun (handleScsi io cmd c).2 := by
  obtain ⟨lun', hc, hkept⟩ := h
  have h : AttentionLeft lun c := ⟨lun', hc, hkept⟩
  cases cmd <;> simp only [handleScsi, hc]
  case inquiry => exact doInquiry_left h
  case requestSense => exact doRequestSense_left h
  case allowMediumRemoval => exact doPreventAllow_left h
  case startStop => exact doStartStop_left h
  case synchronizeCache => exact doSynchronizeCache_left h io
  case readCapacity | readCapacity16 => exact doReadCapacity_left h _ _ _
  case readToc => exact doReadToc_left h
  case readHeader => exact doReadHeader_left h lun'
  case modeSense | modeSense10 => exact doModeSense_left h
  case verify => exact doVerify_left h hc io
  case testUnitReady | readFormatCapacities => exact h
  case modeSelect | modeSelect10 | unknown => exact h.setSense _
  case read6 | read10 | read12 | read16 =>
    exact finish_left (hkept.trans (doRead_kept (c.begin lun' io.transfer) io.now io.reads))
  case write6 | write10 | write12 | write16 =>
    exact finish_left (hkept.trans (doWrite_kept (c.begin lun' io.transfer) io.now io.writes))

end Handlers

/-! ### Checks and the unit attention -/

/-- All commands but two fail when the LUN has something to tell. -/
def AttentionPending (lun : FsgLun) (c : FsgCommon) : Prop :=
  lun.unitAttentionData ≠ SS_NO_SENSE ∧ c.cmnd 0 ≠ INQUIRY ∧ c.cmnd 0 ≠ REQUEST_SENSE

instance (lun : FsgLun) (c : FsgCommon) : Decidable (AttentionPending lun c) :=
  inferInstanceAs (Decidable (_ ∧ _))

/-- The unit attention becomes the sense data of the command that fails. -/
def FsgLun.announce (lun : FsgLun) : FsgLun :=
  { lun with
    senseData := lun.unitAttentionData
    senseDataInfo := 0
    infoValid := false
    unitAttentionData := SS_NO_SENSE }

/-- The checks before the LUN is looked at. -/
def checkForm (c : FsgCommon) (cmndSize : ℕ) (dataDir : DataDirection) : Checked :=
  checkDirection (if c.dataSizeFromCmnd = 0 then .none else dataDir) (checkDataSize c) >>=
    checkCommandLength cmndSize

/-- The checks from the LUN on. -/
def checkOnLun (mask : ℕ) (needsMedium : Bool) (c : FsgCommon) : Checked :=
  checkLun c >>= fun c => checkUnitAttention c >>= fun c =>
    checkMask mask c >>= checkMedium needsMedium

theorem checkCommand_eq (c : FsgCommon) (cmndSize : ℕ) (dataDir : DataDirection) (mask : ℕ)
    (needsMedium : Bool) : checkCommand c cmndSize dataDir mask needsMedium =
      checkForm c cmndSize dataDir >>= checkOnLun mask needsMedium := by
  simp only [checkForm, bind_assoc]
  rfl

@[simp] theorem checkDataSize_curlun (c : FsgCommon) : (checkDataSize c).curlun = c.curlun := by
  unfold checkDataSize
  dsimp only
  split_ifs <;> rfl

@[simp] theorem checkDataSize_cmnd (c : FsgCommon) : (checkDataSize c).cmnd = c.cmnd := by
  unfold checkDataSize
  dsimp only
  split_ifs <;> rfl

theorem checkDataSize_of_less {c : FsgCommon} (h : c.dataSize < c.dataSizeFromCmnd) :
    checkDataSize c = { c with
      dataSizeFromCmnd := c.dataSize
      phaseError := true
      residue := c.dataSize
      usbAmountLeft := c.dataSize } := by
  unfold checkDataSize
  rw [if_pos h]

theorem checkDataSize_phaseError {c : FsgCommon} (h : c.phaseError = false) :
    (checkDataSize c).phaseError = decide (c.dataSize < c.dataSizeFromCmnd) := by
  unfold checkDataSize
  dsimp only
  split_ifs with hcut
  · exact (decide_eq_true hcut).symm
  · exact h.trans (decide_eq_false hcut).symm

/-- A command whose data the host cuts short, but that is well formed otherwise. -/
structure CutShort (c : FsgCommon) (cmndSize : ℕ) (dataDir : DataDirection) : Prop where
  less : c.dataSize < c.dataSizeFromCmnd
  direction : c.dataDir = dataDir ∨ c.dataSize = 0
  length : cmndSize ≤ c.cmndSize

instance (c : FsgCommon) (cmndSize : ℕ) (dataDir : DataDirection) :
    Decidable (CutShort c cmndSize dataDir) :=
  decidable_of_iff (c.dataSize < c.dataSizeFromCmnd ∧ (c.dataDir = dataDir ∨ c.dataSize = 0) ∧
    cmndSize ≤ c.cmndSize) ⟨fun h => ⟨h.1, h.2.1, h.2.2⟩, fun h => ⟨h.less, h.direction, h.length⟩⟩

theorem checkForm_cases (c : FsgCommon) (cmndSize : ℕ) (dataDir : DataDirection) :
    (∃ c', checkForm c cmndSize dataDir = .error c' ∧ c'.curlun = c.curlun ∧
      c'.phaseError = true) ∨
    checkForm c cmndSize dataDir = .ok (checkDataSize c) ∧
      (c.dataSize < c.dataSizeFromCmnd → CutShort c cmndSize dataDir) := by
  unfold checkForm
  generalize hdir : (if c.dataSizeFromCmnd = 0 then DataDirection.none else dataDir) = dir
  unfold checkDirection
  split_ifs with hdirection
  · exact Or.inl ⟨_, rfl, checkDataSize_curlun c, rfl⟩
  · change (∃ c', checkCommandLength cmndSize (checkDataSize c) = .error c' ∧ _ ∧ _) ∨
      checkCommandLength cmndSize (checkDataSize c) = _ ∧ _
    unfold checkCommandLength
    split_ifs with hlength
    · exact Or.inl ⟨_, rfl, checkDataSize_curlun c, rfl⟩
    · refine Or.inr ⟨rfl, fun hless => ⟨hless, ?_, ?_⟩⟩
      · rw [checkDataSize_of_less hless] at hdirection
        have hsome : c.dataSizeFromCmnd ≠ 0 := by
          intro hzero
          rw [hzero] at hless
          exact UInt32.not_lt_zero hless
        rw [if_neg hsome] at hdir
        rw [hdir]
        by_contra hno
        rw [not_or] at hno
        exact hdirection ⟨hno.1, UInt32.pos_iff_ne_zero.mpr hno.2⟩
      · rw [checkDataSize_of_less hless] at hlength
        exact not_lt.mp hlength

theorem CutShort.checkForm_eq {c : FsgCommon} {cmndSize : ℕ} {dataDir : DataDirection}
    (h : CutShort c cmndSize dataDir) : checkForm c cmndSize dataDir = .ok (checkDataSize c) := by
  have hsome : c.dataSizeFromCmnd ≠ 0 := fun hzero => UInt32.not_lt_zero (hzero ▸ h.less)
  have hdirection : checkDirection dataDir (checkDataSize c) = .ok (checkDataSize c) := by
    rw [checkDataSize_of_less h.less]
    refine if_neg ?_
    rintro ⟨hne, hpos⟩
    rcases h.direction with heq | hzero
    · exact hne heq
    · exact absurd hzero (UInt32.pos_iff_ne_zero.mp hpos)
  have hlength : checkCommandLength cmndSize (checkDataSize c) = .ok (checkDataSize c) := by
    rw [checkDataSize_of_less h.less]
    exact if_neg (not_lt.mpr h.length)
  rw [checkForm, if_neg hsome, hdirection]
  exact hlength

theorem checkOnLun_pending {lun : FsgLun} {c : FsgCommon} (hc : c.curlun = some lun)
    (hpending : AttentionPending lun c) (mask : ℕ) (needsMedium : Bool) :
    checkOnLun mask needsMedium c = .error { c with curlun := some lun.announce } := by
  obtain ⟨hsense, hinquiry, hrequest⟩ := hpending
  have hlun : checkLun c = .ok { c with curlun := some { lun with
      senseData := SS_NO_SENSE, senseDataInfo := 0, infoValid := false } } := by
    simp only [checkLun, hc, hrequest, ne_eq, not_false_eq_true, if_true]
  rw [checkOnLun, hlun]
  change checkUnitAttention _ >>= _ = _
  simp only [checkUnitAttention, ne_eq, hsense, not_false_eq_true, hinquiry, hrequest, and_self,
    if_true]
  rfl

theorem AttentionLeft.bind {lun : FsgLun} {x : Checked} {g : FsgCommon → Checked}
    (hx : AttentionLeft lun x.state)
    (hg : ∀ c, x = .ok c → AttentionLeft lun c → AttentionLeft lun (g c).state) :
    AttentionLeft lun (Checked.state (x >>= g)) := by
  cases x with
  | error c => exact hx
  | ok c => exact hg c rfl hx

theorem checkLun_left {lun : FsgLun} {c : FsgCommon} (hc : c.curlun = some lun) :
    AttentionLeft lun (checkLun c).state := by
  simp only [checkLun, hc]
  split_ifs
  · exact ⟨_, rfl, rfl, Or.inl rfl⟩
  · exact .of_eq hc

theorem checkMask_left {lun : FsgLun} {c : FsgCommon} (h : AttentionLeft lun c) (mask : ℕ) :
    AttentionLeft lun (checkMask mask c).state := by
  unfold checkMask
  dsimp only
  split_ifs
  · exact h
  · exact AttentionLeft.setSense h SS_INVALID_FIELD_IN_CDB

theorem checkMedium_left {lun : FsgLun} {c : FsgCommon} (h : AttentionLeft lun c)
    (needsMedium : Bool) : AttentionLeft lun (checkMedium needsMedium c).state := by
  unfold checkMedium
  split
  · split_ifs
    · exact h.setSense SS_MEDIUM_NOT_PRESENT
    · exact h
  · exact h

theorem checkLun_cmnd {c c' : FsgCommon} (h : checkLun c = .ok c') : c'.cmnd = c.cmnd := by
  unfold checkLun at h
  split at h
  · split_ifs at h
    all_goals
      obtain rfl := Except.ok.inj h
      rfl
  · dsimp only at h
    split_ifs at h
    obtain rfl := Except.ok.inj h
    rfl

theorem checkOnLun_left {lun : FsgLun} {c : FsgCommon} (hc : c.curlun = some lun)
    (hclear : ¬ AttentionPending lun c) (mask : ℕ) (needsMedium : Bool) :
    AttentionLeft lun (checkOnLun mask needsMedium c).state := by
  refine (checkLun_left hc).bind fun c₁ hlun h₁ => ?_
  obtain ⟨lun₁, hc₁, hkept⟩ := h₁
  have hpass : checkUnitAttention c₁ = .ok c₁ := by
    simp only [checkUnitAttention, hc₁]
    refine if_neg fun hp => hclear ?_
    rw [hkept.attention, checkLun_cmnd hlun] at hp
    exact hp
  rw [hpass]
  refine (checkMask_left ⟨lun₁, hc₁, hkept⟩ mask).bind fun c₂ _ h₂ => ?_
  exact checkMedium_left h₂ needsMedium

theorem checkOnLun_clear {lun : FsgLun} {c : FsgCommon} (hc : c.curlun = some lun)
    (hcmd : c.cmnd 0 ≠ REQUEST_SENSE) (hnone : lun.unitAttentionData = SS_NO_SENSE)
    (hopen : lun.isOpen = true) {mask : ℕ} (needsMedium : Bool)
    (hmask : ∀ i < c.cmndSize,
      i = 0 ∨ (if i = 1 then c.cmnd 1 &&& 0x1f else c.cmnd i) = 0 ∨ mask.testBit i = true) :
    ∃ c', checkOnLun mask needsMedium c = .ok c' ∧ c'.phaseError = c.phaseError ∧
      c'.curlun = some { lun with
        senseData := SS_NO_SENSE, senseDataInfo := 0, infoValid := false } := by
  have hlun : checkLun c = .ok { c with curlun := some { lun with
      senseData := SS_NO_SENSE, senseDataInfo := 0, infoValid := false } } := by
    simp only [checkLun, hc, hcmd, ne_eq, not_false_eq_true, if_true]
  have hall : ((List.range c.cmndSize).all fun i => decide (i = 0 ∨
      (if i = 1 then c.cmnd 1 &&& 0x1f else c.cmnd i) = 0 ∨ mask.testBit i = true)) = true := by
    rw [List.all_eq_true]
    intro i hi
    exact decide_eq_true (hmask i (List.mem_range.mp hi))
  rw [checkOnLun, hlun]
  refine ⟨{ c with
    cmnd := fun i => if i = 1 then c.cmnd 1 &&& 0x1f else c.cmnd i
    curlun := some { lun with
      senseData := SS_NO_SENSE, senseDataInfo := 0, infoValid := false } }, ?_, rfl, rfl⟩
  change (checkUnitAttention _ >>= _) = _
  simp only [checkUnitAttention, hnone, ne_eq, not_true_eq_false, false_and, if_false]
  change (checkMask _ _ >>= _) = _
  simp only [checkMask, hall, if_true, bind, Except.bind, checkMedium]
  refine if_neg ?_
  rintro ⟨hclosed, -⟩
  exact Bool.false_ne_true (hclosed.symm.trans hopen)

/-! ### The whole command -/

/-- The state in which the check of a command starts. -/
def FsgCommon.claim (c : FsgCommon) : FsgCommon :=
  { c with
    phaseError := false
    dataSizeFromCmnd := claimedSize c (commandForm c (scsiCommand c)) }

/-- The command as it is checked is cut short by the host. -/
def FsgCommon.Short (c : FsgCommon) : Prop :=
  let form := commandForm c (scsiCommand c)
  CutShort c.claim form.cmndSize form.dataDir

instance (c : FsgCommon) : Decidable c.Short := inferInstanceAs (Decidable (CutShort _ _ _))

@[simp] theorem setReply_curlun (c : FsgCommon) (reply : ℕ) :
    (setReply c reply).curlun = c.curlun := by
  unfold setReply
  split_ifs <;> rfl

@[simp] theorem setReply_phaseError (c : FsgCommon) (reply : ℕ) :
    (setReply c reply).phaseError = c.phaseError := by
  unfold setReply
  split_ifs <;> rfl

theorem checkScsi_eq (c : FsgCommon) :
    checkScsi { c with phaseError := false } =
      checkForm c.claim (commandForm c (scsiCommand c)).cmndSize
          (commandForm c (scsiCommand c)).dataDir >>=
        checkOnLun (commandForm c (scsiCommand c)).mask
          (commandForm c (scsiCommand c)).needsMedium :=
  checkCommand_eq _ _ _ _ _

theorem claim_curlun (c : FsgCommon) : (checkDataSize c.claim).curlun = c.curlun :=
  checkDataSize_curlun c.claim

theorem attentionPending_claim {lun : FsgLun} {c : FsgCommon} :
    AttentionPending lun (checkDataSize c.claim) ↔ AttentionPending lun c := by
  rw [AttentionPending, checkDataSize_cmnd]
  exact Iff.rfl

/-- A pending unit attention stops the command: it is kept when the command is malformed
and otherwise becomes its sense data. -/
theorem checkScsi_pending {lun : FsgLun} {c : FsgCommon} (hc : c.curlun = some lun)
    (hpending : AttentionPending lun c) :
    ∃ c', checkScsi { c with phaseError := false } = .error c' ∧
      (c'.curlun = some lun ∧ c'.phaseError = true ∨
        c'.curlun = some lun.announce ∧ (c'.phaseError = true → c.Short)) := by
  rw [checkScsi_eq]
  rcases checkForm_cases c.claim (commandForm c (scsiCommand c)).cmndSize
    (commandForm c (scsiCommand c)).dataDir with ⟨c', herr, hlun, hphase⟩ | ⟨hok, hshort⟩
  · rw [herr]
    exact ⟨c', rfl, Or.inl ⟨hlun.trans hc, hphase⟩⟩
  · rw [hok]
    change ∃ c', checkOnLun _ _ (checkDataSize c.claim) = _ ∧ _
    rw [checkOnLun_pending ((claim_curlun c).trans hc) (attentionPending_claim.mpr hpending)]
    refine ⟨_, rfl, Or.inr ⟨rfl, fun hphase => hshort ?_⟩⟩
    change (checkDataSize c.claim).phaseError = true at hphase
    rw [checkDataSize_phaseError rfl] at hphase
    exact of_decide_eq_true hphase

theorem checkScsi_short {lun : FsgLun} {c : FsgCommon} (hc : c.curlun = some lun)
    (hpending : AttentionPending lun c) (hshort : c.Short) :
    ∃ c', checkScsi { c with phaseError := false } = .error c' ∧
      c'.curlun = some lun.announce ∧ c'.phaseError = true := by
  rw [checkScsi_eq, hshort.checkForm_eq]
  change ∃ c', checkOnLun _ _ (checkDataSize c.claim) = _ ∧ _
  rw [checkOnLun_pending ((claim_curlun c).trans hc) (attentionPending_claim.mpr hpending)]
  refine ⟨_, rfl, rfl, ?_⟩
  exact (checkDataSize_phaseError rfl).trans (decide_eq_true hshort.less)

theorem checkScsi_left {lun : FsgLun} {c : FsgCommon} (hc : c.curlun = some lun)
    (hclear : ¬ AttentionPending lun c) :
    AttentionLeft lun (checkScsi { c with phaseError := false }).state := by
  rw [checkScsi_eq]
  rcases checkForm_cases c.claim (commandForm c (scsiCommand c)).cmndSize
    (commandForm c (scsiCommand c)).dataDir with ⟨c', herr, hlun, -⟩ | ⟨hok, -⟩
  · rw [herr]
    exact .of_eq (hlun.trans hc)
  · rw [hok]
    have hclear' : ¬ AttentionPending lun (checkDataSize c.claim) :=
      fun hpending => hclear (attentionPending_claim.mp hpending)
    exact checkOnLun_left ((claim_curlun c).trans hc) hclear' _ _

theorem doScsiCommand_snd (io : CommandIo) (c : FsgCommon) :
    (doScsiCommand io c).2.curlun = (scsiSwitch io { c with phaseError := false }).2.curlun ∧
      (doScsiCommand io c).2.phaseError =
        (scsiSwitch io { c with phaseError := false }).2.phaseError := by
  unfold doScsiCommand
  dsimp only
  split_ifs
  · exact ⟨rfl, rfl⟩
  · split <;> simp only [setReply_curlun, setReply_phaseError, and_self]

theorem doScsiCommand_pending {lun : FsgLun} {c : FsgCommon} (hc : c.curlun = some lun)
    (hpending : AttentionPending lun c) (io : CommandIo) :
    (doScsiCommand io c).2.curlun = some lun ∧ (doScsiCommand io c).2.phaseError = true ∨
      (doScsiCommand io c).2.curlun = some lun.announce ∧
        ((doScsiCommand io c).2.phaseError = true → c.Short) := by
  obtain ⟨c', herr, hcases⟩ := checkScsi_pending hc hpending
  rw [(doScsiCommand_snd io c).1, (doScsiCommand_snd io c).2, scsiSwitch, herr]
  exact hcases

theorem doScsiCommand_left {lun : FsgLun} {c : FsgCommon} (hc : c.curlun = some lun)
    (hclear : ¬ AttentionPending lun c) (io : CommandIo) :
    AttentionLeft lun (doScsiCommand io c).2 := by
  have hleft := checkScsi_left hc hclear
  rw [AttentionLeft, (doScsiCommand_snd io c).1, scsiSwitch]
  cases hcheck : checkScsi { c with phaseError := false } with
  | error c' =>
    rw [hcheck] at hleft
    exact hleft
  | ok c' =>
    rw [hcheck] at hleft
    exact handleScsi_left hleft io _

end UsbFloppy.Kernel
