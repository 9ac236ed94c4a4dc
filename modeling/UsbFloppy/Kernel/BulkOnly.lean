import UsbFloppy.Kernel.ReadBack

/-! The data phase of a command: what is queued for the host before the status, and what is
asked of it. The residue of the status accounts for all the data the host announced. -/

namespace UsbFloppy.Kernel
open Files Transition

/-- How `finish_reply` ends: the status follows, or the exception that sends it, or neither,
after a signal or without an interface. -/
inductive Finish
  | status
  | abortBulkOut
  | stopped
  deriving DecidableEq, Repr

/-- The data of the host that were not asked for yet, and the lengths of the buffers that
were and did not come back. -/
structure BulkOut where
  usbAmountLeft : ℕ
  inFlight : List ℕ

/-- `throw_away_data`, where the loop of the command has asked for `requested` buffers and
taken `drained` of them back. -/
def throwAwayData (numBuffers : {n : ℕ // 0 < n}) (chunks : ℕ → WriteChunk)
    (requested drained : ℕ) (out : BulkOut) : Finish × BulkOut :=
  if out.inFlight = [] ∧ out.usbAmountLeft = 0 then (.status, out)
  else if out.inFlight.length < numBuffers.1 ∧ 0 < out.usbAmountLeft then
    let amount := min out.usbAmountLeft FSG_BUFLEN
    if (chunks requested).started then
      throwAwayData numBuffers chunks (requested + 1) drained
        ⟨out.usbAmountLeft - amount, out.inFlight ++ [amount]⟩
    else (.stopped, out)
  else
    match _hbuffers : out.inFlight with
    -- there is a buffer, so that one is under way when none can be asked for
    | [] => (.stopped, out)
    | intended :: rest =>
      let chunk := chunks drained
      if chunk.interrupted then (.stopped, out)
      else if chunk.actual < intended ∨ chunk.status ≠ 0 then
        (.abortBulkOut, { out with inFlight := rest })
      else throwAwayData numBuffers chunks requested (drained + 1) { out with inFlight := rest }
termination_by 2 * out.usbAmountLeft + out.inFlight.length
decreasing_by
  · rename_i hfill _
    have hbuf : 0 < FSG_BUFLEN := by decide
    simp only [List.length_append, List.length_singleton]
    omega
  · simp only [_hbuffers, List.length_cons]
    omega

/-- What happens while a reply is finished: whether the interface is still there, whether the
endpoints may be halted, whether a signal comes while one is halted, whether the last buffer
can be queued, and what becomes of the buffers that are thrown away. -/
structure FinishIo where
  configured : Bool
  canStall : Bool
  haltInterrupted : Bool
  started : Bool
  throws : ℕ → WriteChunk

/-- What `do_scsi_command` leaves: its state, the length of the buffer prepared last, and the
buffers asked of the host. -/
structure Prepared where
  common : FsgCommon
  length : ℕ
  shortPacketReceived : Bool
  requested : ℕ
  drained : ℕ
  out : BulkOut

/-- `halt_bulk_in_endpoint`. -/
def FinishIo.halt (fin : FinishIo) : Finish := if fin.haltInterrupted then .stopped else .status

/-- `finish_reply`, with the lengths of the buffers it queues for the host. -/
def finishReply (numBuffers : {n : ℕ // 0 < n}) (fin : FinishIo) (s : Prepared) :
    Finish × List ℕ × BulkOut :=
  match s.common.dataDir with
  | .none => (.status, [], s.out)
  | .unknown =>
    if fin.canStall = false then (.status, [], s.out)
    else if fin.configured then (fin.halt, [], s.out)
    else (.stopped, [], s.out)
  | .toHost =>
    if s.common.dataSize = 0 then (.status, [], s.out)
    else if fin.configured = false then (.stopped, [], s.out)
    else if s.common.residue = 0 then
      if fin.started then (.status, [s.length], s.out) else (.stopped, [], s.out)
    else
      (if fin.canStall then fin.halt else if fin.started then .status else .stopped,
        if fin.started then [s.length] else [], s.out)
  | .fromHost =>
    if s.common.residue = 0 then (.status, [], s.out)
    else if s.shortPacketReceived then (.abortBulkOut, [], s.out)
    else
      let r := throwAwayData numBuffers fin.throws s.requested s.drained s.out
      (r.1, [], r.2)

/-- The lengths of the buffers a READ fills. -/
def filledBuffers (io : CommandIo) (c : FsgCommon) : List ℕ :=
  match startTransfer io c with
  | some (false, t) => (doRead t io.now io.reads).2.filled
  | _ => []

/-- What a WRITE asked of the host, whatever the bytes are. -/
def writtenBuffers (io : CommandIo) (c : FsgCommon) : WriteState :=
  match startTransfer io c with
  | some (true, t) => (doWriteBytes t (Contents.zeros 0) io.now io.writes fun _ => 0).2.2
  | _ => writeStart 0 0

/-- The buffer that `finish_reply` is going to queue: the single reply buffer, or the last one
a READ filled. Where there is neither, its length is `stale`, from an earlier command. -/
def preparedLength (io : CommandIo) (c : FsgCommon) (stale : ℕ) : ℕ :=
  let r := scsiSwitch io { c with phaseError := false }
  match r.1 with
  | .ok reply => (min (UInt32.ofNat reply) r.2.dataSizeFromCmnd).toNat
  | .error .EINVAL => 0
  | .error _ => (filledBuffers io c).getLastD stale

def prepare (io : CommandIo) (c c' : FsgCommon) (stale : ℕ) : Prepared where
  common := c'
  length := preparedLength io c stale
  shortPacketReceived :=
    match startTransfer io c with
    | some (true, t) => (doWrite t io.now io.writes).2.shortPacketReceived
    | _ => false
  requested := (writtenBuffers io c).requested
  drained := (writtenBuffers io c).drained
  out := ⟨c'.usbAmountLeft.toNat, (writtenBuffers io c).inFlight⟩

/-- A command up to its status: how it ends, the lengths of all buffers queued for the host,
and what was not asked of it or did not come back. -/
structure DataPhase where
  finish : Finish
  sent : List ℕ
  out : BulkOut
  common : FsgCommon

/-- `do_scsi_command` and `finish_reply`. -/
def dataPhase (io : CommandIo) (fin : FinishIo) (stale : ℕ) (c : FsgCommon) : Option DataPhase :=
  match doScsiCommand io c with
  | (false, _) => none
  | (true, c') =>
    let r := finishReply io.transfer.numBuffers fin (prepare io c c' stale)
    some ⟨r.1, (filledBuffers io c).dropLast ++ r.2.1, r.2.2, c'⟩

/-! ### Commands that move no data -/

theorem mapLun_sizes (c : FsgCommon) (f : FsgLun → FsgLun) : (c.mapLun f).sizes = c.sizes := by
  simp only [FsgCommon.sizes, FsgCommon.mapLun, Option.isSome_map]

theorem refuse_sizes (c : FsgCommon) (sense : ℕ) : (c.refuse sense).2.sizes = c.sizes :=
  setSense_sizes c sense

theorem doPreventAllow_sizes (c : FsgCommon) : (doPreventAllow c).handled.2.sizes = c.sizes := by
  unfold doPreventAllow
  split
  · rfl
  · split_ifs
    · exact setSense_sizes c _
    · exact setSense_sizes c _
    · exact mapLun_sizes c _

theorem doStartStop_sizes (c : FsgCommon) : (doStartStop c).handled.2.sizes = c.sizes := by
  unfold doStartStop
  split
  · rfl
  · split_ifs <;> first
      | rfl
      | exact setSense_sizes c _
      | exact mapLun_sizes c _

theorem doVerify_sizes {c : FsgCommon} {lun : FsgLun} (hc : c.curlun = some lun) (io : CommandIo) :
    (doVerify c lun io).2.sizes = c.sizes := by
  unfold doVerify
  dsimp only
  split_ifs
  · exact refuse_sizes c _
  · exact refuse_sizes c _
  · rfl
  · rfl
  · simp only [FsgCommon.sizes, hc, Option.isSome_some]

theorem doInquiry_sizes (c : FsgCommon) : (doInquiry c).2.sizes = c.sizes := by
  unfold doInquiry
  split <;> rfl

theorem doRequestSense_sizes (c : FsgCommon) : (doRequestSense c).2.sizes = c.sizes := by
  unfold doRequestSense
  split
  · rfl
  · rename_i hc
    simp only [FsgCommon.sizes, hc, Option.isSome_some]

theorem doSynchronizeCache_sizes (c : FsgCommon) (io : CommandIo) :
    (doSynchronizeCache c io).2.sizes = c.sizes := by
  unfold doSynchronizeCache
  dsimp only
  split_ifs
  · exact setSense_sizes c _
  · rfl

/-- Only a READ and a WRITE touch what is left of the data. -/
theorem handleScsi_sizes (io : CommandIo) {cmd : ScsiCommand} {c : FsgCommon}
    (h : c.curlun = none ∨ cmd ∉ [.read6, .read10, .read12, .read16, .write6, .write10, .write12,
      .write16]) : (handleScsi io cmd c).2.sizes = c.sizes := by
  cases hc : c.curlun with
  | none =>
    cases cmd <;> simp only [handleScsi, hc]
    case inquiry => exact doInquiry_sizes c
    case requestSense => exact doRequestSense_sizes c
    case allowMediumRemoval => exact doPreventAllow_sizes c
    case startStop => exact doStartStop_sizes c
    case synchronizeCache => exact doSynchronizeCache_sizes c io
    case modeSelect | modeSelect10 | unknown => exact refuse_sizes c _
    case readCapacity | readCapacity16 | readToc | modeSense | modeSense10 =>
      simp only [doReadCapacity, doReadToc, doModeSense]
      split_ifs <;> first
        | rfl
        | exact refuse_sizes c _
  | some lun =>
    rw [hc] at h
    have hcmd := h.resolve_left (Option.some_ne_none lun)
    cases cmd <;> simp only [handleScsi, hc]
    case read6 | read10 | read12 | read16 | write6 | write10 | write12 | write16 =>
      exact absurd (by decide) hcmd
    case inquiry => exact doInquiry_sizes c
    case requestSense => exact doRequestSense_sizes c
    case allowMediumRemoval => exact doPreventAllow_sizes c
    case startStop => exact doStartStop_sizes c
    case synchronizeCache => exact doSynchronizeCache_sizes c io
    case modeSelect | modeSelect10 | unknown => exact refuse_sizes c _
    case verify => exact doVerify_sizes hc io
    case readCapacity | readCapacity16 | readToc | modeSense | modeSense10 | readHeader =>
      simp only [doReadCapacity, doReadToc, doModeSense, doReadHeader]
      split_ifs <;> first
        | rfl
        | exact refuse_sizes c _

theorem startTransfer_none {io : CommandIo} {c c' : FsgCommon} (hnone : startTransfer io c = none)
    (hcheck : checkScsi { c with phaseError := false } = .ok c') :
    c'.curlun = none ∨ scsiCommand c ∉ [.read6, .read10, .read12, .read16, .write6, .write10,
      .write12, .write16] := by
  cases hlun : c'.curlun with
  | none => exact Or.inl rfl
  | some lun =>
    right
    intro hmem
    simp only [List.mem_cons, List.not_mem_nil, or_false] at hmem
    rcases hmem with hcmd | hcmd | hcmd | hcmd | hcmd | hcmd | hcmd | hcmd <;>
      simp only [startTransfer, hcheck, hcmd, hlun] at hnone <;> cases hnone

theorem scsiSwitch_untouched {io : CommandIo} {c : FsgCommon} (hnone : startTransfer io c = none) :
    Untouched c (scsiSwitch io { c with phaseError := false }).2 := by
  have hchecked := checkScsi_untouched c
  unfold scsiSwitch
  cases hcheck : checkScsi { c with phaseError := false } with
  | error c' =>
    rw [hcheck] at hchecked
    exact hchecked
  | ok c' =>
    rw [hcheck] at hchecked
    exact hchecked.of_sizes (handleScsi_sizes io (startTransfer_none hnone hcheck))

/-- The reply that is set up for `finish_reply`, if any. -/
def replyOf : Except Errno ℕ → Option ℕ
  | .ok reply => some reply
  | .error .EINVAL => some 0
  | .error _ => none

theorem doScsiCommand_true {io : CommandIo} {c c' : FsgCommon}
    (h : doScsiCommand io c = (true, c')) :
    (scsiSwitch io { c with phaseError := false }).1 ≠ .error .EINTR ∧
      c' = (replyOf (scsiSwitch io { c with phaseError := false }).1).elim
        (scsiSwitch io { c with phaseError := false }).2
        (setReply (scsiSwitch io { c with phaseError := false }).2) := by
  unfold doScsiCommand at h
  generalize scsiSwitch io { c with phaseError := false } = r at h ⊢
  obtain ⟨reply, c₁⟩ := r
  dsimp only at h ⊢
  split_ifs at h
  · cases h
  · split at h
    · cases h
    · cases h
      exact ⟨fun h => (by cases h), rfl⟩
    · rename_i e hintr hinval
      cases h
      refine ⟨fun h => hintr (by cases h; rfl), ?_⟩
      cases e <;> first
        | rfl
        | exact absurd rfl hinval
    · cases h
      exact ⟨fun h => (by cases h), rfl⟩

/-! ### Commands against the direction of the data -/

theorem checkDataSize_claimsNone {c : FsgCommon} (h : c.dataSizeFromCmnd = 0) :
    (checkDataSize c).dataSizeFromCmnd = 0 := by
  unfold checkDataSize
  dsimp only
  split_ifs with hless
  · exact absurd (h ▸ hless) UInt32.not_lt_zero
  · exact h

theorem checkForm_direction {c c' : FsgCommon} {cmndSize : ℕ} {dataDir : DataDirection}
    (h : checkForm c cmndSize dataDir = .ok c') : c'.dataSizeFromCmnd = 0 ∨ c.dataDir = dataDir := by
  rcases checkForm_cases c cmndSize dataDir with ⟨c'', herr, -⟩ | ⟨hok, -⟩
  · rw [herr] at h
    cases h
  · obtain rfl : checkDataSize c = c' := Except.ok.inj (hok.symm.trans h)
    by_cases hzero : c.dataSizeFromCmnd = 0
    · exact Or.inl (checkDataSize_claimsNone hzero)
    · unfold checkForm checkDirection at hok
      rw [if_neg hzero] at hok
      split_ifs at hok with hdir
      · cases hok
      · rcases not_and_or.mp hdir with hsame | hnone
        · right
          have hkept : (checkDataSize c).dataDir = c.dataDir := (checkDataSize_untouched c).dataDir
          rw [← hkept]
          exact not_not.mp hsame
        · left
          exact UInt32.le_zero_iff.mp (UInt32.not_lt.mp hnone)

theorem checkScsi_direction {c c' : FsgCommon}
    (h : checkScsi { c with phaseError := false } = .ok c') :
    c'.dataSizeFromCmnd = 0 ∨ c.dataDir = (commandForm c (scsiCommand c)).dataDir := by
  rw [checkScsi_eq] at h
  cases hform : checkForm c.claim (commandForm c (scsiCommand c)).cmndSize
      (commandForm c (scsiCommand c)).dataDir with
  | error c₁ =>
    rw [hform] at h
    cases h
  | ok c₁ =>
    rw [hform] at h
    have hsizes := checkOnLun_sizes (commandForm c (scsiCommand c)).mask
      (commandForm c (scsiCommand c)).needsMedium c₁
    rw [show checkOnLun _ _ c₁ = .ok c' from h] at hsizes
    have hsame : c'.dataSizeFromCmnd = c₁.dataSizeFromCmnd :=
      congrArg Sizes.dataSizeFromCmnd hsizes
    have hdirection := checkForm_direction hform
    rw [hsame]
    exact hdirection

/-- A READ moves data to the host only, and a WRITE data from the host. -/
theorem startTransfer_direction {io : CommandIo} {c : FsgCommon} {isWrite : Bool} {t : Transfer}
    (h : startTransfer io c = some (isWrite, t)) :
    t.dataSizeFromCmnd = 0 ∨ c.dataDir = if isWrite then .fromHost else .toHost := by
  unfold startTransfer at h
  split at h
  · cases h
  · rename_i c' hcheck
    have hdirection := checkScsi_direction hcheck
    split at h
    all_goals
      cases h
    all_goals
      rename_i hcmd _
      rw [hcmd] at hdirection
      exact hdirection

theorem checkMedium_isOpen {c c' : FsgCommon} {lun : FsgLun} (h : checkMedium true c = .ok c')
    (hlun : c'.curlun = some lun) : lun.isOpen = true := by
  unfold checkMedium at h
  split at h
  · rename_i lun' hc
    split_ifs at h with hclosed
    obtain rfl := Except.ok.inj h
    obtain rfl : lun' = lun := Option.some.inj (hc.symm.trans hlun)
    simp only [and_true, Bool.not_eq_false] at hclosed
    exact hclosed
  · rename_i hc
    obtain rfl := Except.ok.inj h
    rw [hc] at hlun
    cases hlun

theorem checkOnLun_isOpen {mask : ℕ} {c c' : FsgCommon} {lun : FsgLun}
    (h : checkOnLun mask true c = .ok c') (hlun : c'.curlun = some lun) : lun.isOpen = true := by
  unfold checkOnLun at h
  cases h₁ : checkLun c with
  | error c₁ => rw [h₁] at h; cases h
  | ok c₁ =>
    rw [h₁] at h
    cases h₂ : checkUnitAttention c₁ with
    | error c₂ => simp only [bind, Except.bind, h₂] at h; cases h
    | ok c₂ =>
      cases h₃ : checkMask mask c₂ with
      | error c₃ => simp only [bind, Except.bind, h₂, h₃] at h; cases h
      | ok c₃ =>
        simp only [bind, Except.bind, h₂, h₃] at h
        exact checkMedium_isOpen h hlun

/-- A transfer starts only on a medium. -/
theorem startTransfer_isOpen {io : CommandIo} {c : FsgCommon} {isWrite : Bool} {t : Transfer}
    (h : startTransfer io c = some (isWrite, t)) : t.curlun.isOpen = true := by
  unfold startTransfer at h
  split at h
  · cases h
  · rename_i c' hcheck
    rw [checkScsi_eq] at hcheck
    cases hform : checkForm c.claim (commandForm c (scsiCommand c)).cmndSize
        (commandForm c (scsiCommand c)).dataDir with
    | error c₁ =>
      rw [hform] at hcheck
      cases hcheck
    | ok c₁ =>
      rw [hform] at hcheck
      split at h
      all_goals
        cases h
      all_goals
        rename_i hcmd hlun
        rw [hcmd] at hcheck
        exact checkOnLun_isOpen hcheck hlun

/-- Where nothing is left to move, a transfer ends at once. -/
theorem doRead_idle {t : Transfer} (hzero : t.dataSizeFromCmnd = 0) (now : UInt64)
    (chunks : ℕ → ReadChunk) :
    (doRead t now chunks).2.residue = t.residue ∧
      (doRead t now chunks).2.usbAmountLeft = t.usbAmountLeft ∧
      (doRead t now chunks).2.filled = t.filled := by
  unfold doRead
  dsimp only
  split_ifs with hfield hend hsize
  · exact ⟨rfl, rfl, rfl⟩
  · exact ⟨rfl, rfl, rfl⟩
  · exact ⟨rfl, rfl, rfl⟩
  · exact absurd hzero hsize

theorem writeLoop_done {chunks : ℕ → WriteChunk} {t : Transfer} {w : WriteState}
    (h : w.leftToWrite = 0) : writeLoop chunks t w = (noDefaultReply, t) := by
  rw [writeLoop, if_pos h]

theorem doWrite_idle {t : Transfer} (hzero : t.dataSizeFromCmnd = 0) (now : UInt64)
    (chunks : ℕ → WriteChunk) : (doWrite t now chunks).2.residue = t.residue := by
  unfold doWrite
  dsimp only
  split_ifs
  · rfl
  · rfl
  · rfl
  · have hdone : t.dataSizeFromCmnd.toNat = 0 := congrArg UInt32.toNat hzero
    rw [writeLoop_done hdone]
    rfl

/-! ### Data from the host -/

/-- Data are thrown away until there are no more. -/
theorem throwAwayData_status {numBuffers : {n : ℕ // 0 < n}} {chunks : ℕ → WriteChunk}
    {requested drained : ℕ} {out : BulkOut}
    (h : (throwAwayData numBuffers chunks requested drained out).1 = .status) :
    (throwAwayData numBuffers chunks requested drained out).2.usbAmountLeft = 0 ∧
      (throwAwayData numBuffers chunks requested drained out).2.inFlight = [] := by
  fun_induction throwAwayData numBuffers chunks requested drained out
  case case1 hdone => exact hdone.symm
  case case2 ih => exact ih h
  case case7 ih => exact ih h
  all_goals cases h

theorem finishReply_fromHost {numBuffers : {n : ℕ // 0 < n}} {fin : FinishIo} {s : Prepared}
    (hdir : s.common.dataDir = .fromHost)
    (htaken : s.common.residue = 0 → s.out.usbAmountLeft = 0 ∧ s.out.inFlight = [])
    (h : (finishReply numBuffers fin s).1 = .status) :
    (finishReply numBuffers fin s).2.2.usbAmountLeft = 0 ∧
      (finishReply numBuffers fin s).2.2.inFlight = [] := by
  unfold finishReply at h ⊢
  rw [hdir] at h ⊢
  dsimp only at h ⊢
  by_cases hzero : s.common.residue = 0
  · rw [if_pos hzero]
    exact htaken hzero
  · rw [if_neg hzero] at h ⊢
    split_ifs at h ⊢
    exact throwAwayData_status h

variable {io : CommandIo} {c c' : FsgCommon}

/-- A transfer is the last thing its command does. -/
theorem scsiSwitch_transfer {isWrite : Bool} {t : Transfer}
    (h : startTransfer io c = some (isWrite, t)) :
    ∃ c₁ lun, Untouched c c₁ ∧ c₁.curlun = some lun ∧ t = c₁.begin lun io.transfer ∧
      scsiSwitch io { c with phaseError := false } =
        c₁.finish (if isWrite then doWrite t io.now io.writes else doRead t io.now io.reads) := by
  obtain ⟨c₁, lun, hcheck, hlun, rfl, hhandle⟩ := startTransfer_some h
  have huntouched := checkScsi_untouched c
  rw [hcheck] at huntouched
  refine ⟨c₁, lun, huntouched, hlun, rfl, ?_⟩
  rw [scsiSwitch, hcheck]
  exact hhandle

theorem scsiSwitch_dataDir (io : CommandIo) (c : FsgCommon) :
    (scsiSwitch io { c with phaseError := false }).2.dataDir = c.dataDir := by
  cases hstart : startTransfer io c with
  | none => exact (scsiSwitch_untouched hstart).dataDir
  | some r =>
    obtain ⟨c₁, lun, huntouched, -, -, hswitch⟩ := scsiSwitch_transfer hstart
    rw [hswitch]
    exact huntouched.dataDir

/-- No reply is set up for data that come from the host. -/
theorem doScsiCommand_fromHost (hdir : c.dataDir = .fromHost)
    (h : doScsiCommand io c = (true, c')) :
    (scsiSwitch io { c with phaseError := false }).1 ≠ .error .EINTR ∧
      c' = (scsiSwitch io { c with phaseError := false }).2 := by
  obtain ⟨hintr, rfl⟩ := doScsiCommand_true h
  refine ⟨hintr, ?_⟩
  have hfrom := (scsiSwitch_dataDir io c).trans hdir
  cases replyOf (scsiSwitch io { c with phaseError := false }).1 with
  | none => rfl
  | some reply => exact if_neg (by rw [hfrom]; decide)

/-- A command that leaves no residue has asked for all data and seen all buffers. -/
theorem doScsiCommand_taken
    (hblk : ∀ lun, c.curlun = some lun → lun.isOpen = true → lun.blksize ∣ FSG_BUFLEN)
    (hdir : c.dataDir = .fromHost) (h : doScsiCommand io c = (true, c'))
    (hzero : c'.residue = 0) :
    c'.usbAmountLeft = 0 ∧ (writtenBuffers io c).inFlight = [] := by
  obtain ⟨hintr, rfl⟩ := doScsiCommand_fromHost hdir h
  cases hstart : startTransfer io c with
  | none =>
    have huntouched := scsiSwitch_untouched hstart
    refine ⟨huntouched.usbAmountLeft.trans (huntouched.residue.symm.trans hzero), ?_⟩
    simp only [writtenBuffers, hstart]
    rfl
  | some r =>
    obtain ⟨isWrite, t⟩ := r
    obtain ⟨c₁, lun₁, huntouched, hlun₁, -, hswitch⟩ := scsiSwitch_transfer hstart
    obtain ⟨lun, hlun⟩ : ∃ lun, c.curlun = some lun :=
      Option.isSome_iff_exists.mp (by rw [← huntouched.isSome, hlun₁, Option.isSome_some])
    obtain ⟨hkept, hclaimed, hsame, -⟩ := startTransfer_spec hlun hstart
    rw [hswitch] at hintr hzero ⊢
    cases isWrite with
    | false =>
      -- a READ of data from the host claims none
      have hnone : t.dataSizeFromCmnd = 0 := by
        refine (startTransfer_direction hstart).resolve_right fun hto => ?_
        rw [hdir] at hto
        cases hto
      obtain ⟨hresidue, hleft, -⟩ := doRead_idle hnone io.now io.reads
      refine ⟨?_, by simp only [writtenBuffers, hstart]; rfl⟩
      exact hleft.trans (hsame.trans (hresidue.symm.trans hzero))
    | true =>
      have hopen : lun.isOpen = true := by
        have hopen := startTransfer_isOpen hstart
        rcases hkept.filp with heq | hnone
        · rwa [FsgLun.isOpen, ← heq]
        · rw [FsgLun.isOpen, hnone] at hopen
          cases hopen
      have hfit : t.curlun.blksize ∣ FSG_BUFLEN := by
        rw [hkept.blksize]
        exact hblk lun hlun hopen
      obtain ⟨n, hstored, -⟩ := doWriteBytes_stored t (Contents.zeros 0) io.now io.writes
        (fun _ => 0) hfit hclaimed hsame
      have hfst := doWriteBytes_fst t (Contents.zeros 0) io.now io.writes fun _ => 0
      simp only [FsgCommon.finish, if_true] at hintr hzero
      have htaken := hstored.taken
      rw [hfst] at htaken
      obtain ⟨hleft, hempty⟩ := htaken (fun he => hintr (congrArg Except.error he))
        (congrArg UInt32.toNat hzero)
      refine ⟨UInt32.toNat_inj.mp hleft, ?_⟩
      simp only [writtenBuffers, hstart]
      exact hempty

/-- Before the status of a command is sent, all data the host announced were asked of it, and
none are under way that could be taken for the next command. -/
theorem host_data_taken {files : Text → Contents} {es : List DriveEvent}
    (hhonest : Guarded Drive.step Honest (Drive.start files) es) {number : ℕ} {cmd : HostCommand}
    {fin : FinishIo} {stale : ℕ} {p : DataPhase} (hdir : cmd.dataDir = .fromHost)
    (hp : dataPhase io fin stale
      (receivedCbw (run Drive.step (Drive.start files) es).thread.lun number cmd) = some p)
    (hstatus : p.finish = .status) : p.out.usbAmountLeft = 0 ∧ p.out.inFlight = [] := by
  have hvalid := valid_run hhonest
  set d := run Drive.step (Drive.start files) es
  have hblk (lun : FsgLun) (hlun : (receivedCbw d.thread.lun number cmd).curlun = some lun)
      (hopen : lun.isOpen = true) : lun.blksize ∣ FSG_BUFLEN := by
    rw [receivedCbw] at hlun
    split_ifs at hlun
    obtain rfl := Option.some.inj hlun
    obtain ⟨f, hf⟩ := FsgLun.isOpen_iff.mp hopen
    exact (hvalid f hf).buffer
  unfold dataPhase at hp
  split at hp
  · cases hp
  · rename_i c' hdone
    obtain rfl := Option.some.inj hp
    obtain ⟨-, hc'⟩ := doScsiCommand_fromHost hdir hdone
    have hfrom : c'.dataDir = .fromHost := by
      rw [hc', scsiSwitch_dataDir]
      exact hdir
    refine finishReply_fromHost hfrom (fun hzero => ?_) hstatus
    obtain ⟨hleft, hempty⟩ := doScsiCommand_taken hblk hdir hdone hzero
    exact ⟨congrArg UInt32.toNat hleft, hempty⟩

/-- Nothing goes wrong. -/
def sampleFinish : FinishIo where
  configured := true
  canStall := true
  haltInterrupted := false
  started := true
  throws _ := ⟨true, false, 0, 16384, none, false⟩

/-- A command for the second block, with `dataSize` bytes announced. -/
def sampleCbw (op : UInt8) (dataDir : DataDirection) (dataSize : UInt32) : HostCommand where
  cmnd i := if i = 0 then op else if i = 3 then 1 else if i = 4 then 1 else 0
  cmndSize := 6
  dataDir
  dataSize

/-- The host announces two buffers more than the WRITE claims. -/
theorem host_data_taken_example : ∃ p,
    dataPhase sampleIo sampleFinish 0
      (receivedCbw (run Drive.step (Drive.start sampleFiles) sampleMount).thread.lun 0
        (sampleCbw WRITE_6 .fromHost 33280)) = some p ∧
    p.out.usbAmountLeft = 0 ∧ p.out.inFlight = [] := by
  have hmap : (dataPhase sampleIo sampleFinish 0
      (receivedCbw (run Drive.step (Drive.start sampleFiles) sampleMount).thread.lun 0
        (sampleCbw WRITE_6 .fromHost 33280))).map DataPhase.finish = some .status := by
    decide +kernel
  obtain ⟨p, hp, hstatus⟩ := Option.map_eq_some_iff.mp hmap
  have hhonest : Guarded Drive.step Honest (Drive.start sampleFiles) (sampleMount ++ []) :=
    sampleMount_honest trivial
  exact ⟨p, hp, host_data_taken hhonest rfl hp hstatus⟩

/-! ### Data to the host -/

/-- Bytes in a buffer are no longer in the residue. -/
theorem filled_count {t : Transfer} {n : ℕ} (h : n ≤ t.residue.toNat) :
    (t.filled ++ [n]).sum + (t.residue - UInt32.ofNat n).toNat = t.filled.sum + t.residue.toNat := by
  have hsub := sub_ofNat_toNat h
  rw [List.sum_append, List.sum_singleton]
  omega

theorem filled_ne_nil (filled : List ℕ) (n : ℕ) : filled ++ [n] ≠ [] :=
  List.append_ne_nil_of_right_ne_nil _ (List.cons_ne_nil _ _)

/-- Every byte of the data is in a buffer or still in the residue. -/
theorem readLoop_filled (chunks : ℕ → ReadChunk) (k : ℕ) (t : Transfer)
    (fileOffset amountLeft : ℕ) (hres : amountLeft ≤ t.residue.toNat) :
    let r := readLoop chunks k t fileOffset amountLeft
    r.2.filled.sum + r.2.residue.toNat = t.filled.sum + t.residue.toNat ∧
      (r.1 ≠ .EINTR → r.1 = noDefaultReply ∧ r.2.filled ≠ []) := by
  fun_induction readLoop chunks k t fileOffset amountLeft
  case case1 => exact ⟨rfl, fun hintr => absurd rfl hintr⟩
  case case2 =>
    refine ⟨?_, fun _ => ⟨rfl, filled_ne_nil _ _⟩⟩
    simp only [Transfer.fail, List.sum_append, List.sum_singleton, Nat.add_zero]
  case case3 => exact ⟨rfl, fun hintr => absurd rfl hintr⟩
  case case4 k t fileOffset amountLeft amount hint hzero result nread t₁ hsignal t₂ hless =>
    have hle : nread ≤ amount := settle_le _ _ _
    have hfit : nread ≤ t.residue.toNat := by omega
    exact ⟨filled_count hfit, fun _ => ⟨rfl, filled_ne_nil _ _⟩⟩
  case case5 k t fileOffset amountLeft amount hint hzero result nread t₁ hsignal t₂ hless hdone =>
    have hle : nread ≤ amount := settle_le _ _ _
    have hfit : nread ≤ t.residue.toNat := by omega
    exact ⟨filled_count hfit, fun _ => ⟨rfl, filled_ne_nil _ _⟩⟩
  case case6 k t fileOffset amountLeft amount hint hzero result nread t₁ hsignal t₂ hless hdone
      hstarted ih =>
    have hle : nread ≤ amount := settle_le _ _ _
    have hfit : nread ≤ t.residue.toNat := by omega
    have hleft : t₂.residue.toNat + nread = t.residue.toNat := sub_ofNat_toNat hfit
    obtain ⟨hsum, hreply⟩ := ih (by omega)
    exact ⟨hsum.trans (filled_count hfit), hreply⟩
  case case7 k t fileOffset amountLeft amount hint hzero result nread t₁ hsignal t₂ hless hdone
      hstarted =>
    have hle : nread ≤ amount := settle_le _ _ _
    have hfit : nread ≤ t.residue.toNat := by omega
    exact ⟨filled_count hfit, fun _ => ⟨rfl, filled_ne_nil _ _⟩⟩

/-- A READ either fills buffers, and leaves the reply to them, or moves nothing. -/
theorem doRead_filled {t : Transfer} (hclaimed : t.dataSizeFromCmnd.toNat ≤ t.residue.toNat)
    (hnone : t.filled = []) (now : UInt64) (chunks : ℕ → ReadChunk) :
    let r := doRead t now chunks
    r.1 = .EINTR ∨ r.2.filled = [] ∧ r.2.residue = t.residue ∧
        (r.1 = .EINVAL ∨ t.dataSizeFromCmnd = 0) ∨
      r.2.filled ≠ [] ∧ r.2.filled.sum + r.2.residue.toNat = t.residue.toNat ∧
        r.1 = noDefaultReply ∧ t.dataSizeFromCmnd ≠ 0 := by
  unfold doRead
  dsimp only
  split_ifs with hfield hend hsize
  · exact Or.inr (Or.inl ⟨hnone, rfl, Or.inl rfl⟩)
  · exact Or.inr (Or.inl ⟨hnone, rfl, Or.inl rfl⟩)
  · exact Or.inr (Or.inl ⟨hnone, rfl, Or.inr hsize⟩)
  · obtain ⟨hsum, hreply⟩ := readLoop_filled chunks 0 (t.hooks (lbaOf READ_6 READ_16 t.cmnd) false now)
      (lbaOf READ_6 READ_16 t.cmnd <<< t.curlun.blkbits) t.dataSizeFromCmnd.toNat hclaimed
    by_cases hintr : (readLoop chunks 0 (t.hooks (lbaOf READ_6 READ_16 t.cmnd) false now)
        (lbaOf READ_6 READ_16 t.cmnd <<< t.curlun.blkbits) t.dataSizeFromCmnd.toNat).1 = .EINTR
    · exact Or.inl hintr
    · obtain ⟨hio, hsome⟩ := hreply hintr
      refine Or.inr (Or.inr ⟨hsome, hsum.trans ?_, hio, hsize⟩)
      rw [Transfer.hooks, hnone, List.sum_nil, Nat.zero_add]

/-- All handlers but those of a transfer and VERIFY set up a reply. -/
theorem handleScsi_reply (io : CommandIo) {cmd : ScsiCommand} {c : FsgCommon}
    (h : c.curlun = none ∨ cmd ∉ [.read6, .read10, .read12, .read16, .write6, .write10, .write12,
      .write16]) (hverify : cmd ≠ .verify) : replyOf (handleScsi io cmd c).1 ≠ none := by
  have hchecked (x : Checked) : replyOf x.handled.1 ≠ none := by
    cases x <;> exact Option.some_ne_none _
  cases hc : c.curlun with
  | none =>
    cases cmd <;> simp only [handleScsi, hc]
    case allowMediumRemoval | startStop => exact hchecked _
    case readCapacity | readCapacity16 | readToc | modeSense | modeSense10 =>
      simp only [doReadCapacity, doReadToc, doModeSense]
      split_ifs <;> exact Option.some_ne_none _
    case inquiry | requestSense =>
      simp only [doInquiry, doRequestSense, hc]
      exact Option.some_ne_none _
    all_goals exact Option.some_ne_none _
  | some lun =>
    rw [hc] at h
    have hcmd := h.resolve_left (Option.some_ne_none lun)
    cases cmd <;> simp only [handleScsi, hc]
    case read6 | read10 | read12 | read16 | write6 | write10 | write12 | write16 =>
      exact absurd (by decide) hcmd
    case verify => exact absurd rfl hverify
    case allowMediumRemoval | startStop => exact hchecked _
    case readCapacity | readCapacity16 | readToc | modeSense | modeSense10 | readHeader =>
      simp only [doReadCapacity, doReadToc, doModeSense, doReadHeader]
      split_ifs <;> exact Option.some_ne_none _
    case inquiry | requestSense =>
      simp only [doInquiry, doRequestSense, hc]
      exact Option.some_ne_none _
    all_goals exact Option.some_ne_none _

theorem checkScsi_claimsNone {c : FsgCommon}
    (h : claimedSize c (commandForm c (scsiCommand c)) = 0) :
    (checkScsi { c with phaseError := false }).state.dataSizeFromCmnd = 0 := by
  rw [checkScsi_eq]
  have hsizes := Checked.sizes_bind (checkForm_sizes c.claim
    (commandForm c (scsiCommand c)).cmndSize (commandForm c (scsiCommand c)).dataDir)
    (checkOnLun_sizes (commandForm c (scsiCommand c)).mask
      (commandForm c (scsiCommand c)).needsMedium)
  exact (congrArg Sizes.dataSizeFromCmnd hsizes).trans (checkDataSize_claimsNone h)

/-- What the switch leaves of a command with data for the host: nothing is moved yet, and
where no reply is set up nothing is claimed, or all that is moved is in the buffers. -/
structure NothingMoved (io : CommandIo) (c : FsgCommon) (r : Handled) : Prop where
  filled : filledBuffers io c = []
  residue : r.2.residue = c.dataSize
  claimed : r.2.dataSizeFromCmnd ≤ c.dataSize
  noReply : replyOf r.1 = none → r.2.dataSizeFromCmnd = 0

structure InBuffers (io : CommandIo) (c : FsgCommon) (r : Handled) : Prop where
  filled : filledBuffers io c ≠ []
  total : (filledBuffers io c).sum + r.2.residue.toNat = c.dataSize.toNat
  noReply : r.1 = .error noDefaultReply
  announced : c.dataSize ≠ 0

theorem scsiSwitch_toHost (hdir : c.dataDir = .toHost)
    (hintr : (scsiSwitch io { c with phaseError := false }).1 ≠ .error .EINTR) :
    (scsiSwitch io { c with phaseError := false }).2.dataSize = c.dataSize ∧
      (NothingMoved io c (scsiSwitch io { c with phaseError := false }) ∨
        InBuffers io c (scsiSwitch io { c with phaseError := false })) := by
  cases hstart : startTransfer io c with
  | none =>
    have huntouched := scsiSwitch_untouched hstart
    have hfilled : filledBuffers io c = [] := by
      simp only [filledBuffers, hstart]
    refine ⟨huntouched.dataSize,
      Or.inl ⟨hfilled, huntouched.residue, huntouched.claimed, fun hreply => ?_⟩⟩
    cases hcheck : checkScsi { c with phaseError := false } with
    | error c₁ =>
      simp only [scsiSwitch, hcheck] at hreply
      cases hreply
    | ok c₁ =>
      have hother := startTransfer_none hstart hcheck
      have hswitch : scsiSwitch io { c with phaseError := false } =
          handleScsi io (scsiCommand c) c₁ := by
        rw [scsiSwitch, hcheck]
        rfl
      rw [hswitch] at hreply ⊢
      have hverify : scsiCommand c = .verify := by
        by_contra hne
        exact handleScsi_reply io hother hne hreply
      have hclaim : claimedSize c (commandForm c (scsiCommand c)) = 0 := by
        rw [hverify]
        unfold claimedSize
        split <;> rfl
      have hzero := checkScsi_claimsNone hclaim
      rw [hcheck] at hzero
      exact (congrArg Sizes.dataSizeFromCmnd (handleScsi_sizes io hother)).trans hzero
  | some r =>
    obtain ⟨isWrite, t⟩ := r
    obtain ⟨c₁, lun, huntouched, -, rfl, hswitch⟩ := scsiSwitch_transfer hstart
    rw [hswitch] at hintr ⊢
    refine ⟨huntouched.dataSize, ?_⟩
    cases isWrite with
    | true =>
      -- a WRITE of data for the host claims none
      have hzero : c₁.dataSizeFromCmnd = 0 := by
        refine (startTransfer_direction hstart).resolve_right fun hfrom => ?_
        rw [hdir] at hfrom
        cases hfrom
      have hresidue := doWrite_idle (t := c₁.begin lun io.transfer) hzero io.now io.writes
      refine Or.inl ⟨by simp only [filledBuffers, hstart], ?_, huntouched.claimed, fun _ => hzero⟩
      exact hresidue.trans huntouched.residue
    | false =>
      have hclaimed : c₁.dataSizeFromCmnd.toNat ≤ c₁.residue.toNat := by
        rw [huntouched.residue]
        exact UInt32.le_iff_toNat_le.mp huntouched.claimed
      have hbuffers : filledBuffers io c =
          (doRead (c₁.begin lun io.transfer) io.now io.reads).2.filled := by
        simp only [filledBuffers, hstart]
      rcases doRead_filled (t := c₁.begin lun io.transfer) hclaimed rfl io.now io.reads with
        hintr' | ⟨hfilled, hresidue, hwhy⟩ | ⟨hfilled, htotal, hio, hsome⟩
      · exact absurd (congrArg Except.error hintr') hintr
      · refine Or.inl ⟨hbuffers.trans hfilled, hresidue.trans huntouched.residue,
          huntouched.claimed, fun hreply => hwhy.resolve_left fun hinval => ?_⟩
        have hinval' : (doRead (c₁.begin lun io.transfer) io.now io.reads).1 = .EINVAL := hinval
        simp only [FsgCommon.finish, Bool.false_eq_true, if_false, hinval'] at hreply
        cases hreply
      · refine Or.inr ⟨by rw [hbuffers]; exact hfilled, ?_, congrArg Except.error hio, ?_⟩
        · rw [hbuffers, ← huntouched.residue]
          exact htotal
        · intro hnone
          have hzero := huntouched.claimed
          rw [hnone] at hzero
          exact hsome (UInt32.le_zero_iff.mp hzero)

theorem finishReply_toHost {numBuffers : {n : ℕ // 0 < n}} {fin : FinishIo} {s : Prepared}
    (hdir : s.common.dataDir = .toHost) (hstarted : fin.started = true)
    (h : (finishReply numBuffers fin s).1 = .status) :
    (finishReply numBuffers fin s).2.1 = if s.common.dataSize = 0 then [] else [s.length] := by
  unfold finishReply at h ⊢
  simp only [hdir, hstarted, if_true] at h ⊢
  by_cases hnone : s.common.dataSize = 0
  · rw [if_pos hnone, if_pos hnone]
  · rw [if_neg hnone] at h
    rw [if_neg hnone, if_neg hnone]
    by_cases hgone : fin.configured = false
    · rw [if_pos hgone] at h
      cases h
    · rw [if_neg hgone]
      split_ifs <;> rfl

theorem preparedLength_reply {reply : ℕ} (stale : ℕ)
    (hreply : replyOf (scsiSwitch io { c with phaseError := false }).1 = some reply) :
    preparedLength io c stale = (min (UInt32.ofNat reply)
      (scsiSwitch io { c with phaseError := false }).2.dataSizeFromCmnd).toNat := by
  unfold preparedLength
  generalize scsiSwitch io { c with phaseError := false } = r at hreply ⊢
  obtain ⟨reply' | e, c₁⟩ := r
  · cases reply' <;> cases hreply
    have hmin : min (UInt32.ofNat 0) c₁.dataSizeFromCmnd = 0 := if_pos UInt32.zero_le
    rw [hmin]
    rfl
  · cases hreply
    rfl

theorem preparedLength_noReply (stale : ℕ)
    (hreply : replyOf (scsiSwitch io { c with phaseError := false }).1 = none) :
    preparedLength io c stale = (filledBuffers io c).getLastD stale := by
  unfold preparedLength
  generalize scsiSwitch io { c with phaseError := false } = r at hreply ⊢
  obtain ⟨reply' | e, c₁⟩ := r
  · cases reply' <;> first
      | rfl
      | cases hreply
  · cases hreply

/-- The length of the reply is taken off the residue. -/
theorem setReply_length {c₁ : FsgCommon} (hdir : c₁.dataDir = .toHost)
    (hclaimed : c₁.dataSizeFromCmnd ≤ c₁.residue) (reply : ℕ) :
    (min (UInt32.ofNat reply) c₁.dataSizeFromCmnd).toNat + (setReply c₁ reply).residue.toNat =
      c₁.residue.toNat := by
  have hle : min (UInt32.ofNat reply) c₁.dataSizeFromCmnd ≤ c₁.residue := by
    rw [show min (UInt32.ofNat reply) c₁.dataSizeFromCmnd =
      if UInt32.ofNat reply ≤ c₁.dataSizeFromCmnd then UInt32.ofNat reply
      else c₁.dataSizeFromCmnd from rfl]
    split_ifs with hless
    · exact UInt32.le_trans hless hclaimed
    · exact hclaimed
  rw [setReply, if_pos hdir]
  change _ + (c₁.residue - min (UInt32.ofNat reply) c₁.dataSizeFromCmnd).toNat = _
  rw [UInt32.toNat_sub_of_le _ _ hle, Nat.add_sub_cancel' (UInt32.le_iff_toNat_le.mp hle)]

theorem setReply_kept (c₁ : FsgCommon) (reply : ℕ) :
    (setReply c₁ reply).dataDir = c₁.dataDir ∧ (setReply c₁ reply).dataSize = c₁.dataSize := by
  unfold setReply
  split_ifs <;> exact ⟨rfl, rfl⟩

theorem dataPhase_toHost {fin : FinishIo} {stale : ℕ} {p : DataPhase}
    (hstarted : fin.started = true)
    (hp : dataPhase io fin stale c = some p) (hstatus : p.finish = .status) :
    doScsiCommand io c = (true, p.common) ∧ (p.common.dataDir = .toHost →
      p.sent = (filledBuffers io c).dropLast ++
        if p.common.dataSize = 0 then [] else [preparedLength io c stale]) := by
  unfold dataPhase at hp
  split at hp
  · cases hp
  · rename_i c' hdone
    obtain rfl := Option.some.inj hp
    refine ⟨hdone, fun hto => congrArg ((filledBuffers io c).dropLast ++ ·) ?_⟩
    exact finishReply_toHost hto hstarted hstatus

end UsbFloppy.Kernel
