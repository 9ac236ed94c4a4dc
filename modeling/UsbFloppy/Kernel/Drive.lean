import UsbFloppy.Kernel.Stored
import UsbFloppy.Kernel.UnitAttention

/-! The drive as a whole: the main loop, the stores to all attributes of the LUN, and the
bytes of the files that are put into it one after another. -/

namespace UsbFloppy.Kernel
open Files Patch Transition

/-! ### What a command leaves alone -/

/-- The geometry and the read-only flags of a LUN. -/
def FsgLun.shape (lun : FsgLun) : FsgLun :=
  { lun with
    filp := none
    removable := false
    cdrom := false
    preventMediumRemoval := false
    nofua := false
    infoValid := false
    senseData := SS_NO_SENSE
    senseDataInfo := 0
    unitAttentionData := SS_NO_SENSE }

/-- A LUN after any command: the medium may be out, and the geometry and the read-only flags
are as they were. -/
structure MediumKept (lun lun' : FsgLun) : Prop where
  filp : lun'.filp = lun.filp ∨ lun'.filp = none
  shape : lun'.shape = lun.shape

section MediumKept
variable {lun lun' : FsgLun}

theorem MediumKept.field (h : MediumKept lun lun') {α : Type*} (f : FsgLun → α) :
    f lun'.shape = f lun.shape := congrArg f h.shape

theorem MediumKept.ro (h : MediumKept lun lun') : lun'.ro = lun.ro :=
  h.field FsgLun.ro

theorem MediumKept.initiallyRo (h : MediumKept lun lun') : lun'.initiallyRo = lun.initiallyRo :=
  h.field FsgLun.initiallyRo

theorem MediumKept.fileLength (h : MediumKept lun lun') : lun'.fileLength = lun.fileLength :=
  h.field FsgLun.fileLength

theorem MediumKept.numSectors (h : MediumKept lun lun') : lun'.numSectors = lun.numSectors :=
  h.field FsgLun.numSectors

theorem MediumKept.blkbits (h : MediumKept lun lun') : lun'.blkbits = lun.blkbits :=
  h.field FsgLun.blkbits

theorem MediumKept.blksize (h : MediumKept lun lun') : lun'.blksize = lun.blksize :=
  h.field FsgLun.blksize

end MediumKept

theorem MediumKept.refl (lun : FsgLun) : MediumKept lun lun := ⟨Or.inl rfl, rfl⟩

theorem MediumKept.trans {a b c : FsgLun} (h : MediumKept a b) (h' : MediumKept b c) :
    MediumKept a c where
  filp := by
    rcases h'.filp with heq | hnone
    · rw [heq]
      exact h.filp
    · exact Or.inr hnone
  shape := h'.shape.trans h.shape

/-- The same of the LUN a command is for. -/
def MediumLeft (lun : FsgLun) (c : FsgCommon) : Prop :=
  ∃ lun', c.curlun = some lun' ∧ MediumKept lun lun'

theorem MediumLeft.of_eq {lun : FsgLun} {c : FsgCommon} (h : c.curlun = some lun) :
    MediumLeft lun c := ⟨lun, h, .refl lun⟩

theorem MediumLeft.update {lun lun' : FsgLun} {c c' : FsgCommon} (h : MediumLeft lun c)
    (hc : c.curlun = some lun') {lun'' : FsgLun} (hc' : c'.curlun = some lun'')
    (hkept : MediumKept lun' lun'') : MediumLeft lun c' := by
  obtain ⟨lun₁, hc₁, h₁⟩ := h
  obtain rfl : lun' = lun₁ := Option.some.inj (hc.symm.trans hc₁)
  exact ⟨lun'', hc', h₁.trans hkept⟩

theorem MediumLeft.setSense {lun : FsgLun} {c : FsgCommon} (h : MediumLeft lun c) (sense : ℕ) :
    MediumLeft lun (c.setSense sense) := by
  obtain ⟨lun', hc, hkept⟩ := h
  refine ⟨{ lun' with senseData := sense }, ?_, hkept.trans ⟨Or.inl rfl, rfl⟩⟩
  rw [FsgCommon.setSense, FsgCommon.mapLun, hc]
  rfl

theorem MediumLeft.bind {lun : FsgLun} {x : Checked} {g : FsgCommon → Checked}
    (hx : MediumLeft lun x.state)
    (hg : ∀ c, x = .ok c → MediumLeft lun c → MediumLeft lun (g c).state) :
    MediumLeft lun (Checked.state (x >>= g)) := by
  cases x with
  | error c => exact hx
  | ok c => exact hg c rfl hx

theorem checkOnLun_medium {lun : FsgLun} {c : FsgCommon} (hc : c.curlun = some lun) (mask : ℕ)
    (needsMedium : Bool) : MediumLeft lun (checkOnLun mask needsMedium c).state := by
  have hlun : MediumLeft lun (checkLun c).state := by
    simp only [checkLun, hc]
    split_ifs
    · exact ⟨_, rfl, Or.inl rfl, rfl⟩
    · exact .of_eq hc
  refine hlun.bind fun c₁ _ h₁ => ?_
  have hattention : MediumLeft lun (checkUnitAttention c₁).state := by
    obtain ⟨lun₁, hc₁, hkept⟩ := h₁
    simp only [checkUnitAttention, hc₁]
    split_ifs
    · exact ⟨_, rfl, hkept.trans ⟨Or.inl rfl, rfl⟩⟩
    · exact ⟨lun₁, hc₁, hkept⟩
  refine hattention.bind fun c₂ _ h₂ => ?_
  have hmask : MediumLeft lun (checkMask mask c₂).state := by
    unfold checkMask
    dsimp only
    split_ifs
    · exact h₂
    · exact MediumLeft.setSense h₂ SS_INVALID_FIELD_IN_CDB
  refine hmask.bind fun c₃ _ h₃ => ?_
  unfold checkMedium
  split
  · split_ifs
    · exact h₃.setSense SS_MEDIUM_NOT_PRESENT
    · exact h₃
  · exact h₃

theorem checkScsi_medium {lun : FsgLun} {c : FsgCommon} (hc : c.curlun = some lun) :
    MediumLeft lun (checkScsi { c with phaseError := false }).state := by
  rw [checkScsi_eq]
  rcases checkForm_cases c.claim (commandForm c (scsiCommand c)).cmndSize
    (commandForm c (scsiCommand c)).dataDir with ⟨c', herr, hlun, -⟩ | ⟨hok, -⟩
  · rw [herr]
    exact .of_eq (hlun.trans hc)
  · rw [hok]
    exact checkOnLun_medium ((claim_curlun c).trans hc) _ _

theorem readLoop_medium (chunks : ℕ → ReadChunk) (k : ℕ) (t : Transfer)
    (fileOffset amountLeft : ℕ) :
    MediumKept t.curlun (readLoop chunks k t fileOffset amountLeft).2.curlun := by
  fun_induction readLoop chunks k t fileOffset amountLeft
  all_goals try exact ⟨Or.inl rfl, rfl⟩
  rename_i ih
  exact ih

theorem writeLoop_medium (chunks : ℕ → WriteChunk) (t : Transfer) (w : WriteState) :
    MediumKept t.curlun (writeLoop chunks t w).2.curlun := by
  fun_induction writeLoop chunks t w
  all_goals try exact ⟨Or.inl rfl, rfl⟩
  all_goals
    rename_i ih
    refine MediumKept.trans ?_ ih
    exact ⟨Or.inl rfl, rfl⟩

theorem doRead_medium (t : Transfer) (now : UInt64) (chunks : ℕ → ReadChunk) :
    MediumKept t.curlun (doRead t now chunks).2.curlun := by
  unfold doRead
  dsimp only
  split_ifs
  · exact ⟨Or.inl rfl, rfl⟩
  · exact ⟨Or.inl rfl, rfl⟩
  · exact ⟨Or.inl rfl, rfl⟩
  · exact readLoop_medium chunks 0 (t.hooks _ false now) _ _

theorem doWrite_medium (t : Transfer) (now : UInt64) (chunks : ℕ → WriteChunk) :
    MediumKept t.curlun (doWrite t now chunks).2.curlun := by
  unfold doWrite
  dsimp only
  split_ifs
  · exact ⟨Or.inl rfl, rfl⟩
  · exact ⟨Or.inl rfl, rfl⟩
  · exact ⟨Or.inl rfl, rfl⟩
  · refine MediumKept.trans ?_ (writeLoop_medium chunks _ _)
    exact ⟨Or.inl rfl, rfl⟩

theorem verifyLoop_medium (chunks : ℕ → Option ℕ × Bool) (k : ℕ) (lun : FsgLun)
    (fileOffset amountLeft : ℕ) :
    MediumKept lun (verifyLoop chunks k lun fileOffset amountLeft).2 := by
  fun_induction verifyLoop chunks k lun fileOffset amountLeft
  all_goals try exact ⟨Or.inl rfl, rfl⟩
  rename_i ih
  exact ih

theorem handleScsi_medium {lun : FsgLun} {c : FsgCommon} (h : MediumLeft lun c) (io : CommandIo)
    (cmd : ScsiCommand) : MediumLeft lun (handleScsi io cmd c).2 := by
  obtain ⟨lun', hc, hkept⟩ := h
  have h : MediumLeft lun c := ⟨lun', hc, hkept⟩
  cases cmd <;> simp only [handleScsi, hc]
  case read6 | read10 | read12 | read16 =>
    exact ⟨_, rfl, hkept.trans (doRead_medium (c.begin lun' io.transfer) io.now io.reads)⟩
  case write6 | write10 | write12 | write16 =>
    exact ⟨_, rfl, hkept.trans (doWrite_medium (c.begin lun' io.transfer) io.now io.writes)⟩
  case requestSense =>
    simp only [doRequestSense, hc]
    exact ⟨_, rfl, hkept.trans ⟨Or.inl rfl, rfl⟩⟩
  case allowMediumRemoval =>
    simp only [doPreventAllow, hc]
    split_ifs <;> first
      | exact h.setSense _
      | exact ⟨_, congrArg (Option.map _) hc, hkept.trans ⟨Or.inl rfl, rfl⟩⟩
  case startStop =>
    simp only [doStartStop, hc]
    split_ifs <;> first
      | exact h
      | exact h.setSense _
      | exact ⟨_, congrArg (Option.map _) hc, hkept.trans ⟨Or.inr rfl, rfl⟩⟩
  case verify =>
    simp only [doVerify]
    split_ifs <;> first
      | exact h
      | exact h.setSense _
      | exact ⟨_, rfl, hkept.trans (verifyLoop_medium _ _ _ _ _)⟩
  case inquiry =>
    simp only [doInquiry, hc]
    exact h
  case testUnitReady | readFormatCapacities => exact h
  case modeSelect | modeSelect10 | unknown => exact h.setSense _
  -- all others at most set sense data
  all_goals
    simp only [doSynchronizeCache, doReadCapacity, doReadToc, doModeSense, doReadHeader]
    split_ifs <;> first
      | exact h
      | exact h.setSense _

/-- No command puts a medium in, and none changes the geometry or the flags of the LUN. -/
theorem doScsiCommand_medium {lun : FsgLun} {c : FsgCommon} (hc : c.curlun = some lun)
    (io : CommandIo) : MediumLeft lun (doScsiCommand io c).2 := by
  have hleft := checkScsi_medium hc
  rw [MediumLeft, (doScsiCommand_snd io c).1, scsiSwitch]
  cases hcheck : checkScsi { c with phaseError := false } with
  | error c' =>
    rw [hcheck] at hleft
    exact hleft
  | ok c' =>
    rw [hcheck] at hleft
    exact handleScsi_medium hleft io _

/-! ### The bytes of a command -/

/-- The transfer a READ or a WRITE that passed its check starts, and whether it is a WRITE. -/
def startTransfer (io : CommandIo) (c : FsgCommon) : Option (Bool × Transfer) :=
  match checkScsi { c with phaseError := false } with
  | .error _ => none
  | .ok c' =>
    match scsiCommand c, c'.curlun with
    | .read6, some lun | .read10, some lun | .read12, some lun | .read16, some lun =>
      some (false, c'.begin lun io.transfer)
    | .write6, some lun | .write10, some lun | .write12, some lun | .write16, some lun =>
      some (true, c'.begin lun io.transfer)
    | _, _ => none

/-- The data the host announced, what the command claims of them, what is left of them, how
many were not asked for yet, and whether there is a LUN. -/
structure Sizes where
  dataDir : DataDirection
  dataSize : UInt32
  dataSizeFromCmnd : UInt32
  residue : UInt32
  usbAmountLeft : UInt32
  hasLun : Bool

def FsgCommon.sizes (c : FsgCommon) : Sizes :=
  ⟨c.dataDir, c.dataSize, c.dataSizeFromCmnd, c.residue, c.usbAmountLeft, c.curlun.isSome⟩

theorem Checked.sizes_bind {x : Checked} {g : FsgCommon → Checked} {c : FsgCommon}
    (hx : x.state.sizes = c.sizes) (hg : ∀ c', (g c').state.sizes = c'.sizes) :
    (Checked.state (x >>= g)).sizes = c.sizes := by
  cases x with
  | error c' => exact hx
  | ok c' => exact (hg c').trans hx

@[simp] theorem setSense_sizes (c : FsgCommon) (sense : ℕ) :
    (c.setSense sense).sizes = c.sizes := by
  simp only [FsgCommon.sizes, FsgCommon.setSense, FsgCommon.mapLun, Option.isSome_map]

theorem checkOnLun_sizes (mask : ℕ) (needsMedium : Bool) (c : FsgCommon) :
    (checkOnLun mask needsMedium c).state.sizes = c.sizes := by
  have hlun : (checkLun c).state.sizes = c.sizes := by
    unfold checkLun
    split
    all_goals
      rename_i hc
      dsimp only
      split_ifs <;> simp only [Checked.state, FsgCommon.sizes, hc, Option.isSome_some]
  have hattention (c : FsgCommon) : (checkUnitAttention c).state.sizes = c.sizes := by
    unfold checkUnitAttention
    split
    · rename_i hc
      split_ifs <;> simp only [Checked.state, FsgCommon.sizes, hc, Option.isSome_some]
    · rfl
  have hmask (c : FsgCommon) : (checkMask mask c).state.sizes = c.sizes := by
    unfold checkMask
    dsimp only
    split_ifs
    · rfl
    · exact setSense_sizes _ _
  have hmedium (c : FsgCommon) : (checkMedium needsMedium c).state.sizes = c.sizes := by
    unfold checkMedium
    split
    · split_ifs
      · exact setSense_sizes _ _
      · rfl
    · rfl
  exact Checked.sizes_bind hlun fun c => Checked.sizes_bind (hattention c) fun c =>
    Checked.sizes_bind (hmask c) hmedium

/-- Nothing of the data is moved yet, and no more is claimed of them than there are. -/
structure Untouched (c c' : FsgCommon) : Prop where
  claimed : c'.dataSizeFromCmnd ≤ c.dataSize
  sizes : c'.sizes =
    ⟨c.dataDir, c.dataSize, c'.dataSizeFromCmnd, c.dataSize, c.dataSize, c.curlun.isSome⟩

theorem checkDataSize_untouched (c : FsgCommon) : Untouched c (checkDataSize c) := by
  unfold checkDataSize
  dsimp only
  split_ifs with hcut
  · exact ⟨UInt32.le_refl _, rfl⟩
  · exact ⟨UInt32.not_lt.mp hcut, rfl⟩

theorem Untouched.of_sizes {c c' c'' : FsgCommon} (h : Untouched c c')
    (hsizes : c''.sizes = c'.sizes) : Untouched c c'' := by
  have hclaimed : c''.dataSizeFromCmnd = c'.dataSizeFromCmnd := congrArg Sizes.dataSizeFromCmnd hsizes
  exact ⟨by rw [hclaimed]; exact h.claimed, by rw [hsizes, h.sizes, hclaimed]⟩

section Untouched
variable {c c' : FsgCommon}

theorem Untouched.residue (h : Untouched c c') : c'.residue = c.dataSize :=
  congrArg Sizes.residue h.sizes

theorem Untouched.usbAmountLeft (h : Untouched c c') : c'.usbAmountLeft = c.dataSize :=
  congrArg Sizes.usbAmountLeft h.sizes

theorem Untouched.dataDir (h : Untouched c c') : c'.dataDir = c.dataDir :=
  congrArg Sizes.dataDir h.sizes

theorem Untouched.dataSize (h : Untouched c c') : c'.dataSize = c.dataSize :=
  congrArg Sizes.dataSize h.sizes

theorem Untouched.isSome (h : Untouched c c') : c'.curlun.isSome = c.curlun.isSome :=
  congrArg Sizes.hasLun h.sizes

end Untouched

theorem checkForm_sizes (c : FsgCommon) (cmndSize : ℕ) (dataDir : DataDirection) :
    (checkForm c cmndSize dataDir).state.sizes = (checkDataSize c).sizes := by
  refine Checked.sizes_bind ?_ fun c => ?_
  · unfold checkDirection
    split_ifs <;> rfl
  · unfold checkCommandLength
    split_ifs <;> rfl

theorem checkScsi_untouched (c : FsgCommon) :
    Untouched c (checkScsi { c with phaseError := false }).state := by
  have hclaim : Untouched c (checkDataSize c.claim) := by
    obtain ⟨hle, hsizes⟩ := checkDataSize_untouched c.claim
    exact ⟨hle, hsizes⟩
  refine hclaim.of_sizes ?_
  rw [checkScsi_eq]
  exact Checked.sizes_bind (checkForm_sizes _ _ _) fun c => checkOnLun_sizes _ _ c

theorem startTransfer_some {io : CommandIo} {c : FsgCommon} {isWrite : Bool} {t : Transfer}
    (h : startTransfer io c = some (isWrite, t)) :
    ∃ c' lun', checkScsi { c with phaseError := false } = .ok c' ∧ c'.curlun = some lun' ∧
      t = c'.begin lun' io.transfer ∧
      handleScsi io (scsiCommand c) c' =
        c'.finish (if isWrite then doWrite t io.now io.writes else doRead t io.now io.reads) := by
  unfold startTransfer at h
  split at h
  · cases h
  · rename_i c' hcheck
    refine ⟨c', ?_⟩
    split at h
    all_goals
      cases h
    all_goals
      rename_i lun' hcmd hlun
      refine ⟨lun', hcheck, hlun, rfl, ?_⟩
      simp only [hcmd, handleScsi, hlun, if_true, Bool.false_eq_true, if_false]

theorem setReply_zero (c : FsgCommon) : setReply c 0 = c := by
  unfold setReply
  split_ifs
  · have hmin : min (UInt32.ofNat 0) c.dataSizeFromCmnd = 0 := if_pos (UInt32.zero_le)
    rw [hmin, UInt32.sub_zero]
  · rfl

/-- The transfer a command starts is for the LUN, and stays within the data the host
announced. -/
theorem startTransfer_spec {io : CommandIo} {c : FsgCommon} {isWrite : Bool} {t : Transfer}
    {lun : FsgLun} (hc : c.curlun = some lun) (h : startTransfer io c = some (isWrite, t)) :
    MediumKept lun t.curlun ∧ t.dataSizeFromCmnd.toNat ≤ t.residue.toNat ∧
      t.usbAmountLeft = t.residue ∧ t.residue = c.dataSize := by
  obtain ⟨c', lun', hcheck, hlun, rfl, -⟩ := startTransfer_some h
  have huntouched := checkScsi_untouched c
  have hleft := checkScsi_medium hc
  rw [hcheck] at huntouched hleft
  obtain ⟨lun₁, hlun₁, hkept⟩ := hleft
  obtain rfl : lun' = lun₁ := Option.some.inj (hlun.symm.trans hlun₁)
  have hle := huntouched.claimed
  rw [← huntouched.residue] at hle
  exact ⟨hkept, UInt32.le_iff_toNat_le.mp hle,
    huntouched.usbAmountLeft.trans huntouched.residue.symm, huntouched.residue⟩

/-- The residue of the status is the one the loop left. -/
theorem doScsiCommand_residue {io : CommandIo} {c c₂ : FsgCommon} {isWrite : Bool} {t : Transfer}
    (h : startTransfer io c = some (isWrite, t)) (hdone : doScsiCommand io c = (true, c₂)) :
    let r := if isWrite then doWrite t io.now io.writes else doRead t io.now io.reads
    r.1 ≠ .EINTR ∧ c₂.residue = r.2.residue := by
  obtain ⟨c', lun', hcheck, hlun, -, hhandle⟩ := startTransfer_some h
  have hswitch : scsiSwitch io { c with phaseError := false } = c'.finish
      (if isWrite then doWrite t io.now io.writes else doRead t io.now io.reads) := by
    rw [scsiSwitch, hcheck]
    exact hhandle
  rw [doScsiCommand, hswitch] at hdone
  generalize (if isWrite then doWrite t io.now io.writes else doRead t io.now io.reads) = r
    at hdone ⊢
  obtain ⟨e, t'⟩ := r
  simp only [FsgCommon.finish] at hdone
  split_ifs at hdone
  · cases hdone
  · split at hdone
    · cases hdone
    · rename_i heq
      cases heq
      rw [setReply_zero] at hdone
      cases hdone
      exact ⟨Errno.noConfusion, rfl⟩
    · rename_i hintr hinval heq
      cases heq
      cases hdone
      exact ⟨hintr, rfl⟩
    · rename_i heq
      cases heq

/-- A transfer the loop ended by itself is followed by its status. -/
theorem doScsiCommand_reply {io : CommandIo} {c : FsgCommon} {isWrite : Bool} {t : Transfer}
    (h : startTransfer io c = some (isWrite, t)) (hsignal : io.signal = false)
    (hreply : (if isWrite then doWrite t io.now io.writes else doRead t io.now io.reads).1 =
      noDefaultReply) :
    ∃ c₂, doScsiCommand io c = (true, c₂) ∧ c₂.residue =
      (if isWrite then doWrite t io.now io.writes else doRead t io.now io.reads).2.residue := by
  obtain ⟨c', lun', hcheck, hlun, -, hhandle⟩ := startTransfer_some h
  have hswitch : scsiSwitch io { c with phaseError := false } = c'.finish
      (if isWrite then doWrite t io.now io.writes else doRead t io.now io.reads) := by
    rw [scsiSwitch, hcheck]
    exact hhandle
  rw [doScsiCommand, hswitch]
  generalize (if isWrite then doWrite t io.now io.writes else doRead t io.now io.reads) = r
    at hreply ⊢
  obtain ⟨e, t'⟩ := r
  obtain rfl : e = Errno.EIO := hreply
  simp only [FsgCommon.finish, hsignal, Bool.false_eq_true, if_false]
  exact ⟨_, rfl, rfl⟩

/-! ### The drive -/

/-- The attributes that neither name a file nor set the read-only flag alone. -/
inductive LunAttribute
  | nofua
  | cdrom
  | removable
  | forcedEject
  deriving DecidableEq, Repr

def LunAttribute.store (a : LunAttribute) (lun : FsgLun) (buf : Text) : Except Errno FsgLun :=
  match a with
  | .nofua => fsgStoreNofua lun buf
  | .cdrom => fsgStoreCdrom lun buf
  | .removable => fsgStoreRemovable lun buf
  | .forcedEject => fsgStoreForcedEject (fun _ _ => .error .ENOENT) lun

/-- The thread, and the bytes of the files by the names they are opened by. -/
structure Drive where
  thread : FsgThread
  files : Text → Contents

/-- An event at the bus, with the bytes the host sends in it, or a store to an attribute. -/
inductive DriveEvent
  | bus (e : BusEvent Unit) (data : ℕ → UInt8)
  | store (a : LunAttribute) (buf : Text)

/-- A transfer between the host and a file. -/
structure Access where
  file : Text
  isWrite : Bool
  transfer : Transfer
  io : CommandIo

/-- The transfer an event starts, on the file in the drive. -/
def Drive.access (d : Drive) : DriveEvent → Option Access
  | .bus (.command number cmd io) _ =>
    match d.thread.loop, d.thread.lun.filp with
    | .nextCommand, some f =>
      (startTransfer io (receivedCbw d.thread.lun number cmd)).map fun r => ⟨f.name, r.1, r.2, io⟩
    | _, _ => none
  | _ => none

/-- The bytes the host sends in an event. -/
def DriveEvent.data : DriveEvent → ℕ → UInt8
  | .bus _ data => data
  | .store .. => fun _ => 0

def Drive.filesAfter (d : Drive) (e : DriveEvent) : Text → Contents :=
  match d.access e with
  | some ⟨file, true, t, io⟩ =>
    Function.update d.files file (doWriteBytes t (d.files file) io.now io.writes e.data).2.1
  | _ => d.files

def Drive.step (d : Drive) (e : DriveEvent) : Drive where
  thread :=
    match e with
    | .bus e _ => d.thread.step e
    | .store a buf =>
      match a.store d.thread.lun buf with
      | .error _ => d.thread
      | .ok lun => { d.thread with lun }
  files := d.filesAfter e

/-- The bytes of a file that reach the host in an event. -/
def Drive.delivered (d : Drive) (e : DriveEvent) : List UInt8 :=
  match d.access e with
  | some ⟨file, false, t, io⟩ => (doReadBytes t (d.files file) io.now io.reads).2
  | _ => []

/-- The gadget when the host has just configured it, over some files. -/
def Drive.start (files : Text → Contents) : Drive := ⟨configured, files⟩

/-- What is opened is a file of the drive. -/
def Honest (d : Drive) : DriveEvent → Prop
  | .bus (.file vfs _ _) _ => ∀ name flags f, vfs name flags = .ok f →
      f.size = (d.files f.name).size ∧ ∀ bits, f.kind = .blk bits → 2 ^ bits ∣ FSG_BUFLEN
  | _ => True

/-! ### The medium in the drive -/

/-- The geometry of a LUN is that of the file `f` of `size` bytes, and it is writable only if
the file was opened for writing. A CD-ROM shows no more than its last addressable sector. -/
structure FsgLun.Backed (lun : FsgLun) (f : KFile) (size : ℕ) : Prop where
  fileLength : lun.fileLength = size
  blksize : lun.blksize = 2 ^ lun.blkbits
  buffer : lun.blksize ∣ FSG_BUFLEN
  sectors : 0 < lun.numSectors
  geometry : lun.numSectors = lun.fileLength >>> lun.blkbits ∨
    lun.blkbits = 11 ∧ 256 * 60 * 75 ≤ lun.fileLength >>> lun.blkbits ∧
      lun.numSectors = 256 * 60 * 75 - 1
  writable : lun.ro = false → f.fmodeWrite = true ∧ f.canWrite = true

theorem FsgLun.Backed.congr {lun lun' : FsgLun} {f : KFile} {size : ℕ} (h : lun.Backed f size)
    (hro : lun'.ro = lun.ro) (hlength : lun'.fileLength = lun.fileLength)
    (hsectors : lun'.numSectors = lun.numSectors) (hblkbits : lun'.blkbits = lun.blkbits)
    (hblksize : lun'.blksize = lun.blksize) : lun'.Backed f size where
  fileLength := hlength.trans h.fileLength
  blksize := by rw [hblksize, hblkbits, h.blksize]
  buffer := by rw [hblksize]; exact h.buffer
  sectors := by rw [hsectors]; exact h.sectors
  geometry := by rw [hsectors, hblkbits, hlength]; exact h.geometry
  writable h' := h.writable (hro.symm.trans h')

theorem FsgLun.Backed.kept {lun lun' : FsgLun} {f : KFile} {size : ℕ} (h : lun.Backed f size)
    (hkept : MediumKept lun lun') : lun'.Backed f size :=
  h.congr hkept.ro hkept.fileLength hkept.numSectors hkept.blkbits hkept.blksize

theorem sectorsOf_eq (lun : FsgLun) (f : KFile) :
    sectorsOf lun f = f.size >>> blockBits lun f ∨
      blockBits lun f = 11 ∧ 256 * 60 * 75 ≤ f.size >>> blockBits lun f ∧
        sectorsOf lun f = 256 * 60 * 75 - 1 := by
  unfold sectorsOf
  dsimp only
  split_ifs with hlong
  · exact Or.inr ⟨if_pos hlong.1, hlong.2, rfl⟩
  · exact Or.inl rfl

theorem blockBits_dvd {f : KFile} (lun : FsgLun)
    (hblk : ∀ bits, f.kind = .blk bits → 2 ^ bits ∣ FSG_BUFLEN) :
    2 ^ blockBits lun f ∣ FSG_BUFLEN := by
  unfold blockBits
  split_ifs
  · decide
  · cases hkind : f.kind with
    | blk bits => exact hblk bits hkind
    | reg => decide
    | other => decide

/-- A file that is opened has a sector at least, and as many as there are whole blocks in it. -/
theorem fsgLunOpen_backed {vfs : Vfs} {lun lun' : FsgLun} {filename : Text}
    (h : fsgLunOpen vfs lun filename = .ok lun')
    (hblk : ∀ flags f, vfs filename flags = .ok f → ∀ bits, f.kind = .blk bits →
      2 ^ bits ∣ FSG_BUFLEN) :
    ∃ f flags, vfs filename flags = .ok f ∧ lun'.filp = some f ∧ lun'.Backed f f.size := by
  simp only [fsgLunOpen] at h
  split at h
  · cases h
  · rename_i f hopen
    split_ifs at h with hkind hread hcd hfew hfew
    all_goals
      obtain rfl := Except.ok.inj h
      refine ⟨f, _, hopen, rfl, rfl, rfl, blockBits_dvd lun (hblk _ f hopen), ?_,
        sectorsOf_eq lun f, fun hro => ?_⟩
      · exact lt_of_lt_of_le (by decide) (not_lt.mp hfew)
      · simp only [Bool.or_eq_false_iff, Bool.not_eq_false'] at hro
        exact ⟨hro.1.2, hro.2⟩

/-- What the LUN says of the medium is so, for files of these sizes. -/
def FsgLun.Describes (lun : FsgLun) (files : Text → Contents) : Prop :=
  ∀ f, lun.filp = some f → lun.Backed f (files f.name).size

section LunSteps
variable {lun lun' : FsgLun} {files : Text → Contents}

theorem FsgLun.Describes.kept (h : lun.Describes files) (hkept : MediumKept lun lun') :
    lun'.Describes files := by
  intro f hf
  rcases hkept.filp with heq | hnone
  · exact (h f (heq.symm.trans hf)).kept hkept
  · rw [hnone] at hf
    cases hf

theorem FsgLun.Describes.closed (hnone : lun.filp = none) : lun.Describes files := by
  intro f hf
  rw [hnone] at hf
  cases hf

theorem FsgLun.Describes.load (h : lun.Describes files) {vfs : Vfs} {filename : Text}
    (hvfs : ∀ name flags f, vfs name flags = .ok f →
      f.size = (files f.name).size ∧ ∀ bits, f.kind = .blk bits → 2 ^ bits ∣ FSG_BUFLEN)
    (hload : loadMedium vfs lun filename = .ok lun') : lun'.Describes files := by
  unfold loadMedium at hload
  split_ifs at hload with hname hopen
  · split at hload
    · cases hload
    · rename_i lun₁ hlun₁
      obtain rfl := Except.ok.inj hload
      obtain ⟨f, flags, hf, hfilp, hbacked⟩ := fsgLunOpen_backed hlun₁
        fun flags f hf => (hvfs filename flags f hf).2
      intro f' hf'
      obtain rfl : f = f' := Option.some.inj (hfilp.symm.trans hf')
      rw [← (hvfs filename flags f hf).1]
      exact hbacked.congr rfl rfl rfl rfl rfl
  · obtain rfl := Except.ok.inj hload
    exact .closed rfl
  · obtain rfl := Except.ok.inj hload
    exact h

end LunSteps

/-- A medium in the drive is a file the LUN describes. -/
def Drive.Valid (d : Drive) : Prop := d.thread.lun.Describes d.files

/-- All that can happen to the LUN in a step. -/
inductive LunMove (lun : FsgLun) (e : DriveEvent) (lun' : FsgLun) : Prop
  | kept (h : MediumKept lun lun')
  | load (vfs : Vfs) (filename : Text) (disk : Unit) (data : ℕ → UInt8)
    (he : e = .bus (.file vfs filename disk) data) (h : loadMedium vfs lun filename = .ok lun')
  | setRo (ro : Bool) (hclosed : lun.filp = none)
    (h : MediumKept { lun with ro := ro, initiallyRo := ro } lun')
    (he : ro = false → ∃ buf data, e = .bus (.ro buf) data ∧ kstrtobool buf = .ok false)

theorem fsgSetRo_ok {lun lun' : FsgLun} {ro : Bool} (h : fsgSetRo lun ro = .ok lun') :
    lun.filp = none ∧ lun' = { lun with ro := ro, initiallyRo := ro } := by
  unfold fsgSetRo at h
  split_ifs at h with hopen
  exact ⟨FsgLun.not_isOpen_iff.mp (eq_false_of_ne_true hopen), (Except.ok.inj h).symm⟩

theorem LunAttribute.store_move {a : LunAttribute} {lun lun' : FsgLun} {buf : Text}
    (h : a.store lun buf = .ok lun') : LunMove lun (.store a buf) lun' := by
  cases a with
  | nofua =>
    simp only [LunAttribute.store, fsgStoreNofua] at h
    split at h
    · cases h
    · obtain rfl := Except.ok.inj h
      exact .kept ⟨Or.inl rfl, rfl⟩
  | cdrom =>
    simp only [LunAttribute.store, fsgStoreCdrom] at h
    split at h
    · cases h
    · split at h
      · cases h
      · rename_i cdrom _ lun₁ hro
        obtain rfl := Except.ok.inj h
        split_ifs at hro
        · obtain ⟨hclosed, rfl⟩ := fsgSetRo_ok hro
          exact .setRo true hclosed ⟨Or.inl rfl, rfl⟩ Bool.noConfusion
        · obtain rfl := Except.ok.inj hro
          exact .kept ⟨Or.inl rfl, rfl⟩
  | removable =>
    simp only [LunAttribute.store, fsgStoreRemovable] at h
    split at h
    · cases h
    · obtain rfl := Except.ok.inj h
      exact .kept ⟨Or.inl rfl, rfl⟩
  | forcedEject =>
    simp only [LunAttribute.store, fsgStoreForcedEject, fsgStoreFile, Bool.false_eq_true,
      false_and, if_false] at h
    split_ifs at h with hname hopen
    · exact absurd rfl hname
    · obtain rfl := Except.ok.inj h
      exact .kept ⟨Or.inr rfl, rfl⟩
    · obtain rfl := Except.ok.inj h
      exact .kept ⟨Or.inl rfl, rfl⟩

theorem Drive.lun_move (d : Drive) (e : DriveEvent) :
    LunMove d.thread.lun e (d.step e).thread.lun := by
  have hrefl : LunMove d.thread.lun e d.thread.lun := .kept (.refl _)
  cases e with
  | store a buf =>
    simp only [Drive.step]
    split
    · exact hrefl
    · exact LunAttribute.store_move ‹_›
  | bus e data =>
    cases e with
    | file vfs filename disk =>
      simp only [Drive.step, FsgThread.step]
      split
      · exact hrefl
      · exact .load vfs filename disk data rfl ‹_›
    | ro buf =>
      simp only [Drive.step, FsgThread.step]
      split
      · exact hrefl
      · rename_i lun' hro
        unfold fsgStoreRo at hro
        split at hro
        · cases hro
        · rename_i ro hbuf
          obtain ⟨hclosed, rfl⟩ := fsgSetRo_ok hro
          exact .setRo ro hclosed (.refl _) fun hfalse => ⟨buf, data, rfl, hfalse ▸ hbuf⟩
    | command number cmd io =>
      simp only [Drive.step, FsgThread.step]
      split
      · dsimp only
        split_ifs with hnumber
        · obtain ⟨lun', hlun', hkept⟩ := doScsiCommand_medium
            (show (receivedCbw d.thread.lun number cmd).curlun = some d.thread.lun from
              if_pos hnumber) io
          rw [hlun']
          exact .kept hkept
        · exact hrefl
      · exact hrefl
    | status =>
      simp only [Drive.step, FsgThread.step]
      split <;> exact hrefl
    -- a reset forgets a unit attention at most
    | exception oldState =>
      have hreset : LunMove d.thread.lun (.bus (.exception oldState) data)
          (handleException oldState d.thread.lun) := by
        unfold handleException
        split_ifs
        · exact .kept ⟨Or.inl rfl, rfl⟩
        · exact hrefl
      simp only [Drive.step, FsgThread.step]
      split
      · exact hrefl
      · exact hrefl
      · exact hreset

theorem Drive.Valid.thread {d : Drive} (h : d.Valid) {e : DriveEvent} (hhonest : Honest d e) :
    (d.step e).thread.lun.Describes d.files := by
  cases d.lun_move e with
  | kept hkept => exact FsgLun.Describes.kept h hkept
  | load vfs filename disk data he hload =>
    subst he
    exact FsgLun.Describes.load h hhonest hload
  | setRo ro hclosed hkept he => exact .closed (hkept.filp.elim (fun heq => heq.trans hclosed) id)

/-! ### A read-only image -/

/-- If the file of this name is in the drive, the LUN is read-only. -/
def FsgLun.Shields (lun : FsgLun) (name : Text) : Prop :=
  ∀ f, lun.filp = some f → f.name = name → lun.ro = true

/-- The file of this name is put into the drive only while the drive is set read-only. -/
def InsertedRo (name : Text) (d : Drive) : DriveEvent → Prop
  | .bus (.file vfs filename _) _ =>
    (∃ flags f, vfs filename flags = .ok f ∧ f.name = name) → d.thread.lun.initiallyRo = true
  | _ => True

theorem MediumKept.shields {lun lun' : FsgLun} (hkept : MediumKept lun lun') {name : Text}
    (h : lun.Shields name) : lun'.Shields name := by
  intro f hf hname
  rcases hkept.filp with heq | hnone
  · exact hkept.ro.trans (h f (heq.symm.trans hf) hname)
  · rw [hnone] at hf
    cases hf

theorem Drive.shields_step {d : Drive} {name : Text} (h : d.thread.lun.Shields name)
    {e : DriveEvent} (hinserted : InsertedRo name d e) : (d.step e).thread.lun.Shields name := by
  cases d.lun_move e with
  | kept hkept => exact hkept.shields h
  | load vfs filename disk data he hload =>
    subst he
    unfold loadMedium at hload
    split_ifs at hload
    · split at hload
      · cases hload
      · rename_i lun₁ hlun₁
        obtain ⟨f, hf, rfl⟩ := fsgLunOpen_ok hlun₁
        rw [← Except.ok.inj hload]
        intro f' hf' hname
        obtain rfl : f = f' := Option.some.inj hf'
        have hro := hinserted ⟨_, f, hf, hname⟩
        simp only [openedReadOnly, hro, Bool.true_or]
    · have hkept : MediumKept d.thread.lun
          (d.step (.bus (.file vfs filename disk) data)).thread.lun := by
        rw [← Except.ok.inj hload]
        exact ⟨Or.inr rfl, rfl⟩
      exact hkept.shields h
    · rw [← Except.ok.inj hload]
      exact h
  | setRo ro hclosed hkept he =>
    refine hkept.shields fun f hf => ?_
    cases hclosed.symm.trans hf

end UsbFloppy.Kernel
