import UsbFloppy.Kernel.Lun

/-! How f_floppy.c checks a SCSI command, and the two commands a host may send between
the service's writes: PREVENT-ALLOW MEDIUM REMOVAL and START-STOP UNIT. -/

namespace UsbFloppy.Kernel

inductive DataDirection
  | unknown
  | fromHost
  | toHost
  | none
  deriving DecidableEq, Repr

/-- The parts of `struct fsg_common` that a command is checked against. -/
structure FsgCommon where
  cmnd : ℕ → UInt8
  cmndSize : ℕ
  dataDir : DataDirection
  dataSize : UInt32
  dataSizeFromCmnd : UInt32
  residue : UInt32
  usbAmountLeft : UInt32
  phaseError : Bool
  badLunOkay : Bool
  curlun : Option FsgLun

def INQUIRY : UInt8 := 0x12
def REQUEST_SENSE : UInt8 := 0x03
def START_STOP : UInt8 := 0x1b
def ALLOW_MEDIUM_REMOVAL : UInt8 := 0x1e

/-- A command either goes on with a state or is refused with `-EINVAL` in a state. -/
abbrev Checked := Except FsgCommon FsgCommon

def FsgCommon.mapLun (c : FsgCommon) (f : FsgLun → FsgLun) : FsgCommon :=
  { c with curlun := c.curlun.map f }

def FsgCommon.setSense (c : FsgCommon) (sense : ℕ) : FsgCommon :=
  c.mapLun fun lun => { lun with senseData := sense }

/-- Host data size below device data size is a phase error; the transfer is cut down. -/
def checkDataSize (c : FsgCommon) : FsgCommon :=
  let c :=
    if c.dataSize < c.dataSizeFromCmnd then
      { c with dataSizeFromCmnd := c.dataSize, phaseError := true }
    else c
  { c with residue := c.dataSize, usbAmountLeft := c.dataSize }

def checkDirection (dataDir : DataDirection) (c : FsgCommon) : Checked :=
  if c.dataDir ≠ dataDir ∧ c.dataSizeFromCmnd > 0 then .error { c with phaseError := true }
  else .ok c

/-- The host may send more command bytes than needed, but not fewer. -/
def checkCommandLength (cmndSize : ℕ) (c : FsgCommon) : Checked :=
  if c.cmndSize < cmndSize then .error { c with phaseError := true } else .ok c

def checkLun (c : FsgCommon) : Checked :=
  match c.curlun with
  | some lun =>
    if c.cmnd 0 ≠ REQUEST_SENSE then
      let lun := { lun with senseData := SS_NO_SENSE, senseDataInfo := 0, infoValid := false }
      .ok { c with curlun := some lun }
    else .ok c
  | none =>
    let c := { c with badLunOkay := false }
    if c.cmnd 0 ≠ INQUIRY ∧ c.cmnd 0 ≠ REQUEST_SENSE then .error c else .ok c

/-- A pending unit attention fails the command and becomes its sense data. -/
def checkUnitAttention (c : FsgCommon) : Checked :=
  match c.curlun with
  | some lun =>
    if lun.unitAttentionData ≠ SS_NO_SENSE ∧ c.cmnd 0 ≠ INQUIRY ∧ c.cmnd 0 ≠ REQUEST_SENSE then
      let lun := { lun with
        senseData := lun.unitAttentionData, unitAttentionData := SS_NO_SENSE }
      .error { c with curlun := some lun }
    else .ok c
  | none => .ok c

/-- Only the command bytes in the mask may be non-zero. -/
def checkMask (mask : ℕ) (c : FsgCommon) : Checked :=
  let c := { c with cmnd := fun i => if i = 1 then c.cmnd 1 &&& 0x1f else c.cmnd i }
  if (List.range c.cmndSize).all fun i => i = 0 ∨ c.cmnd i = 0 ∨ mask.testBit i then .ok c
  else .error (c.setSense SS_INVALID_FIELD_IN_CDB)

def checkMedium (needsMedium : Bool) (c : FsgCommon) : Checked :=
  match c.curlun with
  | some lun =>
    if lun.isOpen = false ∧ needsMedium then .error (c.setSense SS_MEDIUM_NOT_PRESENT) else .ok c
  | none => .ok c

/-- `check_command`. Past the length check the longer of the two lengths is scanned, which
is the one the host sent. -/
def checkCommand (c : FsgCommon) (cmndSize : ℕ) (dataDir : DataDirection) (mask : ℕ)
    (needsMedium : Bool) : Checked := do
  let dataDir := if c.dataSizeFromCmnd = 0 then .none else dataDir
  let c ← checkDirection dataDir (checkDataSize c)
  let c ← checkCommandLength cmndSize c
  let c ← checkLun c
  let c ← checkUnitAttention c
  let c ← checkMask mask c
  checkMedium needsMedium c

def doStartStop (c : FsgCommon) : Checked :=
  match c.curlun with
  | none => .error c
  | some lun =>
    if lun.removable = false then .error (c.setSense SS_INVALID_COMMAND)
    else if c.cmnd 1 &&& ~~~0x01 ≠ 0 ∨ c.cmnd 4 &&& ~~~0x03 ≠ 0 then
      .error (c.setSense SS_INVALID_FIELD_IN_CDB)
    else if c.cmnd 4 &&& 0x01 ≠ 0 then
      if lun.isOpen = false then .error (c.setSense SS_MEDIUM_NOT_PRESENT) else .ok c
    else if lun.preventMediumRemoval then .error (c.setSense SS_MEDIUM_REMOVAL_PREVENTED)
    else if c.cmnd 4 &&& 0x02 = 0 then .ok c
    else .ok (c.mapLun fsgLunClose)

def doPreventAllow (c : FsgCommon) : Checked :=
  match c.curlun with
  | none => .error c
  | some lun =>
    if lun.removable = false then .error (c.setSense SS_INVALID_COMMAND)
    else if c.cmnd 4 &&& ~~~0x01 ≠ 0 then .error (c.setSense SS_INVALID_FIELD_IN_CDB)
    else .ok (c.mapLun fun lun =>
      { lun with preventMediumRemoval := c.cmnd 4 &&& 0x01 ≠ 0 })

/-- A command the host sends for the LUN: its bytes, their number, and the direction and
size of the data the host announces. -/
structure HostCommand where
  cmnd : ℕ → UInt8
  cmndSize : ℕ
  dataDir : DataDirection
  dataSize : UInt32

def HostCommand.received (cmd : HostCommand) (lun : FsgLun) : FsgCommon where
  cmnd := cmd.cmnd
  cmndSize := cmd.cmndSize
  dataDir := cmd.dataDir
  dataSize := cmd.dataSize
  dataSizeFromCmnd := 0
  residue := 0
  usbAmountLeft := 0
  phaseError := false
  badLunOkay := true
  curlun := some lun

/-- The two commands of `do_scsi_command`; any other leaves the LUN to its own handler. -/
def doorCommand (c : FsgCommon) : Checked :=
  if c.cmnd 0 = ALLOW_MEDIUM_REMOVAL then do
    let c ← checkCommand { c with dataSizeFromCmnd := 0 } 6 .none (1 <<< 4) false
    doPreventAllow c
  else if c.cmnd 0 = START_STOP then do
    let c ← checkCommand { c with dataSizeFromCmnd := 0 } 6 .none (1 <<< 1 ||| 1 <<< 4) false
    doStartStop c
  else .error c

def Checked.state : Checked → FsgCommon
  | .ok c => c
  | .error c => c

/-- The LUN after the host's command. -/
def hostDoor (lun : FsgLun) (cmd : HostCommand) : FsgLun :=
  (Checked.state (doorCommand (cmd.received lun))).curlun.getD lun

/-! ### What the host's commands can do to the LUN -/

/-- A LUN after commands that may lock the door, unload the medium or answer with sense
data, but neither load a medium nor touch the flags. -/
structure DoorMoved (lun lun' : FsgLun) : Prop where
  filp : lun'.filp = lun.filp ∨ lun'.filp = none
  ro : lun'.ro = lun.ro
  initiallyRo : lun'.initiallyRo = lun.initiallyRo
  removable : lun'.removable = lun.removable
  cdrom : lun'.cdrom = lun.cdrom

theorem DoorMoved.refl (lun : FsgLun) : DoorMoved lun lun := ⟨Or.inl rfl, rfl, rfl, rfl, rfl⟩

theorem DoorMoved.trans {a b c : FsgLun} (h : DoorMoved a b) (h' : DoorMoved b c) :
    DoorMoved a c where
  filp := by
    rcases h'.filp with heq | hnone
    · rw [heq]
      exact h.filp
    · exact Or.inr hnone
  ro := h'.ro.trans h.ro
  initiallyRo := h'.initiallyRo.trans h.initiallyRo
  removable := h'.removable.trans h.removable
  cdrom := h'.cdrom.trans h.cdrom

theorem DoorMoved.closed {lun lun' : FsgLun} (h : DoorMoved lun lun') (hc : lun.isOpen = false) :
    lun'.isOpen = false := by
  rw [FsgLun.not_isOpen_iff] at hc ⊢
  rcases h.filp with heq | hnone
  · exact heq.trans hc
  · exact hnone

/-- The command's LUN is still there and was moved only as `DoorMoved` says. -/
def LunMoved (lun : FsgLun) (c : FsgCommon) : Prop :=
  ∃ lun', c.curlun = some lun' ∧ DoorMoved lun lun'

/-- Both outcomes of a check keep `LunMoved`. -/
def KeepsLun (f : FsgCommon → Checked) : Prop :=
  ∀ lun c, LunMoved lun c → LunMoved lun (f c).state

theorem LunMoved.update {lun : FsgLun} {c : FsgCommon} (h : LunMoved lun c) {f : FsgLun → FsgLun}
    (hf : ∀ lun', DoorMoved lun' (f lun')) : LunMoved lun (c.mapLun f) := by
  obtain ⟨lun', hc, hm⟩ := h
  exact ⟨f lun', by rw [FsgCommon.mapLun, hc]; rfl, hm.trans (hf lun')⟩

theorem LunMoved.setSense {lun : FsgLun} {c : FsgCommon} (h : LunMoved lun c) (sense : ℕ) :
    LunMoved lun (c.setSense sense) := h.update fun _ => ⟨Or.inl rfl, rfl, rfl, rfl, rfl⟩

theorem KeepsLun.bind {f g : FsgCommon → Checked} (hf : KeepsLun f) (hg : KeepsLun g) :
    KeepsLun fun c => f c >>= g := by
  intro lun c h
  have hfirst := hf lun c h
  change LunMoved lun (Checked.state (f c >>= g))
  cases hfc : f c with
  | error c' =>
    rw [hfc] at hfirst
    exact hfirst
  | ok c' =>
    rw [hfc] at hfirst
    exact hg lun c' hfirst

theorem keepsLun_checkDirection (dataDir : DataDirection) : KeepsLun (checkDirection dataDir) := by
  intro lun c h
  unfold checkDirection
  split_ifs <;> exact h

theorem keepsLun_checkCommandLength (n : ℕ) : KeepsLun (checkCommandLength n) := by
  intro lun c h
  unfold checkCommandLength
  split_ifs <;> exact h

theorem keepsLun_checkLun : KeepsLun checkLun := by
  rintro lun c ⟨lun', hc, hm⟩
  unfold checkLun
  rw [hc]
  dsimp only
  split_ifs
  · exact ⟨_, rfl, hm.trans ⟨Or.inl rfl, rfl, rfl, rfl, rfl⟩⟩
  · exact ⟨lun', hc, hm⟩

theorem keepsLun_checkUnitAttention : KeepsLun checkUnitAttention := by
  rintro lun c ⟨lun', hc, hm⟩
  unfold checkUnitAttention
  rw [hc]
  dsimp only
  split_ifs
  · exact ⟨_, rfl, hm.trans ⟨Or.inl rfl, rfl, rfl, rfl, rfl⟩⟩
  · exact ⟨lun', hc, hm⟩

theorem keepsLun_checkMask (mask : ℕ) : KeepsLun (checkMask mask) := by
  intro lun c h
  unfold checkMask
  dsimp only
  split_ifs
  · exact h
  · exact LunMoved.setSense h SS_INVALID_FIELD_IN_CDB

theorem keepsLun_checkMedium (needsMedium : Bool) : KeepsLun (checkMedium needsMedium) := by
  rintro lun c ⟨lun', hc, hm⟩
  unfold checkMedium
  rw [hc]
  dsimp only
  split_ifs
  · exact LunMoved.setSense ⟨lun', hc, hm⟩ SS_MEDIUM_NOT_PRESENT
  · exact ⟨lun', hc, hm⟩

theorem keepsLun_checkCommand (cmndSize : ℕ) (dataDir : DataDirection) (mask : ℕ)
    (needsMedium : Bool) : KeepsLun fun c => checkCommand c cmndSize dataDir mask needsMedium := by
  intro lun c h
  have hsize : LunMoved lun (checkDataSize c) := by
    unfold checkDataSize
    dsimp only
    split_ifs <;> exact h
  exact (keepsLun_checkDirection _).bind ((keepsLun_checkCommandLength cmndSize).bind
    (keepsLun_checkLun.bind (keepsLun_checkUnitAttention.bind ((keepsLun_checkMask mask).bind
      (keepsLun_checkMedium needsMedium))))) lun _ hsize

theorem keepsLun_doStartStop : KeepsLun doStartStop := by
  rintro lun c ⟨lun', hc, hm⟩
  have h : LunMoved lun c := ⟨lun', hc, hm⟩
  unfold doStartStop
  rw [hc]
  dsimp only
  split_ifs
  · exact h.setSense _
  · exact h.setSense _
  · exact h.setSense _
  · exact h
  · exact h.setSense _
  · exact h
  · exact h.update fun _ => ⟨Or.inr rfl, rfl, rfl, rfl, rfl⟩

theorem keepsLun_doPreventAllow : KeepsLun doPreventAllow := by
  rintro lun c ⟨lun', hc, hm⟩
  have h : LunMoved lun c := ⟨lun', hc, hm⟩
  unfold doPreventAllow
  rw [hc]
  dsimp only
  split_ifs
  · exact h.setSense _
  · exact h.setSense _
  · exact h.update fun _ => ⟨Or.inl rfl, rfl, rfl, rfl, rfl⟩

theorem keepsLun_doorCommand : KeepsLun doorCommand := by
  intro lun c h
  unfold doorCommand
  split_ifs
  · exact (keepsLun_checkCommand _ _ _ _).bind keepsLun_doPreventAllow lun _ h
  · exact (keepsLun_checkCommand _ _ _ _).bind keepsLun_doStartStop lun _ h
  · exact h

/-- No command of the host loads a medium or touches the read-only flags. -/
theorem hostDoor_moved (lun : FsgLun) (cmd : HostCommand) : DoorMoved lun (hostDoor lun cmd) := by
  obtain ⟨lun', hc, hm⟩ := keepsLun_doorCommand lun (cmd.received lun) ⟨lun, rfl, .refl lun⟩
  rw [hostDoor, hc]
  exact hm

theorem hostDoors_moved (lun : FsgLun) (cmds : List HostCommand) :
    DoorMoved lun (cmds.foldl hostDoor lun) := by
  induction cmds generalizing lun with
  | nil => exact .refl lun
  | cons cmd cmds ih => exact (hostDoor_moved lun cmd).trans (ih (hostDoor lun cmd))

end UsbFloppy.Kernel
