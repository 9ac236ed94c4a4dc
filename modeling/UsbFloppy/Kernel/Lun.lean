import Mathlib.Tactic.SplitIfs
import UsbFloppy.Kernel.Basic

/-! The LUN of storage_common.c and its store handlers. A handler that fails leaves the
LUN as it was, so it returns either an error or the new LUN. The number of bytes a
successful store reports is the number it was given and is left out. -/

namespace UsbFloppy.Kernel

inductive FileKind
  | reg
  /-- A block device with blocks of `2 ^ bits` bytes. -/
  | blk (bits : ℕ)
  | other
  deriving DecidableEq, Repr

/-- The parts of a `struct file` that `fsg_lun_open` looks at, and the name it was opened by. -/
structure KFile where
  name : Text
  kind : FileKind
  size : ℕ
  fmodeWrite : Bool
  canRead : Bool
  canWrite : Bool
  deriving DecidableEq, Repr

inductive OpenFlags
  | rdwr
  | rdonly
  deriving DecidableEq, Repr

/-- `filp_open`. -/
abbrev Vfs := Text → OpenFlags → Except Errno KFile

def SS_NO_SENSE : ℕ := 0
def SS_INVALID_COMMAND : ℕ := 0x052000
def SS_INVALID_FIELD_IN_CDB : ℕ := 0x052400
def SS_LOGICAL_BLOCK_ADDRESS_OUT_OF_RANGE : ℕ := 0x052100
def SS_MEDIUM_NOT_PRESENT : ℕ := 0x023a00
def SS_MEDIUM_REMOVAL_PREVENTED : ℕ := 0x055302
def SS_NOT_READY_TO_READY_TRANSITION : ℕ := 0x062800
def SS_COMMUNICATION_FAILURE : ℕ := 0x040800
def SS_UNRECOVERED_READ_ERROR : ℕ := 0x031100
def SS_WRITE_ERROR : ℕ := 0x030c02
def SS_WRITE_PROTECTED : ℕ := 0x072700

structure FsgLun where
  filp : Option KFile
  fileLength : ℕ
  numSectors : ℕ
  initiallyRo : Bool
  ro : Bool
  removable : Bool
  cdrom : Bool
  preventMediumRemoval : Bool
  infoValid : Bool
  nofua : Bool
  senseData : ℕ
  senseDataInfo : ℕ
  unitAttentionData : ℕ
  blkbits : ℕ
  blksize : ℕ
  deriving DecidableEq, Repr

/-- The LUN `fsg_common_create_lun` makes for a removable drive without a file. -/
def removableLun : FsgLun where
  filp := none
  fileLength := 0
  numSectors := 0
  initiallyRo := false
  ro := false
  removable := true
  cdrom := false
  preventMediumRemoval := false
  infoValid := false
  nofua := false
  senseData := SS_NO_SENSE
  senseDataInfo := 0
  unitAttentionData := SS_NO_SENSE
  blkbits := 0
  blksize := 0

def FsgLun.isOpen (lun : FsgLun) : Bool := lun.filp.isSome

def fsgLunClose (lun : FsgLun) : FsgLun := { lun with filp := none }

/-- Read-write if we can, read-only if we must. -/
def openedReadOnly (vfs : Vfs) (lun : FsgLun) (filename : Text) : Bool :=
  lun.initiallyRo ||
    match vfs filename .rdwr with
    | .error e => e = .EROFS ∨ e = .EACCES
    | .ok _ => false

def blockBits (lun : FsgLun) (filp : KFile) : ℕ :=
  if lun.cdrom then 11
  else match filp.kind with
    | .blk bits => bits
    | _ => 9

def sectorsOf (lun : FsgLun) (filp : KFile) : ℕ :=
  let numSectors := filp.size >>> blockBits lun filp
  if lun.cdrom ∧ numSectors ≥ 256 * 60 * 75 then 256 * 60 * 75 - 1 else numSectors

def fsgLunOpen (vfs : Vfs) (lun : FsgLun) (filename : Text) : Except Errno FsgLun :=
  let ro := openedReadOnly vfs lun filename
  match vfs filename (if ro then .rdonly else .rdwr) with
  | .error e => .error e
  | .ok filp =>
    if filp.kind = .other then .error .EINVAL
    else if ¬ filp.canRead then .error .EINVAL
    else if sectorsOf lun filp < (if lun.cdrom then 300 else 1) then .error .ETOOSMALL
    else .ok
      { fsgLunClose lun with
        blksize := 2 ^ blockBits lun filp
        blkbits := blockBits lun filp
        ro := ro || !filp.fmodeWrite || !filp.canWrite
        filp := some filp
        fileLength := filp.size
        numSectors := sectorsOf lun filp }

/-- `_fsg_store_ro`. -/
def fsgSetRo (lun : FsgLun) (ro : Bool) : Except Errno FsgLun :=
  if lun.isOpen then .error .EBUSY else .ok { lun with ro := ro, initiallyRo := ro }

def fsgStoreRo (lun : FsgLun) (buf : Text) : Except Errno FsgLun :=
  match kstrtobool buf with
  | .error e => .error e
  | .ok ro => fsgSetRo lun ro

/-- The text without one trailing newline. -/
def chomp (buf : Text) : Text := if buf.getLast? = some '\n' then buf.dropLast else buf

def fsgStoreFile (vfs : Vfs) (lun : FsgLun) (buf : Text) : Except Errno FsgLun :=
  if lun.preventMediumRemoval ∧ lun.isOpen then .error .EBUSY
  else if chomp buf ≠ [] then
    match fsgLunOpen vfs lun (chomp buf) with
    | .error e => .error e
    | .ok lun => .ok { lun with unitAttentionData := SS_NOT_READY_TO_READY_TRANSITION }
  else if lun.isOpen then
    .ok { fsgLunClose lun with unitAttentionData := SS_MEDIUM_NOT_PRESENT }
  else .ok lun

def fsgStoreNofua (lun : FsgLun) (buf : Text) : Except Errno FsgLun :=
  match kstrtobool buf with
  | .error e => .error e
  | .ok nofua => .ok { lun with nofua }

/-- A CD-ROM is read-only, so that it cannot become one while a file is open. -/
def fsgStoreCdrom (lun : FsgLun) (buf : Text) : Except Errno FsgLun :=
  match kstrtobool buf with
  | .error e => .error e
  | .ok cdrom =>
    match if cdrom then fsgSetRo lun true else .ok lun with
    | .error e => .error e
    | .ok lun => .ok { lun with cdrom }

def fsgStoreRemovable (lun : FsgLun) (buf : Text) : Except Errno FsgLun :=
  match kstrtobool buf with
  | .error e => .error e
  | .ok removable => .ok { lun with removable }

/-- The file is detached whether or not the host has locked the door. -/
def fsgStoreForcedEject (vfs : Vfs) (lun : FsgLun) : Except Errno FsgLun :=
  fsgStoreFile vfs { lun with preventMediumRemoval := false } []

/-! ### What the handlers do -/

@[simp] theorem isOpen_fsgLunClose (lun : FsgLun) : (fsgLunClose lun).isOpen = false := rfl

theorem FsgLun.isOpen_iff {lun : FsgLun} : lun.isOpen = true ↔ ∃ f, lun.filp = some f := by
  simp only [FsgLun.isOpen, Option.isSome_iff_exists]

theorem FsgLun.not_isOpen_iff {lun : FsgLun} : lun.isOpen = false ↔ lun.filp = none := by
  simp only [FsgLun.isOpen, Option.isSome_eq_false_iff, Option.isNone_iff_eq_none]

theorem chomp_of_getLast?_ne {buf : Text} (h : buf.getLast? ≠ some '\n') : chomp buf = buf :=
  if_neg h

/-- All that opening a file changes in the LUN. -/
theorem fsgLunOpen_ok {vfs : Vfs} {lun lun' : FsgLun} {filename : Text}
    (h : fsgLunOpen vfs lun filename = .ok lun') :
    ∃ filp, vfs filename (if openedReadOnly vfs lun filename then .rdonly else .rdwr) = .ok filp ∧
      lun' = { lun with
        filp := some filp
        ro := openedReadOnly vfs lun filename || !filp.fmodeWrite || !filp.canWrite
        fileLength := filp.size
        numSectors := sectorsOf lun filp
        blkbits := blockBits lun filp
        blksize := 2 ^ blockBits lun filp } := by
  simp only [fsgLunOpen] at h
  split at h
  · cases h
  · rename_i filp hopen
    split_ifs at h
    all_goals exact ⟨filp, hopen, (Except.ok.inj h).symm⟩

theorem fsgStoreFile_detach (vfs : Vfs) (lun : FsgLun) :
    fsgStoreFile vfs lun ['\n'] =
      if lun.preventMediumRemoval ∧ lun.isOpen then .error .EBUSY
      else if lun.isOpen then
        .ok { lun with filp := none, unitAttentionData := SS_MEDIUM_NOT_PRESENT }
      else .ok lun := by
  have hchomp : chomp ['\n'] = [] := rfl
  simp only [fsgStoreFile, hchomp, ne_eq, not_true_eq_false, if_false]
  rfl

/-- The text of a file's name opens it, unless the door is locked on another medium. -/
theorem fsgStoreFile_attach (vfs : Vfs) (lun : FsgLun) {buf : Text} (hne : buf ≠ [])
    (hlast : buf.getLast? ≠ some '\n') (hclosed : lun.isOpen = false) :
    fsgStoreFile vfs lun buf =
      (fsgLunOpen vfs lun buf).map fun lun =>
        { lun with unitAttentionData := SS_NOT_READY_TO_READY_TRANSITION } := by
  simp only [fsgStoreFile, hclosed, Bool.false_eq_true, and_false, if_false,
    chomp_of_getLast?_ne hlast, ne_eq, hne, not_false_eq_true, if_true]
  cases fsgLunOpen vfs lun buf <;> rfl

theorem fsgStoreRo_of_closed {lun : FsgLun} (hclosed : lun.isOpen = false) (ro : Bool) :
    fsgStoreRo lun (if ro then ['1'] else ['0']) = .ok { lun with ro := ro, initiallyRo := ro } := by
  cases ro <;> simp [fsgStoreRo, kstrtobool, fsgSetRo, hclosed]

/-- A regular file that opens read-write, and hence read-only, and has a sector. -/
structure RegularFile (vfs : Vfs) (filename : Text) : Prop where
  opens : ∀ flags, ∃ f, vfs filename flags = .ok f ∧ f.name = filename ∧ f.kind = .reg ∧
    f.canRead ∧ 512 ≤ f.size
  writable : ∀ f, vfs filename .rdwr = .ok f → f.fmodeWrite ∧ f.canWrite

theorem fsgLunOpen_of_regularFile {vfs : Vfs} {lun : FsgLun} {filename : Text}
    (hcd : lun.cdrom = false) (h : RegularFile vfs filename) :
    ∃ f, vfs filename (if lun.initiallyRo then .rdonly else .rdwr) = .ok f ∧ f.name = filename ∧
      fsgLunOpen vfs lun filename = .ok { lun with
        filp := some f
        ro := lun.initiallyRo
        fileLength := f.size
        numSectors := f.size >>> 9
        blkbits := 9
        blksize := 512 } := by
  have hro : openedReadOnly vfs lun filename = lun.initiallyRo := by
    obtain ⟨f, hf, -⟩ := h.opens .rdwr
    simp [openedReadOnly, hf]
  obtain ⟨f, hf, hname, hkind, hread, hsize⟩ := h.opens (if lun.initiallyRo then .rdonly else .rdwr)
  have hbits : blockBits lun f = 9 := by simp [blockBits, hcd, hkind]
  have hsectors : sectorsOf lun f = f.size >>> 9 := by simp [sectorsOf, hbits, hcd]
  have hmin : ¬ f.size >>> 9 < 1 := by
    rw [Nat.shiftRight_eq_div_pow]
    omega
  have hflag : (lun.initiallyRo || !f.fmodeWrite || !f.canWrite) = lun.initiallyRo := by
    cases hi : lun.initiallyRo
    · rw [hi] at hf
      have hw := h.writable f hf
      simp [hw.1, hw.2]
    · rfl
  refine ⟨f, hf, hname, ?_⟩
  simp [fsgLunOpen, hro, hf, hkind, hread, hcd, hbits, hsectors, hmin, hflag, fsgLunClose]

end UsbFloppy.Kernel
