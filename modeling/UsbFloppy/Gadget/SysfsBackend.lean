import UsbFloppy.Files.Fs
import UsbFloppy.Kernel.Command

/-! The backend that drives the kernel module: configure_lun writes to the LUN's sysfs
attributes one after another, and keeps current.img pointing at the attached image. -/

namespace UsbFloppy.Gadget
open Files Kernel

/-- A path with the suffix of the images the scanner lists. -/
abbrev Image := {p : Path // p.hasSuffix ".img".toList}

inductive SysfsAttr
  | lun0File
  | lun0Ro
  deriving DecidableEq, Repr

structure SysfsWrite where
  attr : SysfsAttr
  value : Text
  deriving DecidableEq, Repr

def SysfsWrite.store (vfs : Vfs) (lun : FsgLun) (w : SysfsWrite) : Except Errno FsgLun :=
  match w.attr with
  | .lun0File => fsgStoreFile vfs lun w.value
  | .lun0Ro => fsgStoreRo lun w.value

/-- What comes before one write: the commands of the host, and an error that keeps the
write from its handler. -/
structure Moment where
  host : List HostCommand
  fault : Option Errno

/-- The LUN after some writes, and the number of the write that failed. -/
structure Written where
  lun : FsgLun
  failed : Option (ℕ × Errno)

/-- The writes in order, from number `k` on. An error ends them. -/
def writeAll (vfs : Vfs) : FsgLun → ℕ → List (SysfsWrite × Moment) → Written
  | lun, _, [] => ⟨lun, none⟩
  | lun, k, (w, m) :: ws =>
    let lun := m.host.foldl hostDoor lun
    match m.fault with
    | some e => ⟨lun, some (k, e)⟩
    | none =>
      match w.store vfs lun with
      | .error e => ⟨lun, some (k, e)⟩
      | .ok lun => writeAll vfs lun (k + 1) ws

/-- The moments of the writes to lun0_file, lun0_ro and lun0_file. -/
structure Moments where
  detach : Moment
  ro : Moment
  attach : Moment

/-- The writes of `configure_lun`. A newline detaches. -/
def configureWrites (file : Option Path) (ro : Bool) (m : Moments) : List (SysfsWrite × Moment) :=
  (⟨.lun0File, ['\n']⟩, m.detach) ::
    match file with
    | none => []
    | some file =>
      [(⟨.lun0Ro, if ro then ['1'] else ['0']⟩, m.ro), (⟨.lun0File, file.asPosix⟩, m.attach)]

/-- `configure_lun`, on the LUN. -/
def configureLun (vfs : Vfs) (lun : FsgLun) (file : Option Path) (ro : Bool) (m : Moments) :
    Written := writeAll vfs lun 0 (configureWrites file ro m)

/-! ### The boot link -/

/-- The paths of `SysfsBackend`. The link is managed where both are given. -/
structure SysfsBackend where
  currentSymlink : Option Path
  blankImage : Option Path
  deriving DecidableEq

/-- `link.with_suffix(link.suffix + ".bak")`. -/
def bakPath (link : Path) : Path :=
  link.withSuffix (suffix link.name ++ ".bak".toList) fun h => by
    rcases List.mem_append.mp h with h | h
    · exact link.noSlash ((suffix_suffix link.name).subset h)
    · exact absurd h (by decide)

/-- `_update_current_symlink`. A regular file in the link's place is renamed aside. -/
def updateSymlink (fs : Fs) (link newTarget : Path) : Fs :=
  let fs :=
    if (resolve fs link).isSome ∨ isSymlink fs link then
      if isSymlink fs link then fs.erase link else rename fs link (bakPath link)
    else fs
  fs.insert link (.link newTarget)

def SysfsBackend.updateCurrentSymlink (b : SysfsBackend) (fs : Fs) (target : Option Image) : Fs :=
  match b.currentSymlink, b.blankImage with
  | some link, some blank => updateSymlink fs link ((target.map Subtype.val).getD blank)
  | _, _ => fs

/-- `configure_lun`, on the link and on the LUN. -/
def SysfsBackend.configureLun (b : SysfsBackend) (fs : Fs) (lun : FsgLun) (file : Option Image)
    (ro : Bool) (m : Moments) : Fs × Written :=
  let fs := b.updateCurrentSymlink fs file
  (fs, Gadget.configureLun (filpOpen fs) lun (file.map Subtype.val) ro m)

theorem lookup_updateSymlink_of_ne (fs : Fs) {link t p : Path} (hlink : p ≠ link)
    (hbak : p ≠ bakPath link) : (updateSymlink fs link t).lookup p = fs.lookup p := by
  have hrename : (rename fs link (bakPath link)).lookup p = fs.lookup p := by
    unfold rename
    split
    · rw [AList.lookup_insert_ne hbak, AList.lookup_erase_ne hlink]
    · rfl
  rw [updateSymlink, AList.lookup_insert_ne hlink]
  split_ifs
  · exact AList.lookup_erase_ne hlink
  · exact hrename
  · rfl

theorem updateSymlink_sameModes {fs fs' : Fs} (h : SameModes fs fs') (link newTarget : Path) :
    SameModes (updateSymlink fs link newTarget) (updateSymlink fs' link newTarget) := by
  have hsome : (resolve fs link).isSome = (resolve fs' link).isSome := by
    rw [← Option.isSome_map, h.resolve link, Option.isSome_map]
  unfold updateSymlink
  rw [hsome, h.isSymlink_eq link]
  apply SameModes.insert _ _ rfl
  split_ifs
  · exact h.erase link
  · exact h.rename link (bakPath link)
  · exact h

theorem SysfsBackend.updateCurrentSymlink_sameModes (b : SysfsBackend) {fs fs' : Fs}
    (h : SameModes fs fs') (target : Option Image) :
    SameModes (b.updateCurrentSymlink fs target) (b.updateCurrentSymlink fs' target) := by
  unfold SysfsBackend.updateCurrentSymlink
  split
  · exact updateSymlink_sameModes h _ _
  · exact h

/-! ### What the writes do -/

theorem Image.getLast?_ne (file : Image) : file.1.asPosix.getLast? ≠ some '\n' :=
  file.2.getLast?_ne (by decide) (by decide)

theorem writeAll_cons (vfs : Vfs) (lun : FsgLun) (k : ℕ) (w : SysfsWrite) (m : Moment)
    (ws : List (SysfsWrite × Moment)) :
    writeAll vfs lun k ((w, m) :: ws) =
      match m.fault with
      | some e => ⟨m.host.foldl hostDoor lun, some (k, e)⟩
      | none =>
        match w.store vfs (m.host.foldl hostDoor lun) with
        | .error e => ⟨m.host.foldl hostDoor lun, some (k, e)⟩
        | .ok lun => writeAll vfs lun (k + 1) ws := rfl

/-- A closed LUN takes the flag and then the file, whatever the host does in between. -/
theorem writeAll_of_closed {vfs : Vfs} {lun : FsgLun} (hclosed : lun.isOpen = false)
    (hcd : lun.cdrom = false) {file : Path} (hlast : file.asPosix.getLast? ≠ some '\n')
    (hreg : RegularFile vfs file.asPosix) (ro : Bool) (k : ℕ) (host host' : List HostCommand) :
    ∃ lun', writeAll vfs lun k
        [(⟨.lun0Ro, if ro then ['1'] else ['0']⟩, ⟨host, none⟩),
          (⟨.lun0File, file.asPosix⟩, ⟨host', none⟩)] = ⟨lun', none⟩ ∧
      (∃ f, lun'.filp = some f ∧ f.name = file.asPosix) ∧ lun'.ro = ro := by
  have hmoved := hostDoors_moved lun host
  have hro := fsgStoreRo_of_closed (hmoved.closed hclosed) ro
  set lun₁ : FsgLun := { host.foldl hostDoor lun with ro := ro, initiallyRo := ro }
  have hmoved' := hostDoors_moved lun₁ host'
  have hclosed' : (host'.foldl hostDoor lun₁).isOpen = false :=
    hmoved'.closed (hmoved.closed hclosed)
  have hcd' : (host'.foldl hostDoor lun₁).cdrom = false :=
    hmoved'.cdrom.trans (hmoved.cdrom.trans hcd)
  obtain ⟨lun₂, hopen, hfile, hro₂⟩ :
      ∃ lun₂, fsgLunOpen vfs (host'.foldl hostDoor lun₁) file.asPosix = .ok lun₂ ∧
        (∃ f, lun₂.filp = some f ∧ f.name = file.asPosix) ∧ lun₂.ro = ro := by
    obtain ⟨f, -, hname, hopen⟩ := fsgLunOpen_of_regularFile hcd' hreg
    exact ⟨_, hopen, ⟨f, rfl, hname⟩, hmoved'.initiallyRo⟩
  have hattach := fsgStoreFile_attach vfs (host'.foldl hostDoor lun₁) file.asPosix_ne_nil
    hlast hclosed'
  rw [hopen] at hattach
  refine ⟨{ lun₂ with unitAttentionData := SS_NOT_READY_TO_READY_TRANSITION }, ?_, hfile, hro₂⟩
  simp only [writeAll_cons, SysfsWrite.store, hro, hattach]
  rfl

/-- Whatever the host does between the writes, either the first write meets a locked door
and changes nothing, or all writes succeed and the file is attached with the flag. -/
theorem configureLun_attached_or_locked {vfs : Vfs} {lun : FsgLun} (hcd : lun.cdrom = false)
    {file : Path} (hlast : file.asPosix.getLast? ≠ some '\n')
    (hreg : RegularFile vfs file.asPosix) (ro : Bool) (before between between' : List HostCommand) :
    let lun₀ := before.foldl hostDoor lun
    let w := configureLun vfs lun (some file) ro ⟨⟨before, none⟩, ⟨between, none⟩, ⟨between', none⟩⟩
    (w = ⟨lun₀, some (0, .EBUSY)⟩ ∧ lun₀.preventMediumRemoval = true ∧ lun₀.isOpen = true) ∨
      (w.failed = none ∧ (∃ f, w.lun.filp = some f ∧ f.name = file.asPosix) ∧ w.lun.ro = ro) := by
  intro lun₀ w
  have hcd₀ : lun₀.cdrom = false := (hostDoors_moved lun before).cdrom.trans hcd
  have hdetach := fsgStoreFile_detach vfs lun₀
  by_cases hlocked : lun₀.preventMediumRemoval ∧ lun₀.isOpen
  · rw [if_pos hlocked] at hdetach
    refine Or.inl ⟨?_, hlocked⟩
    simp only [w, configureLun, configureWrites, writeAll_cons, SysfsWrite.store, hdetach, lun₀]
  · rw [if_neg hlocked] at hdetach
    obtain ⟨lun₁, hstore, hclosed, hcd₁⟩ : ∃ lun₁, fsgStoreFile vfs lun₀ ['\n'] = .ok lun₁ ∧
        lun₁.isOpen = false ∧ lun₁.cdrom = false := by
      split_ifs at hdetach with hopen
      · exact ⟨_, hdetach, rfl, hcd₀⟩
      · exact ⟨_, hdetach, eq_false_of_ne_true hopen, hcd₀⟩
    obtain ⟨lun₂, hwrites, hfile, hro⟩ :=
      writeAll_of_closed hclosed hcd₁ hlast hreg ro (0 + 1) between between'
    have hw : w = ⟨lun₂, none⟩ := by
      simp only [w, configureLun, configureWrites, writeAll_cons, SysfsWrite.store]
      rw [show before.foldl hostDoor lun = lun₀ from rfl, hstore]
      exact hwrites
    exact Or.inr (by rw [hw]; exact ⟨rfl, hfile, hro⟩)

/-- An image of a set, with the suffix in capitals. -/
def sampleDisk : Image :=
  ⟨⟨"/home/pi/floppies/games".toList, "Disk1.IMG".toList, by decide⟩, by decide⟩

def sampleFs : Fs := AList.singleton sampleDisk.1 (.file ⟨.zeros 1474560, true⟩)

/-- The host locks the door twice while the disk is attached. -/
theorem configureLun_attached_or_locked_example :
    let prevent : HostCommand :=
      ⟨fun i => if i = 0 then ALLOW_MEDIUM_REMOVAL else if i = 4 then 1 else 0, 6, .none, 0⟩
    (configureLun (filpOpen sampleFs) removableLun (some sampleDisk.1) true
      ⟨⟨[], none⟩, ⟨[prevent], none⟩, ⟨[prevent], none⟩⟩).lun.ro = true := by
  intro prevent
  have hfile : resolve sampleFs sampleDisk.1 = some (sampleDisk.1, ⟨.zeros 1474560, true⟩) := rfl
  have hreg := regularFile_filpOpen hfile (by decide) rfl
  have hcd : removableLun.cdrom = false := rfl
  rcases configureLun_attached_or_locked hcd sampleDisk.getLast?_ne hreg true [] [prevent]
    [prevent] with ⟨-, -, hopen⟩ | ⟨-, -, hro⟩
  · cases hopen
  · exact hro

/-! ### Writes that fail -/

/-- The errors that keep the three writes from their handlers, with an idle host. -/
structure WriteFaults where
  detach : Option Errno
  ro : Option Errno
  attach : Option Errno
  deriving DecidableEq, Repr

def WriteFaults.none : WriteFaults := ⟨.none, .none, .none⟩

def WriteFaults.moments (e : WriteFaults) : Moments :=
  ⟨⟨[], e.detach⟩, ⟨[], e.ro⟩, ⟨[], e.attach⟩⟩

/-- The LUN refuses to give its medium away. -/
def locked (lun : FsgLun) : Prop := lun.preventMediumRemoval = true ∧ lun.isOpen = true

instance (lun : FsgLun) : Decidable (locked lun) := inferInstanceAs (Decidable (_ ∧ _))

/-- The LUN's device settings are those it had. -/
structure SameDevice (lun lun' : FsgLun) : Prop where
  cdrom : lun'.cdrom = lun.cdrom
  preventMediumRemoval : lun'.preventMediumRemoval = lun.preventMediumRemoval

theorem SameDevice.refl (lun : FsgLun) : SameDevice lun lun := ⟨rfl, rfl⟩

theorem SameDevice.trans {a b c : FsgLun} (h : SameDevice a b) (h' : SameDevice b c) :
    SameDevice a c :=
  ⟨h'.cdrom.trans h.cdrom, h'.preventMediumRemoval.trans h.preventMediumRemoval⟩

/-- The LUN without its medium. -/
def detachedLun (lun : FsgLun) : FsgLun :=
  if lun.isOpen then { lun with filp := none, unitAttentionData := SS_MEDIUM_NOT_PRESENT } else lun

@[simp] theorem isOpen_detachedLun (lun : FsgLun) : (detachedLun lun).isOpen = false := by
  unfold detachedLun
  split_ifs with hopen
  · rfl
  · exact eq_false_of_ne_true hopen

theorem sameDevice_detachedLun (lun : FsgLun) : SameDevice lun (detachedLun lun) := by
  unfold detachedLun
  split_ifs <;> exact ⟨rfl, rfl⟩

theorem fsgStoreFile_newline (vfs : Vfs) (lun : FsgLun) :
    fsgStoreFile vfs lun ['\n'] = if locked lun then .error .EBUSY else .ok (detachedLun lun) := by
  rw [fsgStoreFile_detach]
  by_cases hlocked : lun.preventMediumRemoval = true ∧ lun.isOpen = true
  · rw [if_pos hlocked, if_pos (show locked lun from hlocked)]
  · rw [if_neg hlocked, if_neg (show ¬ locked lun from hlocked), detachedLun]
    split_ifs <;> rfl

/-- What can come of detaching. -/
inductive Detached (lun : FsgLun) (fault : Option Errno) : Written → Prop
  | refused (err : ℕ × Errno) (why : fault ≠ none ∨ locked lun) : Detached lun fault ⟨lun, some err⟩
  | done (fault_eq : fault = none) (unlocked : ¬ locked lun) :
      Detached lun fault ⟨detachedLun lun, none⟩

theorem configureLun_detach (vfs : Vfs) (lun : FsgLun) (ro : Bool) (e : WriteFaults) :
    Detached lun e.detach (configureLun vfs lun none ro e.moments) := by
  simp only [configureLun, configureWrites, writeAll_cons, SysfsWrite.store, WriteFaults.moments,
    List.foldl_nil]
  rcases e.detach with _ | errno
  · rw [fsgStoreFile_newline]
    split_ifs with hlocked
    · exact .refused _ (Or.inr hlocked)
    · exact .done rfl hlocked
  · exact .refused _ (Or.inl (by simp))

/-- One sector, or the 300 that a CD-ROM needs. -/
def minBytes (lun : FsgLun) : ℕ := if lun.cdrom then 300 * 2048 else 512

/-- The kernel finds a file at the path, and it is large enough for the LUN. -/
def Opens (fs : Fs) (lun : FsgLun) (file : Image) (f : File) : Prop :=
  (∃ q, resolve fs file.1 = some (q, f)) ∧ minBytes lun ≤ f.contents.size

/-- The LUN is attached to the file; a file that cannot be written is read-only. -/
structure AttachedTo (lun : FsgLun) (file : Image) (ro : Bool) : Prop where
  filp : ∃ k, lun.filp = some k ∧ k.name = file.1.asPosix
  ro : lun.ro = ro

theorem sectorsOf_lt_iff (lun : FsgLun) {f : KFile} (hkind : f.kind = .reg) :
    sectorsOf lun f < (if lun.cdrom then 300 else 1) ↔ f.size < minBytes lun := by
  simp only [sectorsOf, blockBits, hkind, minBytes, Nat.shiftRight_eq_div_pow]
  split_ifs <;> simp_all <;> omega

/-- The LUN with the file attached; a file that cannot be written is read-only. -/
def attachedLun (lun : FsgLun) (file : Image) (f : File) (ro : Bool) : FsgLun :=
  let filp : KFile :=
    ⟨file.1.asPosix, .reg, f.contents.size, !(ro || !f.writable), true, true⟩
  { lun with
    filp := some filp
    fileLength := f.contents.size
    numSectors := sectorsOf lun filp
    initiallyRo := ro
    ro := ro || !f.writable
    unitAttentionData := SS_NOT_READY_TO_READY_TRANSITION
    blkbits := blockBits lun filp
    blksize := 2 ^ blockBits lun filp }

theorem attachedTo_attachedLun (lun : FsgLun) (file : Image) (f : File) (ro : Bool) :
    AttachedTo (attachedLun lun file f ro) file (ro || !f.writable) := ⟨⟨_, rfl, rfl⟩, rfl⟩

theorem attachedLun_detachedLun (lun : FsgLun) (file : Image) (f : File) (ro : Bool) :
    attachedLun { detachedLun lun with ro := ro, initiallyRo := ro } file f ro =
      attachedLun lun file f ro := by
  unfold detachedLun
  split_ifs <;> rfl

theorem fsgLunOpen_filpOpen {fs : Fs} (lun : FsgLun) {file : Image} {q : Path} {f : File}
    (h : resolve fs file.1 = some (q, f)) :
    fsgLunOpen (filpOpen fs) lun file.1.asPosix =
      if f.contents.size < minBytes lun then .error .ETOOSMALL
      else .ok { attachedLun lun file f lun.initiallyRo with
        unitAttentionData := lun.unitAttentionData } := by
  have hro : openedReadOnly (filpOpen fs) lun file.1.asPosix = (lun.initiallyRo || !f.writable) := by
    rw [openedReadOnly, filpOpen_asPosix h]
    cases f.writable <;> simp
  set ro := lun.initiallyRo || !f.writable with hdef
  set filp : KFile := ⟨file.1.asPosix, .reg, f.contents.size, !ro, true, true⟩ with hfilp
  have hopen : filpOpen fs file.1.asPosix (if ro then .rdonly else .rdwr) = .ok filp := by
    rw [filpOpen_asPosix h]
    cases hb : ro
    · have hw : f.writable = true := by
        rw [hb] at hdef
        simpa using (Bool.or_eq_false_iff.mp hdef.symm).2
      simp [hw, hfilp, hb]
    · simp [hfilp, hb]
  have hmin := sectorsOf_lt_iff lun (f := filp) rfl
  have hkind : ¬ filp.kind = .other := by simp [hfilp]
  have hread : ¬ ¬ filp.canRead = true := by simp [hfilp]
  have hflag : (ro || !filp.fmodeWrite || !filp.canWrite) = ro := by simp [hfilp]
  simp only [fsgLunOpen, hro, hopen, if_neg hkind, if_neg hread, hmin, hflag]
  rfl

theorem fsgStoreFile_filpOpen (fs : Fs) {lun : FsgLun} (hclosed : lun.isOpen = false)
    (file : Image) :
    (∃ f, Opens fs lun file f ∧ fsgStoreFile (filpOpen fs) lun file.1.asPosix =
        .ok (attachedLun lun file f lun.initiallyRo)) ∨
      ((∀ f, ¬ Opens fs lun file f) ∧
        ∃ errno, fsgStoreFile (filpOpen fs) lun file.1.asPosix = .error errno) := by
  have hstore := fsgStoreFile_attach (filpOpen fs) lun file.1.asPosix_ne_nil file.getLast?_ne
    hclosed
  rcases hres : resolve fs file.1 with _ | ⟨q, f⟩
  · refine Or.inr ⟨fun f hf => ?_, .ENOENT, ?_⟩
    · obtain ⟨⟨q, hq⟩, -⟩ := hf
      rw [hres] at hq
      cases hq
    · have hnone : ∀ flags, filpOpen fs file.1.asPosix flags = .error .ENOENT := by
        intro flags
        simp only [filpOpen, Path.ofPosix_asPosix, Option.bind_some, hres]
      rw [hstore]
      simp only [fsgLunOpen, hnone]
      rfl
  · rw [fsgLunOpen_filpOpen lun hres] at hstore
    split_ifs at hstore with hsize
    · refine Or.inr ⟨fun g hg => ?_, .ETOOSMALL, hstore⟩
      obtain ⟨⟨q', hq'⟩, hge⟩ := hg
      rw [hres] at hq'
      cases hq'
      exact absurd hsize (not_lt.mpr hge)
    · exact Or.inl ⟨f, ⟨⟨q, hres⟩, not_lt.mp hsize⟩, hstore⟩

theorem SameDevice.opens_iff {lun lun' : FsgLun} (h : SameDevice lun lun') {fs : Fs}
    {file : Image} {f : File} : Opens fs lun' file f ↔ Opens fs lun file f := by
  rw [Opens, Opens, minBytes, minBytes, h.cdrom]

theorem opens_unique {fs : Fs} {lun : FsgLun} {file : Image} {f f' : File}
    (h : Opens fs lun file f) (h' : Opens fs lun file f') : f = f' := by
  obtain ⟨⟨q, hq⟩, -⟩ := h
  obtain ⟨⟨q', hq'⟩, -⟩ := h'
  rw [hq] at hq'
  cases hq'
  rfl

/-- What can come of attaching a file. -/
inductive Attached (fs : Fs) (lun : FsgLun) (file : Image) (ro : Bool) (e : WriteFaults) :
    Written → Prop
  | refused (err : ℕ × Errno) (why : e.detach ≠ none ∨ locked lun) :
      Attached fs lun file ro e ⟨lun, some err⟩
  | dropped (lun' : FsgLun) (err : ℕ × Errno) (accepted : e.detach = none) (unlocked : ¬ locked lun)
      (why : e.ro ≠ none ∨ e.attach ≠ none ∨ ∀ f, ¬ Opens fs lun file f)
      (closed : lun'.isOpen = false) (device : SameDevice lun lun') :
      Attached fs lun file ro e ⟨lun', some err⟩
  | done (f : File) (faults : e = .none) (unlocked : ¬ locked lun) (opens : Opens fs lun file f) :
      Attached fs lun file ro e ⟨attachedLun lun file f ro, none⟩

theorem configureLun_attach (fs : Fs) (lun : FsgLun) (file : Image) (ro : Bool)
    (e : WriteFaults) :
    Attached fs lun file ro e (configureLun (filpOpen fs) lun (some file.1) ro e.moments) := by
  simp only [configureLun, configureWrites, writeAll_cons, SysfsWrite.store, WriteFaults.moments,
    List.foldl_nil]
  obtain ⟨eDetach, eRo, eAttach⟩ := e
  have hclosed := isOpen_detachedLun lun
  have hdev := sameDevice_detachedLun lun
  rcases eDetach with _ | errno
  · rw [fsgStoreFile_newline]
    by_cases hlocked : locked lun
    · rw [if_pos hlocked]
      exact .refused _ (Or.inr hlocked)
    · rw [if_neg hlocked]
      dsimp only
      rcases eRo with _ | errno
      · rw [fsgStoreRo_of_closed hclosed ro]
        dsimp only
        rcases eAttach with _ | errno
        · have hdev₁ : SameDevice lun { detachedLun lun with ro := ro, initiallyRo := ro } :=
            ⟨hdev.cdrom, hdev.preventMediumRemoval⟩
          have hclosed₁ : { detachedLun lun with ro := ro, initiallyRo := ro }.isOpen = false :=
            hclosed
          obtain ⟨f, hopens, hok⟩ | ⟨hnone, errno, herr⟩ :=
            fsgStoreFile_filpOpen fs hclosed₁ file
          · rw [hok, attachedLun_detachedLun]
            exact .done f rfl hlocked (hdev₁.opens_iff.mp hopens)
          · rw [herr]
            have hrefused : ∀ f, ¬ Opens fs lun file f := fun f hf =>
              hnone f (hdev₁.opens_iff.mpr hf)
            exact .dropped _ _ rfl hlocked (Or.inr (Or.inr hrefused)) hclosed hdev₁
        · exact .dropped _ _ rfl hlocked (Or.inr (Or.inl (by simp))) hclosed
            ⟨hdev.cdrom, hdev.preventMediumRemoval⟩
      · exact .dropped _ _ rfl hlocked (Or.inl (by simp)) hclosed hdev
  · exact .refused _ (Or.inl (by simp))

end UsbFloppy.Gadget
