import UsbFloppy.Gadget.Outcome

/-! What a mount and an eject do when nothing fails: the disk is a regular file of the
library and the LUN gives its medium away. -/

namespace UsbFloppy.Gadget
open Files Kernel

/-- The path does not lie beside the boot link. -/
def OffLink (g : GadgetController) (p : Path) : Prop :=
  ∀ link, g.backend.currentSymlink = some link → p.dir ≠ link.dir

/-- The path lies outside the directories of the service's own files. -/
structure Outside (g : GadgetController) (p : Path) : Prop where
  session : p.dir ≠ g.sessionDir.asPosix
  offLink : OffLink g p

structure ValidMount (g : GadgetController) (fs : Fs) (c : MountCall) (f : File) : Prop where
  mem : c.disk ∈ c.floppySet.disks
  outside : Outside g c.disk.1
  file : HasFile fs c.disk.1 f
  size : f.contents.size ≤ FLOPPY_SIZE_BYTES
  writable : f.writable = true

/-- The file that backs a mount of a disk with the contents of `f`. -/
def backingOf (g : GadgetController) (f : File) (c : MountCall) : Image :=
  if c.session then g.sessionImage
  else if c.floppySet.readOnly ∧ f.contents.size < FLOPPY_SIZE_BYTES then g.roPaddedImage
  else c.disk

/-- An undersize disk is padded where it lies. -/
def PadsInPlace (c : MountCall) : Prop := c.session = false ∧ c.floppySet.readOnly = false

instance (c : MountCall) : Decidable (PadsInPlace c) := inferInstanceAs (Decidable (_ ∧ _))

def paddedFile (f : File) : File := { f with contents := f.contents.padTo FLOPPY_SIZE_BYTES }

/-- The files after a preparation. -/
structure Backed (g : GadgetController) (fs : Fs) (c : MountCall) (f : File) (fs' : Fs) : Prop where
  file : HasFile fs' (backingOf g f c).1 (paddedFile f)
  disk : HasFile fs' c.disk.1 (if PadsInPlace c then paddedFile f else f)
  library : ∀ p, Outside g p → p ≠ c.disk.1 → fs'.lookup p = fs.lookup p
  session : backingOf g f c = c.disk →
    ∀ p : Path, p.dir = g.sessionDir.asPosix → fs'.lookup p = fs.lookup p

variable {g : GadgetController} {fs : Fs} {c : MountCall} {f : File}

@[simp] theorem paddedFile_writable (f : File) : (paddedFile f).writable = f.writable := rfl

theorem paddedFile_size (h : f.contents.size ≤ FLOPPY_SIZE_BYTES) :
    (paddedFile f).contents.size = FLOPPY_SIZE_BYTES := max_eq_right h

theorem paddedFile_of_full (h : FLOPPY_SIZE_BYTES ≤ f.contents.size) : paddedFile f = f := by
  rw [paddedFile, Contents.padTo_of_le h]

theorem padToFull_none {p : Path} (hf : HasFile fs p f) (hw : f.writable = true) :
    padToFull fs p none = (fs.insert p (.file (paddedFile f)), .ok ()) := by
  have hnot : ¬ f.writable = false := by simp [hw]
  simp only [padToFull, resolve_of_hasFile hf, if_neg hnot]
  rfl

theorem scratchCopy_none {disk : Image} (backing : Image) (hf : HasFile fs disk.1 f)
    (hdisk : disk.1.dir ≠ g.sessionDir.asPosix) (pad : Bool) :
    ∃ fs', g.scratchCopy fs disk backing pad .none = (fs', .ok ()) := by
  have hclean : HasFile (g.cleanupSession fs) disk.1 f := by
    rw [HasFile, lookup_cleanupSession, if_neg hdisk]
    exact hf
  simp only [GadgetController.scratchCopy, copyfile, resolve_of_hasFile hclean, PrepFaults.none,
    Bool.false_eq_true, if_false]
  cases pad
  · exact ⟨_, rfl⟩
  · exact ⟨_, padToFull_none (hasFile_insert _ _ _) rfl⟩

theorem ValidMount.prepare_eq (h : ValidMount g fs c f) :
    ∃ fs', g.prepare fs c .none = (fs', .ok (backingOf g f c)) := by
  have hmem : ¬ c.disk ∉ c.floppySet.disks := not_not.mpr h.mem
  have hlarge : ¬ f.contents.size > FLOPPY_SIZE_BYTES := not_lt.mpr h.size
  simp only [GadgetController.prepare, if_neg hmem, resolve_of_hasFile h.file, if_neg hlarge,
    backingOf]
  by_cases hsession : c.session = true
  · obtain ⟨fs', hfs'⟩ := scratchCopy_none g.sessionImage h.file h.outside.session
      (decide (f.contents.size < FLOPPY_SIZE_BYTES))
    exact ⟨fs', by simp only [if_pos hsession, hfs', Except.map]⟩
  · by_cases htemp : c.floppySet.readOnly = true ∧ f.contents.size < FLOPPY_SIZE_BYTES
    · obtain ⟨fs', hfs'⟩ := scratchCopy_none g.roPaddedImage h.file h.outside.session true
      have htemp' : f.contents.size < FLOPPY_SIZE_BYTES ∧ c.floppySet.readOnly = true ∧
          ¬ c.session = true := ⟨htemp.2, htemp.1, hsession⟩
      exact ⟨fs', by simp only [if_neg hsession, if_pos htemp, if_pos htemp', hfs', Except.map]⟩
    · have htemp' : ¬ (f.contents.size < FLOPPY_SIZE_BYTES ∧ c.floppySet.readOnly = true ∧
          ¬ c.session = true) := fun hall => htemp ⟨hall.2.1, hall.1⟩
      by_cases hsmall : f.contents.size < FLOPPY_SIZE_BYTES
      · exact ⟨fs.insert c.disk.1 (.file (paddedFile f)), by
          simp only [if_neg hsession, if_neg htemp, if_neg htemp', if_pos hsmall, PrepFaults.none,
            padToFull_none h.file h.writable, Except.map]⟩
      · exact ⟨fs, by simp only [if_neg hsession, if_neg htemp, if_neg htemp', if_neg hsmall]⟩

theorem ValidMount.prepared (h : ValidMount g fs c f) :
    ∃ fs', g.prepare fs c .none = (fs', .ok (backingOf g f c)) ∧ Backed g fs c f fs' := by
  obtain ⟨fs', hprep⟩ := h.prepare_eq
  refine ⟨fs', hprep, ?_⟩
  have hpad : (⟨f.contents.padTo FLOPPY_SIZE_BYTES, true⟩ : File) = paddedFile f := by
    rw [paddedFile, h.writable]
  cases (prepare_ok h.file h.outside.session hprep).2 with
  | scratch why backing_eq file frame =>
    have hnopad : ¬ PadsInPlace c := by
      rintro ⟨hs, hro⟩
      rcases (usesScratch_iff h.file).mp why with hs' | ⟨hro', -⟩
      · rw [hs] at hs'
        cases hs'
      · rw [hro] at hro'
        cases hro'
    have hdir : (backingOf g f c).1.dir = g.sessionDir.asPosix := by
      rw [backing_eq]
      split_ifs <;> rfl
    refine ⟨hpad ▸ file, ?_, fun p hp _ => frame p hp.session, fun heq => ?_⟩
    · rw [if_neg hnopad]
      exact (frame c.disk.1 h.outside.session).trans h.file
    · rw [heq] at hdir
      exact absurd hdir h.outside.session
  | direct why backing_eq file frame =>
    refine ⟨by rw [backing_eq]; exact file, ?_, fun p _ hp => frame p hp, fun _ p hp => ?_⟩
    · split_ifs with hpads
      · exact file
      · -- a read-only disk that is attached itself is full
        have hfull : FLOPPY_SIZE_BYTES ≤ f.contents.size := by
          rw [usesScratch_iff h.file, not_or] at why
          have hro : c.floppySet.readOnly = true := by
            by_contra hro
            exact hpads ⟨eq_false_of_ne_true why.1, eq_false_of_ne_true hro⟩
          exact not_lt.mp fun hlt => why.2 ⟨hro, hlt⟩
        have hpadded : HasFile fs' c.disk.1 (paddedFile f) := file
        rwa [paddedFile_of_full hfull] at hpadded
    · exact frame p fun heq => h.outside.session (heq ▸ hp)

/-! ### The boot link -/

theorem lookup_updateSymlink_of_dir_ne (fs : Fs) {link t p : Path} (hp : p.dir ≠ link.dir) :
    (updateSymlink fs link t).lookup p = fs.lookup p := by
  apply lookup_updateSymlink_of_ne
  · exact fun heq => hp (congrArg Path.dir heq)
  · rintro rfl
    exact hp rfl

theorem lookup_updateCurrentSymlink (fs : Fs) {p : Path} (hp : OffLink g p) (t : Option Image) :
    (g.backend.updateCurrentSymlink fs t).lookup p = fs.lookup p := by
  unfold SysfsBackend.updateCurrentSymlink
  split
  · rename_i link blank hlink hblank
    exact lookup_updateSymlink_of_dir_ne fs (hp link hlink)
  · rfl

theorem FinishOutcome.lookup {w : World} {backing : Image} {e : WriteFaults}
    {r : World × Progress} (h : FinishOutcome g w c backing e r) {p : Path} (hp : OffLink g p) :
    r.1.fs.lookup p = w.fs.lookup p := by
  rw [h.fs_eq]
  exact lookup_updateCurrentSymlink w.fs hp _

theorem StartOutcome.lookup {w : World} {a : MountFaults} {r : World × Progress}
    (h : StartOutcome g w c a r) {p : Path} (hp : OffLink g p) :
    r.1.fs.lookup p = (g.prepare w.fs c a.prep).1.lookup p := by
  cases h with
  | unprepared fs err prep => rw [prep]
  | refused fs backing prep mounted why =>
    rw [prep]
    exact lookup_updateCurrentSymlink fs hp none
  | sleeping fs backing prep mounted accepted unlocked =>
    rw [prep]
    exact lookup_updateCurrentSymlink fs hp none
  | finished fs backing r prep empty finish =>
    rw [prep]
    exact FinishOutcome.lookup finish hp

/-! ### Calls -/

variable {w : World}

theorem not_locked {lun : FsgLun} (hopen : lun.preventMediumRemoval = false) : ¬ locked lun := by
  rintro ⟨hprevent, -⟩
  rw [hopen] at hprevent
  cases hprevent

theorem minBytes_le (lun : FsgLun) : minBytes lun ≤ FLOPPY_SIZE_BYTES := by
  unfold minBytes
  split_ifs <;> decide

theorem FinishOutcome.eq_of_opens {backing : Image} {r : World × Progress}
    (h : FinishOutcome g w c backing .none r) (hunlocked : ¬ locked w.lun)
    (hopens : Opens (g.backend.updateCurrentSymlink w.fs (some backing)) w.lun backing f) :
    r = (⟨g.backend.updateCurrentSymlink w.fs (some backing),
      attachedLun w.lun backing f c.readOnly, some (c.mounted backing)⟩,
        .returned (c.mounted backing)) := by
  cases h with
  | refused why => exact absurd why (not_or.mpr ⟨not_not.mpr rfl, hunlocked⟩)
  | dropped lun accepted unlocked why closed device =>
    have hrefused := (why.resolve_left (not_not.mpr rfl)).resolve_left (not_not.mpr rfl)
    exact absurd hopens (hrefused f)
  | done f' faults unlocked opens => rw [opens_unique opens hopens]

theorem FinishOutcome.eq_attached {backing : Image} {r : World × Progress}
    (h : FinishOutcome g w c backing .none r) (hunlocked : ¬ locked w.lun)
    (hf : HasFile w.fs backing.1 f) (hoff : OffLink g backing.1)
    (hsize : f.contents.size = FLOPPY_SIZE_BYTES) :
    r = (⟨g.backend.updateCurrentSymlink w.fs (some backing),
      attachedLun w.lun backing f c.readOnly, some (c.mounted backing)⟩,
        .returned (c.mounted backing)) := by
  have hopens : Opens (g.backend.updateCurrentSymlink w.fs (some backing)) w.lun backing f := by
    refine ⟨⟨backing.1, resolve_of_hasFile ?_⟩, hsize ▸ minBytes_le w.lun⟩
    exact (lookup_updateCurrentSymlink w.fs hoff (some backing)).trans hf
  exact h.eq_of_opens hunlocked hopens

theorem eject_eq (g : GadgetController) (hopen : w.lun.preventMediumRemoval = false) :
    g.eject w none =
      (⟨g.cleanupSession (g.backend.updateCurrentSymlink w.fs none), detachedLun w.lun, none⟩,
        true) := by
  have hout := eject_outcome g w none
  generalize g.eject w none = r at hout ⊢
  cases hout with
  | refused why => exact absurd why (not_or.mpr ⟨not_not.mpr rfl, not_locked hopen⟩)
  | done fault_eq unlocked => rfl

theorem mountStart_of_mounted (hopen : w.lun.preventMediumRemoval = false)
    (hcurrent : w.current ≠ none) {fs : Fs} {backing : Image}
    (hprep : g.prepare w.fs c .none = (fs, .ok backing)) :
    g.mountStart w c .none =
      (⟨g.backend.updateCurrentSymlink fs none, detachedLun w.lun, w.current⟩,
        .sleeping backing) := by
  have hout := mountStart_outcome g w c .none
  generalize g.mountStart w c .none = r at hout ⊢
  cases hout with
  | unprepared fs err prep =>
    have := hprep.symm.trans prep
    cases this
  | refused fs backing prep mounted why =>
    exact absurd why (not_or.mpr ⟨not_not.mpr rfl, not_locked hopen⟩)
  | sleeping fs backing prep mounted accepted unlocked =>
    have := hprep.symm.trans prep
    cases this
    rfl
  | finished fs backing r prep empty finish => exact absurd empty hcurrent

theorem mountStart_of_empty (hcurrent : w.current = none) {fs : Fs} {backing : Image}
    (hprep : g.prepare w.fs c .none = (fs, .ok backing)) :
    FinishOutcome g { w with fs := fs } c backing .none (g.mountStart w c .none) := by
  have hout := mountStart_outcome g w c .none
  generalize g.mountStart w c .none = r at hout ⊢
  cases hout with
  | unprepared fs err prep =>
    have := hprep.symm.trans prep
    cases this
  | refused fs backing prep mounted why => exact absurd hcurrent mounted
  | sleeping fs backing prep mounted accepted unlocked => exact absurd hcurrent mounted
  | finished fs backing r prep empty finish =>
    have := hprep.symm.trans prep
    cases this
    exact finish

/-- The boot link does not lie in the session directory. -/
def LinkOutside (g : GadgetController) : Prop :=
  ∀ link, g.backend.currentSymlink = some link → link.dir ≠ g.sessionDir.asPosix

theorem LinkOutside.offLink (h : LinkOutside g) {p : Path} (hp : p.dir = g.sessionDir.asPosix) :
    OffLink g p := fun link hlink heq => h link hlink (heq.symm.trans hp)

theorem backingOf_cases (g : GadgetController) (f : File) (c : MountCall) :
    (backingOf g f c).1.dir = g.sessionDir.asPosix ∨ backingOf g f c = c.disk := by
  unfold backingOf
  split_ifs
  · exact Or.inl rfl
  · exact Or.inl rfl
  · exact Or.inr rfl

theorem ValidMount.offLink_backing (h : ValidMount g fs c f) (hlink : LinkOutside g) :
    OffLink g (backingOf g f c).1 := by
  rcases backingOf_cases g f c with hdir | heq
  · exact hlink.offLink hdir
  · rw [heq]
    exact h.outside.offLink

theorem attachedLun_of_detached (lun : FsgLun) (file : Image) (f : File) (ro : Bool) :
    attachedLun (detachedLun lun) file f ro = attachedLun lun file f ro := by
  unfold detachedLun
  split_ifs <;> rfl

theorem Backed.relink {fs' : Fs} (h : Backed g fs c f fs') (hv : ValidMount g fs c f)
    (hlink : LinkOutside g) (t : Option Image) :
    Backed g fs c f (g.backend.updateCurrentSymlink fs' t) where
  file := (lookup_updateCurrentSymlink fs' (hv.offLink_backing hlink) t).trans h.file
  disk := (lookup_updateCurrentSymlink fs' hv.outside.offLink t).trans h.disk
  library p hp hne := (lookup_updateCurrentSymlink fs' hp.offLink t).trans (h.library p hp hne)
  session heq p hp :=
    (lookup_updateCurrentSymlink fs' (hlink.offLink hp) t).trans (h.session heq p hp)

theorem ValidMount.mount_eq (h : ValidMount g w.fs c f) (hlink : LinkOutside g)
    (hopen : w.lun.preventMediumRemoval = false) :
    ∃ fs', g.mount w c .none =
        ({ fs := fs'
           lun := attachedLun w.lun (backingOf g f c) (paddedFile f) c.readOnly
           current := some (c.mounted (backingOf g f c)) },
          .returned (c.mounted (backingOf g f c))) ∧ Backed g w.fs c f fs' := by
  obtain ⟨fs, hprep, hback⟩ := h.prepared
  have hoff := h.offLink_backing hlink
  have hout := mount_outcome g w c .none
  generalize g.mount w c .none = r at hout ⊢
  cases hout with
  | unprepared fs err prep =>
    have := hprep.symm.trans prep
    cases this
  | refused fs backing prep mounted why =>
    exact absurd why (not_or.mpr ⟨not_not.mpr rfl, not_locked hopen⟩)
  | swapped fs backing r prep mounted accepted unlocked finish =>
    have := hprep.symm.trans prep
    cases this
    have hprevent := (sameDevice_detachedLun w.lun).preventMediumRemoval.trans hopen
    have hback' := hback.relink h hlink none
    refine ⟨_, ?_, hback'.relink h hlink (some (backingOf g f c))⟩
    rw [← attachedLun_of_detached w.lun]
    exact finish.eq_attached (not_locked hprevent) hback'.file hoff (paddedFile_size h.size)
  | loaded fs backing r prep empty finish =>
    have := hprep.symm.trans prep
    cases this
    exact ⟨_, finish.eq_attached (not_locked hopen) hback.file hoff (paddedFile_size h.size),
      hback.relink h hlink (some (backingOf g f c))⟩

theorem lookup_eject (fs : Fs) {p : Path} (hp : Outside g p) :
    (g.cleanupSession (g.backend.updateCurrentSymlink fs none)).lookup p = fs.lookup p := by
  rw [lookup_cleanupSession, if_neg hp.session, lookup_updateCurrentSymlink fs hp.offLink]

/-! ### A host that may hold the medium -/

theorem mount_lookup {a : MountFaults} {p : Path} (hp : OffLink g p) :
    (g.mount w c a).1.fs.lookup p = (g.prepare w.fs c a.prep).1.lookup p := by
  have hout := mount_outcome g w c a
  generalize g.mount w c a = r at hout ⊢
  cases hout with
  | unprepared fs err prep => rw [prep]
  | refused fs backing prep mounted why =>
    rw [prep]
    exact lookup_updateCurrentSymlink fs hp none
  | swapped fs backing r prep mounted accepted unlocked finish =>
    rw [prep, finish.lookup hp]
    exact lookup_updateCurrentSymlink fs hp none
  | loaded fs backing r prep empty finish =>
    rw [prep]
    exact finish.lookup hp

/-- A file after a mount may be padded, but no more. -/
structure FileKept (f f' : File) : Prop where
  writable : f'.writable = f.writable
  size : f'.contents.size ≤ FLOPPY_SIZE_BYTES ↔ f.contents.size ≤ FLOPPY_SIZE_BYTES

theorem fileKept_refl (f : File) : FileKept f f := ⟨rfl, Iff.rfl⟩

theorem fileKept_padded (f : File) : FileKept f (paddedFile f) :=
  ⟨rfl, fun h => (le_max_left _ _).trans h, fun h => (paddedFile_size h).le⟩

theorem FileKept.trans {f f' f'' : File} (h : FileKept f f') (h' : FileKept f' f'') :
    FileKept f f'' := ⟨h'.writable.trans h.writable, h'.size.trans h.size⟩

/-- The disk of a call is a regular file of the library, of any size. -/
structure LibraryDisk (g : GadgetController) (fs : Fs) (c : MountCall) (f : File) : Prop where
  mem : c.disk ∈ c.floppySet.disks
  outside : Outside g c.disk.1
  file : HasFile fs c.disk.1 f
  writable : f.writable = true

theorem LibraryDisk.valid (h : LibraryDisk g fs c f) (hsize : f.contents.size ≤ FLOPPY_SIZE_BYTES) :
    ValidMount g fs c f := ⟨h.mem, h.outside, h.file, hsize, h.writable⟩

theorem LibraryDisk.prepare_of_large (h : LibraryDisk g fs c f)
    (hsize : ¬ f.contents.size ≤ FLOPPY_SIZE_BYTES) (a : PrepFaults) :
    g.prepare fs c a = (fs, .error (.diskTooLarge c.disk f.contents.size)) := by
  have hmem : ¬ c.disk ∉ c.floppySet.disks := not_not.mpr h.mem
  have hlarge : f.contents.size > FLOPPY_SIZE_BYTES := not_le.mp hsize
  simp only [GadgetController.prepare, if_neg hmem, resolve_of_hasFile h.file, if_pos hlarge]

theorem LibraryDisk.prepare_keeps (h : LibraryDisk g fs c f) {p : Path} (hp : Outside g p)
    {x : File} (hx : HasFile fs p x) :
    ∃ y, HasFile (g.prepare fs c .none).1 p y ∧ FileKept x y := by
  by_cases hsize : f.contents.size ≤ FLOPPY_SIZE_BYTES
  · obtain ⟨fs', hprep, hback⟩ := (h.valid hsize).prepared
    rw [hprep]
    by_cases hdisk : p = c.disk.1
    · subst hdisk
      cases hx.symm.trans h.file
      refine ⟨_, hback.disk, ?_⟩
      split_ifs
      · exact fileKept_padded _
      · exact fileKept_refl _
    · exact ⟨x, (hback.library p hp hdisk).trans hx, fileKept_refl x⟩
  · rw [h.prepare_of_large hsize]
    exact ⟨x, hx, fileKept_refl x⟩

theorem LibraryDisk.mount_keeps (h : LibraryDisk g w.fs c f) {p : Path} (hp : Outside g p)
    {x : File} (hx : HasFile w.fs p x) :
    ∃ y, HasFile (g.mount w c .none).1.fs p y ∧ FileKept x y := by
  obtain ⟨y, hy, hkept⟩ := h.prepare_keeps hp hx
  exact ⟨y, (mount_lookup hp.offLink).trans hy, hkept⟩

theorem LibraryDisk.size_of_returned (h : LibraryDisk g w.fs c f) {a : MountFaults}
    {image : MountedImage} (hreturned : (g.mount w c a).2 = .returned image) :
    f.contents.size ≤ FLOPPY_SIZE_BYTES := by
  obtain ⟨fs, backing, hprep, -⟩ := mount_returned hreturned
  exact (prepare_ok h.file h.outside.session hprep).1

theorem mount_returned_current {a : MountFaults} {image : MountedImage}
    (h : (g.mount w c a).2 = .returned image) :
    ∃ backing, (g.mount w c a).1.current = some (c.mounted backing) := by
  have hout := mount_outcome g w c a
  generalize g.mount w c a = r at hout h ⊢
  cases hout with
  | unprepared fs err prep => cases h
  | refused fs backing prep mounted why => cases h
  | swapped fs backing r prep mounted accepted unlocked finish =>
    cases finish with
    | refused why => cases h
    | dropped lun accepted unlocked why closed device => cases h
    | done f faults unlocked opens => exact ⟨backing, rfl⟩
  | loaded fs backing r prep empty finish =>
    cases finish with
    | refused why => cases h
    | dropped lun accepted unlocked why closed device => cases h
    | done f faults unlocked opens => exact ⟨backing, rfl⟩

/-- A mount while nothing is recorded as mounted succeeds exactly when the disk fits and the
host lets the medium go. -/
theorem LibraryDisk.mount_idle (h : LibraryDisk g w.fs c f) (hlink : LinkOutside g)
    (hidle : w.current = none) :
    (g.mount w c .none).1.current =
      if ¬ locked w.lun ∧ f.contents.size ≤ FLOPPY_SIZE_BYTES then
        some (c.mounted (backingOf g f c))
      else none := by
  have hout := mount_outcome g w c .none
  generalize g.mount w c .none = r at hout ⊢
  by_cases hsize : f.contents.size ≤ FLOPPY_SIZE_BYTES
  · obtain ⟨fs', hprep, hback⟩ := (h.valid hsize).prepared
    cases hout with
    | unprepared fs err prep => cases hprep.symm.trans prep
    | refused fs backing prep mounted why => exact absurd hidle mounted
    | swapped fs backing r prep mounted accepted unlocked finish => exact absurd hidle mounted
    | loaded fs backing r prep empty finish =>
      cases hprep.symm.trans prep
      by_cases hlocked : locked w.lun
      · rw [if_neg fun hcan => hcan.1 hlocked]
        cases finish with
        | refused why => exact hidle
        | dropped lun accepted unlocked why closed device => exact hidle
        | done f faults unlocked opens => exact absurd hlocked unlocked
      · rw [if_pos ⟨hlocked, hsize⟩, finish.eq_attached hlocked hback.file
          ((h.valid hsize).offLink_backing hlink) (paddedFile_size hsize)]
  · rw [if_neg fun hcan => hsize hcan.2]
    have hprep := h.prepare_of_large hsize MountFaults.none.prep
    cases hout with
    | unprepared fs err prep => exact hidle
    | refused fs backing prep mounted why => exact absurd hidle mounted
    | swapped fs backing r prep mounted accepted unlocked finish => exact absurd hidle mounted
    | loaded fs backing r prep empty finish => cases hprep.symm.trans prep

end UsbFloppy.Gadget
