import UsbFloppy.Gadget.Faultless

/-! What a mount presents to the host when nothing fails. A disk may be a symbolic link, and
the LUN may be attached to anything before. -/

namespace UsbFloppy.Gadget
open Files Kernel

/-- The path is not current.img, nor where a regular file in its place is put. -/
def NotLink (g : GadgetController) (p : Path) : Prop :=
  ∀ link, g.backend.currentSymlink = some link → p ≠ link ∧ p ≠ bakPath link

/-- The path is none of the service's own files. -/
structure InLibrary (g : GadgetController) (p : Path) : Prop where
  session : p.dir ≠ g.sessionDir.asPosix
  notLink : NotLink g p

/-- The disk is one of its set, leads to the file `f` at `q` in the library, and no write
fails. -/
structure Presentable (g : GadgetController) (w : World) (c : MountCall) (q : Path) (f : File) :
    Prop where
  mem : c.disk ∈ c.floppySet.disks
  leads : resolve w.fs c.disk.1 = some (q, f)
  library : StaysIn w.fs (InLibrary g) (maxSymlinks + 1) c.disk.1
  scratch : NotLink g g.sessionImage.1 ∧ NotLink g g.roPaddedImage.1
  writable : PadsInPlace c → f.writable = true
  unlocked : ¬ locked w.lun

/-- The files from a preparation on. -/
structure Staged (g : GadgetController) (fs : Fs) (c : MountCall) (q : Path) (f : File) (fs' : Fs) :
    Prop where
  backing : ∃ q' f', resolve fs' (backingOf g f c).1 = some (q', f') ∧
    f'.contents = f.contents.padTo FLOPPY_SIZE_BYTES ∧ (c.readOnly = false → f'.writable = true)
  staysIn : StaysIn fs' (NotLink g) (maxSymlinks + 1) (backingOf g f c).1
  disk : ∃ f', resolve fs' c.disk.1 = some (q, f') ∧
    f'.contents = if PadsInPlace c then f.contents.padTo FLOPPY_SIZE_BYTES else f.contents
  library : StaysIn fs' (InLibrary g) (maxSymlinks + 1) c.disk.1
  frame : ∀ p, InLibrary g p → p ≠ q → fs'.lookup p = fs.lookup p

variable {g : GadgetController} {w : World} {fs : Fs} {c : MountCall} {q : Path} {f : File}

/-! ### Preparations -/

theorem lookup_cleanup_of_inLibrary {p : Path} (hp : InLibrary g p) :
    (g.cleanupSession fs).lookup p = fs.lookup p := by
  rw [lookup_cleanupSession, if_neg hp.session]

theorem scratchCopy_library {disk backing : Image} (hres : resolve fs disk.1 = some (q, f))
    (hlib : StaysIn fs (InLibrary g) (maxSymlinks + 1) disk.1)
    (hback : backing.1.dir = g.sessionDir.asPosix) (pad : Bool) :
    ∃ fs', g.scratchCopy fs disk backing pad .none = (fs', .ok ()) ∧
      HasFile fs' backing.1
        ⟨if pad then f.contents.padTo FLOPPY_SIZE_BYTES else f.contents, true⟩ ∧
      ∀ p, InLibrary g p → fs'.lookup p = fs.lookup p := by
  have hclean : resolve (g.cleanupSession fs) disk.1 = some (q, f) :=
    (hlib.followLinks_eq fun p hp => lookup_cleanup_of_inLibrary hp).trans hres
  have hframe : ∀ (fs₁ : Fs) (node : Node) (p : Path), InLibrary g p →
      (fs₁.insert backing.1 node).lookup p = fs₁.lookup p := fun fs₁ node p hp =>
    AList.lookup_insert_ne fun heq => hp.session (heq ▸ hback)
  simp only [GadgetController.scratchCopy, copyfile, hclean, PrepFaults.none, Bool.false_eq_true,
    if_false]
  cases pad with
  | false =>
    refine ⟨_, rfl, hasFile_insert _ _ _, fun p hp => ?_⟩
    rw [hframe _ _ p hp, lookup_cleanup_of_inLibrary hp]
  | true =>
    refine ⟨_, padToFull_none (hasFile_insert _ _ _) rfl, hasFile_insert _ _ _, fun p hp => ?_⟩
    rw [hframe _ _ p hp, hframe _ _ p hp, lookup_cleanup_of_inLibrary hp]

theorem Presentable.staged_scratch (h : Presentable g w c q f) {backing : Image} (pad : Bool)
    (hback : backing.1.dir = g.sessionDir.asPosix) (hlink : NotLink g backing.1)
    (hof : backingOf g f c = backing) (hpads : ¬ PadsInPlace c)
    (hpad : pad = false → FLOPPY_SIZE_BYTES ≤ f.contents.size)
    (hprep : ∀ fs', g.scratchCopy w.fs c.disk backing pad .none = (fs', .ok ()) →
      g.prepare w.fs c .none = (fs', .ok backing)) :
    ∃ fs', g.prepare w.fs c .none = (fs', .ok (backingOf g f c)) ∧ Staged g w.fs c q f fs' := by
  obtain ⟨fs', hcopy, hfile, hframe⟩ := scratchCopy_library h.leads h.library hback pad
  have hcontents : (if pad then f.contents.padTo FLOPPY_SIZE_BYTES else f.contents) =
      f.contents.padTo FLOPPY_SIZE_BYTES := by
    cases pad with
    | true => rfl
    | false => exact (Contents.padTo_of_le (hpad rfl)).symm
  rw [hcontents] at hfile
  have hdisk : resolve fs' c.disk.1 = some (q, f) :=
    (h.library.followLinks_eq hframe).trans h.leads
  rw [hof]
  refine ⟨fs', hprep fs' hcopy, ?_, ?_, ⟨f, hdisk, (if_neg hpads).symm⟩, h.library.congr hframe,
    fun p hp _ => hframe p hp⟩
  · rw [hof]
    exact ⟨backing.1, _, resolve_of_hasFile hfile, rfl, fun _ => rfl⟩
  · rw [hof]
    exact staysIn_of_hasFile hlink hfile _

theorem Presentable.staged_direct (h : Presentable g w c q f) (hof : backingOf g f c = c.disk)
    (hsession : c.session = false) {fs' : Fs}
    (hfs' : fs' = w.fs ∧ FLOPPY_SIZE_BYTES ≤ f.contents.size ∨
      fs' = w.fs.insert q (.file (paddedFile f)) ∧ PadsInPlace c) : Staged g w.fs c q f fs' := by
  have hwritable : c.readOnly = false → f.writable = true := by
    intro hro
    apply h.writable
    refine ⟨hsession, ?_⟩
    rw [MountCall.readOnly, hsession, Bool.not_false, Bool.and_true] at hro
    exact hro
  rcases hfs' with ⟨rfl, hfull⟩ | ⟨rfl, hpads⟩
  · have hpadded := Contents.padTo_of_le hfull
    refine ⟨⟨q, f, by rw [hof]; exact h.leads, hpadded.symm, hwritable⟩, ?_, ⟨f, h.leads, ?_⟩,
      h.library, fun _ _ _ => rfl⟩
    · rw [hof]
      exact h.library.mono fun _ hp => hp.notLink
    · rw [hpadded, ite_self]
  · have hres := followLinks_insert (paddedFile f) h.leads
    have hlib : StaysIn (w.fs.insert q (.file (paddedFile f))) (InLibrary g) (maxSymlinks + 1)
        c.disk.1 := h.library.insert _
    refine ⟨⟨q, paddedFile f, by rw [hof]; exact hres, rfl, hwritable⟩, ?_,
      ⟨paddedFile f, hres, (if_pos hpads).symm⟩, hlib, fun p _ hp => AList.lookup_insert_ne hp⟩
    rw [hof]
    exact hlib.mono fun _ hp => hp.notLink

theorem padToFull_resolve {p : Path} (hres : resolve fs p = some (q, f)) (hw : f.writable = true) :
    padToFull fs p none = (fs.insert q (.file (paddedFile f)), .ok ()) := by
  have hnot : ¬ f.writable = false := by simp [hw]
  simp only [padToFull, hres, if_neg hnot]
  rfl

theorem Presentable.staged (h : Presentable g w c q f)
    (hsize : f.contents.size ≤ FLOPPY_SIZE_BYTES) :
    ∃ fs', g.prepare w.fs c .none = (fs', .ok (backingOf g f c)) ∧ Staged g w.fs c q f fs' := by
  have hmem : ¬ c.disk ∉ c.floppySet.disks := not_not.mpr h.mem
  have hlarge : ¬ f.contents.size > FLOPPY_SIZE_BYTES := not_lt.mpr hsize
  by_cases hsession : c.session = true
  · apply h.staged_scratch (decide (f.contents.size < FLOPPY_SIZE_BYTES)) (sessionImage_dir g)
      h.scratch.1 (if_pos hsession)
    · rintro ⟨hs, -⟩
      rw [hsession] at hs
      cases hs
    · exact fun hpad => not_lt.mp (of_decide_eq_false hpad)
    · intro fs' hcopy
      simp only [GadgetController.prepare, if_neg hmem, h.leads, if_neg hlarge, if_pos hsession,
        hcopy, Except.map]
  have hs : c.session = false := eq_false_of_ne_true hsession
  by_cases htemp : c.floppySet.readOnly = true ∧ f.contents.size < FLOPPY_SIZE_BYTES
  · have htemp' : f.contents.size < FLOPPY_SIZE_BYTES ∧ c.floppySet.readOnly = true ∧
        ¬ c.session = true := ⟨htemp.2, htemp.1, hsession⟩
    apply h.staged_scratch true (roPaddedImage_dir g) h.scratch.2
    · rw [backingOf, if_neg hsession, if_pos htemp]
    · rintro ⟨-, hro⟩
      rw [htemp.1] at hro
      cases hro
    · exact fun hpad => by cases hpad
    · intro fs' hcopy
      simp only [GadgetController.prepare, if_neg hmem, h.leads, if_neg hlarge, if_neg hsession,
        if_pos htemp', hcopy, Except.map]
  have htemp' : ¬ (f.contents.size < FLOPPY_SIZE_BYTES ∧ c.floppySet.readOnly = true ∧
      ¬ c.session = true) := fun hall => htemp ⟨hall.2.1, hall.1⟩
  have hof : backingOf g f c = c.disk := by rw [backingOf, if_neg hsession, if_neg htemp]
  by_cases hsmall : f.contents.size < FLOPPY_SIZE_BYTES
  · have hpads : PadsInPlace c :=
      ⟨hs, eq_false_of_ne_true fun hro => htemp ⟨hro, hsmall⟩⟩
    refine ⟨_, ?_, h.staged_direct hof hs (Or.inr ⟨rfl, hpads⟩)⟩
    simp only [GadgetController.prepare, if_neg hmem, h.leads, if_neg hlarge, if_neg hsession,
      if_neg htemp', if_pos hsmall, PrepFaults.none, padToFull_resolve h.leads (h.writable hpads),
      Except.map, hof]
  · refine ⟨w.fs, ?_, h.staged_direct hof hs (Or.inl ⟨rfl, not_lt.mp hsmall⟩)⟩
    simp only [GadgetController.prepare, if_neg hmem, h.leads, if_neg hlarge, if_neg hsession,
      if_neg htemp', if_neg hsmall, hof]

/-! ### The boot link moves -/

theorem NotLink.lookup {p : Path} (hp : NotLink g p) (fs : Fs) (t : Option Image) :
    (g.backend.updateCurrentSymlink fs t).lookup p = fs.lookup p := by
  unfold SysfsBackend.updateCurrentSymlink
  split
  · rename_i link blank hlink hblank
    exact lookup_updateSymlink_of_ne fs (hp link hlink).1 (hp link hlink).2
  · rfl

theorem Staged.relink {fs' : Fs} (h : Staged g fs c q f fs') (t : Option Image) :
    Staged g fs c q f (g.backend.updateCurrentSymlink fs' t) := by
  have hlib : ∀ p, InLibrary g p →
      (g.backend.updateCurrentSymlink fs' t).lookup p = fs'.lookup p :=
    fun _ hp => hp.notLink.lookup fs' t
  have hdisk : resolve (g.backend.updateCurrentSymlink fs' t) c.disk.1 = resolve fs' c.disk.1 :=
    h.library.followLinks_eq hlib
  have hback : resolve (g.backend.updateCurrentSymlink fs' t) (backingOf g f c).1 =
      resolve fs' (backingOf g f c).1 := h.staysIn.followLinks_eq fun _ hp => hp.lookup fs' t
  refine ⟨?_, h.staysIn.congr fun _ hp => hp.lookup fs' t, ?_, h.library.congr hlib,
    fun p hp hq => (hlib p hp).trans (h.frame p hp hq)⟩
  · rw [hback]
    exact h.backing
  · rw [hdisk]
    exact h.disk

/-! ### The call -/

/-- What a mount is for: the host sees the padded disk, protected as it should be, and no
other file of the library changes. -/
structure Presents (g : GadgetController) (w : World) (c : MountCall) (q : Path) (f : File)
    (r : World × Progress) : Prop where
  returned : r.2 = .returned (c.mounted (backingOf g f c))
  current : r.1.current = some (c.mounted (backingOf g f c))
  lun : ∃ k q' f', r.1.lun.filp = some k ∧ k.name = (backingOf g f c).1.asPosix ∧
    resolve r.1.fs (backingOf g f c).1 = some (q', f') ∧
    f'.contents = f.contents.padTo FLOPPY_SIZE_BYTES ∧ f'.contents.size = FLOPPY_SIZE_BYTES
  ro : r.1.lun.ro = (c.floppySet.readOnly && !c.session)
  disk : ∃ f', resolve r.1.fs c.disk.1 = some (q, f') ∧ f'.contents =
    if c.session = false ∧ c.floppySet.readOnly = false then
      f.contents.padTo FLOPPY_SIZE_BYTES
    else f.contents
  library : ∀ p, InLibrary g p → p ≠ q → r.1.fs.lookup p = w.fs.lookup p

theorem Staged.presents {w₁ : World} (h : Staged g w.fs c q f w₁.fs)
    (hsize : f.contents.size ≤ FLOPPY_SIZE_BYTES) (hunlocked : ¬ locked w₁.lun)
    {r : World × Progress} (hr : FinishOutcome g w₁ c (backingOf g f c) .none r) :
    Presents g w c q f r := by
  have hlinked := h.relink (some (backingOf g f c))
  obtain ⟨q', f', hres, hcontents, hwritable⟩ := hlinked.backing
  have hfull : f'.contents.size = FLOPPY_SIZE_BYTES := by
    rw [hcontents]
    exact max_eq_right hsize
  have hopens : Opens (g.backend.updateCurrentSymlink w₁.fs (some (backingOf g f c))) w₁.lun
      (backingOf g f c) f' := ⟨⟨q', hres⟩, hfull ▸ minBytes_le w₁.lun⟩
  have hattached := hr.eq_of_opens hunlocked hopens
  subst hattached
  refine ⟨rfl, rfl, ⟨_, q', f', rfl, rfl, hres, hcontents, hfull⟩, ?_, hlinked.disk,
    hlinked.frame⟩
  change (c.readOnly || !f'.writable) = c.readOnly
  rcases hro : c.readOnly with _ | _
  · rw [hwritable hro]
    rfl
  · rfl

theorem Presentable.prepare_of_large (h : Presentable g w c q f)
    (hsize : FLOPPY_SIZE_BYTES < f.contents.size) :
    g.prepare w.fs c .none = (w.fs, .error (.diskTooLarge c.disk f.contents.size)) := by
  have hmem : ¬ c.disk ∉ c.floppySet.disks := not_not.mpr h.mem
  simp only [GadgetController.prepare, if_neg hmem, h.leads, gt_iff_lt, if_pos hsize]

/-- A mount that nothing disturbs rejects a disk that is too large, with nothing changed, and
presents any other. -/
theorem mount_presents (h : Presentable g w c q f) :
    (FLOPPY_SIZE_BYTES < f.contents.size →
      g.mount w c .none = (w, .raised (.diskTooLarge c.disk f.contents.size))) ∧
      (f.contents.size ≤ FLOPPY_SIZE_BYTES → Presents g w c q f (g.mount w c .none)) := by
  refine ⟨fun hlarge => ?_, fun hsize => ?_⟩
  · have hprep := h.prepare_of_large hlarge
    have hstart : g.mountStart w c .none = (w, .raised (.diskTooLarge c.disk f.contents.size)) := by
      simp only [GadgetController.mountStart, MountFaults.none, hprep]
    rw [GadgetController.mount, hstart]
  · obtain ⟨fs, hprep, hstaged⟩ := h.staged hsize
    have hout := mount_outcome g w c .none
    generalize g.mount w c .none = r at hout ⊢
    cases hout with
    | unprepared fs err prep => cases hprep.symm.trans prep
    | refused fs backing prep mounted why =>
      exact absurd why (not_or.mpr ⟨not_not.mpr rfl, h.unlocked⟩)
    | swapped fs backing r prep mounted accepted unlocked finish =>
      cases hprep.symm.trans prep
      refine (hstaged.relink none).presents hsize ?_ finish
      rintro ⟨-, hopen⟩
      rw [isOpen_detachedLun] at hopen
      cases hopen
    | loaded fs backing r prep empty finish =>
      cases hprep.symm.trans prep
      have hstaged' : Staged g w.fs c q f ({ w with fs := fs } : World).fs := hstaged
      exact hstaged'.presents hsize h.unlocked finish

/-- The disk of a read-only set has three bytes. -/
def smallDrive : World :=
  ⟨AList.singleton sampleDisk.1 (.file ⟨.ofList [1, 2, 3], true⟩), removableLun, none⟩

theorem mount_presents_example :
    Presents sampleController smallDrive ⟨sampleSet, sampleDisk, false⟩ sampleDisk.1
      ⟨.ofList [1, 2, 3], true⟩
      (sampleController.mount smallDrive ⟨sampleSet, sampleDisk, false⟩ .none) := by
  have hfile : HasFile smallDrive.fs sampleDisk.1 ⟨.ofList [1, 2, 3], true⟩ := rfl
  have hnolink : ∀ p, NotLink sampleController p := fun _ _ hlink => by cases hlink
  have hlib : InLibrary sampleController sampleDisk.1 := ⟨by decide, hnolink _⟩
  have hok : Presentable sampleController smallDrive ⟨sampleSet, sampleDisk, false⟩ sampleDisk.1
      ⟨.ofList [1, 2, 3], true⟩ :=
    ⟨by decide, resolve_of_hasFile hfile, staysIn_of_hasFile hlib hfile _,
      ⟨hnolink _, hnolink _⟩, fun _ => rfl, by decide⟩
  exact (mount_presents hok).2 (show 3 ≤ FLOPPY_SIZE_BYTES by decide)

end UsbFloppy.Gadget
