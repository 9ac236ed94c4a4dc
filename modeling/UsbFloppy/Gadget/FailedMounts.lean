import UsbFloppy.Lib.Run
import UsbFloppy.Gadget.Boot
import UsbFloppy.Gadget.Faultless

/-! Mounts that fail before they reach the LUN, while another image is mounted. -/

namespace UsbFloppy.Gadget
open Files Kernel Transition

/-- A call, or any change of the files by somebody else. -/
inductive DriveEvent
  | call (c : ServiceCall)
  | files (fs : Fs)

def driveStep (g : GadgetController) (w : World) : DriveEvent → World
  | .call c => serviceStep g w c
  | .files fs => { w with fs := fs }

/-- However the preparation of the mount fails, what is mounted stays mounted, and its backing
file stays with its bytes. -/
def KeepsMounted (g : GadgetController) (w : World) (c : MountCall) : Prop :=
  ∀ a fs err, g.prepare w.fs c a.prep = (fs, .error err) →
    (g.mount w c a).1.current = w.current ∧ (g.mount w c a).1.lun = w.lun ∧
      ∀ m q f, w.current = some m → resolve w.fs m.backingPath.1 = some (q, f) →
        ∃ q' f', resolve (g.mount w c a).1.fs m.backingPath.1 = some (q', f') ∧
          f'.contents = f.contents

/-- The mount gets as far as clearing the session directory. -/
def ClearsSession (fs : Fs) (c : MountCall) : Prop :=
  c.disk ∈ c.floppySet.disks ∧ ∃ q f, resolve fs c.disk.1 = some (q, f) ∧
    f.contents.size ≤ FLOPPY_SIZE_BYTES ∧
      (c.session = true ∨ c.floppySet.readOnly = true ∧ f.contents.size < FLOPPY_SIZE_BYTES)

/-- The mount appends to the file at `q`. -/
def AppendsTo (fs : Fs) (c : MountCall) (q : Path) : Prop :=
  c.disk ∈ c.floppySet.disks ∧ PadsInPlace c ∧ ∃ f, resolve fs c.disk.1 = some (q, f) ∧
    f.contents.size < FLOPPY_SIZE_BYTES ∧ f.writable = true

def OutsideSession (g : GadgetController) (p : Path) : Prop := p.dir ≠ g.sessionDir.asPosix

/-- A mount that clears the session directory or pads a disk does so to files that are not
mounted. -/
def SparesMounted (g : GadgetController) (w : World) (c : MountCall) : Prop :=
  ∀ m q f, w.current = some m → resolve w.fs m.backingPath.1 = some (q, f) →
    (ClearsSession w.fs c →
      StaysIn w.fs (OutsideSession g) (maxSymlinks + 1) m.backingPath.1) ∧
      ¬ AppendsTo w.fs c q

variable {g : GadgetController} {w : World} {fs : Fs} {c : MountCall} {q : Path} {f : File}

theorem mount_of_unprepared {a : MountFaults} {fs : Fs} {err : MountError}
    (h : g.prepare w.fs c a.prep = (fs, .error err)) :
    g.mount w c a = ({ w with fs := fs }, .raised err) := by
  have hstart : g.mountStart w c a = ({ w with fs := fs }, .raised err) := by
    simp only [GadgetController.mountStart, h]
  rw [GadgetController.mount, hstart]

/-! ### How a preparation fails -/

/-- What is left of the files by a preparation that fails. -/
inductive Unprepared (g : GadgetController) (fs : Fs) (c : MountCall) : Fs → Prop
  | untouched : Unprepared g fs c fs
  | cleared (why : ClearsSession fs c) (fs' : Fs)
      (frame : ∀ p, OutsideSession g p → fs'.lookup p = fs.lookup p) : Unprepared g fs c fs'
  | appended (q : Path) (f f' : File) (why : AppendsTo fs c q) (file : HasFile fs q f) :
      Unprepared g fs c (fs.insert q (.file f'))

theorem padToFull_error {p : Path} {fault : Option ℕ} {fs' : Fs} {err : MountError}
    (h : padToFull fs p fault = (fs', .error err)) :
    fs' = fs ∨ ∃ q f f', resolve fs p = some (q, f) ∧ f.writable = true ∧
      fs' = fs.insert q (.file f') := by
  unfold padToFull at h
  split at h
  · cases h
    exact Or.inl rfl
  · rename_i q f hres
    split_ifs at h with hw
    · cases h
      exact Or.inl rfl
    · split at h
      · cases h
      · cases h
        exact Or.inr ⟨q, f, _, hres, eq_true_of_ne_false hw, rfl⟩

theorem map_error {α β : Type} {φ : α → β} {r : Except MountError α} {err : MountError}
    (h : r.map φ = .error err) : r = .error err := by
  cases r with
  | error e =>
    cases h
    rfl
  | ok x => cases h

theorem unprepared {a : PrepFaults} {fs' : Fs} {err : MountError}
    (h : g.prepare fs c a = (fs', .error err)) : Unprepared g fs c fs' := by
  unfold GadgetController.prepare at h
  by_cases hmem : c.disk ∉ c.floppySet.disks
  · rw [if_pos hmem] at h
    cases h
    exact .untouched
  rw [if_neg hmem] at h
  rw [not_not] at hmem
  rcases hres : resolve fs c.disk.1 with _ | ⟨q, f⟩
  · simp only [hres] at h
    cases h
    exact .untouched
  simp only [hres] at h
  split_ifs at h with hlarge hsession htemp hsmall
  · cases h
    exact .untouched
  · obtain ⟨hfs, -⟩ := Prod.mk.inj h
    refine .cleared ⟨hmem, q, f, hres, not_lt.mp hlarge, Or.inl hsession⟩ _ fun p hp => ?_
    rw [← hfs]
    exact scratchCopy_frame g fs c.disk _ a (sessionImage_dir g) hp
  · obtain ⟨hfs, -⟩ := Prod.mk.inj h
    refine .cleared ⟨hmem, q, f, hres, not_lt.mp hlarge, Or.inr ⟨htemp.2.1, htemp.1⟩⟩ _ ?_
    intro p hp
    rw [← hfs]
    exact scratchCopy_frame g fs c.disk _ a (roPaddedImage_dir g) hp
  · obtain ⟨hfs, herr⟩ := Prod.mk.inj h
    have hro : c.floppySet.readOnly = false := by
      by_contra hro
      exact htemp ⟨hsmall, eq_true_of_ne_false hro, hsession⟩
    rcases padToFull_error (Prod.ext hfs (map_error herr)) with rfl | ⟨q', f₁, f', hres', hw, rfl⟩
    · exact .untouched
    · rw [hres] at hres'
      cases hres'
      exact .appended q f f'
        ⟨hmem, ⟨eq_false_of_ne_true hsession, hro⟩, f, hres, hsmall, hw⟩
        (hasFile_of_resolve hres)
  · cases h

theorem SparesMounted.keeps (h : SparesMounted g w c) : KeepsMounted g w c := by
  intro a fs err hprep
  rw [mount_of_unprepared hprep]
  refine ⟨rfl, rfl, fun m q f hm hres => ?_⟩
  obtain ⟨hclear, happend⟩ := h m q f hm hres
  cases unprepared hprep with
  | untouched => exact ⟨q, f, hres, rfl⟩
  | cleared why fs' frame => exact ⟨q, f, ((hclear why).followLinks_eq frame).trans hres, rfl⟩
  | appended q' f₀ f' why file =>
    have hne : q ≠ q' := by
      rintro rfl
      exact happend why
    exact ⟨q, f, followLinks_insert_of_ne _ file hres hne, rfl⟩

/-! ### Mounts that do harm -/

def scratchImage (g : GadgetController) (c : MountCall) : Image :=
  if c.session then g.sessionImage else g.roPaddedImage

theorem prepare_of_clears (hmem : c.disk ∈ c.floppySet.disks)
    (hres : resolve fs c.disk.1 = some (q, f)) (hsize : f.contents.size ≤ FLOPPY_SIZE_BYTES)
    (hwhy : c.session = true ∨ c.floppySet.readOnly = true ∧ f.contents.size < FLOPPY_SIZE_BYTES)
    (a : PrepFaults) :
    g.prepare fs c a =
      ((g.scratchCopy fs c.disk (scratchImage g c) (f.contents.size < FLOPPY_SIZE_BYTES) a).1,
        (g.scratchCopy fs c.disk (scratchImage g c) (f.contents.size < FLOPPY_SIZE_BYTES) a).2.map
          fun _ => scratchImage g c) := by
  have hlarge : ¬ f.contents.size > FLOPPY_SIZE_BYTES := not_lt.mpr hsize
  by_cases hsession : c.session = true
  · simp only [GadgetController.prepare, if_neg (not_not.mpr hmem), hres, if_neg hlarge,
      if_pos hsession, scratchImage]
  · obtain ⟨hro, hsmall⟩ := hwhy.resolve_left hsession
    have htemp : f.contents.size < FLOPPY_SIZE_BYTES ∧ c.floppySet.readOnly = true ∧
        ¬ c.session = true := ⟨hsmall, hro, hsession⟩
    simp only [GadgetController.prepare, if_neg (not_not.mpr hmem), hres, if_neg hlarge,
      if_neg hsession, if_pos htemp, scratchImage, decide_eq_true hsmall]

/-- The scratch copies that fail leave different files behind: after no byte, after one, or
while padding an empty disk. -/
theorem scratchCopy_leftovers {disk : Image} (backing : Image) {q₁ : Path} {f₁ : File}
    (hclean : resolve (g.cleanupSession fs) disk.1 = some (q₁, f₁)) (kept : Contents) :
    ¬ ∀ a x, g.scratchCopy fs disk backing (decide (f₁.contents.size < FLOPPY_SIZE_BYTES)) a =
      ((g.cleanupSession fs).insert backing.1 (.file x), .error .os) → x.contents = kept := by
  intro hleft
  have hcopy : ∀ n, (f₁.contents.take n).size = kept.size := fun n =>
    congrArg Contents.size (hleft ⟨false, some n, none⟩ ⟨f₁.contents.take n, true⟩ (by
      simp only [GadgetController.scratchCopy, copyfile, hclean, Bool.false_eq_true, if_false]))
  have hempty : kept.size = 0 := (hcopy 0).symm.trans (Nat.zero_min _)
  have hempty₁ : f₁.contents.size = 0 := by
    have hone : min 1 f₁.contents.size = kept.size := hcopy 1
    omega
  have hsmall : f₁.contents.size < FLOPPY_SIZE_BYTES := by
    rw [hempty₁]
    decide
  have hpadded := hleft ⟨false, none, some 1⟩
    ⟨f₁.contents.padTo (min (f₁.contents.size + 1) FLOPPY_SIZE_BYTES), true⟩ (by
      simp only [GadgetController.scratchCopy, copyfile, hclean, Bool.false_eq_true, if_false,
        decide_eq_true hsmall, if_true, padToFull, resolve_of_hasFile (hasFile_insert _ _ _),
        Bool.true_eq_false, AList.insert_insert])
  have hone : (f₁.contents.padTo (min (f₁.contents.size + 1) FLOPPY_SIZE_BYTES)).size =
      kept.size := congrArg Contents.size hpadded
  rw [Contents.padTo_size, hempty₁, hempty] at hone
  exact absurd hone (by decide)

theorem lookup_of_cleanupSession {x : Path} {node : Node}
    (h : (g.cleanupSession fs).lookup x = some node) : fs.lookup x = some node := by
  rw [lookup_cleanupSession] at h
  split_ifs at h
  exact h

theorem KeepsMounted.staysIn (h : KeepsMounted g w c) {m : MountedImage} (hm : w.current = some m)
    (hres : resolve w.fs m.backingPath.1 = some (q, f)) (hclear : ClearsSession w.fs c) :
    StaysIn w.fs (OutsideSession g) (maxSymlinks + 1) m.backingPath.1 := by
  by_contra hcut
  have hgone : resolve (g.cleanupSession w.fs) m.backingPath.1 = none :=
    followLinks_eq_none (fun p hp => by rw [lookup_cleanupSession, if_neg hp])
      (fun p hp => by rw [lookup_cleanupSession, if_pos (not_not.mp hp)]) hcut
  obtain ⟨hmem, q₁, f₁, hdisk, hsize, hwhy⟩ := hclear
  have hprep := prepare_of_clears (g := g) hmem hdisk hsize hwhy
  have hback : ∀ a fs', g.scratchCopy w.fs c.disk (scratchImage g c)
      (decide (f₁.contents.size < FLOPPY_SIZE_BYTES)) a = (fs', .error .os) →
        ∃ q' f', resolve fs' m.backingPath.1 = some (q', f') ∧ f'.contents = f.contents := by
    intro a fs' hcopy
    have herr : g.prepare w.fs c a = (fs', .error .os) := by
      rw [hprep a, hcopy]
      rfl
    have hkept := (h ⟨a, none, .none⟩ fs' .os herr).2.2 m q f hm hres
    rwa [mount_of_unprepared (a := ⟨a, none, .none⟩) herr] at hkept
  rcases hclean : resolve (g.cleanupSession w.fs) c.disk.1 with _ | ⟨q₂, f₂⟩
  · obtain ⟨q', f', hres', -⟩ := hback .none (g.cleanupSession w.fs) (by
      simp only [GadgetController.scratchCopy, copyfile, hclean, PrepFaults.none,
        Bool.false_eq_true, if_false])
    rw [hgone] at hres'
    cases hres'
  cases hdisk.symm.trans (followLinks_of_subset (fun _ _ => lookup_of_cleanupSession) hclean)
  -- what a failing preparation leaves at the backing file is all there is of it
  refine scratchCopy_leftovers (scratchImage g c) hclean f.contents fun a x hcopy => ?_
  obtain ⟨q', f', hres', hsame⟩ := hback a _ hcopy
  rw [← eq_of_followLinks_insert hgone hres']
  exact hsame

theorem KeepsMounted.not_appendsTo (h : KeepsMounted g w c) {m : MountedImage}
    (hm : w.current = some m) (hres : resolve w.fs m.backingPath.1 = some (q, f)) :
    ¬ AppendsTo w.fs c q := by
  rintro ⟨hmem, ⟨hsession, hro⟩, f₁, hdisk, hsmall, hw⟩
  cases (hasFile_of_resolve hdisk).symm.trans (hasFile_of_resolve hres)
  have hlarge : ¬ f.contents.size > FLOPPY_SIZE_BYTES := not_lt.mpr hsmall.le
  have hs : ¬ c.session = true := by simp [hsession]
  have hnot : ¬ f.writable = false := by simp [hw]
  have htemp : ¬ (f.contents.size < FLOPPY_SIZE_BYTES ∧ c.floppySet.readOnly = true ∧
      ¬ c.session = true) := by
    rintro ⟨-, hro', -⟩
    rw [hro] at hro'
    cases hro'
  let padded : File :=
    { f with contents := f.contents.padTo (min (f.contents.size + 1) FLOPPY_SIZE_BYTES) }
  have herr : g.prepare w.fs c ⟨false, none, some 1⟩ =
      (w.fs.insert q (.file padded), .error .os) := by
    simp only [GadgetController.prepare, if_neg (not_not.mpr hmem), hdisk, if_neg hlarge,
      if_neg hs, if_neg htemp, if_pos hsmall, padToFull, if_neg hnot, Except.map, padded]
  obtain ⟨q', f', hres', hsame⟩ :=
    (h ⟨⟨false, none, some 1⟩, none, .none⟩ _ _ herr).2.2 m q f hm hres
  rw [mount_of_unprepared (a := ⟨⟨false, none, some 1⟩, none, .none⟩) herr] at hres'
  cases (followLinks_insert padded hres).symm.trans hres'
  have hsize : max f.contents.size (min (f.contents.size + 1) FLOPPY_SIZE_BYTES) =
      f.contents.size := congrArg Contents.size hsame
  omega

/-- Wherever calls and other people have brought the drive, a mount that is about to be made
can fail without harm to the mounted image exactly if it neither clears the directory this
lies in nor pads it. -/
theorem failed_mount_keeps_image_iff (g : GadgetController) (w : World)
    (events : List DriveEvent) (c : MountCall) :
    KeepsMounted g (run (driveStep g) w events) c ↔
      SparesMounted g (run (driveStep g) w events) c :=
  ⟨fun h _ _ _ hm hres => ⟨h.staysIn hm hres, h.not_appendsTo hm hres⟩, fun h => h.keeps⟩

/-- While a session copy of the disk is mounted, another session of it cannot be copied: the
session directory is full. -/
theorem failed_mount_loses_session :
    ¬ ∀ (g : GadgetController) (w : World) (events : List DriveEvent) (c : MountCall),
      w.current = none → KeepsMounted g (run (driveStep g) w events) c := by
  intro h
  obtain ⟨-, -, hkept⟩ := h sampleController emptyDrive
    [.call (.mount ⟨sampleSet, sampleDisk, true⟩ .none)] ⟨sampleSet, sampleDisk, true⟩ rfl
    ⟨⟨false, some 0, none⟩, none, .none⟩ _ _ rfl
  obtain ⟨q, f, hres, hsame⟩ := hkept _ _ _ rfl rfl
  cases hres
  exact absurd (congrArg Contents.size hsame) (by decide)

end UsbFloppy.Gadget
