import UsbFloppy.Lib.Run
import UsbFloppy.Gadget.Outcome

/-! The link current.img, from which the kernel module loads its image at boot. A reboot
empties the session directory, which lies under /tmp. -/

namespace UsbFloppy.Gadget
open Files Kernel Transition

/-- The path leads to a regular file of 1.44 MB. -/
def ResolvesFull (fs : Fs) (p : Path) : Prop :=
  ∃ q f, resolve fs p = some (q, f) ∧ f.contents.size = FLOPPY_SIZE_BYTES

/-- The link can be booted from, now and after a reboot. -/
def Boots (g : GadgetController) (link : Path) (w : World) : Prop :=
  ResolvesFull w.fs link ∧ ResolvesFull (g.cleanupSession w.fs) link

inductive ServiceCall
  | mount (c : MountCall) (a : MountFaults)
  | eject (fault : Option Errno)
  | shutdown
  deriving DecidableEq

def serviceStep (g : GadgetController) (w : World) : ServiceCall → World
  | .mount c a => (g.mount w c a).1
  | .eject fault => (g.eject w fault).1
  | .shutdown => g.shutdown w

/-- The call completes without an error, and a disk to be mounted is a regular file of the
library. -/
def Completes (g : GadgetController) (w : World) : ServiceCall → Prop
  | .mount c a => (∃ image, (g.mount w c a).2 = .returned image) ∧
      c.disk.1.dir ≠ g.sessionDir.asPosix ∧ ∃ f, HasFile w.fs c.disk.1 f
  | .eject fault => (g.eject w fault).2 = true
  | .shutdown => True

/-- The disk itself is attached, not a copy in the session directory. -/
def MountsDirectly (w : World) : ServiceCall → Prop
  | .mount c _ => ¬ UsesScratch w.fs c
  | _ => True

/-- A full image outside the session directory. -/
structure FullImage (g : GadgetController) (fs : Fs) (p : Path) : Prop where
  outside : p.dir ≠ g.sessionDir.asPosix
  file : ∃ f, HasFile fs p f ∧ f.contents.size = FLOPPY_SIZE_BYTES

/-- The link as install.sh sets it up: a symlink to a full image, and a full blank image. -/
structure Installed (g : GadgetController) (link blank : Path) (w : World) : Prop where
  managed : g.backend = ⟨some link, some blank⟩
  outside : link.dir ≠ g.sessionDir.asPosix
  blank : FullImage g w.fs blank
  target : ∃ target, w.fs.lookup link = some (.link target) ∧ FullImage g w.fs target

variable {g : GadgetController} {link blank : Path} {w : World}

theorem FullImage.congr {fs fs' : Fs} {p : Path} (h : FullImage g fs p)
    (heq : fs'.lookup p = fs.lookup p) : FullImage g fs' p := by
  obtain ⟨f, hf, hsize⟩ := h.file
  exact ⟨h.outside, f, heq.trans hf, hsize⟩

theorem FullImage.ne_link {fs : Fs} {p target : Path} (h : FullImage g fs p)
    (hlink : fs.lookup link = some (.link target)) : p ≠ link := by
  rintro rfl
  obtain ⟨f, hf, -⟩ := h.file
  rw [HasFile, hlink] at hf
  cases hf

theorem FullImage.cleanup {fs : Fs} {p : Path} (h : FullImage g fs p) :
    FullImage g (g.cleanupSession fs) p :=
  h.congr (by rw [lookup_cleanupSession, if_neg h.outside])

theorem resolvesFull_of_link {fs : Fs} {target : Path}
    (hlink : fs.lookup link = some (.link target)) (h : FullImage g fs target) :
    ResolvesFull fs link := by
  obtain ⟨f, hf, hsize⟩ := h.file
  exact ⟨target, f, resolve_of_link hlink hf, hsize⟩

theorem Installed.boots (h : Installed g link blank w) : Boots g link w := by
  obtain ⟨target, hlink, htarget⟩ := h.target
  refine ⟨resolvesFull_of_link hlink htarget, resolvesFull_of_link ?_ htarget.cleanup⟩
  rw [lookup_cleanupSession, if_neg h.outside]
  exact hlink

/-! ### What the link does -/

theorem lookup_updateSymlink (fs : Fs) (link target : Path) :
    (updateSymlink fs link target).lookup link = some (.link target) :=
  AList.lookup_insert _

theorem lookup_updateSymlink_ne {fs : Fs} {t target p : Path}
    (hlink : fs.lookup link = some (.link t)) (hp : p ≠ link) :
    (updateSymlink fs link target).lookup p = fs.lookup p := by
  have hsym : isSymlink fs link = true := by simp only [isSymlink, hlink]
  have herase : updateSymlink fs link target = (fs.erase link).insert link (.link target) := by
    rw [updateSymlink, if_pos (Or.inr hsym), if_pos hsym]
  rw [herase, AList.lookup_insert_ne hp, AList.lookup_erase_ne hp]

theorem Installed.updateCurrentSymlink (h : Installed g link blank w) (fs : Fs)
    (file : Option Image) :
    g.backend.updateCurrentSymlink fs file =
      updateSymlink fs link ((file.map Subtype.val).getD blank) := by
  rw [h.managed]
  rfl

theorem Installed.attachFs (h : Installed g link blank w) {fs : Fs} {t : Path}
    (hlink : fs.lookup link = some (.link t)) (backing : Image) :
    (attachFs g w fs backing).lookup link = some (.link backing.1) ∧
      ∀ p, p ≠ link → (Gadget.attachFs g w fs backing).lookup p = fs.lookup p := by
  simp only [Gadget.attachFs, h.updateCurrentSymlink]
  refine ⟨lookup_updateSymlink _ _ _, fun p hp => ?_⟩
  split_ifs with hcurrent
  · exact lookup_updateSymlink_ne hlink hp
  · rw [lookup_updateSymlink_ne (lookup_updateSymlink fs link _) hp]
    exact lookup_updateSymlink_ne hlink hp

/-! ### Calls -/

theorem not_boots_of_session {target : Path} (hlink : w.fs.lookup link = some (.link target))
    (hout : link.dir ≠ g.sessionDir.asPosix) (hin : target.dir = g.sessionDir.asPosix) :
    ¬ Boots g link w := by
  rintro ⟨-, q, f, hres, -⟩
  -- after the reboot the link points into the emptied directory
  have hdangling : resolve (g.cleanupSession w.fs) link = none := by
    refine resolve_of_dangling (q := target) ?_ ?_
    · rw [lookup_cleanupSession, if_neg hout]
      exact hlink
    · rw [lookup_cleanupSession, if_pos hin]
  rw [hdangling] at hres
  cases hres

theorem Installed.mount_direct (h : Installed g link blank w) {w' : World} {disk : Image} {fs : Fs}
    (hne : link ≠ disk.1) (hdisk : FullImage g fs disk.1)
    (hframe : ∀ p, p ≠ disk.1 → fs.lookup p = w.fs.lookup p)
    (hfs : w'.fs = Gadget.attachFs g w fs disk) : Installed g link blank w' := by
  obtain ⟨target, hlink, htarget⟩ := h.target
  have hblank : FullImage g fs blank := by
    by_cases heq : blank = disk.1
    · rw [heq]
      exact hdisk
    · exact h.blank.congr (hframe blank heq)
  obtain ⟨hlink', hother⟩ := h.attachFs ((hframe link hne).trans hlink) disk
  refine ⟨h.managed, h.outside, ?_, disk.1, ?_, ?_⟩
  · rw [hfs]
    exact hblank.congr (hother blank (h.blank.ne_link hlink))
  · rw [hfs]
    exact hlink'
  · rw [hfs]
    exact hdisk.congr (hother disk.1 hne.symm)

theorem Installed.mount_iff (h : Installed g link blank w) {c : MountCall} {a : MountFaults}
    (hadm : Completes g w (.mount c a)) :
    (Boots g link (g.mount w c a).1 ↔ ¬ UsesScratch w.fs c) ∧
      (¬ UsesScratch w.fs c → Installed g link blank (g.mount w c a).1) := by
  obtain ⟨⟨image, hreturned⟩, hdisk, f, hf⟩ := hadm
  obtain ⟨fs, backing, hprep, hfs⟩ := mount_returned hreturned
  obtain ⟨target, hlink, htarget⟩ := h.target
  obtain ⟨hsize, hprepared⟩ := prepare_ok hf hdisk hprep
  cases hprepared with
  | scratch why backing_eq file frame =>
    have hlink' := (h.attachFs ((frame link h.outside).trans hlink) backing).1
    rw [← hfs] at hlink'
    have hin : backing.1.dir = g.sessionDir.asPosix := by
      rw [backing_eq]
      split_ifs <;> rfl
    have hboots := not_boots_of_session hlink' h.outside hin
    exact ⟨iff_of_false hboots fun hn => hn why, fun hn => absurd why hn⟩
  | direct why backing_eq file frame =>
    subst backing_eq
    have hne : link ≠ c.disk.1 := by
      rintro rfl
      rw [HasFile, hlink] at hf
      cases hf
    have hfull : FullImage g fs c.disk.1 := ⟨hdisk, _, file, max_eq_right hsize⟩
    have hinst := h.mount_direct hne hfull frame hfs
    exact ⟨iff_of_true hinst.boots why, fun _ => hinst⟩

theorem Installed.eject (h : Installed g link blank w) {fault : Option Errno}
    (hadm : Completes g w (.eject fault)) : Installed g link blank (g.eject w fault).1 := by
  obtain ⟨target, hlink, htarget⟩ := h.target
  have hfs : (g.eject w fault).1.fs = g.cleanupSession (updateSymlink w.fs link blank) := by
    rcases hdetach : g.configureLun w none false ⟨fault, none, none⟩ with ⟨w₁, _ | _⟩
    · simp only [Completes, GadgetController.eject, hdetach] at hadm
      cases hadm
    · have hfs₁ : w₁.fs = g.backend.updateCurrentSymlink w.fs none :=
        congrArg (fun r => r.1.fs) hdetach.symm
      simp only [GadgetController.eject, hdetach, hfs₁, h.updateCurrentSymlink]
      rfl
  have hblank : FullImage g (updateSymlink w.fs link blank) blank :=
    h.blank.congr (lookup_updateSymlink_ne hlink (h.blank.ne_link hlink))
  refine ⟨h.managed, h.outside, ?_, blank, ?_, ?_⟩
  · rw [hfs]
    exact hblank.cleanup
  · rw [hfs, lookup_cleanupSession, if_neg h.outside]
    exact lookup_updateSymlink _ _ _
  · rw [hfs]
    exact hblank.cleanup

theorem Installed.shutdown (h : Installed g link blank w) :
    Installed g link blank (g.shutdown w) := by
  obtain ⟨target, hlink, htarget⟩ := h.target
  refine ⟨h.managed, h.outside, h.blank.cleanup, target, ?_, htarget.cleanup⟩
  rw [GadgetController.shutdown, lookup_cleanupSession, if_neg h.outside]
  exact hlink

/-- In a run of calls that complete, current.img can be booted from after each call, also
after a reboot, exactly when every mount attaches the disk itself. -/
theorem boots_afterEach_iff (h : Installed g link blank w) (calls : List ServiceCall)
    (hadm : Guarded (serviceStep g) (Completes g) w calls) :
    AfterEach (serviceStep g) (Boots g link) w calls ↔
      Guarded (serviceStep g) MountsDirectly w calls := by
  refine afterEach_iff_guarded ?_ ?_ h hadm
  · intro w call h hadm hok
    cases call with
    | mount c a => exact (h.mount_iff hadm).2 hok
    | eject fault => exact h.eject hadm
    | shutdown => exact h.shutdown
  · intro w call h hadm
    cases call with
    | mount c a => exact (h.mount_iff hadm).1
    | eject fault => exact iff_of_true (h.eject hadm).boots trivial
    | shutdown => exact iff_of_true h.shutdown.boots trivial

def currentImg : Path := ⟨"/var/lib/usb-floppy-pi".toList, "current.img".toList, by decide⟩

def blankImg : Path := ⟨"/var/lib/usb-floppy-pi".toList, "blank.img".toList, by decide⟩

def bootController : GadgetController :=
  { sampleController with backend := ⟨some currentImg, some blankImg⟩ }

def bootDrive : World where
  fs := (sampleFs.insert blankImg (.file ⟨.zeros FLOPPY_SIZE_BYTES, true⟩)).insert currentImg
    (.link blankImg)
  lun := removableLun
  current := none

theorem installed_bootDrive : Installed bootController currentImg blankImg bootDrive := by
  have hblank : FullImage bootController bootDrive.fs blankImg :=
    ⟨by decide, ⟨.zeros FLOPPY_SIZE_BYTES, true⟩, rfl, rfl⟩
  exact ⟨rfl, by decide, hblank, blankImg, rfl, hblank⟩

/-- A full disk is mounted, and the service is shut down. -/
theorem boots_afterEach_iff_example :
    AfterEach (serviceStep bootController) (Boots bootController currentImg) bootDrive
      [.mount ⟨sampleSet, sampleDisk, false⟩ .none, .shutdown] := by
  have hdisk : HasFile bootDrive.fs sampleDisk.1 ⟨.zeros FLOPPY_SIZE_BYTES, true⟩ := rfl
  have hdirect : ¬ UsesScratch bootDrive.fs ⟨sampleSet, sampleDisk, false⟩ := by
    intro hscratch
    rcases (usesScratch_iff hdisk).mp hscratch with hsession | ⟨-, hlt⟩
    · cases hsession
    · exact absurd hlt (lt_irrefl _)
  exact (boots_afterEach_iff installed_bootDrive
    [.mount ⟨sampleSet, sampleDisk, false⟩ .none, .shutdown]
    ⟨⟨⟨_, rfl⟩, by decide, _, hdisk⟩, trivial, trivial⟩).mpr ⟨hdirect, trivial, trivial⟩

/-- A session mount completes, and a reboot takes the file the link points at. -/
theorem session_breaks_boot :
    Installed bootController currentImg blankImg bootDrive ∧
      Guarded (serviceStep bootController) (Completes bootController) bootDrive
        [.mount ⟨sampleSet, sampleDisk, true⟩ .none] ∧
      ¬ AfterEach (serviceStep bootController) (Boots bootController currentImg) bootDrive
        [.mount ⟨sampleSet, sampleDisk, true⟩ .none] := by
  refine ⟨installed_bootDrive, ⟨⟨⟨_, rfl⟩, by decide, _, rfl⟩, trivial⟩, fun h => ?_⟩
  obtain ⟨q, f, hres, -⟩ := h.1.2
  cases hres

end UsbFloppy.Gadget
