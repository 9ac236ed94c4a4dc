import UsbFloppy.Gadget.Boot

/-! What becomes of current.img when an operation is cut short, by a loss of power or by a
write that the kernel refuses. -/

namespace UsbFloppy.Gadget
open Files Kernel Transition

/-! ### Power loss -/

/-- An operation that the file system does as a whole. -/
inductive FsOp
  | unlink (p : Path)
  | rename (p q : Path)
  | symlink (p target : Path)
  deriving DecidableEq

def FsOp.apply (fs : Fs) : FsOp → Fs
  | .unlink p => fs.erase p
  | .rename p q => Files.rename fs p q
  | .symlink p target => fs.insert p (.link target)

/-- The operations of `_update_current_symlink`. -/
def linkOps (fs : Fs) (link newTarget : Path) : List FsOp :=
  (if (resolve fs link).isSome ∨ isSymlink fs link then
    if isSymlink fs link then [.unlink link] else [.rename link (bakPath link)]
  else []) ++ [.symlink link newTarget]

/-- The link leads to the image it led to before, or to the new one. -/
def LeadsToEither (before : Fs) (link newTarget : Path) (fs : Fs) : Prop :=
  ∃ image, resolve fs link = some image ∧
    (resolve before link = some image ∨ resolve before newTarget = some image)

/-- What the comment of `_update_current_symlink` promises. -/
structure ReplacesAtomically (fs : Fs) (link newTarget : Path) : Prop where
  atomic : Throughout FsOp.apply (LeadsToEither fs link newTarget) fs (linkOps fs link newTarget)
  preserved : ∀ f, HasFile fs link f →
    ∃ p, HasFile (run FsOp.apply fs (linkOps fs link newTarget)) p f

variable {fs : Fs} {link newTarget : Path}

theorem run_linkOps (fs : Fs) (link newTarget : Path) :
    run FsOp.apply fs (linkOps fs link newTarget) = updateSymlink fs link newTarget := by
  unfold linkOps updateSymlink
  split_ifs <;> rfl

theorem bakPath_ne (link : Path) : bakPath link ≠ link := by
  intro heq
  have hname : stem link.name ++ (suffix link.name ++ ".bak".toList) = link.name :=
    congrArg Path.name heq
  rw [← List.append_assoc, stem_append_suffix] at hname
  exact absurd (List.append_right_eq_self.mp hname) (by decide)

/-- A regular file in the link's place is kept aside on every call, in the place of an earlier
backup. -/
theorem updateSymlink_preserves {f : File} (h : HasFile fs link f) (newTarget : Path) :
    HasFile (updateSymlink fs link newTarget) (bakPath link) f := by
  have hsome : (resolve fs link).isSome = true := by rw [resolve_of_hasFile h]; rfl
  have hfile : ¬ isSymlink fs link = true := by
    unfold isSymlink
    rw [show fs.lookup link = some (.file f) from h]
    exact Bool.false_ne_true
  have hrename : rename fs link (bakPath link) =
      (fs.erase link).insert (bakPath link) (.file f) := by
    unfold rename
    rw [show fs.lookup link = some (.file f) from h]
  rw [updateSymlink, if_pos (Or.inl hsome), if_neg hfile, hrename, HasFile,
    AList.lookup_insert_ne (bakPath_ne link)]
  exact AList.lookup_insert _

theorem linkOps_gap (h : (resolve fs link).isSome) (newTarget : Path) :
    ∃ op, [op] <+: linkOps fs link newTarget ∧ (FsOp.apply fs op).lookup link = none := by
  unfold linkOps
  rw [if_pos (Or.inl h)]
  by_cases hsym : isSymlink fs link = true
  · rw [if_pos hsym]
    exact ⟨.unlink link, ⟨_, rfl⟩, AList.lookup_erase link fs⟩
  · rw [if_neg hsym]
    refine ⟨.rename link (bakPath link), ⟨_, rfl⟩, ?_⟩
    change (rename fs link (bakPath link)).lookup link = none
    unfold rename
    split
    · rw [AList.lookup_insert_ne (bakPath_ne link).symm, AList.lookup_erase]
    · assumption

theorem resolve_of_lookup_none (h : fs.lookup link = none) : resolve fs link = none := by
  simp only [resolve, followLinks, h]

/-- Where there was an image to boot from, there is a moment without one. -/
theorem replacement_never_atomic {image : Path × File} (h : resolve fs link = some image)
    (newTarget : Path) : ¬ ReplacesAtomically fs link newTarget := by
  intro hsafe
  obtain ⟨op, hprefix, hgone⟩ := linkOps_gap (by rw [h]; rfl) newTarget
  obtain ⟨image', hleads, -⟩ := hsafe.atomic [op] hprefix
  rw [run_cons, run_nil, resolve_of_lookup_none hgone] at hleads
  cases hleads

theorem replacement_never_atomic_example :
    ¬ ReplacesAtomically bootDrive.fs currentImg blankImg := by
  have hboot : resolve bootDrive.fs currentImg =
      some (blankImg, ⟨.zeros FLOPPY_SIZE_BYTES, true⟩) := rfl
  exact replacement_never_atomic hboot blankImg

/-- The power goes between unlink and symlink, while the link moves to a disk. -/
theorem power_loss_leaves_no_link :
    ¬ ∀ (fs : Fs) (link newTarget : Path), (resolve fs link).isSome → (resolve fs newTarget).isSome →
      ReplacesAtomically fs link newTarget := by
  intro h
  obtain ⟨image, hleads, -⟩ := (h bootDrive.fs currentImg sampleDisk.1 rfl rfl).atomic
    [.unlink currentImg] ⟨[.symlink currentImg sampleDisk.1], rfl⟩
  cases hleads

/-! ### Writes that fail -/

/-- Where the next boot should find its image once the call is over: the backing file that a
mount prepared, or the blank image. -/
def intended (g : GadgetController) (blank : Path) (w : World) : ServiceCall → Option Path
  | .mount c a =>
    match g.prepare w.fs c a.prep with
    | (_, .ok backing) => some backing.1
    | (_, .error _) => none
  | .eject _ => some blank
  | .shutdown => none

def Raises (g : GadgetController) (w : World) : ServiceCall → Prop
  | .mount c a => ∃ err, (g.mount w c a).2 = .raised err
  | .eject fault => (g.eject w fault).2 = false
  | .shutdown => False

/-- The call returned, or failed and left the link at what it was for. -/
def ReflectsIntent (g : GadgetController) (link blank : Path) (w : World) (call : ServiceCall) :
    Prop :=
  ∀ target, intended g blank w call = some target → Raises g w call →
    (serviceStep g w call).fs.lookup link = some (.link target)

/-- Nothing is mounted that the call must detach first, or it can be detached. -/
def DetachesFirst (w : World) : ServiceCall → Prop
  | .mount _ a => w.current = none ∨ (a.first = none ∧ ¬ locked w.lun)
  | _ => True

variable {g : GadgetController} {blank : Path} {w : World}

theorem lookup_updateCurrentSymlink_link (hmanaged : g.backend = ⟨some link, some blank⟩)
    (fs : Fs) (file : Option Image) :
    (g.backend.updateCurrentSymlink fs file).lookup link =
      some (.link ((file.map Subtype.val).getD blank)) := by
  rw [hmanaged]
  exact lookup_updateSymlink fs link _

theorem mount_raised_link (hmanaged : g.backend = ⟨some link, some blank⟩) {c : MountCall}
    {a : MountFaults} {fs : Fs} {backing : Image}
    (hprep : g.prepare w.fs c a.prep = (fs, .ok backing)) :
    (DetachesFirst w (.mount c a) →
      (g.mount w c a).1.fs.lookup link = some (.link backing.1)) ∧
      (¬ DetachesFirst w (.mount c a) → (∃ err, (g.mount w c a).2 = .raised err) ∧
        (g.mount w c a).1.fs.lookup link = some (.link blank)) := by
  have hout := mount_outcome g w c a
  generalize g.mount w c a = r at hout ⊢
  cases hout with
  | unprepared fs err prep => cases hprep.symm.trans prep
  | refused fs backing prep mounted why =>
    refine ⟨fun hfirst => ?_, fun _ => ⟨⟨_, rfl⟩, lookup_updateCurrentSymlink_link hmanaged _ _⟩⟩
    obtain ⟨hfault, hunlocked⟩ := hfirst.resolve_left mounted
    exact absurd why (not_or.mpr ⟨not_not.mpr hfault, hunlocked⟩)
  | swapped fs backing r prep mounted accepted unlocked finish =>
    cases hprep.symm.trans prep
    refine ⟨fun _ => ?_, fun hfirst => absurd (Or.inr ⟨accepted, unlocked⟩) hfirst⟩
    rw [finish.fs_eq]
    exact lookup_updateCurrentSymlink_link hmanaged _ _
  | loaded fs backing r prep empty finish =>
    cases hprep.symm.trans prep
    refine ⟨fun _ => ?_, fun hfirst => absurd (Or.inl empty) hfirst⟩
    rw [finish.fs_eq]
    exact lookup_updateCurrentSymlink_link hmanaged _ _

theorem eject_link (hmanaged : g.backend = ⟨some link, some blank⟩) {fault : Option Errno}
    (hraises : (g.eject w fault).2 = false) :
    (g.eject w fault).1.fs.lookup link = some (.link blank) := by
  have hout := eject_outcome g w fault
  generalize g.eject w fault = r at hout hraises ⊢
  cases hout with
  | refused why => exact lookup_updateCurrentSymlink_link hmanaged _ none
  | done fault_eq unlocked => cases hraises

/-- A call that fails leaves the link at what it was for, exactly unless it is a mount that
could not detach what was mounted, of another file than the blank image. -/
theorem reflectsIntent_iff (hmanaged : g.backend = ⟨some link, some blank⟩) (w : World)
    (call : ServiceCall) :
    ReflectsIntent g link blank w call ↔
      ∀ target, intended g blank w call = some target →
        DetachesFirst w call ∨ target = blank := by
  cases call with
  | shutdown => exact ⟨fun _ _ _ => Or.inl trivial, fun _ _ _ hraises => hraises.elim⟩
  | eject fault =>
    refine ⟨fun _ _ _ => Or.inl trivial, fun _ target htarget hraises => ?_⟩
    cases htarget
    exact eject_link hmanaged hraises
  | mount c a =>
    unfold ReflectsIntent
    rcases hprep : g.prepare w.fs c a.prep with ⟨fs, err | backing⟩
    · simp only [intended, hprep, reduceCtorEq, false_imp_iff, implies_true]
    simp only [intended, hprep, Option.some.injEq, forall_eq']
    obtain ⟨hdetached, hstuck⟩ := mount_raised_link hmanaged hprep
    constructor
    · intro h
      by_contra hno
      obtain ⟨hfirst, hother⟩ := not_or.mp hno
      obtain ⟨hraises, hlink⟩ := hstuck hfirst
      cases (h hraises).symm.trans hlink
      exact hother rfl
    · rintro (hfirst | hblank) hraises
      · exact hdetached hfirst
      · by_cases hfirst : DetachesFirst w (.mount c a)
        · exact hdetached hfirst
        · rw [hblank]
          exact (hstuck hfirst).2

theorem reflectsIntent_iff_example :
    ReflectsIntent bootController currentImg blankImg bootDrive (.eject (some .EBUSY)) :=
  (reflectsIntent_iff rfl bootDrive (.eject (some .EBUSY))).mpr fun _ _ => Or.inl trivial

/-- A disk is mounted, the host locks the door, and the next mount cannot detach it. -/
theorem failed_swap_boots_blank :
    ¬ ∀ (g : GadgetController) (link blank : Path) (w : World) (call : ServiceCall),
      g.backend = ⟨some link, some blank⟩ → ReflectsIntent g link blank w call := by
  intro h
  have hlink := h bootController currentImg blankImg
    (bootController.mount bootDrive ⟨sampleSet, sampleDisk, false⟩ .none).1
    (.mount ⟨sampleSet, sampleDisk, false⟩ ⟨.none, some .EBUSY, .none⟩) rfl sampleDisk.1 rfl
    ⟨.os, rfl⟩
  have hother : ((serviceStep bootController
      (bootController.mount bootDrive ⟨sampleSet, sampleDisk, false⟩ .none).1
      (.mount ⟨sampleSet, sampleDisk, false⟩ ⟨.none, some .EBUSY, .none⟩)).fs.lookup
        currentImg).map Node.mode ≠ some (.inr sampleDisk.1) := by decide +kernel
  rw [hlink] at hother
  exact hother rfl

end UsbFloppy.Gadget
