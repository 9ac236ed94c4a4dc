import Mathlib.Data.List.Perm.Basic
import UsbFloppy.Lib.Run
import UsbFloppy.Gadget.Faultless

/-! Coroutines of one event loop: mounts and ejects that interleave where a mount sleeps.
Every run is compared with the run of the same calls one after another. -/

namespace UsbFloppy.Gadget
open Files Kernel Transition

inductive Call
  | mount (c : MountCall)
  | eject
  deriving DecidableEq

/-- A mount that sleeps, with the backing file it prepared. -/
structure Suspended where
  call : MountCall
  backing : Image
  deriving DecidableEq

/-- `filled` tells which image the session directory was last filled with, and from which
disk; `returned` which mount the last event completed. -/
structure Loop where
  world : World
  suspended : List Suspended
  issued : List Call
  finished : List Call
  filled : Option (Image × Image)
  returned : Option MountCall
  failed : Bool

def Loop.init (w : World) : Loop := ⟨w, [], [], [], none, none, false⟩

inductive LoopEvent
  | start (c : MountCall)
  | resume (i : ℕ)
  | eject
  deriving DecidableEq

/-- Only a copy fills the session directory. -/
def Loop.fill (g : GadgetController) (s : Loop) (backing disk : Image) : Option (Image × Image) :=
  if backing.1.dir = g.sessionDir.asPosix then some (backing, disk) else s.filled

def loopStart (g : GadgetController) (s : Loop) (c : MountCall) : Loop :=
  match g.mountStart s.world c .none with
  | (w, .raised _) =>
    { s with world := w, issued := s.issued ++ [.mount c], returned := none, failed := true }
  | (w, .sleeping backing) =>
    { s with
      world := w
      suspended := s.suspended ++ [⟨c, backing⟩]
      issued := s.issued ++ [.mount c]
      filled := s.fill g backing c.disk
      returned := none }
  | (w, .returned image) =>
    { s with
      world := w
      issued := s.issued ++ [.mount c]
      finished := s.finished ++ [.mount c]
      filled := s.fill g image.backingPath c.disk
      returned := some c }

def loopResume (g : GadgetController) (s : Loop) (i : ℕ) : Loop :=
  match s.suspended[i]? with
  | none => { s with returned := none }
  | some x =>
    match g.mountFinish s.world x.call x.backing .none with
    | (w, .returned _) =>
      { s with
        world := w
        suspended := s.suspended.eraseIdx i
        finished := s.finished ++ [.mount x.call]
        returned := some x.call }
    | (w, _) =>
      { s with
        world := w
        suspended := s.suspended.eraseIdx i
        returned := none
        failed := true }

def loopEject (g : GadgetController) (s : Loop) : Loop :=
  match g.eject s.world none with
  | (w, true) =>
    { s with
      world := w
      issued := s.issued ++ [.eject]
      finished := s.finished ++ [.eject]
      filled := none
      returned := none }
  | (w, false) =>
    { s with world := w, issued := s.issued ++ [.eject], returned := none, failed := true }

def loopStep (g : GadgetController) (s : Loop) : LoopEvent → Loop
  | .start c => loopStart g s c
  | .resume i => loopResume g s i
  | .eject => loopEject g s

/-- The same calls, one after another. -/
def callStep (g : GadgetController) (w : World) : Call → World
  | .mount c => (g.mount w c .none).1
  | .eject => (g.eject w none).1

/-- The LUN's file exists and starts with the bytes of the disk. -/
def Serves (w : World) (disk : Image) : Prop :=
  ∃ (file : Image) (f d : File), AttachedTo w.lun file w.lun.ro ∧ HasFile w.fs file.1 f ∧
    HasFile w.fs disk.1 d ∧ f.contents.StartsWith d.contents

/-- What running the calls one after another would give. -/
structure Serial (g : GadgetController) (w₀ : World) (s : Loop) : Prop where
  succeeded : s.failed = false
  served : ∀ c, s.returned = some c → Serves s.world c.disk
  serial : s.suspended = [] → ∃ order : List Call, order.Perm s.issued ∧
    (run (callStep g) w₀ order).lun = s.world.lun ∧
    (run (callStep g) w₀ order).current = s.world.current

def StartsValid (g : GadgetController) (s : Loop) : LoopEvent → Prop
  | .start c => ∃ f, ValidMount g s.world.fs c f
  | _ => True

/-- When a mount of a copy wakes up, the session directory was last filled for the same
kind of mount and from a disk with its bytes. And the last sleeping mount of a padded
copy, if it is no session, finds its disk still undersize. -/
def CopyStands (g : GadgetController) (s : Loop) : LoopEvent → Prop
  | .resume i => ∀ x, s.suspended[i]? = some x → x.backing.1.dir = g.sessionDir.asPosix →
    (∃ e, s.filled = some (x.backing, e) ∧
      ∀ d d', HasFile s.world.fs e.1 d → HasFile s.world.fs x.call.disk.1 d' →
        (paddedFile d).contents.StartsWith d'.contents) ∧
    (x.call.session = false → s.suspended.length = 1 →
      ∀ d, HasFile s.world.fs x.call.disk.1 d → d.contents.size < FLOPPY_SIZE_BYTES)
  | _ => True

/-! ### The LUN without its medium -/

/-- What attaching and detaching leave of the LUN. -/
def bareLun (lun : FsgLun) : FsgLun :=
  { lun with
    filp := none
    fileLength := 0
    numSectors := 0
    initiallyRo := false
    ro := false
    unitAttentionData := 0
    blkbits := 0
    blksize := 0 }

theorem bareLun_detachedLun (lun : FsgLun) : bareLun (detachedLun lun) = bareLun lun := by
  unfold detachedLun
  split_ifs <;> rfl

theorem attachedLun_congr {lun lun' : FsgLun} (h : bareLun lun = bareLun lun') (file : Image)
    {f f' : File} (hsize : f.contents.size = f'.contents.size) (hw : f.writable = f'.writable)
    (ro : Bool) : attachedLun lun file f ro = attachedLun lun' file f' ro := by
  have hbare : attachedLun (bareLun lun) file f ro = attachedLun (bareLun lun') file f ro := by
    rw [h]
  have hfile : attachedLun lun' file f ro = attachedLun lun' file f' ro := by
    rw [attachedLun, attachedLun, hsize, hw]
  exact hbare.trans hfile

theorem prevent_of_bareLun {lun lun' : FsgLun} (h : bareLun lun = bareLun lun')
    (hopen : lun'.preventMediumRemoval = false) : lun.preventMediumRemoval = false :=
  (congrArg FsgLun.preventMediumRemoval h).trans hopen

/-! ### The invariant -/

/-- How the backing file of a sleeping mount was chosen. -/
inductive Suspended.Sound (g : GadgetController) (x : Suspended) (f : File) : Prop
  | session (session : x.call.session = true) (backing : x.backing = g.sessionImage)
  | sidecar (session : x.call.session = false) (ro : x.call.floppySet.readOnly = true)
      (backing : x.backing = g.roPaddedImage)
  | direct (session : x.call.session = false) (backing : x.backing = x.call.disk)
      (full : FLOPPY_SIZE_BYTES ≤ f.contents.size)

/-- The calls finished so far, one after another. -/
def serialWorld (g : GadgetController) (w₀ : World) (s : Loop) : World :=
  run (callStep g) w₀ s.finished

/-- The library file is the one of the serial run, or a sleeping mount has padded it. -/
def SameOrPadded (W : World) (s : Loop) (p : Path) : Prop :=
  W.fs.lookup p = s.world.fs.lookup p ∨
    ∃ f, HasFile W.fs p f ∧ HasFile s.world.fs p (paddedFile f) ∧
      ∃ x ∈ s.suspended, PadsInPlace x.call ∧ x.call.disk.1 = p

structure Inv (g : GadgetController) (w₀ : World) (s : Loop) : Prop where
  succeeded : s.failed = false
  served : ∀ c, s.returned = some c → Serves s.world c.disk
  device : bareLun s.world.lun = bareLun w₀.lun
  suspended : ∀ x ∈ s.suspended, ∃ f, ValidMount g s.world.fs x.call f ∧ x.Sound g f
  filled : ∀ file disk : Image, s.filled = some (file, disk) →
    file.1.dir = g.sessionDir.asPosix ∧ Outside g disk.1 ∧
      ∃ f, f.contents.size ≤ FLOPPY_SIZE_BYTES ∧ f.writable = true ∧ HasFile s.world.fs disk.1 f ∧
        HasFile s.world.fs file.1 (paddedFile f)
  issued : (s.finished ++ s.suspended.map fun x => Call.mount x.call).Perm s.issued
  serialDevice : bareLun (serialWorld g w₀ s).lun = bareLun w₀.lun
  library : ∀ p, Outside g p → SameOrPadded (serialWorld g w₀ s) s p
  settled : s.suspended = [] → (serialWorld g w₀ s).lun = s.world.lun ∧
    (serialWorld g w₀ s).current = s.world.current

variable {g : GadgetController} {w₀ : World} {s : Loop}

theorem inv_init (w : World) : Inv g w (.init w) where
  succeeded := rfl
  served c h := by cases h
  device := rfl
  suspended x hx := by cases hx
  filled file disk h := by cases h
  issued := .refl _
  serialDevice := rfl
  library p _ := Or.inl rfl
  settled _ := ⟨rfl, rfl⟩

theorem Inv.serial (h : Inv g w₀ s) : Serial g w₀ s where
  succeeded := h.succeeded
  served := h.served
  serial hnil := by
    have hperm := h.issued
    rw [hnil, List.map_nil, List.append_nil] at hperm
    exact ⟨s.finished, hperm, h.settled hnil⟩

theorem paddedFile_idem (f : File) (h : f.contents.size ≤ FLOPPY_SIZE_BYTES) :
    paddedFile (paddedFile f) = paddedFile f := paddedFile_of_full (paddedFile_size h).ge

theorem Inv.serialValid (h : Inv g w₀ s) {c : MountCall} {f : File}
    (hv : ValidMount g s.world.fs c f) :
    ∃ f₀, ValidMount g (serialWorld g w₀ s).fs c f₀ ∧ paddedFile f₀ = paddedFile f ∧
      ((∀ x ∈ s.suspended, PadsInPlace x.call → x.call.disk.1 ≠ c.disk.1) → f₀ = f) := by
  rcases h.library c.disk.1 hv.outside with heq | ⟨f₀, hf₀, hf, x, hx, hpads, hdisk⟩
  · exact ⟨f, ⟨hv.mem, hv.outside, heq.trans hv.file, hv.size, hv.writable⟩, rfl, fun _ => rfl⟩
  · have hfile : f = paddedFile f₀ := by
      have := hv.file.symm.trans hf
      cases this
      rfl
    have hsize : f₀.contents.size ≤ FLOPPY_SIZE_BYTES := by
      have hmax : max f₀.contents.size FLOPPY_SIZE_BYTES ≤ FLOPPY_SIZE_BYTES := by
        rw [hfile] at hv
        exact hv.size
      exact (le_max_left _ _).trans hmax
    refine ⟨f₀, ⟨hv.mem, hv.outside, hf₀, hsize, ?_⟩, ?_, fun hnone => ?_⟩
    · rw [hfile] at hv
      exact hv.writable
    · rw [hfile, paddedFile_idem f₀ hsize]
    · exact absurd hdisk (hnone x hx hpads)

/-! ### Steps -/

theorem perm_snoc_middle {α : Type*} {as bs cs : List α} (h : (as ++ bs).Perm cs) (x : α) :
    ((as ++ [x]) ++ bs).Perm (cs ++ [x]) := by
  have hmove : (as ++ ([x] ++ bs)).Perm (as ++ (bs ++ [x])) :=
    List.perm_append_comm.append_left as
  rw [← List.append_assoc, ← List.append_assoc] at hmove
  exact hmove.trans (h.append_right [x])

theorem HasFile.unique {fs : Fs} {p : Path} {f f' : File} (h : HasFile fs p f)
    (h' : HasFile fs p f') : f = f' := by
  rw [HasFile, h] at h'
  cases h'
  rfl

theorem ValidMount.congr {fs fs' : Fs} {c : MountCall} {f : File} (h : ValidMount g fs c f)
    (heq : fs'.lookup c.disk.1 = fs.lookup c.disk.1) : ValidMount g fs' c f :=
  ⟨h.mem, h.outside, heq.trans h.file, h.size, h.writable⟩

theorem ValidMount.pad {fs fs' : Fs} {c : MountCall} {f : File} (h : ValidMount g fs c f)
    (hf : HasFile fs' c.disk.1 (paddedFile f)) : ValidMount g fs' c (paddedFile f) :=
  ⟨h.mem, h.outside, hf, (paddedFile_size h.size).le, h.writable⟩

theorem serialWorld_append (g : GadgetController) (w₀ : World) (s : Loop) (call : Call) :
    run (callStep g) w₀ (s.finished ++ [call]) = callStep g (serialWorld g w₀ s) call := by
  rw [run_append]
  rfl

theorem SameOrPadded.congr {W W' : World} {s' : Loop} {p : Path} (h : SameOrPadded W s p)
    (hW : W'.fs.lookup p = W.fs.lookup p)
    (hs : s'.world.fs.lookup p = s.world.fs.lookup p)
    (hsub : ∀ x ∈ s.suspended, PadsInPlace x.call → x.call.disk.1 = p → x ∈ s'.suspended) :
    SameOrPadded W' s' p := by
  rcases h with heq | ⟨f, hf, hf', x, hx, hpads, hdisk⟩
  · exact Or.inl (hW.trans (heq.trans hs.symm))
  · exact Or.inr ⟨f, hW.trans hf, hs.trans hf', x, hsub x hx hpads hdisk, hpads, hdisk⟩

theorem Inv.eject (h : Inv g w₀ s) (hopen : w₀.lun.preventMediumRemoval = false) :
    Inv g w₀ (loopEject g s) := by
  have heject := eject_eq g (prevent_of_bareLun h.device hopen)
  have heject₀ := eject_eq g (prevent_of_bareLun h.serialDevice hopen)
  have hstep : loopEject g s = { s with
      world := (g.eject s.world none).1
      issued := s.issued ++ [.eject]
      finished := s.finished ++ [.eject]
      filled := none
      returned := none } := by
    simp only [loopEject, heject]
  have hserial : serialWorld g w₀ (loopEject g s) = (g.eject (serialWorld g w₀ s) none).1 := by
    rw [hstep]
    exact serialWorld_append g w₀ s .eject
  have hkeep : ∀ p, Outside g p →
      (loopEject g s).world.fs.lookup p = s.world.fs.lookup p := fun p hp => by
    rw [hstep, heject]
    exact lookup_eject s.world.fs hp
  refine ⟨?_, ?_, ?_, ?_, ?_, ?_, ?_, ?_, ?_⟩
  · rw [hstep]
    exact h.succeeded
  · intro c hc
    rw [hstep] at hc
    cases hc
  · rw [hstep, heject]
    exact (bareLun_detachedLun _).trans h.device
  · intro x hx
    rw [hstep] at hx
    obtain ⟨f, hv, hsound⟩ := h.suspended x hx
    exact ⟨f, hv.congr (hkeep _ hv.outside), hsound⟩
  · intro file disk hfilled
    rw [hstep] at hfilled
    cases hfilled
  · rw [hstep]
    exact perm_snoc_middle h.issued Call.eject
  · rw [hserial, heject₀]
    exact (bareLun_detachedLun _).trans h.serialDevice
  · intro p hp
    refine (h.library p hp).congr ?_ (hkeep p hp) fun x hx _ _ => ?_
    · rw [hserial, heject₀]
      exact lookup_eject _ hp
    · rw [hstep]
      exact hx
  · intro hnil
    rw [hstep] at hnil
    rw [hserial, heject₀, hstep, heject, (h.settled hnil).1]
    exact ⟨rfl, rfl⟩

theorem ValidMount.sound {fs : Fs} {c : MountCall} {f : File} (_ : ValidMount g fs c f) :
    Suspended.Sound g ⟨c, backingOf g f c⟩ (if PadsInPlace c then paddedFile f else f) := by
  by_cases hsession : c.session = true
  · exact .session hsession (if_pos hsession)
  have hnot := eq_false_of_ne_true hsession
  by_cases htemp : c.floppySet.readOnly = true ∧ f.contents.size < FLOPPY_SIZE_BYTES
  · exact .sidecar hnot htemp.1 (by rw [backingOf, if_neg hsession, if_pos htemp])
  · refine .direct hnot (by rw [backingOf, if_neg hsession, if_neg htemp]) ?_
    split_ifs with hpads
    · exact le_max_right _ _
    · have hro : c.floppySet.readOnly = true := by
        by_contra hro
        exact hpads ⟨hnot, eq_false_of_ne_true hro⟩
      exact not_lt.mp fun hlt => htemp ⟨hro, hlt⟩

theorem Suspended.Sound.pad {x : Suspended} {f : File} (h : x.Sound g f) :
    x.Sound g (paddedFile f) := by
  cases h with
  | session hs hb => exact .session hs hb
  | sidecar hs hro hb => exact .sidecar hs hro hb
  | direct hs hb hfull => exact .direct hs hb (le_max_right _ _)

theorem Inv.suspended_prepared (h : Inv g w₀ s) {c : MountCall} {f : File} {fs : Fs}
    (hv : ValidMount g s.world.fs c f) (hback : Backed g s.world.fs c f fs) {x : Suspended}
    (hx : x ∈ s.suspended) : ∃ f', ValidMount g fs x.call f' ∧ x.Sound g f' := by
  obtain ⟨f', hv', hsound⟩ := h.suspended x hx
  by_cases hdisk : x.call.disk.1 = c.disk.1
  · obtain rfl : f' = f := HasFile.unique hv'.file (hdisk ▸ hv.file)
    have hfile := hback.disk
    rw [← hdisk] at hfile
    split_ifs at hfile with hpads
    · exact ⟨_, hv'.pad hfile, hsound.pad⟩
    · exact ⟨f', hv'.congr (hfile.trans hv'.file.symm), hsound⟩
  · exact ⟨f', hv'.congr (hback.library _ hv'.outside hdisk), hsound⟩

theorem Inv.filled_prepared (h : Inv g w₀ s) {c : MountCall} {f : File} {fs : Fs}
    (hv : ValidMount g s.world.fs c f) (hback : Backed g s.world.fs c f fs)
    {file disk : Image} (hfilled : s.fill g (backingOf g f c) c.disk = some (file, disk)) :
    file.1.dir = g.sessionDir.asPosix ∧ Outside g disk.1 ∧
      ∃ f, f.contents.size ≤ FLOPPY_SIZE_BYTES ∧ f.writable = true ∧ HasFile fs disk.1 f ∧
        HasFile fs file.1 (paddedFile f) := by
  have hfull : (if PadsInPlace c then paddedFile f else f).contents.size ≤ FLOPPY_SIZE_BYTES := by
    split_ifs
    · exact (paddedFile_size hv.size).le
    · exact hv.size
  have hidem : paddedFile (if PadsInPlace c then paddedFile f else f) = paddedFile f := by
    split_ifs
    · exact paddedFile_idem f hv.size
    · rfl
  have hwritable : (if PadsInPlace c then paddedFile f else f).writable = true := by
    split_ifs
    · exact hv.writable
    · exact hv.writable
  unfold Loop.fill at hfilled
  split_ifs at hfilled with hdir
  · cases hfilled
    refine ⟨hdir, hv.outside, _, hfull, hwritable, hback.disk, ?_⟩
    rw [hidem]
    exact hback.file
  · obtain ⟨hin, hout, e, hsize, hw, he, hfile⟩ := h.filled file disk hfilled
    have hdirect := (backingOf_cases g f c).resolve_left hdir
    have hcopy := (hback.session hdirect file.1 hin).trans hfile
    by_cases hdisk : disk.1 = c.disk.1
    · obtain rfl : e = f := HasFile.unique he (hdisk ▸ hv.file)
      refine ⟨hin, hout, _, hfull, hwritable, hdisk ▸ hback.disk, ?_⟩
      rw [hidem]
      exact hcopy
    · exact ⟨hin, hout, e, hsize, hw, (hback.library _ hout hdisk).trans he, hcopy⟩

theorem Inv.library_prepared (h : Inv g w₀ s) {c : MountCall} {f : File}
    (hv : ValidMount g s.world.fs c f) {W' : World} {s' : Loop}
    (hback : Backed g s.world.fs c f s'.world.fs) (hsub : ∀ x ∈ s.suspended, x ∈ s'.suspended)
    (hother : ∀ p, Outside g p → p ≠ c.disk.1 → W'.fs.lookup p = (serialWorld g w₀ s).fs.lookup p)
    (hdisk : ¬ PadsInPlace c → W'.fs.lookup c.disk.1 = (serialWorld g w₀ s).fs.lookup c.disk.1)
    (hpads : PadsInPlace c → SameOrPadded W' s' c.disk.1) (p : Path) (hp : Outside g p) :
    SameOrPadded W' s' p := by
  by_cases heq : p = c.disk.1
  · subst heq
    by_cases hpad : PadsInPlace c
    · exact hpads hpad
    · have hfile := hback.disk
      rw [if_neg hpad] at hfile
      exact (h.library _ hp).congr (hdisk hpad) (hfile.trans hv.file.symm) fun x hx _ _ => hsub x hx
  · exact (h.library p hp).congr (hother p hp heq) (hback.library p hp heq) fun x hx _ _ => hsub x hx

theorem Inv.start_sleeping (h : Inv g w₀ s) (hopen : w₀.lun.preventMediumRemoval = false)
    (hlink : LinkOutside g) {c : MountCall} {f : File} (hv : ValidMount g s.world.fs c f)
    (hcurrent : s.world.current ≠ none) : Inv g w₀ (loopStart g s c) := by
  obtain ⟨fs₁, hprep, hback₁⟩ := hv.prepared
  have hstart := mountStart_of_mounted (prevent_of_bareLun h.device hopen) hcurrent hprep
  set fs₂ := g.backend.updateCurrentSymlink fs₁ none
  have hback : Backed g s.world.fs c f fs₂ := hback₁.relink hv hlink none
  have hstep : loopStart g s c = { s with
      world := { s.world with fs := fs₂, lun := detachedLun s.world.lun }
      suspended := s.suspended ++ [⟨c, backingOf g f c⟩]
      issued := s.issued ++ [.mount c]
      filled := s.fill g (backingOf g f c) c.disk
      returned := none } := by
    simp only [loopStart, hstart]
  obtain ⟨f₀, hv₀, hpadded, -⟩ := h.serialValid hv
  rw [hstep]
  refine ⟨h.succeeded, fun c hc => ?_, (bareLun_detachedLun _).trans h.device, ?_, ?_, ?_,
    h.serialDevice, ?_, fun hnil => ?_⟩
  · cases hc
  · intro x hx
    rcases List.mem_append.mp hx with hx | hx
    · exact h.suspended_prepared hv hback hx
    · obtain rfl := List.mem_singleton.mp hx
      refine ⟨_, ?_, hv.sound⟩
      split_ifs with hpads
      · exact hv.pad (by simpa only [if_pos hpads] using hback.disk)
      · exact ⟨hv.mem, hv.outside, by simpa only [if_neg hpads] using hback.disk, hv.size,
          hv.writable⟩
  · intro file disk hfilled
    exact h.filled_prepared hv hback hfilled
  · rw [List.map_append, ← List.append_assoc]
    exact h.issued.append_right _
  · refine h.library_prepared hv hback (fun x hx => List.mem_append_left _ hx) (fun _ _ _ => rfl)
      (fun _ => rfl) fun hpads => ?_
    -- the serial run pads the disk only when the mount wakes up
    have hfile := hback.disk
    rw [if_pos hpads, ← hpadded] at hfile
    exact Or.inr ⟨f₀, hv₀.file, hfile, _, List.mem_append_right _ (List.mem_singleton_self _),
      hpads, rfl⟩
  · simp at hnil

theorem Inv.start_returned (h : Inv g w₀ s) (hopen : w₀.lun.preventMediumRemoval = false)
    (hlink : LinkOutside g) {c : MountCall} {f : File} (hv : ValidMount g s.world.fs c f)
    (hcurrent : s.world.current = none) : Inv g w₀ (loopStart g s c) := by
  obtain ⟨fs₁, hprep, hback₁⟩ := hv.prepared
  have hstart := (mountStart_of_empty hcurrent hprep).eq_attached
    (not_locked (prevent_of_bareLun h.device hopen)) hback₁.file (hv.offLink_backing hlink)
    (paddedFile_size hv.size)
  set fs₂ := g.backend.updateCurrentSymlink fs₁ (some (backingOf g f c))
  have hback : Backed g s.world.fs c f fs₂ := hback₁.relink hv hlink _
  have hstep : loopStart g s c = { s with
      world := ⟨fs₂, attachedLun s.world.lun (backingOf g f c) (paddedFile f) c.readOnly,
        some (c.mounted (backingOf g f c))⟩
      issued := s.issued ++ [.mount c]
      finished := s.finished ++ [.mount c]
      filled := s.fill g (backingOf g f c) c.disk
      returned := some c } := by
    simp only [loopStart, hstart]
    rfl
  -- the same call at the end of the serial run
  obtain ⟨f₀, hv₀, hpadded, hsame⟩ := h.serialValid hv
  obtain ⟨fs', hmount₀, hback₀⟩ := hv₀.mount_eq hlink (prevent_of_bareLun h.serialDevice hopen)
  have hserial : serialWorld g w₀ (loopStart g s c) =
      ⟨fs', attachedLun (serialWorld g w₀ s).lun (backingOf g f₀ c) (paddedFile f₀) c.readOnly,
        some (c.mounted (backingOf g f₀ c))⟩ := by
    rw [hstep, serialWorld, serialWorld_append, callStep, hmount₀]
  rw [hstep] at hserial ⊢
  refine ⟨h.succeeded, fun c' hc => ?_, h.device, fun x hx => h.suspended_prepared hv hback hx,
    fun file disk hfilled => h.filled_prepared hv hback hfilled, perm_snoc_middle h.issued _, ?_, ?_,
    fun hnil => ?_⟩
  · cases hc
    refine ⟨backingOf g f c, paddedFile f, _, attachedTo_attachedLun _ _ _ _, hback.file,
      hback.disk, ?_⟩
    split_ifs
    · exact .refl _
    · exact f.contents.padTo_startsWith _
  · rw [hserial]
    exact h.serialDevice
  · rw [hserial]
    refine h.library_prepared hv hback (fun x hx => hx) hback₀.library (fun hpads => ?_)
      fun hpads => Or.inl ?_
    · have hfile := hback₀.disk
      rw [if_neg hpads] at hfile
      exact hfile.trans hv₀.file.symm
    · have hfile := hback.disk
      have hfile₀ := hback₀.disk
      rw [if_pos hpads] at hfile hfile₀
      rw [hpadded] at hfile₀
      exact hfile₀.trans hfile.symm
  · have hnil' : s.suspended = [] := hnil
    obtain rfl : f₀ = f := hsame fun x hx => by rw [hnil'] at hx; cases hx
    rw [hserial]
    exact ⟨attachedLun_congr (h.serialDevice.trans h.device.symm) _ rfl rfl _, rfl⟩

theorem Inv.start (h : Inv g w₀ s) (hopen : w₀.lun.preventMediumRemoval = false)
    (hlink : LinkOutside g) {c : MountCall} {f : File} (hv : ValidMount g s.world.fs c f) :
    Inv g w₀ (loopStart g s c) := by
  by_cases hcurrent : s.world.current = none
  · exact h.start_returned hopen hlink hv hcurrent
  · exact h.start_sleeping hopen hlink hv hcurrent

theorem Inv.backing (h : Inv g w₀ s) {i : ℕ} (hok : CopyStands g s (.resume i)) {x : Suspended}
    (hx : s.suspended[i]? = some x) {f : File} (hv : ValidMount g s.world.fs x.call f)
    (hsound : x.Sound g f) : ∃ fb, HasFile s.world.fs x.backing.1 fb ∧ fb.writable = true ∧
      fb.contents.size = FLOPPY_SIZE_BYTES ∧ fb.contents.StartsWith f.contents := by
  have hcopy : x.backing.1.dir = g.sessionDir.asPosix → ∃ fb, HasFile s.world.fs x.backing.1 fb ∧
      fb.writable = true ∧ fb.contents.size = FLOPPY_SIZE_BYTES ∧
      fb.contents.StartsWith f.contents := by
    intro hdir
    obtain ⟨⟨e, hfilled, hbytes⟩, -⟩ := hok x hx hdir
    obtain ⟨-, -, d, hsize, hw, hd, hfile⟩ := h.filled x.backing e hfilled
    exact ⟨paddedFile d, hfile, hw, paddedFile_size hsize, hbytes d f hd hv.file⟩
  cases hsound with
  | session hs hb => exact hcopy (by rw [hb]; rfl)
  | sidecar hs hro hb => exact hcopy (by rw [hb]; rfl)
  | direct hs hb hfull =>
    rw [hb]
    exact ⟨f, hv.file, hv.writable, le_antisymm hv.size hfull, .refl _⟩

theorem backingOf_serial {i : ℕ} (hok : CopyStands g s (.resume i))
    {x : Suspended} (hx : s.suspended[i]? = some x) (hlast : s.suspended = [x]) {f f₀ : File}
    (hv : ValidMount g s.world.fs x.call f) (hsound : x.Sound g f)
    (hsame : (∀ y ∈ s.suspended, PadsInPlace y.call → y.call.disk.1 ≠ x.call.disk.1) → f₀ = f) :
    backingOf g f₀ x.call = x.backing := by
  have heq : ¬ PadsInPlace x.call → f₀ = f := by
    intro hpads
    refine hsame fun y hy hy' => ?_
    rw [hlast, List.mem_singleton] at hy
    exact absurd (hy ▸ hy') hpads
  cases hsound with
  | session hs hb => rw [hb, backingOf, if_pos hs]
  | sidecar hs hro hb =>
    have hnot : ¬ PadsInPlace x.call := fun hpads => by
      rw [hpads.2] at hro
      cases hro
    have hdir : x.backing.1.dir = g.sessionDir.asPosix := by
      rw [hb]
      rfl
    have hsmall := (hok x hx hdir).2 hs (by rw [hlast]; rfl) f hv.file
    have hns : ¬ x.call.session = true := by simp [hs]
    rw [heq hnot, hb, backingOf, if_neg hns, if_pos ⟨hro, hsmall⟩]
  | direct hs hb hfull =>
    have hns : ¬ x.call.session = true := by simp [hs]
    by_cases hpads : PadsInPlace x.call
    · have hrw : ¬ (x.call.floppySet.readOnly = true ∧ f₀.contents.size < FLOPPY_SIZE_BYTES) := by
        simp [hpads.2]
      rw [hb, backingOf, if_neg hns, if_neg hrw]
    · have hrw : ¬ (x.call.floppySet.readOnly = true ∧ f.contents.size < FLOPPY_SIZE_BYTES) :=
        fun hall => absurd hall.2 (not_lt.mpr hfull)
      rw [heq hpads, hb, backingOf, if_neg hns, if_neg hrw]

theorem cons_eraseIdx_perm {α : Type*} {l : List α} {i : ℕ} {x : α} (h : l[i]? = some x) :
    (x :: l.eraseIdx i).Perm l := by
  obtain ⟨hi, rfl⟩ := List.getElem?_eq_some_iff.mp h
  exact List.getElem_cons_eraseIdx_perm hi

theorem Suspended.Sound.offLink {x : Suspended} {fs : Fs} {f : File} (h : x.Sound g f)
    (hlink : LinkOutside g) (hv : ValidMount g fs x.call f) : OffLink g x.backing.1 := by
  cases h with
  | session hs hb => exact hlink.offLink (by rw [hb]; rfl)
  | sidecar hs hro hb => exact hlink.offLink (by rw [hb]; rfl)
  | direct hs hb hfull =>
    rw [hb]
    exact hv.outside.offLink

theorem Suspended.Sound.full {x : Suspended} {f : File} (h : x.Sound g f)
    (hpads : PadsInPlace x.call) : FLOPPY_SIZE_BYTES ≤ f.contents.size := by
  cases h with
  | session hs hb =>
    rw [hpads.1] at hs
    cases hs
  | sidecar hs hro hb =>
    rw [hpads.2] at hro
    cases hro
  | direct hs hb hfull => exact hfull

theorem Inv.library_resumed (h : Inv g w₀ s) {x : Suspended} {f f₀ : File} {W' : World} {s' : Loop}
    (hperm : (x :: s'.suspended).Perm s.suspended) (hv : ValidMount g s.world.fs x.call f)
    (hsound : x.Sound g f) (hv₀ : ValidMount g (serialWorld g w₀ s).fs x.call f₀)
    (hpadded : paddedFile f₀ = paddedFile f)
    (hback₀ : Backed g (serialWorld g w₀ s).fs x.call f₀ W'.fs)
    (hkeep : ∀ p, OffLink g p → s'.world.fs.lookup p = s.world.fs.lookup p) (p : Path)
    (hp : Outside g p) : SameOrPadded W' s' p := by
  by_cases hpads : PadsInPlace x.call ∧ x.call.disk.1 = p
  · -- the serial run pads now what the mount padded before it slept
    obtain ⟨hpad, rfl⟩ := hpads
    have hdisk := hback₀.disk
    rw [if_pos hpad, hpadded, paddedFile_of_full (hsound.full hpad)] at hdisk
    exact Or.inl (hdisk.trans ((hkeep _ hp.offLink).trans hv.file).symm)
  · refine (h.library p hp).congr ?_ (hkeep p hp.offLink) fun y hy hypads hydisk => ?_
    · by_cases heq : p = x.call.disk.1
      · have hdisk := hback₀.disk
        rw [if_neg fun hpad => hpads ⟨hpad, heq.symm⟩] at hdisk
        rw [heq]
        exact hdisk.trans hv₀.file.symm
      · exact hback₀.library p hp heq
    · rcases List.mem_cons.mp (hperm.symm.subset hy) with rfl | hmem'
      · exact absurd ⟨hypads, hydisk⟩ hpads
      · exact hmem'

theorem Inv.resume (h : Inv g w₀ s) (hopen : w₀.lun.preventMediumRemoval = false)
    (hlink : LinkOutside g) {i : ℕ} (hok : CopyStands g s (.resume i)) :
    Inv g w₀ (loopResume g s i) := by
  -- there may be no such sleeper
  rcases hx : s.suspended[i]? with _ | x
  · have hstep : loopResume g s i = { s with returned := none } := by
      simp only [loopResume, hx]
    rw [hstep]
    exact { h with served := fun c hc => by cases hc }
  have hperm := cons_eraseIdx_perm hx
  have hmem : x ∈ s.suspended := hperm.subset List.mem_cons_self
  obtain ⟨f, hv, hsound⟩ := h.suspended x hmem
  obtain ⟨fb, hfile, hw, hfull, hstarts⟩ := h.backing hok hx hv hsound
  have hoff := hsound.offLink hlink hv
  have hfinish := (mountFinish_outcome g s.world x.call x.backing .none).eq_attached
    (not_locked (prevent_of_bareLun h.device hopen)) hfile hoff hfull
  set fs' := g.backend.updateCurrentSymlink s.world.fs (some x.backing)
  have hkeep : ∀ {p}, OffLink g p → fs'.lookup p = s.world.fs.lookup p := fun hp =>
    lookup_updateCurrentSymlink s.world.fs hp _
  have hstep : loopResume g s i = { s with
      world := ⟨fs', attachedLun s.world.lun x.backing fb x.call.readOnly,
        some (x.call.mounted x.backing)⟩
      suspended := s.suspended.eraseIdx i
      finished := s.finished ++ [.mount x.call]
      returned := some x.call } := by
    simp only [loopResume, hx, hfinish]
  -- serially, the call comes when it returns and not when it started
  obtain ⟨f₀, hv₀, hpadded, hsame⟩ := h.serialValid hv
  obtain ⟨fs₀, hmount₀, hback₀⟩ := hv₀.mount_eq hlink (prevent_of_bareLun h.serialDevice hopen)
  have hserial : serialWorld g w₀ (loopResume g s i) =
      ⟨fs₀, attachedLun (serialWorld g w₀ s).lun (backingOf g f₀ x.call) (paddedFile f₀)
        x.call.readOnly, some (x.call.mounted (backingOf g f₀ x.call))⟩ := by
    rw [hstep, serialWorld, serialWorld_append, callStep, hmount₀]
  rw [hstep] at hserial ⊢
  refine ⟨h.succeeded, fun c hc => ?_, h.device, fun y hy => ?_, fun file disk hfilled => ?_, ?_, ?_,
    fun p hp => ?_, fun hnil => ?_⟩
  · cases hc
    exact ⟨x.backing, fb, f, ⟨⟨_, rfl, rfl⟩, rfl⟩, (hkeep hoff).trans hfile,
      (hkeep hv.outside.offLink).trans hv.file, hstarts⟩
  · obtain ⟨f', hv', hsound'⟩ := h.suspended y (List.mem_of_mem_eraseIdx hy)
    exact ⟨f', hv'.congr (hkeep hv'.outside.offLink), hsound'⟩
  · obtain ⟨hin, hout, e, hsize, hwe, he, hcopy⟩ := h.filled file disk hfilled
    exact ⟨hin, hout, e, hsize, hwe, (hkeep hout.offLink).trans he,
      (hkeep (hlink.offLink hin)).trans hcopy⟩
  · have hmap := (hperm.map fun x : Suspended => Call.mount x.call).append_left s.finished
    rw [List.append_assoc]
    exact hmap.trans h.issued
  · rw [hserial]
    exact h.serialDevice
  · rw [hserial]
    exact h.library_resumed hperm hv hsound hv₀ hpadded hback₀ (fun _ => hkeep) p hp
  · -- nobody sleeps any more: the drive is that of the serial run, too
    have hnil' : s.suspended.eraseIdx i = [] := hnil
    rw [hnil'] at hperm
    have hlast : s.suspended = [x] := hperm.symm.eq_singleton
    have hbacking := backingOf_serial hok hx hlast hv hsound hsame
    rw [hserial, hbacking]
    exact ⟨attachedLun_congr (h.serialDevice.trans h.device.symm) _
      ((paddedFile_size hv₀.size).trans hfull.symm) (hv₀.writable.trans hw.symm) _, rfl⟩

/-- While every mount of a copy finds its copy when it wakes up, calls that interleave at
their sleeps behave as if run one after another. -/
theorem serial_throughout (hlink : LinkOutside g) (w : World)
    (hopen : w.lun.preventMediumRemoval = false) (es : List LoopEvent)
    (hvalid : Guarded (loopStep g) (StartsValid g) (.init w) es)
    (hok : Guarded (loopStep g) (CopyStands g) (.init w) es) :
    Throughout (loopStep g) (Serial g w) (.init w) es := by
  refine (throughout_invariant ?_ (inv_init w)
    (hvalid.and hok)).mono fun s h => h.serial
  rintro s e h ⟨hvalid, hok⟩
  cases e with
  | start c =>
    obtain ⟨f, hv⟩ := hvalid
    exact h.start hopen hlink hv
  | resume i => exact h.resume hopen hlink hok
  | eject => exact h.eject hopen

theorem sample_valid (session : Bool) :
    ValidMount sampleController sampleFs ⟨sampleSet, sampleDisk, session⟩
      ⟨.zeros FLOPPY_SIZE_BYTES, true⟩ := by
  have houtside : Outside sampleController sampleDisk.1 :=
    ⟨by decide, fun link hlink => by cases hlink⟩
  exact ⟨List.mem_singleton_self _, houtside, rfl, le_refl _, rfl⟩

/-- A mount of the disk starts while a session of it sleeps, and wakes up before it. -/
theorem serial_throughout_example :
    Throughout (loopStep sampleController) (Serial sampleController emptyDrive) (.init emptyDrive)
      [.start ⟨sampleSet, sampleDisk, false⟩, .start ⟨sampleSet, sampleDisk, true⟩,
        .start ⟨sampleSet, sampleDisk, false⟩, .resume 1, .resume 0, .eject] := by
  refine serial_throughout (fun link hlink => by cases hlink) emptyDrive rfl _
    ⟨⟨_, sample_valid false⟩, ⟨_, sample_valid true⟩, ⟨_, (sample_valid false).congr rfl⟩, trivial,
      trivial, trivial, trivial⟩
    ⟨trivial, trivial, trivial, fun x hx hdir => ?_, fun x hx _ => ?_, trivial, trivial⟩
  · -- the mount that wakes up first works on the disk itself
    cases hx
    exact absurd hdir (by decide)
  · cases hx
    refine ⟨⟨sampleDisk, rfl, fun d d' hd hd' => ?_⟩, fun hsession => by cases hsession⟩
    obtain rfl := HasFile.unique hd hd'
    exact d.contents.padTo_startsWith _

/-- An eject clears the session directory while a session mount sleeps. The mount wakes up
without its file and fails. -/
theorem eject_wipes_sleeping_session :
    let es : List LoopEvent :=
      [.start ⟨sampleSet, sampleDisk, false⟩, .start ⟨sampleSet, sampleDisk, true⟩, .eject,
        .resume 0]
    Guarded (loopStep sampleController) (StartsValid sampleController) (.init emptyDrive) es ∧
      ¬ Throughout (loopStep sampleController) (Serial sampleController emptyDrive)
        (.init emptyDrive) es := by
  intro es
  refine ⟨⟨⟨_, sample_valid false⟩, ⟨_, sample_valid true⟩, trivial, trivial, trivial⟩, fun h => ?_⟩
  have hsucceeded := (h es (List.prefix_refl es)).succeeded
  have hfailed : (run (loopStep sampleController) (.init emptyDrive) es).failed = true := rfl
  rw [hfailed] at hsucceeded
  cases hsucceeded

end UsbFloppy.Gadget
