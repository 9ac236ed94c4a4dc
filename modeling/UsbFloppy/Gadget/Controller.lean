import UsbFloppy.Gadget.SysfsBackend

/-! GadgetController: mount prepares a backing file, detaches what is mounted, sleeps, and
attaches the file; eject and shutdown detach and clear the session directory. A mount is
split at its sleep, the only point where other coroutines run. -/

namespace UsbFloppy.Gadget
open Files Kernel

def FLOPPY_SIZE_BYTES : ℕ := 1474560

/-- A folder of images; the scanner puts only its own images in. -/
structure FloppySet where
  name : Text
  path : Path
  disks : List Image
  readOnly : Bool
  disksIn : ∀ d ∈ disks, d.1.dir = path.asPosix
  deriving DecidableEq

structure MountedImage where
  setName : Text
  diskFilename : Text
  backingPath : Image
  readOnly : Bool
  isSession : Bool
  deriving DecidableEq

inductive MountError
  /-- The ValueError of a disk that is not in the set. -/
  | notInSet (disk : Image) (setName : Text)
  /-- DiskTooLargeError. -/
  | diskTooLarge (disk : Image) (size : ℕ)
  | os
  deriving DecidableEq

structure MountCall where
  floppySet : FloppySet
  disk : Image
  session : Bool
  deriving DecidableEq

/-- How far the file operations of a mount get: whether the directory can be made, and
after how many bytes copying and padding stop with an error. -/
structure PrepFaults where
  mkdir : Bool
  copy : Option ℕ
  pad : Option ℕ
  deriving DecidableEq, Repr

def PrepFaults.none : PrepFaults := ⟨false, .none, .none⟩

structure GadgetController where
  backend : SysfsBackend
  sessionDir : Path
  deriving DecidableEq

/-- The file system, the LUN and the controller's own record of what is mounted. -/
structure World where
  fs : Fs
  lun : FsgLun
  current : Option MountedImage

/-- `_cleanup_session`. -/
def GadgetController.cleanupSession (g : GadgetController) (fs : Fs) : Fs :=
  unlinkAll fs (children fs g.sessionDir.asPosix)

/-- `_pad_to_full`: zero bytes are appended, unless the file is too large already. -/
def padToFull (fs : Fs) (p : Path) (fault : Option ℕ) : Fs × Except MountError Unit :=
  match resolve fs p with
  | none => (fs, .error .os)
  | some (q, f) =>
    if f.writable = false then (fs, .error .os)
    else match fault with
      | none =>
        (fs.insert q (.file { f with contents := f.contents.padTo FLOPPY_SIZE_BYTES }), .ok ())
      | some n =>
        (fs.insert q (.file { f with
          contents := f.contents.padTo (min (f.contents.size + n) FLOPPY_SIZE_BYTES) }), .error .os)

/-- `shutil.copyfile` to a path that does not exist yet. -/
def copyfile (fs : Fs) (src dst : Path) (fault : Option ℕ) : Fs × Except MountError Unit :=
  match resolve fs src with
  | none => (fs, .error .os)
  | some (_, f) =>
    match fault with
    | none => (fs.insert dst (.file ⟨f.contents, true⟩), .ok ())
    | some n => (fs.insert dst (.file ⟨f.contents.take n, true⟩), .error .os)

def GadgetController.sessionImage (g : GadgetController) : Image :=
  ⟨g.sessionDir.child "session.img".toList, show lower (suffix "session.img".toList) = _ by decide⟩

def GadgetController.roPaddedImage (g : GadgetController) : Image :=
  ⟨g.sessionDir.child "ro-padded.img".toList,
    show lower (suffix "ro-padded.img".toList) = _ by decide⟩

/-- A fresh copy of the disk in the session directory, padded or not. -/
def GadgetController.scratchCopy (g : GadgetController) (fs : Fs) (disk backing : Image)
    (pad : Bool) (a : PrepFaults) : Fs × Except MountError Unit :=
  let fs := g.cleanupSession fs
  if a.mkdir then (fs, .error .os)
  else match copyfile fs disk.1 backing.1 a.copy with
    | (fs, .error e) => (fs, .error e)
    | (fs, .ok ()) => if pad then padToFull fs backing.1 a.pad else (fs, .ok ())

/-- `mount` up to the choice of the backing file. -/
def GadgetController.prepare (g : GadgetController) (fs : Fs) (c : MountCall) (a : PrepFaults) :
    Fs × Except MountError Image :=
  if c.disk ∉ c.floppySet.disks then (fs, .error (.notInSet c.disk c.floppySet.name))
  else match resolve fs c.disk.1 with
    | none => (fs, .error .os)
    | some (_, f) =>
      let size := f.contents.size
      let needsPadToTemp := size < FLOPPY_SIZE_BYTES ∧ c.floppySet.readOnly ∧ ¬ c.session
      if size > FLOPPY_SIZE_BYTES then (fs, .error (.diskTooLarge c.disk size))
      else if c.session then
        let (fs, r) := g.scratchCopy fs c.disk g.sessionImage (size < FLOPPY_SIZE_BYTES) a
        (fs, r.map fun _ => g.sessionImage)
      else if needsPadToTemp then
        let (fs, r) := g.scratchCopy fs c.disk g.roPaddedImage true a
        (fs, r.map fun _ => g.roPaddedImage)
      else if size < FLOPPY_SIZE_BYTES then
        let (fs, r) := padToFull fs c.disk.1 a.pad
        (fs, r.map fun _ => c.disk)
      else (fs, .ok c.disk)

def GadgetController.configureLun (g : GadgetController) (w : World) (file : Option Image)
    (ro : Bool) (e : WriteFaults) : World × Bool :=
  let (fs, written) := g.backend.configureLun w.fs w.lun file ro e.moments
  ({ w with fs := fs, lun := written.lun }, written.failed.isNone)

/-- Where a mount stands when it gives up control. -/
inductive Progress
  | raised (e : MountError)
  | sleeping (backing : Image)
  | returned (image : MountedImage)
  deriving DecidableEq

def Progress.hasReturned : Progress → Bool
  | .returned _ => true
  | _ => false

def MountCall.readOnly (c : MountCall) : Bool := c.floppySet.readOnly && !c.session

def MountCall.mounted (c : MountCall) (backing : Image) : MountedImage where
  setName := c.floppySet.name
  diskFilename := c.disk.1.name
  backingPath := backing
  readOnly := c.readOnly
  isSession := c.session

/-- `mount` after the sleep. -/
def GadgetController.mountFinish (g : GadgetController) (w : World) (c : MountCall)
    (backing : Image) (e : WriteFaults) : World × Progress :=
  match g.configureLun w (some backing) c.readOnly e with
  | (w, false) => (w, .raised .os)
  | (w, true) => ({ w with current := some (c.mounted backing) }, .returned (c.mounted backing))

/-- The errors met during one mount. -/
structure MountFaults where
  prep : PrepFaults
  first : Option Errno
  second : WriteFaults
  deriving DecidableEq

def MountFaults.none : MountFaults := ⟨.none, .none, .none⟩

/-- `mount` up to its sleep, or to its end where nothing was mounted before. -/
def GadgetController.mountStart (g : GadgetController) (w : World) (c : MountCall)
    (a : MountFaults) : World × Progress :=
  match g.prepare w.fs c a.prep with
  | (fs, .error e) => ({ w with fs := fs }, .raised e)
  | (fs, .ok backing) =>
    let w := { w with fs := fs }
    if w.current ≠ none then
      match g.configureLun w none false ⟨a.first, .none, .none⟩ with
      | (w, false) => (w, .raised .os)
      | (w, true) => (w, .sleeping backing)
    else g.mountFinish w c backing a.second

/-- `mount` when no other coroutine runs while it sleeps. -/
def GadgetController.mount (g : GadgetController) (w : World) (c : MountCall) (a : MountFaults) :
    World × Progress :=
  match g.mountStart w c a with
  | (w, .sleeping backing) => g.mountFinish w c backing a.second
  | done => done

/-- `eject`, and whether it returned. -/
def GadgetController.eject (g : GadgetController) (w : World) (fault : Option Errno) :
    World × Bool :=
  match g.configureLun w none false ⟨fault, .none, .none⟩ with
  | (w, false) => (w, false)
  | (w, true) => ({ w with fs := g.cleanupSession w.fs, current := none }, true)

/-- `shutdown`. The gadget itself belongs to the kernel module and stays. -/
def GadgetController.shutdown (g : GadgetController) (w : World) : World :=
  { w with fs := g.cleanupSession w.fs }

/-! ### The backing file -/

/-- The mount works on a copy in the session directory. -/
def UsesScratch (fs : Fs) (c : MountCall) : Prop :=
  c.session = true ∨
    (c.floppySet.readOnly = true ∧ ∃ q f, resolve fs c.disk.1 = some (q, f) ∧
      f.contents.size < FLOPPY_SIZE_BYTES)

/-- What a preparation that succeeds leaves, for a disk that is a regular file. -/
inductive Prepared (g : GadgetController) (fs : Fs) (c : MountCall) (f : File) (fs' : Fs)
    (backing : Image) : Prop
  | scratch (why : UsesScratch fs c)
      (backing_eq : backing = if c.session then g.sessionImage else g.roPaddedImage)
      (file : HasFile fs' backing.1 ⟨f.contents.padTo FLOPPY_SIZE_BYTES, true⟩)
      (frame : ∀ p : Path, p.dir ≠ g.sessionDir.asPosix → fs'.lookup p = fs.lookup p)
  | direct (why : ¬ UsesScratch fs c) (backing_eq : backing = c.disk)
      (file : HasFile fs' c.disk.1 { f with contents := f.contents.padTo FLOPPY_SIZE_BYTES })
      (frame : ∀ p : Path, p ≠ c.disk.1 → fs'.lookup p = fs.lookup p)

@[simp] theorem sessionImage_dir (g : GadgetController) :
    g.sessionImage.1.dir = g.sessionDir.asPosix := rfl

@[simp] theorem roPaddedImage_dir (g : GadgetController) :
    g.roPaddedImage.1.dir = g.sessionDir.asPosix := rfl

theorem lookup_cleanupSession (g : GadgetController) (fs : Fs) (p : Path) :
    (g.cleanupSession fs).lookup p =
      if p.dir = g.sessionDir.asPosix then none else fs.lookup p :=
  lookup_unlinkAll_children fs g.sessionDir.asPosix p

theorem hasFile_insert (fs : Fs) (p : Path) (f : File) : HasFile (fs.insert p (.file f)) p f :=
  AList.lookup_insert fs

theorem padToFull_ok {fs fs' : Fs} {p : Path} {f : File} {fault : Option ℕ}
    (hf : HasFile fs p f) (h : padToFull fs p fault = (fs', .ok ())) :
    fs' = fs.insert p (.file { f with contents := f.contents.padTo FLOPPY_SIZE_BYTES }) := by
  rw [padToFull, resolve_of_hasFile hf] at h
  dsimp only at h
  split_ifs at h
  · cases h
  · split at h
    · exact (Prod.mk.inj h).1.symm
    · cases h

theorem scratchCopy_ok {g : GadgetController} {fs fs' : Fs} {disk backing : Image} {f : File}
    {pad : Bool} {a : PrepFaults} (hf : HasFile fs disk.1 f)
    (hdisk : disk.1.dir ≠ g.sessionDir.asPosix) (hback : backing.1.dir = g.sessionDir.asPosix)
    (hpad : pad = false → FLOPPY_SIZE_BYTES ≤ f.contents.size)
    (h : g.scratchCopy fs disk backing pad a = (fs', .ok ())) :
    HasFile fs' backing.1 ⟨f.contents.padTo FLOPPY_SIZE_BYTES, true⟩ ∧
      ∀ p : Path, p.dir ≠ g.sessionDir.asPosix → fs'.lookup p = fs.lookup p := by
  have hclean : HasFile (g.cleanupSession fs) disk.1 f := by
    rw [HasFile, lookup_cleanupSession, if_neg hdisk]
    exact hf
  have hframe : ∀ (fs₁ : Fs) (node : Node) (p : Path), p.dir ≠ g.sessionDir.asPosix →
      (fs₁.insert backing.1 node).lookup p = fs₁.lookup p := fun fs₁ node p hp =>
    AList.lookup_insert_ne fun heq => hp (heq ▸ hback)
  have hkeep : ∀ p : Path, p.dir ≠ g.sessionDir.asPosix →
      (g.cleanupSession fs).lookup p = fs.lookup p := fun p hp => by
    rw [lookup_cleanupSession, if_neg hp]
  rcases hcopy : a.copy with _ | n
  · simp only [GadgetController.scratchCopy, copyfile, resolve_of_hasFile hclean, hcopy] at h
    split_ifs at h with hmkdir hp
    · cases h
    · rw [padToFull_ok (hasFile_insert _ _ _) h]
      refine ⟨hasFile_insert _ _ _, fun p hp => ?_⟩
      rw [hframe _ _ p hp, hframe _ _ p hp, hkeep p hp]
    · rw [← (Prod.mk.inj h).1]
      refine ⟨?_, fun p hp => by rw [hframe _ _ p hp, hkeep p hp]⟩
      rw [Contents.padTo_of_le (hpad (eq_false_of_ne_true hp))]
      exact hasFile_insert _ _ _
  · simp only [GadgetController.scratchCopy, copyfile, resolve_of_hasFile hclean, hcopy] at h
    split_ifs at h <;> cases h

theorem usesScratch_iff {fs : Fs} {c : MountCall} {f : File} (hf : HasFile fs c.disk.1 f) :
    UsesScratch fs c ↔ c.session = true ∨
      (c.floppySet.readOnly = true ∧ f.contents.size < FLOPPY_SIZE_BYTES) := by
  rw [UsesScratch, resolve_of_hasFile hf]
  constructor
  · rintro (hs | ⟨hro, q, f', hf', hlt⟩)
    · exact Or.inl hs
    · cases hf'
      exact Or.inr ⟨hro, hlt⟩
  · rintro (hs | ⟨hro, hlt⟩)
    · exact Or.inl hs
    · exact Or.inr ⟨hro, _, f, rfl, hlt⟩

theorem map_ok {r : Except MountError Unit} {x y : Image}
    (h : (r.map fun _ => x) = .ok y) : r = .ok () ∧ x = y := by
  cases r with
  | error e => cases h
  | ok u => exact ⟨rfl, Except.ok.inj h⟩

theorem prepare_ok {g : GadgetController} {fs fs' : Fs} {c : MountCall} {a : PrepFaults}
    {backing : Image} {f : File} (hf : HasFile fs c.disk.1 f)
    (hdisk : c.disk.1.dir ≠ g.sessionDir.asPosix) (h : g.prepare fs c a = (fs', .ok backing)) :
    f.contents.size ≤ FLOPPY_SIZE_BYTES ∧ Prepared g fs c f fs' backing := by
  have hscratch := usesScratch_iff hf
  simp only [GadgetController.prepare, resolve_of_hasFile hf] at h
  split_ifs at h with hmem hlarge hsession htemp hsmall
  · cases h
  · obtain ⟨hfs, hr⟩ := Prod.mk.inj h
    obtain ⟨hok, rfl⟩ := map_ok hr
    have hcopy := scratchCopy_ok hf hdisk (sessionImage_dir g)
      (fun hp => not_lt.mp (of_decide_eq_false hp)) (Prod.ext hfs hok)
    exact ⟨not_lt.mp hlarge, .scratch (hscratch.mpr (Or.inl hsession)) (if_pos hsession).symm
      hcopy.1 hcopy.2⟩
  · obtain ⟨hfs, hr⟩ := Prod.mk.inj h
    obtain ⟨hok, rfl⟩ := map_ok hr
    have hcopy := scratchCopy_ok hf hdisk (roPaddedImage_dir g) (fun hp => by cases hp)
      (Prod.ext hfs hok)
    exact ⟨not_lt.mp hlarge, .scratch (hscratch.mpr (Or.inr ⟨htemp.2.1, htemp.1⟩))
      (if_neg hsession).symm hcopy.1 hcopy.2⟩
  · obtain ⟨hfs, hr⟩ := Prod.mk.inj h
    obtain ⟨hok, rfl⟩ := map_ok hr
    have hpad := padToFull_ok hf (Prod.ext hfs hok)
    refine ⟨not_lt.mp hlarge, .direct (fun hs => ?_) rfl ?_ fun p hp => ?_⟩
    · rcases hscratch.mp hs with hs | ⟨hro, hlt⟩
      · exact hsession hs
      · exact htemp ⟨hlt, hro, hsession⟩
    · rw [hpad]
      exact hasFile_insert _ _ _
    · rw [hpad]
      exact AList.lookup_insert_ne hp
  · obtain ⟨rfl, hback⟩ := Prod.mk.inj h
    cases hback
    refine ⟨not_lt.mp hlarge, .direct (fun hs => ?_) rfl ?_ fun _ _ => rfl⟩
    · rcases hscratch.mp hs with hs | ⟨-, hlt⟩
      · exact hsession hs
      · exact hsmall hlt
    · rw [Contents.padTo_of_le (not_lt.mp hsmall)]
      exact hf
  · cases h

/-! ### What a preparation can change, whether it succeeds or not -/

theorem padToFull_frame (fs : Fs) (p : Path) (fault : Option ℕ) (x : Path) :
    (padToFull fs p fault).1.lookup x = fs.lookup x ∨
      ∃ f f', resolve fs p = some (x, f) ∧ HasFile (padToFull fs p fault).1 x f' := by
  unfold padToFull
  rcases hres : resolve fs p with _ | ⟨q, f⟩
  · exact Or.inl rfl
  dsimp only
  split_ifs
  · exact Or.inl rfl
  by_cases hx : x = q
  · subst hx
    right
    split
    · exact ⟨f, _, rfl, hasFile_insert _ _ _⟩
    · exact ⟨f, _, rfl, hasFile_insert _ _ _⟩
  · left
    split <;> exact AList.lookup_insert_ne hx

theorem scratchCopy_frame (g : GadgetController) (fs : Fs) (disk : Image) {backing : Image}
    (pad : Bool) (a : PrepFaults) (hback : backing.1.dir = g.sessionDir.asPosix) {x : Path}
    (hx : x.dir ≠ g.sessionDir.asPosix) :
    (g.scratchCopy fs disk backing pad a).1.lookup x = fs.lookup x := by
  have hclean : (g.cleanupSession fs).lookup x = fs.lookup x := by
    rw [lookup_cleanupSession, if_neg hx]
  have hne : x ≠ backing.1 := fun heq => hx ((congrArg Path.dir heq).trans hback)
  have hcopy : ∀ node, ((g.cleanupSession fs).insert backing.1 node).lookup x = fs.lookup x :=
    fun node => (AList.lookup_insert_ne hne).trans hclean
  unfold GadgetController.scratchCopy copyfile
  dsimp only
  by_cases hmkdir : a.mkdir = true
  · rw [if_pos hmkdir]
    exact hclean
  rw [if_neg hmkdir]
  rcases resolve (g.cleanupSession fs) disk.1 with _ | ⟨q, f⟩
  · exact hclean
  rcases a.copy with _ | n
  · cases pad
    · exact hcopy _
    · rcases padToFull_frame ((g.cleanupSession fs).insert backing.1 (.file ⟨f.contents, true⟩))
        backing.1 a.pad x with hkeep | ⟨f₁, f₂, hres, -⟩
      · exact hkeep.trans (hcopy _)
      · rw [resolve_of_hasFile (hasFile_insert _ _ _)] at hres
        cases hres
        exact absurd rfl hne
  · exact hcopy _

/-- Outside the session directory a preparation changes at most the file it pads in place. -/
theorem prepare_frame (g : GadgetController) (fs : Fs) (c : MountCall) (a : PrepFaults) {x : Path}
    (hx : x.dir ≠ g.sessionDir.asPosix) :
    (g.prepare fs c a).1.lookup x = fs.lookup x ∨
      (c.session = false ∧ c.floppySet.readOnly = false) ∧ ∃ f f',
        resolve fs c.disk.1 = some (x, f) ∧ f.contents.size < FLOPPY_SIZE_BYTES ∧
          HasFile (g.prepare fs c a).1 x f' := by
  unfold GadgetController.prepare
  by_cases hmem : c.disk ∉ c.floppySet.disks
  · rw [if_pos hmem]
    exact Or.inl rfl
  rw [if_neg hmem]
  rcases hres : resolve fs c.disk.1 with _ | ⟨q, f⟩
  · exact Or.inl rfl
  dsimp only
  split_ifs with hlarge hsession htemp hsmall
  · exact Or.inl rfl
  · exact Or.inl (scratchCopy_frame g fs c.disk _ a (sessionImage_dir g) hx)
  · exact Or.inl (scratchCopy_frame g fs c.disk _ a (roPaddedImage_dir g) hx)
  · rcases padToFull_frame fs c.disk.1 a.pad x with hkeep | ⟨f₁, f₂, hres', hfile⟩
    · exact Or.inl hkeep
    · rw [hres] at hres'
      cases hres'
      have hro : c.floppySet.readOnly = false := by
        by_contra hro
        exact htemp ⟨hsmall, eq_true_of_ne_false hro, hsession⟩
      exact Or.inr ⟨⟨eq_false_of_ne_true hsession, hro⟩, f, f₂, rfl, hsmall, hfile⟩
  · exact Or.inl rfl

theorem padToFull_sameModes (fs : Fs) (p : Path) (fault : Option ℕ) :
    SameModes fs (padToFull fs p fault).1 := by
  have hsame : SameModes fs fs := fun _ => rfl
  unfold padToFull
  rcases hres : resolve fs p with _ | ⟨q, f⟩
  · exact hsame
  dsimp only
  split_ifs
  · exact hsame
  · split <;> exact SameModes.of_insert (hasFile_of_resolve hres) rfl

theorem prepare_direct {g : GadgetController} {fs fs' : Fs} {c : MountCall} {a : PrepFaults}
    {backing : Image} (hsession : c.session = false) (hro : c.floppySet.readOnly = false)
    (h : g.prepare fs c a = (fs', .ok backing)) : backing = c.disk ∧ SameModes fs fs' := by
  unfold GadgetController.prepare at h
  by_cases hmem : c.disk ∉ c.floppySet.disks
  · rw [if_pos hmem] at h
    cases h
  rw [if_neg hmem] at h
  split at h
  · cases h
  dsimp only at h
  split_ifs at h with hlarge hs htemp hsmall
  · cases h
  · rw [hsession] at hs
    cases hs
  · rw [hro] at htemp
    cases htemp.2.1
  · obtain ⟨hfs, hr⟩ := Prod.mk.inj h
    obtain ⟨hok, rfl⟩ := map_ok hr
    rw [← hfs]
    exact ⟨rfl, padToFull_sameModes fs c.disk.1 a.pad⟩
  · obtain ⟨rfl, hback⟩ := Prod.mk.inj h
    cases hback
    exact ⟨rfl, fun _ => rfl⟩

/-! ### A drive to try things on -/

theorem slash_not_mem_games : '/' ∉ "games".toList := by decide

theorem slash_not_mem_floppies : '/' ∉ "floppies".toList := by decide

def sampleSet : FloppySet where
  name := "games".toList
  path := ⟨"/home/pi/floppies".toList, "games".toList, slash_not_mem_games⟩
  disks := [sampleDisk]
  readOnly := true
  disksIn := by decide

def sampleController : GadgetController where
  backend := ⟨none, none⟩
  sessionDir := ⟨"/tmp".toList, "usb-floppy-pi-sessions".toList, by decide⟩

def emptyDrive : World := ⟨sampleFs, removableLun, none⟩

end UsbFloppy.Gadget
