import UsbFloppy.Gadget.Faultless
import UsbFloppy.Lib.Run
import UsbFloppy.Web.Api

/-! The read-only flag of a set lives in its marker file, in the library's snapshot and in the
LUN. Whether a readonly request that returned is honoured depends on how fresh the snapshot
is that a mount works with. -/

namespace UsbFloppy.Web
open Files Kernel Gadget Storage Transition

/-- What the latest readonly request of a set returned; none while it sleeps or after it
failed. -/
def ApiState.promise (s : ApiState) (name : Text) : Option Bool :=
  (s.latest name).bind fun l => if l.returned then some l.ro else none

/-- The LUN's flag is the promised one while a disk of the set itself is attached. -/
def Honoured (s : ApiState) : Prop :=
  ∀ c ro, s.world.lun.isOpen = true → s.attachedBy = some c → c.session = false →
    s.promise c.floppySet.name = some ro → s.world.lun.ro = ro

/-- The path lies in the folder of the set. -/
def InSet (root : Path) (name : Text) (p : Path) : Prop :=
  ∃ folder : Path, folder.dir = root.asPosix ∧ folder.name = name ∧ p.dir = folder.asPosix

/-- Images come and go by the hand of the user only. -/
def ApiEvent.movesImage : ApiEvent → Bool
  | .addImage _ _ => true
  | .deleteImage _ => true
  | _ => false

/-- After the step the flag is honoured. And where a set was and is promised to be
read-only, no request changed an image of it. -/
structure Honours (g : GadgetController) (root : Path) (s : ApiState) (e : ApiEvent) : Prop where
  flag : Honoured (apiStep g root s e)
  images : e.movesImage = false → ∀ name, s.promise name = some true →
    (apiStep g root s e).promise name = some true → ∀ d : Image, InSet root name d.1 →
      (apiStep g root s e).world.fs.lookup d.1 = s.world.fs.lookup d.1

/-! ### The condition -/

/-- The image leads to a file too short for a floppy. -/
def Undersized (fs : Fs) (d : Image) (q : Path) : Prop :=
  ∃ f, resolve fs d.1 = some (q, f) ∧ f.contents.size < FLOPPY_SIZE_BYTES

/-- A short disk of the set does not lead into the folder of another set that is promised to
be read-only. -/
def LeadsHome (root : Path) (s : ApiState) (set : Text) (d : Image) : Prop :=
  ∀ q, Undersized s.world.fs d q → ∀ name, s.promise name = some true → InSet root name q →
    name = set

/-- A readonly request for the set has returned, or returns with this mount. -/
def Binds (s : ApiState) (name : Text) (request : Option ℕ) : Prop :=
  ∃ l, s.latest name = some l ∧ (l.returned = true ∨ request = some l.id)

/-- The flag the mount works with is that of the marker file; and a file that is to be
writable can be opened for writing. -/
structure Fresh (g : GadgetController) (fs : Fs) (c : MountCall) (backing : Image) : Prop where
  flag : c.floppySet.readOnly = pathExists fs (marker c.floppySet.path)
  writable : c.floppySet.readOnly = false → ∀ q f,
    resolve (g.backend.updateCurrentSymlink fs (some backing)) backing.1 = some (q, f) →
      f.writable = true

/-- A mount attaches with a fresh flag, and takes up a short disk only when the snapshot shows
the promise that stands for its set. When the flag of a set changes, its mounted disk is still
in the snapshot. Short disks lead to no file of another protected set. -/
def FlagsFresh (g : GadgetController) (root : Path) (s : ApiState) : ApiEvent → Prop
  | .postMount set disk session _ => session = false → ∀ fset d,
    setByName s.sets set = some fset → diskInSet fset disk = some d →
      (s.promise set = some true → (∃ q, Undersized s.world.fs d q) → fset.readOnly = true) ∧
      (fset.readOnly = false → LeadsHome root s set d) ∧
      (s.world.current = none → Binds s set none → Fresh g s.world.fs ⟨fset, d, false⟩ d)
  | .postReadonly set ro fault _ => ∀ fset m, setByName s.sets set = some fset →
    (setMarker s.world.fs (marker fset.path) ro fault).isSome → s.world.current = some m →
      m.setName = set → m.isSession = false →
        (s.world.lun.isOpen = true → (diskInSet fset m.diskFilename).isSome) ∧
        (ro = false → ∀ d, diskInSet fset m.diskFilename = some d → LeadsHome root s set d)
  | .resume i => ∀ x, s.asleep[i]? = some x → x.call.session = false →
    Binds s x.call.floppySet.name x.request → Fresh g s.world.fs x.call x.backing
  | _ => True

/-- The session directory and the boot link lie outside the folders of the library. -/
def LibraryOutside (g : GadgetController) (root : Path) : Prop :=
  ∀ folder p : Path, folder.dir = root.asPosix → p.dir = folder.asPosix → Outside g p

/-! ### What requests leave of the library -/

/-- Every marker is there as before, and no marker is a link. -/
structure SameMarkers (root : Path) (fs fs' : Fs) : Prop where
  exists_eq : ∀ folder : Path, folder.dir = root.asPosix →
    pathExists fs' (marker folder) = pathExists fs (marker folder)
  plain : ∀ folder : Path, folder.dir = root.asPosix → isSymlink fs' (marker folder) = false

def SameImages (root : Path) (isProtected : Text → Prop) (fs fs' : Fs) : Prop :=
  ∀ name, isProtected name → ∀ d : Image, InSet root name d.1 → fs'.lookup d.1 = fs.lookup d.1

/-- The mount pads no file in the folder of a protected set. -/
def Spares (root : Path) (fs : Fs) (isProtected : Text → Prop) (c : MountCall) : Prop :=
  PadsInPlace c → ∀ q, Undersized fs c.disk q → ∀ name, isProtected name → ¬ InSet root name q

def PlainMarkers (root : Path) (fs : Fs) : Prop :=
  ∀ folder : Path, folder.dir = root.asPosix → isSymlink fs (marker folder) = false

variable {g : GadgetController} {root : Path} {s : ApiState}

theorem pathExists_of_plain {fs : Fs} {p : Path} (h : isSymlink fs p = false) :
    pathExists fs p = (fs.lookup p).isSome := by
  unfold isSymlink at h
  unfold pathExists resolve maxSymlinks followLinks
  generalize fs.lookup p = node at h ⊢
  rcases node with _ | (f | t)
  · rfl
  · rfl
  · cases h

theorem SameMarkers.of_lookup {fs fs' : Fs} (hplain : PlainMarkers root fs)
    (h : ∀ folder : Path, folder.dir = root.asPosix →
      fs'.lookup (marker folder) = fs.lookup (marker folder) ∨
        ∃ f f', HasFile fs (marker folder) f ∧ HasFile fs' (marker folder) f') :
    SameMarkers root fs fs' := by
  have hplain' : PlainMarkers root fs' := by
    intro folder hfolder
    have hold := hplain folder hfolder
    unfold isSymlink at hold ⊢
    rcases h folder hfolder with heq | ⟨f, f', -, hf'⟩
    · rw [heq]
      exact hold
    · rw [hf']
  refine ⟨fun folder hfolder => ?_, hplain'⟩
  rw [pathExists_of_plain (hplain folder hfolder), pathExists_of_plain (hplain' folder hfolder)]
  rcases h folder hfolder with heq | ⟨f, f', hf, hf'⟩
  · rw [heq]
  · rw [hf, hf']
    rfl

theorem marker_ne_image (folder : Path) (d : Image) : marker folder ≠ d.1 := by
  intro heq
  have hsuffix := d.2
  rw [← heq] at hsuffix
  exact absurd hsuffix (show ¬ lower (suffix "ro".toList) = _ by decide)

theorem folder_ext {folder folder' : Path} (h : folder.dir = root.asPosix)
    (h' : folder'.dir = root.asPosix) (hname : folder.name = folder'.name) : folder = folder' :=
  Files.Path.ext (h.trans h'.symm) hname

theorem marker_injective {folder folder' : Path} (h : marker folder = marker folder') :
    folder = folder' := Path.asPosix_injective (congrArg Path.dir h)

theorem linkEnd_of_plain {fs : Fs} {p : Path} (h : isSymlink fs p = false) :
    linkEnd (maxSymlinks + 1) fs p = some p := by
  unfold isSymlink at h
  unfold maxSymlinks linkEnd
  generalize fs.lookup p = node at h ⊢
  rcases node with _ | (f | t)
  · rfl
  · rfl
  · cases h

theorem setMarker_some {fs fs' : Fs} {p : Path} {ro fault : Bool} (hplain : isSymlink fs p = false)
    (h : setMarker fs p ro fault = some fs') :
    pathExists fs' p = ro ∧ isSymlink fs' p = false ∧ ∀ x, x ≠ p → fs'.lookup x = fs.lookup x := by
  have hwritten : ∀ f, pathExists (fs.insert p (.file f)) p = true ∧
      isSymlink (fs.insert p (.file f)) p = false ∧
        ∀ x, x ≠ p → (fs.insert p (.file f)).lookup x = fs.lookup x := by
    intro f
    have hfile := hasFile_insert fs p f
    refine ⟨?_, ?_, fun x hx => AList.lookup_insert_ne hx⟩
    · rw [pathExists, resolve_of_hasFile hfile]
      rfl
    · rw [isSymlink, hfile]
  unfold setMarker at h
  cases ro
  · rw [if_neg Bool.false_ne_true] at h
    split_ifs at h with hexists hfault
    · cases h
      refine ⟨?_, ?_, fun x hx => AList.lookup_erase_ne hx⟩
      · rw [pathExists, resolve, followLinks, AList.lookup_erase]
        rfl
      · rw [isSymlink, AList.lookup_erase]
    · cases h
      exact ⟨eq_false_of_ne_true hexists, hplain, fun _ _ => rfl⟩
  · rw [if_pos rfl] at h
    split_ifs at h
    rw [writeEmpty, linkEnd_of_plain hplain] at h
    dsimp only at h
    split at h
    · split_ifs at h
      cases h
      exact hwritten _
    · cases h
      exact hwritten _

theorem followLinks_erase {fs : Fs} {p : Path} {n : ℕ} {x : Path} {r : Path × File}
    (h : followLinks n (fs.erase p) x = some r) : followLinks n fs x = some r := by
  induction n generalizing x with
  | zero => cases h
  | succ n ih =>
    by_cases hx : x = p
    · subst hx
      rw [followLinks, AList.lookup_erase] at h
      cases h
    · rw [followLinks, AList.lookup_erase_ne hx] at h
      rw [followLinks]
      generalize fs.lookup x = node at h ⊢
      rcases node with _ | (f | target)
      · cases h
      · exact h
      · exact ih h

/-- What leads somewhere without the marker did so with it. -/
theorem undersized_of_setMarker {fs fs' : Fs} {p : Path} {fault : Bool} {d : Image} {q : Path}
    (h : setMarker fs p false fault = some fs') (hshort : Undersized fs' d q) : Undersized fs d q := by
  obtain ⟨f, hres, hsize⟩ := hshort
  refine ⟨f, ?_, hsize⟩
  unfold setMarker at h
  rw [if_neg Bool.false_ne_true] at h
  split_ifs at h
  · obtain rfl := Option.some.inj h
    exact followLinks_erase hres
  · obtain rfl := Option.some.inj h
    exact hres

/-- A preparation leaves a marker alone, or pads it. -/
theorem marker_of_prepare (hlib : LibraryOutside g root) (fs : Fs) (c : MountCall) (a : PrepFaults)
    {folder : Path} (hfolder : folder.dir = root.asPosix) :
    (g.prepare fs c a).1.lookup (marker folder) = fs.lookup (marker folder) ∨
      ∃ f f', HasFile fs (marker folder) f ∧ HasFile (g.prepare fs c a).1 (marker folder) f' := by
  have houtside := hlib folder (marker folder) hfolder rfl
  rcases prepare_frame g fs c a houtside.session with hkeep | ⟨-, f, f', hres, -, hf'⟩
  · exact Or.inl hkeep
  · exact Or.inr ⟨f, f', hasFile_of_resolve hres, hf'⟩

theorem sameMarkers_of_start {c : MountCall} {a : MountFaults} {r : World × Progress}
    (hout : StartOutcome g s.world c a r) (hlib : LibraryOutside g root)
    (hplain : PlainMarkers root s.world.fs) : SameMarkers root s.world.fs r.1.fs := by
  refine .of_lookup hplain fun folder hfolder => ?_
  have hlook := hout.lookup (hlib folder (marker folder) hfolder rfl).offLink
  rcases marker_of_prepare hlib s.world.fs c a.prep hfolder with hkeep | ⟨f, f', hf, hf'⟩
  · exact Or.inl (hlook.trans hkeep)
  · exact Or.inr ⟨f, f', hf, hlook.trans hf'⟩

theorem sameImages_of_start {c : MountCall} {a : MountFaults} {r : World × Progress}
    (hout : StartOutcome g s.world c a r) (hlib : LibraryOutside g root)
    {isProtected : Text → Prop} (hspares : Spares root s.world.fs isProtected c) :
    SameImages root isProtected s.world.fs r.1.fs := by
  intro name hname d hd
  obtain ⟨folder, hfolder, -, hdir⟩ := id hd
  have houtside := hlib folder d.1 hfolder hdir
  rw [hout.lookup houtside.offLink]
  rcases prepare_frame g s.world.fs c a.prep houtside.session with
    hkeep | ⟨hpads, f, f', hres, hsize, -⟩
  · exact hkeep
  · exact absurd hd (hspares hpads d.1 ⟨f, hres, hsize⟩ name hname)

/-! ### The invariant -/

/-- The set lies right below the root, under its own name. -/
structure Placed (root : Path) (fset : FloppySet) : Prop where
  dir : fset.path.dir = root.asPosix
  name : fset.path.name = fset.name

/-- A sleeping request that a readonly request started works with the flag asked for. -/
structure Asleep.Sound (root : Path) (s : ApiState) (x : Asleep) : Prop where
  placed : Placed root x.call.floppySet
  numbered : ∀ id, x.request = some id → id < s.requests
  asked : ∀ l, s.latest x.call.floppySet.name = some l → x.request = some l.id →
    x.call.floppySet.readOnly = l.ro

structure Inv (root : Path) (s : ApiState) : Prop where
  flag : Honoured s
  record : s.world.lun.isOpen = true → ∃ c backing, s.attachedBy = some c ∧
    s.world.current = some (c.mounted backing)
  sets : ∀ fset ∈ s.sets, Placed root fset
  asleep : ∀ x ∈ s.asleep, x.Sound root s
  numbered : ∀ name l, s.latest name = some l → l.id < s.requests
  marked : ∀ folder : Path, folder.dir = root.asPosix → ∀ l, s.latest folder.name = some l →
    pathExists s.world.fs (marker folder) = l.ro
  plain : PlainMarkers root s.world.fs

theorem placed_of_mem_scan {fs : Fs} {fset : FloppySet} (h : fset ∈ scan fs root) :
    Placed root fset := by
  obtain ⟨folder, hdir, rfl, -⟩ := mem_scan.mp h
  exact ⟨hdir, rfl⟩

theorem inv_init {w : World} (hclosed : w.lun.isOpen = false) (hplain : PlainMarkers root w.fs) :
    Inv root (.init root w) where
  flag c ro hopen := by
    rw [show (ApiState.init root w).world.lun.isOpen = false from hclosed] at hopen
    cases hopen
  record hopen := by
    rw [show (ApiState.init root w).world.lun.isOpen = false from hclosed] at hopen
    cases hopen
  sets _ h := placed_of_mem_scan h
  asleep _ h := by cases h
  numbered _ _ h := by cases h
  marked _ _ _ h := by cases h
  plain := hplain

theorem Inv.withWorld (h : Inv root s) {w : World} (hmarkers : SameMarkers root s.world.fs w.fs)
    (hlun : w.lun.isOpen = true → s.world.lun.isOpen = true ∧ w.lun.ro = s.world.lun.ro ∧
      w.current = s.world.current) : Inv root { s with world := w } where
  flag c ro hopen hby hsession hpromise := by
    obtain ⟨hopen', hro, -⟩ := hlun hopen
    exact hro.trans (h.flag c ro hopen' hby hsession hpromise)
  record hopen := by
    obtain ⟨hopen', -, hcurrent⟩ := hlun hopen
    obtain ⟨c, backing, hby, hrecord⟩ := h.record hopen'
    exact ⟨c, backing, hby, hcurrent.trans hrecord⟩
  sets := h.sets
  asleep x hx := ⟨(h.asleep x hx).placed, (h.asleep x hx).numbered, (h.asleep x hx).asked⟩
  numbered := h.numbered
  marked folder hfolder l hl :=
    (hmarkers.exists_eq folder hfolder).trans (h.marked folder hfolder l hl)
  plain := hmarkers.plain

theorem Inv.withFs (h : Inv root s) {fs : Fs} (hmarkers : SameMarkers root s.world.fs fs) :
    Inv root { s with world := { s.world with fs := fs } } :=
  h.withWorld hmarkers fun hopen => ⟨hopen, rfl, rfl⟩

theorem Asleep.Sound.of_latest {x : Asleep} (h : x.Sound root s) {s' : ApiState}
    (hrequests : s'.requests = s.requests)
    (hlatest : ∀ name l', s'.latest name = some l' → ∃ l, s.latest name = some l ∧ l.id = l'.id ∧
      l.ro = l'.ro) : x.Sound root s' where
  placed := h.placed
  numbered id hid := hrequests ▸ h.numbered id hid
  asked l' hl' hid := by
    obtain ⟨l, hl, hsame, hro⟩ := hlatest _ l' hl'
    exact (h.asked l hl (hsame ▸ hid)).trans hro

theorem Inv.congr (h : Inv root s) {asleep : List Asleep} (response : Option Response)
    (hasleep : ∀ x ∈ asleep, x.Sound root s) :
    Inv root { s with asleep := asleep, response := response } :=
  ⟨h.flag, h.record, h.sets, fun x hx => ⟨(hasleep x hx).placed, (hasleep x hx).numbered,
    (hasleep x hx).asked⟩, h.numbered, h.marked, h.plain⟩

theorem Inv.answer (h : Inv root s) (r : Response) : Inv root (s.answer r) :=
  h.congr (some r) h.asleep

theorem Inv.raised (h : Inv root s) (c : MountCall) (e : MountError) (request : Option ℕ) :
    Inv root (s.raised c e request) := by
  rcases request with _ | id
  · exact h.answer _
  have hlatest : ∀ name l, (s.raised c e (some id)).latest name = some l →
      s.latest name = some l := by
    intro name l hl
    by_cases hname : name = c.floppySet.name
    · subst hname
      simp only [ApiState.raised, Function.update_self] at hl
      exact (Option.filter_eq_some_iff.mp hl).1
    · simpa only [ApiState.raised, Function.update_of_ne hname] using hl
  refine ⟨fun c' ro hopen hby hsession hpromise => ?_, h.record, h.sets, fun x hx =>
    (h.asleep x hx).of_latest rfl fun name l hl => ⟨l, hlatest name l hl, rfl, rfl⟩,
    fun name l hl => h.numbered name l (hlatest name l hl),
    fun folder hfolder l hl => h.marked folder hfolder l (hlatest _ l hl), h.plain⟩
  refine h.flag c' ro hopen hby hsession ?_
  obtain ⟨l, hl, hreturned⟩ := Option.bind_eq_some_iff.mp hpromise
  exact Option.bind_eq_some_iff.mpr ⟨l, hlatest _ l hl, hreturned⟩

theorem latest_mounted {c : MountCall} {image : MountedImage} {request : Option ℕ} {name : Text}
    {l' : ReadOnlyRequest} (h : (s.mounted c image request).latest name = some l') :
    ∃ l, s.latest name = some l ∧ l.id = l'.id ∧ l.ro = l'.ro ∧
      (l'.returned = true → l.returned = true ∨ request = some l.id) := by
  rcases request with _ | id
  · exact ⟨l', h, rfl, rfl, Or.inl⟩
  by_cases hname : name = c.floppySet.name
  · subst hname
    simp only [ApiState.mounted, Function.update_self, Option.map_eq_some_iff] at h
    obtain ⟨l, hl, rfl⟩ := h
    refine ⟨l, hl, rfl, rfl, fun hreturned => ?_⟩
    rcases (Bool.or_eq_true _ _).mp hreturned with hold | hid
    · exact Or.inl hold
    · exact Or.inr (congrArg some (of_decide_eq_true hid).symm)
  · simp only [ApiState.mounted, Function.update_of_ne hname] at h
    exact ⟨l', h, rfl, rfl, Or.inl⟩

theorem mounted_world (s : ApiState) (c : MountCall) (image : MountedImage)
    (request : Option ℕ) : (s.mounted c image request).world = s.world := by
  cases request <;> rfl

theorem raised_world (s : ApiState) (c : MountCall) (e : MountError) (request : Option ℕ) :
    (s.raised c e request).world = s.world := by
  cases request <;> rfl

/-- A mount that attaches its file with the flag of the marker keeps every promise. -/
theorem Inv.mounted (h : Inv root s) {c : MountCall} {image : MountedImage} {request : Option ℕ}
    (hplaced : Placed root c.floppySet) {w : World} {backing : Image}
    (hmarkers : SameMarkers root s.world.fs w.fs) (hcurrent : w.current = some (c.mounted backing))
    (hro : c.session = false → Binds s c.floppySet.name request →
      w.lun.ro = pathExists s.world.fs (marker c.floppySet.path)) :
    Inv root ({ s with world := w }.mounted c image request) := by
  set s' : ApiState := { s with world := w }
  have hby : (s'.mounted c image request).attachedBy = some c := by cases request <;> rfl
  have hsets : (s'.mounted c image request).sets = s.sets := by cases request <;> rfl
  have hasleep : (s'.mounted c image request).asleep = s.asleep := by cases request <;> rfl
  have hrequests : (s'.mounted c image request).requests = s.requests := by cases request <;> rfl
  have hworld := mounted_world s' c image request
  refine ⟨fun c' ro _ hby' hsession hpromise => ?_, fun _ => ⟨c, backing, hby, ?_⟩, ?_,
    fun x hx => ?_, fun name l' hl' => ?_, fun folder hfolder l' hl' => ?_, ?_⟩
  · obtain rfl := Option.some.inj (hby.symm.trans hby')
    obtain ⟨l', hl', hreturned⟩ := Option.bind_eq_some_iff.mp hpromise
    split_ifs at hreturned with hreturned'
    obtain ⟨l, hl, -, hsame, hbinds⟩ := latest_mounted hl'
    have hmarked := h.marked c.floppySet.path hplaced.dir l (hplaced.name ▸ hl)
    have hflag := hro hsession ⟨l, hl, hbinds hreturned'⟩
    rw [hworld]
    exact hflag.trans (hmarked.trans (hsame.trans (Option.some.inj hreturned)))
  · rw [hworld]
    exact hcurrent
  · rw [hsets]
    exact h.sets
  · rw [hasleep] at hx
    refine (h.asleep x hx).of_latest hrequests fun name l' hl' => ?_
    obtain ⟨l, hl, hid, hsame, -⟩ := latest_mounted hl'
    exact ⟨l, hl, hid, hsame⟩
  · obtain ⟨l, hl, hid, -, -⟩ := latest_mounted hl'
    rw [hrequests, ← hid]
    exact h.numbered name l hl
  · obtain ⟨l, hl, -, hsame, -⟩ := latest_mounted hl'
    rw [hworld, ← hsame]
    exact (hmarkers.exists_eq folder hfolder).trans (h.marked folder hfolder l hl)
  · rw [hworld]
    exact hmarkers.plain

/-! ### Pieces of a mount -/

theorem sameMarkers_of_finish {c : MountCall} {backing : Image} {e : WriteFaults}
    {r : World × Progress} (hout : FinishOutcome g s.world c backing e r)
    (hlib : LibraryOutside g root) (hplain : PlainMarkers root s.world.fs) :
    SameMarkers root s.world.fs r.1.fs :=
  .of_lookup hplain fun folder hfolder =>
    Or.inl (hout.lookup (hlib folder (marker folder) hfolder rfl).offLink)

theorem Inv.finish (h : Inv root s) (hlib : LibraryOutside g root) {c : MountCall}
    {backing : Image} {e second : WriteFaults} {request : Option ℕ} {r : World × Progress}
    (hplaced : Placed root c.floppySet) (hout : FinishOutcome g s.world c backing e r)
    (hfresh : c.session = false → Binds s c.floppySet.name request →
      Fresh g s.world.fs c backing) : Inv root (s.proceed c second request r) := by
  have hmarkers := sameMarkers_of_finish hout hlib h.plain
  cases hout with
  | refused why => exact (h.withFs hmarkers).raised c .os request
  | dropped lun accepted unlocked why closed device =>
    refine Inv.raised (h.withWorld hmarkers fun hopen => ?_) c .os request
    rw [show lun.isOpen = false from closed] at hopen
    cases hopen
  | done f faults unlocked opens =>
    refine h.mounted hplaced hmarkers rfl fun hsession hbinds => ?_
    have hf := hfresh hsession hbinds
    have hcro : c.readOnly = c.floppySet.readOnly := by simp [MountCall.readOnly, hsession]
    rw [← hf.flag]
    change (c.readOnly || !f.writable) = c.floppySet.readOnly
    rw [hcro]
    cases hro : c.floppySet.readOnly
    · obtain ⟨q, hq⟩ := opens.1
      rw [hf.writable hro q f hq]
      rfl
    · rfl

theorem Fresh.prepared {c : MountCall} {a : PrepFaults} {fs : Fs} {backing : Image}
    (hsession : c.session = false) (h : Fresh g s.world.fs c c.disk)
    (hplaced : Placed root c.floppySet) (hprep : g.prepare s.world.fs c a = (fs, .ok backing))
    (hmarkers : SameMarkers root s.world.fs fs) : Fresh g fs c backing where
  flag := h.flag.trans (hmarkers.exists_eq c.floppySet.path hplaced.dir).symm
  writable hro q f' hres := by
    obtain ⟨rfl, hmodes⟩ := prepare_direct hsession hro hprep
    obtain ⟨f, hres', hw⟩ :=
      (g.backend.updateCurrentSymlink_sameModes hmodes (some c.disk)).writable hres
    exact hw.symm.trans (h.writable hro q f hres')

theorem Inv.start (h : Inv root s) (hlib : LibraryOutside g root) {c : MountCall} {a : MountFaults}
    {request : Option ℕ} (hplaced : Placed root c.floppySet)
    (hnumbered : ∀ id, request = some id → id < s.requests)
    (hasked : ∀ l, s.latest c.floppySet.name = some l → request = some l.id →
      c.floppySet.readOnly = l.ro)
    (hfresh : c.session = false → s.world.current = none → Binds s c.floppySet.name request →
      Fresh g s.world.fs c c.disk) : Inv root (startMount g s c a request) := by
  have hout := mountStart_outcome g s.world c a
  unfold startMount
  generalize g.mountStart s.world c a = r at hout ⊢
  have hmarkers := sameMarkers_of_start hout hlib h.plain
  cases hout with
  | unprepared fs err prep => exact (h.withFs hmarkers).raised c err request
  | refused fs backing prep mounted why => exact (h.withFs hmarkers).raised c .os request
  | sleeping fs backing prep mounted accepted unlocked =>
    have hdetached := h.withWorld hmarkers fun hopen => by
      rw [show (detachedLun s.world.lun).isOpen = false from isOpen_detachedLun _] at hopen
      cases hopen
    refine hdetached.congr none fun x hx => ?_
    rcases List.mem_append.mp hx with hold | hnew
    · exact hdetached.asleep x hold
    · obtain rfl := List.mem_singleton.mp hnew
      exact ⟨hplaced, hnumbered, hasked⟩
  | finished fs backing r prep empty finish =>
    have hprepared : SameMarkers root s.world.fs fs := by
      refine .of_lookup h.plain fun folder hfolder => ?_
      have hmarker := marker_of_prepare hlib s.world.fs c a.prep hfolder
      rwa [prep] at hmarker
    exact (h.withFs hprepared).finish hlib hplaced finish fun hsession hbinds =>
      (hfresh hsession empty hbinds).prepared hsession hplaced prep hprepared

/-! ### Steps -/

theorem sameMarkers_of_image {fs fs' : Fs} (hplain : PlainMarkers root fs) {d : Image}
    (h : ∀ x, x ≠ d.1 → fs'.lookup x = fs.lookup x) : SameMarkers root fs fs' :=
  .of_lookup hplain fun folder _ => Or.inl (h _ (marker_ne_image folder d))

theorem Inv.postMount (h : Inv root s) (hlib : LibraryOutside g root) {set disk : Text}
    {session : Bool} {a : MountFaults}
    (hok : FlagsFresh g root s (.postMount set disk session a)) :
    Inv root (postMount g s set disk session a) := by
  unfold Web.postMount
  split
  · exact h.answer _
  rename_i fset hset
  split
  · exact h.answer _
  rename_i d hdisk
  obtain ⟨hmem, rfl⟩ := setByName_some hset
  have hnone : ∀ id, (none : Option ℕ) ≠ some id := fun _ hid => by cases hid
  refine h.start hlib (h.sets fset hmem) (fun id hid => absurd hid (hnone id))
    (fun l _ hid => absurd hid (hnone l.id)) fun hsession => ?_
  obtain rfl : session = false := hsession
  exact (hok rfl fset d hset hdisk).2.2

theorem Inv.resume (h : Inv root s) (hlib : LibraryOutside g root) {i : ℕ}
    (hok : FlagsFresh g root s (.resume i)) : Inv root (resumeMount g s i) := by
  unfold resumeMount
  split
  · exact h
  rename_i x hx
  have hrest := h.congr s.response fun y hy => h.asleep y (List.mem_of_mem_eraseIdx (i := i) hy)
  exact hrest.finish hlib (h.asleep x (List.mem_of_getElem? hx)).placed
    (mountFinish_outcome g s.world x.call x.backing x.second) (hok x hx)

theorem Inv.eject (h : Inv root s) (hlib : LibraryOutside g root) (fault : Option Errno) :
    Inv root (postEject g s fault) := by
  have hout := eject_outcome g s.world fault
  unfold postEject
  generalize g.eject s.world fault = r at hout ⊢
  cases hout with
  | refused why =>
    have hmarkers : SameMarkers root s.world.fs (g.backend.updateCurrentSymlink s.world.fs none) :=
      .of_lookup h.plain fun folder hfolder => Or.inl
        (lookup_updateCurrentSymlink s.world.fs (hlib folder _ hfolder rfl).offLink none)
    exact (h.withFs hmarkers).answer _
  | done fault_eq unlocked =>
    have hmarkers : SameMarkers root s.world.fs
        (g.cleanupSession (g.backend.updateCurrentSymlink s.world.fs none)) :=
      .of_lookup h.plain fun folder hfolder =>
        Or.inl (lookup_eject s.world.fs (hlib folder _ hfolder rfl))
    refine Inv.answer (h.withWorld hmarkers fun hopen => ?_) _
    rw [show (detachedLun s.world.lun).isOpen = false from isOpen_detachedLun _] at hopen
    cases hopen

/-- A readonly request that reaches its marker file, before it mounts anything. -/
theorem Inv.marked_request (h : Inv root s) {fset : FloppySet} (hplaced : Placed root fset)
    {ro fault : Bool} {fs : Fs} (hset : setMarker s.world.fs (marker fset.path) ro fault = some fs)
    (returned : Bool) (hro : returned = true → ∀ c, s.world.lun.isOpen = true →
      s.attachedBy = some c → c.session = false → c.floppySet.name = fset.name →
        s.world.lun.ro = ro) :
    Inv root { s with
      world := { s.world with fs := fs }
      requests := s.requests + 1
      latest := Function.update s.latest fset.name (some ⟨s.requests, ro, returned⟩) } := by
  obtain ⟨hexists, hplain, hother⟩ := setMarker_some (h.plain fset.path hplaced.dir) hset
  have hfolder : ∀ folder : Path, folder.dir = root.asPosix → folder.name ≠ fset.name →
      fs.lookup (marker folder) = s.world.fs.lookup (marker folder) := fun folder _ hname =>
    hother _ fun heq => hname ((congrArg Path.name (marker_injective heq)).trans hplaced.name)
  have hpath : ∀ folder : Path, folder.dir = root.asPosix → folder.name = fset.name →
      folder = fset.path := fun folder hdir hname =>
    folder_ext hdir hplaced.dir (hname.trans hplaced.name.symm)
  refine ⟨fun c ro' hopen hby hsession hpromise => ?_, h.record, h.sets, fun x hx => ?_,
    fun name l hl => ?_, fun folder hdir l hl => ?_, fun folder hdir => ?_⟩
  · -- the promise is that of this request, or an older one of another set
    obtain ⟨l, hl, hreturned⟩ := Option.bind_eq_some_iff.mp hpromise
    obtain ⟨hname, ⟨⟩⟩ | ⟨-, hold⟩ := update_eq_some hl
    · split_ifs at hreturned with hreturned'
      exact (hro hreturned' c hopen hby hsession hname).trans (Option.some.inj hreturned)
    · exact h.flag c ro' hopen hby hsession (Option.bind_eq_some_iff.mpr ⟨l, hold, hreturned⟩)
  · -- the requests of the sleeping mounts are older
    have hx := h.asleep x hx
    refine ⟨hx.placed, fun id hid => (hx.numbered id hid).trans (Nat.lt_succ_self _),
      fun l hl hid => ?_⟩
    obtain ⟨-, ⟨⟩⟩ | ⟨-, hold⟩ := update_eq_some hl
    · exact absurd (hx.numbered _ hid) (lt_irrefl _)
    · exact hx.asked l hold hid
  · obtain ⟨-, ⟨⟩⟩ | ⟨-, hold⟩ := update_eq_some hl
    · exact Nat.lt_succ_self _
    · exact (h.numbered name l hold).trans (Nat.lt_succ_self _)
  · obtain ⟨hname, ⟨⟩⟩ | ⟨hname, hold⟩ := update_eq_some hl
    · rw [hpath folder hdir hname]
      exact hexists
    · have hkeep := hfolder folder hdir hname
      have hplain' : isSymlink fs (marker folder) = false := by
        rw [isSymlink, hkeep]
        exact h.plain folder hdir
      rw [pathExists_of_plain hplain', hkeep, ← pathExists_of_plain (h.plain folder hdir)]
      exact h.marked folder hdir l hold
  · by_cases hname : folder.name = fset.name
    · rw [hpath folder hdir hname]
      exact hplain
    · rw [isSymlink, hfolder folder hdir hname]
      exact h.plain folder hdir

theorem Inv.postReadonly (h : Inv root s) (hlib : LibraryOutside g root) {set : Text}
    {ro fault : Bool} {a : MountFaults}
    (hok : FlagsFresh g root s (.postReadonly set ro fault a)) :
    Inv root (postReadonly g s set ro fault a) := by
  unfold Web.postReadonly
  split
  · exact h.answer _
  rename_i fset hset
  split
  · exact h.answer _
  rename_i fs hmarker
  have hwritten : (setMarker s.world.fs (marker fset.path) ro fault).isSome := by
    rw [hmarker]
    rfl
  have hcond := hok fset
  obtain ⟨hmem, rfl⟩ := setByName_some hset
  have hplaced := h.sets fset hmem
  dsimp only
  split
  · -- a disk of the set that is attached would have been mounted once more
    rename_i hnone
    refine Inv.answer (h.marked_request hplaced hmarker true ?_) _
    intro _ c hopen hby hsession hname
    obtain ⟨c', backing, hby', hcurrent⟩ := h.record hopen
    obtain rfl := Option.some.inj (hby.symm.trans hby')
    have hfound := (hcond _ hset hwritten hcurrent hname hsession).1 hopen
    rw [remountDisk, hcurrent] at hnone
    dsimp only at hnone
    rw [if_pos ⟨hname, hsession⟩] at hnone
    rw [hnone] at hfound
    cases hfound
  · rename_i d hdisk
    have hrequest := h.marked_request hplaced hmarker false fun hfalse => by
      cases hfalse
    refine hrequest.start hlib ⟨hplaced.dir, hplaced.name⟩ (fun id hid => ?_) (fun l hl _ => ?_)
      fun _ hempty _ => ?_
    · obtain rfl := Option.some.inj hid
      exact Nat.lt_succ_self _
    · simp only [Function.update_self, Option.some_inj] at hl
      rw [← hl]
    · -- there is something to remount, so the drive is not empty
      have hcurrent : s.world.current = none := hempty
      rw [remountDisk, hcurrent] at hdisk
      cases hdisk

theorem Inv.step (h : Inv root s) (hlib : LibraryOutside g root) {e : ApiEvent}
    (hok : FlagsFresh g root s e) : Inv root (apiStep g root s e) := by
  cases e with
  | postMount set disk session a => exact h.postMount hlib hok
  | postEject fault => exact h.eject hlib fault
  | postReadonly set ro fault a => exact h.postReadonly hlib hok
  | resume i => exact h.resume hlib hok
  | rescan =>
    exact ⟨h.flag, h.record, fun _ hmem => placed_of_mem_scan hmem, fun x hx =>
      ⟨(h.asleep x hx).placed, (h.asleep x hx).numbered, (h.asleep x hx).asked⟩, h.numbered,
      h.marked, h.plain⟩
  | host cmd =>
    have hmoved := hostDoor_moved s.world.lun cmd
    have hmarkers : SameMarkers root s.world.fs s.world.fs := ⟨fun _ _ => rfl, h.plain⟩
    refine h.withWorld hmarkers fun hopen => ⟨?_, hmoved.ro, rfl⟩
    by_contra hclosed
    exact absurd (hmoved.closed (eq_false_of_ne_true hclosed)) (by simpa using hopen)
  | addImage d node =>
    exact h.withFs (sameMarkers_of_image h.plain fun x hx => AList.lookup_insert_ne hx)
  | deleteImage d =>
    exact h.withFs (sameMarkers_of_image h.plain fun x hx => AList.lookup_erase_ne hx)

/-! ### Images -/

theorem proceed_world (s : ApiState) (c : MountCall) (second : WriteFaults) (request : Option ℕ)
    (r : World × Progress) : (s.proceed c second request r).world = r.1 := by
  obtain ⟨w, e | backing | image⟩ := r
  · exact raised_world _ c e request
  · rfl
  · exact mounted_world _ c image request

/-- While a readonly request remounts a disk, nothing is promised for its set. -/
theorem promise_startMount {c : MountCall} {a : MountFaults} {id : ℕ} {ro : Bool}
    (hlatest : s.latest c.floppySet.name = some ⟨id, ro, false⟩) (hcurrent : s.world.current ≠ none) :
    (startMount g s c a (some id)).promise c.floppySet.name = none := by
  have hraised : ∀ w e, ({ s with world := w }.raised c e (some id)).promise c.floppySet.name =
      none := by
    intro w e
    simp only [ApiState.raised, ApiState.promise, Function.update_self, hlatest, Option.filter_some,
      ne_eq, not_true_eq_false, decide_false, Bool.false_eq_true, if_false]
    rfl
  have hout := mountStart_outcome g s.world c a
  unfold startMount
  generalize g.mountStart s.world c a = r at hout ⊢
  cases hout with
  | unprepared fs err prep => exact hraised _ _
  | refused fs backing prep mounted why => exact hraised _ _
  | sleeping fs backing prep mounted accepted unlocked =>
    simp only [ApiState.proceed, ApiState.promise, hlatest]
    rfl
  | finished fs backing r prep empty finish => exact absurd empty hcurrent

/-- The set was and still is promised to be read-only. -/
def Kept (s s' : ApiState) (name : Text) : Prop :=
  s.promise name = some true ∧ s'.promise name = some true

theorem sameImages_startMount (hlib : LibraryOutside g root) {isProtected : Text → Prop}
    {c : MountCall} {a : MountFaults} {request : Option ℕ}
    (hspares : Spares root s.world.fs isProtected c) :
    SameImages root isProtected s.world.fs (startMount g s c a request).world.fs := by
  unfold startMount
  rw [proceed_world]
  exact sameImages_of_start (mountStart_outcome g s.world c a) hlib hspares

theorem remountDisk_some {w : World} {fset : FloppySet} {d : Image}
    (h : remountDisk w fset = some d) : ∃ m, w.current = some m ∧ m.setName = fset.name ∧
      m.isSession = false ∧ diskInSet fset m.diskFilename = some d := by
  unfold remountDisk at h
  split at h
  · cases h
  · rename_i m hm
    split_ifs at h with hmounted
    exact ⟨m, hm, hmounted.1, hmounted.2, h⟩

theorem sameImages_postReadonly (h : Inv root s) (hlib : LibraryOutside g root) {set : Text}
    {ro fault : Bool} {a : MountFaults}
    (hok : FlagsFresh g root s (.postReadonly set ro fault a)) :
    SameImages root (Kept s (postReadonly g s set ro fault a)) s.world.fs
      (postReadonly g s set ro fault a).world.fs := by
  unfold Web.postReadonly
  split
  · exact fun _ _ _ _ => rfl
  rename_i fset hset
  split
  · exact fun _ _ _ _ => rfl
  rename_i fs hmarker
  have hwritten : (setMarker s.world.fs (marker fset.path) ro fault).isSome := by
    rw [hmarker]
    rfl
  have hcond := hok fset
  obtain ⟨hmem, rfl⟩ := setByName_some hset
  have hkeep := (setMarker_some (h.plain fset.path (h.sets fset hmem).dir) hmarker).2.2
  have himage : ∀ d : Image, fs.lookup d.1 = s.world.fs.lookup d.1 := fun d =>
    hkeep d.1 (marker_ne_image fset.path d).symm
  dsimp only
  split
  · exact fun _ _ d _ => himage d
  · rename_i d hdisk
    obtain ⟨m, hm, hname, hsession, hfound⟩ := remountDisk_some hdisk
    have hspares : Spares root fs (fun name => name ≠ fset.name ∧ s.promise name = some true)
        ⟨{ fset with readOnly := ro }, d, false⟩ := by
      rintro ⟨-, hro⟩ q hshort name ⟨hother, hpromise⟩ hin
      obtain rfl : ro = false := hro
      exact hother ((hcond m hset hwritten hm hname hsession).2 rfl d hfound q
        (undersized_of_setMarker hmarker hshort) name hpromise hin)
    rintro name ⟨hbefore, hafter⟩ d' hd'
    -- the remount may pad disks of its own set, for which nothing is promised meanwhile
    have hother : name ≠ fset.name := by
      rintro rfl
      have hmounted : s.world.current ≠ none := fun hempty => by
        rw [remountDisk, hempty] at hdisk
        cases hdisk
      have hnone := promise_startMount (g := g) (a := a)
        (c := ⟨{ fset with readOnly := ro }, d, false⟩)
        (s := { s with
          world := { s.world with fs := fs }
          requests := s.requests + 1
          latest := Function.update s.latest fset.name (some ⟨s.requests, ro, false⟩) })
        (Function.update_self _ _ _) hmounted
      rw [hafter] at hnone
      cases hnone
    exact (sameImages_startMount hlib hspares name ⟨hother, hbefore⟩ d' hd').trans (himage d')

theorem sameImages_step (h : Inv root s) (hlib : LibraryOutside g root) {e : ApiEvent}
    (hok : FlagsFresh g root s e) (he : e.movesImage = false) :
    SameImages root (Kept s (apiStep g root s e)) s.world.fs (apiStep g root s e).world.fs := by
  cases e with
  | postMount set disk session a =>
    change SameImages root _ s.world.fs (postMount g s set disk session a).world.fs
    unfold Web.postMount
    split
    · exact fun _ _ _ _ => rfl
    rename_i fset hset
    split
    · exact fun _ _ _ _ => rfl
    rename_i d hdisk
    -- a protected short disk of the set itself would be known as such, and not padded
    have hspares : Spares root s.world.fs (fun name => s.promise name = some true)
        ⟨fset, d, session⟩ := by
      rintro ⟨hsession, hrw⟩ q hshort name hpromise hin
      obtain ⟨hstale, hhome, -⟩ := hok hsession fset d hset hdisk
      obtain rfl := hhome hrw q hshort name hpromise hin
      have hro := hstale hpromise ⟨q, hshort⟩
      exact Bool.false_ne_true (hrw.symm.trans hro)
    exact fun name hname => sameImages_startMount hlib hspares name hname.1
  | postEject fault =>
    intro name _ d ⟨folder, hfolder, _, hdir⟩
    have houtside := hlib folder d.1 hfolder hdir
    have hout := eject_outcome g s.world fault
    change (postEject g s fault).world.fs.lookup d.1 = _
    unfold postEject
    generalize g.eject s.world fault = r at hout ⊢
    cases hout with
    | refused why => exact lookup_updateCurrentSymlink s.world.fs houtside.offLink none
    | done fault_eq unlocked => exact lookup_eject s.world.fs houtside
  | postReadonly set ro fault a => exact sameImages_postReadonly h hlib hok
  | resume i =>
    intro name _ d ⟨folder, hfolder, _, hdir⟩
    have houtside := hlib folder d.1 hfolder hdir
    change (resumeMount g s i).world.fs.lookup d.1 = _
    unfold resumeMount
    split
    · rfl
    rename_i x hx
    rw [proceed_world]
    exact (mountFinish_outcome g s.world x.call x.backing x.second).lookup houtside.offLink
  | rescan => exact fun _ _ _ _ => rfl
  | host cmd => exact fun _ _ _ _ => rfl
  | addImage d node => cases he
  | deleteImage d => cases he

/-! ### Whole runs -/

/-- Right after a rescan every set shows the flag of its marker. -/
theorem flag_of_rescan {fset : FloppySet} (h : fset ∈ (apiStep g root s .rescan).sets) :
    fset.readOnly = pathExists (apiStep g root s .rescan).world.fs (marker fset.path) := by
  obtain ⟨folder, -, rfl, -⟩ := mem_scan.mp h
  rfl

def sampleLibrary : Path := ⟨"/home/pi".toList, "floppies".toList, slash_not_mem_floppies⟩

theorem sampleLibrary_outside : LibraryOutside sampleController sampleLibrary := by
  intro folder p hfolder hdir
  refine ⟨fun heq => ?_, fun link hlink => by cases hlink⟩
  have hstart : p.dir[1]? = some 'h' := by
    rw [hdir, Path.asPosix, hfolder]
    rfl
  rw [heq] at hstart
  cases hstart

theorem sampleFs_plain : PlainMarkers sampleLibrary sampleFs := by
  intro folder _
  rw [isSymlink, sampleFs, ← AList.insert_empty,
    AList.lookup_insert_ne (marker_ne_image folder sampleDisk), AList.lookup_empty]

/-- A disk is mounted, and its set is protected: the disk is mounted once more. -/
def protectMounted : List ApiEvent :=
  [.postMount "games".toList "Disk1.IMG".toList false .none,
    .postReadonly "games".toList true false .none, .resume 0]

/-- The protected disk is attached in the end. -/
example : (run (apiStep sampleController sampleLibrary) (.init sampleLibrary emptyDrive)
    protectMounted).world.lun.isOpen = true := by decide +kernel

end UsbFloppy.Web
