import UsbFloppy.Gadget.Appliance

/-! What the appliance cannot do to a disk of the library. Between the calls of the service and
the commands of the host, in whatever order they come, a disk that is only mounted
write-protected, or as a copy, keeps its bytes. -/

namespace UsbFloppy.Gadget
open Files Kernel Transition

/-- The path is neither the link's nor `p`. -/
def Elsewhere (g : GadgetController) (p x : Path) : Prop := NotLink g x ∧ x ≠ p

/-- What the LUN would open read-write leads away from `p`. -/
def Avoids (g : GadgetController) (p : Path) (fs : Fs) (ro : Bool) (backing : Image) : Prop :=
  ro = true ∨ StaysIn fs (Elsewhere g p) (maxSymlinks + 1) backing.1

/-- What is left of a call never opens `p` read-write. `ro` is the flag the LUN has before. -/
def SafeSteps (g : GadgetController) (p : Path) (fs : Fs) : Bool → List ServiceStep → Prop
  | _, [] => True
  | _, .setRo ro :: rest => SafeSteps g p fs ro rest
  | ro, .attach file :: rest => Avoids g p fs ro file ∧ SafeSteps g p fs ro rest
  | ro, .sleep x :: rest => Avoids g p fs x.call.readOnly x.backing ∧ SafeSteps g p fs ro rest
  | ro, .link _ :: rest | ro, .detach :: rest | ro, .cleanup :: rest | ro, .record _ :: rest =>
    SafeSteps g p fs ro rest

/-- A mount of `p` itself is a session or of a read-only set. -/
def Spares (g : GadgetController) (p : Path) (s : Appliance) : ApplianceEvent → Prop
  | .mount c _ => c.session = true ∨ c.floppySet.readOnly = true ∨
      StaysIn s.fs (Elsewhere g p) (maxSymlinks + 1) c.disk.1
  | _ => True

/-- The file at `p` is `f`. If it is behind the LUN, the LUN is write-protected, and no call
that is under way changes that. -/
structure Isolated (g : GadgetController) (p : Path) (f : File) (s : Appliance) : Prop where
  file : HasFile s.fs p f
  door : s.opened ≠ none → s.thread.lun.isOpen = true
  opened : s.opened = some (.linked p) → s.thread.lun.ro = true
  running : SafeSteps g p s.fs s.thread.lun.initiallyRo s.running
  sleeping : ∀ x ∈ s.sleeping, Avoids g p s.fs x.call.readOnly x.backing

variable {g : GadgetController} {p : Path} {f : File} {s s' : Appliance}

/-! ### Files that come and go -/

/-- Away from current.img no link is made. -/
def NoNewLinks (g : GadgetController) (fs fs' : Fs) : Prop :=
  ∀ x t, NotLink g x → fs'.lookup x = some (.link t) → fs.lookup x = some (.link t)

theorem NoNewLinks.staysIn {fs fs' : Fs} (h : NoNewLinks g fs fs') {n : ℕ} {x : Path}
    (hx : StaysIn fs (Elsewhere g p) n x) : StaysIn fs' (Elsewhere g p) n x := by
  induction n generalizing x with
  | zero => trivial
  | succ n ih => exact ⟨hx.1, fun t ht => ih (hx.2 t (h x t hx.1.1 ht))⟩

theorem NoNewLinks.avoids {fs fs' : Fs} (h : NoNewLinks g fs fs') {ro : Bool} {backing : Image}
    (ha : Avoids g p fs ro backing) : Avoids g p fs' ro backing := ha.imp_right h.staysIn

theorem NoNewLinks.safeSteps {fs fs' : Fs} (h : NoNewLinks g fs fs') {ro : Bool}
    {steps : List ServiceStep} (hs : SafeSteps g p fs ro steps) : SafeSteps g p fs' ro steps := by
  fun_induction SafeSteps g p fs ro steps with
  | case1 ro => trivial
  | case2 _ ro rest ih => exact ih hs
  | case3 ro file rest ih => exact ⟨h.avoids hs.1, ih hs.2⟩
  | case4 ro x rest ih => exact ⟨h.avoids hs.1, ih hs.2⟩
  | case5 _ _ rest ih => exact ih hs
  | case6 _ rest ih => exact ih hs
  | case7 _ rest ih => exact ih hs
  | case8 _ _ rest ih => exact ih hs

theorem NoNewLinks.refl (fs : Fs) : NoNewLinks g fs fs := fun _ _ _ h => h

theorem NoNewLinks.trans {fs₁ fs₂ fs₃ : Fs} (h : NoNewLinks g fs₁ fs₂)
    (h' : NoNewLinks g fs₂ fs₃) : NoNewLinks g fs₁ fs₃ :=
  fun x t hx ht => h x t hx (h' x t hx ht)

theorem noNewLinks_insert (fs : Fs) (x : Path) (f : File) :
    NoNewLinks g fs (fs.insert x (.file f)) := by
  intro y t _ ht
  by_cases hy : y = x
  · rw [hy, AList.lookup_insert] at ht
    cases ht
  · rwa [AList.lookup_insert_ne hy] at ht

theorem noNewLinks_cleanup (fs : Fs) : NoNewLinks g fs (g.cleanupSession fs) := by
  intro x t _ ht
  rw [lookup_cleanupSession] at ht
  split_ifs at ht
  exact ht

theorem noNewLinks_relink (fs : Fs) (t : Option Image) :
    NoNewLinks g fs (g.backend.updateCurrentSymlink fs t) :=
  fun _ _ hx ht => (hx.lookup fs t).symm.trans ht

/-- Padding only appends. -/
theorem padToFull_fs (fs : Fs) (x : Path) (fault : Option ℕ) :
    (padToFull fs x fault).1 = fs ∨ ∃ q f f', HasFile fs q f ∧
      f'.contents.byte = f.contents.byte ∧ (padToFull fs x fault).1 = fs.insert q (.file f') := by
  unfold padToFull
  rcases hres : resolve fs x with _ | ⟨q, f⟩
  · exact Or.inl rfl
  dsimp only
  by_cases hw : f.writable = false
  · rw [if_pos hw]
    exact Or.inl rfl
  rw [if_neg hw]
  rcases fault with _ | n
  · refine Or.inr ⟨q, f, _, hasFile_of_resolve hres, ?_, rfl⟩
    rfl
  · refine Or.inr ⟨q, f, _, hasFile_of_resolve hres, ?_, rfl⟩
    rfl

/-- A preparation leaves the files alone, makes a scratch copy, or pads the disk. -/
theorem prepare_fs (g : GadgetController) (fs : Fs) (c : MountCall) (a : PrepFaults) :
    (g.prepare fs c a).1 = fs ∨
      (∃ backing pad, backing.1.dir = g.sessionDir.asPosix ∧
        (g.prepare fs c a).1 = (g.scratchCopy fs c.disk backing pad a).1) ∨
      (g.prepare fs c a).1 = (padToFull fs c.disk.1 a.pad).1 := by
  unfold GadgetController.prepare
  by_cases hmem : c.disk ∉ c.floppySet.disks
  · rw [if_pos hmem]
    exact Or.inl rfl
  rw [if_neg hmem]
  rcases resolve fs c.disk.1 with _ | ⟨q, f⟩
  · exact Or.inl rfl
  dsimp only
  split_ifs
  · exact Or.inl rfl
  · exact Or.inr (Or.inl ⟨g.sessionImage, _, sessionImage_dir g, rfl⟩)
  · exact Or.inr (Or.inl ⟨g.roPaddedImage, _, roPaddedImage_dir g, rfl⟩)
  · exact Or.inr (Or.inr rfl)
  · exact Or.inl rfl

theorem noNewLinks_padToFull (fs : Fs) (x : Path) (fault : Option ℕ) :
    NoNewLinks g fs (padToFull fs x fault).1 := by
  rcases padToFull_fs fs x fault with hfs | ⟨q, f, f', -, -, hfs⟩
  · rw [hfs]
    exact .refl fs
  · rw [hfs]
    exact noNewLinks_insert fs q f'

theorem noNewLinks_copyfile (fs : Fs) (src dst : Path) (fault : Option ℕ) :
    NoNewLinks g fs (copyfile fs src dst fault).1 := by
  unfold copyfile
  split
  · exact .refl fs
  · split
    · exact noNewLinks_insert _ _ _
    · exact noNewLinks_insert _ _ _

theorem noNewLinks_scratchCopy (fs : Fs) (disk backing : Image) (pad : Bool) (a : PrepFaults) :
    NoNewLinks g fs (g.scratchCopy fs disk backing pad a).1 := by
  have hclean : NoNewLinks g fs (g.cleanupSession fs) := noNewLinks_cleanup fs
  have hcopy := hclean.trans
    (noNewLinks_copyfile (g.cleanupSession fs) disk.1 backing.1 a.copy)
  unfold GadgetController.scratchCopy
  dsimp only
  by_cases hmkdir : a.mkdir = true
  · rw [if_pos hmkdir]
    exact hclean
  rw [if_neg hmkdir]
  rcases hr : copyfile (g.cleanupSession fs) disk.1 backing.1 a.copy with ⟨fs', e | u⟩
  all_goals rw [hr] at hcopy
  · exact hcopy
  · cases pad
    · exact hcopy
    · exact hcopy.trans (noNewLinks_padToFull _ _ _)

theorem noNewLinks_prepare (fs : Fs) (c : MountCall) (a : PrepFaults) :
    NoNewLinks g fs (g.prepare fs c a).1 := by
  rcases prepare_fs g fs c a with hfs | ⟨backing, pad, -, hfs⟩ | hfs
  · rw [hfs]
    exact .refl fs
  · rw [hfs]
    exact noNewLinks_scratchCopy fs c.disk backing pad a
  · rw [hfs]
    exact noNewLinks_padToFull fs c.disk.1 a.pad

/-! ### Mounts -/

theorem scratchCopy_hasFile {fs fs' : Fs} {disk backing : Image} {pad : Bool} {a : PrepFaults}
    (h : g.scratchCopy fs disk backing pad a = (fs', .ok ())) :
    ∃ f, HasFile fs' backing.1 f := by
  unfold GadgetController.scratchCopy copyfile at h
  dsimp only at h
  by_cases hmkdir : a.mkdir = true
  · rw [if_pos hmkdir] at h
    cases h
  rw [if_neg hmkdir] at h
  generalize resolve (g.cleanupSession fs) disk.1 = r at h
  obtain _ | ⟨q, f⟩ := r
  · cases h
  generalize a.copy = fault at h
  obtain _ | n := fault
  · cases pad
    · obtain rfl := (Prod.mk.inj h).1
      exact ⟨_, hasFile_insert _ _ _⟩
    · have h : padToFull ((g.cleanupSession fs).insert backing.1 (.file ⟨f.contents, true⟩))
          backing.1 a.pad = (fs', .ok ()) := h
      rw [padToFull_ok (hasFile_insert _ _ _) h]
      exact ⟨_, hasFile_insert _ _ _⟩
  · cases h

theorem prepare_session {fs fs' : Fs} {c : MountCall} {a : PrepFaults} {backing : Image}
    (hsession : c.session = true) (h : g.prepare fs c a = (fs', .ok backing)) :
    backing = g.sessionImage ∧ ∃ f, HasFile fs' backing.1 f := by
  unfold GadgetController.prepare at h
  by_cases hmem : c.disk ∉ c.floppySet.disks
  · rw [if_pos hmem] at h
    cases h
  rw [if_neg hmem] at h
  generalize resolve fs c.disk.1 = r at h
  obtain _ | ⟨q, f⟩ := r
  · cases h
  dsimp only at h
  by_cases hlarge : f.contents.size > FLOPPY_SIZE_BYTES
  · rw [if_pos hlarge] at h
    cases h
  rw [if_neg hlarge, if_pos hsession] at h
  obtain ⟨hfs, hr⟩ := Prod.mk.inj h
  obtain ⟨hok, rfl⟩ := map_ok hr
  exact ⟨rfl, scratchCopy_hasFile (Prod.ext hfs hok)⟩

/-- A mount that may not open `p` read-write backs the LUN with a file that leads elsewhere. -/
theorem prepare_avoids {fs fs' : Fs} {c : MountCall} {a : PrepFaults} {backing : Image}
    (hp : InLibrary g p) (hscratch : NotLink g g.sessionImage.1)
    (hspares : c.session = true ∨ c.floppySet.readOnly = true ∨
      StaysIn fs (Elsewhere g p) (maxSymlinks + 1) c.disk.1)
    (h : g.prepare fs c a = (fs', .ok backing)) : Avoids g p fs' c.readOnly backing := by
  by_cases hsession : c.session = true
  · obtain ⟨rfl, f', hf'⟩ := prepare_session hsession h
    refine Or.inr (staysIn_of_hasFile ⟨hscratch, fun heq => hp.session ?_⟩ hf' _)
    rw [← heq, sessionImage_dir]
  have hs : c.session = false := eq_false_of_ne_true hsession
  by_cases hro : c.floppySet.readOnly = true
  · exact Or.inl (by rw [MountCall.readOnly, hs, hro]; rfl)
  · obtain ⟨rfl, -⟩ := prepare_direct hs (eq_false_of_ne_true hro) h
    have hlinks : NoNewLinks g fs fs' := by
      have := noNewLinks_prepare (g := g) fs c a
      rwa [h] at this
    exact Or.inr (hlinks.staysIn ((hspares.resolve_left hsession).resolve_left hro))

theorem safeSteps_finish {fs : Fs} {c : MountCall} {backing : Image}
    (h : Avoids g p fs c.readOnly backing) (ro : Bool) :
    SafeSteps g p fs ro (finishSteps c backing) := ⟨h, trivial⟩

theorem safeSteps_mount {fs : Fs} {c : MountCall} {backing : Image}
    (h : Avoids g p fs c.readOnly backing) (current : Option MountedImage) (ro : Bool) :
    SafeSteps g p fs ro (mountSteps current c backing) := by
  unfold mountSteps
  split_ifs
  · exact safeSteps_finish h ro
  · exact ⟨h, trivial⟩

theorem SafeSteps.mono {fs : Fs} {ro ro' : Bool} {steps : List ServiceStep}
    (h : SafeSteps g p fs ro steps) (hro : ro = true → ro' = true) :
    SafeSteps g p fs ro' steps := by
  fun_induction SafeSteps g p fs ro steps generalizing ro' with
  | case1 ro => trivial
  | case2 _ ro rest => exact h
  | case3 ro file rest ih => exact ⟨h.1.imp_left hro, ih h.2 hro⟩
  | case4 ro x rest ih => exact ⟨h.1, ih h.2 hro⟩
  | case5 _ _ rest ih => exact ih h hro
  | case6 _ rest ih => exact ih h hro
  | case7 _ rest ih => exact ih h hro
  | case8 _ _ rest ih => exact ih h hro

/-! ### Steps -/

theorem OpenFile.cleaned_linked {file : OpenFile} {fs : Fs}
    (h : file.cleaned g fs = .linked p) : file = .linked p := by
  cases file with
  | linked x =>
    simp only [OpenFile.cleaned] at h
    split_ifs at h
    exact h
  | unlinked c => exact h

theorem OpenFile.relinked_linked {file : OpenFile} {fs : Fs} (hp : NotLink g p)
    (h : file.relinked g.backend fs = .linked p) : file = .linked p := by
  cases file with
  | linked x =>
    simp only [OpenFile.relinked] at h
    split at h
    · rename_i link blank hlink hblank
      split_ifs at h
      · cases h
        exact absurd rfl (hp link hlink).2
      · exact h
      · exact h
    · exact h
  | unlinked c => exact h

theorem opened_of_map {opened : Option OpenFile} {k : OpenFile → OpenFile}
    (hk : ∀ file, k file = .linked p → file = .linked p)
    (h : opened.map k = some (.linked p)) : opened = some (.linked p) := by
  obtain ⟨file, hfile, hlinked⟩ := Option.map_eq_some_iff.mp h
  rw [hfile, hk file hlinked]

theorem Isolated.mount (h : Isolated g p f s) (hp : InLibrary g p)
    (hscratch : NotLink g g.sessionImage.1) {c : MountCall} {a : PrepFaults}
    (hspares : Spares g p s (.mount c a)) : Isolated g p f (s.mount g c a) := by
  have hlinks : NoNewLinks g s.fs (g.prepare s.fs c a).1 := noNewLinks_prepare s.fs c a
  have hopened : (s.mount g c a).opened = some (.linked p) → s.opened = some (.linked p) := by
    simp only [Appliance.mount]
    split_ifs
    · exact opened_of_map fun file => OpenFile.cleaned_linked
    · exact id
  refine ⟨?_, fun hsome => h.door fun hnone => hsome ?_, fun hlinked => h.opened (hopened hlinked),
    ?_, fun x hx => hlinks.avoids (h.sleeping x hx)⟩
  · rcases prepare_frame g s.fs c a hp.session with hkeep | ⟨⟨hs, hro⟩, f₁, f₂, hres, -⟩
    · exact hkeep.trans h.file
    · -- a mount that pads `p` in place would open it read-write
      have hstays := hspares.resolve_left (by rw [hs]; exact Bool.false_ne_true)
      have hmem := (hstays.resolve_left (by rw [hro]; exact Bool.false_ne_true)).mem hres
      exact absurd rfl hmem.2
  · simp only [Appliance.mount, hnone, Option.map_none, ite_self]
  · simp only [Appliance.mount]
    rcases hprep : g.prepare s.fs c a with ⟨fs', e | backing⟩
    · trivial
    · exact safeSteps_mount (prepare_avoids hp hscratch hspares hprep) s.current _

theorem Isolated.service (h : Isolated g p f s) (hp : InLibrary g p) (fault : Option Errno) :
    Isolated g p f (s.service g fault) := by
  rcases s.service_cases g fault with hended | ⟨step, rest, s', hrun, hdone, hservice⟩
  · rw [hended]
    exact ⟨h.file, h.door, h.opened, trivial, h.sleeping⟩
  rw [hservice]
  have hsafe := h.running
  rw [hrun] at hsafe
  cases step with
  | link target =>
    obtain rfl := Option.some.inj hdone
    have hlinks : NoNewLinks g s.fs (g.backend.updateCurrentSymlink s.fs target) :=
      noNewLinks_relink s.fs target
    refine ⟨(hp.notLink.lookup s.fs target).trans h.file, fun hsome => h.door fun hnone => hsome ?_,
      fun hlinked => h.opened ?_, hlinks.safeSteps hsafe,
      fun x hx => hlinks.avoids (h.sleeping x hx)⟩
    · rw [hnone]
      rfl
    · exact opened_of_map (fun file => OpenFile.relinked_linked hp.notLink) hlinked
  | detach =>
    obtain ⟨-, rfl⟩ := store_detach hdone
    have hro : (detachedLun s.thread.lun).initiallyRo = s.thread.lun.initiallyRo := by
      unfold detachedLun
      split_ifs <;> rfl
    refine ⟨h.file, fun hsome => absurd rfl hsome, fun hlinked => (by cases hlinked), ?_,
      h.sleeping⟩
    change SafeSteps g p s.fs (detachedLun s.thread.lun).initiallyRo rest
    rw [hro]
    exact hsafe
  | setRo ro =>
    obtain ⟨hclosed, rfl⟩ := store_setRo hdone
    have hnone : s.opened = none := by
      by_contra hsome
      have hopen := h.door hsome
      rw [FsgLun.not_isOpen_iff.mpr hclosed] at hopen
      cases hopen
    exact ⟨h.file, fun hsome => absurd hnone hsome,
      fun hlinked => (by cases hnone.symm.trans hlinked), hsafe, h.sleeping⟩
  | attach file =>
    obtain ⟨q, f', hres, -, rfl⟩ := store_attach hdone
    refine ⟨h.file, fun _ => rfl, fun hlinked => ?_, hsafe.2, h.sleeping⟩
    -- a store to lun0_ro before this one has set the flag, or the file is another one
    rcases hsafe.1 with hro | hstays
    · change (s.thread.lun.initiallyRo || !f'.writable) = true
      rw [hro]
      rfl
    · obtain rfl : q = p := by
        cases hlinked
        rfl
      exact absurd rfl (hstays.mem hres).2
  | sleep x =>
    obtain rfl := Option.some.inj hdone
    refine ⟨h.file, h.door, h.opened, hsafe.2, fun y hy => ?_⟩
    rcases List.mem_append.mp hy with hy | hy
    · exact h.sleeping y hy
    · obtain rfl := List.mem_singleton.mp hy
      exact hsafe.1
  | cleanup =>
    obtain rfl := Option.some.inj hdone
    have hlinks : NoNewLinks g s.fs (g.cleanupSession s.fs) := noNewLinks_cleanup s.fs
    refine ⟨(lookup_cleanup_of_inLibrary hp).trans h.file,
      fun hsome => h.door fun hnone => hsome ?_, fun hlinked => h.opened ?_,
      hlinks.safeSteps hsafe, fun x hx => hlinks.avoids (h.sleeping x hx)⟩
    · simp only [Appliance.clean, hnone, Option.map_none]
    · exact opened_of_map (fun file => OpenFile.cleaned_linked) hlinked
  | record m =>
    obtain rfl := Option.some.inj hdone
    exact ⟨h.file, h.door, h.opened, hsafe, h.sleeping⟩

/-- No one but the service puts a medium in or clears the read-only flag. -/
theorem KernelEvent.lun_move (e : KernelEvent) {lun lun' : FsgLun} (h : LunMove lun e.event lun') :
    MediumKept lun lun' ∨
      lun.filp = none ∧ MediumKept { lun with ro := true, initiallyRo := true } lun' := by
  cases h with
  | kept h => exact Or.inl h
  | load vfs filename disk data he h => cases e <;> cases he
  | setRo ro hclosed h he =>
    cases ro with
    | true => exact Or.inr ⟨hclosed, h⟩
    | false =>
      obtain ⟨buf, data, he, -⟩ := he rfl
      cases e <;> cases he

theorem OpenFile.lookup_write {file : OpenFile} (hne : file ≠ .linked p) (fs : Fs) (c : Contents) :
    (file.write fs c).1.lookup p = fs.lookup p := by
  cases file with
  | linked x =>
    have hx : p ≠ x := fun heq => hne (congrArg OpenFile.linked heq.symm)
    simp only [OpenFile.write]
    split
    · exact AList.lookup_insert_ne hx
    · rfl
  | unlinked c => rfl

theorem OpenFile.write_linked {file : OpenFile} {fs : Fs} {c : Contents}
    (h : (file.write fs c).2 = .linked p) : file = .linked p := by
  cases file with
  | linked x =>
    simp only [OpenFile.write] at h
    split at h <;> exact h
  | unlinked c => cases h

theorem OpenFile.noNewLinks_write (file : OpenFile) (fs : Fs) (c : Contents) :
    NoNewLinks g fs (file.write fs c).1 := by
  cases file with
  | linked x =>
    simp only [OpenFile.write]
    split
    · exact noNewLinks_insert _ _ _
    · exact .refl fs
  | unlinked c => exact .refl fs

theorem openContents_linked (hopened : s.opened = some (.linked p)) (hf : HasFile s.fs p f) :
    s.openContents = f.contents := by
  have hfile : s.fs.lookup p = some (.file f) := hf
  simp only [Appliance.openContents, hopened, Option.map_some, OpenFile.contents, hfile,
    Option.getD_some]

theorem kernel_other (hother : s.opened ≠ some (.linked p)) (e : KernelEvent) :
    (s.kernel e).fs.lookup p = s.fs.lookup p := by
  simp only [Appliance.kernel]
  split
  · rename_i file _ hopened
    exact OpenFile.lookup_write (fun heq => hother (by rw [hopened, heq])) _ _
  · rfl

/-- The file gets the bytes that the drive leaves in it. -/
theorem kernel_opened (hopened : s.opened = some (.linked p)) (hf : HasFile s.fs p f)
    {e : KernelEvent} {c : Contents}
    (hc : ∀ k, s.thread.lun.filp = some k → (s.drive.step e.event).files k.name = c)
    (hclosed : s.thread.lun.filp = none → c = f.contents) :
    HasFile (s.kernel e).fs p { f with contents := c } := by
  have hfile : s.fs.lookup p = some (.file f) := hf
  simp only [Appliance.kernel, hopened]
  rcases hfilp : s.thread.lun.filp with _ | k
  · rw [hclosed hfilp]
    exact hf
  · simp only [hc k hfilp, OpenFile.write, hfile]
    exact hasFile_insert _ _ _

theorem kernel_kept (hf : HasFile s.fs p f) {e : KernelEvent}
    (hkept : s.opened = some (.linked p) → (s.drive.step e.event).files = s.drive.files) :
    HasFile (s.kernel e).fs p f := by
  by_cases hopened : s.opened = some (.linked p)
  · have hbytes : ∀ name, (s.drive.step e.event).files name = f.contents := fun name => by
      rw [hkept hopened]
      exact openContents_linked hopened hf
    exact kernel_opened hopened hf (fun k _ => hbytes k.name) fun _ => rfl
  · exact (kernel_other hopened e).trans hf

theorem Isolated.kernel (h : Isolated g p f s) (e : KernelEvent) : Isolated g p f (s.kernel e) := by
  have hmove := e.lun_move (s.drive.lun_move e.event)
  have hopened : (s.kernel e).opened = some (.linked p) → s.opened = some (.linked p) := by
    simp only [Appliance.kernel]
    split_ifs
    · split
      · rename_i hsome
        intro hlinked
        rw [hsome, OpenFile.write_linked (Option.some.inj hlinked)]
      · exact id
    · exact False.elim
  have hlinks : NoNewLinks g s.fs (s.kernel e).fs := by
    simp only [Appliance.kernel]
    split
    · exact OpenFile.noNewLinks_write _ _ _
    · exact .refl s.fs
  -- the flag may be set meanwhile, but is not cleared
  have hro : s.thread.lun.initiallyRo = true → (s.kernel e).thread.lun.initiallyRo = true := by
    intro hro
    rcases hmove with hkept | ⟨-, hkept⟩
    · exact hkept.initiallyRo.trans hro
    · exact hkept.initiallyRo
  have hfile : HasFile (s.kernel e).fs p f := by
    refine kernel_kept h.file fun hlinked => ?_
    exact Drive.files_of_ro (fun _ => h.opened hlinked) e.event
  refine ⟨hfile, ?_, fun hlinked => ?_, ?_, fun x hx => hlinks.avoids (h.sleeping x hx)⟩
  · intro hsome
    by_contra hclosed
    exact hsome (if_neg hclosed)
  · rcases hmove with hkept | ⟨-, hkept⟩
    · exact hkept.ro.trans (h.opened (hopened hlinked))
    · exact hkept.ro
  · exact (hlinks.safeSteps h.running).mono hro

theorem Isolated.resume (h : Isolated g p f s) (i : ℕ) : Isolated g p f (s.resume i) := by
  rcases s.resume_cases i with ⟨-, hresume⟩ | ⟨x, hx, hresume⟩
  · rw [hresume]
    exact h
  · rw [hresume]
    exact ⟨h.file, h.door, h.opened, safeSteps_finish (h.sleeping x (List.mem_of_getElem? hx)) _,
      fun y hy => h.sleeping y (List.mem_of_mem_eraseIdx hy)⟩

theorem Isolated.step (h : Isolated g p f s) (hp : InLibrary g p)
    (hscratch : NotLink g g.sessionImage.1) {e : ApplianceEvent} (hspares : Spares g p s e) :
    Isolated g p f (s.step g e) := by
  have hcall : ∀ steps, SafeSteps g p s.fs s.thread.lun.initiallyRo steps →
      Isolated g p f { s with running := steps } := fun steps hsteps =>
    ⟨h.file, h.door, h.opened, hsteps, h.sleeping⟩
  cases e with
  | mount c a => exact iteInduction (fun _ => h.mount hp hscratch hspares) fun _ => h
  | resume i => exact iteInduction (fun _ => h.resume i) fun _ => h
  | eject => exact iteInduction (fun _ => hcall _ trivial) fun _ => h
  | shutdown => exact iteInduction (fun _ => hcall _ trivial) fun _ => h
  | service fault => exact h.service hp fault
  | kernel e => exact h.kernel e

/-- A disk of the library keeps its bytes while no mount opens it read-write, whatever other
disks are mounted meanwhile, whatever the host sends, and whatever fails. -/
theorem protected_image_unchanged (hp : InLibrary g p) (hscratch : NotLink g g.sessionImage.1)
    (hfile : HasFile s.fs p f) (hdoor : s.opened ≠ none → s.thread.lun.isOpen = true)
    (hopened : s.opened = some (.linked p) → s.thread.lun.ro = true) (hidle : s.running = [])
    (hawake : s.sleeping = []) {es : List ApplianceEvent}
    (hspares : Guarded (Appliance.step g) (Spares g p) s es) :
    Throughout (Appliance.step g) (fun s' => HasFile s'.fs p f) s es := by
  have hinit : Isolated g p f s := by
    refine ⟨hfile, hdoor, hopened, ?_, fun x hx => ?_⟩
    · rw [hidle]
      trivial
    · rw [hawake] at hx
      cases hx
  exact (throughout_invariant (fun s e h hok => h.step hp hscratch hok) hinit hspares).mono
    fun s h => h.file

/-- A command of six bytes for `n` blocks from block `lba` on. -/
def sampleKernel (op lba n : UInt8) (dataDir : DataDirection) : KernelEvent :=
  .command 0
    { cmnd := fun i => if i = 0 then op else if i = 3 then lba else if i = 4 then n else 0
      cmndSize := 6
      dataDir
      dataSize := 512 * n.toUInt32 } sampleIo fun _ => 7

/-- The host writes to a disk of a read-only set, and to a session. -/
theorem protected_image_unchanged_example :
    Throughout (Appliance.step sampleController)
      (fun s => HasFile s.fs sampleDisk.1 ⟨.zeros FLOPPY_SIZE_BYTES, true⟩) (.start sampleFs)
      (.mount ⟨sampleSet, sampleDisk, false⟩ .none :: callServices .none ++
        .kernel (sampleKernel WRITE_6 1 1 .fromHost) ::
          .mount ⟨sampleSet, sampleDisk, true⟩ .none :: callServices .none ++
            .resume 0 :: callServices .none ++
              [.kernel (sampleKernel WRITE_6 1 1 .fromHost), .kernel .status, .eject]) := by
  have hlink : ∀ x, NotLink sampleController x := fun _ _ hlink => by cases hlink
  have hfile : HasFile (Appliance.start sampleFs).fs sampleDisk.1
      ⟨.zeros FLOPPY_SIZE_BYTES, true⟩ := rfl
  have hlib : InLibrary sampleController sampleDisk.1 := ⟨by decide, hlink _⟩
  refine protected_image_unchanged hlib (hlink _) hfile (fun h => absurd rfl h)
    (fun h => by cases h) rfl rfl ?_
  exact ⟨Or.inr (Or.inl rfl), trivial, trivial, trivial, trivial, trivial, trivial, Or.inl rfl,
    trivial, trivial, trivial, trivial, trivial, trivial, trivial, trivial, trivial, trivial,
    trivial, trivial, trivial, trivial, trivial⟩

end UsbFloppy.Gadget
