import UsbFloppy.Gadget.Isolation
import UsbFloppy.Kernel.Completed

/-! What the host stores in a disk of the library is in the disk's file, and stays there over
everything the service and the host do, until another WRITE claims the same bytes. -/

namespace UsbFloppy.Gadget
open Files Kernel Patch Transition

variable {g : GadgetController} {p : Path} {f : File} {s : Appliance} {start : ℕ}
  {data : List UInt8}

/-! ### The file behind the LUN -/

theorem kernel_idle (hf : HasFile s.fs p f) {e : KernelEvent}
    (hidle : ∀ a, s.drive.access e.event = some a → a.isWrite = true →
      s.opened ≠ some (.linked p)) : HasFile (s.kernel e).fs p f := by
  refine kernel_kept hf fun hopened => ?_
  cases ha : s.drive.access e.event with
  | none => exact (Drive.files_idle ha).1
  | some a =>
    cases hw : a.isWrite with
    | true => exact absurd hopened (hidle a ha hw)
    | false =>
      obtain ⟨n, hfiles, -⟩ := Drive.reads ha hw
      exact hfiles

theorem kernel_write (hopened : s.opened = some (.linked p)) (hf : HasFile s.fs p f)
    (hblocks : s.thread.lun.blksize ∣ FSG_BUFLEN) {e : KernelEvent} {a : Access}
    (ha : s.drive.access e.event = some a) (hw : a.isWrite = true) :
    ∃ n, Stores s.drive e.event a n ∧
      HasFile (s.kernel e).fs p
        { f with contents := f.contents.write a.start n e.event.data } := by
  obtain ⟨n, hstores⟩ := Drive.stores ha hw hblocks
  obtain ⟨k, hfilp, hname, -⟩ := Drive.access_claims ha
  refine ⟨n, hstores, kernel_opened hopened hf (fun k' hk' => ?_) fun hnone => ?_⟩
  · obtain rfl : k = k' := Option.some.inj (hfilp.symm.trans hk')
    rw [hstores.files, ← hname, Function.update_self]
    exact congrArg (fun c : Contents => c.write a.start n e.event.data)
      (openContents_linked hopened hf)
  · cases hnone.symm.trans hfilp

/-! ### What keeps the bytes -/

/-- These bytes are in the file at `p`, and the LUN has blocks that fit its buffers. -/
structure Holds (p : Path) (start : ℕ) (data : List UInt8) (s : Appliance) : Prop where
  blocks : s.thread.lun.isOpen = true → s.thread.lun.blksize ∣ FSG_BUFLEN
  file : ∃ f, HasFile s.fs p f ∧ slice f.contents.byte start data.length = data

/-- While `p` is behind the LUN, the event claims none of the bytes for a WRITE. -/
def Leaves (p : Path) (start length : ℕ) (s : Appliance) : ApplianceEvent → Prop
  | .kernel e => ∀ a, s.drive.access e.event = some a → a.isWrite = true →
      s.opened = some (.linked p) → a.start + a.length ≤ start ∨ start + length ≤ a.start
  | _ => True

theorem padToFull_bytes {fs : Fs} (hf : HasFile fs p f) (x : Path) (fault : Option ℕ) :
    ∃ f', HasFile (padToFull fs x fault).1 p f' ∧ f'.contents.byte = f.contents.byte := by
  rcases padToFull_fs fs x fault with hfs | ⟨q, f₁, f', hq, hbytes, hfs⟩
  · rw [hfs]
    exact ⟨f, hf, rfl⟩
  rw [hfs]
  by_cases hp : p = q
  · subst hp
    obtain rfl : f = f₁ := HasFile.unique hf hq
    exact ⟨f', hasFile_insert _ _ _, hbytes⟩
  · exact ⟨f, (AList.lookup_insert_ne hp).trans hf, rfl⟩

/-- A preparation only appends to a file of the library. -/
theorem prepare_bytes {fs : Fs} (hf : HasFile fs p f) (hp : p.dir ≠ g.sessionDir.asPosix)
    (c : MountCall) (a : PrepFaults) :
    ∃ f', HasFile (g.prepare fs c a).1 p f' ∧ f'.contents.byte = f.contents.byte := by
  rcases prepare_fs g fs c a with hfs | ⟨backing, pad, hback, hfs⟩ | hfs
  · rw [hfs]
    exact ⟨f, hf, rfl⟩
  · rw [hfs]
    exact ⟨f, (scratchCopy_frame g fs c.disk pad a hback hp).trans hf, rfl⟩
  · rw [hfs]
    exact padToFull_bytes hf c.disk.1 a.pad

theorem Holds.mount (h : Holds p start data s) (hp : InLibrary g p) (c : MountCall)
    (a : PrepFaults) : Holds p start data (s.mount g c a) := by
  obtain ⟨f, hf, hbytes⟩ := h.file
  obtain ⟨f', hf', hsame⟩ := prepare_bytes (g := g) hf hp.session c a
  exact ⟨h.blocks, f', hf', by rw [hsame]; exact hbytes⟩

theorem Holds.service (h : Holds p start data s) (hp : InLibrary g p) (fault : Option Errno) :
    Holds p start data (s.service g fault) := by
  rcases s.service_cases g fault with hended | ⟨step, rest, s', -, hdone, hservice⟩
  · rw [hended]
    exact ⟨h.blocks, h.file⟩
  rw [hservice]
  obtain ⟨f, hf, hbytes⟩ := h.file
  cases step with
  | link target =>
    obtain rfl := Option.some.inj hdone
    exact ⟨h.blocks, f, (hp.notLink.lookup s.fs target).trans hf, hbytes⟩
  | detach =>
    obtain ⟨-, rfl⟩ := store_detach hdone
    refine ⟨fun hopen => ?_, f, hf, hbytes⟩
    cases (isOpen_detachedLun s.thread.lun).symm.trans hopen
  | setRo ro =>
    obtain ⟨-, rfl⟩ := store_setRo hdone
    exact ⟨h.blocks, f, hf, hbytes⟩
  | attach file =>
    obtain ⟨q, f', -, -, rfl⟩ := store_attach hdone
    refine ⟨fun _ => blockBits_dvd s.thread.lun fun bits hkind => ?_, f, hf, hbytes⟩
    cases hkind
  | sleep x =>
    obtain rfl := Option.some.inj hdone
    exact ⟨h.blocks, f, hf, hbytes⟩
  | cleanup =>
    obtain rfl := Option.some.inj hdone
    exact ⟨h.blocks, f, (lookup_cleanup_of_inLibrary hp).trans hf, hbytes⟩
  | record m =>
    obtain rfl := Option.some.inj hdone
    exact ⟨h.blocks, f, hf, hbytes⟩

theorem Holds.kernel (h : Holds p start data s) {e : KernelEvent}
    (hleave : Leaves p start data.length s (.kernel e)) : Holds p start data (s.kernel e) := by
  refine ⟨fun hopen => ?_, ?_⟩
  · -- a LUN that is open now was open before, with these blocks
    rcases e.lun_move (s.drive.lun_move e.event) with hkept | ⟨hclosed, hkept⟩
    · have hbefore : s.thread.lun.isOpen = true := by
        rcases hkept.filp with heq | hnone
        · exact (congrArg Option.isSome heq).symm.trans hopen
        · cases (FsgLun.not_isOpen_iff.mpr hnone).symm.trans hopen
      rw [show (s.kernel e).thread.lun.blksize = s.thread.lun.blksize from hkept.blksize]
      exact h.blocks hbefore
    · have hnone : (s.kernel e).thread.lun.filp = none :=
        hkept.filp.elim (fun heq => heq.trans hclosed) id
      cases (FsgLun.not_isOpen_iff.mpr hnone).symm.trans hopen
  · obtain ⟨f, hf, hbytes⟩ := h.file
    by_cases hwrites : ∃ a, s.drive.access e.event = some a ∧ a.isWrite = true ∧
        s.opened = some (.linked p)
    · -- also a WRITE that ends early stays within what it claims
      obtain ⟨a, ha, hw, hopened⟩ := hwrites
      obtain ⟨k, hfilp, -⟩ := Drive.access_claims ha
      obtain ⟨n, hstores, hfile⟩ := kernel_write hopened hf
        (h.blocks (FsgLun.isOpen_iff.mpr ⟨k, hfilp⟩)) ha hw
      have hrange := hleave a ha hw hopened
      have hle := hstores.le
      exact ⟨_, hfile, (slice_patch_outside (by omega)).trans hbytes⟩
    · exact ⟨f, kernel_idle hf fun a ha hw hopened => hwrites ⟨a, ha, hw, hopened⟩, hbytes⟩

theorem Holds.step (h : Holds p start data s) (hp : InLibrary g p) {e : ApplianceEvent}
    (hleave : Leaves p start data.length s e) : Holds p start data (s.step g e) := by
  cases e with
  | mount c a => exact iteInduction (fun _ => h.mount hp c a) fun _ => h
  | resume i =>
    refine iteInduction (fun _ => ?_) fun _ => h
    rcases s.resume_cases i with ⟨-, hresume⟩ | ⟨x, -, hresume⟩
    · rw [hresume]
      exact h
    · rw [hresume]
      exact ⟨h.blocks, h.file⟩
  | eject => exact iteInduction (fun _ => ⟨h.blocks, h.file⟩) fun _ => h
  | shutdown => exact iteInduction (fun _ => ⟨h.blocks, h.file⟩) fun _ => h
  | service fault => exact h.service hp fault
  | kernel e => exact h.kernel hleave

theorem holds_run (h : Holds p start data s) (hp : InLibrary g p) {es : List ApplianceEvent}
    (hleave : Guarded (Appliance.step g) (Leaves p start data.length) s es) :
    Holds p start data (run (Appliance.step g) s es) :=
  run_invariant (fun _ _ h hok => h.step hp hok) h hleave

/-- A WRITE that stored all it claimed. -/
theorem Holds.stored (h : Holds p 0 [] s) (hopened : s.opened = some (.linked p)) {e : KernelEvent}
    {a : Access} (ha : s.drive.access e.event = some a) (hw : a.isWrite = true) {residue : ℕ}
    (hres : (s.kernel e).thread.residue = some residue)
    (hclaimed : residue + a.length ≤ a.announced) :
    Holds p a.start (slice e.event.data 0 a.length) (s.kernel e) := by
  obtain ⟨f, hf, -⟩ := h.file
  obtain ⟨k, hfilp, -⟩ := Drive.access_claims ha
  obtain ⟨n, hstores, hfile⟩ := kernel_write hopened hf
    (h.blocks (FsgLun.isOpen_iff.mpr ⟨k, hfilp⟩)) ha hw
  obtain rfl := whole_of_residue (hstores.residue residue hres) hclaimed hstores.le
  refine ⟨(h.kernel fun _ _ _ _ => Or.inr (Nat.zero_le _)).blocks, _, hfile, ?_⟩
  rw [slice_length]
  refine (slice_patch_inside (le_refl _) (le_refl _)).trans ?_
  rw [Nat.sub_self]

/-- What a WRITE stored in a disk of the library is what a READ delivers whenever the disk is
behind the LUN again, whatever else was mounted, ejected, copied and written meanwhile. -/
theorem library_write_read_back (hp : InLibrary g p) (hfile : HasFile s.fs p f)
    (hblocks : s.thread.lun.isOpen = true → s.thread.lun.blksize ∣ FSG_BUFLEN)
    {before between : List ApplianceEvent} {w r : KernelEvent} {a b : Access} {residue : ℕ}
    (hopened : (run (Appliance.step g) s before).opened = some (.linked p))
    (ha : (run (Appliance.step g) s before).drive.access w.event = some a) (hw : a.isWrite = true)
    (hres : (run (Appliance.step g) s (before ++ [.kernel w])).thread.residue = some residue)
    (hclaimed : residue + a.length ≤ a.announced)
    (hleave : Guarded (Appliance.step g) (Leaves p a.start a.length)
      (run (Appliance.step g) s (before ++ [.kernel w])) between)
    (hopened' : (run (Appliance.step g) s (before ++ .kernel w :: between)).opened =
      some (.linked p))
    (hb : (run (Appliance.step g) s (before ++ .kernel w :: between)).drive.access r.event = some b)
    (hr : b.isWrite = false) (hstart : a.start ≤ b.start)
    (hend : b.start + b.length ≤ a.start + a.length) :
    ∃ n ≤ b.length, (run (Appliance.step g) s (before ++ .kernel w :: between)).drive.delivered
        r.event = slice w.event.data (b.start - a.start) n ∧
      ∀ residue, (run (Appliance.step g) s
        (before ++ .kernel w :: between ++ [.kernel r])).thread.residue = some residue →
          residue + n = b.announced := by
  have hkernel : ∀ (s' : Appliance) (e : KernelEvent), s'.step g (.kernel e) = s'.kernel e :=
    fun _ _ => rfl
  simp only [run_append, run_cons, run_nil, hkernel] at hres hleave hopened' hb ⊢
  -- up to the WRITE there are no bytes to keep, only the file
  have hinit : Holds p 0 [] s := ⟨hblocks, f, hfile, rfl⟩
  have hbefore : Holds p 0 [] (run (Appliance.step g) s before) :=
    holds_run hinit hp (guarded_of_forall (fun _ e => ?_) s before)
  swap
  · cases e <;> first | trivial | exact fun _ _ _ _ => Or.inr (Nat.zero_le _)
  set s₁ := run (Appliance.step g) s before
  have hstored : Holds p a.start (slice w.event.data 0 a.length) (s₁.kernel w) :=
    hbefore.stored hopened ha hw hres hclaimed
  have hkept : Holds p a.start (slice w.event.data 0 a.length)
      (run (Appliance.step g) (s₁.kernel w) between) :=
    holds_run hstored hp (by rw [slice_length]; exact hleave)
  set s₂ := run (Appliance.step g) (s₁.kernel w) between
  obtain ⟨f', hf', hbytes⟩ := hkept.file
  rw [slice_length] at hbytes
  obtain ⟨n, -, hdelivered, hle, -, hresidue⟩ := Drive.reads hb hr
  refine ⟨n, hle, ?_, hresidue⟩
  have hsame := slice_sub hbytes (show b.start - a.start + n ≤ a.length by omega)
  have hcontents : s₂.drive.files b.file = f'.contents := openContents_linked hopened' hf'
  rw [hdelivered, hcontents, show b.start = a.start + (b.start - a.start) by omega, hsame,
    Nat.zero_add, Nat.add_sub_cancel_left]

/-- Where the file lies, while it has a name. -/
def OpenFile.path : OpenFile → Option Path
  | .linked p => some p
  | .unlinked _ => none

theorem opened_of_path {opened : Option OpenFile} (h : opened.bind OpenFile.path = some p) :
    opened = some (.linked p) := by
  obtain ⟨file, hfile, hpath⟩ := Option.bind_eq_some_iff.mp h
  cases file with
  | linked x =>
    obtain rfl : x = p := Option.some.inj hpath
    exact hfile
  | unlinked c => cases hpath

def writableSet : FloppySet := { sampleSet with readOnly := false }

/-- A mount, after which the host is told of the medium. -/
def sampleBefore : List ApplianceEvent :=
  .mount ⟨writableSet, sampleDisk, false⟩ .none :: callServices .none ++
    [.kernel (sampleKernel TEST_UNIT_READY 0 0 .none), .kernel .status]

/-- The disk is ejected, mounted as a session, and swapped in again. -/
def sampleBetween : List ApplianceEvent :=
  .kernel .status :: .eject :: callServices .none ++
    .mount ⟨writableSet, sampleDisk, true⟩ .none :: callServices .none ++
      .mount ⟨writableSet, sampleDisk, false⟩ .none :: callServices .none ++
        .resume 0 :: callServices .none

def sampleAfter : List ApplianceEvent :=
  sampleBetween ++ [.kernel (sampleKernel TEST_UNIT_READY 0 0 .none), .kernel .status]

theorem library_write_read_back_example : ∃ n ≤ 512,
    (run (Appliance.step sampleController) (.start sampleFs)
      (sampleBefore ++ .kernel (sampleKernel WRITE_6 1 1 .fromHost) :: sampleAfter)).drive.delivered
        (sampleKernel READ_6 1 1 .toHost).event = slice (fun _ => 7) 0 n := by
  have hopened : (run (Appliance.step sampleController) (.start sampleFs) sampleBefore).opened =
      some (.linked sampleDisk.1) := opened_of_path (by decide +kernel)
  have hopened' : (run (Appliance.step sampleController) (.start sampleFs)
      (sampleBefore ++ .kernel (sampleKernel WRITE_6 1 1 .fromHost) :: sampleAfter)).opened =
        some (.linked sampleDisk.1) := opened_of_path (by decide +kernel)
  have hmap : ((run (Appliance.step sampleController) (.start sampleFs)
      sampleBefore).drive.access (sampleKernel WRITE_6 1 1 .fromHost).event).map Access.digest =
        some ⟨sampleDisk.1.asPosix, true, 1, 512, 512, 512, false⟩ := by decide +kernel
  have hmap' : ((run (Appliance.step sampleController) (.start sampleFs)
      (sampleBefore ++ .kernel (sampleKernel WRITE_6 1 1 .fromHost) :: sampleAfter)).drive.access
        (sampleKernel READ_6 1 1 .toHost).event).map Access.digest =
          some ⟨sampleDisk.1.asPosix, false, 1, 512, 512, 512, false⟩ := by decide +kernel
  obtain ⟨a, ha, hdigest⟩ := Option.map_eq_some_iff.mp hmap
  obtain ⟨b, hb, hdigest'⟩ := Option.map_eq_some_iff.mp hmap'
  simp only [Access.digest, Digest.mk.injEq] at hdigest hdigest'
  obtain ⟨-, hwrite, -, hstart, hlength, hannounced, -⟩ := hdigest
  obtain ⟨-, hread, -, hstart', hlength', -⟩ := hdigest'
  have hlink : ∀ x, NotLink sampleController x := fun _ _ hlink => by cases hlink
  have hlib : InLibrary sampleController sampleDisk.1 := ⟨by decide, hlink _⟩
  have hfile : HasFile (Appliance.start sampleFs).fs sampleDisk.1
      ⟨.zeros FLOPPY_SIZE_BYTES, true⟩ := rfl
  have hnone : ((run (Appliance.step sampleController) (.start sampleFs)
      (sampleBefore ++ .kernel (sampleKernel WRITE_6 1 1 .fromHost) :: sampleBetween)).drive.access
        (sampleKernel TEST_UNIT_READY 0 0 .none).event).isNone = true := by decide +kernel
  have hleave : Guarded (Appliance.step sampleController) (Leaves sampleDisk.1 a.start a.length)
      (run (Appliance.step sampleController) (.start sampleFs)
        (sampleBefore ++ [.kernel (sampleKernel WRITE_6 1 1 .fromHost)])) sampleAfter := by
    refine (guarded_append _ _ _).mpr ⟨?_, ?_, fun a' ha' => (by cases ha'), trivial⟩
    · refine ⟨fun a' ha' => (by cases ha'), ?_⟩
      repeat first | exact trivial | refine ⟨trivial, ?_⟩
    · intro a' ha'
      rw [← run_append, List.append_assoc] at ha'
      rw [List.singleton_append] at ha'
      rw [ha'] at hnone
      cases hnone
  obtain ⟨n, hle, hdelivered, -⟩ := library_write_read_back hlib hfile (fun h => (by cases h))
    hopened ha hwrite (show _ = some 0 by decide +kernel) (by rw [hlength, hannounced]) hleave
    hopened' hb hread (by rw [hstart, hstart']) (by rw [hstart, hstart', hlength, hlength'])
  rw [hstart, hstart', Nat.sub_self] at hdelivered
  exact ⟨n, hle.trans hlength'.le, hdelivered⟩

end UsbFloppy.Gadget
