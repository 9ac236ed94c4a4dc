import UsbFloppy.Kernel.Drive

/-! What the drive does with the bytes of its files over a whole run: every transfer moves one
stretch of them and tells the host how long it is, what was written can be read back, and a
read-only drive changes nothing. -/

namespace UsbFloppy.Kernel
open Files Patch Transition

/-- The block a transfer begins with. -/
def Access.lba (a : Access) : ℕ :=
  if a.isWrite then lbaOf WRITE_6 WRITE_16 a.transfer.cmnd
  else lbaOf READ_6 READ_16 a.transfer.cmnd

/-- The position of this block in the file. -/
def Access.start (a : Access) : ℕ := a.lba <<< a.transfer.curlun.blkbits

/-- The number of bytes a transfer claims. -/
def Access.length (a : Access) : ℕ := a.transfer.dataSizeFromCmnd.toNat

/-- The number of bytes the host announced for a transfer. -/
def Access.announced (a : Access) : ℕ := a.transfer.residue.toNat

/-- The residue in the status the host is going to get. -/
def FsgThread.residue (t : FsgThread) : Option ℕ :=
  match t.loop with
  | .reply c => some c.residue.toNat
  | _ => none

variable {d : Drive} {e : DriveEvent} {a : Access}

theorem Drive.access_some (h : d.access e = some a) :
    ∃ cmd io data f, e = .bus (.command 0 cmd io) data ∧ d.thread.loop = .nextCommand ∧
      d.thread.lun.filp = some f ∧ a.file = f.name ∧ a.io = io ∧
      startTransfer io (receivedCbw d.thread.lun 0 cmd) = some (a.isWrite, a.transfer) := by
  unfold Drive.access at h
  split at h
  · rename_i number cmd io data
    split at h
    · rename_i f hloop hfilp
      obtain ⟨⟨isWrite, t⟩, hstart, rfl⟩ := Option.map_eq_some_iff.mp h
      obtain rfl : number = 0 := by
        by_contra hne
        obtain ⟨c', lun', hcheck, hlun', -⟩ := startTransfer_some hstart
        have hsome := (checkScsi_untouched (receivedCbw d.thread.lun number cmd)).isSome
        rw [hcheck, Checked.state, hlun', receivedCbw, if_neg hne] at hsome
        cases hsome
      exact ⟨cmd, io, data, f, rfl, hloop, hfilp, rfl, rfl, hstart⟩
    · cases h
  · cases h

/-- A transfer is on the file in the drive, and claims no more than the host announced. -/
theorem Drive.access_claims (ha : d.access e = some a) :
    ∃ f, d.thread.lun.filp = some f ∧ a.file = f.name ∧ a.length ≤ a.announced ∧
      a.transfer.usbAmountLeft = a.transfer.residue ∧
      MediumKept d.thread.lun a.transfer.curlun := by
  obtain ⟨cmd, io, data, f, rfl, hloop, hfilp, hfile, hio, hstart⟩ := Drive.access_some ha
  obtain ⟨hkept, hclaimed, husb, -⟩ := startTransfer_spec
    (show (receivedCbw d.thread.lun 0 cmd).curlun = some d.thread.lun from rfl) hstart
  exact ⟨f, hfilp, hfile, hclaimed, husb, hkept⟩

/-- A transfer is on the file in the drive, by the geometry of the LUN. -/
theorem Drive.Valid.access (h : d.Valid) (ha : d.access e = some a) :
    ∃ f, d.thread.lun.filp = some f ∧ a.file = f.name ∧
      a.transfer.curlun.Backed f (d.files a.file).size ∧ a.length ≤ a.announced ∧
      a.transfer.usbAmountLeft = a.transfer.residue ∧
      MediumKept d.thread.lun a.transfer.curlun := by
  obtain ⟨f, hfilp, hfile, hclaimed, husb, hkept⟩ := Drive.access_claims ha
  rw [hfile]
  exact ⟨f, hfilp, rfl, (h f hfilp).kept hkept, hclaimed, husb, hkept⟩

/-- The status of a transfer carries the residue its loop left. -/
theorem Drive.residue_step (ha : d.access e = some a) {residue : ℕ}
    (hres : (d.step e).thread.residue = some residue) :
    let r := if a.isWrite then doWrite a.transfer a.io.now a.io.writes
      else doRead a.transfer a.io.now a.io.reads
    r.1 ≠ .EINTR ∧ r.2.residue.toNat = residue := by
  obtain ⟨cmd, io, data, f, rfl, hloop, hfilp, hfile, rfl, hstart⟩ := Drive.access_some ha
  simp only [FsgThread.residue, Drive.step, FsgThread.step, hloop] at hres
  cases hdone : doScsiCommand a.io (receivedCbw d.thread.lun 0 cmd) with
  | mk replied c₂ =>
    rw [hdone] at hres
    cases replied with
    | false => cases hres
    | true =>
      obtain ⟨hintr, hresidue⟩ := doScsiCommand_residue hstart hdone
      refine ⟨hintr, ?_⟩
      rw [← hresidue]
      exact Option.some.inj hres

/-- What a WRITE does to the file in the drive: a first part of the host's bytes is stored
where the command says, and the residue tells how many whole blocks that are. -/
structure Wrote (d : Drive) (e : DriveEvent) (a : Access) (n : ℕ) : Prop where
  files : (d.step e).files =
    Function.update d.files a.file ((d.files a.file).write a.start n e.data)
  le : n ≤ a.length
  inFile : 0 < n → a.start + n ≤ (d.files a.file).size
  writable : 0 < n → d.thread.lun.ro = false ∧
    ∃ f, d.thread.lun.filp = some f ∧ f.name = a.file ∧ f.fmodeWrite = true ∧ f.canWrite = true
  residue : ∀ residue, (d.step e).thread.residue = some residue →
    residue + n / a.transfer.curlun.blksize * a.transfer.curlun.blksize = a.announced

/-- What a READ does: a stretch of the file from where the command says goes to the host, and
the residue tells its length. -/
structure ReadOut (d : Drive) (e : DriveEvent) (a : Access) (n : ℕ) : Prop where
  files : (d.step e).files = d.files
  delivered : d.delivered e = slice (d.files a.file).byte a.start n
  le : n ≤ a.length
  inFile : 0 < n → a.start + n ≤ (d.files a.file).size
  residue : ∀ residue, (d.step e).thread.residue = some residue → residue + n = a.announced

/-- The part of it that holds whether or not the LUN knows how long the file is. -/
structure Stores (d : Drive) (e : DriveEvent) (a : Access) (n : ℕ) : Prop where
  files : (d.step e).files =
    Function.update d.files a.file ((d.files a.file).write a.start n e.data)
  le : n ≤ a.length
  inFile : 0 < n → a.start + n ≤ a.transfer.curlun.fileLength
  writable : 0 < n → a.transfer.curlun.ro = false
  residue : ∀ residue, (d.step e).thread.residue = some residue →
    residue + n / a.transfer.curlun.blksize * a.transfer.curlun.blksize = a.announced

theorem Drive.stores (ha : d.access e = some a) (hw : a.isWrite = true)
    (hblk : d.thread.lun.blksize ∣ FSG_BUFLEN) : ∃ n, Stores d e a n := by
  obtain ⟨f, hfilp, hfile, hclaimed, husb, hkept⟩ := Drive.access_claims ha
  rw [← hkept.blksize] at hblk
  obtain ⟨n, hstored, hreadonly⟩ := doWriteBytes_stored a.transfer (d.files a.file) a.io.now
    a.io.writes e.data hblk hclaimed husb
  have hstart : a.start = lbaOf WRITE_6 WRITE_16 a.transfer.cmnd <<< a.transfer.curlun.blkbits := by
    rw [Access.start, Access.lba, if_pos hw]
  refine ⟨n, ?_, hstored.le, ?_, ?_, ?_⟩
  · obtain ⟨file, isWrite, t, io⟩ := a
    obtain rfl : isWrite = true := hw
    simp only [Drive.step, Drive.filesAfter, ha]
    rw [hstored.contents, hstart]
  · rw [hstart]
    exact hstored.inFile
  · intro hpos
    refine eq_false_of_ne_true fun hro' => ?_
    have hzero := hreadonly hro'
    omega
  · intro residue hres
    obtain ⟨hintr, hresidue⟩ := Drive.residue_step ha hres
    rw [if_pos hw, ← doWriteBytes_fst a.transfer (d.files a.file) _ _ e.data] at hintr hresidue
    rw [← hresidue]
    exact hstored.residue hintr

theorem Drive.Valid.wrote (h : d.Valid) (ha : d.access e = some a) (hw : a.isWrite = true) :
    ∃ n, Wrote d e a n := by
  obtain ⟨f, hfilp, hfile, hbacked, -, -, hkept⟩ := h.access ha
  obtain ⟨n, hstores⟩ := Drive.stores ha hw (by rw [← hkept.blksize]; exact hbacked.buffer)
  refine ⟨n, hstores.files, hstores.le, ?_, fun hpos => ?_, hstores.residue⟩
  · rw [← hbacked.fileLength]
    exact hstores.inFile
  · have hwritable := hstores.writable hpos
    exact ⟨hkept.ro.symm.trans hwritable, f, hfilp, hfile.symm, hbacked.writable hwritable⟩

theorem Drive.reads (ha : d.access e = some a) (hr : a.isWrite = false) :
    ∃ n, (d.step e).files = d.files ∧ d.delivered e = slice (d.files a.file).byte a.start n ∧
      n ≤ a.length ∧ (0 < n → a.start + n ≤ a.transfer.curlun.fileLength) ∧
      ∀ residue, (d.step e).thread.residue = some residue → residue + n = a.announced := by
  obtain ⟨-, -, -, hclaimed, -⟩ := Drive.access_claims ha
  obtain ⟨n, hread⟩ := doReadBytes_delivered a.transfer (d.files a.file) a.io.now a.io.reads hclaimed
  have hstart : a.start = lbaOf READ_6 READ_16 a.transfer.cmnd <<< a.transfer.curlun.blkbits := by
    rw [Access.start, Access.lba, if_neg (by rw [hr]; exact Bool.false_ne_true)]
  refine ⟨n, ?_, ?_, hread.le, ?_, ?_⟩
  · obtain ⟨file, isWrite, t, io⟩ := a
    obtain rfl : isWrite = false := hr
    simp only [Drive.step, Drive.filesAfter, ha]
  · obtain ⟨file, isWrite, t, io⟩ := a
    obtain rfl : isWrite = false := hr
    simp only [Drive.delivered, ha]
    rw [hread.sent, hstart, List.nil_append]
  · rw [hstart]
    exact hread.inFile
  · intro residue hres
    obtain ⟨hintr, hresidue⟩ := Drive.residue_step ha hres
    rw [if_neg (by rw [hr]; exact Bool.false_ne_true),
      ← doReadBytes_fst a.transfer (d.files a.file)] at hresidue
    rw [← hresidue]
    exact hread.residue

theorem Drive.Valid.readOut (h : d.Valid) (ha : d.access e = some a) (hr : a.isWrite = false) :
    ∃ n, ReadOut d e a n := by
  obtain ⟨f, -, -, hbacked, -⟩ := h.access ha
  obtain ⟨n, hfiles, hdelivered, hle, hinFile, hresidue⟩ := Drive.reads ha hr
  exact ⟨n, hfiles, hdelivered, hle, by rw [← hbacked.fileLength]; exact hinFile, hresidue⟩

theorem Drive.files_idle (hnone : d.access e = none) :
    (d.step e).files = d.files ∧ d.delivered e = [] := by
  simp only [Drive.step, Drive.filesAfter, Drive.delivered, hnone, and_self]

/-! ### Whole runs -/

/-- No event changes the length of a file. -/
theorem Drive.Valid.size (h : d.Valid) (e : DriveEvent) (name : Text) :
    ((d.step e).files name).size = (d.files name).size := by
  cases ha : d.access e with
  | none => rw [(Drive.files_idle ha).1]
  | some a =>
    cases hkind : a.isWrite with
    | false =>
      obtain ⟨n, hread⟩ := h.readOut ha hkind
      rw [hread.files]
    | true =>
      obtain ⟨n, hwrote⟩ := h.wrote ha hkind
      rw [hwrote.files]
      by_cases hname : name = a.file
      · rw [hname, Function.update_self]
        exact Contents.write_size hwrote.inFile
      · rw [Function.update_of_ne hname]

theorem Drive.Valid.step (h : d.Valid) (hhonest : Honest d e) : (d.step e).Valid := by
  intro f hf
  rw [h.size e f.name]
  exact h.thread hhonest f hf

theorem valid_start (files : Text → Contents) : (Drive.start files).Valid := .closed rfl

theorem valid_run {files : Text → Contents} {es : List DriveEvent}
    (hhonest : Guarded Drive.step Honest (Drive.start files) es) :
    (run Drive.step (Drive.start files) es).Valid :=
  run_invariant (fun _ _ h hok => h.step hok) (valid_start files) hhonest

/-- At any time the LUN has the geometry of the file in the drive, lets the host write only
to a file that was opened for writing, and no file has grown or shrunk. -/
theorem medium_described {files : Text → Contents} {es : List DriveEvent}
    (hhonest : Guarded Drive.step Honest (Drive.start files) es) :
    Throughout Drive.step (fun d => d.Valid ∧ ∀ name, (d.files name).size = (files name).size)
      (Drive.start files) es := by
  refine throughout_invariant (fun d e h hok => ⟨h.1.step hok, fun name => ?_⟩)
    ⟨valid_start files, fun _ => rfl⟩ hhonest
  rw [h.1.size e name, h.2 name]

/-- Files of three blocks. -/
def sampleFiles : Text → Contents := fun _ => Contents.zeros 1536

def sampleVfs : Vfs := fun name flags => .ok ⟨name, .reg, 1536, flags = .rdwr, true, true⟩

/-- Nothing goes wrong. -/
def sampleIo : CommandIo where
  now := 0
  transfer := sampleTransfer
  reads _ := ⟨false, some 16384, false, true⟩
  writes _ := ⟨true, false, 0, 16384, some 16384, false⟩
  verifies _ := (some 16384, false)
  interrupted := false
  fsyncFails := false
  signal := false

/-- A command of six bytes for `n` blocks from block `lba` on. -/
def sampleCommand (op lba n : UInt8) (dataDir : DataDirection) : DriveEvent :=
  .bus (.command 0
    { cmnd := fun i => if i = 0 then op else if i = 3 then lba else if i = 4 then n else 0
      cmndSize := 6
      dataDir
      dataSize := 512 * n.toUInt32 } sampleIo) fun _ => 7

def sampleStatus : DriveEvent := .bus .status fun _ => 0

/-- A file is put in, and the host is told of it. -/
def sampleMount : List DriveEvent :=
  [.bus (.file sampleVfs ['a'] ()) fun _ => 0, sampleCommand TEST_UNIT_READY 0 0 .none,
    sampleStatus]

theorem sampleMount_honest {es : List DriveEvent}
    (h : Guarded Drive.step Honest (run Drive.step (Drive.start sampleFiles) sampleMount) es) :
    Guarded Drive.step Honest (Drive.start sampleFiles) (sampleMount ++ es) := by
  refine (guarded_append _ _ _).mpr ⟨⟨fun name flags f hf => ?_, trivial, trivial, trivial⟩, h⟩
  obtain rfl := Except.ok.inj hf
  exact ⟨rfl, fun bits hbits => by cases hbits⟩

theorem medium_described_example :
    Throughout Drive.step
      (fun d => d.Valid ∧ ∀ name, (d.files name).size = (sampleFiles name).size)
      (Drive.start sampleFiles) (sampleMount ++ [sampleCommand WRITE_6 1 1 .fromHost]) :=
  medium_described (sampleMount_honest ⟨trivial, trivial⟩)

/-- Every byte an event moves is accounted for. -/
structure Exact (d : Drive) (e : DriveEvent) : Prop where
  idle : d.access e = none → (d.step e).files = d.files ∧ d.delivered e = []
  write : ∀ a, d.access e = some a → a.isWrite = true → ∃ n, Wrote d e a n
  read : ∀ a, d.access e = some a → a.isWrite = false → ∃ n, ReadOut d e a n

/-- The event claims none of the bytes of a file for a WRITE. -/
def Spares (file : Text) (start length : ℕ) (d : Drive) (e : DriveEvent) : Prop :=
  ∀ a, d.access e = some a → a.isWrite = true → a.file = file →
    a.start + a.length ≤ start ∨ start + length ≤ a.start

theorem Drive.Valid.spared (h : d.Valid) {file : Text} {start length : ℕ}
    (hspare : Spares file start length d e) :
    slice ((d.step e).files file).byte start length = slice (d.files file).byte start length := by
  cases ha : d.access e with
  | none => rw [(Drive.files_idle ha).1]
  | some a =>
    cases hkind : a.isWrite with
    | false =>
      obtain ⟨n, hread⟩ := h.readOut ha hkind
      rw [hread.files]
    | true =>
      obtain ⟨n, hwrote⟩ := h.wrote ha hkind
      rw [hwrote.files]
      by_cases hfile : file = a.file
      · have hrange := hspare a ha hkind hfile.symm
        have hle := hwrote.le
        rw [hfile, Function.update_self]
        exact slice_patch_outside (by omega)
      · rw [Function.update_of_ne hfile]

theorem Drive.Valid.run_spared (h : d.Valid) {file : Text} {start length : ℕ}
    {es : List DriveEvent} (hhonest : Guarded Drive.step Honest d es)
    (hspare : Guarded Drive.step (Spares file start length) d es) :
    (run Drive.step d es).Valid ∧ slice ((run Drive.step d es).files file).byte start length =
      slice (d.files file).byte start length := by
  have hinv : Throughout Drive.step (fun d' => d'.Valid ∧
      slice (d'.files file).byte start length = slice (d.files file).byte start length) d es :=
    throughout_invariant
      (fun _ _ h' hok => ⟨h'.1.step hok.1, (h'.1.spared hok.2).trans h'.2⟩) ⟨h, rfl⟩
      (hhonest.and hspare)
  exact hinv es (List.prefix_refl es)

/-- A residue of no more than was not claimed leaves nothing out. -/
theorem whole_of_residue {residue n blksize length announced : ℕ}
    (h : residue + n / blksize * blksize = announced) (hclaimed : residue + length ≤ announced)
    (hle : n ≤ length) : n = length := by
  have hdiv := Nat.div_mul_le_self n blksize
  omega

/-- A WRITE whose status leaves no more than it did not claim stored all it claimed. -/
theorem Wrote.whole {n residue : ℕ} (h : Wrote d e a n)
    (hres : (d.step e).thread.residue = some residue) (hclaimed : residue + a.length ≤ a.announced) :
    slice ((d.step e).files a.file).byte a.start a.length = slice e.data 0 a.length := by
  obtain rfl := whole_of_residue (h.residue residue hres) hclaimed h.le
  rw [h.files, Function.update_self]
  refine (slice_patch_inside (le_refl _) (le_refl _)).trans ?_
  rw [Nat.sub_self]

/-! ### A read-only image -/

/-- A file changes only while it is in the drive and the LUN is writable. -/
theorem Drive.file_of_shields {name : Text} (h : d.thread.lun.Shields name) (e : DriveEvent) :
    (d.step e).files name = d.files name := by
  change d.filesAfter e name = d.files name
  rcases ha : d.access e with _ | ⟨file, _ | _, t, io⟩ <;> simp only [Drive.filesAfter, ha]
  obtain ⟨cmd, io, data, f, rfl, hloop, hfilp, hfile, hio, hstart⟩ := Drive.access_some ha
  obtain ⟨hkept, -⟩ := startTransfer_spec
    (show (receivedCbw d.thread.lun 0 cmd).curlun = some d.thread.lun from rfl) hstart
  by_cases hname : name = file
  · have hro : t.curlun.ro = true := hkept.ro.trans (h f hfilp (hfile.symm.trans hname.symm))
    rw [doWriteBytes, if_pos hro, Function.update_eq_self]
  · rw [Function.update_of_ne hname]

theorem Drive.files_of_ro (h : d.thread.lun.isOpen = true → d.thread.lun.ro = true)
    (e : DriveEvent) : (d.step e).files = d.files :=
  funext fun _ => Drive.file_of_shields
    (fun _ hf _ => h (FsgLun.isOpen_iff.mpr ⟨_, hf⟩)) e

/-- An image that is put into the drive only while the drive is read-only never changes,
whatever the host sends and whatever other images are put in. -/
theorem read_only_unchanged {d : Drive} {name : Text} (hro : d.thread.lun.Shields name)
    {es : List DriveEvent} (hinserted : Guarded Drive.step (InsertedRo name) d es) :
    Throughout Drive.step (fun d' => d'.files name = d.files name) d es := by
  have hinv : Throughout Drive.step
      (fun d' => d'.thread.lun.Shields name ∧ d'.files name = d.files name) d es :=
    throughout_invariant
      (fun d' e h hok => ⟨d'.shields_step h.1 hok, (d'.file_of_shields h.1 e).trans h.2⟩)
      ⟨hro, rfl⟩ hinserted
  exact hinv.mono fun _ h => h.2

/-- A writable image is written to, and replaced by one that is put in read-only. -/
def sampleSwap : List DriveEvent :=
  [.bus (.file sampleVfs ['b'] ()) fun _ => 0, sampleCommand TEST_UNIT_READY 0 0 .none,
    sampleStatus, sampleCommand WRITE_6 1 1 .fromHost, sampleStatus,
    .bus (.file sampleVfs [] ()) fun _ => 0, .bus (.ro ['1']) fun _ => 0] ++ sampleMount

theorem read_only_unchanged_example :
    Throughout Drive.step (fun d => d.files ['a'] = sampleFiles ['a']) (Drive.start sampleFiles)
      (sampleSwap ++ [sampleCommand WRITE_6 1 1 .fromHost]) := by
  have hother : ∀ filename, filename ≠ ['a'] →
      ¬ ∃ flags f, sampleVfs filename flags = .ok f ∧ f.name = ['a'] := by
    rintro filename hne ⟨flags, f, hf, hname⟩
    rw [← Except.ok.inj hf] at hname
    exact hne hname
  refine read_only_unchanged (fun f hf => by cases hf) ⟨fun h => absurd h (hother _ (by decide)),
    trivial, trivial, trivial, trivial, fun h => absurd h (hother _ (by decide)), trivial,
    fun _ => ?_, trivial, trivial, trivial, trivial⟩
  decide +kernel

end UsbFloppy.Kernel
