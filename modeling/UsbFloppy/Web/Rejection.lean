import UsbFloppy.Web.Upload

/-! What an upload that is turned away has done to its folder. Nothing else works on the
folder meanwhile. -/

namespace UsbFloppy.Web
open Files Storage Transition

def UploadEvent.isOwn : UploadEvent → Bool
  | .callback _ => false
  | _ => true

/-- What happens in the upload itself. -/
def OwnEvent := {e : UploadEvent // e.isOwn = true}

def ownStep (zip : ZipFile) (s : UploadState) (e : OwnEvent) : UploadState := uploadStep zip s e.1

/-- The name the upload writes to. -/
def uploadTarget (filename : Option ClientName) : Option Text :=
  (filename.bind ClientName.bare).filter fun bare => bare ≠ [] ∧ NamesFile bare

/-- The upload returned an error row after its name was accepted and before its file was
normalized. -/
def Rejected (s : UploadState) : Prop :=
  ∃ why row, s.phase = .returned why (some row) ∧ why ∈ [UploadEnd.limit, .writeFailed]

/-- The listing and all contents are the same. -/
def Unchanged (before d : Folder) : Prop :=
  ∀ name, d.entries.lookup name = before.entries.lookup name ∧ d.read name = before.read name

variable {zip : ZipFile} {before d : Folder} {target : Text} {out : ℕ} {s : UploadState}

/-- All but the target is as it was. The bytes are those of the files before if the target
was free. -/
structure Beside (before d : Folder) (target : Text) : Prop where
  others : ∀ name, name ≠ target → d.entries.lookup name = before.entries.lookup name
  data : before.entries.lookup target = none → ∀ i, i < before.inodes → d.data i = before.data i

/-- The target is open for writing. -/
structure Writing (before d : Folder) (target : Text) (out : ℕ) : Prop where
  beside : Beside before d target
  fresh : before.entries.lookup target = none → before.inodes ≤ out

theorem beside_refl (d : Folder) (target : Text) : Beside d d target :=
  ⟨fun _ _ => rfl, fun _ _ _ => rfl⟩

theorem Beside.unlink (h : Beside before d target) : Beside before (d.unlink target) target where
  others name hname := (Folder.unlink_lookup_of_ne hname).trans (h.others name hname)
  data := h.data

theorem Writing.append (h : Writing before d target out) (bytes : List UInt8) :
    Writing before (d.append out bytes) target out where
  beside :=
    { others := h.beside.others
      data := fun hfree i hi => by
        rw [Folder.append_data_of_ne (hi.trans_le (h.fresh hfree)).ne]
        exact h.beside.data hfree i hi }
  fresh := h.fresh

theorem writing_openWb (hopen : before.openWb target = some (out, d)) :
    Writing before d target out := by
  unfold Folder.openWb at hopen
  split at hopen
  · cases hopen
  · rename_i i hfile
    cases hopen
    refine ⟨⟨fun _ _ => rfl, fun hfree => ?_⟩, fun hfree => ?_⟩ <;> cases hfree.symm.trans hfile
  · cases hopen
    refine ⟨⟨fun name hname => Folder.create_lookup_of_ne hname, fun _ i hi => ?_⟩, fun _ => le_rfl⟩
    exact Folder.create_data_of_lt hi

theorem Beside.unchanged_iff (h : Beside before d target) (hgone : d.entries.lookup target = none)
    (hdir : before.entries.lookup target ≠ some .directory) :
    Unchanged before d ↔ before.isFile target = false := by
  constructor
  · intro hsame
    have hnone := (hsame target).1.symm.trans hgone
    unfold Folder.isFile
    rw [hnone]
  · intro hnot
    have hfree : before.entries.lookup target = none := by
      unfold Folder.isFile at hnot
      split at hnot
      · cases hnot
      · rename_i hno
        rcases hlook : before.entries.lookup target with _ | (i | _)
        · rfl
        · exact absurd hlook (hno i)
        · exact absurd hlook hdir
    have hlook : ∀ name, d.entries.lookup name = before.entries.lookup name := by
      intro name
      by_cases hname : name = target
      · rw [hname, hgone, hfree]
      · exact h.others name hname
    intro name
    refine ⟨hlook name, ?_⟩
    unfold Folder.read
    rw [hlook name]
    split
    · rename_i i hi
      rw [h.data hfree i (before.allocated name i hi)]
    · rfl

/-! ### The run -/

/-- The target is open, or its name is gone. -/
structure Tracked (before : Folder) (target : Text) (s : UploadState) : Prop where
  name : s.target = target
  file : before.entries.lookup target ≠ some .directory
  writing : s.phase.isOpen = true → Writing before s.folder target s.out
  rejected : Rejected s → Beside before s.folder target ∧ s.folder.entries.lookup target = none

theorem not_rejected_of_isOpen (hopen : s.phase.isOpen = true) : ¬ Rejected s := by
  rintro ⟨why, row, hphase, -⟩
  rw [hphase] at hopen
  cases hopen

theorem Tracked.of_open {s' : UploadState} (h : Tracked before target s)
    (hname : s'.target = s.target) (hopen : s'.phase.isOpen = true)
    (hwriting : Writing before s'.folder target s'.out) : Tracked before target s' :=
  ⟨hname.trans h.name, h.file, fun _ => hwriting,
    fun hrejected => absurd hrejected (not_rejected_of_isOpen hopen)⟩

theorem Tracked.unlink {s' : UploadState} (h : Tracked before target s)
    (hbeside : Beside before s.folder target) {why : UploadEnd} {row : Option UploadRow}
    (hs' : s' = { s with folder := s.folder.unlink s.target }.return_ why row) :
    Tracked before target s' := by
  subst hs'
  refine ⟨h.name, h.file, fun hopen => (by cases hopen), fun _ => ?_⟩
  change Beside before (s.folder.unlink s.target) target ∧
    (s.folder.unlink s.target).entries.lookup target = none
  rw [h.name]
  exact ⟨hbeside.unlink, Folder.unlink_lookup_self⟩

theorem Tracked.receive (h : Tracked before target s) (hopen : s.phase.isOpen = true)
    (chunk : List UInt8) : Tracked before target (s.receive chunk) := by
  have hwriting := h.writing hopen
  unfold UploadState.receive
  split
  · rename_i hphase
    dsimp only
    split_ifs
    · exact h.of_open rfl rfl hwriting
    · exact h.of_open rfl rfl hwriting
    · exact h.of_open rfl hopen hwriting
  · exact h

theorem Tracked.flush (h : Tracked before target s) (hopen : s.phase.isOpen = true) (n : ℕ) :
    Tracked before target (s.flush n) :=
  h.of_open rfl hopen ((h.writing hopen).append _)

theorem Tracked.close (h : Tracked before target s) (hopen : s.phase.isOpen = true)
    (f : NormalizeFaults) : Tracked before target (s.close f zip) := by
  have hflushed := h.flush hopen s.pending.length
  unfold UploadState.close
  dsimp only
  split
  · exact hflushed.unlink (hflushed.writing hopen).beside rfl
  · refine ⟨h.name, h.file, fun hno => (by cases hno), ?_⟩
    rintro ⟨why, row, hphase, hwhy⟩
    injection hphase with hend
    subst hend
    exact absurd hwhy (by decide)
  · exact h

theorem Tracked.fail (h : Tracked before target s) (hbeside : Beside before s.folder target)
    (e : WriteFault) : Tracked before target (s.fail e) := by
  unfold UploadState.fail
  split_ifs
  · refine ⟨h.name, h.file, fun hopen => (by cases hopen), ?_⟩
    rintro ⟨why, row, hphase, -⟩
    cases hphase
  · exact h.unlink hbeside rfl

theorem Tracked.step (h : Tracked before target s) (e : OwnEvent) :
    Tracked before target (ownStep zip s e) := by
  obtain ⟨e, hown⟩ := e
  unfold ownStep uploadStep
  split_ifs with hopen
  · cases e with
    | received chunk => exact h.receive hopen chunk.1
    | flush n => exact h.flush hopen n
    | callback f => cases hown
    | closed f => exact h.close hopen f
    | failed e => exact h.fail (h.writing hopen).beside e
  · exact h

theorem uploadTarget_text {filename : Text} (hname : bareName filename ≠ [])
    (hfile : NamesFile (bareName filename)) :
    uploadTarget (some (.text filename)) = some (bareName filename) := by
  rw [uploadTarget, Option.bind_some, ClientName.bare, Option.filter_some,
    if_pos (decide_eq_true ⟨hname, hfile⟩)]

/-- Either the upload never writes, and is not rejected, or it starts on its target. -/
theorem beginUpload_cases (before : Folder) (filename : Option ClientName)
    (fault : Option WriteFault) :
    ((beginUpload before filename fault).phase.isOpen = false ∧
        ¬ Rejected (beginUpload before filename fault)) ∨
      ∃ target, uploadTarget filename = some target ∧
        Tracked before target (beginUpload before filename fault) := by
  have hover : ∀ {s : UploadState} {why row}, s.phase = .returned why row →
      (row = none ∨ why = .badName) → s.phase.isOpen = false ∧ ¬ Rejected s := by
    intro s why row hphase hwhy
    refine ⟨by rw [hphase]; rfl, ?_⟩
    rintro ⟨why', row', hphase', hmem⟩
    rw [hphase] at hphase'
    cases hphase'
    rcases hwhy with hrow | rfl
    · cases hrow
    · exact absurd hmem (by decide)
  rcases filename with _ | filename | _
  · exact Or.inl (hover rfl (Or.inr rfl))
  swap
  · exact Or.inl (hover rfl (Or.inl rfl))
  unfold beginUpload
  dsimp only
  by_cases hname : bareName filename = []
  · rw [if_pos hname]
    exact Or.inl (hover rfl (Or.inr rfl))
  rw [if_neg hname]
  by_cases hfile : NamesFile (bareName filename)
  swap
  · rw [if_pos hfile]
    exact Or.inl (hover rfl (Or.inl rfl))
  rw [if_neg (not_not.mpr hfile)]
  have htarget := uploadTarget_text hname hfile
  -- a folder of that name cannot be opened, nor unlinked
  rcases hopen : before.openWb (bareName filename) with _ | ⟨out, d⟩
  · exact Or.inl (hover rfl (Or.inl rfl))
  have hnotdir : before.entries.lookup (bareName filename) ≠ some .directory := by
    intro hdir
    unfold Folder.openWb at hopen
    rw [hdir] at hopen
    cases hopen
  refine Or.inr ⟨bareName filename, htarget, ?_⟩
  rcases fault with _ | e
  · have hwriting := writing_openWb hopen
    exact ⟨rfl, hnotdir, fun _ => hwriting, fun h => absurd h (not_rejected_of_isOpen rfl)⟩
  · change Tracked before (bareName filename)
      (UploadState.fail ⟨before, bareName filename, 0, [], [], .streaming⟩ e)
    unfold UploadState.fail
    split_ifs
    · refine ⟨rfl, hnotdir, fun hno => (by cases hno), ?_⟩
      rintro ⟨why, row, hphase, -⟩
      cases hphase
    · refine ⟨rfl, hnotdir, fun hno => (by cases hno), fun _ => ?_⟩
      exact ⟨(beside_refl before _).unlink, Folder.unlink_lookup_self⟩

theorem tracked_run (h : Tracked before target s) (events : List OwnEvent) :
    Tracked before target (run (ownStep zip) s events) := by
  have hguarded : Guarded (ownStep zip) (fun _ _ => True) s events :=
    guarded_of_forall (fun _ _ => trivial) _ _
  exact run_invariant (fun _ e h _ => h.step e) h hguarded

theorem run_of_over (hover : s.phase.isOpen = false) (events : List OwnEvent) :
    run (ownStep zip) s events = s := by
  induction events with
  | nil => rfl
  | cons e events ih =>
    have hstep : ownStep zip s e = s := by
      unfold ownStep uploadStep
      rw [hover]
      exact if_neg Bool.false_ne_true
    rw [run_cons, hstep, ih]

/-- Each rejected upload loses the file that had its name, and no other. -/
theorem rejected_unchanged_iff {filename : Option ClientName} {fault : Option WriteFault}
    {events : List OwnEvent}
    (hrejected : Rejected (run (ownStep zip) (beginUpload before filename fault) events)) :
    ∃ target, uploadTarget filename = some target ∧
      (Unchanged before (run (ownStep zip) (beginUpload before filename fault) events).folder ↔
        before.isFile target = false) := by
  rcases beginUpload_cases before filename fault with ⟨hover, hnot⟩ | ⟨target, htarget, htracked⟩
  · rw [run_of_over hover] at hrejected
    exact absurd hrejected hnot
  · have hrun : Tracked before target (run (ownStep zip) (beginUpload before filename fault) events) :=
      tracked_run htracked events
    obtain ⟨hbeside, hgone⟩ := hrun.rejected hrejected
    exact ⟨target, htarget, hbeside.unchanged_iff hgone hrun.file⟩

theorem rejected_of_failed (before : Folder) {filename : Option ClientName} {target : Text}
    (htarget : uploadTarget filename = some target) (hfile : before.isFile target = true)
    (exc : Text) : Rejected (run (ownStep zip) (beginUpload before filename none)
      [⟨.failed ⟨exc, false⟩, rfl⟩]) := by
  rw [uploadTarget, Option.filter_eq_some_iff] at htarget
  obtain ⟨hbare, hok⟩ := htarget
  obtain ⟨name, rfl, hname⟩ := Option.bind_eq_some_iff.mp hbare
  obtain ⟨hempty, hnames⟩ := of_decide_eq_true hok
  rcases name with filename | _
  swap
  · cases hname
  cases hname
  obtain ⟨i, hi⟩ := Folder.isFile_iff.mp hfile
  have hopen : before.openWb (bareName filename) = some (i, before.setData i []) := by
    unfold Folder.openWb
    rw [hi]
  have hbegin : beginUpload before (some (.text filename)) none =
      ⟨before.setData i [], bareName filename, i, [], [], .streaming⟩ := by
    unfold beginUpload
    dsimp only
    rw [if_neg hempty, if_neg (not_not.mpr hnames), hopen]
  rw [hbegin]
  exact ⟨.writeFailed, _, rfl, by decide⟩

/-- Uploads to a name can be rejected without harm, wherever the limit or an error strikes,
exactly if no file of the folder has the name. -/
theorem upload_rejection_harmless_iff (zip : ZipFile) (before : Folder)
    (filename : Option ClientName) :
    (∀ (fault : Option WriteFault) (events : List OwnEvent),
      Rejected (run (ownStep zip) (beginUpload before filename fault) events) →
        Unchanged before (run (ownStep zip) (beginUpload before filename fault) events).folder) ↔
      ∀ target, uploadTarget filename = some target → before.isFile target = false := by
  constructor
  · intro h target htarget
    by_contra hfile
    have hrejected : Rejected (run (ownStep zip) (beginUpload before filename none)
        [⟨.failed ⟨[], false⟩, rfl⟩]) :=
      rejected_of_failed before htarget (eq_true_of_ne_false hfile) []
    obtain ⟨target', htarget', hiff⟩ := rejected_unchanged_iff hrejected
    cases htarget.symm.trans htarget'
    exact hfile (hiff.mp (h none _ hrejected))
  · intro h fault events hrejected
    obtain ⟨target, htarget, hiff⟩ := rejected_unchanged_iff hrejected
    exact hiff.mpr (h target htarget)

/-- A folder with one image. -/
def oneImage : Folder := (emptyFolder.create "disk.img".toList).setData 0 [1, 2, 3]

/-- The disk is full when the first bytes of another disk.img are written. -/
theorem rejected_upload_destroys_image :
    ¬ ∀ (zip : ZipFile) (before : Folder) (filename : Option ClientName)
      (fault : Option WriteFault) (events : List OwnEvent),
      Rejected (run (ownStep zip) (beginUpload before filename fault) events) →
        Unchanged before (run (ownStep zip) (beginUpload before filename fault) events).folder := by
  intro h
  have hsame := h noZip oneImage (some (.text "disk.img".toList)) none
    [⟨.received ⟨[9], by decide⟩, rfl⟩, ⟨.failed ⟨"No space left on device".toList, false⟩, rfl⟩]
    ⟨.writeFailed, _, rfl, by decide⟩
  exact absurd (hsame "disk.img".toList).2 (by decide)

end UsbFloppy.Web
