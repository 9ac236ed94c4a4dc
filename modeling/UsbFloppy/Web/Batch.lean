import UsbFloppy.Web.Rejection
import UsbFloppy.Storage.FailedExtraction

/-! The files of one post_upload, stored one after another in a folder that nothing else works
on. The batch ends with the first exception. -/

namespace UsbFloppy.Web
open Files Storage Transition

/-- What the reads of a file return, and which OSErrors are met: when its target is opened, after
so many reads, and in its normalization. -/
structure UploadFile where
  filename : Option ClientName
  reads : List Chunk
  opening : Option WriteFault
  failing : Option (ℕ × WriteFault)
  faults : NormalizeFaults

/-- The bytes up to the first read that returns none. -/
def readBytes : List Chunk → List UInt8
  | [] => []
  | chunk :: reads => if chunk.1 = [] then [] else chunk.1 ++ readBytes reads

namespace UploadFile

variable (u : UploadFile)

def bare : Option Text := u.filename.bind ClientName.bare

/-- The name in the row of the file. -/
def reported : Option Text :=
  match u.filename with
  | some (.text filename) => some (if bareName filename = [] then filename else bareName filename)
  | _ => none

def contents : List UInt8 := readBytes u.reads

/-- All bytes get into the file. -/
def Arrives : Prop :=
  u.opening = none ∧ u.failing = none ∧ u.contents.length ≤ MAX_UPLOAD_BYTES

instance : Decidable u.Arrives := inferInstanceAs (Decidable (_ ∧ _))

/-- The OSError that the upload meets while the target is open or opened. -/
def fault : Option WriteFault :=
  match u.opening with
  | some e => some e
  | none => u.failing.map Prod.snd

/-- The file fails, and cannot be deleted. -/
def Stays : Prop := ∃ e, u.fault = some e ∧ e.kept = true

def readEvent (chunk : Chunk) : OwnEvent := ⟨.received chunk, rfl⟩

def lastRead : OwnEvent := ⟨.received ⟨[], Nat.zero_le _⟩, rfl⟩

def closeEvent : OwnEvent := ⟨.closed u.faults, rfl⟩

/-- What happens in the upload of the file. -/
def events : List OwnEvent :=
  match u.failing with
  | none => u.reads.map readEvent ++ [lastRead, u.closeEvent]
  | some (n, e) => (u.reads.take n).map readEvent ++ [⟨.failed e, rfl⟩]

end UploadFile

def streamUploadToSet (zip : ZipFile) (d : Folder) (u : UploadFile) : UploadState :=
  run (ownStep zip) (beginUpload d u.filename u.opening) u.events

/-- The row that was returned. -/
def UploadState.row (s : UploadState) : Option UploadRow :=
  match s.phase with
  | .returned _ row => row
  | _ => none

/-- `[await _stream_upload_to_set(target_dir, f) for f in files]`. -/
def streamUploads (zip : ZipFile) : Folder → List UploadFile → Option (List UploadRow) × Folder
  | d, [] => (some [], d)
  | d, u :: us =>
    let s := streamUploadToSet zip d u
    match s.row with
    | none => (none, s.folder)
    | some row =>
      match streamUploads zip s.folder us with
      | (rows, d') => (rows.map (row :: ·), d')

/-- The folder after one file. -/
def storeStep (zip : ZipFile) (d : Folder) (u : UploadFile) : Folder :=
  (streamUploadToSet zip d u).folder

variable {f : NormalizeFaults} {zip : ZipFile} {d d' : Folder} {u : UploadFile} {bare : Text}
  {out : ℕ}

/-! ### Names -/

theorem slash_not_mem_splitOn (t : Text) : ∀ part ∈ t.splitOn '/', '/' ∉ part := by
  induction t with
  | nil =>
    intro part hpart
    rw [List.splitOn_nil, List.mem_singleton] at hpart
    rw [hpart]
    exact List.not_mem_nil
  | cons c t ih =>
    intro part hpart
    rw [List.splitOn_cons_eq_if_modifyHead] at hpart
    split_ifs at hpart with hc
    · rcases List.mem_cons.mp hpart with rfl | hpart
      · exact List.not_mem_nil
      · exact ih part hpart
    · have hne : '/' ≠ c := fun h => hc (by rw [h]; exact beq_self_eq_true c)
      rcases hsplit : t.splitOn '/' with _ | ⟨first, rest⟩
      · rw [hsplit] at hpart
        cases hpart
      · rw [hsplit, List.modifyHead_cons] at hpart
        rw [hsplit] at ih
        rcases List.mem_cons.mp hpart with rfl | hpart
        · intro hmem
          rcases List.mem_cons.mp hmem with h | h
          · exact hne h
          · exact ih first List.mem_cons_self h
        · exact ih part (.tail _ hpart)

/-- `Path.name` has no slash and is not a dot. -/
theorem bareName_spec (filename : Text) :
    '/' ∉ bareName filename ∧ bareName filename ≠ ['.'] := by
  unfold bareName
  rcases hlast : ((filename.splitOn '/').filter fun part => part ≠ [] ∧ part ≠ ['.']).getLast?
    with _ | part
  · exact ⟨List.not_mem_nil, fun h => by cases h⟩
  · have hmem := List.mem_of_getLast? hlast
    rw [List.mem_filter, decide_eq_true_iff] at hmem
    exact ⟨slash_not_mem_splitOn filename part hmem.1, hmem.2.2⟩

theorem bareName_of_bare (h : u.bare = some bare) :
    ∃ filename, bare = bareName filename := by
  obtain ⟨name, -, htext⟩ := Option.bind_eq_some_iff.mp h
  cases name with
  | text filename =>
    cases htext
    exact ⟨filename, rfl⟩
  | surrogate => cases htext

/-! ### The run of one upload -/

theorem run_reads_of_done {s : UploadState} (hphase : s.phase = .finishing ∨ s.phase = .rejecting)
    (reads : List Chunk) : run (ownStep zip) s (reads.map UploadFile.readEvent) = s := by
  induction reads with
  | nil => rfl
  | cons chunk reads ih =>
    have hstep : ownStep zip s (UploadFile.readEvent chunk) = s := by
      unfold ownStep uploadStep
      change (if s.phase.isOpen then s.receive chunk.1 else s) = s
      unfold UploadState.receive
      rcases hphase with h | h <;> rw [h] <;> rfl
    rw [List.map_cons, run_cons, hstep, ih]

/-- What the loop has read is written to the target, up to the limit. -/
inductive ReadsDone (d' : Folder) (bare : Text) (out : ℕ) (bytes : List UInt8) :
    UploadState → Prop
  | rejecting (beyond : MAX_UPLOAD_BYTES < bytes.length) (received pending : List UInt8) :
    ReadsDone d' bare out bytes ⟨d', bare, out, received, pending, .rejecting⟩
  | read (within : bytes.length ≤ MAX_UPLOAD_BYTES) (phase : UploadPhase)
    (going : phase = .streaming ∨ phase = .finishing) :
    ReadsDone d' bare out bytes ⟨d', bare, out, bytes, bytes, phase⟩

theorem run_reads (reads : List Chunk) (read : List UInt8) (hread : read.length ≤ MAX_UPLOAD_BYTES) :
    ReadsDone d' bare out (read ++ readBytes reads)
      (run (ownStep zip) ⟨d', bare, out, read, read, .streaming⟩
        (reads.map UploadFile.readEvent)) := by
  induction reads generalizing read with
  | nil =>
    rw [readBytes, List.append_nil]
    exact .read hread .streaming (Or.inl rfl)
  | cons chunk reads ih =>
    have hstep : ownStep zip ⟨d', bare, out, read, read, .streaming⟩
        (UploadFile.readEvent chunk) =
          UploadState.receive ⟨d', bare, out, read, read, .streaming⟩ chunk.1 := rfl
    rw [List.map_cons, run_cons, hstep, readBytes]
    unfold UploadState.receive
    dsimp only
    by_cases hempty : chunk.1 = []
    · rw [if_pos hempty, if_pos hempty, run_reads_of_done (Or.inl rfl), List.append_nil]
      exact .read hread .finishing (Or.inr rfl)
    · rw [if_neg hempty, if_neg hempty, ← List.append_assoc]
      split_ifs with hlimit
      · rw [run_reads_of_done (Or.inr rfl)]
        refine .rejecting (lt_of_lt_of_le hlimit ?_) _ _
        exact (List.prefix_append (read ++ chunk.1) (readBytes reads)).length_le
      · exact ih _ (not_lt.mp hlimit)

/-- The folder once a file with these bytes is in it. -/
def withFile (d : Folder) (bare : Text) (bytes : List UInt8) : Folder :=
  match d.openWb bare with
  | none => d
  | some (out, d') => d'.append out bytes

/-- The name of the file alone makes its upload raise. -/
def RaisesByName (d : Folder) (filename : Option ClientName) : Prop :=
  filename = some .surrogate ∨ ∃ bare, filename.bind ClientName.bare = some bare ∧ bare ≠ [] ∧
    (¬ NamesFile bare ∨ d.entries.lookup bare = some .directory)

instance (d : Folder) (filename : Option ClientName) : Decidable (RaisesByName d filename) :=
  match hbare : filename.bind ClientName.bare with
  | none => decidable_of_iff (filename = some .surrogate)
      ⟨Or.inl, fun h => h.resolve_right fun ⟨bare, h, _⟩ => by cases hbare.symm.trans h⟩
  | some bare => decidable_of_iff
      (bare ≠ [] ∧ (¬ NamesFile bare ∨ d.entries.lookup bare = some .directory))
      ⟨fun h => Or.inr ⟨bare, hbare, h⟩, fun h => by
        rcases h with rfl | ⟨bare', h, hbad⟩
        · cases hbare
        · cases hbare.symm.trans h
          exact hbad⟩

/-- What an upload returns and leaves behind. -/
inductive Streamed (zip : ZipFile) (d : Folder) (u : UploadFile) :
    Option UploadRow → Folder → Prop
  /-- there is no name to write to -/
  | badName (name : u.filename = none ∨ u.bare = some []) (row : UploadRow)
    (reported : row.filename = u.reported) : Streamed zip d u (some row) d
  /-- the name is not one of a file, and what is to clean up raises again -/
  | raised (bad : RaisesByName d u.filename) : Streamed zip d u none d
  /-- the target fails, and is still there -/
  | kept {bare : Text} (name : uploadTarget u.filename = some bare)
    (file : d.entries.lookup bare ≠ some .directory) (stays : u.Stays) (d' : Folder)
    (others : ∀ other, other ≠ bare → d'.entries.lookup other = d.entries.lookup other)
    (still : d'.entries.lookup bare ≠ some .directory) : Streamed zip d u none d'
  /-- the target is deleted -/
  | rejected {bare : Text} (name : uploadTarget u.filename = some bare)
    (file : d.entries.lookup bare ≠ some .directory) (fails : ¬ u.Arrives) (gone : ¬ u.Stays)
    (row : UploadRow) (reported : row.filename = some bare) (d' : Folder)
    (others : ∀ other, other ≠ bare → d'.entries.lookup other = d.entries.lookup other)
    (free : d'.entries.lookup bare = none) : Streamed zip d u (some row) d'
  /-- the target is normalized -/
  | stored {bare : Text} (name : uploadTarget u.filename = some bare)
    (file : d.entries.lookup bare ≠ some .directory) (arrives : u.Arrives) :
    Streamed zip d u
      ((normalizeArrivedFile u.faults zip (withFile d bare u.contents) bare).1.map
        (UploadState.rowOf bare))
      (normalizeArrivedFile u.faults zip (withFile d bare u.contents) bare).2

theorem UploadFile.Arrives.not_stays (h : u.Arrives) : ¬ u.Stays := by
  rintro ⟨e, hfault, -⟩
  rw [UploadFile.fault, h.1, h.2.1] at hfault
  cases hfault

theorem openWb_lookup {other : Text} (hopen : d.openWb bare = some (out, d'))
    (hother : other ≠ bare) :
    d'.entries.lookup other = d.entries.lookup other :=
  (writing_openWb hopen).beside.others other hother

theorem ReadsDone.open {bytes : List UInt8} {s : UploadState} (h : ReadsDone d' bare out bytes s) :
    s.phase.isOpen = true ∧ s.folder = d' ∧ s.target = bare := by
  cases h with
  | rejecting beyond received pending => exact ⟨rfl, rfl, rfl⟩
  | read within phase going => rcases going with rfl | rfl <;> exact ⟨rfl, rfl, rfl⟩

theorem unlink_others (hopen : d.openWb bare = some (out, d')) {other : Text}
    (hother : other ≠ bare) :
    (d'.unlink bare).entries.lookup other = d.entries.lookup other := by
  rw [Folder.unlink_lookup_of_ne hother]
  exact openWb_lookup hopen hother

theorem file_of_openWb (hopen : d.openWb bare = some (out, d')) :
    d.entries.lookup bare ≠ some .directory := by
  intro hdir
  cases hopen.symm.trans (Folder.openWb_eq_none.mpr hdir)

/-- An OSError of a target that is open, or could not be opened. -/
theorem streamed_fail {s : UploadState} {e : WriteFault}
    (hname : uploadTarget u.filename = some bare)
    (hfile : d.entries.lookup bare ≠ some .directory) (htarget : s.target = bare)
    (hfault : u.fault = some e)
    (hothers : ∀ other, other ≠ bare → s.folder.entries.lookup other = d.entries.lookup other)
    (hstill : s.folder.entries.lookup bare ≠ some .directory) :
    Streamed zip d u (s.fail e).row (s.fail e).folder := by
  have hfails : ¬ u.Arrives := by
    intro harrives
    rw [UploadFile.fault, harrives.1, harrives.2.1] at hfault
    cases hfault
  unfold UploadState.fail
  split_ifs with hkept
  · exact .kept hname hfile ⟨e, hfault, hkept⟩ _ hothers hstill
  · refine .rejected hname hfile hfails ?_ _ (congrArg some htarget) _ ?_ ?_
    · rintro ⟨e', hfault', hkept'⟩
      cases hfault.symm.trans hfault'
      exact hkept hkept'
    · intro other hother
      refine (Folder.unlink_lookup_of_ne ?_).trans (hothers other hother)
      rw [htarget]
      exact hother
    · change (s.folder.unlink s.target).entries.lookup bare = none
      rw [htarget]
      exact Folder.unlink_lookup_self

/-- An OSError while the target is open. -/
theorem streamed_failing {n : ℕ} {e : WriteFault} (hname : uploadTarget u.filename = some bare)
    (hopen : d.openWb bare = some (out, d')) (hopening : u.opening = none)
    (hfailing : u.failing = some (n, e)) :
    Streamed zip d u
      (run (ownStep zip) ⟨d', bare, out, [], [], .streaming⟩ u.events).row
      (run (ownStep zip) ⟨d', bare, out, [], [], .streaming⟩ u.events).folder := by
  have hdone : ReadsDone d' bare out (readBytes (u.reads.take n)) (run (ownStep zip)
      ⟨d', bare, out, [], [], .streaming⟩ ((u.reads.take n).map UploadFile.readEvent)) :=
    run_reads (u.reads.take n) [] (Nat.zero_le _)
  have hfault : u.fault = some e := by
    rw [UploadFile.fault, hopening, hfailing]
    rfl
  unfold UploadFile.events
  rw [hfailing]
  dsimp only
  rw [run_append]
  generalize run (ownStep zip) _ ((u.reads.take n).map UploadFile.readEvent) = s at hdone
  obtain ⟨hphase, hfolder, htarget⟩ := hdone.open
  have hfail : run (ownStep zip) s [⟨.failed e, rfl⟩] = s.fail e := if_pos hphase
  rw [hfail]
  apply streamed_fail hname (file_of_openWb hopen) htarget hfault
  · intro other hother
    rw [hfolder]
    exact openWb_lookup hopen hother
  · rw [hfolder, (Folder.openWb_spec hopen).1]
    exact fun h => by cases h

theorem streamed_reading (hname : uploadTarget u.filename = some bare)
    (hopen : d.openWb bare = some (out, d')) (hopening : u.opening = none)
    (hfailing : u.failing = none) :
    Streamed zip d u
      (run (ownStep zip) ⟨d', bare, out, [], [], .streaming⟩ u.events).row
      (run (ownStep zip) ⟨d', bare, out, [], [], .streaming⟩ u.events).folder := by
  have hdone : ReadsDone d' bare out u.contents (run (ownStep zip)
      ⟨d', bare, out, [], [], .streaming⟩ (u.reads.map UploadFile.readEvent)) :=
    run_reads u.reads [] (Nat.zero_le _)
  unfold UploadFile.events
  rw [hfailing]
  dsimp only
  rw [run_append]
  generalize run (ownStep zip) _ (u.reads.map UploadFile.readEvent) = s at hdone
  cases hdone with
  | rejecting beyond received pending =>
    refine .rejected hname (file_of_openWb hopen) ?_ ?_ _ rfl _
      (fun _ hother => unlink_others hopen hother) Folder.unlink_lookup_self
    · intro harrives
      exact absurd beyond (not_lt.mpr harrives.2.2)
    · rintro ⟨e, hfault, -⟩
      rw [UploadFile.fault, hopening, hfailing] at hfault
      cases hfault
  | read within phase going =>
    have hwith : withFile d bare u.contents =
        d'.append out (u.contents.take u.contents.length) := by
      unfold withFile
      rw [hopen, List.take_length]
    have hstored : Streamed zip d u _ _ :=
      .stored hname (file_of_openWb hopen) ⟨hopening, hfailing, within⟩
    rw [hwith] at hstored
    rcases going with rfl | rfl <;> exact hstored

/-- An upload whose target could be opened. -/
theorem streamed_opened (hname : uploadTarget u.filename = some bare)
    (hopen : d.openWb bare = some (out, d')) (hopening : u.opening = none) :
    Streamed zip d u
      (run (ownStep zip) ⟨d', bare, out, [], [], .streaming⟩ u.events).row
      (run (ownStep zip) ⟨d', bare, out, [], [], .streaming⟩ u.events).folder := by
  rcases hfailing : u.failing with _ | ⟨n, exc⟩
  · exact streamed_reading hname hopen hopening hfailing
  · exact streamed_failing hname hopen hopening hfailing

theorem streamed (zip : ZipFile) (d : Folder) (u : UploadFile) :
    Streamed zip d u (streamUploadToSet zip d u).row (streamUploadToSet zip d u).folder := by
  unfold streamUploadToSet
  rcases hfilename : u.filename with _ | filename | _
  · rw [run_of_over rfl]
    refine .badName (Or.inl hfilename) _ ?_
    rw [UploadFile.reported, hfilename]
  swap
  · rw [run_of_over rfl]
    exact .raised (Or.inl hfilename)
  have hbare : u.bare = some (bareName filename) := by
    rw [UploadFile.bare, hfilename]
    rfl
  unfold beginUpload
  dsimp only
  by_cases hempty : bareName filename = []
  · rw [if_pos hempty, run_of_over rfl]
    refine .badName (Or.inr (hbare.trans (congrArg some hempty))) _ ?_
    rw [UploadFile.reported, hfilename]
    dsimp only
    rw [if_pos hempty]
  rw [if_neg hempty]
  by_cases hnames : NamesFile (bareName filename)
  swap
  · rw [if_pos hnames, run_of_over rfl]
    exact .raised (Or.inr ⟨_, hbare, hempty, Or.inl hnames⟩)
  rw [if_neg (not_not.mpr hnames)]
  have htarget : uploadTarget u.filename = some (bareName filename) := by
    rw [hfilename]
    exact uploadTarget_text hempty hnames
  rcases hopen : d.openWb (bareName filename) with _ | ⟨out, d'⟩
  · dsimp only
    rw [run_of_over rfl]
    exact .raised (Or.inr ⟨_, hbare, hempty, Or.inr (Folder.openWb_eq_none.mp hopen)⟩)
  · rcases hopening : u.opening with _ | e
    · exact streamed_opened htarget hopen hopening
    · dsimp only
      have hfault : u.fault = some e := by
        rw [UploadFile.fault, hopening]
      have hfile := file_of_openWb hopen
      obtain ⟨row, hphase⟩ := fail_phase ⟨d, bareName filename, 0, [], [], .streaming⟩ e
      rw [run_of_over (by rw [hphase]; rfl)]
      exact streamed_fail htarget hfile rfl hfault (fun _ _ => rfl) hfile

/-! ### Exceptions -/

/-- The upload ends in an exception: nothing can be opened under the name, a file that failed
cannot be deleted, the .ima gets no new name, or the archive raises something that is not caught. -/
inductive Raises (zip : ZipFile) (d : Folder) (u : UploadFile) : Prop
  | name (bad : RaisesByName d u.filename)
  | cleaning {bare : Text} (name : uploadTarget u.filename = some bare)
    (file : d.entries.lookup bare ≠ some .directory) (stays : u.Stays)
  | imaKept {bare : Text} (name : uploadTarget u.filename = some bare)
    (file : d.entries.lookup bare ≠ some .directory) (arrives : u.Arrives)
    (ima : lower (suffix bare) = ".ima".toList)
    (fails : ¬ u.faults.Renames (withFile d bare u.contents) bare)
  | archive {bare : Text} (name : uploadTarget u.filename = some bare)
    (file : d.entries.lookup bare ≠ some .directory) (arrives : u.Arrives)
    (imz : lower (suffix bare) = ".imz".toList)
    (raises : ArchiveRaises u.faults zip (withFile d bare u.contents) bare)

theorem normalizeArrivedFile_raises_iff {name : Text} (hfile : d.isFile name = true) :
    (normalizeArrivedFile f zip d name).1 = none ↔
      lower (suffix name) = ".ima".toList ∧ ¬ f.Renames d name ∨
        lower (suffix name) = ".imz".toList ∧ ArchiveRaises f zip d name := by
  by_cases himz : lower (suffix name) = ".imz".toList
  · have hima : lower (suffix name) ≠ ".ima".toList := by
      rw [himz]
      decide
    rw [normalizeArrivedFile_of_imz hfile himz, extractImz_raises_iff]
    constructor
    · intro h
      exact Or.inr ⟨himz, h⟩
    · rintro (h | h)
      · exact absurd h.1 hima
      · exact h.2
  · have hother : ∀ {p : Prop},
        p ∨ lower (suffix name) = ".imz".toList ∧ ArchiveRaises f zip d name → p :=
      fun h => h.resolve_right fun h => himz h.1
    unfold normalizeArrivedFile
    rw [if_pos hfile]
    split_ifs with himg hima hrenames
    · refine iff_of_false not_false fun h => ?_
      rw [(hother h).1] at himg
      exact absurd himg (by decide)
    · exact iff_of_false not_false fun h => (hother h).2 hrenames
    · exact iff_of_true rfl (Or.inl ⟨hima, hrenames⟩)
    · exact iff_of_false not_false fun h => hima (hother h).1

theorem withFile_spec (hfile : d.entries.lookup bare ≠ some .directory) (bytes : List UInt8) :
    (withFile d bare bytes).read bare = some bytes ∧ ∀ other, other ≠ bare →
      (withFile d bare bytes).entries.lookup other = d.entries.lookup other := by
  unfold withFile
  rcases hopen : d.openWb bare with _ | ⟨out, d'⟩
  · exact absurd (Folder.openWb_eq_none.mp hopen) hfile
  · obtain ⟨hentry, hdata⟩ := Folder.openWb_spec hopen
    constructor
    · apply Folder.read_eq_some.mpr
      refine ⟨out, hentry, ?_⟩
      change (d'.append out bytes).data out = bytes
      rw [Folder.append_data_self, hdata, List.nil_append]
    · intro other hother
      have hlook := openWb_lookup hopen hother
      exact hlook

theorem isFile_of_read {bytes : List UInt8} (h : d.read bare = some bytes) :
    d.isFile bare = true := by
  obtain ⟨i, hi, -⟩ := Folder.read_eq_some.mp h
  exact Folder.isFile_iff.mpr ⟨i, hi⟩

theorem uploadTarget_eq_some : uploadTarget u.filename = some bare ↔
    u.bare = some bare ∧ bare ≠ [] ∧ NamesFile bare := by
  rw [uploadTarget, Option.filter_eq_some_iff, decide_eq_true_iff]
  rfl

theorem not_raisesByName (name : uploadTarget u.filename = some bare)
    (file : d.entries.lookup bare ≠ some .directory) : ¬ RaisesByName d u.filename := by
  obtain ⟨hbare, -, hnames⟩ := uploadTarget_eq_some.mp name
  rintro (hsurrogate | ⟨bare', hbare', -, hbad⟩)
  · rw [UploadFile.bare, hsurrogate] at hbare
    cases hbare
  · cases hbare.symm.trans hbare'
    exact hbad.elim (fun h => h hnames) file

theorem row_eq_none_iff : (streamUploadToSet zip d u).row = none ↔ Raises zip d u := by
  have hstreamed := streamed zip d u
  generalize (streamUploadToSet zip d u).row = row at hstreamed
  generalize (streamUploadToSet zip d u).folder = folder at hstreamed
  -- one way to raise for each way the upload can go
  cases hstreamed with
  | badName name row reported =>
    have hno : ∀ bare, uploadTarget u.filename ≠ some bare := by
      intro bare htarget
      obtain ⟨hbare, hempty, -⟩ := uploadTarget_eq_some.mp htarget
      rcases name with hname | hname
      · rw [UploadFile.bare, hname] at hbare
        cases hbare
      · cases hbare.symm.trans hname
        exact hempty rfl
    refine iff_of_false (Option.some_ne_none _) fun h => ?_
    cases h with
    | name bad =>
      rcases bad with hsurrogate | ⟨bare, hbare, hempty, -⟩
      · rcases name with hname | hname
        · cases hname.symm.trans hsurrogate
        · rw [UploadFile.bare, hsurrogate] at hname
          cases hname
      · rcases name with hname | hname
        · rw [hname] at hbare
          cases hbare
        · cases hbare.symm.trans hname
          exact hempty rfl
    | cleaning name file stays => exact hno _ name
    | imaKept name file arrives ima fails => exact hno _ name
    | archive name file arrives imz raises => exact hno _ name
  | raised bad => exact iff_of_true rfl (.name bad)
  | kept name file stays => exact iff_of_true rfl (.cleaning name file stays)
  | rejected name file fails gone row reported d' others free =>
    refine iff_of_false (Option.some_ne_none _) fun h => ?_
    cases h with
    | name bad => exact not_raisesByName name file bad
    | cleaning name' file' stays => exact gone stays
    | imaKept name' file' arrives ima fails' => exact fails arrives
    | archive name' file' arrives imz raises => exact fails arrives
  | @stored bare name file arrives =>
    obtain ⟨hread, -⟩ := withFile_spec file u.contents
    rw [Option.map_eq_none_iff, normalizeArrivedFile_raises_iff (isFile_of_read hread)]
    constructor
    · rintro (⟨hima, hfails⟩ | ⟨himz, hraises⟩)
      · exact .imaKept name file arrives hima hfails
      · exact .archive name file arrives himz hraises
    · intro h
      cases h with
      | name bad => exact absurd bad (not_raisesByName name file)
      | cleaning name' file' stays => exact absurd stays arrives.not_stays
      | imaKept name' file' arrives' ima fails =>
        cases name.symm.trans name'
        exact Or.inl ⟨ima, fails⟩
      | archive name' file' arrives' imz raises =>
        cases name.symm.trans name'
        exact Or.inr ⟨imz, raises⟩

/-! ### The batch -/

/-- Every file has its row, and is handled in the folder that the ones before it left. -/
def EachReported (zip : ZipFile) : Folder → List UploadFile → List UploadRow → Prop
  | _, [], [] => True
  | d, u :: us, row :: rows =>
    (streamUploadToSet zip d u).row = some row ∧ row.filename = u.reported ∧
      EachReported zip (storeStep zip d u) us rows
  | _, _, _ => False

/-- The batch returns one row for each file, in their order, and has handled them all. -/
def RowPerFile (zip : ZipFile) (d : Folder) (files : List UploadFile) : Prop :=
  ∃ rows, streamUploads zip d files = (some rows, run (storeStep zip) d files) ∧
    rows.length = files.length ∧ EachReported zip d files rows

theorem reported_of_bare (hbare : u.bare = some bare) (hempty : bare ≠ []) :
    u.reported = some bare := by
  obtain ⟨name, hname, htext⟩ := Option.bind_eq_some_iff.mp hbare
  rw [UploadFile.reported, hname]
  cases name with
  | text filename =>
    cases htext
    dsimp only
    rw [if_neg hempty]
  | surrogate => cases htext

theorem row_filename {row : UploadRow} (hrow : (streamUploadToSet zip d u).row = some row) :
    row.filename = u.reported := by
  have hstreamed := streamed zip d u
  rw [hrow] at hstreamed
  generalize (streamUploadToSet zip d u).folder = folder at hstreamed
  generalize hsome : some row = r at hstreamed
  cases hstreamed with
  | badName name row' reported =>
    cases hsome
    exact reported
  | raised bad => cases hsome
  | kept name file stays => cases hsome
  | rejected name file fails gone row' reported d' others free =>
    cases hsome
    obtain ⟨hbare, hne, -⟩ := uploadTarget_eq_some.mp name
    exact reported.trans (reported_of_bare hbare hne).symm
  | stored name file arrives =>
    obtain ⟨hbare, hne, -⟩ := uploadTarget_eq_some.mp name
    obtain ⟨result, -, rfl⟩ := Option.map_eq_some_iff.mp hsome.symm
    exact (reported_of_bare hbare hne).symm

/-- A batch reports on every file exactly if no file, in the folder the ones before it left,
makes the upload raise. -/
theorem batch_reports_iff (zip : ZipFile) (d : Folder) (files : List UploadFile) :
    RowPerFile zip d files ↔ Guarded (storeStep zip) (fun d u => ¬ Raises zip d u) d files := by
  induction files generalizing d with
  | nil => exact iff_of_true ⟨[], rfl, rfl, trivial⟩ trivial
  | cons u us ih =>
    rw [Guarded, ← ih, ← row_eq_none_iff]
    constructor
    · rintro ⟨rows, hrows, hlength, hreported⟩
      rcases rows with _ | ⟨row, rows⟩
      · cases hlength
      obtain ⟨hrow, -, hrest⟩ := hreported
      refine ⟨by rw [hrow]; exact Option.some_ne_none _, rows, ?_, Nat.succ.inj hlength, hrest⟩
      rw [streamUploads, hrow] at hrows
      dsimp only at hrows
      rcases hcall : streamUploads zip (streamUploadToSet zip d u).folder us with ⟨_ | rows', d'⟩
      · rw [hcall] at hrows
        cases hrows
      · rw [hcall] at hrows
        injection hrows with hrows hfolder
        cases hrows
        exact hcall.trans (congrArg _ hfolder)
    · rintro ⟨hsome, rows, hrows, hlength, hreported⟩
      obtain ⟨row, hrow⟩ := Option.ne_none_iff_exists'.mp hsome
      refine ⟨row :: rows, ?_, congrArg Nat.succ hlength, hrow, row_filename hrow, hreported⟩
      rw [streamUploads, hrow]
      dsimp only
      rw [show streamUploads zip (streamUploadToSet zip d u).folder us =
        (some rows, run (storeStep zip) (storeStep zip d u) us) from hrows]
      rfl

/-- An upload without faults. -/
def plainUpload (filename : String) (reads : List Chunk) : UploadFile :=
  ⟨some (.text filename.toList), reads, none, none, .none⟩

/-- The second file is neither stored nor reported. -/
theorem parent_name_ends_batch :
    ¬ ∀ (zip : ZipFile) (d : Folder) (files : List UploadFile), RowPerFile zip d files := by
  intro h
  obtain ⟨rows, hrows, -⟩ := h noZip emptyFolder
    [plainUpload ".." [], plainUpload "disk.img" [⟨[1, 2, 3], by decide⟩]]
  have hnone : (streamUploads noZip emptyFolder
      [plainUpload ".." [], plainUpload "disk.img" [⟨[1, 2, 3], by decide⟩]]).1 = none := by
    decide +kernel
  rw [hrows] at hnone
  cases hnone

end UsbFloppy.Web
