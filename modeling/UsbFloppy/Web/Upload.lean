import UsbFloppy.Lib.Run
import UsbFloppy.Storage.Normalizer

/-! _stream_upload_to_set beside the watcher of the library. Wherever the upload awaits, the
event loop may run the watcher's callback for the file that is being written, and what was
written may have reached the file or not. -/

namespace UsbFloppy.Web
open Files Storage Transition

def MAX_UPLOAD_BYTES : ℕ := 2 * 1024 * 1024

/-- A filename as a client sends it. A lone surrogate in the name below its folders has no
encoding, so that nothing can be opened under the name. -/
inductive ClientName
  | text (filename : Text)
  | surrogate
  deriving DecidableEq

instance : Coe Text ClientName := ⟨.text⟩

/-- `Path(file.filename).name`. -/
def ClientName.bare : ClientName → Option Text
  | .text filename => some (bareName filename)
  | .surrogate => none

/-- The row of one upload; `filename` and `final_filename` are none where the code has None or
no such key. -/
structure UploadRow where
  filename : Option Text
  finalFilename : Option Text
  kind : ResultKind
  detail : Option Text
  deriving DecidableEq

/-- Why the upload is over. -/
inductive UploadEnd
  | badName
  | limit
  | writeFailed
  | normalized
  deriving DecidableEq, Repr

/-- What the upload waits for: in its loop, for the file to be closed after too many bytes or
after the last one, or for nothing any more. No row is an exception that goes on. -/
inductive UploadPhase
  | streaming
  | rejecting
  | finishing
  | returned (why : UploadEnd) (row : Option UploadRow)
  deriving DecidableEq

def UploadPhase.isOpen : UploadPhase → Bool
  | .returned _ _ => false
  | _ => true

/-- `out` is the inode behind the open file; `pending` are the bytes written to it that are not
in the file yet. `received` are all bytes the upload read; `total` is their number. -/
structure UploadState where
  folder : Folder
  target : Text
  out : ℕ
  received : List UInt8
  pending : List UInt8
  phase : UploadPhase

/-- What `file.read(64 * 1024)` may return. -/
def Chunk := {bytes : List UInt8 // bytes.length ≤ 64 * 1024}

/-- An OSError of the upload's own file, and whether the file cannot be deleted after it. -/
structure WriteFault where
  exc : Text
  kept : Bool

/-- What happens while the upload awaits. `flush` brings the next bytes into the file; `failed` is
an OSError of the file, be it of the unlink of one that is too big. -/
inductive UploadEvent
  | received (chunk : Chunk)
  | flush (n : ℕ)
  | callback (f : NormalizeFaults)
  | closed (f : NormalizeFaults)
  | failed (e : WriteFault)

namespace UploadState

def total (s : UploadState) : ℕ := s.received.length

def return_ (s : UploadState) (why : UploadEnd) (row : Option UploadRow) : UploadState :=
  { s with phase := .returned why row }

/-- The next `n` pending bytes reach the file. -/
def flush (s : UploadState) (n : ℕ) : UploadState :=
  { s with folder := s.folder.append s.out (s.pending.take n), pending := s.pending.drop n }

/-- `except OSError`. What the unlink in it raises is not caught. -/
def fail (s : UploadState) (e : WriteFault) : UploadState :=
  if e.kept then s.return_ .writeFailed none
  else
    { s with folder := s.folder.unlink s.target }.return_ .writeFailed
      (some ⟨some s.target, none, .error, some ("write failed: ".toList ++ e.exc)⟩)

/-- One turn of the loop; an empty chunk ends it. -/
def receive (s : UploadState) (chunk : List UInt8) : UploadState :=
  match s.phase with
  | .streaming =>
    if chunk = [] then { s with phase := .finishing }
    else
      let s := { s with received := s.received ++ chunk }
      if s.total > MAX_UPLOAD_BYTES then { s with phase := .rejecting }
      else { s with pending := s.pending ++ chunk }
  | _ => s

def rowOf (bare : Text) (result : NormalizationResult) : UploadRow :=
  ⟨some bare, some result.finalPath, result.kind,
    if result.detail = [] then none else some result.detail⟩

/-- The file is closed, with all its bytes. -/
def close (f : NormalizeFaults) (zip : ZipFile) (s : UploadState) : UploadState :=
  let closed := s.flush s.pending.length
  match s.phase with
  | .rejecting =>
    { closed with folder := closed.folder.unlink s.target }.return_ .limit
      (some ⟨some s.target, none, .error,
        some ("exceeds max size (".toList ++ Nat.toDigits 10 MAX_UPLOAD_BYTES ++
          " bytes)".toList)⟩)
  | .finishing =>
    match normalizeArrivedFile f zip closed.folder s.target with
    | (result, folder) =>
      { closed with folder := folder }.return_ .normalized (result.map (rowOf s.target))
  | _ => s

end UploadState

/-- One event; an upload that is over is left alone. -/
def uploadStep (zip : ZipFile) (s : UploadState) (e : UploadEvent) : UploadState :=
  if s.phase.isOpen then
    match e with
    | .received chunk => s.receive chunk.1
    | .flush n => s.flush n
    | .callback f => { s with folder := onFsEvent f zip s.folder s.target }
    | .closed f => s.close f zip
    | .failed e => s.fail e
  else s

/-- `..` is a directory, a name with a NUL is a ValueError, and one that is too long an OSError
of whatever is done with it. -/
def NamesFile (name : Text) : Prop := name ≠ "..".toList ∧ '\x00' ∉ name ∧ FitsName name

instance (name : Text) : Decidable (NamesFile name) := inferInstanceAs (Decidable (_ ∧ _))

/-- The upload up to the loop; `fault` is an OSError of `open`. -/
def beginUpload (d : Folder) (filename : Option ClientName) (fault : Option WriteFault) :
    UploadState :=
  match filename with
  | none =>
    ⟨d, [], 0, [], [],
      .returned .badName (some ⟨none, none, .error, some "missing filename".toList⟩)⟩
  -- a UnicodeEncodeError is no OSError
  | some .surrogate => ⟨d, [], 0, [], [], .returned .writeFailed none⟩
  | some (.text filename) =>
    let bare := bareName filename
    let s : UploadState := ⟨d, bare, 0, [], [], .streaming⟩
    if bare = [] then
      s.return_ .badName (some ⟨some filename, none, .error, some "invalid filename".toList⟩)
    else if ¬ NamesFile bare then s.return_ .writeFailed none
    else
      match d.openWb bare, fault with
      -- a directory is not unlinked either
      | none, _ => s.return_ .writeFailed none
      | some _, some e => s.fail e
      | some (out, d'), none => { s with folder := d', out := out }

variable {zip : ZipFile} {before d : Folder} {target : Text} {out : ℕ}

/-! ### What is promised -/

/-- An upload over the limit leaves no file with bytes of its own, and one that stands for an
image leaves exactly that image, under the name and with the kind of its row. -/
structure Undisturbed (zip : ZipFile) (before : Folder) (s : UploadState) : Prop where
  limit : ∀ row, s.phase = .returned .limit row → ∀ name bytes, s.folder.read name = some bytes →
    before.read name = some bytes ∨ bytes = []
  stored : ∀ row image, s.phase = .returned .normalized row →
    imageOf zip s.target s.received = some image →
      ∃ r name, row = some r ∧ r.kind ∈ [ResultKind.passthrough, .renamed, .extracted] ∧
        r.finalFilename = some name ∧ s.folder.read name = some image

/-- A callback finds nothing to rename or extract, and where the upload's own normalization finds
an image, it meets no OSError. -/
def Quiet (zip : ZipFile) (s : UploadState) : UploadEvent → Prop
  | .callback f => ¬ Moves f zip s.folder s.target
  | .closed f => s.phase = .finishing → imageOf zip s.target s.received ≠ none →
      f.Allows s.folder s.target
  | _ => True

instance (s : UploadState) : DecidablePred (Quiet zip s)
  | .callback f => inferInstanceAs (Decidable (¬ Moves f zip s.folder s.target))
  | .closed f => inferInstanceAs (Decidable (s.phase = .finishing →
      imageOf zip s.target s.received ≠ none → f.Allows s.folder s.target))
  | .received _ => isTrue trivial
  | .flush _ => isTrue trivial
  | .failed _ => isTrue trivial

/-! ### The file being written -/

/-- The name still leads to the open file, and every other file was there before, or is
empty. -/
structure Held (before d : Folder) (target : Text) (out : ℕ) : Prop where
  entry : d.entries.lookup target = some (.file out)
  others : ∀ name i, name ≠ target → d.entries.lookup name = some (.file i) →
    i ≠ out ∧ (before.read name = some (d.data i) ∨ d.data i = [])

theorem held_of_open (d : Folder) (target : Text) : Held d (d.create target) target d.inodes where
  entry := Folder.create_lookup_self
  others name i hname hentry := by
    rw [Folder.create_lookup_of_ne hname] at hentry
    have hlt := d.allocated name i hentry
    refine ⟨hlt.ne, Or.inl ?_⟩
    rw [Folder.create_data_of_lt hlt]
    exact Folder.read_eq_some.mpr ⟨i, hentry, rfl⟩

theorem Held.append (h : Held before d target out) (bytes : List UInt8) :
    Held before (d.append out bytes) target out where
  entry := h.entry
  others name i hname hentry := by
    obtain ⟨hne, hold⟩ := h.others name i hname hentry
    refine ⟨hne, ?_⟩
    rw [Folder.append_data_of_ne hne]
    exact hold

theorem Held.create (h : Held before d target out) {name : Text}
    (hfree : d.entries.lookup name = none) : Held before (d.create name) target out where
  entry := by
    refine (Folder.create_lookup_of_ne ?_).trans h.entry
    rintro rfl
    rw [h.entry] at hfree
    cases hfree
  others other i hother hentry := by
    have hout := d.allocated target out h.entry
    by_cases hname : other = name
    · rw [hname, Folder.create_lookup_self] at hentry
      cases hentry
      exact ⟨hout.ne', Or.inr Folder.create_data_self⟩
    · rw [Folder.create_lookup_of_ne hname] at hentry
      rw [Folder.create_data_of_lt (d.allocated other i hentry)]
      exact h.others other i hother hentry

theorem Held.unlink (h : Held before d target out) {name : Text} {bytes : List UInt8}
    (hread : (d.unlink target).read name = some bytes) :
    before.read name = some bytes ∨ bytes = [] := by
  obtain ⟨i, hentry, rfl⟩ := Folder.read_eq_some.mp hread
  by_cases hname : name = target
  · rw [hname, Folder.unlink_lookup_self] at hentry
    cases hentry
  · rw [Folder.unlink_lookup_of_ne hname] at hentry
    exact (h.others name i hname hentry).2

theorem Held.onFsEvent {f : NormalizeFaults} (h : Held before d target out)
    (hquiet : ¬ Moves f zip d target) : Held before (onFsEvent f zip d target) target out ∧
      (onFsEvent f zip d target).data out = d.data out := by
  rcases onFsEvent_of_not_moves hquiet with hsame | ⟨name, hfree, hcreated⟩
  · rw [hsame]
    exact ⟨h, rfl⟩
  · rw [hcreated]
    exact ⟨h.create hfree, Folder.create_data_of_lt (d.allocated target out h.entry)⟩

/-! ### The run -/

/-- An upload that nothing has disturbed so far. -/
structure Intact (zip : ZipFile) (before : Folder) (s : UploadState) : Prop where
  held : s.phase.isOpen = true → Held before s.folder s.target s.out
  bytes : s.phase = .streaming ∨ s.phase = .finishing →
    s.folder.data s.out ++ s.pending = s.received
  promise : Undisturbed zip before s

variable {s : UploadState}

theorem Intact.of_open (hopen : s.phase.isOpen = true) (hheld : Held before s.folder s.target s.out)
    (hbytes : s.phase = .streaming ∨ s.phase = .finishing →
      s.folder.data s.out ++ s.pending = s.received) : Intact zip before s where
  held _ := hheld
  bytes := hbytes
  promise := by
    constructor
    · intro row hphase
      rw [hphase] at hopen
      cases hopen
    · intro row image hphase
      rw [hphase] at hopen
      cases hopen

theorem Intact.of_over {why : UploadEnd} {row : Option UploadRow}
    (hphase : s.phase = .returned why row) (hpromise : Undisturbed zip before s) :
    Intact zip before s where
  held hopen := by
    rw [hphase] at hopen
    cases hopen
  bytes h := by
    rw [hphase] at h
    rcases h with h | h <;> cases h
  promise := hpromise

theorem Intact.receive (h : Intact zip before s) (chunk : List UInt8) :
    Intact zip before (s.receive chunk) := by
  unfold UploadState.receive
  split
  · rename_i hphase
    have hheld := h.held (by rw [hphase]; rfl)
    have hbytes := h.bytes (Or.inl hphase)
    dsimp only
    split_ifs with hempty hlimit
    · exact .of_open rfl hheld fun _ => hbytes
    · exact .of_open rfl hheld fun hno => (by rcases hno with hno | hno <;> cases hno)
    · refine .of_open (by rw [hphase]; rfl) hheld fun _ => ?_
      simp only
      rw [← List.append_assoc, hbytes]
  · exact h

theorem Intact.flush (h : Intact zip before s) (hopen : s.phase.isOpen = true) (n : ℕ) :
    Intact zip before (s.flush n) := by
  refine .of_open hopen ((h.held hopen).append _) fun hphase => ?_
  have hdata : (s.flush n).folder.data s.out = s.folder.data s.out ++ s.pending.take n :=
    Folder.append_data_self
  change (s.flush n).folder.data s.out ++ s.pending.drop n = s.received
  rw [hdata, List.append_assoc, List.take_append_drop]
  exact h.bytes hphase

theorem Intact.callback {f : NormalizeFaults} (h : Intact zip before s)
    (hopen : s.phase.isOpen = true) (hquiet : ¬ Moves f zip s.folder s.target) :
    Intact zip before { s with folder := onFsEvent f zip s.folder s.target } := by
  obtain ⟨hheld, hdata⟩ := (h.held hopen).onFsEvent hquiet
  refine .of_open hopen hheld fun hphase => ?_
  simp only
  rw [hdata]
  exact h.bytes hphase

theorem fail_phase (s : UploadState) (e : WriteFault) :
    ∃ row, (s.fail e).phase = .returned .writeFailed row := by
  unfold UploadState.fail
  split_ifs <;> exact ⟨_, rfl⟩

theorem intact_fail (s : UploadState) (e : WriteFault) : Intact zip before (s.fail e) := by
  obtain ⟨row, hphase⟩ := fail_phase s e
  refine .of_over hphase ⟨?_, ?_⟩
  · intro row' hphase'
    cases hphase.symm.trans hphase'
  · intro row' image hphase'
    cases hphase.symm.trans hphase'

theorem Intact.close {f : NormalizeFaults} (h : Intact zip before s)
    (hquiet : Quiet zip s (.closed f)) : Intact zip before (s.close f zip) := by
  unfold UploadState.close
  dsimp only
  split
  · rename_i hphase
    have hheld := (h.flush (by rw [hphase]; rfl) s.pending.length).held (by
      change s.phase.isOpen = true
      rw [hphase]
      rfl)
    refine .of_over rfl ⟨?_, ?_⟩
    · intro row _ name bytes hread
      exact hheld.unlink hread
    · intro row image hover
      cases hover
  · rename_i hphase
    have hopen : s.phase.isOpen = true := by
      rw [hphase]
      rfl
    have hflushed := h.flush hopen s.pending.length
    have hbytes : (s.flush s.pending.length).folder.data s.out ++
        s.pending.drop s.pending.length = s.received := hflushed.bytes (Or.inr hphase)
    rw [List.drop_length, List.append_nil] at hbytes
    have hread : (s.flush s.pending.length).folder.read s.target = some s.received := by
      exact Folder.read_eq_some.mpr ⟨s.out, (hflushed.held hopen).entry, hbytes⟩
    refine .of_over rfl ⟨?_, ?_⟩
    · intro row hover
      cases hover
    · intro row image hover himage
      have hallows : f.Allows (s.flush s.pending.length).folder s.target :=
        hquiet hphase (Option.ne_none_iff_exists'.mpr ⟨image, himage⟩)
      obtain ⟨r, d', hresult, hkind, hfinal, -⟩ :=
        normalizeArrivedFile_of_image hread himage hallows
      rw [hresult] at hover ⊢
      cases hover
      exact ⟨_, _, rfl, hkind, rfl, hfinal⟩
  · exact h

theorem Intact.step (h : Intact zip before s) {e : UploadEvent} (hquiet : Quiet zip s e) :
    Intact zip before (uploadStep zip s e) := by
  unfold uploadStep
  split_ifs with hopen
  · cases e with
    | received chunk => exact h.receive chunk.1
    | flush n => exact h.flush hopen n
    | callback f => exact h.callback hopen hquiet
    | closed f => exact h.close hquiet
    | failed e => exact intact_fail s e
  · exact h

theorem beginUpload_of_free {filename : Text} (hname : bareName filename ≠ [])
    (hfile : NamesFile (bareName filename))
    (hfree : before.entries.lookup (bareName filename) = none) :
    beginUpload before (some (.text filename)) none =
      ⟨before.create (bareName filename), bareName filename, before.inodes, [], [], .streaming⟩ := by
  unfold beginUpload
  dsimp only
  rw [if_neg hname, if_neg (not_not.mpr hfile), Folder.openWb_of_free hfree]

theorem intact_beginUpload {filename : Text} (himage : isImageFile (bareName filename))
    (hfree : before.entries.lookup (bareName filename) = none) :
    Intact zip before (beginUpload before (some (.text filename)) none) := by
  have hname : bareName filename ≠ [] := by
    intro hempty
    rw [hempty] at himage
    exact absurd himage (by decide)
  by_cases hfile : NamesFile (bareName filename)
  · rw [beginUpload_of_free hname hfile hfree]
    exact .of_open rfl (held_of_open before (bareName filename)) fun _ =>
      (List.append_nil _).trans Folder.create_data_self
  · unfold beginUpload
    dsimp only
    rw [if_neg hname, if_pos hfile]
    refine .of_over rfl ⟨fun row hover => ?_, fun row image hover => ?_⟩ <;> cases hover

/-- An upload whose file the watcher never finds ready for it keeps what is promised. -/
theorem upload_undisturbed {filename : Text} (himage : isImageFile (bareName filename))
    (hfree : before.entries.lookup (bareName filename) = none) {events : List UploadEvent}
    (hquiet : Guarded (uploadStep zip) (Quiet zip) (beginUpload before (some (.text filename)) none)
      events) :
    Throughout (uploadStep zip) (Undisturbed zip before)
      (beginUpload before (some (.text filename)) none) events := by
  have hintact := throughout_invariant (fun s e h hok => h.step hok)
    (intact_beginUpload himage hfree) hquiet
  exact hintact.mono fun s h => h.promise

/-- An empty folder, and no archive that can be read. -/
def emptyFolder : Folder := ⟨∅, fun _ => [], 0, Folder.allocated_empty⟩

def noZip : ZipFile := fun _ => .error (.corrupted "File is not a zip file".toList)

/-- The bytes arrive in one chunk. -/
def oneChunk : List UploadEvent :=
  [.received ⟨[1, 2, 3], by decide⟩, .received ⟨[], by decide⟩, .closed .none]

theorem upload_undisturbed_example :
    Throughout (uploadStep noZip) (Undisturbed noZip emptyFolder)
      (beginUpload emptyFolder (some (.text "disk.img".toList)) none)
      (.callback .none :: oneChunk) :=
  upload_undisturbed (by decide) (by decide) (by decide)

/-- The watcher renames disk.ima as soon as it is created; the upload then finds no file. -/
theorem watcher_takes_upload_away :
    ¬ Throughout (uploadStep noZip) (Undisturbed noZip emptyFolder)
      (beginUpload emptyFolder (some (.text "disk.ima".toList)) none)
      (.callback .none :: oneChunk) := by
  intro h
  obtain ⟨r, name, hrow, hkind, -⟩ := (h _ (List.prefix_refl _)).stored _ [1, 2, 3] rfl rfl
  cases hrow
  exact absurd hkind (by decide)

end UsbFloppy.Web
