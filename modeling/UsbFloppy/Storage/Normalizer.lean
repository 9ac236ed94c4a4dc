import UsbFloppy.Lib.Search
import UsbFloppy.Files.Folder

/-! normalize_arrived_file. What the zipfile module makes of an archive is a parameter. -/

namespace UsbFloppy.Storage
open Files Search

def MAX_IMAGE_BYTES : ℕ := 1474560

def IMAGE_EXTS : List Text := [".img".toList, ".ima".toList, ".imz".toList]

def EXTRACTABLE_INNER_EXTS : List Text := [".img".toList, ".ima".toList]

inductive ResultKind
  | passthrough
  | renamed
  | extracted
  | error
  | ignored
  deriving DecidableEq, Repr

structure NormalizationResult where
  kind : ResultKind
  finalPath : Text
  detail : Text
  deriving DecidableEq

def isImageFile (name : Text) : Prop := lower (suffix name) ∈ IMAGE_EXTS

instance (name : Text) : Decidable (isImageFile name) := inferInstanceAs (Decidable (_ ∈ _))

/-! ### Names -/

/-- `f"{stem} ({n}).img"`. -/
def candidate (stem : Text) (n : ℕ) : Text :=
  stem ++ (" (".toList ++ (Nat.toDigits 10 n ++ ").img".toList))

def nextAvailable (d : Folder) (target : Text) : Text :=
  if d.exists_ target then
    candidate (stem target)
      (firstOutside d.entries.keys (candidate (stem target)) d.entries.keys.length 1)
  else target

/-- `path.with_suffix(".img")`. -/
def asImg (name : Text) : Text := stem name ++ ".img".toList

theorem candidate_injective (stem : Text) : Function.Injective (candidate stem) := by
  intro m n h
  have hdigits : Nat.toDigits 10 m = Nat.toDigits 10 n :=
    List.append_cancel_right (List.append_cancel_left (List.append_cancel_left h))
  have hvalue := congrArg (fun l => Nat.ofDigitChars 10 l 0) hdigits
  simpa only [Nat.ofDigitChars_ten_toDigits] using hvalue

theorem nextAvailable_free (d : Folder) (target : Text) :
    d.entries.lookup (nextAvailable d target) = none := by
  apply Folder.not_exists_iff.mp
  unfold nextAvailable
  split_ifs with htaken
  · exact firstOutside_not_mem (candidate_injective _) 1
  · exact htaken

theorem nextAvailable_ne {d : Folder} {name : Text} {entry : Entry}
    (h : d.entries.lookup name = some entry) (target : Text) : nextAvailable d target ≠ name := by
  intro heq
  have hfree := nextAvailable_free d target
  rw [heq, h] at hfree
  cases hfree

variable {d d' : Folder} {name : Text}

theorem suffix_candidate (start : Text) (n : ℕ) : suffix (candidate start n) = ".img".toList := by
  have hassoc : candidate start n =
      (start ++ (" (".toList ++ (Nat.toDigits 10 n ++ ")".toList))) ++ ".img".toList := by
    simp only [candidate, List.append_assoc]
    rfl
  rw [hassoc]
  apply suffix_append_img
  exact List.append_ne_nil_of_right_ne_nil _ (List.cons_ne_nil _ _)

theorem suffix_nextAvailable (h : suffix name ≠ []) :
    suffix (nextAvailable d (asImg name)) = ".img".toList := by
  unfold nextAvailable
  split_ifs
  · exact suffix_candidate _ _
  · exact suffix_append_img (stem_ne_nil h)

theorem slash_not_mem_toDigits (n : ℕ) : '/' ∉ Nat.toDigits 10 n := by
  intro h
  exact absurd (Nat.isDigit_of_mem_toDigits (by decide) (by decide) h) (by decide)

theorem slash_not_mem_candidate {start : Text} (h : '/' ∉ start) (n : ℕ) :
    '/' ∉ candidate start n := by
  intro hmem
  unfold candidate at hmem
  obtain hstart | hrest := List.mem_append.mp hmem
  · exact h hstart
  · obtain hopen | hrest := List.mem_append.mp hrest
    · exact absurd hopen (by decide)
    · obtain hdigits | hext := List.mem_append.mp hrest
      · exact slash_not_mem_toDigits _ hdigits
      · exact absurd hext (by decide)

theorem slash_not_mem_nextAvailable (h : '/' ∉ name) :
    '/' ∉ nextAvailable d (asImg name) := by
  have himg : '/' ∉ asImg name := by
    intro hmem
    obtain hstem | hext := List.mem_append.mp hmem
    · exact h ((stem_isPrefix name).subset hstem)
    · exact absurd hext (by decide)
  unfold nextAvailable
  split_ifs
  · exact slash_not_mem_candidate (fun hmem => himg ((stem_isPrefix _).subset hmem)) _
  · exact himg

theorem suffix_ne_nil {ext : Text} (h : lower (suffix name) = ext) (hext : ext ≠ []) :
    suffix name ≠ [] := by
  intro hnil
  rw [hnil] at h
  exact hext h.symm

/-- The search sees nothing but the names that end like images. -/
theorem nextAvailable_congr (hsuffix : suffix name ≠ [])
    (h : ∀ x, suffix x = ".img".toList → d'.entries.lookup x = d.entries.lookup x) :
    nextAvailable d' (asImg name) = nextAvailable d (asImg name) := by
  have hexists : ∀ x, suffix x = ".img".toList → (d'.exists_ x ↔ d.exists_ x) := by
    intro x hx
    rw [← not_iff_not, Folder.not_exists_iff, Folder.not_exists_iff, h x hx]
  have htarget := hexists (asImg name) (suffix_append_img (stem_ne_nil hsuffix))
  unfold nextAvailable
  by_cases htaken : d.exists_ (asImg name)
  · rw [if_pos htaken, if_pos (htarget.mpr htaken)]
    exact congrArg _ (firstOutside_congr (candidate_injective _) fun n _ =>
      hexists _ (suffix_candidate _ n))
  · rw [if_neg htaken, if_neg fun hmem => htaken (htarget.mp hmem)]

/-! ### Archives -/

/-- What reading an archive raises: a BadZipFile or an OSError, or something that nothing
here catches. -/
inductive ZipError
  | corrupted (exc : Text)
  | uncaught
  deriving DecidableEq

structure ZipMember where
  filename : Text
  fileSize : ℕ
  opened : Except ZipError Unit
  contents : Except ZipError (List UInt8)

/-- `ZipFile(archive).infolist()`, by the bytes of the archive. -/
abbrev ZipFile := List UInt8 → Except ZipError (List ZipMember)

/-- `Path(filename).name`. -/
def bareName (filename : Text) : Text :=
  (((filename.splitOn '/').filter fun part => part ≠ [] ∧ part ≠ ['.']).getLast?).getD []

def extractable (m : ZipMember) : Prop :=
  bareName m.filename ≠ [] ∧ lower (suffix (bareName m.filename)) ∈ EXTRACTABLE_INNER_EXTS ∧
    m.fileSize ≤ MAX_IMAGE_BYTES

instance (m : ZipMember) : Decidable (extractable m) := inferInstanceAs (Decidable (_ ∧ _))

def innerMember (members : List ZipMember) : Option ZipMember :=
  members.find? fun m => extractable m

/-- The result of an archive that cannot be read; none is an exception that goes on. -/
def ZipError.result (archive : Text) : ZipError → Option NormalizationResult
  | .corrupted exc => some ⟨.error, archive, "corrupted .imz: ".toList ++ exc⟩
  | .uncaught => none

/-! ### One arrived file -/

/-- Where reading an archive ends with an OSError. -/
inductive ReadFault
  /-- the archive cannot be opened -/
  | archive (exc : Text)
  /-- it is open, and what it lists cannot be read -/
  | listing (exc : Text)
  /-- the member cannot be opened -/
  | member (exc : Text)
  /-- it cannot be read when the image has been created -/
  | contents (exc : Text)
  deriving DecidableEq

/-- The OSErrors that a normalization meets, apart from names that are too long. -/
structure NormalizeFaults where
  /-- the archive cannot be read -/
  reading : Option ReadFault
  /-- the search for a free name fails -/
  naming : Option Text
  /-- the .ima file cannot be renamed -/
  moving : Bool
  /-- the image cannot be opened for writing -/
  opening : Option Text
  /-- writing it fails after some bytes -/
  writing : Option (ℕ × Text)
  /-- the archive cannot be deleted -/
  unlinking : Bool

namespace NormalizeFaults

def none : NormalizeFaults := ⟨.none, .none, false, .none, .none, false⟩

variable (f : NormalizeFaults) (d : Folder) (name : Text)

/-- The archive cannot be opened, so that nothing is reported of it. -/
def barred : Bool :=
  match f.reading with
  | some (.archive _) => true
  | _ => false

/-- What the zipfile module makes of an archive when reading it fails there. -/
def reads (zip : ZipFile) : ZipFile := fun bytes =>
  match f.reading with
  | .none => zip bytes
  | some (.archive exc) | some (.listing exc) => .error (.corrupted exc)
  | some (.member exc) =>
    (zip bytes).map (List.map fun m => { m with opened := .error (.corrupted exc) })
  | some (.contents exc) =>
    (zip bytes).map (List.map fun m => { m with contents := .error (.corrupted exc) })

/-- The OSError that the search for the image's name ends with. A name that is too long is found
out by `exists`. The path at the end of the message is left out. -/
def nameFault : Option Text :=
  if FitsName (nextAvailable d (asImg name)) then f.naming
  else some (f.naming.getD "[Errno 36] File name too long".toList)

/-- The .ima file gets its new name. -/
def Renames : Prop := f.nameFault d name = .none ∧ f.moving = false

/-- The image of an archive gets under its name. -/
def Creates : Prop :=
  f.reading = .none ∧ f.nameFault d name = .none ∧ f.opening = .none

/-- The image of an archive is written, and the archive deleted. -/
def Replaces : Prop := f.Creates d name ∧ f.writing = .none ∧ f.unlinking = false

instance : Decidable (f.Renames d name) := inferInstanceAs (Decidable (_ ∧ _))

instance : Decidable (f.Creates d name) := inferInstanceAs (Decidable (_ ∧ _))

instance : Decidable (f.Replaces d name) := inferInstanceAs (Decidable (_ ∧ _))

variable {f}

theorem reads_of_none (h : f.reading = .none) (zip : ZipFile) : f.reads zip = zip := by
  funext bytes
  rw [reads, h]

/-- A member that is read to its end is the archive's. -/
theorem reading_eq_none {zip : ZipFile} {bytes image : List UInt8} {members : List ZipMember}
    {m : ZipMember} (read : f.reads zip bytes = .ok members) (inner : innerMember members = some m)
    (opened : m.opened = .ok ()) (contents : m.contents = .ok image) : f.reading = .none := by
  have hmem : m ∈ members := List.mem_of_find?_eq_some inner
  unfold reads at read
  split at read
  · assumption
  · cases read
  · cases read
  all_goals
    generalize zip bytes = listed at read
    rcases listed with e | members'
    · cases read
    · cases read
      obtain ⟨m', -, rfl⟩ := List.mem_map.mp hmem
      first | cases opened | cases contents

end NormalizeFaults

def extractImz (f : NormalizeFaults) (zip : ZipFile) (d : Folder) (archive : Text) :
    Option NormalizationResult × Folder :=
  match f.reads zip ((d.read archive).getD []) with
  | .error e => (e.result archive, d)
  | .ok members =>
    match innerMember members with
    | .none =>
      (some ⟨.error, archive, "no valid image inside .imz (need .img/.ima ≤1.44MB)".toList⟩, d)
    | some m =>
      let target := nextAvailable d (asImg archive)
      match f.nameFault d archive, m.opened, f.opening, m.contents, f.writing with
      | some exc, _, _, _, _ => ((ZipError.corrupted exc).result archive, d)
      | .none, .error e, _, _, _ => (e.result archive, d)
      | .none, .ok (), some exc, _, _ => ((ZipError.corrupted exc).result archive, d)
      -- the image is there, and empty, before the member is read
      | .none, .ok (), .none, .error e, _ => (e.result archive, d.create target)
      | .none, .ok (), .none, .ok image, some (n, exc) =>
        ((ZipError.corrupted exc).result archive,
          (d.create target).append d.inodes (image.take n))
      | .none, .ok (), .none, .ok image, .none =>
        let d := (d.create target).append d.inodes image
        -- in no try
        if f.unlinking then (.none, d)
        else (some ⟨.extracted, target, []⟩, d.unlink archive)

/-- No result is an exception that goes on. -/
def normalizeArrivedFile (f : NormalizeFaults) (zip : ZipFile) (d : Folder) (name : Text) :
    Option NormalizationResult × Folder :=
  if d.isFile name then
    if lower (suffix name) = ".img".toList then (some ⟨.passthrough, name, []⟩, d)
    else if lower (suffix name) = ".ima".toList then
      let target := nextAvailable d (asImg name)
      -- in no try either
      if f.Renames d name then (some ⟨.renamed, target, []⟩, d.rename name target)
      else (none, d)
    else if lower (suffix name) = ".imz".toList then extractImz f zip d name
    else (some ⟨.ignored, name, "unrecognized extension".toList⟩, d)
  else (some ⟨.ignored, name, "not a file".toList⟩, d)

/-- How far an extraction gets, and what it returns there. -/
inductive Extraction (f : NormalizeFaults) (zip : ZipFile) (d : Folder) (archive : Text) :
    Option NormalizationResult × Folder → Prop
  | unreadable {e : ZipError} (unread : f.reads zip ((d.read archive).getD []) = .error e) :
    Extraction f zip d archive (e.result archive, d)
  | empty {members : List ZipMember} (read : f.reads zip ((d.read archive).getD []) = .ok members)
    (inner : innerMember members = none) :
    Extraction f zip d archive
      (some ⟨.error, archive, "no valid image inside .imz (need .img/.ima ≤1.44MB)".toList⟩, d)
  | unnamed {members : List ZipMember} {m : ZipMember} {exc : Text}
    (read : f.reads zip ((d.read archive).getD []) = .ok members)
    (inner : innerMember members = some m)
    (unnamed : f.nameFault d archive = some exc) :
    Extraction f zip d archive ((ZipError.corrupted exc).result archive, d)
  | unopened {members : List ZipMember} {m : ZipMember} {e : ZipError}
    (read : f.reads zip ((d.read archive).getD []) = .ok members)
    (inner : innerMember members = some m)
    (named : f.nameFault d archive = none) (unopened : m.opened = .error e) :
    Extraction f zip d archive (e.result archive, d)
  | uncreated {members : List ZipMember} {m : ZipMember} {exc : Text}
    (read : f.reads zip ((d.read archive).getD []) = .ok members)
    (inner : innerMember members = some m)
    (named : f.nameFault d archive = none) (opened : m.opened = .ok ())
    (uncreated : f.opening = some exc) :
    Extraction f zip d archive ((ZipError.corrupted exc).result archive, d)
  | damaged {members : List ZipMember} {m : ZipMember} {e : ZipError}
    (read : f.reads zip ((d.read archive).getD []) = .ok members)
    (inner : innerMember members = some m)
    (named : f.nameFault d archive = none) (opened : m.opened = .ok ())
    (created : f.opening = none) (damaged : m.contents = .error e) :
    Extraction f zip d archive (e.result archive, d.create (nextAvailable d (asImg archive)))
  | cutOff {members : List ZipMember} {m : ZipMember} {image : List UInt8} {n : ℕ} {exc : Text}
    (read : f.reads zip ((d.read archive).getD []) = .ok members)
    (inner : innerMember members = some m)
    (named : f.nameFault d archive = none) (opened : m.opened = .ok ())
    (created : f.opening = none) (contents : m.contents = .ok image)
    (cutOff : f.writing = some (n, exc)) :
    Extraction f zip d archive ((ZipError.corrupted exc).result archive,
      (d.create (nextAvailable d (asImg archive))).append d.inodes (image.take n))
  | kept {members : List ZipMember} {m : ZipMember} {image : List UInt8}
    (read : f.reads zip ((d.read archive).getD []) = .ok members)
    (inner : innerMember members = some m)
    (named : f.nameFault d archive = none) (opened : m.opened = .ok ())
    (created : f.opening = none) (contents : m.contents = .ok image) (written : f.writing = none)
    (kept : f.unlinking = true) :
    Extraction f zip d archive
      (none, (d.create (nextAvailable d (asImg archive))).append d.inodes image)
  | extracted {members : List ZipMember} {m : ZipMember} {image : List UInt8}
    (read : f.reads zip ((d.read archive).getD []) = .ok members)
    (inner : innerMember members = some m)
    (named : f.nameFault d archive = none) (opened : m.opened = .ok ())
    (created : f.opening = none) (contents : m.contents = .ok image) (written : f.writing = none)
    (unlinked : f.unlinking = false) :
    Extraction f zip d archive (some ⟨.extracted, nextAvailable d (asImg archive), []⟩,
      ((d.create (nextAvailable d (asImg archive))).append d.inodes image).unlink archive)

theorem extraction (f : NormalizeFaults) (zip : ZipFile) (d : Folder) (archive : Text) :
    Extraction f zip d archive (extractImz f zip d archive) := by
  unfold extractImz
  rcases hzip : f.reads zip ((d.read archive).getD []) with e | members
  · exact .unreadable hzip
  dsimp only
  rcases hinner : innerMember members with _ | m
  · exact .empty hzip hinner
  dsimp only
  rcases hnaming : f.nameFault d archive with _ | exc
  swap
  · exact .unnamed hzip hinner hnaming
  rcases hopened : m.opened with e | _
  · exact .unopened hzip hinner hnaming hopened
  rcases hopening : f.opening with _ | exc
  swap
  · exact .uncreated hzip hinner hnaming hopened hopening
  rcases hcontents : m.contents with e | image
  · exact .damaged hzip hinner hnaming hopened hopening hcontents
  rcases hwriting : f.writing with _ | ⟨n, exc⟩
  swap
  · exact .cutOff hzip hinner hnaming hopened hopening hcontents hwriting
  cases hunlinking : f.unlinking with
  | true => exact .kept hzip hinner hnaming hopened hopening hcontents hwriting hunlinking
  | false => exact .extracted hzip hinner hnaming hopened hopening hcontents hwriting hunlinking

theorem normalizeArrivedFile_of_imz {f : NormalizeFaults} {zip : ZipFile} {d : Folder} {name : Text}
    (hfile : d.isFile name = true) (himz : lower (suffix name) = ".imz".toList) :
    normalizeArrivedFile f zip d name = extractImz f zip d name := by
  have hnot : lower (suffix name) ≠ ".img".toList ∧ lower (suffix name) ≠ ".ima".toList := by
    rw [himz]
    decide
  rw [normalizeArrivedFile, if_pos hfile, if_neg hnot.1, if_neg hnot.2, if_pos himz]

/-! ### What is in an arrived file -/

/-- The image an archive holds. -/
def innerImage (zip : ZipFile) (bytes : List UInt8) : Option (List UInt8) :=
  match zip bytes with
  | .error _ => none
  | .ok members =>
    match innerMember members with
    | none => none
    | some m =>
      match m.opened, m.contents with
      | .ok (), .ok image => some image
      | _, _ => none

/-- The image that bytes stand for under a name. -/
def imageOf (zip : ZipFile) (name : Text) (bytes : List UInt8) : Option (List UInt8) :=
  if lower (suffix name) = ".imz".toList then innerImage zip bytes
  else if isImageFile name then some bytes
  else none

variable {f : NormalizeFaults} {zip : ZipFile} {d : Folder} {name : Text}
  {bytes image : List UInt8}

theorem innerImage_eq_some : innerImage zip bytes = some image ↔ ∃ members m,
    zip bytes = .ok members ∧ innerMember members = some m ∧ m.opened = .ok () ∧
      m.contents = .ok image := by
  constructor
  · intro h
    unfold innerImage at h
    split at h
    · cases h
    · rename_i members hzip
      split at h
      · cases h
      · rename_i m hinner
        split at h
        · rename_i hopened hcontents
          cases h
          exact ⟨members, m, hzip, hinner, hopened, hcontents⟩
        · cases h
  · rintro ⟨members, m, hzip, hinner, hopened, hcontents⟩
    simp only [innerImage, hzip, hinner, hopened, hcontents]

/-- The image that is read from the archive is the one in it. -/
theorem innerImage_of_reads {members : List ZipMember} {m : ZipMember}
    (read : f.reads zip bytes = .ok members) (inner : innerMember members = some m)
    (opened : m.opened = .ok ()) (contents : m.contents = .ok image) :
    innerImage zip bytes = some image := by
  rw [NormalizeFaults.reads_of_none
    (NormalizeFaults.reading_eq_none read inner opened contents)] at read
  exact innerImage_eq_some.mpr ⟨members, m, read, inner, opened, contents⟩

theorem extractImz_of_image (h : innerImage zip ((d.read name).getD []) = some image)
    (hf : f.Replaces d name) : extractImz f zip d name =
      (some ⟨.extracted, nextAvailable d (asImg name), []⟩,
        ((d.create (nextAvailable d (asImg name))).append d.inodes image).unlink name) := by
  obtain ⟨members, m, hzip, hinner, hopened, hcontents⟩ := innerImage_eq_some.mp h
  obtain ⟨⟨hreading, hnamed, hcreated⟩, hwritten, hunlinked⟩ := hf
  unfold extractImz
  rw [NormalizeFaults.reads_of_none hreading, hzip]
  dsimp only
  rw [hinner]
  dsimp only
  rw [hnamed, hopened, hcreated, hcontents, hwritten]
  dsimp only
  rw [if_neg (by rw [hunlinked]; exact Bool.false_ne_true)]

/-- No image, or none that can be created: the archive stays, at most with an empty file
beside it. -/
theorem extractImz_of_no_image
    (h : ¬ (innerImage zip ((d.read name).getD []) ≠ none ∧ f.Creates d name)) :
    (extractImz f zip d name).2 = d ∨
      (extractImz f zip d name).2 = d.create (nextAvailable d (asImg name)) := by
  have himage : ∀ {members : List ZipMember} {m : ZipMember} {image : List UInt8},
      f.reads zip ((d.read name).getD []) = .ok members → innerMember members = some m →
        f.nameFault d name = none → m.opened = .ok () → f.opening = none →
          m.contents = .ok image → False := by
    intro members m image read inner named opened created contents
    have hreading := NormalizeFaults.reading_eq_none read inner opened contents
    refine h ⟨?_, hreading, named, created⟩
    rw [innerImage_of_reads read inner opened contents]
    exact Option.some_ne_none _
  have hextraction := extraction f zip d name
  generalize extractImz f zip d name = result at hextraction
  cases hextraction with
  | unreadable => exact Or.inl rfl
  | empty => exact Or.inl rfl
  | unnamed => exact Or.inl rfl
  | unopened => exact Or.inl rfl
  | uncreated => exact Or.inl rfl
  | damaged => exact Or.inr rfl
  | cutOff read inner named opened created contents =>
    exact absurd (himage read inner named opened created contents) id
  | kept read inner named opened created contents =>
    exact absurd (himage read inner named opened created contents) id
  | extracted read inner named opened created contents =>
    exact absurd (himage read inner named opened created contents) id

/-- The archive stays as well when something fails later; the file beside it need not be empty
then. -/
theorem extractImz_of_not_replaced
    (h : ¬ (innerImage zip ((d.read name).getD []) ≠ none ∧ f.Replaces d name)) :
    (extractImz f zip d name).2 = d ∨ ∃ bytes, (extractImz f zip d name).2 =
      (d.create (nextAvailable d (asImg name))).append d.inodes bytes := by
  have hextraction := extraction f zip d name
  generalize extractImz f zip d name = result at hextraction
  cases hextraction with
  | unreadable => exact Or.inl rfl
  | empty => exact Or.inl rfl
  | unnamed => exact Or.inl rfl
  | unopened => exact Or.inl rfl
  | uncreated => exact Or.inl rfl
  | damaged => exact Or.inr ⟨[], Folder.append_nil.symm⟩
  | cutOff => exact Or.inr ⟨_, rfl⟩
  | kept => exact Or.inr ⟨_, rfl⟩
  | extracted read inner named opened created contents written unlinked =>
    have hreading := NormalizeFaults.reading_eq_none read inner opened contents
    refine absurd ⟨?_, ⟨hreading, named, created⟩, written, unlinked⟩ h
    rw [innerImage_of_reads read inner opened contents]
    exact Option.some_ne_none _

/-- No name is left for the image. -/
theorem extractImz_of_long (h : ¬ FitsName (nextAvailable d (asImg name))) :
    (extractImz f zip d name).2 = d := by
  have hfault : f.nameFault d name ≠ none := by
    rw [NormalizeFaults.nameFault, if_neg h]
    exact Option.some_ne_none _
  have hextraction := extraction f zip d name
  generalize extractImz f zip d name = result at hextraction
  cases hextraction with
  | unreadable => rfl
  | empty => rfl
  | unnamed => rfl
  | unopened => rfl
  | uncreated => rfl
  | damaged read inner named => exact absurd named hfault
  | cutOff read inner named => exact absurd named hfault
  | kept read inner named => exact absurd named hfault
  | extracted read inner named => exact absurd named hfault

/-- No OSError ends the normalization of the file. -/
def NormalizeFaults.Allows (f : NormalizeFaults) (d : Folder) (name : Text) : Prop :=
  (lower (suffix name) = ".ima".toList → f.Renames d name) ∧
    (lower (suffix name) = ".imz".toList → f.Replaces d name)

instance (f : NormalizeFaults) (d : Folder) (name : Text) : Decidable (f.Allows d name) :=
  inferInstanceAs (Decidable (_ ∧ _))

/-- A file that stands for an image ends up as a file with exactly that image. -/
theorem normalizeArrivedFile_of_image (hread : d.read name = some bytes)
    (himage : imageOf zip name bytes = some image) (hf : f.Allows d name) :
    ∃ r d', normalizeArrivedFile f zip d name = (some r, d') ∧
      r.kind ∈ [ResultKind.passthrough, .renamed, .extracted] ∧
      d'.read r.finalPath = some image ∧ lower (suffix r.finalPath) = ".img".toList ∧
      ('/' ∉ name → '/' ∉ r.finalPath) := by
  have himg : suffix name ≠ [] →
      lower (suffix (nextAvailable d (asImg name))) = ".img".toList := by
    intro hsuffix
    rw [suffix_nextAvailable hsuffix]
    decide
  obtain ⟨i, hentry, hdata⟩ := Folder.read_eq_some.mp hread
  have hfile : d.isFile name = true := Folder.isFile_iff.mpr ⟨i, hentry⟩
  unfold imageOf at himage
  split_ifs at himage with himz hname
  · have hinner : innerImage zip ((d.read name).getD []) = some image := by
      rw [hread]
      exact himage
    rw [normalizeArrivedFile_of_imz hfile himz, extractImz_of_image hinner (hf.2 himz)]
    refine ⟨_, _, rfl, .tail _ (.tail _ (.head _)), ?_, himg (suffix_ne_nil himz (by decide)),
      slash_not_mem_nextAvailable⟩
    have hne := nextAvailable_ne hentry (asImg name)
    apply Folder.read_eq_some.mpr
    refine ⟨d.inodes, ?_, ?_⟩
    · exact (Folder.unlink_lookup_of_ne hne).trans Folder.create_lookup_self
    · exact Folder.create_append_data
  · cases himage
    unfold normalizeArrivedFile
    rw [if_pos hfile]
    split_ifs with hself hima hrenames
    · exact ⟨_, _, rfl, .head _, hread, hself, id⟩
    · refine ⟨_, _, rfl, .tail _ (.head _), ?_, himg (suffix_ne_nil hima (by decide)),
        slash_not_mem_nextAvailable⟩
      obtain ⟨hmoved, hsame⟩ := Folder.rename_of_lookup hentry
      apply Folder.read_eq_some.mpr
      refine ⟨i, hmoved, ?_⟩
      rw [hsame]
      exact hdata
    · exact absurd (hf.1 hima) hrenames
    · have hmem : lower (suffix name) ∈ IMAGE_EXTS := hname
      simp only [IMAGE_EXTS, List.mem_cons, List.not_mem_nil, or_false, hself, hima, himz] at hmem

/-! ### The watcher -/

/-- `_on_fs_event`, as far as it touches the folder. Whatever the normalization raises is
logged. -/
def onFsEvent (f : NormalizeFaults) (zip : ZipFile) (d : Folder) (name : Text) : Folder :=
  if d.isFile name ∧ isImageFile name then (normalizeArrivedFile f zip d name).2 else d

/-- The watcher's callback renames the file, or gets an image out of it. -/
def Moves (f : NormalizeFaults) (zip : ZipFile) (d : Folder) (name : Text) : Prop :=
  d.isFile name ∧ (lower (suffix name) = ".ima".toList ∧ f.Renames d name ∨
    lower (suffix name) = ".imz".toList ∧
      (innerImage zip ((d.read name).getD []) ≠ none ∧ f.Creates d name))

instance (f : NormalizeFaults) (zip : ZipFile) (d : Folder) (name : Text) :
    Decidable (Moves f zip d name) := inferInstanceAs (Decidable (_ ∧ _))

/-- A callback that moves nothing leaves all files, at most with an empty one more. -/
theorem onFsEvent_of_not_moves (h : ¬ Moves f zip d name) :
    onFsEvent f zip d name = d ∨
      ∃ target, d.entries.lookup target = none ∧ onFsEvent f zip d name = d.create target := by
  unfold onFsEvent
  split_ifs with harrived
  · obtain ⟨hfile, -⟩ := harrived
    unfold normalizeArrivedFile
    rw [if_pos hfile]
    split_ifs with himg hima hrenames himz
    · left; rfl
    · exact absurd ⟨hfile, Or.inl ⟨hima, hrenames⟩⟩ h
    · left; rfl
    · rcases extractImz_of_no_image fun hboth => h ⟨hfile, Or.inr ⟨himz, hboth⟩⟩ with
        hsame | hcreated
      · left
        exact hsame
      · right
        exact ⟨_, nextAvailable_free d (asImg name), hcreated⟩
    · left; rfl
  · left; rfl

/-! ### Conversions -/

/-- The folder after a callback has made an image of the file: the file under `target` has
the inode `i`. -/
structure Converted (d : Folder) (name target : Text) (i : ℕ) (d' : Folder) : Prop where
  image : suffix target = ".img".toList
  free : d.entries.lookup target = none
  lookup : ∀ other, d'.entries.lookup other =
    if other = target then some (.file i) else if other = name then none else d.entries.lookup other
  data : ∀ j < d.inodes, d'.data j = d.data j
  inodes : d.inodes ≤ d'.inodes

theorem converted_rename {i : ℕ} (hfile : d.entries.lookup name = some (.file i))
    (hima : lower (suffix name) = ".ima".toList) :
    Converted d name (nextAvailable d (asImg name)) i
      (d.rename name (nextAvailable d (asImg name))) := by
  refine ⟨suffix_nextAvailable (suffix_ne_nil hima (by decide)), nextAvailable_free d _,
    Folder.rename_lookup hfile, fun j _ => ?_, Folder.rename_inodes.ge⟩
  rw [(Folder.rename_of_lookup hfile).2]

theorem converted_extract (hfile : d.isFile name = true)
    (himz : lower (suffix name) = ".imz".toList) (image : List UInt8) :
    Converted d name (nextAvailable d (asImg name)) d.inodes
      (((d.create (nextAvailable d (asImg name))).append d.inodes image).unlink name) := by
  obtain ⟨i, hi⟩ := Folder.isFile_iff.mp hfile
  refine ⟨suffix_nextAvailable (suffix_ne_nil himz (by decide)), nextAvailable_free d _,
    fun other => ?_, fun j hj => ?_, Nat.le_succ _⟩
  · split_ifs with htarget hname
    · rw [htarget, Folder.unlink_lookup_of_ne (nextAvailable_ne hi _)]
      exact Folder.create_lookup_self
    · rw [hname]
      exact Folder.unlink_lookup_self
    · rw [Folder.unlink_lookup_of_ne hname]
      exact Folder.create_lookup_of_ne htarget
  · exact (Folder.append_data_of_ne hj.ne).trans (Folder.create_data_of_lt hj)

theorem onFsEvent_of_ima {i : ℕ} (hfile : d.entries.lookup name = some (.file i))
    (hima : lower (suffix name) = ".ima".toList) (hf : f.Renames d name) :
    Converted d name (nextAvailable d (asImg name)) i (onFsEvent f zip d name) := by
  have hisFile : d.isFile name = true := Folder.isFile_iff.mpr ⟨i, hfile⟩
  have himage : isImageFile name := by
    unfold isImageFile
    rw [hima]
    decide
  have hnot : lower (suffix name) ≠ ".img".toList := by
    rw [hima]
    decide
  have hstep : onFsEvent f zip d name = d.rename name (nextAvailable d (asImg name)) := by
    rw [onFsEvent, if_pos ⟨hisFile, himage⟩, normalizeArrivedFile, if_pos hisFile, if_neg hnot,
      if_pos hima, if_pos hf]
  rw [hstep]
  exact converted_rename hfile hima

theorem onFsEvent_of_imz (hfile : d.isFile name = true)
    (himz : lower (suffix name) = ".imz".toList) :
    onFsEvent f zip d name = (extractImz f zip d name).2 := by
  have himage : isImageFile name := by
    unfold isImageFile
    rw [himz]
    decide
  rw [onFsEvent, if_pos ⟨hfile, himage⟩, normalizeArrivedFile_of_imz hfile himz]

/-- The file is an archive, and the callback does not replace it by its image: there is none in
it, or an OSError is in the way. -/
def Stuck (f : NormalizeFaults) (zip : ZipFile) (d : Folder) (name : Text) : Prop :=
  d.isFile name ∧ lower (suffix name) = ".imz".toList ∧
    ¬ (innerImage zip ((d.read name).getD []) ≠ none ∧ f.Replaces d name)

instance (f : NormalizeFaults) (zip : ZipFile) (d : Folder) (name : Text) :
    Decidable (Stuck f zip d name) := inferInstanceAs (Decidable (_ ∧ _))

theorem Stuck.keeps (h : Stuck f zip d name) :
    onFsEvent f zip d name = d ∨ ∃ bytes, onFsEvent f zip d name =
      (d.create (nextAvailable d (asImg name))).append d.inodes bytes := by
  rw [onFsEvent_of_imz h.1 h.2.1]
  exact extractImz_of_not_replaced h.2.2

theorem onFsEvent_cases (f : NormalizeFaults) (zip : ZipFile) (d : Folder) (name : Text) :
    onFsEvent f zip d name = d ∧
        ¬ (d.isFile name ∧ lower (suffix name) = ".ima".toList ∧ f.Renames d name) ∧
        ¬ (d.isFile name ∧ lower (suffix name) = ".imz".toList) ∨
      (∃ i, Converted d name (nextAvailable d (asImg name)) i (onFsEvent f zip d name) ∧
        (d.isFile name ∧ lower (suffix name) ∈ [".ima".toList, ".imz".toList]) ∧
        ∀ j, d.entries.lookup name = some (.file j) → lower (suffix name) = ".ima".toList → i = j) ∨
      Stuck f zip d name := by
  by_cases hfile : d.isFile name = true
  swap
  · refine Or.inl ⟨?_, fun h => hfile h.1, fun h => hfile h.1⟩
    rw [onFsEvent, if_neg fun h => hfile h.1]
  obtain ⟨i, hi⟩ := Folder.isFile_iff.mp hfile
  by_cases himz : lower (suffix name) = ".imz".toList
  · have hima : lower (suffix name) ≠ ".ima".toList := by
      rw [himz]
      decide
    by_cases hreplaced : innerImage zip ((d.read name).getD []) ≠ none ∧ f.Replaces d name
    swap
    · exact Or.inr (Or.inr ⟨hfile, himz, hreplaced⟩)
    obtain ⟨image, himage⟩ := Option.ne_none_iff_exists'.mp hreplaced.1
    refine Or.inr (Or.inl ⟨d.inodes, ?_, ⟨hfile, ?_⟩, fun j _ h => absurd h hima⟩)
    · rw [onFsEvent_of_imz hfile himz, extractImz_of_image himage hreplaced.2]
      exact converted_extract hfile himz image
    · rw [himz]
      exact List.mem_cons_of_mem _ List.mem_cons_self
  by_cases hima : lower (suffix name) = ".ima".toList ∧ f.Renames d name
  · refine Or.inr (Or.inl ⟨i, onFsEvent_of_ima hi hima.1 hima.2, ⟨hfile, ?_⟩, fun j hj _ => ?_⟩)
    · rw [hima.1]
      exact List.mem_cons_self
    · cases hi.symm.trans hj
      rfl
  · refine Or.inl ⟨?_, fun h => hima h.2, fun h => himz h.2⟩
    unfold onFsEvent
    split_ifs with harrived
    · rw [normalizeArrivedFile, if_pos hfile]
      split_ifs with himg hsuffix hrenames
      · rfl
      · exact absurd ⟨hsuffix, hrenames⟩ hima
      · rfl
      · rfl
    · rfl

end UsbFloppy.Storage
