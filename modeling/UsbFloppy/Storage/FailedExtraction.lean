import UsbFloppy.Storage.Lossless

/-! An extraction that fails. Only what fails before the image is opened for writing leaves the
folder as it was; after that the image stays, empty or cut off. -/

namespace UsbFloppy.Storage
open Files

/-- The image of the archive gets into the folder. -/
def Extracts (f : NormalizeFaults) (zip : ZipFile) (d : Folder) (name : Text) : Prop :=
  (∃ image, innerImage zip ((d.read name).getD []) = some image) ∧
    f.Creates d name ∧ f.writing = none

/-- The folder lists the same names, with the same contents. -/
def SameFiles (d d' : Folder) : Prop :=
  ∀ name, d'.entries.lookup name = d.entries.lookup name ∧ d'.read name = d.read name

/-- The call returns an error and leaves the folder as it was. -/
def LeavesAlone (f : NormalizeFaults) (zip : ZipFile) (d : Folder) (name : Text) : Prop :=
  ∃ r d', normalizeArrivedFile f zip d name = (some r, d') ∧ r.kind = .error ∧ SameFiles d d'

/-- A BadZipFile or an OSError. -/
def ZipError.Caught : ZipError → Prop
  | .corrupted _ => True
  | .uncaught => False

/-- The failure is caught, and it comes before the image is created: the archive cannot be read,
there is no member to extract, no name is found for it, or it or the image cannot be opened. -/
def FailsEarly (f : NormalizeFaults) (zip : ZipFile) (d : Folder) (name : Text) : Prop :=
  match f.reads zip ((d.read name).getD []) with
  | .error e => e.Caught
  | .ok members =>
    match innerMember members with
    | none => True
    | some m =>
      match f.nameFault d name, m.opened with
      | some _, _ => True
      | none, .error e => e.Caught
      | none, .ok () => f.opening.isSome

variable {f : NormalizeFaults} {zip : ZipFile} {d d' : Folder} {name : Text}

theorem sameFiles_refl (d : Folder) : SameFiles d d := fun _ => ⟨rfl, rfl⟩

theorem not_sameFiles_of_free {target : Text} (hfree : d.entries.lookup target = none)
    (htarget : d'.entries.lookup target ≠ none) : ¬ SameFiles d d' := by
  intro h
  rw [(h target).1, hfree] at htarget
  exact htarget rfl

theorem created_shows (d : Folder) (target : Text) :
    (d.create target).entries.lookup target ≠ none := by
  rw [Folder.create_lookup_self]
  exact Option.some_ne_none _

/-- An extraction that fails: early, by an exception, or with an image left behind. -/
inductive Failure (f : NormalizeFaults) (zip : ZipFile) (d : Folder) (archive : Text) :
    Option NormalizationResult × Folder → Prop
  | early {r : NormalizationResult} (early : FailsEarly f zip d archive)
    (error : r.kind = .error) : Failure f zip d archive (some r, d)
  | raised (late : ¬ FailsEarly f zip d archive) (d' : Folder) :
    Failure f zip d archive (none, d')
  | left (late : ¬ FailsEarly f zip d archive)
    (r : Option NormalizationResult) {d' : Folder}
    (image : d'.entries.lookup (nextAvailable d (asImg archive)) ≠ none) :
    Failure f zip d archive (r, d')

theorem failure_of_error {e : ZipError}
    (h : FailsEarly f zip d name ↔ e.Caught) :
    Failure f zip d name (e.result name, d) := by
  cases e with
  | corrupted exc => exact .early (h.mpr trivial) rfl
  | uncaught => exact .raised (fun hearly => h.mp hearly) d

theorem extractImz_failure (hno : ¬ Extracts f zip d name) :
    Failure f zip d name (extractImz f zip d name) := by
  have himage := created_shows d (nextAvailable d (asImg name))
  have hextraction := extraction f zip d name
  generalize extractImz f zip d name = result at hextraction
  cases hextraction with
  | unreadable unread =>
    apply failure_of_error
    rw [FailsEarly, unread]
  | empty read inner =>
    refine .early ?_ rfl
    simp only [FailsEarly, read, inner]
  | unnamed read inner unnamed =>
    refine .early ?_ rfl
    simp only [FailsEarly, read, inner, unnamed]
  | unopened read inner named unopened =>
    apply failure_of_error
    simp only [FailsEarly, read, inner, named, unopened]
  | uncreated read inner named opened uncreated =>
    refine .early ?_ rfl
    simp [FailsEarly, read, inner, named, opened, uncreated]
  | damaged read inner named opened created =>
    refine .left ?_ _ himage
    simp [FailsEarly, read, inner, named, opened, created]
  | cutOff read inner named opened created =>
    refine .left ?_ _ himage
    simp [FailsEarly, read, inner, named, opened, created]
  | @kept members m image read inner named opened created contents written =>
    have hreading := NormalizeFaults.reading_eq_none read inner opened contents
    have himage := innerImage_of_reads read inner opened contents
    exact absurd ⟨⟨image, himage⟩, ⟨hreading, named, created⟩, written⟩ hno
  | @extracted members m image read inner named opened created contents written =>
    have hreading := NormalizeFaults.reading_eq_none read inner opened contents
    have himage := innerImage_of_reads read inner opened contents
    exact absurd ⟨⟨image, himage⟩, ⟨hreading, named, created⟩, written⟩ hno

/-- An extraction that fails leaves the folder alone exactly when it fails early. -/
theorem failed_extraction_harmless_iff (hfile : d.isFile name = true)
    (himz : lower (suffix name) = ".imz".toList) (hno : ¬ Extracts f zip d name) :
    LeavesAlone f zip d name ↔ FailsEarly f zip d name := by
  have hcall : normalizeArrivedFile f zip d name = extractImz f zip d name :=
    normalizeArrivedFile_of_imz hfile himz
  have hfailure := extractImz_failure hno
  unfold LeavesAlone
  rw [hcall]
  generalize extractImz f zip d name = result at hfailure
  cases hfailure with
  | early hearly error => exact iff_of_true ⟨_, d, rfl, error, sameFiles_refl d⟩ hearly
  | raised late d' =>
    refine iff_of_false ?_ late
    rintro ⟨r, d'', h, -⟩
    cases h
  | left late r image =>
    refine iff_of_false ?_ late
    rintro ⟨r', d'', h, -, hsame⟩
    cases h
    exact not_sameFiles_of_free (nextAvailable_free d _) image hsame

/-- An archive from which something comes that is neither a BadZipFile nor an OSError, with no
error before it, or that cannot be deleted. -/
inductive ArchiveRaises (f : NormalizeFaults) (zip : ZipFile) (d : Folder) (archive : Text) : Prop
  | reading (uncaught : f.reads zip ((d.read archive).getD []) = .error .uncaught)
  | opening {members : List ZipMember} {m : ZipMember}
    (read : f.reads zip ((d.read archive).getD []) = .ok members)
    (inner : innerMember members = some m) (named : f.nameFault d archive = none)
    (uncaught : m.opened = .error .uncaught)
  | contents {members : List ZipMember} {m : ZipMember}
    (read : f.reads zip ((d.read archive).getD []) = .ok members)
    (inner : innerMember members = some m) (named : f.nameFault d archive = none)
    (opened : m.opened = .ok ()) (created : f.opening = none)
    (uncaught : m.contents = .error .uncaught)
  | unlinking {members : List ZipMember} {m : ZipMember} {image : List UInt8}
    (read : f.reads zip ((d.read archive).getD []) = .ok members)
    (inner : innerMember members = some m)
    (named : f.nameFault d archive = none) (opened : m.opened = .ok ()) (created : f.opening = none)
    (contents : m.contents = .ok image) (written : f.writing = none) (kept : f.unlinking = true)

theorem ZipError.result_eq_none {e : ZipError} {archive : Text} :
    e.result archive = none ↔ e = .uncaught := by
  cases e with
  | corrupted exc => exact iff_of_false (Option.some_ne_none _) (fun h => by cases h)
  | uncaught => exact iff_of_true rfl rfl

theorem extractImz_raises_iff {archive : Text} :
    (extractImz f zip d archive).1 = none ↔
      ArchiveRaises f zip d archive := by
  constructor
  · intro h
    have hextraction := extraction f zip d archive
    generalize extractImz f zip d archive = result at hextraction h
    cases hextraction with
    | unreadable unread =>
      rw [ZipError.result_eq_none.mp h] at unread
      exact .reading unread
    | empty => cases h
    | unnamed => cases h
    | unopened read inner named unopened =>
      rw [ZipError.result_eq_none.mp h] at unopened
      exact .opening read inner named unopened
    | uncreated => cases h
    | damaged read inner named opened created damaged =>
      rw [ZipError.result_eq_none.mp h] at damaged
      exact .contents read inner named opened created damaged
    | cutOff => cases h
    | kept read inner named opened created contents written kept =>
      exact .unlinking read inner named opened created contents written kept
    | extracted => cases h
  · intro h
    unfold extractImz
    cases h with
    | reading uncaught => rw [uncaught]; rfl
    | opening read inner named uncaught =>
      rw [read]
      dsimp only
      rw [inner]
      dsimp only
      rw [named, uncaught]
      rfl
    | contents read inner named opened created uncaught =>
      rw [read]
      dsimp only
      rw [inner]
      dsimp only
      rw [named, opened, created, uncaught]
      rfl
    | unlinking read inner named opened created contents written kept =>
      rw [read]
      dsimp only
      rw [inner]
      dsimp only
      rw [named, opened, created, contents, written]
      dsimp only
      rw [if_pos kept]

def archiveFolder : Folder :=
  (⟨∅, fun _ => [], 0, Folder.allocated_empty⟩ : Folder).create "a.imz".toList

/-- The archive is no zip file. -/
theorem failed_extraction_harmless_iff_example :
    LeavesAlone .none (fun _ => .error (.corrupted "File is not a zip file".toList)) archiveFolder
      "a.imz".toList := by
  refine (failed_extraction_harmless_iff (by decide +kernel) (by decide +kernel) ?_).mpr trivial
  rintro ⟨⟨image, himage⟩, -⟩
  cases himage

/-- The one member of every archive has a wrong checksum. -/
def badChecksum : ZipFile := fun _ =>
  .ok [⟨"a.ima".toList, 1474560, .ok (), .error (.corrupted "Bad CRC-32".toList)⟩]

/-- An empty image is left behind. -/
theorem bad_checksum_leaves_image :
    ¬ Extracts .none badChecksum archiveFolder "a.imz".toList ∧
      archiveFolder.read "a.img".toList = none ∧
      (normalizeArrivedFile .none badChecksum archiveFolder "a.imz".toList).2.read
        "a.img".toList = some [] ∧
      ¬ LeavesAlone .none badChecksum archiveFolder "a.imz".toList := by
  have hinner : innerImage badChecksum ((archiveFolder.read "a.imz".toList).getD []) = none := by
    decide +kernel
  have hbefore : archiveFolder.read "a.img".toList = none := by decide +kernel
  have hafter : (normalizeArrivedFile .none badChecksum archiveFolder "a.imz".toList).2.read
      "a.img".toList = some [] := by decide +kernel
  refine ⟨?_, hbefore, hafter, ?_⟩
  · rintro ⟨⟨image, himage⟩, -⟩
    rw [hinner] at himage
    cases himage
  · rintro ⟨r, d', hcall, -, hsame⟩
    rw [hcall, (hsame _).2, hbefore] at hafter
    cases hafter

end UsbFloppy.Storage
