import UsbFloppy.Web.Batch
import UsbFloppy.Web.TargetSet

/-! post_upload, from the set's name to the rows, and what an upload leaves as it was. -/

namespace UsbFloppy.Web
open Files Gadget Storage Transition

/-- The first is status 400 with "no files provided". -/
inductive UploadResponse
  | noFiles
  | noTarget (e : TargetError)
  | raised
  | results (set : Text) (rows : List UploadRow)
  deriving DecidableEq

/-- In a folder that is gone no file can be opened. -/
def UploadFile.homeless (u : UploadFile) : UploadFile :=
  { u with opening := some (u.opening.getD ⟨"[Errno 2] No such file or directory".toList, false⟩) }

/-- The files as they meet the folder of the set. -/
def filesFor (t : Tree) (target : Path) (files : List UploadFile) : List UploadFile :=
  if target.asPosix ∈ t.dirs then files else files.map UploadFile.homeless

def postUpload (zip : ZipFile) (root : Path) (sets : List FloppySet) (t : Tree) (set : Text)
    (files : List UploadFile) (createNew : Bool) : UploadResponse × Tree :=
  if files = [] then (.noFiles, t)
  else
    match resolveTargetSet root sets t set createNew with
    | .error e => (.noTarget e, t)
    | .ok (target, t') =>
      match streamUploads zip (t'.folder target.asPosix) (filesFor t' target files) with
      | (none, d) => (.raised, t'.setFolder target.asPosix d)
      | (some rows, d) => (.results target.name rows, t'.setFolder target.asPosix d)

variable {f : NormalizeFaults} {zip : ZipFile} {d : Folder} {u : UploadFile} {name other : Text}

/-! ### What an upload leaves as it was -/

/-- A name keeps what it has, or was free and has an image now. -/
def KeptFor (d d' : Folder) (other : Text) : Prop :=
  d'.entries.lookup other = d.entries.lookup other ∨
    d.entries.lookup other = none ∧ suffix other = ".img".toList ∧ d'.isFile other = true

theorem keptFor_create {target : Text} (hfree : d.entries.lookup target = none)
    (himg : suffix target = ".img".toList) (other : Text) : KeptFor d (d.create target) other := by
  by_cases hother : other = target
  · subst hother
    exact Or.inr ⟨hfree, himg, Folder.isFile_iff.mpr ⟨_, Folder.create_lookup_self⟩⟩
  · exact Or.inl (Folder.create_lookup_of_ne hother)

theorem extractImz_kept (himz : lower (suffix name) = ".imz".toList) (hother : other ≠ name) :
    KeptFor d (extractImz f zip d name).2 other := by
  have hcreated : KeptFor d (d.create (nextAvailable d (asImg name))) other :=
    keptFor_create (nextAvailable_free d _) (suffix_nextAvailable (suffix_ne_nil himz (by decide)))
      other
  have hdeleted : ∀ d' : Folder, KeptFor d d' other → KeptFor d (d'.unlink name) other := by
    intro d' h
    unfold KeptFor Folder.isFile
    rw [Folder.unlink_lookup_of_ne hother]
    exact h
  have hextraction := extraction f zip d name
  generalize extractImz f zip d name = result at hextraction
  cases hextraction with
  | unreadable => exact Or.inl rfl
  | empty => exact Or.inl rfl
  | unnamed => exact Or.inl rfl
  | unopened => exact Or.inl rfl
  | uncreated => exact Or.inl rfl
  | damaged => exact hcreated
  | cutOff => exact hcreated
  | kept => exact hcreated
  | extracted => exact hdeleted _ hcreated

theorem normalizeArrivedFile_kept (hother : other ≠ name) :
    KeptFor d (normalizeArrivedFile f zip d name).2 other := by
  unfold normalizeArrivedFile
  split_ifs with hfile himg hima hrenames himz
  · exact Or.inl rfl
  · obtain ⟨i, hi⟩ := Folder.isFile_iff.mp hfile
    dsimp only
    by_cases htarget : other = nextAvailable d (asImg name)
    · right
      rw [htarget]
      refine ⟨nextAvailable_free d _, suffix_nextAvailable (suffix_ne_nil hima (by decide)), ?_⟩
      exact Folder.isFile_iff.mpr ⟨i, (Folder.rename_of_lookup hi).1⟩
    · left
      rw [Folder.rename_lookup hi, if_neg htarget, if_neg hother]
  · exact Or.inl rfl
  · exact extractImz_kept himz hother
  · exact Or.inl rfl
  · exact Or.inl rfl

theorem extractImz_own (f : NormalizeFaults) (zip : ZipFile) (hfile : d.isFile name = true) :
    (extractImz f zip d name).2.entries.lookup name = d.entries.lookup name ∨
      (extractImz f zip d name).2.entries.lookup name = none := by
  obtain ⟨i, hi⟩ := Folder.isFile_iff.mp hfile
  have hcreated : (d.create (nextAvailable d (asImg name))).entries.lookup name =
      d.entries.lookup name := Folder.create_lookup_of_ne (nextAvailable_ne hi _).symm
  have hextraction := extraction f zip d name
  generalize extractImz f zip d name = result at hextraction
  cases hextraction with
  | unreadable => exact Or.inl rfl
  | empty => exact Or.inl rfl
  | unnamed => exact Or.inl rfl
  | unopened => exact Or.inl rfl
  | uncreated => exact Or.inl rfl
  | damaged => exact Or.inl hcreated
  | cutOff => exact Or.inl hcreated
  | kept => exact Or.inl hcreated
  | extracted => exact Or.inr Folder.unlink_lookup_self

theorem normalizeArrivedFile_own (f : NormalizeFaults) (zip : ZipFile) (d : Folder) (name : Text) :
    (normalizeArrivedFile f zip d name).2.entries.lookup name = d.entries.lookup name ∨
      (normalizeArrivedFile f zip d name).2.entries.lookup name = none := by
  unfold normalizeArrivedFile
  split_ifs with hfile himg hima hrenames himz
  · exact Or.inl rfl
  · obtain ⟨i, hi⟩ := Folder.isFile_iff.mp hfile
    right
    dsimp only
    rw [Folder.rename_lookup hi, if_neg (nextAvailable_ne hi _).symm, if_pos rfl]
  · exact Or.inl rfl
  · exact extractImz_own f zip hfile
  · exact Or.inl rfl
  · exact Or.inl rfl

theorem storeStep_kept (hother : uploadTarget u.filename ≠ some other) :
    KeptFor d (storeStep zip d u) other := by
  have hstreamed := streamed zip d u
  unfold storeStep
  generalize (streamUploadToSet zip d u).row = row at hstreamed
  generalize (streamUploadToSet zip d u).folder = d' at hstreamed
  cases hstreamed with
  | badName name row reported => exact Or.inl rfl
  | raised bad => exact Or.inl rfl
  | kept name file stays d' others =>
    exact Or.inl (others other fun h => hother (name.trans (congrArg some h.symm)))
  | rejected name file fails gone row reported d' others =>
    exact Or.inl (others other fun h => hother (name.trans (congrArg some h.symm)))
  | @stored bare name file arrives =>
    have hne : other ≠ bare := fun h => hother (name.trans (congrArg some h.symm))
    obtain ⟨-, hsame⟩ := withFile_spec file u.contents
    have hkept : KeptFor (withFile d bare u.contents)
        (normalizeArrivedFile u.faults zip (withFile d bare u.contents) bare).2 other :=
      normalizeArrivedFile_kept hne
    unfold KeptFor at hkept ⊢
    rw [hsame other hne] at hkept
    exact hkept

theorem not_directory_of_isFile (h : d.isFile name = true) :
    d.entries.lookup name ≠ some .directory := by
  obtain ⟨i, hi⟩ := Folder.isFile_iff.mp h
  rw [hi]
  exact fun hdir => by cases hdir

theorem storeStep_directory (zip : ZipFile) (d : Folder) (u : UploadFile) (name : Text) :
    (storeStep zip d u).entries.lookup name = some .directory ↔
      d.entries.lookup name = some .directory := by
  by_cases hown : uploadTarget u.filename = some name
  swap
  · have hkept : KeptFor d (storeStep zip d u) name := storeStep_kept hown
    rcases hkept with hsame | ⟨hfree, -, hfile⟩
    · rw [hsame]
    · refine iff_of_false (not_directory_of_isFile hfile) ?_
      rw [hfree]
      exact fun h => by cases h
  have hstreamed := streamed zip d u
  unfold storeStep
  generalize (streamUploadToSet zip d u).row = row at hstreamed
  generalize (streamUploadToSet zip d u).folder = d' at hstreamed
  cases hstreamed with
  | badName name row reported => exact Iff.rfl
  | raised bad => exact Iff.rfl
  | kept target file stays d' others still =>
    cases target.symm.trans hown
    exact iff_of_false still file
  | rejected target file fails gone row reported d' others free =>
    cases target.symm.trans hown
    refine iff_of_false ?_ file
    rw [free]
    exact fun h => by cases h
  | stored target file arrives =>
    cases target.symm.trans hown
    refine iff_of_false ?_ file
    have hthere := not_directory_of_isFile (isFile_of_read (withFile_spec file u.contents).1)
    rcases normalizeArrivedFile_own u.faults zip (withFile d name u.contents) name with hsame | hgone
    · rw [hsame]
      exact hthere
    · rw [hgone]
      exact fun h => by cases h

end UsbFloppy.Web
