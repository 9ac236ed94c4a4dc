import UsbFloppy.Storage.FailedExtraction

/-! Which member of an archive is extracted. The code looks at names and sizes only, so that a
directory entry whose name ends like that of an image is taken for one. -/

namespace UsbFloppy.Storage
open Files

/-- The name and the size under which an archive lists a member. -/
abbrev Listed := Text × ℕ

def ZipMember.listed (m : ZipMember) : Listed := (m.filename, m.fileSize)

/-- `ZipInfo.is_dir`. -/
def isDir (x : Listed) : Prop := x.1.getLast? = some '/'

instance (x : Listed) : Decidable (isDir x) := inferInstanceAs (Decidable (_ = _))

/-- The name and the size are those of an image. -/
def NamedImage (x : Listed) : Prop :=
  bareName x.1 ≠ [] ∧ lower (suffix (bareName x.1)) ∈ EXTRACTABLE_INNER_EXTS ∧
    x.2 ≤ MAX_IMAGE_BYTES

instance (x : Listed) : Decidable (NamedImage x) := inferInstanceAs (Decidable (_ ∧ _))

/-- A regular file, by name and size an image. -/
def ImageFile (x : Listed) : Prop := ¬ isDir x ∧ NamedImage x

instance (x : Listed) : Decidable (ImageFile x) := inferInstanceAs (Decidable (_ ∧ _))

def firstImage (members : List ZipMember) : Option ZipMember :=
  members.find? fun m => ImageFile m.listed

/-- No directory entry that is named like an image comes before the first image. -/
def NoDirectoryFirst (listing : List Listed) : Prop :=
  ∀ x ∈ listing.takeWhile fun x => ¬ ImageFile x, ¬ NamedImage x

instance (listing : List Listed) : Decidable (NoDirectoryFirst listing) :=
  inferInstanceAs (Decidable (∀ x ∈ _, _))

/-- What is promised of an extraction: it takes the first image, deletes the archive only for
it, and is an error if there is none. -/
structure ExtractsFirstImage (f : NormalizeFaults) (d : Folder) (members : List ZipMember)
    (archive : Text) (outcome : Option NormalizationResult × Folder) : Prop where
  extracts : ∀ m image, firstImage members = some m → m.opened = .ok () → m.contents = .ok image →
    f.Replaces d archive → ∃ r, outcome.1 = some r ∧ r.kind = .extracted
  chosen : ∀ r, outcome.1 = some r → r.kind = .extracted → ∃ m image,
    firstImage members = some m ∧ m.contents = .ok image ∧ outcome.2.read r.finalPath = some image
  deleted : outcome.2.entries.lookup archive = none →
    ∃ r, outcome.1 = some r ∧ r.kind = .extracted
  error : firstImage members = none → ∃ r, outcome.1 = some r ∧ r.kind = .error

variable {f : NormalizeFaults} {zip : ZipFile} {d : Folder} {archive : Text}
  {members : List ZipMember} {m : ZipMember}

/-! ### The selection -/

theorem innerMember_of_noDirectoryFirst
    (h : NoDirectoryFirst (members.map ZipMember.listed)) :
    innerMember members = firstImage members := by
  unfold NoDirectoryFirst at h
  unfold innerMember firstImage
  induction members with
  | nil => rfl
  | cons m members ih =>
    rw [List.map_cons, List.takeWhile_cons] at h
    by_cases himage : ImageFile m.listed
    · have hextractable : extractable m := himage.2
      rw [List.find?_cons_of_pos (by simpa using hextractable),
        List.find?_cons_of_pos (by simpa using himage)]
    · rw [if_pos (by simpa using himage)] at h
      have hnot : ¬ extractable m := h m.listed List.mem_cons_self
      rw [List.find?_cons_of_neg (by simpa using hnot),
        List.find?_cons_of_neg (by simpa using himage)]
      exact ih fun x hx => h x (.tail _ hx)

/-- A directory entry in front is what the code selects. -/
theorem innerMember_of_directoryFirst
    (h : ¬ NoDirectoryFirst (members.map ZipMember.listed)) :
    ∃ m, innerMember members = some m ∧ isDir m.listed := by
  unfold NoDirectoryFirst at h
  unfold innerMember
  induction members with
  | nil => exact absurd (fun x hx => by cases hx) h
  | cons m members ih =>
    rw [List.map_cons, List.takeWhile_cons] at h
    by_cases himage : ImageFile m.listed
    · rw [if_neg (by simpa using himage)] at h
      exact absurd (fun x hx => by cases hx) h
    · rw [if_pos (by simpa using himage)] at h
      by_cases hnamed : NamedImage m.listed
      · have hextractable : extractable m := hnamed
        refine ⟨m, List.find?_cons_of_pos (by simpa using hextractable), ?_⟩
        by_contra hdir
        exact himage ⟨hdir, hnamed⟩
      · have hnot : ¬ extractable m := hnamed
        rw [List.find?_cons_of_neg (by simpa using hnot)]
        apply ih
        intro hrest
        apply h
        intro x hx
        rcases List.mem_cons.mp hx with rfl | hx
        · exact hnamed
        · exact hrest x hx

/-- Whether a member is selected is a matter of the listing. -/
theorem innerMember_eq_none_iff :
    innerMember members = none ↔ ∀ x ∈ members.map ZipMember.listed, ¬ NamedImage x := by
  unfold innerMember
  rw [List.find?_eq_none, List.forall_mem_map]
  exact forall₂_congr fun m _ => by simp only [decide_eq_true_eq]; exact Iff.rfl

/-! ### The extraction -/

/-- Reading an archive fails with an OSError at once, or finds what it lists. -/
theorem NormalizeFaults.reads_listing {bytes : List UInt8} (f : NormalizeFaults)
    (hzip : zip bytes = .ok members) : (∃ exc, f.reads zip bytes = .error (.corrupted exc)) ∨
      ∃ members', f.reads zip bytes = .ok members' ∧
        members'.map ZipMember.listed = members.map ZipMember.listed := by
  unfold NormalizeFaults.reads
  split
  · exact Or.inr ⟨members, hzip, rfl⟩
  · exact Or.inl ⟨_, rfl⟩
  · exact Or.inl ⟨_, rfl⟩
  all_goals
    rw [hzip]
    refine Or.inr ⟨_, rfl, ?_⟩
    rw [List.map_map]
    exact List.map_congr_left fun _ _ => rfl

/-- A member that was selected is extracted, or the archive stays and there is no image. -/
inductive MemberOutcome (f : NormalizeFaults) (d : Folder) (archive : Text) (m : ZipMember) :
    Option NormalizationResult × Folder → Prop
  | extracted (image : List UInt8) (opened : m.opened = .ok ()) (contents : m.contents = .ok image) :
    MemberOutcome f d archive m (some ⟨.extracted, nextAvailable d (asImg archive), []⟩,
      ((d.create (nextAvailable d (asImg archive))).append d.inodes image).unlink archive)
  | failed (why : f.Replaces d archive → m.opened = .ok () → ∀ image, m.contents ≠ .ok image)
    (r : Option NormalizationResult) (d' : Folder) (error : ∀ r', r = some r' → r'.kind = .error)
    (kept : d'.entries.lookup archive = d.entries.lookup archive) :
    MemberOutcome f d archive m (r, d')

theorem extractImz_outcome (hfile : d.isFile archive = true)
    (hzip : zip ((d.read archive).getD []) = .ok members) (hinner : innerMember members = some m) :
    MemberOutcome f d archive m (extractImz f zip d archive) := by
  obtain ⟨i, hi⟩ := Folder.isFile_iff.mp hfile
  have hcreated : (d.create (nextAvailable d (asImg archive))).entries.lookup archive =
      d.entries.lookup archive := Folder.create_lookup_of_ne (nextAvailable_ne hi _).symm
  -- without an OSError, what is read is what the archive holds
  have hread : ∀ {e : ZipError}, f.reading = none →
      f.reads zip ((d.read archive).getD []) ≠ .error e := by
    intro e hreading hunread
    rw [NormalizeFaults.reads_of_none hreading] at hunread
    cases hzip.symm.trans hunread
  have hmember : ∀ {members' : List ZipMember}, f.reading = none →
      f.reads zip ((d.read archive).getD []) = .ok members' → innerMember members' = some m := by
    intro members' hreading hread
    rw [NormalizeFaults.reads_of_none hreading] at hread
    cases hzip.symm.trans hread
    exact hinner
  have hextraction := extraction f zip d archive
  generalize extractImz f zip d archive = result at hextraction
  cases hextraction with
  | unreadable unread =>
    exact .failed (fun hf => absurd unread (hread hf.1.1)) _ d
      (fun r h => ZipError.result_kind h) rfl
  | empty read inner =>
    refine .failed (fun hf => ?_) _ d (fun r h => ?_) rfl
    · cases inner.symm.trans (hmember hf.1.1 read)
    · cases h
      rfl
  | unnamed read inner unnamed =>
    refine .failed (fun hf => ?_) _ d (fun r h => ZipError.result_kind h) rfl
    cases hf.1.2.1.symm.trans unnamed
  | unopened read inner named unopened =>
    refine .failed (fun hf h => ?_) _ d (fun r h => ZipError.result_kind h) rfl
    cases inner.symm.trans (hmember hf.1.1 read)
    cases unopened.symm.trans h
  | uncreated read inner named opened uncreated =>
    refine .failed (fun hf => ?_) _ d (fun r h => ZipError.result_kind h) rfl
    cases hf.1.2.2.symm.trans uncreated
  | damaged read inner named opened created damaged =>
    refine .failed (fun hf _ image h => ?_) _ _ (fun r h => ZipError.result_kind h) hcreated
    cases inner.symm.trans (hmember hf.1.1 read)
    cases damaged.symm.trans h
  | cutOff read inner named opened created contents cutOff =>
    refine .failed (fun hf => ?_) _ _ (fun r h => ZipError.result_kind h) hcreated
    cases hf.2.1.symm.trans cutOff
  | kept read inner named opened created contents written kept =>
    refine .failed (fun hf => ?_) none _ (fun r h => by cases h) hcreated
    cases hf.2.2.symm.trans kept
  | extracted read inner named opened created contents written unlinked =>
    have hreading := NormalizeFaults.reading_eq_none read inner opened contents
    cases inner.symm.trans (hmember hreading read)
    exact .extracted _ opened contents

theorem extracted_read (hfile : d.isFile archive = true) (image : List UInt8) :
    (((d.create (nextAvailable d (asImg archive))).append d.inodes image).unlink archive).read
      (nextAvailable d (asImg archive)) = some image := by
  obtain ⟨i, hi⟩ := Folder.isFile_iff.mp hfile
  apply Folder.read_eq_some.mpr
  refine ⟨d.inodes, ?_, Folder.create_append_data⟩
  exact (Folder.unlink_lookup_of_ne (nextAvailable_ne hi _)).trans Folder.create_lookup_self

theorem lookup_ne_none_of_isFile (hfile : d.isFile archive = true) :
    d.entries.lookup archive ≠ none := by
  obtain ⟨i, hi⟩ := Folder.isFile_iff.mp hfile
  rw [hi]
  exact Option.some_ne_none _

theorem MemberOutcome.extractsFirstImage {outcome : Option NormalizationResult × Folder}
    (h : MemberOutcome f d archive m outcome) (hfile : d.isFile archive = true)
    (hfirst : firstImage members = some m) : ExtractsFirstImage f d members archive outcome := by
  cases h with
  | extracted image opened contents =>
    constructor
    · intro m' image' _ _ _ _
      exact ⟨_, rfl, rfl⟩
    · intro r hr _
      cases hr
      exact ⟨m, image, hfirst, contents, extracted_read hfile image⟩
    · intro _
      exact ⟨_, rfl, rfl⟩
    · intro hnone
      cases hfirst.symm.trans hnone
  | failed why r d' error kept =>
    constructor
    · intro m' image h hopened hcontents hf
      cases hfirst.symm.trans h
      exact absurd hcontents (why hf hopened image)
    · intro r' hr hkind
      rw [error r' hr] at hkind
      cases hkind
    · intro hgone
      exact absurd (kept.symm.trans hgone) (lookup_ne_none_of_isFile hfile)
    · intro hnone
      cases hfirst.symm.trans hnone

theorem extractImz_of_no_inner (hzip : zip ((d.read archive).getD []) = .ok members)
    (hinner : innerMember members = none) :
    ∃ r, extractImz f zip d archive = (some r, d) ∧ r.kind = .error := by
  unfold extractImz
  obtain ⟨exc, hunread⟩ | ⟨members', hread, hlisted⟩ := f.reads_listing hzip
  · rw [hunread]
    exact ⟨_, rfl, rfl⟩
  · have hinner' : innerMember members' = none := by
      rw [innerMember_eq_none_iff, hlisted]
      exact innerMember_eq_none_iff.mp hinner
    rw [hread]
    dsimp only
    rw [hinner']
    exact ⟨_, rfl, rfl⟩

theorem extractsFirstImage_of_inner (hfile : d.isFile archive = true)
    (hzip : zip ((d.read archive).getD []) = .ok members)
    (hinner : innerMember members = firstImage members) :
    ExtractsFirstImage f d members archive (extractImz f zip d archive) := by
  rcases hfirst : firstImage members with _ | m
  · obtain ⟨r, hresult, hkind⟩ := extractImz_of_no_inner (f := f) hzip (hinner.trans hfirst)
    rw [hresult]
    constructor
    · intro m image h
      cases hfirst.symm.trans h
    · intro r' hr hextracted
      cases hr
      cases hkind.symm.trans hextracted
    · intro hgone
      exact absurd hgone (lookup_ne_none_of_isFile hfile)
    · intro _
      exact ⟨r, rfl, hkind⟩
  · exact (extractImz_outcome hfile hzip (hinner.trans hfirst)).extractsFirstImage hfile hfirst

/-- Every image in the archive is damaged, the directory entries are not. -/
def damaged (x : Listed) : ZipMember where
  filename := x.1
  fileSize := x.2
  opened := .ok ()
  contents :=
    if isDir x then .ok (List.replicate x.2 0) else .error (.corrupted "Bad CRC-32".toList)

/-- Extraction from every archive with this listing keeps its promise exactly if no directory
entry passes for the first image. -/
theorem extracts_first_image_iff (listing : List Listed) :
    (∀ f zip d archive members, d.isFile archive = true →
      zip ((d.read archive).getD []) = .ok members → members.map ZipMember.listed = listing →
        ExtractsFirstImage f d members archive (extractImz f zip d archive)) ↔
      NoDirectoryFirst listing := by
  constructor
  · intro h
    by_contra hdir
    have hlisted : (listing.map damaged).map ZipMember.listed = listing := by
      rw [List.map_map]
      exact List.map_id listing
    have hpromise := h .none (fun _ => .ok (listing.map damaged)) archiveFolder "a.imz".toList
      (listing.map damaged) (by decide +kernel) rfl hlisted
    obtain ⟨m, hinner, hisDir⟩ := innerMember_of_directoryFirst (hlisted.symm ▸ hdir)
    have hdamaged : ∀ m ∈ listing.map damaged, m = damaged m.listed := by
      intro m hm
      obtain ⟨x, -, rfl⟩ := List.mem_map.mp hm
      rfl
    have hm := hdamaged m (List.mem_of_find?_eq_some hinner)
    have houtcome : MemberOutcome .none archiveFolder "a.imz".toList m
        (extractImz .none (fun _ => .ok (listing.map damaged)) archiveFolder "a.imz".toList) :=
      extractImz_outcome (by decide +kernel) rfl hinner
    generalize extractImz .none _ archiveFolder "a.imz".toList = outcome at houtcome hpromise
    cases houtcome with
    | extracted image hopened hcontents =>
      obtain ⟨first, image', hfirst, himage, -⟩ := hpromise.chosen _ rfl rfl
      have hfile : ImageFile first.listed := by simpa using List.find?_some hfirst
      rw [hdamaged first (List.mem_of_find?_eq_some hfirst)] at himage
      unfold damaged at himage
      rw [if_neg hfile.1] at himage
      cases himage
    | failed why r d' error kept =>
      have hopened : m.opened = .ok () := by rw [hm]; rfl
      have hcontents : m.contents = .ok (List.replicate m.listed.2 0) := by
        rw [hm]
        exact if_pos hisDir
      exact why (by decide +kernel) hopened _ hcontents
  · rintro h f zip d archive members hfile hzip rfl
    exact extractsFirstImage_of_inner hfile hzip (innerMember_of_noDirectoryFirst h)

/-- A folder `disk.img/` with the image in it. -/
def nestedMembers : List ZipMember :=
  [⟨"disk.img/".toList, 0, .ok (), .ok []⟩,
    ⟨"disk.img/disk.img".toList, 3, .ok (), .ok [1, 2, 3]⟩]

/-- The archive is deleted for an empty image. -/
theorem directory_entry_extracted :
    ¬ ∀ (f : NormalizeFaults) (zip : ZipFile) (d : Folder) (archive : Text)
      (members : List ZipMember), d.isFile archive = true →
        zip ((d.read archive).getD []) = .ok members →
          ExtractsFirstImage f d members archive (extractImz f zip d archive) := by
  intro h
  have hpromise := h .none (fun _ => .ok nestedMembers) archiveFolder "a.imz".toList nestedMembers
    (by decide +kernel) rfl
  have hresult : (extractImz .none (fun _ => .ok nestedMembers) archiveFolder
      "a.imz".toList).1 = some ⟨.extracted, "a.img".toList, []⟩ := by decide +kernel
  have hread : (extractImz .none (fun _ => .ok nestedMembers) archiveFolder
      "a.imz".toList).2.read "a.img".toList = some [] := by decide +kernel
  have hfirst : (firstImage nestedMembers).map ZipMember.fileSize = some 3 := by decide +kernel
  obtain ⟨m, image, hm, hcontents, himage⟩ := hpromise.chosen _ hresult rfl
  cases hread.symm.trans himage
  have hmem : m ∈ nestedMembers := List.mem_of_find?_eq_some hm
  rw [hm] at hfirst
  unfold nestedMembers at hmem
  simp only [List.mem_cons, List.not_mem_nil, or_false] at hmem
  rcases hmem with rfl | rfl
  · cases hfirst
  · cases hcontents

end UsbFloppy.Storage
