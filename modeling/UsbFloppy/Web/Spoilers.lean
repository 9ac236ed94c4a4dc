import UsbFloppy.Web.PostUpload

/-! What a batch of uploads can do to its folder, by their names alone: which names it leaves as
they were, which it can clear, and when it can leave an image. -/

namespace UsbFloppy.Web
open Files Gadget Storage Transition

def roName : Text := "ro".toList

/-! ### The batch in its folder -/

/-- The names that are written to, up to the first file whose name ends the batch. -/
def reached (d : Folder) : List (Option ClientName) → List Text
  | [] => []
  | filename :: filenames =>
    if RaisesByName d filename then []
    else (uploadTarget filename).toList ++ reached d filenames

variable {zip : ZipFile} {d d' : Folder} {u : UploadFile} {other : Text}

theorem reached_congr (h : ∀ name, d'.entries.lookup name = some .directory ↔
    d.entries.lookup name = some .directory) (filenames : List (Option ClientName)) :
    reached d' filenames = reached d filenames := by
  induction filenames with
  | nil => rfl
  | cons filename filenames ih =>
    have hraises : RaisesByName d' filename ↔ RaisesByName d filename := by
      simp only [RaisesByName, h]
    simp only [reached, ih, hraises]

theorem KeptFor.trans {d'' : Folder} (h : KeptFor d d' other) (h' : KeptFor d' d'' other) :
    KeptFor d d'' other := by
  rcases h' with hsame | ⟨hfree, himg, hfile⟩
  · rcases h with h | ⟨hfree, himg, hfile⟩
    · exact Or.inl (hsame.trans h)
    · refine Or.inr ⟨hfree, himg, ?_⟩
      unfold Folder.isFile
      rw [hsame]
      exact hfile
  · rcases h with h | ⟨hfree', -⟩
    · exact Or.inr ⟨h.symm.trans hfree, himg, hfile⟩
    · exact Or.inr ⟨hfree', himg, hfile⟩

theorem not_uploadTarget_of_raises (h : RaisesByName d u.filename) {name : Text}
    (hname : uploadTarget u.filename = some name) : d.entries.lookup name = some .directory := by
  by_contra hfile
  exact not_raisesByName hname hfile h

theorem storeStep_of_raisesByName (zip : ZipFile) (h : RaisesByName d u.filename) :
    (streamUploadToSet zip d u).row = none ∧ storeStep zip d u = d := by
  have hraises : (streamUploadToSet zip d u).row = none := row_eq_none_iff.mpr (.name h)
  have hstreamed := streamed zip d u
  rw [hraises] at hstreamed
  unfold storeStep
  refine ⟨hraises, ?_⟩
  generalize (streamUploadToSet zip d u).folder = folder at hstreamed ⊢
  generalize hrow : (none : Option UploadRow) = row at hstreamed
  cases hstreamed with
  | badName => cases hrow
  | raised => rfl
  | kept name file => exact absurd (not_uploadTarget_of_raises h name) file
  | rejected => cases hrow
  | stored name file => exact absurd (not_uploadTarget_of_raises h name) file

theorem streamUploads_kept (files : List UploadFile) (d : Folder)
    (hother : other ∉ reached d (files.map UploadFile.filename)) :
    KeptFor d (streamUploads zip d files).2 other := by
  induction files generalizing d with
  | nil => exact Or.inl rfl
  | cons u us ih =>
    unfold streamUploads
    dsimp only
    by_cases hraises : RaisesByName d u.filename
    · obtain ⟨hrow, hfolder⟩ := storeStep_of_raisesByName zip hraises
      rw [hrow]
      unfold storeStep at hfolder
      exact Or.inl (by rw [hfolder])
    · rw [List.map_cons, reached, if_neg hraises, List.mem_append, not_or] at hother
      have hown : uploadTarget u.filename ≠ some other := by
        intro h
        exact hother.1 (by rw [h]; exact List.mem_cons_self)
      have hkept : KeptFor d (storeStep zip d u) other := storeStep_kept hown
      split
      · exact hkept
      · refine hkept.trans (ih (storeStep zip d u) ?_)
        rw [reached_congr (storeStep_directory zip d u)]
        exact hother.2

/-! ### Uploads that do harm -/

def fullChunk : Chunk := ⟨List.replicate (64 * 1024) 0, List.length_replicate.le⟩

/-- An upload over the limit, except that a marker may arrive. -/
def spoiler (marks : Bool) (filename : Option ClientName) : UploadFile where
  filename := filename
  reads :=
    if marks ∧ filename.bind ClientName.bare = some roName then []
    else List.replicate 33 fullChunk
  opening := none
  failing := none
  faults := .none

theorem readBytes_replicate (n : ℕ) {chunk : Chunk} (h : chunk.1 ≠ []) :
    (readBytes (List.replicate n chunk)).length = n * chunk.1.length := by
  induction n with
  | zero => rw [Nat.zero_mul]; rfl
  | succ n ih =>
    rw [List.replicate_succ, readBytes, if_neg h, List.length_append, ih]
    exact (Nat.add_comm _ _).trans (Nat.succ_mul n _).symm

theorem spoiler_arrives {marks : Bool} {filename : Option ClientName}
    (h : (spoiler marks filename).Arrives) :
    marks = true ∧ filename.bind ClientName.bare = some roName := by
  by_contra hno
  have hlength : (spoiler marks filename).contents.length = 33 * (64 * 1024) := by
    have hfull : fullChunk.1.length = 64 * 1024 := List.length_replicate
    have hchunk : fullChunk.1 ≠ [] := by
      apply List.ne_nil_of_length_pos
      rw [hfull]
      exact Nat.mul_pos (by decide) (by decide)
    unfold UploadFile.contents spoiler
    dsimp only
    rw [if_neg hno, readBytes_replicate 33 hchunk, hfull]
  have hle := h.2.2
  rw [hlength, MAX_UPLOAD_BYTES] at hle
  omega

theorem normalizeArrivedFile_marker (f : NormalizeFaults) (h : d.isFile roName = true) :
    normalizeArrivedFile f zip d roName =
      (some ⟨.ignored, roName, "unrecognized extension".toList⟩, d) := by
  have hsuffix : lower (suffix roName) ≠ ".img".toList ∧ lower (suffix roName) ≠ ".ima".toList ∧
      lower (suffix roName) ≠ ".imz".toList := by decide
  unfold normalizeArrivedFile
  rw [if_pos h, if_neg hsuffix.1, if_neg hsuffix.2.1, if_neg hsuffix.2.2]

/-- What is left under a name that was written to. -/
def Spoiled (marks : Bool) (d : Folder) (name : Text) : Prop :=
  if marks = true ∧ name = roName then d.isFile name = true else d.entries.lookup name = none

theorem spoiler_step (zip : ZipFile) (marks : Bool) {filename : Option ClientName}
    (h : ¬ RaisesByName d filename) :
    (streamUploadToSet zip d (spoiler marks filename)).row ≠ none ∧
      (∀ name, uploadTarget filename = some name →
        Spoiled marks (storeStep zip d (spoiler marks filename)) name) ∧
      ∀ other, uploadTarget filename ≠ some other →
        (storeStep zip d (spoiler marks filename)).entries.lookup other =
          d.entries.lookup other := by
  have htarget : uploadTarget (spoiler marks filename).filename = uploadTarget filename := rfl
  have hstreamed := streamed zip d (spoiler marks filename)
  unfold storeStep
  generalize (streamUploadToSet zip d (spoiler marks filename)).row = row at hstreamed
  generalize (streamUploadToSet zip d (spoiler marks filename)).folder = folder at hstreamed
  cases hstreamed with
  | badName name row reported =>
    refine ⟨Option.some_ne_none _, fun bare hbare => ?_, fun _ _ => rfl⟩
    obtain ⟨hsome, hempty, -⟩ := uploadTarget_eq_some.mp (htarget.trans hbare)
    exfalso
    rcases name with hname | hname
    · rw [UploadFile.bare, hname] at hsome
      cases hsome
    · cases hsome.symm.trans hname
      exact hempty rfl
  | raised bad => exact absurd bad h
  | kept name file stays =>
    obtain ⟨e, hfault, -⟩ := stays
    cases hfault
  -- only the marker is not over the limit
  | @rejected bare name file fails gone row reported d' others free =>
    refine ⟨Option.some_ne_none _, fun bare' hbare => ?_, fun other hother => ?_⟩
    · cases name.symm.trans hbare
      unfold Spoiled
      rw [if_neg]
      · exact free
      · rintro ⟨hmarks, hro⟩
        apply fails
        have hbare := (uploadTarget_eq_some.mp name).1
        refine ⟨rfl, rfl, ?_⟩
        unfold UploadFile.contents spoiler
        dsimp only
        rw [if_pos ⟨hmarks, hbare.trans (congrArg some hro)⟩]
        exact Nat.zero_le _
    · exact others other fun heq => hother (name.trans (congrArg some heq.symm))
  | @stored bare name file arrives =>
    obtain ⟨hmarks, hro⟩ := spoiler_arrives arrives
    cases (uploadTarget_eq_some.mp name).1.symm.trans hro
    obtain ⟨hread, hothers⟩ := withFile_spec file (spoiler marks filename).contents
    have hfile := isFile_of_read hread
    rw [normalizeArrivedFile_marker _ hfile]
    refine ⟨Option.some_ne_none _, fun bare' hbare => ?_, fun other hother => ?_⟩
    · cases name.symm.trans hbare
      unfold Spoiled
      rw [if_pos ⟨hmarks, rfl⟩]
      exact hfile
    · exact hothers other fun heq => hother (name.trans (congrArg some heq.symm))

/-- The folder after the spoilers: of all names reached, only the marker is left. -/
theorem spoilers_leave (zip : ZipFile) (marks : Bool) (filenames : List (Option ClientName))
    (d : Folder) (name : Text) :
    (name ∈ reached d filenames →
      Spoiled marks (streamUploads zip d (filenames.map (spoiler marks))).2 name) ∧
    (name ∉ reached d filenames →
      (streamUploads zip d (filenames.map (spoiler marks))).2.entries.lookup name =
        d.entries.lookup name) := by
  induction filenames generalizing d with
  | nil => exact ⟨fun h => (by cases h), fun _ => rfl⟩
  | cons filename filenames ih =>
    rw [List.map_cons, streamUploads, reached]
    dsimp only
    by_cases hraises : RaisesByName d filename
    · have hstep : (streamUploadToSet zip d (spoiler marks filename)).row = none ∧
          storeStep zip d (spoiler marks filename) = d := storeStep_of_raisesByName zip hraises
      obtain ⟨hrow, hfolder⟩ := hstep
      rw [hrow, if_pos hraises]
      unfold storeStep at hfolder
      exact ⟨fun h => (by cases h), fun _ => by rw [hfolder]⟩
    · obtain ⟨hrow, hown, hothers⟩ := spoiler_step zip marks hraises
      obtain ⟨row, hrow⟩ := Option.ne_none_iff_exists'.mp hrow
      have hrest := ih (storeStep zip d (spoiler marks filename))
      rw [reached_congr (storeStep_directory zip d _)] at hrest
      rw [hrow, if_neg hraises]
      by_cases hlater : name ∈ reached d filenames
      · exact ⟨fun _ => hrest.1 hlater, fun h => absurd (List.mem_append_right _ hlater) h⟩
      · have hsame := hrest.2 hlater
        constructor
        · intro h
          rcases List.mem_append.mp h with h | h
          · have hspoiled := hown name (Option.mem_toList.mp h)
            unfold Spoiled Folder.isFile at hspoiled ⊢
            rw [← hsame] at hspoiled
            exact hspoiled
          · exact absurd h hlater
        · intro h
          refine hsame.trans (hothers name fun htarget => h ?_)
          exact List.mem_append_left _ (Option.mem_toList.mpr htarget)

/-! ### Images -/

def IsImage (d : Folder) (name : Text) : Prop :=
  d.isFile name = true ∧ lower (suffix name) = ".img".toList ∧ '/' ∉ name

instance (d : Folder) (name : Text) : Decidable (IsImage d name) :=
  inferInstanceAs (Decidable (_ ∧ _))

theorem isImage_congr {d d' : Folder} {name : Text}
    (h : d'.entries.lookup name = d.entries.lookup name) : IsImage d' name ↔ IsImage d name := by
  unfold IsImage Folder.isFile
  rw [h]

theorem marked_iff {d : Folder} : d.exists_ roName ↔ d.entries.lookup roName ≠ none := by
  rw [ne_eq, ← Folder.not_exists_iff, not_not]

theorem keptFor_marker (h : KeptFor d d' roName) : d'.exists_ roName ↔ d.exists_ roName := by
  rcases h with hsame | ⟨-, himg, -⟩
  · rw [marked_iff, marked_iff, hsame]
  · exact absurd himg (by decide)

/-- An upload under the name can leave an image: it has the suffix of one, or becomes one under
the next free name. -/
def MakesImage (d : Folder) (name : Text) : Prop :=
  lower (suffix name) = ".img".toList ∨
    lower (suffix name) ∈ [".ima".toList, ".imz".toList] ∧ FitsName (nextAvailable d (asImg name))

instance (d : Folder) (name : Text) : Decidable (MakesImage d name) :=
  inferInstanceAs (Decidable (_ ∨ _))

/-- What has the suffix of an image is the same. -/
def AlikeImages (d d' : Folder) : Prop :=
  ∀ x, lower (suffix x) = ".img".toList → d'.entries.lookup x = d.entries.lookup x

variable {name : Text}

theorem AlikeImages.nextAvailable (h : AlikeImages d d') (hsuffix : suffix name ≠ []) :
    nextAvailable d' (asImg name) = nextAvailable d (asImg name) :=
  nextAvailable_congr hsuffix fun x hx => h x (by rw [hx]; decide)

theorem AlikeImages.makesImage (h : AlikeImages d d') : MakesImage d' name ↔ MakesImage d name := by
  refine or_congr Iff.rfl (and_congr_right fun hsuffix => ?_)
  rw [h.nextAvailable]
  rintro hnil
  rw [hnil] at hsuffix
  exact absurd hsuffix (by decide)

theorem AlikeImages.trans {d'' : Folder} (h : AlikeImages d d') (h' : AlikeImages d' d'') :
    AlikeImages d d'' := fun x hx => (h' x hx).trans (h x hx)

theorem AlikeImages.not_isImage (h : AlikeImages d d') (hno : ∀ x, ¬ IsImage d x) (x : Text) :
    ¬ IsImage d' x :=
  fun himage => hno x ((isImage_congr (h x himage.2.1)).mp himage)

theorem alikeImages_of_others (h : ∀ other, other ≠ name →
    d'.entries.lookup other = d.entries.lookup other) (hname : lower (suffix name) ≠ ".img".toList) :
    AlikeImages d d' := by
  intro x hx
  apply h
  rintro rfl
  exact hname hx

/-- Normalization makes no image of a file whose name leaves it none. -/
theorem normalizeArrivedFile_alikeImages (f : NormalizeFaults) (h : ¬ MakesImage d name) :
    AlikeImages d (normalizeArrivedFile f zip d name).2 := by
  have hlong : lower (suffix name) ∈ [".ima".toList, ".imz".toList] →
      ¬ FitsName (Storage.nextAvailable d (asImg name)) := fun hsuffix hfits =>
    h (Or.inr ⟨hsuffix, hfits⟩)
  have hself : AlikeImages d d := fun _ _ => rfl
  unfold normalizeArrivedFile
  split_ifs with hfile himg hima hrenames himz
  · exact hself
  · refine absurd hrenames.1 ?_
    rw [NormalizeFaults.nameFault, if_neg (hlong (hima ▸ List.mem_cons_self))]
    exact Option.some_ne_none _
  · exact hself
  · rw [extractImz_of_long (hlong (himz ▸ List.mem_cons_of_mem _ List.mem_cons_self))]
    exact hself
  · exact hself
  · exact hself

theorem storeStep_alikeImages (zip : ZipFile)
    (h : ∀ name, uploadTarget u.filename = some name → ¬ MakesImage d name) :
    AlikeImages d (storeStep zip d u) := by
  have hname : ∀ name, uploadTarget u.filename = some name → lower (suffix name) ≠ ".img".toList :=
    fun name htarget himg => h name htarget (Or.inl himg)
  have hself : AlikeImages d d := fun _ _ => rfl
  have hstreamed := streamed zip d u
  unfold storeStep
  generalize (streamUploadToSet zip d u).row = row at hstreamed
  generalize (streamUploadToSet zip d u).folder = d' at hstreamed
  cases hstreamed with
  | badName => exact hself
  | raised => exact hself
  | kept name file stays d' others => exact alikeImages_of_others others (hname _ name)
  | rejected name file fails gone row reported d' others =>
    exact alikeImages_of_others others (hname _ name)
  | @stored bare name file arrives =>
    have hwith : AlikeImages d (withFile d bare u.contents) :=
      alikeImages_of_others (withFile_spec file u.contents).2 (hname _ name)
    exact hwith.trans
      (normalizeArrivedFile_alikeImages u.faults (hwith.makesImage.not.mpr (h _ name)))

/-- A batch in which no name makes an image leaves none. -/
theorem streamUploads_alikeImages (files : List UploadFile) (d : Folder)
    (h : ∀ name ∈ reached d (files.map UploadFile.filename), ¬ MakesImage d name) :
    AlikeImages d (streamUploads zip d files).2 := by
  induction files generalizing d with
  | nil => exact fun _ _ => rfl
  | cons u us ih =>
    unfold streamUploads
    dsimp only
    by_cases hraises : RaisesByName d u.filename
    · obtain ⟨hrow, hfolder⟩ := storeStep_of_raisesByName zip hraises
      rw [hrow]
      unfold storeStep at hfolder
      exact fun _ _ => by rw [hfolder]
    · rw [List.map_cons, reached, if_neg hraises] at h
      have hfirst : AlikeImages d (storeStep zip d u) := storeStep_alikeImages zip
        fun name htarget => h name (List.mem_append_left _ (Option.mem_toList.mpr htarget))
      split
      · exact hfirst
      · refine hfirst.trans (ih (storeStep zip d u) fun name hname => ?_)
        rw [reached_congr (storeStep_directory zip d u)] at hname
        exact hfirst.makesImage.not.mpr (h name (List.mem_append_right _ hname))

/-- An upload of an empty file. -/
def arrival (filename : Option ClientName) : UploadFile := ⟨filename, [], none, none, .none⟩

theorem allows_none (h : MakesImage d name) : NormalizeFaults.none.Allows d name := by
  have hfault : lower (suffix name) ∈ [".ima".toList, ".imz".toList] →
      NormalizeFaults.none.nameFault d name = none := by
    intro hsuffix
    obtain himg | ⟨-, hfits⟩ := h
    · rw [himg] at hsuffix
      exact absurd hsuffix (by decide)
    · exact if_pos hfits
  constructor
  · intro hima
    exact ⟨hfault (hima ▸ List.mem_cons_self), rfl⟩
  · intro himz
    exact ⟨⟨rfl, hfault (himz ▸ List.mem_cons_of_mem _ List.mem_cons_self), rfl⟩, rfl, rfl⟩

/-- Under a name that makes an image, an empty file does, where each archive holds one. -/
theorem arrival_step {filename : Option ClientName} (h : ¬ RaisesByName d filename)
    (htarget : uploadTarget filename = some name) (hmakes : MakesImage d name) :
    (streamUploadToSet emptyImageZip d (arrival filename)).row ≠ none ∧
      ∃ image, IsImage (storeStep emptyImageZip d (arrival filename)) image := by
  have harrives : (arrival filename).Arrives := ⟨rfl, rfl, Nat.zero_le _⟩
  have hstreamed := streamed emptyImageZip d (arrival filename)
  unfold storeStep
  generalize (streamUploadToSet emptyImageZip d (arrival filename)).row = row at hstreamed
  generalize (streamUploadToSet emptyImageZip d (arrival filename)).folder = folder at hstreamed
  cases hstreamed with
  | badName noName row reported =>
    exfalso
    obtain ⟨hbare, hempty, -⟩ := (uploadTarget_eq_some (u := arrival filename)).mp htarget
    rcases noName with hname | hname
    · rw [UploadFile.bare, hname] at hbare
      cases hbare
    · cases hbare.symm.trans hname
      exact hempty rfl
  | raised bad => exact absurd bad h
  | kept name file stays => exact absurd stays harrives.not_stays
  | rejected name file fails => exact absurd harrives fails
  | @stored bare target file arrives =>
    cases target.symm.trans htarget
    obtain ⟨hread, hothers⟩ := withFile_spec file (arrival filename).contents
    obtain ⟨filename', hbare⟩ := bareName_of_bare (uploadTarget_eq_some.mp target).1
    have hslash : '/' ∉ name := hbare ▸ (bareName_spec filename').1
    have himage : imageOf emptyImageZip name (arrival filename).contents = some [] := by
      unfold imageOf
      split_ifs with himz hisImage
      · rfl
      · rfl
      · refine absurd ?_ hisImage
        unfold isImageFile
        rcases hmakes with himg | ⟨hsuffix, -⟩
        · rw [himg]
          decide
        · exact List.mem_cons_of_mem _ hsuffix
    -- the file that was written is no .img, or makes an image by its name alone
    have hmakes' : MakesImage (withFile d name (arrival filename).contents) name := by
      rcases hmakes with himg | ⟨hsuffix, hfits⟩
      · exact Or.inl himg
      · have hnot : lower (suffix name) ≠ ".img".toList := by
          intro himg
          rw [himg] at hsuffix
          exact absurd hsuffix (by decide)
        exact (alikeImages_of_others hothers hnot).makesImage.mpr (Or.inr ⟨hsuffix, hfits⟩)
    obtain ⟨r, d', hresult, -, hfinal, himg, hplain⟩ :=
      normalizeArrivedFile_of_image hread himage (allows_none hmakes')
    change (Option.map _ (normalizeArrivedFile .none _ _ _).1) ≠ none ∧
      ∃ image, IsImage (normalizeArrivedFile .none _ _ _).2 image
    rw [hresult]
    exact ⟨Option.some_ne_none _, r.finalPath, isFile_of_read hfinal, himg, hplain hslash⟩

theorem streamUploads_cons {u : UploadFile} {row : UploadRow}
    (h : (streamUploadToSet zip d u).row = some row) (us : List UploadFile) :
    (streamUploads zip d (u :: us)).2 = (streamUploads zip (storeStep zip d u) us).2 := by
  rw [streamUploads, h]
  rfl

theorem spoiler_alikeImages (hno : ∀ x, ¬ IsImage d x) {filename : Option ClientName}
    (h : ¬ RaisesByName d filename) : AlikeImages d (storeStep zip d (spoiler true filename)) := by
  obtain ⟨-, hown, hothers⟩ := spoiler_step zip true h
  intro x hx
  by_cases htarget : uploadTarget filename = some x
  · obtain ⟨hbare, hempty, hnames⟩ :=
      (uploadTarget_eq_some (u := spoiler true filename)).mp htarget
    obtain ⟨filename', rfl⟩ := bareName_of_bare hbare
    have hspoiled := hown _ htarget
    unfold Spoiled at hspoiled
    rw [if_neg] at hspoiled
    · rw [hspoiled]
      rcases hentry : d.entries.lookup (bareName filename') with _ | (i | _)
      · rfl
      · exact absurd ⟨Folder.isFile_iff.mpr ⟨i, hentry⟩, hx, (bareName_spec filename').1⟩ (hno _)
      · exact absurd (Or.inr ⟨_, hbare, hempty, Or.inr hentry⟩) h
    · rintro ⟨-, hro⟩
      rw [hro] at hx
      exact absurd hx (by decide)
  · exact hothers x htarget

theorem exists_of_spoiled {d : Folder} (h : Spoiled true d roName) : d.exists_ roName := by
  unfold Spoiled at h
  rw [if_pos ⟨rfl, rfl⟩] at h
  obtain ⟨i, hi⟩ := Folder.isFile_iff.mp h
  rw [marked_iff, hi]
  exact Option.some_ne_none _

/-- Where one of the names makes an image and the marker is there or one of the names, a batch can
leave both: all files go over the limit but the markers and the last that makes an image. -/
theorem exists_marked_image (filenames : List (Option ClientName)) (d : Folder)
    (hno : ∀ x, ¬ IsImage d x) (hmark : d.exists_ roName ∨ roName ∈ reached d filenames)
    (himage : ∃ name ∈ reached d filenames, MakesImage d name) :
    ∃ files, files.map UploadFile.filename = filenames ∧
      (streamUploads emptyImageZip d files).2.exists_ roName ∧
      ∃ image, IsImage (streamUploads emptyImageZip d files).2 image := by
  induction filenames generalizing d with
  | nil =>
    obtain ⟨name, hname, -⟩ := himage
    cases hname
  | cons filename filenames ih =>
    rw [reached] at hmark himage
    by_cases hraises : RaisesByName d filename
    · rw [if_pos hraises] at himage
      obtain ⟨name, hname, -⟩ := himage
      cases hname
    rw [if_neg hraises] at hmark himage
    by_cases hlater : ∃ name ∈ reached d filenames, MakesImage d name
    · -- the image is still to come
      obtain ⟨hrow, hown, hothers⟩ := spoiler_step emptyImageZip true hraises
      obtain ⟨row, hrow⟩ := Option.ne_none_iff_exists'.mp hrow
      have hsame : AlikeImages d (storeStep emptyImageZip d (spoiler true filename)) :=
        spoiler_alikeImages hno hraises
      have hreached := reached_congr (storeStep_directory emptyImageZip d (spoiler true filename))
        filenames
      have hmark' : (storeStep emptyImageZip d (spoiler true filename)).exists_ roName ∨
          roName ∈ reached (storeStep emptyImageZip d (spoiler true filename)) filenames := by
        rw [hreached]
        by_cases hro : uploadTarget filename = some roName
        · exact Or.inl (exists_of_spoiled (hown _ hro))
        · rcases hmark with hthere | hmem
          · left
            rw [marked_iff, hothers _ hro, ← marked_iff]
            exact hthere
          · exact Or.inr
              ((List.mem_append.mp hmem).resolve_left fun h => hro (Option.mem_toList.mp h))
      have himage' : ∃ name ∈ reached (storeStep emptyImageZip d (spoiler true filename)) filenames,
          MakesImage (storeStep emptyImageZip d (spoiler true filename)) name := by
        rw [hreached]
        obtain ⟨name, hname, hmakes⟩ := hlater
        exact ⟨name, hname, hsame.makesImage.mpr hmakes⟩
      obtain ⟨files, hfiles, hleft⟩ := ih _ (hsame.not_isImage hno) hmark' himage'
      refine ⟨spoiler true filename :: files, congrArg (filename :: ·) hfiles, ?_⟩
      rw [streamUploads_cons hrow]
      exact hleft
    · -- this is the last name that makes one
      obtain ⟨name, hname, hmakes⟩ := himage
      have htarget : uploadTarget filename = some name :=
        Option.mem_toList.mp ((List.mem_append.mp hname).resolve_right fun h =>
          hlater ⟨name, h, hmakes⟩)
      have hro : name ≠ roName := by
        rintro rfl
        exact absurd hmakes (by rintro (h | ⟨h, -⟩) <;> exact absurd h (by decide))
      obtain ⟨hrow, image, himage⟩ := arrival_step hraises htarget hmakes
      obtain ⟨row, hrow⟩ := Option.ne_none_iff_exists'.mp hrow
      have hleave := spoilers_leave emptyImageZip true filenames
        (storeStep emptyImageZip d (arrival filename))
      rw [reached_congr (storeStep_directory emptyImageZip d (arrival filename))] at hleave
      refine ⟨arrival filename :: filenames.map (spoiler true), ?_, ?_, image, ?_⟩
      · rw [List.map_cons, List.map_map]
        exact congrArg (filename :: ·) (List.map_id filenames)
      · rw [streamUploads_cons hrow]
        by_cases hmem : roName ∈ reached d filenames
        · exact exists_of_spoiled ((hleave roName).1 hmem)
        · have hthere : d.exists_ roName := by
            refine hmark.resolve_right fun h => ?_
            rcases List.mem_append.mp h with h | h
            · exact hro (Option.some_inj.mp (htarget.symm.trans (Option.mem_toList.mp h)))
            · exact hmem h
          rw [marked_iff, (hleave roName).2 hmem, ← marked_iff]
          refine (keptFor_marker (storeStep_kept fun h => hro ?_)).mpr hthere
          exact Option.some_inj.mp (htarget.symm.trans h)
      · rw [streamUploads_cons hrow]
        refine (isImage_congr ((hleave image).2 fun hmem => ?_)).mpr himage
        exact hlater ⟨image, hmem, Or.inl himage.2.1⟩

end UsbFloppy.Web
