import UsbFloppy.Web.Spoilers

/-! Whether an upload can change the write protection of a set: the marker is a file of the same
folder, under a name that a client may send. -/

namespace UsbFloppy.Web
open Files Gadget Storage Transition

/-! ### Sets -/

def HasImage (t : Tree) (p : Path) : Prop := ∃ name, IsImage (t.folder p.asPosix) name

def Marked (t : Tree) (p : Path) : Prop := (t.folder p.asPosix).exists_ roName

instance (t : Tree) (p : Path) : Decidable (Marked t p) :=
  inferInstanceAs (Decidable (Folder.exists_ _ _))

/-- The set that a folder makes. Its marker may be a folder as well. -/
def setOf (t : Tree) (p : Path) : FloppySet := { scanFolder t.toFs p with readOnly := Marked t p }

/-- `scan`, of a tree. -/
def scanTree (t : Tree) (root : Path) : List FloppySet :=
  (scan t.toFs root).map fun s => setOf t s.path

variable {t t' : Tree} {root p : Path}

theorem pathExists_toFs (q : Path) :
    pathExists t.toFs q = true ↔ (t.folder q.dir).isFile q.name = true := by
  have hinode : (t.inode q.dir q.name).isSome ↔ (t.folder q.dir).isFile q.name = true := by
    rw [Option.isSome_iff_exists, Folder.isFile_iff]
    exact exists_congr fun i => Tree.inode_eq_some
  rw [← hinode]
  unfold pathExists resolve followLinks
  rw [Tree.lookup_toFs]
  split_ifs with hsome
  · exact iff_of_true rfl hsome
  · exact iff_of_false (fun h => by cases h) hsome

theorem scanFolder_disks : (scanFolder t.toFs p).disks ≠ [] ↔ HasImage t p := by
  constructor
  · intro h
    obtain ⟨image, himage⟩ := List.exists_mem_of_ne_nil _ h
    obtain ⟨hdir, hexists⟩ := mem_imagesIn.mp himage
    rw [pathExists_toFs, hdir] at hexists
    exact ⟨image.1.name, hexists, image.2, image.1.noSlash⟩
  · rintro ⟨name, hfile, himg, hslash⟩
    have hmem : (⟨⟨p.asPosix, name, hslash⟩, himg⟩ : Image) ∈ (scanFolder t.toFs p).disks :=
      mem_imagesIn.mpr ⟨rfl, (pathExists_toFs _).mpr hfile⟩
    exact List.ne_nil_of_mem hmem

theorem mem_scanTree {s : FloppySet} :
    s ∈ scanTree t root ↔ ∃ p, p.dir = root.asPosix ∧ HasImage t p ∧ s = setOf t p := by
  unfold scanTree
  rw [List.mem_map]
  constructor
  · rintro ⟨s', hs', rfl⟩
    obtain ⟨p, hdir, rfl, hdisks⟩ := mem_scan.mp hs'
    exact ⟨p, hdir, scanFolder_disks.mp hdisks, rfl⟩
  · rintro ⟨p, hdir, himage, rfl⟩
    exact ⟨scanFolder t.toFs p, mem_scan.mpr ⟨p, hdir, rfl, scanFolder_disks.mpr himage⟩, rfl⟩

/-- Every set that was listed still is, with the same flag, and a set that was not listed before
is not read-only. -/
structure ProtectionKept (root : Path) (t t' : Tree) : Prop where
  listed : ∀ s ∈ scanTree t root,
    ∃ s' ∈ scanTree t' root, s'.path = s.path ∧ s'.readOnly = s.readOnly
  created : ∀ s' ∈ scanTree t' root, (∀ s ∈ scanTree t root, s.path ≠ s'.path) →
    s'.readOnly = false

theorem protectionKept_iff : ProtectionKept root t t' ↔
    (∀ p, p.dir = root.asPosix → HasImage t p → HasImage t' p ∧ (Marked t' p ↔ Marked t p)) ∧
      ∀ p : Path, p.dir = root.asPosix → ¬ HasImage t p → HasImage t' p → ¬ Marked t' p := by
  constructor
  · intro h
    constructor
    · intro p hdir himage
      obtain ⟨s', hs', hpath, hro⟩ := h.listed _ (mem_scanTree.mpr ⟨p, hdir, himage, rfl⟩)
      obtain ⟨p', -, himage', rfl⟩ := mem_scanTree.mp hs'
      obtain rfl : p' = p := hpath
      exact ⟨himage', decide_eq_decide.mp hro⟩
    · intro p hdir hold hnew
      refine of_decide_eq_false (h.created _ (mem_scanTree.mpr ⟨p, hdir, hnew, rfl⟩) ?_)
      intro s hs hpath
      obtain ⟨p', -, himage', rfl⟩ := mem_scanTree.mp hs
      obtain rfl : p' = p := hpath
      exact hold himage'
  · rintro ⟨hlisted, hcreated⟩
    constructor
    · intro s hs
      obtain ⟨p, hdir, himage, rfl⟩ := mem_scanTree.mp hs
      obtain ⟨himage', hmarked⟩ := hlisted p hdir himage
      exact ⟨setOf t' p, mem_scanTree.mpr ⟨p, hdir, himage', rfl⟩, rfl, decide_eq_decide.mpr hmarked⟩
    · intro s' hs' hnew
      obtain ⟨p, hdir, himage, rfl⟩ := mem_scanTree.mp hs'
      refine decide_eq_false (hcreated p hdir (fun hold => ?_) himage)
      exact hnew _ (mem_scanTree.mpr ⟨p, hdir, hold, rfl⟩) rfl

/-! ### The request -/

/-- Where there was a set, none of the uploads that are reached is named like the marker, and some
image of it has a name that none of them has. Where there was none, there is no marker, neither in
the folder nor among them, or none of them makes an image. -/
def Harmless (root : Path) (sets : List FloppySet) (t : Tree) (set : Text)
    (filenames : List (Option ClientName)) (createNew : Bool) : Prop :=
  ∀ target t', resolveTargetSet root sets t set createNew = .ok (target, t') →
    (HasImage t target → roName ∉ reached (t'.folder target.asPosix) filenames ∧
      ∃ image, IsImage (t.folder target.asPosix) image ∧
        image ∉ reached (t'.folder target.asPosix) filenames) ∧
    (¬ HasImage t target → target.asPosix ∈ t'.dirs →
      Marked t' target ∨ roName ∈ reached (t'.folder target.asPosix) filenames →
        ∀ name ∈ reached (t'.folder target.asPosix) filenames,
          ¬ MakesImage (t'.folder target.asPosix) name)

variable {sets : List FloppySet} {set : Text} {files : List UploadFile} {createNew : Bool}
  {target : Path} {fs : Fs}

theorem postUpload_tree (hfiles : files ≠ [])
    (hresolve : resolveTargetSet root sets t set createNew = .ok (target, t')) :
    (postUpload zip root sets t set files createNew).2 = t'.setFolder target.asPosix
      (streamUploads zip (t'.folder target.asPosix) (filesFor t' target files)).2 := by
  unfold postUpload
  rw [if_neg hfiles, hresolve]
  dsimp only
  rcases streamUploads zip (t'.folder target.asPosix) (filesFor t' target files) with ⟨_ | rows, d⟩
  · rfl
  · rfl

theorem filesFor_filename (t : Tree) (target : Path) (files : List UploadFile) :
    (filesFor t target files).map UploadFile.filename = files.map UploadFile.filename := by
  unfold filesFor
  split_ifs
  · rfl
  · rw [List.map_map]
    rfl

theorem asPosix_ne_root (h : p.dir = root.asPosix) : p.asPosix ≠ root.asPosix := by
  intro heq
  have hlength := congrArg List.length heq
  rw [Path.asPosix, h, List.length_append, List.length_cons] at hlength
  omega

theorem resolved_others (hresolve : resolveTargetSet root (scan fs root) t set createNew =
      .ok (target, t')) (hdir : p.dir = root.asPosix) (hne : p ≠ target) :
    (t'.folder p.asPosix).entries = (t.folder p.asPosix).entries ∧
      (p.asPosix ∈ t'.dirs → p.asPosix ∈ t.dirs) := by
  obtain ⟨-, -, -, -, hresolved⟩ := resolved_of_ok hresolve
  have hpath := hresolved.path_eq.1
  have hself : p.asPosix ≠ target.asPosix := fun h => hne (Path.asPosix_injective h)
  have hroot : p.asPosix ≠ target.dir := by
    rw [hpath]
    exact asPosix_ne_root hdir
  cases hresolved with
  | listed set => exact ⟨rfl, id⟩
  | found unlisted noSlash there => exact ⟨rfl, id⟩
  | made unlisted noSlash mkdir =>
    refine ⟨(Tree.mkdir_spec mkdir).2.2.2 _ hself hroot, fun hmem => ?_⟩
    rw [Tree.mkdir_dirs mkdir] at hmem
    rcases List.mem_cons.mp hmem with h | h
    · exact absurd h hself
    · split_ifs at h
      · exact h
      · exact (List.mem_cons.mp h).resolve_left hroot

/-- The folder of the set is the one that was there, or new and empty. -/
theorem resolved_target (hresolve : resolveTargetSet root (scan fs root) t set createNew =
      .ok (target, t')) :
    t' = t ∨ target.asPosix ∉ t.dirs ∧ target.asPosix ∈ t'.dirs ∧
      (t'.folder target.asPosix).entries = ∅ := by
  obtain ⟨-, -, -, -, hresolved⟩ := resolved_of_ok hresolve
  cases hresolved with
  | listed set => exact Or.inl rfl
  | found unlisted noSlash there => exact Or.inl rfl
  | made unlisted noSlash mkdir =>
    obtain ⟨hold, hnew, hempty, -⟩ := Tree.mkdir_spec mkdir
    exact Or.inr ⟨hold, hnew, hempty⟩

theorem HasImage.mem_dirs (h : HasImage t p) : p.asPosix ∈ t.dirs := by
  obtain ⟨name, hfile, -⟩ := h
  obtain ⟨i, hi⟩ := Folder.isFile_iff.mp hfile
  exact Tree.dir_of_inode (Tree.inode_eq_some.mpr hi)

theorem marked_congr {d : Folder} (h : (t.folder p.asPosix).entries = d.entries) :
    Marked t p ↔ d.exists_ roName := by
  unfold Marked Folder.exists_
  rw [h]

theorem protectionKept_refl (root : Path) (t : Tree) : ProtectionKept root t t where
  listed s hs := ⟨s, hs, rfl, rfl⟩
  created s hs hnew := absurd rfl (hnew s hs)

theorem keptFor_image {name : Text} (h : KeptFor d d' name) (himage : IsImage d name) :
    IsImage d' name := by
  rcases h with hsame | ⟨hfree, -⟩
  · exact (isImage_congr hsame).mpr himage
  · obtain ⟨i, hi⟩ := Folder.isFile_iff.mp himage.1
    cases hi.symm.trans hfree

theorem other_kept (hresolve : resolveTargetSet root (scan fs root) t set createNew =
      .ok (target, t')) (d' : Folder) (hdir : p.dir = root.asPosix) (hne : p ≠ target)
    (himage : HasImage t p) : HasImage (t'.setFolder target.asPosix d') p ∧
      (Marked (t'.setFolder target.asPosix d') p ↔ Marked t p) := by
  have hentries : ((t'.setFolder target.asPosix d').folder p.asPosix).entries =
      (t.folder p.asPosix).entries := by
    rw [Tree.setFolder_folder_of_ne fun h => hne (Path.asPosix_injective h)]
    exact (resolved_others hresolve hdir hne).1
  obtain ⟨image, hold⟩ := himage
  exact ⟨⟨image, (isImage_congr (by rw [hentries])).mpr hold⟩, marked_congr hentries⟩

theorem target_kept {d' : Folder} (hthere : target.asPosix ∈ t.dirs) {image : Text}
    (himage : IsImage (t.folder target.asPosix) image)
    (hkept : KeptFor (t.folder target.asPosix) d' image)
    (hmarker : KeptFor (t.folder target.asPosix) d' roName) :
    HasImage (t.setFolder target.asPosix d') target ∧
      (Marked (t.setFolder target.asPosix d') target ↔ Marked t target) := by
  have hentries : ((t.setFolder target.asPosix d').folder target.asPosix).entries = d'.entries :=
    Tree.setFolder_folder_self hthere
  constructor
  · refine ⟨image, (isImage_congr ?_).mpr (keptFor_image hkept himage)⟩
    rw [hentries]
  · rw [marked_congr hentries]
    exact keptFor_marker hmarker

theorem not_isImage_of_resolved (hresolve : resolveTargetSet root (scan fs root) t set createNew =
      .ok (target, t')) (hold : ¬ HasImage t target) (name : Text) :
    ¬ IsImage (t'.folder target.asPosix) name := by
  intro himage
  rcases resolved_target hresolve with rfl | ⟨-, -, hempty⟩
  · exact hold ⟨name, himage⟩
  · obtain ⟨i, hi⟩ := Folder.isFile_iff.mp himage.1
    rw [hempty] at hi
    cases hi

theorem kept_of_harmless {filenames : List (Option ClientName)}
    (h : Harmless root (scan fs root) t set filenames createNew)
    (hfiles : files.map UploadFile.filename = filenames) :
    ProtectionKept root t (postUpload zip root (scan fs root) t set files createNew).2 := by
  by_cases hempty : files = []
  · rw [postUpload, if_pos hempty]
    exact protectionKept_refl root t
  rcases hresolve : resolveTargetSet root (scan fs root) t set createNew with e | ⟨target, t'⟩
  · rw [postUpload, if_neg hempty, hresolve]
    exact protectionKept_refl root t
  rw [postUpload_tree hempty hresolve, protectionKept_iff]
  obtain ⟨hset, hnone⟩ := h target t' hresolve
  have hnames : (filesFor t' target files).map UploadFile.filename = filenames := by
    rw [filesFor_filename, hfiles]
  have hkept : ∀ name, name ∉ reached (t'.folder target.asPosix) filenames →
      KeptFor (t'.folder target.asPosix) (streamUploads zip (t'.folder target.asPosix)
        (filesFor t' target files)).2 name := by
    intro name hname
    apply streamUploads_kept
    rw [hnames]
    exact hname
  -- the sets of before keep their flag and an image; no new set is marked
  constructor
  · intro p hdir himage
    by_cases hp : p = target
    · subst hp
      obtain rfl : t' = t := (resolved_target hresolve).resolve_right fun hnew =>
        hnew.1 himage.mem_dirs
      obtain ⟨hmarker, image, hold, hnot⟩ := hset himage
      exact target_kept himage.mem_dirs hold (hkept image hnot) (hkept roName hmarker)
    · exact other_kept hresolve _ hdir hp himage
  · intro p hdir hold himage hmarked
    by_cases hp : p = target
    · subst hp
      have hthere : p.asPosix ∈ t'.dirs := himage.mem_dirs
      have hentries : ((t'.setFolder p.asPosix (streamUploads zip (t'.folder p.asPosix)
          (filesFor t' p files)).2).folder p.asPosix).entries =
            (streamUploads zip (t'.folder p.asPosix) (filesFor t' p files)).2.entries :=
        Tree.setFolder_folder_self hthere
      have hmark : Marked t' p ∨ roName ∈ reached (t'.folder p.asPosix) filenames := by
        by_contra hno
        obtain ⟨hunmarked, hmem⟩ := not_or.mp hno
        exact hunmarked
          ((keptFor_marker (hkept roName hmem)).mp ((marked_congr hentries).mp hmarked))
      have hnoImage := hnone hold hthere hmark
      obtain ⟨name, hname⟩ := himage
      have hsame : AlikeImages (t'.folder p.asPosix) (streamUploads zip (t'.folder p.asPosix)
          (filesFor t' p files)).2 := by
        apply streamUploads_alikeImages
        rw [hnames]
        exact hnoImage
      refine hsame.not_isImage (not_isImage_of_resolved hresolve hold) name ?_
      exact (isImage_congr (by rw [hentries])).mp hname
    · have hentries : ((t'.setFolder target.asPosix (streamUploads zip (t'.folder target.asPosix)
          (filesFor t' target files)).2).folder p.asPosix).entries =
          (t.folder p.asPosix).entries := by
        rw [Tree.setFolder_folder_of_ne fun h => hp (Path.asPosix_injective h)]
        exact (resolved_others hresolve hdir hp).1
      obtain ⟨name, hname⟩ := himage
      exact hold ⟨name, (isImage_congr (by rw [hentries])).mp hname⟩

/-- What is promised of every request with these filenames. -/
def AlwaysKept (root : Path) (sets : List FloppySet) (t : Tree) (set : Text)
    (filenames : List (Option ClientName)) (createNew : Bool) : Prop :=
  ∀ zip files, files.map UploadFile.filename = filenames →
    ProtectionKept root t (postUpload zip root sets t set files createNew).2

theorem spoiled_tree (marks : Bool) {filenames : List (Option ClientName)}
    (hfilenames : filenames ≠ [])
    (hresolve : resolveTargetSet root (scan fs root) t set createNew = .ok (target, t'))
    (hthere : target.asPosix ∈ t'.dirs)
    (h : AlwaysKept root (scan fs root) t set filenames createNew) :
    ∃ t'' : Tree, ProtectionKept root t t'' ∧ target.asPosix ∈ t''.dirs ∧ ∀ name,
      (name ∈ reached (t'.folder target.asPosix) filenames →
        Spoiled marks (t''.folder target.asPosix) name) ∧
      (name ∉ reached (t'.folder target.asPosix) filenames →
        (t''.folder target.asPosix).entries.lookup name =
          (t'.folder target.asPosix).entries.lookup name) := by
  have hfiles : filenames.map (spoiler marks) ≠ [] := fun h => hfilenames (List.map_eq_nil_iff.mp h)
  have hkept := h noZip (filenames.map (spoiler marks)) (by
    rw [List.map_map]
    exact List.map_id filenames)
  rw [postUpload_tree hfiles hresolve, filesFor, if_pos hthere] at hkept
  refine ⟨_, hkept, hthere, fun name => ?_⟩
  have hleave := spoilers_leave noZip marks filenames (t'.folder target.asPosix) name
  unfold Spoiled Folder.isFile at hleave ⊢
  rw [Tree.setFolder_folder_self hthere]
  exact hleave

theorem lookup_of_spoiled {d : Folder} {name : Text} (h : Spoiled false d name) :
    d.entries.lookup name = none := by
  unfold Spoiled at h
  rwa [if_neg fun hmarks => by cases hmarks.1] at h

theorem harmless_of_alwaysKept {filenames : List (Option ClientName)}
    (h : AlwaysKept root (scan fs root) t set filenames createNew) :
    Harmless root (scan fs root) t set filenames createNew := by
  intro target t' hresolve
  have hdir : target.dir = root.asPosix := (resolved_of_ok hresolve).2.2.2.2.path_eq.1
  refine ⟨fun himage => ?_, fun hold hthere hmark name hname hmakes => ?_⟩
  · by_cases hfilenames : filenames = []
    · subst hfilenames
      obtain ⟨image, himage⟩ := himage
      exact ⟨nofun, image, himage, nofun⟩
    obtain rfl : t' = t := (resolved_target hresolve).resolve_right fun hnew =>
      hnew.1 himage.mem_dirs
    obtain ⟨t'', hkept, hthere, hleft⟩ := spoiled_tree false hfilenames hresolve himage.mem_dirs h
    obtain ⟨⟨name, himage''⟩, hmarked''⟩ := (protectionKept_iff.mp hkept).1 target hdir himage
    -- a marker among the names: over the limit it unmarks the set, else it marks it
    refine ⟨fun hmarker => ?_, ?_⟩
    · by_cases hmarked : Marked t' target
      · have hgone := lookup_of_spoiled ((hleft roName).1 hmarker)
        exact marked_iff.mp (hmarked''.mpr hmarked) hgone
      · obtain ⟨t₂, hkept₂, hthere₂, hleft₂⟩ :=
          spoiled_tree true hfilenames hresolve himage.mem_dirs h
        refine hmarked (((protectionKept_iff.mp hkept₂).1 target hdir himage).2.mp ?_)
        exact exists_of_spoiled ((hleft₂ roName).1 hmarker)
    · -- if all images had their names among these, none would be left
      by_cases hname : name ∈ reached (t'.folder target.asPosix) filenames
      · have hgone := lookup_of_spoiled ((hleft name).1 hname)
        obtain ⟨i, hi⟩ := Folder.isFile_iff.mp himage''.1
        cases hi.symm.trans hgone
      · exact ⟨name, (isImage_congr ((hleft name).2 hname)).mp himage'', hname⟩
  · -- the files that leave the marker and an image
    obtain ⟨files, hfiles, hmarked, image, himage⟩ := exists_marked_image filenames
      (t'.folder target.asPosix) (not_isImage_of_resolved hresolve hold) hmark ⟨name, hname, hmakes⟩
    have hnonempty : files ≠ [] := by
      rintro rfl
      rw [List.map_nil] at hfiles
      rw [← hfiles] at hname
      cases hname
    have hkept := h emptyImageZip files hfiles
    rw [postUpload_tree hnonempty hresolve, filesFor, if_pos hthere] at hkept
    have hentries : ((t'.setFolder target.asPosix (streamUploads emptyImageZip
        (t'.folder target.asPosix) files).2).folder target.asPosix).entries =
          (streamUploads emptyImageZip (t'.folder target.asPosix) files).2.entries :=
      Tree.setFolder_folder_self hthere
    refine (protectionKept_iff.mp hkept).2 target hdir hold ⟨image, ?_⟩ ?_
    · exact (isImage_congr (by rw [hentries])).mpr himage
    · exact (marked_congr hentries).mpr hmarked

end UsbFloppy.Web
