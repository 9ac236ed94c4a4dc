import UsbFloppy.Web.PostUpload

/-! What post_upload does to files and folders, call by call, by the paths it passes to the
kernel. -/

namespace UsbFloppy.Web
open Files Gadget Storage Transition

/-! ### Paths -/

/-- How the kernel follows one part of a path. -/
def follow (at_ : List Text) (part : Text) : List Text :=
  if part = [] ∨ part = ['.'] then at_
  else if part = "..".toList then at_.dropLast
  else at_ ++ [part]

/-- Where a path leads, in a tree without symlinks. -/
def location (p : Text) : List Text := (p.splitOn '/').foldl follow []

/-- `str(dir / name)`, for a name without a slash. -/
def entry (dir name : Text) : Text := dir ++ '/' :: name

theorem location_entry {dir name : Text} (hslash : '/' ∉ name) :
    location (entry dir name) = follow (location dir) name := by
  unfold location entry
  rw [List.splitOn_append_cons_self, List.splitOn_eq_singleton hslash, List.foldl_append]
  rfl

/-- A name that leads one step down. -/
structure Proper (name : Text) : Prop where
  noSlash : '/' ∉ name
  nonempty : name ≠ []
  notSelf : name ≠ ['.']
  notParent : name ≠ "..".toList

theorem Proper.location {dir name : Text} (h : Proper name) :
    location (entry dir name) = Web.location dir ++ [name] := by
  rw [location_entry h.noSlash, follow, if_neg (not_or.mpr ⟨h.nonempty, h.notSelf⟩),
    if_neg h.notParent]

theorem location_parent (dir : Text) :
    location (entry dir "..".toList) = (location dir).dropLast := by
  rw [location_entry (by decide)]
  rfl

theorem proper_of_suffix {name : Text} (hslash : '/' ∉ name) (hsuffix : suffix name ≠ []) :
    Proper name := by
  refine ⟨hslash, ?_, ?_, ?_⟩ <;> rintro rfl <;> exact hsuffix (by decide)

theorem proper_of_head {name : Text} (hslash : '/' ∉ name) (hempty : name ≠ [])
    (hdot : name.head? ≠ some '.') : Proper name := by
  refine ⟨hslash, hempty, ?_, ?_⟩ <;> rintro rfl <;> exact hdot rfl

/-! ### Calls -/

/-- A call that makes a folder, opens a file for writing, renames or deletes. -/
inductive FileCall
  | mkdir (p : Text)
  | openWb (p : Text)
  | rename (p q : Text)
  | unlink (p : Text)

/-- The calls of `_extract_imz`. -/
def extractCalls (f : NormalizeFaults) (zip : ZipFile) (dir : Text) (d : Folder) (archive : Text) :
    List FileCall :=
  match f.reads zip ((d.read archive).getD []) with
  | .error _ => []
  | .ok members =>
    match innerMember members with
    | none => []
    | some m =>
      match f.nameFault d archive, m.opened with
      | none, .ok () =>
        .openWb (entry dir (nextAvailable d (asImg archive))) ::
          match f.opening, m.contents, f.writing with
          | none, .ok _, none => [.unlink (entry dir archive)]
          | _, _, _ => []
      | _, _ => []

def normalizeCalls (f : NormalizeFaults) (zip : ZipFile) (dir : Text) (d : Folder) (name : Text) :
    List FileCall :=
  if d.isFile name then
    if lower (suffix name) = ".ima".toList then
      if f.nameFault d name = none then
        [.rename (entry dir name) (entry dir (nextAvailable d (asImg name)))]
      else []
    else if lower (suffix name) = ".imz".toList then extractCalls f zip dir d name
    else []
  else []

/-- The calls of `_stream_upload_to_set`. A name with a NUL does not get as far as the kernel. -/
def uploadCalls (zip : ZipFile) (dir : Text) (d : Folder) (u : UploadFile) : List FileCall :=
  match u.bare with
  | none => []
  | some bare =>
    if bare = [] ∨ '\x00' ∈ bare then []
    else
      .openWb (entry dir bare) ::
        if NamesFile bare ∧ d.entries.lookup bare ≠ some .directory ∧ u.Arrives then
          normalizeCalls u.faults zip dir (withFile d bare u.contents) bare
        else [.unlink (entry dir bare)]

/-- The calls of the uploads up to the first exception. -/
def batchCalls (zip : ZipFile) (dir : Text) : Folder → List UploadFile → List FileCall
  | _, [] => []
  | d, u :: us =>
    uploadCalls zip dir d u ++
      match (streamUploadToSet zip d u).row with
      | none => []
      | some _ => batchCalls zip dir (storeStep zip d u) us

/-- The folders that `t'` has more than `t` were made. -/
def mkdirCalls (t t' : Tree) : List FileCall :=
  (t'.dirs.filter fun dir => dir ∉ t.dirs).reverse.map .mkdir

def postUploadCalls (zip : ZipFile) (root : Path) (sets : List FloppySet) (t : Tree) (set : Text)
    (files : List UploadFile) (createNew : Bool) : List FileCall :=
  if files = [] then []
  else
    match resolveTargetSet root sets t set createNew with
    | .error _ => []
    | .ok (target, t') =>
      mkdirCalls t t' ++ batchCalls zip target.asPosix (t'.folder target.asPosix)
        (filesFor t' target files)

/-! ### The calls are all there is -/

def FileCall.paths : FileCall → List Text
  | .mkdir p => [p]
  | .openWb p => [p]
  | .rename p q => [p, q]
  | .unlink p => [p]

variable {f : NormalizeFaults} {zip : ZipFile} {d : Folder} {u : UploadFile} {root : Path}
  {t t' : Tree} {dir folder name other : Text}

theorem extractCalls_cover (dir : Text)
    (h : (extractImz f zip d name).2.entries.lookup other ≠ d.entries.lookup other) :
    ∃ c ∈ extractCalls f zip dir d name, entry dir other ∈ c.paths := by
  have hcreated : ∀ {c : List FileCall}, (d.create (nextAvailable d (asImg name))).entries.lookup
      other ≠ d.entries.lookup other →
        ∃ x ∈ .openWb (entry dir (nextAvailable d (asImg name))) :: c, entry dir other ∈ x.paths := by
    intro c hne
    refine ⟨_, List.mem_cons_self, ?_⟩
    by_contra hother
    refine hne (Folder.create_lookup_of_ne fun heq => hother ?_)
    rw [heq]
    exact List.mem_cons_self
  unfold extractCalls
  have hextraction := extraction f zip d name
  generalize extractImz f zip d name = result at hextraction h
  cases hextraction with
  | unreadable unread => exact absurd rfl h
  | empty read inner => exact absurd rfl h
  | unnamed read inner unnamed => exact absurd rfl h
  | unopened read inner named unopened => exact absurd rfl h
  | uncreated read inner named opened uncreated => exact absurd rfl h
  | damaged read inner named opened =>
    simp only [read, inner, named, opened]
    exact hcreated h
  | cutOff read inner named opened =>
    simp only [read, inner, named, opened]
    exact hcreated h
  | kept read inner named opened =>
    simp only [read, inner, named, opened]
    exact hcreated h
  | extracted read inner named opened created contents written =>
    simp only [read, inner, named, opened, created, contents, written]
    by_cases hname : other = name
    · refine ⟨.unlink (entry dir name), .tail _ (.head _), ?_⟩
      rw [hname]
      exact List.mem_cons_self
    · dsimp only at h
      rw [Folder.unlink_lookup_of_ne hname] at h
      exact hcreated h

theorem normalizeCalls_cover (dir : Text)
    (h : (normalizeArrivedFile f zip d name).2.entries.lookup other ≠ d.entries.lookup other) :
    ∃ c ∈ normalizeCalls f zip dir d name, entry dir other ∈ c.paths := by
  unfold normalizeArrivedFile at h
  unfold normalizeCalls
  split_ifs at h with hfile himg hima hrenames himz
  · exact absurd rfl h
  · rw [if_pos hfile, if_pos hima, if_pos hrenames.1]
    refine ⟨_, List.mem_cons_self, ?_⟩
    obtain ⟨i, hi⟩ := Folder.isFile_iff.mp hfile
    dsimp only at h
    rw [Folder.rename_lookup hi] at h
    by_cases htarget : other = nextAvailable d (asImg name)
    · rw [htarget]
      exact .tail _ (.head _)
    · by_cases hname : other = name
      · rw [hname]
        exact .head _
      · rw [if_neg htarget, if_neg hname] at h
        exact absurd rfl h
  · exact absurd rfl h
  · rw [if_pos hfile, if_neg hima, if_pos himz]
    exact extractCalls_cover dir h
  · exact absurd rfl h
  · exact absurd rfl h

theorem uploadCalls_cover (dir : Text)
    (h : (storeStep zip d u).entries.lookup other ≠ d.entries.lookup other) :
    ∃ c ∈ uploadCalls zip dir d u, entry dir other ∈ c.paths := by
  have hcalls : ∀ bare, uploadTarget u.filename = some bare →
      uploadCalls zip dir d u = .openWb (entry dir bare) ::
        if NamesFile bare ∧ d.entries.lookup bare ≠ some .directory ∧ u.Arrives then
          normalizeCalls u.faults zip dir (withFile d bare u.contents) bare
        else [.unlink (entry dir bare)] := by
    intro bare htarget
    obtain ⟨hbare, hempty, hnames⟩ := uploadTarget_eq_some.mp htarget
    unfold uploadCalls
    rw [hbare]
    exact if_neg (not_or.mpr ⟨hempty, hnames.2.1⟩)
  have hown : ∀ bare, uploadTarget u.filename = some bare → other = bare →
      ∃ c ∈ uploadCalls zip dir d u, entry dir other ∈ c.paths := by
    intro bare htarget hother
    refine ⟨.openWb (entry dir bare), ?_, ?_⟩
    · rw [hcalls bare htarget]
      exact List.mem_cons_self
    · rw [hother]
      exact List.mem_cons_self
  have hstreamed := streamed zip d u
  unfold storeStep at h
  generalize (streamUploadToSet zip d u).row = row at hstreamed
  generalize (streamUploadToSet zip d u).folder = d' at hstreamed h
  cases hstreamed with
  | badName name row reported => exact absurd rfl h
  | raised bad => exact absurd rfl h
  | @kept bare name file stays d' others =>
    apply hown bare name
    by_contra hne
    exact h (others other hne)
  | @rejected bare name file fails gone row reported d' others =>
    apply hown bare name
    by_contra hne
    exact h (others other hne)
  | @stored bare name file arrives =>
    by_cases hother : other = bare
    · exact hown bare name hother
    · rw [← (withFile_spec file u.contents).2 other hother] at h
      obtain ⟨c, hc, hpath⟩ := normalizeCalls_cover dir h
      refine ⟨c, ?_, hpath⟩
      rw [hcalls bare name, if_pos ⟨(uploadTarget_eq_some.mp name).2.2, file, arrives⟩]
      exact .tail _ hc

theorem batchCalls_cons {u : UploadFile} {row : UploadRow}
    (h : (streamUploadToSet zip d u).row = some row) (dir : Text) (us : List UploadFile) :
    batchCalls zip dir d (u :: us) =
      uploadCalls zip dir d u ++ batchCalls zip dir (storeStep zip d u) us := by
  rw [batchCalls, h]

theorem batchCalls_cover (dir : Text) (files : List UploadFile) (d : Folder)
    (h : (streamUploads zip d files).2.entries.lookup other ≠ d.entries.lookup other) :
    ∃ c ∈ batchCalls zip dir d files, entry dir other ∈ c.paths := by
  induction files generalizing d with
  | nil => exact absurd rfl h
  | cons u us ih =>
    by_cases hfirst : (storeStep zip d u).entries.lookup other = d.entries.lookup other
    · unfold streamUploads at h
      dsimp only at h
      split at h
      · exact absurd hfirst h
      · rename_i row hrow
        rw [← hfirst] at h
        obtain ⟨c, hc, hpath⟩ := ih (storeStep zip d u) h
        rw [batchCalls_cons hrow]
        exact ⟨c, List.mem_append_right _ hc, hpath⟩
    · obtain ⟨c, hc, hpath⟩ := uploadCalls_cover dir hfirst
      unfold batchCalls
      exact ⟨c, List.mem_append_left _ hc, hpath⟩

/-! ### Containment -/

/-- The path leads to a file right below the folder of that name, itself right below the root. -/
def InFolder (root : Path) (folder p : Text) : Prop :=
  ∃ name, location p = location root.asPosix ++ [folder, name]

/-- Folders are made right below the root, and files touched right below one of them. -/
def Contained (root : Path) (folder : Text) : FileCall → Prop
  | .mkdir p => location p = location root.asPosix ++ [folder]
  | .openWb p => InFolder root folder p
  | .rename p q => InFolder root folder p ∧ InFolder root folder q
  | .unlink p => InFolder root folder p

/-- The call is to open or to delete a folder as a file, which fails. -/
def OnFolder (t : Tree) : FileCall → Prop
  | .openWb p => ∃ dir ∈ t.dirs, location dir = location p
  | .unlink p => ∃ dir ∈ t.dirs, location dir = location p
  | _ => False

theorem inFolder_entry (hdir : location dir = location root.asPosix ++ [folder])
    (hname : Proper name) : InFolder root folder (entry dir name) := by
  refine ⟨name, ?_⟩
  rw [hname.location, hdir, List.append_assoc]
  rfl

theorem proper_target (hslash : '/' ∉ name) (hsuffix : suffix name ≠ []) :
    Proper (nextAvailable d (asImg name)) := by
  apply proper_of_suffix (slash_not_mem_nextAvailable hslash)
  rw [suffix_nextAvailable hsuffix]
  exact List.cons_ne_nil _ _

theorem normalizeCalls_contained (hdir : location dir = location root.asPosix ++ [folder])
    (hslash : '/' ∉ name) :
    ∀ c ∈ normalizeCalls f zip dir d name, Contained root folder c := by
  have hself : suffix name ≠ [] → InFolder root folder (entry dir name) := fun hsuffix =>
    inFolder_entry hdir (proper_of_suffix hslash hsuffix)
  have htarget : suffix name ≠ [] → InFolder root folder (entry dir (nextAvailable d (asImg name))) :=
    fun hsuffix => inFolder_entry hdir (proper_target hslash hsuffix)
  unfold normalizeCalls
  split_ifs with hfile hima hfits himz
  · have hsuffix := suffix_ne_nil hima (by decide)
    intro c hc
    rw [List.mem_singleton] at hc
    rw [hc]
    exact ⟨hself hsuffix, htarget hsuffix⟩
  · intro c hc
    cases hc
  · have hsuffix := suffix_ne_nil himz (by decide)
    unfold extractCalls
    split
    · intro c hc
      cases hc
    split
    · intro c hc
      cases hc
    split
    · intro c hc
      rcases List.mem_cons.mp hc with rfl | hc
      · exact htarget hsuffix
      · split at hc
        · rw [List.mem_singleton] at hc
          rw [hc]
          exact hself hsuffix
        · cases hc
    · intro c hc
      cases hc
  · intro c hc
    cases hc
  · intro c hc
    cases hc

/-- The calls of one upload stay in the folder; those with the name `..` are on the root. -/
theorem uploadCalls_contained (hroot : root.asPosix ∈ t.dirs)
    (hdir : location dir = location root.asPosix ++ [folder]) :
    ∀ c ∈ uploadCalls zip dir d u, Contained root folder c ∨ OnFolder t c := by
  intro c hc
  unfold uploadCalls at hc
  split at hc
  · cases hc
  rename_i bare hbare
  split_ifs at hc with hbad hstored
  · cases hc
  all_goals rw [not_or] at hbad
  all_goals obtain ⟨filename, rfl⟩ := bareName_of_bare hbare
  all_goals obtain ⟨hslash, hdot⟩ := bareName_spec filename
  all_goals by_cases hparent : bareName filename = "..".toList
  · exact absurd hparent hstored.1.1
  · have hproper : Proper (bareName filename) := ⟨hslash, hbad.1, hdot, hparent⟩
    left
    rcases List.mem_cons.mp hc with rfl | hc
    · exact inFolder_entry hdir hproper
    · exact normalizeCalls_contained hdir hslash c hc
  · right
    have hfolder : ∃ dir' ∈ t.dirs, location dir' = location (entry dir (bareName filename)) := by
      refine ⟨root.asPosix, hroot, ?_⟩
      rw [hparent, location_parent, hdir, List.dropLast_concat]
    rcases List.mem_cons.mp hc with rfl | hc
    · exact hfolder
    · rw [List.mem_singleton] at hc
      rw [hc]
      exact hfolder
  · have hproper : Proper (bareName filename) := ⟨hslash, hbad.1, hdot, hparent⟩
    left
    rcases List.mem_cons.mp hc with rfl | hc
    · exact inFolder_entry hdir hproper
    · rw [List.mem_singleton] at hc
      rw [hc]
      exact inFolder_entry hdir hproper

theorem batchCalls_contained (hroot : root.asPosix ∈ t.dirs)
    (hdir : location dir = location root.asPosix ++ [folder]) (d : Folder)
    (files : List UploadFile) :
    ∀ c ∈ batchCalls zip dir d files, Contained root folder c ∨ OnFolder t c := by
  induction files generalizing d with
  | nil =>
    intro c hc
    cases hc
  | cons u us ih =>
    intro c hc
    rcases List.mem_append.mp hc with hc | hc
    · exact uploadCalls_contained hroot hdir c hc
    · split at hc
      · cases hc
      · exact ih _ c hc

theorem mkdirCalls_self (t : Tree) : mkdirCalls t t = [] := by
  unfold mkdirCalls
  rw [List.filter_eq_nil_iff.mpr]
  · rfl
  · intro dir hdir
    simpa using hdir

theorem mkdirCalls_mkdir {p : Path} (hparent : p.dir ∈ t.dirs) (h : t.mkdir p = some t') :
    ∀ c ∈ mkdirCalls t t', c = .mkdir p.asPosix := by
  intro c hc
  obtain ⟨dir, hdir, rfl⟩ := List.mem_map.mp hc
  rw [List.mem_reverse, List.mem_filter, decide_eq_true_iff] at hdir
  obtain ⟨hnew, hold⟩ := hdir
  rw [Tree.mkdir_dirs h, if_pos hparent] at hnew
  rcases List.mem_cons.mp hnew with rfl | hmem
  · rfl
  · exact absurd hmem hold

/-- Whatever names and bytes are sent, an upload touches nothing but files of one folder right
below the root of the library. -/
theorem upload_contained (zip : ZipFile) (root : Path) (fs : Fs) (t : Tree)
    (hroot : root.asPosix ∈ t.dirs) (set : Text) (files : List UploadFile) (createNew : Bool) :
    ∃ folder, ∀ c ∈ postUploadCalls zip root (scan fs root) t set files createNew,
      Contained root folder c ∨ OnFolder t c := by
  refine ⟨strip set, fun c hc => ?_⟩
  unfold postUploadCalls at hc
  split_ifs at hc
  · cases hc
  split at hc
  · cases hc
  rename_i target t' hresolve
  obtain ⟨hsafe, -, hdot, -, hresolved⟩ := resolved_of_ok hresolve
  obtain ⟨hdir, hname⟩ := hresolved.path_eq
  have hlocation : location target.asPosix = location root.asPosix ++ [strip set] := by
    have hproper : Proper target.name := by
      rw [hname]
      exact proper_of_head hsafe.noSlash hsafe.1 hdot
    rw [← hname, ← hdir]
    exact hproper.location
  rcases List.mem_append.mp hc with hmade | hfile
  · left
    cases hresolved with
    | listed set =>
      rw [mkdirCalls_self] at hmade
      cases hmade
    | found unlisted noSlash there =>
      rw [mkdirCalls_self] at hmade
      cases hmade
    | made unlisted noSlash mkdir =>
      rw [mkdirCalls_mkdir hroot mkdir c hmade]
      exact hlocation
  · exact batchCalls_contained hroot hlocation _ _ c hfile

/-- A library of one empty set. -/
def libraryTree : Tree := { emptyTree with dirs := [floppyRoot.asPosix, gamesDir] }

theorem upload_contained_example :
    ∃ folder, ∀ c ∈ postUploadCalls noZip floppyRoot (scan libraryTree.toFs floppyRoot) libraryTree
        "games".toList [plainUpload "../../disk.ima" [], plainUpload "a/.." []] true,
      Contained floppyRoot folder c ∨ OnFolder libraryTree c :=
  upload_contained noZip floppyRoot libraryTree.toFs libraryTree (by decide) _ _ true

/-- The first file is renamed in the folder of the set; the second is the root itself. -/
example : (postUploadCalls noZip floppyRoot [] libraryTree "games".toList
    [plainUpload "../../disk.ima" [], plainUpload "a/.." []] true).map FileCall.paths =
    [["/home/pi/floppies/games/disk.ima".toList],
      ["/home/pi/floppies/games/disk.ima".toList, "/home/pi/floppies/games/disk.img".toList],
      ["/home/pi/floppies/games/..".toList], ["/home/pi/floppies/games/..".toList]] := by
  decide +kernel

end UsbFloppy.Web
