import UsbFloppy.Gadget.ConfigFs
import UsbFloppy.Storage.Library
import UsbFloppy.Web.Api

/-! _resolve_target_set: the checks meant for the names of new sets come before the look at the
sets there are. -/

namespace UsbFloppy.Web
open Files Gadget Storage

def MAX_SET_NAME_LEN : ℕ := 64

/-- A character of the class in `SAFE_SET_NAME_RE`. -/
def isSafe (c : Char) : Bool := c.isAlphanum || " ._-()".toList.contains c

/-- `SAFE_SET_NAME_RE.fullmatch(name)`. -/
def SafeSetName (name : Text) : Prop := name ≠ [] ∧ ∀ c ∈ name, isSafe c = true

-- character by character of the name; characters are finitely many, but too many
instance (name : Text) : Decidable (SafeSetName name) :=
  haveI : Decidable (∀ c ∈ name, isSafe c = true) := List.decidableBAll _ name
  inferInstanceAs (Decidable (_ ∧ _))

/-- Why there is no folder to upload to; the last is a FileExistsError, which nobody catches. -/
inductive TargetError
  | empty
  | tooLong
  | badCharacter
  | reserved (name : Text)
  | notFound (name : Text)
  | exists_
  deriving DecidableEq

def TargetError.statusCode : TargetError → ℕ
  | .empty | .tooLong | .badCharacter | .reserved _ => 400
  | .notFound _ => 404
  | .exists_ => 500

def TargetError.detail : TargetError → Text
  | .empty => "set name is empty".toList
  | .tooLong =>
    "set name too long (max ".toList ++ Nat.toDigits 10 MAX_SET_NAME_LEN ++ " chars)".toList
  | .badCharacter => "set name may contain letters, digits, spaces, dots, ".toList ++
    "underscores, hyphens, and parentheses only".toList
  | .reserved name => "reserved name: ".toList ++ name
  | .notFound name => "set not found: ".toList ++ name
  | .exists_ => "Internal Server Error".toList

theorem SafeSetName.noSlash {name : Text} (h : SafeSetName name) : '/' ∉ name := by
  intro hmem
  exact absurd (h.2 _ hmem) (by decide)

/-- The folder of a set, and the tree, where it may be new. -/
def resolveTargetSet (root : Path) (sets : List FloppySet) (t : Tree) (setName : Text)
    (allowCreate : Bool) : Except TargetError (Path × Tree) :=
  let name := strip setName
  if name = [] then .error .empty
  else if MAX_SET_NAME_LEN < name.length then .error .tooLong
  else if h : SafeSetName name then
    if name.head? = some '.' ∨ name = "_trash".toList then .error (.reserved name)
    else
      match setByName sets name with
      | some s => .ok (s.path, t)
      | none =>
        let target := root.child name h.noSlash
        if target.asPosix ∈ t.dirs then .ok (target, t)
        else if allowCreate then
          match t.mkdir target with
          | none => .error .exists_
          | some t' => .ok (target, t')
        else .error (.notFound name)
  else .error .badCharacter

/-- The names that pass the checks and are not changed by `strip`. -/
def Uploadable (name : Text) : Prop :=
  strip name = name ∧ SafeSetName name ∧ name.length ≤ MAX_SET_NAME_LEN ∧
    name.head? ≠ some '.' ∧ name ≠ "_trash".toList

instance (name : Text) : Decidable (Uploadable name) := inferInstanceAs (Decidable (_ ∧ _))

variable {root p : Path} {sets : List FloppySet} {t t' : Tree} {setName : Text} {allowCreate : Bool}

/-- A name that resolves has passed the checks, and leads to a set of the library, or to a folder
right below the root that was there or is new. -/
inductive Resolved (root : Path) (sets : List FloppySet) (t : Tree) (name : Text) :
    Path → Tree → Prop
  | listed {s : FloppySet} (set : setByName sets name = some s) : Resolved root sets t name s.path t
  | found (unlisted : setByName sets name = none) (noSlash : '/' ∉ name)
    (there : (root.child name noSlash).asPosix ∈ t.dirs) :
    Resolved root sets t name (root.child name noSlash) t
  | made (unlisted : setByName sets name = none) (noSlash : '/' ∉ name) {t' : Tree}
    (mkdir : t.mkdir (root.child name noSlash) = some t') :
    Resolved root sets t name (root.child name noSlash) t'

theorem resolved_of_ok (h : resolveTargetSet root sets t setName allowCreate = .ok (p, t')) :
    SafeSetName (strip setName) ∧ (strip setName).length ≤ MAX_SET_NAME_LEN ∧
      (strip setName).head? ≠ some '.' ∧ strip setName ≠ "_trash".toList ∧
      Resolved root sets t (strip setName) p t' := by
  unfold resolveTargetSet at h
  dsimp only at h
  split at h
  · cases h
  split at h
  · cases h
  rename_i hlong
  split at h
  swap
  · cases h
  rename_i hsafe
  split at h
  · cases h
  rename_i hreserved
  rw [not_or] at hreserved
  refine ⟨hsafe, not_lt.mp hlong, hreserved.1, hreserved.2, ?_⟩
  split at h
  · rename_i s hs
    cases h
    exact .listed hs
  · rename_i hs
    split at h
    · rename_i hthere
      cases h
      exact .found hs hsafe.noSlash hthere
    · split at h
      · split at h
        · cases h
        · rename_i t'' hmkdir
          cases h
          exact .made hs hsafe.noSlash hmkdir
      · cases h

/-- A set of a scan lies right below the root, in the folder of its name. -/
theorem path_of_mem_scan {fs : Fs} {s : FloppySet} (h : s ∈ scan fs root) :
    s.path.dir = root.asPosix ∧ s.path.name = s.name := by
  obtain ⟨folder, hdir, rfl, -⟩ := mem_scan.mp h
  exact ⟨hdir, rfl⟩

theorem setByName_scan {fs : Fs} {s : FloppySet} (h : s ∈ scan fs root) :
    ∃ s', setByName (scan fs root) s.name = some s' ∧ s'.path = s.path := by
  rcases hfind : setByName (scan fs root) s.name with _ | s'
  · have hnot := List.find?_eq_none.mp hfind s h
    exact absurd (decide_eq_true rfl) hnot
  · obtain ⟨hmem, hname⟩ := setByName_some hfind
    obtain ⟨hdir, hpath⟩ := path_of_mem_scan h
    obtain ⟨hdir', hpath'⟩ := path_of_mem_scan hmem
    exact ⟨s', rfl, Files.Path.ext (hdir'.trans hdir.symm) (by rw [hpath', hpath, hname])⟩

theorem Resolved.path_eq {fs : Fs} {name : Text} (h : Resolved root (scan fs root) t name p t') :
    p.dir = root.asPosix ∧ p.name = name := by
  cases h with
  | listed set =>
    obtain ⟨hmem, hname⟩ := setByName_some set
    obtain ⟨hdir, hpath⟩ := path_of_mem_scan hmem
    exact ⟨hdir, hpath.trans hname⟩
  | found unlisted noSlash there => exact ⟨rfl, rfl⟩
  | made unlisted noSlash mkdir => exact ⟨rfl, rfl⟩

/-- A set that the library lists can be uploaded to exactly if its name would do for a new set. -/
theorem listed_set_resolves_iff {fs : Fs} {s : FloppySet} (hs : s ∈ scan fs root) (t : Tree) :
    resolveTargetSet root (scan fs root) t s.name false = .ok (s.path, t) ↔ Uploadable s.name := by
  constructor
  · intro h
    obtain ⟨hsafe, hlength, hdot, htrash, hresolved⟩ := resolved_of_ok h
    have hstrip : strip s.name = s.name := by
      rw [← hresolved.path_eq.2, (path_of_mem_scan hs).2]
    rw [hstrip] at hsafe hlength hdot htrash
    exact ⟨hstrip, hsafe, hlength, hdot, htrash⟩
  · rintro ⟨hstrip, hsafe, hlength, hdot, htrash⟩
    obtain ⟨s', hset, hpath⟩ := setByName_scan hs
    unfold resolveTargetSet
    dsimp only
    rw [hstrip, if_neg hsafe.1, if_neg (not_lt.mpr hlength), dif_pos hsafe,
      if_neg (not_or.mpr ⟨hdot, htrash⟩), hset, ← hpath]

def gamesFolder : Path := floppyRoot.child "games".toList slash_not_mem_games

theorem listed_set_resolves_iff_example :
    resolveTargetSet floppyRoot (scan gameTree.toFs floppyRoot) gameTree "games".toList false =
      .ok (gamesFolder, gameTree) := by
  have hset : scanFolder gameTree.toFs gamesFolder ∈ scan gameTree.toFs floppyRoot :=
    mem_scan.mpr ⟨gamesFolder, rfl, rfl, by decide +kernel⟩
  exact (listed_set_resolves_iff hset gameTree).mpr (by decide +kernel)

/-- A folder made over Samba, with an image in it. -/
def ampersandFs : Fs :=
  (∅ : Fs).insert ⟨"/home/pi/floppies/a&b".toList, "disk.img".toList, by decide⟩
    (.file ⟨.ofList [], true⟩)

theorem listed_set_rejected :
    ¬ ∀ (root : Path) (fs : Fs) (s : FloppySet) (t : Tree), s ∈ scan fs root →
      resolveTargetSet root (scan fs root) t s.name false = .ok (s.path, t) := by
  intro h
  have hset : scanFolder ampersandFs (floppyRoot.child "a&b".toList) ∈ scan ampersandFs floppyRoot :=
    mem_scan.mpr ⟨floppyRoot.child "a&b".toList, rfl, rfl, by decide +kernel⟩
  have hbad : ¬ SafeSetName (strip "a&b".toList) := by decide +kernel
  exact hbad (resolved_of_ok (h floppyRoot ampersandFs _ emptyTree hset)).1

end UsbFloppy.Web
