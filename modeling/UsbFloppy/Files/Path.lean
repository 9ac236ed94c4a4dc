import Mathlib.Algebra.GroupWithZero.Nat
import Mathlib.Data.List.DropRight
import Mathlib.Tactic.SplitIfs
import UsbFloppy.Kernel.Basic

/-! Paths as the service handles them: a directory and the name of an entry in it, with
the parts of pathlib's name handling that the code uses. -/

namespace UsbFloppy.Files

/-- An entry `name` of the directory `dir`. -/
structure Path where
  dir : Text
  name : Text
  noSlash : '/' ∉ name
  deriving DecidableEq

def Path.asPosix (p : Path) : Text := p.dir ++ '/' :: p.name

/-- `p / name`. -/
def Path.child (p : Path) (name : Text) (h : '/' ∉ name := by decide) : Path := ⟨p.asPosix, name, h⟩

def notSlash (c : Char) : Bool := c ≠ '/'

/-- The path a text names for the kernel; none without a directory. -/
def Path.ofPosix (t : Text) : Option Path :=
  if t.rtakeWhile notSlash = t then none
  else some ⟨(t.rdropWhile notSlash).dropLast, t.rtakeWhile notSlash, fun h => by
    have := List.mem_rtakeWhile_imp h
    simp [notSlash] at this⟩

theorem Path.ext {p q : Path} (hdir : p.dir = q.dir) (hname : p.name = q.name) : p = q := by
  cases p
  cases q
  cases hdir
  cases hname
  rfl

@[simp] theorem Path.child_dir (p : Path) (name : Text) (h : '/' ∉ name) :
    (p.child name h).dir = p.asPosix := rfl

@[simp] theorem Path.child_name (p : Path) (name : Text) (h : '/' ∉ name) :
    (p.child name h).name = name := rfl

theorem notSlash_of_mem {p : Path} : ∀ c ∈ p.name, notSlash c = true := by
  intro c hc
  have hne : c ≠ '/' := fun heq => p.noSlash (heq ▸ hc)
  exact decide_eq_true hne

theorem Path.ofPosix_asPosix (p : Path) : Path.ofPosix p.asPosix = some p := by
  have hrev : p.asPosix.reverse = p.name.reverse ++ '/' :: p.dir.reverse := by simp [asPosix]
  have hall : ∀ c ∈ p.name.reverse, notSlash c = true := fun c hc =>
    notSlash_of_mem c (List.mem_reverse.mp hc)
  have htake : p.asPosix.rtakeWhile notSlash = p.name := by
    rw [List.rtakeWhile, hrev, List.takeWhile_append_of_pos hall]
    simp [notSlash]
  have hdrop : p.asPosix.rdropWhile notSlash = p.dir ++ ['/'] := by
    rw [List.rdropWhile, hrev, List.dropWhile_append_of_pos hall]
    simp [notSlash]
  have hne : p.name ≠ p.asPosix := by
    intro h
    have hlen := congrArg List.length h
    simp only [asPosix, List.length_append, List.length_cons] at hlen
    omega
  have hcond : ¬ p.asPosix.rtakeWhile notSlash = p.asPosix := by rwa [htake]
  rw [Path.ofPosix, if_neg hcond, Option.some_inj]
  exact Path.ext (by rw [hdrop, List.dropLast_concat]) htake

theorem Path.asPosix_injective {p q : Path} (h : p.asPosix = q.asPosix) : p = q := by
  have hp := p.ofPosix_asPosix
  rw [h, q.ofPosix_asPosix] at hp
  exact (Option.some.inj hp).symm

theorem Path.asPosix_ne_nil (p : Path) : p.asPosix ≠ [] := by simp [asPosix]

/-- The longest name of a file, in bytes. -/
def NAME_MAX : ℕ := 255

def FitsName (name : Text) : Prop := (name.map Char.utf8Size).sum ≤ NAME_MAX

instance (name : Text) : Decidable (FitsName name) := inferInstanceAs (Decidable (_ ≤ _))

/-! ### Suffixes -/

def notDot (c : Char) : Bool := c ≠ '.'

/-- `name.rfind('.')`, where there is a dot. -/
def rfindDot (name : Text) : ℕ := name.length - (name.rtakeWhile notDot).length - 1

/-- `PurePath.suffix`: a dot that starts or ends the name does not count. -/
def suffix (name : Text) : Text :=
  if 0 < rfindDot name ∧ rfindDot name < name.length - 1 then name.drop (rfindDot name) else []

/-- `PurePath.stem`. -/
def stem (name : Text) : Text :=
  if 0 < rfindDot name ∧ rfindDot name < name.length - 1 then name.take (rfindDot name) else name

/-- `str.lower`, on ASCII. No other character has a lower case among the letters the
code compares with. -/
def lower (t : Text) : Text := t.map Char.toLower

/-- `path.suffix.lower() == ext`. -/
def Path.hasSuffix (p : Path) (ext : Text) : Prop := lower (suffix p.name) = ext

instance (p : Path) (ext : Text) : Decidable (p.hasSuffix ext) :=
  inferInstanceAs (Decidable (_ = ext))

theorem suffix_suffix (name : Text) : suffix name <:+ name := by
  unfold suffix
  split_ifs
  · exact List.drop_suffix _ _
  · exact List.nil_suffix

theorem stem_append_suffix (name : Text) : stem name ++ suffix name = name := by
  unfold stem suffix
  split_ifs
  · exact List.take_append_drop _ _
  · exact List.append_nil _

theorem stem_isPrefix (name : Text) : stem name <+: name := ⟨suffix name, stem_append_suffix name⟩

theorem stem_ne_nil {name : Text} (h : suffix name ≠ []) : stem name ≠ [] := by
  unfold suffix at h
  split_ifs at h with hdot
  · rw [stem, if_pos hdot]
    apply List.ne_nil_of_length_pos
    rw [List.length_take]
    omega
  · exact absurd rfl h

theorem suffix_append_img {start : Text} (h : start ≠ []) :
    suffix (start ++ ".img".toList) = ".img".toList := by
  have hlen : 0 < start.length := List.length_pos_iff.mpr h
  have htake : (start ++ ".img".toList).rtakeWhile notDot = "img".toList := by
    rw [List.rtakeWhile, List.reverse_append]
    rfl
  have hdot : rfindDot (start ++ ".img".toList) = start.length := by
    rw [rfindDot, htake, List.length_append]
    rfl
  have hlast : start.length < (start ++ ".img".toList).length - 1 := by
    rw [List.length_append]
    exact Nat.lt_add_of_pos_right (by decide)
  rw [suffix, hdot, if_pos ⟨hlen, hlast⟩, List.drop_left]

/-- `PurePath.with_suffix`, for a suffix without a slash. -/
def Path.withSuffix (p : Path) (ext : Text) (h : '/' ∉ ext) : Path where
  dir := p.dir
  name := stem p.name ++ ext
  noSlash := by
    intro hmem
    rcases List.mem_append.mp hmem with hmem | hmem
    · exact p.noSlash ((stem_isPrefix p.name).subset hmem)
    · exact h hmem

theorem Path.hasSuffix.suffix_asPosix {p : Path} {ext : Text} (h : p.hasSuffix ext) :
    ext <:+ lower p.asPosix := by
  obtain ⟨pre, hpre⟩ := suffix_suffix p.name
  refine ⟨lower (p.dir ++ '/' :: pre), ?_⟩
  rw [← h, lower, lower, lower, ← List.map_append, List.append_assoc, List.cons_append, hpre]
  rfl

theorem Path.hasSuffix.getLast?_ne {p : Path} {ext : Text} (h : p.hasSuffix ext)
    (hne : ext ≠ []) (hlast : ext.getLast? ≠ some '\n') : p.asPosix.getLast? ≠ some '\n' := by
  intro hnl
  obtain ⟨pre, hpre⟩ := h.suffix_asPosix
  have hlower : (lower p.asPosix).getLast? = some '\n' := by
    rw [lower, List.getLast?_map, hnl]
    rfl
  rw [← hpre, List.getLast?_append_of_ne_nil _ hne] at hlower
  exact hlast hlower

end UsbFloppy.Files
