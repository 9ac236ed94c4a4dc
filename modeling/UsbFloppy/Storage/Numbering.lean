import UsbFloppy.Storage.Normalizer

/-! _next_available, with a loop that has no bound: it ends all the same, on a free name. -/

namespace UsbFloppy.Storage
open Files Search

/-- A folder as the loop sees it. What has a name there need not be found by `exists`: a link may
lead nowhere. -/
structure Listing where
  names : Finset Text
  exists_ : Text → Prop
  listed : ∀ name, exists_ name → name ∈ names

def listingOf (d : Folder) : Listing where
  names := d.entries.keys.toFinset
  exists_ := d.exists_
  listed _ h := List.mem_toFinset.mpr h

/-- `parent / f"{stem} ({n}).img"`. -/
def numbered (target : Path) (n : ℕ) : Path where
  dir := target.dir
  name := candidate (stem target.name) n
  noSlash := slash_not_mem_candidate (fun h => target.noSlash ((stem_isPrefix _).subset h)) n

/-- `_next_available`: what it returns, and how many paths it has probed by then. -/
inductive NextAvailable (l : Listing) (target : Path) : Path → ℕ → Prop
  | free (free : ¬ l.exists_ target.name) : NextAvailable l target target 1
  | numbered {n probes : ℕ} (taken : l.exists_ target.name)
    (loop : Ends (fun n => l.exists_ (numbered target n).name) 1 n probes) :
    NextAvailable l target (numbered target n) (1 + probes)

variable {l : Listing} {target r r' : Path} {probes probes' : ℕ}

theorem candidate_ne (name : Text) (n : ℕ) : candidate (stem name) n ≠ name := by
  intro h
  have hsuffix : suffix name = ".img".toList := by
    rw [← h]
    exact suffix_candidate _ n
  have hsplit := stem_append_suffix name
  rw [hsuffix] at hsplit
  have hrest : ".img".toList = " (".toList ++ (Nat.toDigits 10 n ++ ").img".toList) :=
    List.append_cancel_left (hsplit.trans h.symm)
  cases hrest

theorem NextAvailable.unique (h : NextAvailable l target r probes)
    (h' : NextAvailable l target r' probes') : r = r' ∧ probes = probes' := by
  cases h with
  | free free =>
    cases h' with
    | free => exact ⟨rfl, rfl⟩
    | numbered taken => exact absurd taken free
  | numbered taken loop =>
    cases h' with
    | free free => exact absurd taken free
    | numbered _ loop' =>
      obtain ⟨rfl, rfl⟩ := loop.unique loop'
      exact ⟨rfl, rfl⟩

/-- The target is one of the names, and no candidate. -/
theorem exists_nextAvailable (l : Listing) (target : Path) :
    ∃ r probes, NextAvailable l target r probes ∧ probes ≤ l.names.card + 1 := by
  by_cases htaken : l.exists_ target.name
  · have hnames : ∀ n, 1 ≤ n → l.exists_ (numbered target n).name →
        (numbered target n).name ∈ l.names.erase target.name := by
      intro n _ hn
      exact Finset.mem_erase.mpr ⟨candidate_ne _ n, l.listed _ hn⟩
    obtain ⟨n, probes, hloop, hle⟩ := exists_ends (candidate_injective (stem target.name)) hnames
    rw [Finset.card_erase_add_one (l.listed _ htaken)] at hle
    exact ⟨_, _, .numbered htaken hloop, by omega⟩
  · exact ⟨_, _, .free htaken, Nat.le_add_left 1 _⟩

theorem nextAvailable_eq {d : Folder} (h : NextAvailable (listingOf d) target r probes) :
    nextAvailable d target.name = r.name := by
  unfold nextAvailable
  cases h with
  | free free => exact if_neg free
  | numbered taken loop =>
    have hexists : d.exists_ target.name := taken
    obtain ⟨tries, hends⟩ := ends_firstOutside (l := d.entries.keys)
      (candidate_injective (stem target.name)) 1
    rw [if_pos hexists, (hends.unique loop).1]
    rfl

/-- A copy of the disk and another one are there. -/
example : nextAvailable (((⟨∅, fun _ => [], 0, Folder.allocated_empty⟩ : Folder).create
    "DISK1.img".toList).create "DISK1 (1).img".toList) "DISK1.img".toList =
      "DISK1 (2).img".toList := by
  decide +kernel

/-- The loop ends after at most one probe more than the folder has names, on the target or on the
first number that is free. -/
theorem next_available_ends (l : Listing) (target : Path) :
    ∃ r probes, NextAvailable l target r probes ∧ probes ≤ l.names.card + 1 ∧
      (∀ r' probes', NextAvailable l target r' probes' → r' = r ∧ probes' = probes) ∧
      r.dir = target.dir ∧ ¬ l.exists_ r.name ∧
      (¬ l.exists_ target.name → r = target) ∧
      (l.exists_ target.name → ∃ n, r.name = candidate (stem target.name) n ∧
        IsLeast {n | 1 ≤ n ∧ ¬ l.exists_ (candidate (stem target.name) n)} n) := by
  obtain ⟨r, probes, h, hle⟩ := exists_nextAvailable l target
  refine ⟨r, probes, h, hle, fun r' probes' h' => h'.unique h, ?_⟩
  cases h with
  | free free => exact ⟨rfl, free, fun _ => rfl, fun taken => absurd taken free⟩
  | @numbered n probes taken loop =>
    exact ⟨rfl, loop.isLeast.1.2, fun free => absurd taken free, fun _ => ⟨n, rfl, loop.isLeast⟩⟩

end UsbFloppy.Storage
