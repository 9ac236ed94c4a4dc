import UsbFloppy.Storage.Normalizer

/-! What a successful normalization leaves: the image under its final name, and every other file
as it was. -/

namespace UsbFloppy.Storage
open Files

/-- The member of the archive that is selected, read to its end. -/
def MemberImage (zip : ZipFile) (bytes image : List UInt8) : Prop :=
  ∃ members m, zip bytes = .ok members ∧ innerMember members = some m ∧ m.contents = .ok image

/-- A file has been normalized to `r`, in a folder that is `d'` after that. -/
structure Normalized (zip : ZipFile) (d : Folder) (name : Text) (r : NormalizationResult)
    (d' : Folder) : Prop where
  inFolder : '/' ∉ name → '/' ∉ r.finalPath
  img : if r.kind = .passthrough then lower (suffix r.finalPath) = ".img".toList
    else suffix r.finalPath = ".img".toList
  free : r.finalPath = name ∨ d.entries.lookup r.finalPath = none
  arrived : r.kind ≠ .extracted → d'.read r.finalPath = d.read name
  member : r.kind = .extracted →
    ∃ bytes image, d.read name = some bytes ∧ MemberImage zip bytes image ∧
      d'.read r.finalPath = some image
  gone : r.kind ≠ .passthrough → d'.entries.lookup name = none
  others : ∀ other, other ≠ name → other ≠ r.finalPath →
    d'.entries.lookup other = d.entries.lookup other ∧ d'.read other = d.read other
  again : ∀ f, normalizeArrivedFile f zip d' r.finalPath =
    (some ⟨.passthrough, r.finalPath, []⟩, d')

variable {f : NormalizeFaults} {zip : ZipFile} {d d' : Folder} {name : Text}
  {r : NormalizationResult} {image : List UInt8} {i : ℕ}

theorem read_of_lookup (h : d.entries.lookup name = some (.file i)) :
    d.read name = some (d.data i) :=
  Folder.read_eq_some.mpr ⟨i, h, rfl⟩

theorem passes_of_lookup (hfile : d.entries.lookup name = some (.file i))
    (himg : lower (suffix name) = ".img".toList) :
    normalizeArrivedFile f zip d name = (some ⟨.passthrough, name, []⟩, d) := by
  rw [normalizeArrivedFile, if_pos (Folder.isFile_iff.mpr ⟨i, hfile⟩), if_pos himg]

theorem lower_img {target : Text} (h : suffix target = ".img".toList) :
    lower (suffix target) = ".img".toList := by
  rw [h]
  decide

/-! ### Conversions -/

namespace Converted

variable {target other : Text}

theorem lookup_target (h : Converted d name target i d') :
    d'.entries.lookup target = some (.file i) := by
  rw [h.lookup, if_pos rfl]

theorem lookup_name (h : Converted d name target i d') (hne : target ≠ name) :
    d'.entries.lookup name = none := by
  rw [h.lookup, if_neg hne.symm, if_pos rfl]

theorem lookup_other (h : Converted d name target i d') (hname : other ≠ name)
    (htarget : other ≠ target) : d'.entries.lookup other = d.entries.lookup other := by
  rw [h.lookup, if_neg htarget, if_neg hname]

theorem read_other (h : Converted d name target i d') (hname : other ≠ name)
    (htarget : other ≠ target) : d'.read other = d.read other := by
  unfold Folder.read
  rw [h.lookup_other hname htarget]
  split
  · rename_i j hj
    rw [h.data j (d.allocated other j hj)]
  · rfl

end Converted

theorem ZipError.result_kind {e : ZipError} (h : e.result name = some r) : r.kind = .error := by
  cases e with
  | corrupted exc =>
    cases h
    rfl
  | uncaught => cases h

inductive Success (zip : ZipFile) (d : Folder) (name : Text) (i : ℕ) :
    NormalizationResult → Folder → Prop
  | passthrough (img : lower (suffix name) = ".img".toList) :
    Success zip d name i ⟨.passthrough, name, []⟩ d
  | renamed (ima : lower (suffix name) = ".ima".toList) :
    Success zip d name i ⟨.renamed, nextAvailable d (asImg name), []⟩
      (d.rename name (nextAvailable d (asImg name)))
  | extracted {image : List UInt8} (imz : lower (suffix name) = ".imz".toList)
    (member : MemberImage zip (d.data i) image) :
    Success zip d name i ⟨.extracted, nextAvailable d (asImg name), []⟩
      (((d.create (nextAvailable d (asImg name))).append d.inodes image).unlink name)

/-- An extraction returns an error or has extracted the member. -/
theorem success_of_extractImz (hread : (d.read name).getD [] = d.data i)
    (himz : lower (suffix name) = ".imz".toList) (h : extractImz f zip d name = (some r, d')) :
    r.kind = .error ∨ Success zip d name i r d' := by
  have herror : ∀ (e : ZipError) (d'' : Folder), (some r, d') = (e.result name, d'') →
      r.kind = .error ∨ Success zip d name i r d' := fun e d'' hresult =>
    Or.inl (ZipError.result_kind (congrArg Prod.fst hresult).symm)
  have hextraction := extraction f zip d name
  rw [h] at hextraction
  generalize hresult : (some r, d') = result at hextraction
  cases hextraction with
  | unreadable => exact herror _ _ hresult
  | empty =>
    cases hresult
    exact Or.inl rfl
  | unnamed => exact herror _ _ hresult
  | unopened => exact herror _ _ hresult
  | uncreated => exact herror _ _ hresult
  | damaged => exact herror _ _ hresult
  | cutOff => exact herror _ _ hresult
  | kept => cases hresult
  | extracted read inner named opened created contents =>
    cases hresult
    have hreading := NormalizeFaults.reading_eq_none read inner opened contents
    rw [NormalizeFaults.reads_of_none hreading, hread] at read
    exact Or.inr (.extracted himz ⟨_, _, read, inner, contents⟩)

theorem success_of_kind (h : normalizeArrivedFile f zip d name = (some r, d'))
    (hkind : r.kind ∈ [ResultKind.passthrough, .renamed, .extracted]) :
    ∃ i, d.entries.lookup name = some (.file i) ∧ Success zip d name i r d' := by
  have hignored : ResultKind.ignored ∉ [ResultKind.passthrough, .renamed, .extracted] := by decide
  unfold normalizeArrivedFile at h
  split_ifs at h with hfile himg hima hrenames himz
  · obtain ⟨i, hi⟩ := Folder.isFile_iff.mp hfile
    cases h
    exact ⟨i, hi, .passthrough himg⟩
  · obtain ⟨i, hi⟩ := Folder.isFile_iff.mp hfile
    cases h
    exact ⟨i, hi, .renamed hima⟩
  · cases h
  · obtain ⟨i, hi⟩ := Folder.isFile_iff.mp hfile
    have hread : (d.read name).getD [] = d.data i := by
      rw [read_of_lookup hi]
      rfl
    refine ⟨i, hi, (success_of_extractImz hread himz h).resolve_left fun herror => ?_⟩
    rw [herror] at hkind
    exact absurd hkind (by decide)
  · cases h
    exact absurd hkind hignored
  · cases h
    exact absurd hkind hignored

theorem Converted.normalized {target : Text} {kind : ResultKind} (h : Converted d name target i d')
    (hkind : kind ≠ .passthrough) (hne : target ≠ name) (hslash : '/' ∉ name → '/' ∉ target)
    (harrived : kind ≠ .extracted → d.read name = some (d'.data i))
    (hmember : kind = .extracted → ∃ bytes, d.read name = some bytes ∧
      MemberImage zip bytes (d'.data i)) :
    Normalized zip d name ⟨kind, target, []⟩ d' where
  inFolder := hslash
  img := by
    rw [if_neg hkind]
    exact h.image
  free := Or.inr h.free
  arrived hk := by rw [harrived hk, read_of_lookup h.lookup_target]
  member hk := by
    obtain ⟨bytes, hread, himage⟩ := hmember hk
    exact ⟨bytes, _, hread, himage, read_of_lookup h.lookup_target⟩
  gone _ := h.lookup_name hne
  others other hname htarget := ⟨h.lookup_other hname htarget, h.read_other hname htarget⟩
  again _ := passes_of_lookup h.lookup_target (lower_img h.image)

/-- Nothing is lost and nothing is overwritten by a normalization that succeeds. -/
theorem normalize_loses_nothing (h : normalizeArrivedFile f zip d name = (some r, d'))
    (hkind : r.kind ∈ [ResultKind.passthrough, .renamed, .extracted]) :
    Normalized zip d name r d' := by
  obtain ⟨i, hi, hsuccess⟩ := success_of_kind h hkind
  have hne := nextAvailable_ne hi (asImg name)
  cases hsuccess with
  | passthrough img =>
    exact {
      inFolder := id
      img := img
      free := Or.inl rfl
      arrived := fun _ => rfl
      member := fun hk => by cases hk
      gone := fun hk => absurd rfl hk
      others := fun _ _ _ => ⟨rfl, rfl⟩
      again := fun _ => passes_of_lookup hi img }
  | renamed ima =>
    apply (converted_rename hi ima).normalized (by decide) hne slash_not_mem_nextAvailable
    · intro _
      rw [read_of_lookup hi, (Folder.rename_of_lookup hi).2]
    · intro hk
      cases hk
  | extracted imz member =>
    have hfile : d.isFile name = true := Folder.isFile_iff.mpr ⟨i, hi⟩
    apply (converted_extract hfile imz _).normalized (by decide) hne slash_not_mem_nextAvailable
    · intro hk
      exact absurd rfl hk
    · intro _
      refine ⟨_, read_of_lookup hi, ?_⟩
      change MemberImage zip _ (((d.create _).append d.inodes _).data d.inodes)
      rw [Folder.create_append_data]
      exact member

/-- `a.b.ima` arrives where `a.b.img` is taken. -/
def arrivedFolder : Folder :=
  ((⟨∅, fun _ => [], 0, Folder.allocated_empty⟩ : Folder).create "a.b.img".toList).create
    "a.b.ima".toList

theorem normalize_loses_nothing_example :
    Normalized (fun _ => .error .uncaught) arrivedFolder "a.b.ima".toList
      ⟨.renamed, "a.b (1).img".toList, []⟩
      (arrivedFolder.rename "a.b.ima".toList "a.b (1).img".toList) := by
  have htarget : nextAvailable arrivedFolder (asImg "a.b.ima".toList) = "a.b (1).img".toList := by
    decide +kernel
  have hrenamed : normalizeArrivedFile .none (fun _ => .error .uncaught) arrivedFolder
      "a.b.ima".toList = (some ⟨.renamed, "a.b (1).img".toList, []⟩,
        arrivedFolder.rename "a.b.ima".toList "a.b (1).img".toList) := by
    rw [normalizeArrivedFile, if_pos (by decide +kernel), if_neg (by decide +kernel),
      if_pos (by decide +kernel), if_pos (by decide +kernel), htarget]
  exact normalize_loses_nothing hrenamed (by decide)

end UsbFloppy.Storage
