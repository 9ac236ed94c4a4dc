import UsbFloppy.Gadget.Inquiry

/-! The service dies while it builds the gadget, and starts again. What it left behind passes for
a whole gadget once the inquiry string is in place and reads back; otherwise it cannot be taken
apart: `destroy_gadget` walks the strings of a configuration that is not there yet, and never
removes the directory that they are in. -/

namespace UsbFloppy.Gadget

/-- The next `create_gadget` returns, and the tree is complete. -/
def Recovers (d : Delivery) (p : GadgetParams) (t : LiveTree) : Prop :=
  ∃ t' made, t.createGadget d p = some (t', made) ∧ Complete p t'.fs

variable {d : Delivery} {p : GadgetParams} {fs : ConfigFs} {t : LiveTree}

/-! ### Without the link, or without the strings -/

theorem not_complete_of_untouched (h : fs.lookup cfgLink = none) : ¬ Complete p fs := by
  intro hcomplete
  have hdone := hcomplete (.link cfgLink funcDir) (List.mem_append_right _ List.mem_cons_self)
  have hlink : fs.lookup cfgLink = some (.link funcDir) := hdone
  rw [h] at hlink
  cases hlink

theorem detachUdc_lookup {q : ConfigPath} (hq : q ≠ udcPath) :
    (detachUdc fs).lookup q = fs.lookup q := by
  unfold detachUdc
  split
  · split_ifs
    · rfl
    · rcases h : fs.writeText udcPath [] with _ | fs'
      · rfl
      · rw [Option.getD_some, writeText_eq_some h, AList.lookup_insert_ne hq]
  · rfl

theorem iterdir_eq_none {q : ConfigPath} (hq : q ≠ []) (h : fs.lookup q = none) :
    fs.iterdir q = none := by
  have hdir : fs.isDir q = false := by
    unfold ConfigFs.isDir
    rw [h]
    exact decide_eq_false hq
  unfold ConfigFs.iterdir
  rw [hdir]
  rfl

/-- `iterdir` raises where the configuration has no strings. -/
theorem destroyGadget_eq_none (hg : fs.exists_ gadgetDir) (h : fs.lookup cfgStringsDir = none) :
    destroyGadget fs = none := by
  have hdetach : (detachUdc fs).lookup cfgStringsDir = none := by
    rw [detachUdc_lookup (by decide), h]
  unfold destroyGadget
  rw [if_neg (not_not_intro hg)]
  have hunlinked : (if (detachUdc fs).isSymlink cfgLink then (detachUdc fs).erase cfgLink
      else detachUdc fs).lookup cfgStringsDir = none := by
    split_ifs
    · rw [AList.lookup_erase_ne (by decide), hdetach]
    · exact hdetach
  change (ConfigFs.iterdir _ cfgStringsDir).bind _ = none
  rw [iterdir_eq_none (by decide) hunlinked]
  rfl

theorem runSteps_take_isSome (p : GadgetParams) (k : ℕ) :
    (runSteps ∅ ((createSteps p).take k)).isSome := by
  have h := build_isSome p
  rw [← List.take_append_drop k (createSteps p), runSteps_append] at h
  exact Option.isSome_of_isSome_bind h

theorem take_build {k : ℕ} (hk : k < (createSteps p).length) :
    (createSteps p).take k = (buildSteps p).take k := by
  apply List.take_append_of_le_length
  have hlen : (createSteps p).length = (buildSteps p).length + 1 := List.length_append
  omega

/-! ### A configuration that keeps its directory of strings -/

/-- The directory was made, so nothing above it can be removed before it is. -/
def Stuck (fs : ConfigFs) : Prop :=
  fs.lookup cfgStringsDir = some (.dir true) ∧ fs.exists_ gadgetDir

theorem exists_iff_lookup {q : ConfigPath} : fs.exists_ q ↔ (fs.lookup q).isSome := by
  rw [ConfigFs.exists_, AList.lookup_isSome]

theorem Stuck.congr {fs' : ConfigFs} (h : Stuck fs)
    (hlookup : ∀ q, q = cfgStringsDir ∨ q = gadgetDir → fs'.lookup q = fs.lookup q) : Stuck fs' := by
  refine ⟨(hlookup _ (.inl rfl)).trans h.1, ?_⟩
  rw [exists_iff_lookup, hlookup _ (.inr rfl), ← exists_iff_lookup]
  exact h.2

theorem lookup_foldl_erase {q : ConfigPath} {paths : List ConfigPath} (h : q ∉ paths)
    (fs : ConfigFs) : (paths.foldl (fun fs path => fs.erase path) fs).lookup q = fs.lookup q := by
  induction paths generalizing fs with
  | nil => rfl
  | cons path paths ih =>
    rw [List.mem_cons, not_or] at h
    rw [List.foldl_cons, ih h.2, AList.lookup_erase_ne h.1]

theorem Stuck.busy (h : Stuck fs) {path : ConfigPath} (hne : path ≠ cfgStringsDir)
    (habove : path <+: cfgStringsDir) : fs.busy path = true := by
  have hmem : cfgStringsDir ∈ fs.keys := by
    rw [← AList.mem_keys, ← AList.lookup_isSome, h.1]
    rfl
  unfold ConfigFs.busy
  rw [List.any_eq_true]
  refine ⟨cfgStringsDir, hmem, ?_⟩
  rw [h.1]
  simpa using ⟨hne.symm, habove⟩

theorem Stuck.tryRmdir (h : Stuck fs) (path : ConfigPath) (hne : path ≠ cfgStringsDir) :
    Stuck (fs.tryRmdir path) := by
  unfold ConfigFs.tryRmdir
  split_ifs with hremoved
  · have hbeside : ¬ path <+: cfgStringsDir := by
      intro habove
      rw [h.busy hne habove] at hremoved
      cases hremoved.2
    apply h.congr
    intro q hq
    apply lookup_foldl_erase
    intro hmem
    have hleads : path <+: q := List.isPrefixOf_iff_prefix.mp (List.of_mem_filter hmem)
    rcases hq with rfl | rfl
    · exact hbeside hleads
    · exact hbeside (hleads.trans (by decide))
  · exact h

theorem Stuck.foldl_tryRmdir {paths : List ConfigPath} (h : Stuck fs)
    (hne : ∀ path ∈ paths, path ≠ cfgStringsDir) : Stuck (paths.foldl ConfigFs.tryRmdir fs) := by
  induction paths generalizing fs with
  | nil => exact h
  | cons path paths ih =>
    have hfirst : Stuck (fs.tryRmdir path) := h.tryRmdir path (hne path List.mem_cons_self)
    exact ih hfirst fun q hq => hne q (.tail _ hq)

theorem iterdir_ne {dir : ConfigPath} {paths : List ConfigPath} (h : fs.iterdir dir = some paths)
    (hdir : cfgStringsDir.dropLast ≠ dir) : ∀ path ∈ paths, path ≠ cfgStringsDir := by
  unfold ConfigFs.iterdir at h
  split at h
  · cases h
    rintro path hpath rfl
    have hchild := List.of_mem_filter hpath
    rw [decide_eq_true_eq] at hchild
    exact hdir hchild.2
  · cases h

theorem Stuck.destroyGadget {fs' : ConfigFs} (h : Stuck fs)
    (hdestroy : Gadget.destroyGadget fs = some fs') : Stuck fs' := by
  have hdetached : Stuck (detachUdc fs) := by
    apply h.congr
    rintro q (rfl | rfl)
    · exact detachUdc_lookup (by decide)
    · exact detachUdc_lookup (by decide)
  unfold Gadget.destroyGadget at hdestroy
  rw [if_neg (not_not_intro h.2)] at hdestroy
  have hunlinked : Stuck (if (detachUdc fs).isSymlink cfgLink then (detachUdc fs).erase cfgLink
      else detachUdc fs) := by
    split_ifs
    · apply hdetached.congr
      rintro q (rfl | rfl)
      · exact AList.lookup_erase_ne (by decide)
      · exact AList.lookup_erase_ne (by decide)
    · exact hdetached
  obtain ⟨strings, hstrings, hrest⟩ := Option.bind_eq_some_iff.mp hdestroy
  have hconfig := (hunlinked.foldl_tryRmdir (iterdir_ne hstrings (by decide))).tryRmdir cfgDir
    (by decide)
  dsimp only at hrest
  generalize ConfigFs.tryRmdir _ cfgDir = fs₁ at hrest hconfig
  have hfunction : Stuck (if fs₁.exists_ funcDir then (fs₁.tryRmdir lunDir).tryRmdir funcDir
      else fs₁) := by
    split_ifs
    · exact (hconfig.tryRmdir lunDir (by decide)).tryRmdir funcDir (by decide)
    · exact hconfig
  obtain ⟨strings', hstrings', hend⟩ := Option.bind_eq_some_iff.mp hrest
  cases hend
  have hstripped := hfunction.foldl_tryRmdir (iterdir_ne hstrings' (by decide))
  exact hstripped.tryRmdir gadgetDir (by decide)

theorem Stuck.build (h : Stuck t.fs) : (createSteps p).foldlM (LiveTree.apply d) t = none := by
  have hmkdir : (CreateStep.mkdir gadgetDir false).apply t.fs = none := by
    rw [CreateStep.apply, if_neg (by simp), ConfigFs.mkdir, if_pos (.inl h.2)]
  rcases hbuild : (createSteps p).foldlM (LiveTree.apply d) t with _ | t'
  · rfl
  · obtain ⟨t₁, hfirst, -⟩ := LiveTree.foldlM_cons hbuild
    cases hmkdir.symm.trans (LiveTree.apply_fs hfirst)

/-- A tree that is there and is not recognised: `create_gadget` raises. -/
theorem createGadget_eq_none (hg : t.fs.exists_ gadgetDir) (hmalformed : ¬ t.Recognised p)
    (hstrings : t.fs.lookup cfgStringsDir = none ∨ Stuck t.fs) : t.createGadget d p = none := by
  rcases hcreate : t.createGadget d p with _ | ⟨t', made⟩
  · rfl
  rcases LiveTree.createGadget_cases hcreate with ⟨hreuse, -⟩ | ⟨-, t₀, hbuild, hfrom⟩
  · exact absurd hreuse hmalformed
  · have hdestroy := hfrom hg
    rcases hstrings with hnone | hstuck
    · rw [destroyGadget_eq_none hg hnone] at hdestroy
      cases hdestroy
    · rw [(hstuck.destroyGadget hdestroy).build] at hbuild
      cases hbuild

/-! ### A build cut short -/

theorem createSteps_strings (p : GadgetParams) : ∀ s ∈ createSteps p,
    cfgStringsDir ∉ s.touches ∨ s = .mkdir cfgStringsDir true := by
  intro s hs
  have hblank : ∀ s ∈ blankSteps, cfgStringsDir ∉ s.touches ∨ s = .mkdir cfgStringsDir true := by
    decide +kernel
  have hmem : s.blank ∈ blankSteps := map_blank_createSteps p ▸ List.mem_map_of_mem hs
  rcases hblank s.blank hmem with hbeside | hmkdir
  · rw [s.blank_touches] at hbeside
    exact .inl hbeside
  · cases s with
    | mkdir path existOk => exact .inr hmkdir
    | write path value => cases hmkdir
    | link path target => cases hmkdir

theorem runSteps_strings {steps : List CreateStep} {fs' : ConfigFs}
    (h : runSteps fs steps = some fs')
    (hsteps : ∀ s ∈ steps, cfgStringsDir ∉ s.touches ∨ s = .mkdir cfgStringsDir true)
    (hfs : fs.lookup cfgStringsDir = none ∨ fs.lookup cfgStringsDir = some (.dir true)) :
    fs'.lookup cfgStringsDir = none ∨ fs'.lookup cfgStringsDir = some (.dir true) := by
  induction steps generalizing fs with
  | nil =>
    cases h
    exact hfs
  | cons s steps ih =>
    rw [runSteps_cons, Option.bind_eq_some_iff] at h
    obtain ⟨fs₁, hs, hrest⟩ := h
    refine ih hrest (fun s' hs' => hsteps s' (.tail _ hs')) ?_
    rcases hsteps s List.mem_cons_self with hbeside | rfl
    · rw [apply_frame hs hbeside]
      exact hfs
    · simp only [CreateStep.apply, ConfigFs.mkdir] at hs
      split_ifs at hs
      · cases hs
        exact hfs
      · cases hs
        right
        rw [lookup_foldl_insert (by decide), AList.lookup_insert]

theorem take_done {k : ℕ} (hcut : k < (createSteps p).length)
    (h : runSteps ∅ ((createSteps p).take k) = some fs) :
    (∀ s ∈ (buildSteps p).take k, s.Done fs) ∧ fs.lookup cfgLink = none := by
  rw [take_build hcut] at h
  have hsub : (buildSteps p).take k ⊆ buildSteps p := List.take_subset k _
  have hpairs := (List.pairwise_append.mp (createSteps_pairwise p)).1.sublist
    (List.take_sublist k (buildSteps p))
  refine ⟨runSteps_done h hpairs fun s hs => buildSteps_isLink p s (hsub hs), ?_⟩
  exact runSteps_frame h fun s hs => buildSteps_untouched p s (hsub hs)

/-- Once the gadget has its directory, only a tree that is recognised is of use. -/
theorem recovers_iff_recognised {k : ℕ} (hg : t.fs.exists_ gadgetDir)
    (h : runSteps ∅ ((createSteps p).take k) = some t.fs) :
    Recovers d p t ↔ t.Recognised p ∧ Complete p t.fs := by
  have hstrings : t.fs.lookup cfgStringsDir = none ∨ Stuck t.fs := by
    refine (runSteps_strings h ?_ (.inl rfl)).imp_right fun hmade => ⟨hmade, hg⟩
    exact fun s hs => createSteps_strings p s (List.take_subset k _ hs)
  constructor
  · rintro ⟨t', made, hcreate, hcomplete⟩
    have hrecognised : t.Recognised p := by
      by_contra hmalformed
      rw [createGadget_eq_none hg hmalformed hstrings] at hcreate
      cases hcreate
    rw [LiveTree.idle_iff.mpr hrecognised] at hcreate
    cases hcreate
    exact ⟨hrecognised, hcomplete⟩
  · rintro ⟨hrecognised, hcomplete⟩
    exact ⟨t, [], LiveTree.idle_iff.mpr hrecognised, hcomplete⟩

/-- The next start gets a complete gadget only from nothing, or from all of it where the inquiry
string survives its handler. -/
theorem recovers_iff (d : Delivery) (p : GadgetParams) (k : ℕ) :
    ∃ t, ((createSteps p).take k).foldlM (LiveTree.apply d) ⟨∅, []⟩ = some t ∧
      (Recovers d p t ↔ k = 0 ∨ (createSteps p).length ≤ k ∧
        (p.inquiryString = [] ∨ d.Survives p.inquiryString)) := by
  obtain ⟨t, hrun⟩ := LiveTree.exists_foldlM (t := ⟨∅, []⟩) d (runSteps_take_isSome p k)
  have hfs : runSteps ∅ ((createSteps p).take k) = some t.fs := LiveTree.foldlM_fs hrun
  refine ⟨t, hrun, ?_⟩
  rcases Nat.eq_zero_or_pos k with rfl | hk
  · cases hrun
    obtain ⟨t', hbuilt⟩ := LiveTree.exists_built d p
    have hcreate := LiveTree.createGadget_empty hbuilt
    exact iff_of_true ⟨t', _, hcreate, LiveTree.complete_built hbuilt⟩ (.inl rfl)
  · rw [or_iff_right hk.ne']
    by_cases hcut : k < (createSteps p).length
    · obtain ⟨hdone, hlink⟩ := take_done hcut hfs
      have hg : t.fs.exists_ gadgetDir := by
        apply exists_gadgetDir
        exact hdone (.mkdir gadgetDir false) (List.take_subset_take_left _ hk List.mem_cons_self)
      rw [recovers_iff_recognised hg hfs]
      exact iff_of_false (fun h => not_complete_of_untouched hlink h.2) fun h => not_le.mpr hcut h.1
    · have hwhole := not_lt.mp hcut
      have hcomplete : Complete p t.fs := by
        rw [List.take_of_length_le hwhole] at hfs
        exact build_complete hfs
      have hg : t.fs.exists_ gadgetDir := by
        apply exists_gadgetDir
        exact hcomplete (.mkdir gadgetDir false) List.mem_cons_self
      rw [recovers_iff_recognised hg hfs, and_iff_left hcomplete, and_iff_right hwhole]
      rw [List.take_of_length_le hwhole] at hrun
      exact LiveTree.recognised_build_iff hrun

/-- The service died after its first mkdir, and every later start fails. -/
theorem dead_after_first_mkdir :
    ∃ t, ((createSteps teacParams).take 1).foldlM (LiveTree.apply .single) ⟨∅, []⟩ = some t ∧
      t.createGadget .single teacParams = none ∧ ¬ Recovers .single teacParams t := by
  have hraise : (((createSteps teacParams).take 1).foldlM (LiveTree.apply .single) ⟨∅, []⟩).map
      (fun t => (t.createGadget .single teacParams).isNone) = some true := by decide +kernel
  obtain ⟨t, hrun, hnone⟩ := Option.map_eq_some_iff.mp hraise
  have hcreate : t.createGadget .single teacParams = none := Option.isNone_iff_eq_none.mp hnone
  refine ⟨t, hrun, hcreate, ?_⟩
  rintro ⟨t', made, hrecreate, -⟩
  rw [hcreate] at hrecreate
  cases hrecreate

end UsbFloppy.Gadget
