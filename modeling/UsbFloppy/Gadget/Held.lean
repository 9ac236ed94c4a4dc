import UsbFloppy.Gadget.FailedMounts
import UsbFloppy.Gadget.Isolation

/-! The file that the LUN has open, and the path it was opened by. A path leads to that file as
long as nothing on its way is unlinked or renamed: by the preparation of a mount, which clears the
session directory, or by what moves current.img. -/

namespace UsbFloppy.Gadget
open Files Kernel

/-- The LUN has the file open that the path leads to; a file that was unlinked, or whose path
leads somewhere else by now, is another one. -/
def Appliance.Holds (s : Appliance) (file : Image) : Prop :=
  ∃ q f, s.opened = some (.linked q) ∧ resolve s.fs file.1 = some (q, f)

variable {g : GadgetController} {s s' : Appliance} {fs : Fs} {c : MountCall} {file : Image}

/-! ### The way of a path past current.img -/

/-- The path is not current.img, nor where a regular file in its place would be put. -/
def Untouched (b : SysfsBackend) (fs : Fs) (p : Path) : Prop :=
  ∀ link blank, b = ⟨some link, some blank⟩ →
    p ≠ link ∧ (isSymlink fs link = false → p ≠ bakPath link)

/-- Nothing that `_update_current_symlink` touches lies on the way of the path. -/
def ClearOfLink (g : GadgetController) (fs : Fs) (file : Image) : Prop :=
  StaysIn fs (Untouched g.backend fs) (maxSymlinks + 1) file.1

theorem Untouched.lookup {b : SysfsBackend} {p : Path} (h : Untouched b fs p) (t : Option Image) :
    (b.updateCurrentSymlink fs t).lookup p = fs.lookup p := by
  obtain ⟨_ | link, _ | blank⟩ := b
  · rfl
  · rfl
  · rfl
  obtain ⟨hlink, hbak⟩ := h link blank rfl
  by_cases hsym : isSymlink fs link = true
  · obtain ⟨t', ht'⟩ : ∃ t', fs.lookup link = some (.link t') := by
      unfold isSymlink at hsym
      split at hsym
      · rename_i t' ht'
        exact ⟨t', ht'⟩
      · cases hsym
    exact lookup_updateSymlink_ne ht' hlink
  · exact lookup_updateSymlink_of_ne fs hlink (hbak (eq_false_of_ne_true hsym))

theorem Untouched.congr {b : SysfsBackend} {fs fs' : Fs} {p : Path}
    (hsym : ∀ link, isSymlink fs link = true → isSymlink fs' link = true)
    (h : Untouched b fs p) : Untouched b fs' p := by
  intro link blank hb
  refine ⟨(h link blank hb).1, fun hno => (h link blank hb).2 ?_⟩
  by_contra hyes
  rw [hsym link (eq_true_of_ne_false hyes)] at hno
  cases hno

theorem isSymlink_updated {b : SysfsBackend} {link blank : Path} (hb : b = ⟨some link, some blank⟩)
    (fs : Fs) (t : Option Image) : isSymlink (b.updateCurrentSymlink fs t) link = true := by
  subst hb
  simp only [SysfsBackend.updateCurrentSymlink, isSymlink, lookup_updateSymlink]

theorem Untouched.updated {b : SysfsBackend} {p : Path} (h : Untouched b fs p) (t : Option Image) :
    Untouched b (b.updateCurrentSymlink fs t) p := by
  intro link blank hb
  refine ⟨(h link blank hb).1, fun hno => ?_⟩
  rw [isSymlink_updated hb fs t] at hno
  cases hno

/-- Once the link leads to a backing file that is there, it is off the file's way. -/
theorem clearOfLink_attached {q : Path} {f : File}
    (h : resolve (g.backend.updateCurrentSymlink fs (some file)) file.1 = some (q, f)) :
    ClearOfLink g (g.backend.updateCurrentSymlink fs (some file)) file := by
  unfold ClearOfLink
  rcases hb : g.backend with ⟨_ | link, _ | blank⟩
  · exact staysIn_of_forall (fun _ _ _ h => by cases h) _ _
  · exact staysIn_of_forall (fun _ _ _ h => by cases h) _ _
  · exact staysIn_of_forall (fun _ _ _ h => by cases h) _ _
  rw [hb] at h
  have hlink := lookup_updateSymlink fs link file.1
  have hleads :
      (followLinks (maxSymlinks + 1) (updateSymlink fs link file.1) file.1).isSome = true :=
    Option.isSome_iff_exists.mpr ⟨_, h⟩
  refine StaysIn.mono (fun x hx => ?_) (staysIn_of_link hlink hleads _)
  intro link' blank' hb'
  cases hb'
  refine ⟨hx, fun hno => ?_⟩
  rw [isSymlink_updated rfl] at hno
  cases hno

/-! ### What a preparation does to the mounted image -/

theorem clearsSession_iff : c.clearsSession fs = true ↔ ClearsSession fs c := by
  unfold MountCall.clearsSession ClearsSession
  rcases resolve fs c.disk.1 with _ | ⟨q, f⟩
  · simp
  · simp only [Bool.and_eq_true, Bool.or_eq_true, List.contains_iff_mem, decide_eq_true_eq]
    constructor
    · rintro ⟨⟨hmem, hsize⟩, hwhy⟩
      exact ⟨hmem, q, f, rfl, hsize, hwhy.imp_right And.symm⟩
    · rintro ⟨hmem, q, f, hres, hsize, hwhy⟩
      cases hres
      exact ⟨⟨hmem, hsize⟩, hwhy.imp_right And.symm⟩

/-- There is no link in the session directory once it was cleared. -/
theorem scratchCopy_noLinks (fs : Fs) (disk backing : Image) (pad : Bool) (a : PrepFaults)
    {x : Path} (hx : x.dir = g.sessionDir.asPosix) (t : Path) :
    (g.scratchCopy fs disk backing pad a).1.lookup x ≠ some (.link t) := by
  have hclean : (g.cleanupSession fs).lookup x ≠ some (.link t) := by
    rw [lookup_cleanupSession, if_pos hx]
    exact fun h => by cases h
  have hcopied : ∀ f, ((g.cleanupSession fs).insert backing.1 (.file f)).lookup x ≠ some (.link t) :=
    fun f => lookup_insert_file hclean
  unfold GadgetController.scratchCopy copyfile
  dsimp only
  by_cases hmkdir : a.mkdir = true
  · rw [if_pos hmkdir]
    exact hclean
  rw [if_neg hmkdir]
  rcases resolve (g.cleanupSession fs) disk.1 with _ | ⟨q, f⟩
  · exact hclean
  rcases a.copy with _ | n
  · cases pad
    · exact hcopied _
    · rcases padToFull_fs ((g.cleanupSession fs).insert backing.1 (.file ⟨f.contents, true⟩))
        backing.1 a.pad with hfs | ⟨q', f₁, f₂, -, -, hfs⟩
      · dsimp only
        rw [if_pos rfl, hfs]
        exact hcopied _
      · dsimp only
        rw [if_pos rfl, hfs]
        exact lookup_insert_file (hcopied _)
  · exact hcopied _

theorem prepare_of_spared (hspared : ¬ ClearsSession fs c) (a : PrepFaults) :
    SameModes fs (g.prepare fs c a).1 := by
  have hsame : SameModes fs fs := fun _ => rfl
  unfold GadgetController.prepare
  by_cases hmem : c.disk ∉ c.floppySet.disks
  · rw [if_pos hmem]
    exact hsame
  rw [if_neg hmem]
  rcases hres : resolve fs c.disk.1 with _ | ⟨q, f⟩
  · exact hsame
  dsimp only
  rw [not_not] at hmem
  split_ifs with hlarge hsession htemp hsmall
  · exact hsame
  · exact absurd ⟨hmem, q, f, hres, not_lt.mp hlarge, Or.inl hsession⟩ hspared
  · exact absurd ⟨hmem, q, f, hres, not_lt.mp hlarge, Or.inr ⟨htemp.2.1, htemp.1⟩⟩ hspared
  · exact padToFull_sameModes fs c.disk.1 a.pad
  · exact hsame

/-- The files of a mount that clears the session directory, from then on. -/
structure Cleared (g : GadgetController) (fs fs' : Fs) : Prop where
  frame : ∀ x, OutsideSession g x → fs'.lookup x = fs.lookup x
  noLinks : ∀ x t, ¬ OutsideSession g x → fs'.lookup x ≠ some (.link t)

theorem prepare_of_cleared (hclear : ClearsSession fs c) (a : PrepFaults) :
    Cleared g fs (g.prepare fs c a).1 := by
  obtain ⟨hmem, q, f, hres, hsize, hwhy⟩ := hclear
  rw [prepare_of_clears hmem hres hsize hwhy a]
  have hdir : (scratchImage g c).1.dir = g.sessionDir.asPosix := by
    unfold scratchImage
    split_ifs <;> rfl
  exact ⟨fun x hx => scratchCopy_frame g fs c.disk _ a hdir hx,
    fun x t hx => scratchCopy_noLinks fs c.disk _ _ a (not_not.mp hx) t⟩

theorem Untouched.of_modes {fs' : Fs} (h : SameModes fs fs') {p : Path}
    (hp : Untouched g.backend fs p) : Untouched g.backend fs' p :=
  hp.congr fun link hsym => (h.isSymlink_eq link).symm.trans hsym

/-- A link that was cleared away lies in the session directory, and so does what a regular
file in its place is renamed to. -/
theorem Untouched.of_cleared {fs' : Fs} (h : Cleared g fs fs') {p : Path}
    (hp : Untouched g.backend fs p) (hout : OutsideSession g p) : Untouched g.backend fs' p := by
  intro link blank hb
  obtain ⟨hlink, hbak⟩ := hp link blank hb
  refine ⟨hlink, fun hno => ?_⟩
  by_cases hdir : OutsideSession g link
  · apply hbak
    unfold isSymlink at hno ⊢
    rw [← h.frame link hdir]
    exact hno
  · rintro rfl
    exact hdir hout

theorem cleaned_linked {fs : Fs} {opened : Option OpenFile} {q : Path}
    (h : opened.map (fun file => file.cleaned g fs) = some (.linked q)) : OutsideSession g q := by
  obtain ⟨p | contents, -, hclean⟩ := Option.map_eq_some_iff.mp h
  · rw [OpenFile.cleaned] at hclean
    split_ifs at hclean with hdir
    cases hclean
    exact hdir
  · cases hclean

theorem relinked_dir {b : SysfsBackend} {fs : Fs} {file : OpenFile} {q : Path}
    (h : file.relinked b fs = .linked q) : ∃ p, file = .linked p ∧ p.dir = q.dir := by
  rcases file with p | contents
  · refine ⟨p, rfl, ?_⟩
    rw [OpenFile.relinked] at h
    split at h
    · split_ifs at h with hrenamed hp
      · cases h
        rw [hp]
        rfl
      · cases h
        rfl
      · cases h
        rfl
    · cases h
      rfl
  · cases h

theorem relinked_of_untouched {b : SysfsBackend} {fs : Fs} {q : Path} (h : Untouched b fs q) :
    (OpenFile.linked q).relinked b fs = .linked q := by
  obtain ⟨_ | link, _ | blank⟩ := b
  · rfl
  · rfl
  · rfl
  obtain ⟨hlink, hbak⟩ := h link blank rfl
  rw [OpenFile.relinked]
  dsimp only
  split_ifs with hrenamed hbak'
  · exact absurd hbak' (hbak hrenamed.2)
  · rfl
  · rfl

/-- `_update_current_symlink`, on the files and on the file behind the LUN. -/
def Appliance.relink (g : GadgetController) (s : Appliance) (t : Option Image) : Appliance :=
  { s with
    fs := g.backend.updateCurrentSymlink s.fs t
    opened := s.opened.map fun file => file.relinked g.backend s.fs }

theorem Appliance.Holds.relink (h : s.Holds file) (hclear : ClearOfLink g s.fs file)
    (t : Option Image) :
    (s.relink g t).Holds file ∧ ClearOfLink g (s.relink g t).fs file := by
  obtain ⟨q, f, hopened, hres⟩ := h
  have hlookup : ∀ x, Untouched g.backend s.fs x → (s.relink g t).fs.lookup x = s.fs.lookup x :=
    fun x hx => hx.lookup t
  refine ⟨⟨q, f, ?_, (hclear.followLinks_eq hlookup).trans hres⟩, ?_⟩
  · rw [Appliance.relink, hopened, Option.map_some, relinked_of_untouched (hclear.mem hres)]
  · exact (hclear.congr hlookup).mono fun x hx => hx.updated t

theorem mount_of_kept {a : PrepFaults} (hkept : ClearsSession s.fs c →
      StaysIn s.fs (OutsideSession g) (maxSymlinks + 1) file.1)
    (h : s.Holds file) (hclear : ClearOfLink g s.fs file) :
    (s.mount g c a).Holds file ∧ ClearOfLink g (s.mount g c a).fs file := by
  obtain ⟨q, f, hopened, hres⟩ := h
  by_cases hclears : ClearsSession s.fs c
  · have hout := hkept hclears
    have hprep : Cleared g s.fs (s.mount g c a).fs := prepare_of_cleared hclears a
    refine ⟨⟨q, f, ?_, (hout.followLinks_eq hprep.frame).trans hres⟩, ?_⟩
    · have hq : ¬ q.dir = g.sessionDir.asPosix := hout.mem hres
      simp only [Appliance.mount, clearsSession_iff.mpr hclears, if_true, hopened, Option.map_some,
        OpenFile.cleaned, if_neg hq]
    · have hboth := (hout.and hclear).congr fun x hx => hprep.frame x hx.1
      exact hboth.mono fun x hx => hx.2.of_cleared hprep hx.1
  · have hmodes : SameModes s.fs (s.mount g c a).fs := prepare_of_spared hclears a
    obtain ⟨f', hres', -⟩ := hmodes.symm.writable hres
    refine ⟨⟨q, f', ?_, hres'⟩, ?_⟩
    · have hno : c.clearsSession s.fs = false :=
        eq_false_of_ne_true (mt clearsSession_iff.mp hclears)
      simp only [Appliance.mount, hno, Bool.false_eq_true, if_false, hopened]
    · exact (hmodes.staysIn hclear).mono fun x hx => hx.of_modes hmodes

/-- A mounted image whose way was cut is another file than the LUN has open. -/
theorem not_holds_of_cut {P : Path → Prop}
    (hsame : ∀ x, OutsideSession g x → P x → s'.fs.lookup x = s.fs.lookup x)
    (hcut : ∀ x t, ¬ OutsideSession g x → P x → s'.fs.lookup x ≠ some (.link t))
    (hopened : ∀ q, s'.opened = some (.linked q) → OutsideSession g q)
    (hway : StaysIn s.fs P (maxSymlinks + 1) file.1)
    (h : ¬ StaysIn s.fs (OutsideSession g) (maxSymlinks + 1) file.1) : ¬ s'.Holds file := by
  rintro ⟨q, f, hq, hres⟩
  exact not_of_followLinks_cut hsame hcut hway h hres (hopened q hq)

theorem mount_opened {a : PrepFaults} (hclears : ClearsSession s.fs c) {q : Path}
    (h : (s.mount g c a).opened = some (.linked q)) : OutsideSession g q := by
  simp only [Appliance.mount, clearsSession_iff.mpr hclears, if_true] at h
  exact cleaned_linked h

theorem not_holds_mount {a : PrepFaults} (hclears : ClearsSession s.fs c)
    (hway : ClearOfLink g s.fs file)
    (h : ¬ StaysIn s.fs (OutsideSession g) (maxSymlinks + 1) file.1) :
    ¬ (s.mount g c a).Holds file := by
  have hprep : Cleared g s.fs (s.mount g c a).fs := prepare_of_cleared hclears a
  exact not_holds_of_cut (fun x hx _ => hprep.frame x hx) (fun x t hx _ => hprep.noLinks x t hx)
    (fun q hq => mount_opened hclears hq) hway h

/-- The link makes no link but itself. -/
theorem lookup_updated_link {b : SysfsBackend} {x t : Path} {target : Option Image}
    (hx : ∀ link blank, b = ⟨some link, some blank⟩ → x ≠ link)
    (h : (b.updateCurrentSymlink fs target).lookup x = some (.link t)) :
    fs.lookup x = some (.link t) := by
  obtain ⟨_ | link, _ | blank⟩ := b
  · exact h
  · exact h
  · exact h
  have hne : x ≠ link := hx link blank rfl
  simp only [SysfsBackend.updateCurrentSymlink, updateSymlink] at h
  rw [AList.lookup_insert_ne hne] at h
  split_ifs at h with hthere hsym
  · rwa [AList.lookup_erase_ne hne] at h
  · unfold rename at h
    split at h
    · rename_i node hnode
      by_cases hbak : x = bakPath link
      · rw [hbak, AList.lookup_insert] at h
        cases h
        exact absurd (by simp only [isSymlink, hnode]) hsym
      · rwa [AList.lookup_insert_ne hbak, AList.lookup_erase_ne hne] at h
    · exact h
  · exact h

theorem not_holds_relink {a : PrepFaults} (hclears : ClearsSession s.fs c)
    (hway : ClearOfLink g s.fs file)
    (h : ¬ StaysIn s.fs (OutsideSession g) (maxSymlinks + 1) file.1) (t : Option Image) :
    ¬ ((s.mount g c a).relink g t).Holds file := by
  have hprep : Cleared g s.fs (s.mount g c a).fs := prepare_of_cleared hclears a
  refine not_holds_of_cut (fun x hx hoff => ?_) (fun x t' hx hoff hlink => ?_) (fun q hq => ?_)
    hway h
  · exact ((hoff.of_cleared hprep hx).lookup t).trans (hprep.frame x hx)
  · exact hprep.noLinks x t' hx
      (lookup_updated_link (fun link blank hb => (hoff link blank hb).1) hlink)
  · obtain ⟨file', hopened, hrelinked⟩ := Option.map_eq_some_iff.mp hq
    obtain ⟨p, rfl, hdir⟩ := relinked_dir hrelinked
    have hp : OutsideSession g p := mount_opened hclears hopened
    rwa [OutsideSession, hdir] at hp

end UsbFloppy.Gadget
