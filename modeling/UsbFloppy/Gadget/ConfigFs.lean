import Mathlib.Data.List.AList
import Mathlib.Data.List.DropRight
import Mathlib.Tactic.SplitIfs
import UsbFloppy.Kernel.Basic

/-! The backend of the first phase, which builds the gadget in configfs step by step, and takes
a gadget apart that it finds malformed. An exception is none. -/

namespace UsbFloppy.Gadget

abbrev ConfigPath := List Text

/-- A directory is made by mkdir, or comes with another one. -/
inductive ConfigNode
  | dir (made : Bool)
  | attr (value : Text)
  | link (target : ConfigPath)
  deriving DecidableEq

abbrev ConfigFs := AList fun _ : ConfigPath => ConfigNode

/-! ### configfs -/

def emptyAttrs (names : List String) : List (ConfigPath × ConfigNode) :=
  names.map fun name => ([name.toList], .attr [])

/-- What comes with a directory. Of the attributes only inquiry_string and UDC are read before
they are written; they are empty. -/
def defaultNodes : ConfigPath → List (ConfigPath × ConfigNode)
  | [_] =>
    emptyAttrs ["idVendor", "idProduct", "bcdDevice", "bcdUSB", "UDC"] ++
      ["configs", "functions", "strings"].map fun name => ([name.toList], .dir false)
  | [_, group, _] =>
    if group = "strings".toList then emptyAttrs ["manufacturer", "product", "serialnumber"]
    else if group = "functions".toList then
      emptyAttrs ["stall"] ++ (["lun.0".toList], .dir false) ::
        (emptyAttrs ["removable", "cdrom", "nofua", "ro", "inquiry_string"]).map fun node =>
          ("lun.0".toList :: node.1, node.2)
    else if group = "configs".toList then emptyAttrs ["MaxPower", "bmAttributes"]
    else []
  | [_, _, _, _, _] => emptyAttrs ["configuration"]
  | _ => []

namespace ConfigFs

def exists_ (fs : ConfigFs) (path : ConfigPath) : Prop := path ∈ fs

instance (fs : ConfigFs) (path : ConfigPath) : Decidable (fs.exists_ path) :=
  inferInstanceAs (Decidable (path ∈ fs))

def isDir (fs : ConfigFs) (path : ConfigPath) : Bool :=
  match fs.lookup path with
  | some (.dir _) => true
  | _ => path = []

def isSymlink (fs : ConfigFs) (path : ConfigPath) : Bool :=
  match fs.lookup path with
  | some (.link _) => true
  | _ => false

-- texts are without carriage returns, which reading turns into newlines
def readText (fs : ConfigFs) (path : ConfigPath) : Option Text :=
  match fs.lookup path with
  | some (.attr value) => some value
  | _ => none

def writeText (fs : ConfigFs) (path : ConfigPath) (value : Text) : Option ConfigFs :=
  match fs.lookup path with
  | some (.attr _) => some (fs.insert path (.attr value))
  | _ => none

/-- `os.mkdir`. -/
def mkdir (fs : ConfigFs) (path : ConfigPath) : Option ConfigFs :=
  if fs.exists_ path ∨ fs.isDir path.dropLast = false then none
  else some ((defaultNodes path).foldl (fun fs node => fs.insert (path ++ node.1) node.2)
    (fs.insert path (.dir true)))

def symlinkTo (fs : ConfigFs) (path target : ConfigPath) : Option ConfigFs :=
  if fs.exists_ path ∨ fs.isDir path.dropLast = false ∨ ¬ fs.exists_ target then none
  else some (fs.insert path (.link target))

def iterdir (fs : ConfigFs) (path : ConfigPath) : Option (List ConfigPath) :=
  if fs.isDir path then some (fs.keys.filter fun q => q ≠ [] ∧ q.dropLast = path) else none

/-- Something below the directory was made, or a link leads to it. -/
def busy (fs : ConfigFs) (path : ConfigPath) : Bool :=
  fs.keys.any fun q =>
    match fs.lookup q with
    | some (.dir made) => made && q ≠ path && path.isPrefixOf q
    | some (.link target) => path.isPrefixOf q || target = path
    | _ => false

/-- `rmdir`, with its OSError caught. What came with a directory goes with it. -/
def tryRmdir (fs : ConfigFs) (path : ConfigPath) : ConfigFs :=
  if fs.lookup path = some (.dir true) ∧ fs.busy path = false then
    (fs.keys.filter fun q => path.isPrefixOf q).foldl (fun fs q => fs.erase q) fs
  else fs

end ConfigFs

/-! ### create_gadget -/

structure GadgetParams where
  idVendor : ℕ
  idProduct : ℕ
  bcdDevice : ℕ
  manufacturer : Text
  product : Text
  serial : Text
  inquiryString : Text
  deriving DecidableEq

def gadgetDir : ConfigPath := ["floppy".toList]
def stringsDir : ConfigPath := gadgetDir ++ ["strings".toList]
def funcDir : ConfigPath := gadgetDir ++ ["functions".toList, "mass_storage.usb0".toList]
def lunDir : ConfigPath := funcDir ++ ["lun.0".toList]
def cfgDir : ConfigPath := gadgetDir ++ ["configs".toList, "c.1".toList]
def cfgStringsDir : ConfigPath := cfgDir ++ ["strings".toList]
def cfgLink : ConfigPath := cfgDir ++ ["mass_storage.usb0".toList]
def inquiryPath : ConfigPath := lunDir ++ ["inquiry_string".toList]
def udcPath : ConfigPath := gadgetDir ++ ["UDC".toList]

/-- `f"0x{n:04x}"`. -/
def hex04 (n : ℕ) : Text := "0x".toList ++ (Nat.toDigits 16 n).leftpad 4 '0'

/-- A step of create_gadget after which the service may die. -/
inductive CreateStep
  | mkdir (path : ConfigPath) (existOk : Bool)
  | write (path : ConfigPath) (value : Text)
  | link (path target : ConfigPath)
  deriving DecidableEq

def CreateStep.apply (fs : ConfigFs) : CreateStep → Option ConfigFs
  | .mkdir path existOk => if existOk ∧ fs.isDir path then some fs else fs.mkdir path
  | .write path value => fs.writeText path value
  | .link path target => if fs.exists_ path then some fs else fs.symlinkTo path target

/-- The steps up to the attribute that `_is_well_formed` looks at. -/
def earlySteps (p : GadgetParams) : List CreateStep :=
  [.mkdir gadgetDir false,
    .write (gadgetDir ++ ["idVendor".toList]) (hex04 p.idVendor),
    .write (gadgetDir ++ ["idProduct".toList]) (hex04 p.idProduct),
    .write (gadgetDir ++ ["bcdDevice".toList]) (hex04 p.bcdDevice),
    .write (gadgetDir ++ ["bcdUSB".toList]) "0x0200".toList,
    .mkdir (stringsDir ++ ["0x409".toList]) true,
    .write (stringsDir ++ ["0x409".toList, "manufacturer".toList]) p.manufacturer,
    .write (stringsDir ++ ["0x409".toList, "product".toList]) p.product,
    .write (stringsDir ++ ["0x409".toList, "serialnumber".toList]) p.serial,
    .mkdir funcDir true,
    .write (funcDir ++ ["stall".toList]) ['0'],
    .mkdir lunDir true,
    .write (lunDir ++ ["removable".toList]) ['1'],
    .write (lunDir ++ ["cdrom".toList]) ['0'],
    .write (lunDir ++ ["nofua".toList]) ['0'],
    .write (lunDir ++ ["ro".toList]) ['0']]

/-- The steps between that attribute and the link; `parents=True` makes the directory of the
strings first. -/
def lateSteps : List CreateStep :=
  [.mkdir cfgDir true,
    .write (cfgDir ++ ["MaxPower".toList]) "250".toList,
    .write (cfgDir ++ ["bmAttributes".toList]) "0x80".toList,
    .mkdir cfgStringsDir true,
    .mkdir (cfgStringsDir ++ ["0x409".toList]) true,
    .write (cfgStringsDir ++ ["0x409".toList, "configuration".toList]) "USB Floppy Config".toList]

def buildSteps (p : GadgetParams) : List CreateStep :=
  earlySteps p ++ .write inquiryPath p.inquiryString :: lateSteps

def createSteps (p : GadgetParams) : List CreateStep := buildSteps p ++ [.link cfgLink funcDir]

def runSteps (fs : ConfigFs) (steps : List CreateStep) : Option ConfigFs :=
  steps.foldlM CreateStep.apply fs

/-- `str.isspace`, of a single character. -/
def isSpace (c : Char) : Bool :=
  (9 ≤ c.toNat && c.toNat ≤ 13) || (28 ≤ c.toNat && c.toNat ≤ 32) ||
    (8192 ≤ c.toNat && c.toNat ≤ 8202) ||
      [133, 160, 5760, 8232, 8233, 8239, 8287, 12288].contains c.toNat

def strip (t : Text) : Text := (t.dropWhile isSpace).rdropWhile isSpace

def isWellFormed (fs : ConfigFs) (p : GadgetParams) : Bool :=
  match fs.readText inquiryPath with
  | none => false
  | some current => strip (strip current) = strip p.inquiryString

/-- Away from its controller; an OSError is caught. -/
def detachUdc (fs : ConfigFs) : ConfigFs :=
  match fs.readText udcPath with
  | some udc => if strip udc = [] then fs else (fs.writeText udcPath []).getD fs
  | none => fs

def destroyGadget (fs : ConfigFs) : Option ConfigFs :=
  if ¬ fs.exists_ gadgetDir then some fs
  else do
    let fs : ConfigFs := detachUdc fs
    let fs : ConfigFs := if fs.isSymlink cfgLink then fs.erase cfgLink else fs
    let strings ← fs.iterdir cfgStringsDir
    let fs : ConfigFs := strings.foldl ConfigFs.tryRmdir fs
    let fs : ConfigFs := fs.tryRmdir cfgDir
    let fs : ConfigFs :=
      if fs.exists_ funcDir then (fs.tryRmdir lunDir).tryRmdir funcDir else fs
    let strings ← fs.iterdir stringsDir
    let fs : ConfigFs := strings.foldl ConfigFs.tryRmdir fs
    some (fs.tryRmdir gadgetDir)

def createGadget (fs : ConfigFs) (p : GadgetParams) : Option ConfigFs :=
  if fs.exists_ gadgetDir then
    if isWellFormed fs p then some fs
    else (destroyGadget fs).bind fun fs => runSteps fs (createSteps p)
  else runSteps fs (createSteps p)

/-! ### What a step leaves alone -/

def CreateStep.touches : CreateStep → List ConfigPath
  | .mkdir path _ => path :: (defaultNodes path).map fun node => path ++ node.1
  | .write path _ => [path]
  | .link path _ => [path]

variable {fs fs' : ConfigFs} {p : GadgetParams} {q : ConfigPath}

theorem lookup_foldl_insert {base : ConfigPath} {nodes : List (ConfigPath × ConfigNode)}
    (h : q ∉ nodes.map fun node => base ++ node.1) (fs : ConfigFs) :
    (nodes.foldl (fun fs node => fs.insert (base ++ node.1) node.2) fs).lookup q =
      fs.lookup q := by
  induction nodes generalizing fs with
  | nil => rfl
  | cons node nodes ih =>
    rw [List.map_cons, List.mem_cons, not_or] at h
    rw [List.foldl_cons, ih h.2, AList.lookup_insert_ne h.1]

theorem writeText_eq_some {path : ConfigPath} {value : Text}
    (h : fs.writeText path value = some fs') : fs' = fs.insert path (.attr value) := by
  unfold ConfigFs.writeText at h
  split at h
  · exact (Option.some.inj h).symm
  · cases h

theorem apply_frame {s : CreateStep} (h : s.apply fs = some fs') (hq : q ∉ s.touches) :
    fs'.lookup q = fs.lookup q := by
  cases s with
  | mkdir path existOk =>
    obtain ⟨hne, hdefault⟩ := not_or.mp fun hmem => hq (List.mem_cons.mpr hmem)
    simp only [CreateStep.apply, ConfigFs.mkdir] at h
    split_ifs at h
    · cases h
      rfl
    · cases h
      rw [lookup_foldl_insert hdefault, AList.lookup_insert_ne hne]
  | write path value =>
    have hne : q ≠ path := fun heq => hq (heq ▸ List.mem_singleton_self q)
    rw [writeText_eq_some h, AList.lookup_insert_ne hne]
  | link path target =>
    have hne : q ≠ path := fun heq => hq (heq ▸ List.mem_singleton_self q)
    simp only [CreateStep.apply, ConfigFs.symlinkTo] at h
    split_ifs at h
    · cases h
      rfl
    · cases h
      exact AList.lookup_insert_ne hne

theorem runSteps_cons (fs : ConfigFs) (s : CreateStep) (steps : List CreateStep) :
    runSteps fs (s :: steps) = (s.apply fs).bind fun fs => runSteps fs steps := by
  unfold runSteps
  rw [List.foldlM_cons]
  rfl

theorem runSteps_append (fs : ConfigFs) (steps steps' : List CreateStep) :
    runSteps fs (steps ++ steps') = (runSteps fs steps).bind fun fs => runSteps fs steps' := by
  unfold runSteps
  rw [List.foldlM_append]
  rfl

theorem runSteps_frame {steps : List CreateStep} (h : runSteps fs steps = some fs')
    (hq : ∀ s ∈ steps, q ∉ s.touches) : fs'.lookup q = fs.lookup q := by
  induction steps generalizing fs with
  | nil =>
    cases h
    rfl
  | cons s steps ih =>
    rw [runSteps_cons, Option.bind_eq_some_iff] at h
    obtain ⟨fs₁, hs, hrest⟩ := h
    rw [ih hrest fun t ht => hq t (.tail _ ht), apply_frame hs (hq s List.mem_cons_self)]

def CreateStep.path : CreateStep → ConfigPath
  | .mkdir path _ => path
  | .write path _ => path
  | .link path _ => path

def CreateStep.isLink : CreateStep → Bool
  | .link _ _ => true
  | _ => false

/-- The step shows in the tree. -/
def CreateStep.Done (fs : ConfigFs) : CreateStep → Prop
  | .mkdir path _ => fs.isDir path = true
  | .write path value => fs.lookup path = some (.attr value)
  | .link path target => fs.lookup path = some (.link target)

theorem CreateStep.Done.congr {s : CreateStep} (h : s.Done fs)
    (hpath : fs'.lookup s.path = fs.lookup s.path) : s.Done fs' := by
  cases s with
  | mkdir path existOk =>
    have hdir : fs'.isDir path = fs.isDir path := by
      unfold ConfigFs.isDir
      rw [show fs'.lookup path = fs.lookup path from hpath]
    exact hdir.trans h
  | write path value => exact hpath.trans h
  | link path target => exact hpath.trans h

theorem defaultNodes_ne_nil (path : ConfigPath) : ∀ node ∈ defaultNodes path, node.1 ≠ [] := by
  unfold defaultNodes
  split
  · decide
  · split_ifs <;> decide
  · decide
  · intro node hnode
    cases hnode

theorem mkdir_isDir {path : ConfigPath} (h : fs.mkdir path = some fs') : fs'.isDir path = true := by
  unfold ConfigFs.mkdir at h
  split_ifs at h
  cases h
  have hself : path ∉ (defaultNodes path).map fun node => path ++ node.1 := by
    rw [List.mem_map]
    intro ⟨node, hnode, heq⟩
    exact defaultNodes_ne_nil path node hnode (List.append_right_eq_self.mp heq)
  unfold ConfigFs.isDir
  rw [lookup_foldl_insert hself, AList.lookup_insert]

theorem apply_done {s : CreateStep} (h : s.apply fs = some fs')
    (hfree : s.isLink → fs.lookup s.path = none) : s.Done fs' := by
  cases s with
  | mkdir path existOk =>
    simp only [CreateStep.apply] at h
    split_ifs at h with hdir
    · cases h
      exact hdir.2
    · exact mkdir_isDir h
  | write path value =>
    rw [writeText_eq_some h]
    exact AList.lookup_insert fs
  | link path target =>
    have hnone : ¬ fs.exists_ path := AList.lookup_eq_none.mp (hfree rfl)
    simp only [CreateStep.apply, if_neg hnone, ConfigFs.symlinkTo] at h
    split_ifs at h
    cases h
    exact AList.lookup_insert fs

/-- The steps of a run show at the end, if no later step touches what they made. -/
theorem runSteps_done {steps : List CreateStep} (h : runSteps fs steps = some fs')
    (hlast : steps.Pairwise fun s t => s.path ∉ t.touches)
    (hlinks : ∀ s ∈ steps, s.isLink = false) : ∀ s ∈ steps, s.Done fs' := by
  induction steps generalizing fs with
  | nil =>
    intro s hs
    cases hs
  | cons s steps ih =>
    rw [runSteps_cons, Option.bind_eq_some_iff] at h
    obtain ⟨fs₁, hs, hrest⟩ := h
    rw [List.pairwise_cons] at hlast
    intro t ht
    rcases List.mem_cons.mp ht with rfl | ht
    · have hlink : ¬ t.isLink = true := by simp [hlinks t List.mem_cons_self]
      apply (apply_done hs fun h => absurd h hlink).congr
      exact runSteps_frame hrest hlast.1
    · exact ih hrest hlast.2 (fun u hu => hlinks u (.tail _ hu)) t ht

/-! ### Every step of a build succeeds

Whether it does is a matter of which directories and attributes there are, not of what the
attributes hold. -/

def ConfigNode.blank : ConfigNode → ConfigNode
  | .attr _ => .attr []
  | node => node

def CreateStep.blank : CreateStep → CreateStep
  | .write path _ => .write path []
  | s => s

def SameShape (fs fs' : ConfigFs) : Prop :=
  ∀ q, (fs.lookup q).map ConfigNode.blank = (fs'.lookup q).map ConfigNode.blank

theorem SameShape.exists_iff (h : SameShape fs fs') (q : ConfigPath) :
    fs.exists_ q ↔ fs'.exists_ q := by
  unfold ConfigFs.exists_
  rw [← AList.lookup_isSome, ← AList.lookup_isSome, ← Option.isSome_map, h q, Option.isSome_map]

theorem SameShape.isDir_eq (h : SameShape fs fs') (q : ConfigPath) : fs.isDir q = fs'.isDir q := by
  have hq := h q
  unfold ConfigFs.isDir
  generalize fs.lookup q = node at hq
  generalize fs'.lookup q = node' at hq
  rcases node with _ | (_ | _ | _) <;> rcases node' with _ | (_ | _ | _) <;>
    first | rfl | cases hq

theorem SameShape.insert (h : SameShape fs fs') (path : ConfigPath) {node node' : ConfigNode}
    (hnode : node.blank = node'.blank) : SameShape (fs.insert path node) (fs'.insert path node') := by
  intro q
  by_cases hq : q = path
  · rw [hq, AList.lookup_insert, AList.lookup_insert, Option.map_some, Option.map_some, hnode]
  · rw [AList.lookup_insert_ne hq, AList.lookup_insert_ne hq, h q]

theorem SameShape.foldl_insert (h : SameShape fs fs') (base : ConfigPath)
    (nodes : List (ConfigPath × ConfigNode)) :
    SameShape (nodes.foldl (fun fs node => fs.insert (base ++ node.1) node.2) fs)
      (nodes.foldl (fun fs node => fs.insert (base ++ node.1) node.2) fs') := by
  induction nodes generalizing fs fs' with
  | nil => exact h
  | cons node nodes ih => exact ih (h.insert _ rfl)

theorem SameShape.mkdir (h : SameShape fs fs') (path : ConfigPath) {fs₁' : ConfigFs}
    (hok : fs'.mkdir path = some fs₁') :
    ∃ fs₁, fs.mkdir path = some fs₁ ∧ SameShape fs₁ fs₁' := by
  simp only [ConfigFs.mkdir, ← h.exists_iff, ← h.isDir_eq] at hok ⊢
  split_ifs at hok ⊢
  cases hok
  exact ⟨_, rfl, (h.insert path rfl).foldl_insert path _⟩

theorem SameShape.apply (h : SameShape fs fs') (s : CreateStep) {fs₁' : ConfigFs}
    (hok : s.blank.apply fs' = some fs₁') :
    ∃ fs₁, s.apply fs = some fs₁ ∧ SameShape fs₁ fs₁' := by
  cases s with
  | mkdir path existOk =>
    simp only [CreateStep.blank, CreateStep.apply, ← h.isDir_eq] at hok ⊢
    split_ifs at hok ⊢
    · cases hok
      exact ⟨fs, rfl, h⟩
    · exact h.mkdir path hok
  | write path value =>
    have hpath := h path
    simp only [CreateStep.blank, CreateStep.apply, ConfigFs.writeText] at hok ⊢
    split at hok
    · rename_i old hold
      cases hok
      rw [hold] at hpath
      rcases hnew : fs.lookup path with _ | (made | value' | target) <;> rw [hnew] at hpath
      · cases hpath
      · cases hpath
      · exact ⟨_, rfl, h.insert path rfl⟩
      · cases hpath
    · cases hok
  | link path target =>
    simp only [CreateStep.blank, CreateStep.apply, ConfigFs.symlinkTo, ← h.exists_iff,
      ← h.isDir_eq] at hok ⊢
    split_ifs at hok ⊢
    · cases hok
      exact ⟨fs, rfl, h⟩
    · cases hok
      exact ⟨_, rfl, h.insert path rfl⟩

theorem SameShape.runSteps (h : SameShape fs fs') (steps : List CreateStep)
    (hok : (Gadget.runSteps fs' (steps.map CreateStep.blank)).isSome) :
    (Gadget.runSteps fs steps).isSome := by
  induction steps generalizing fs fs' with
  | nil => rfl
  | cons s steps ih =>
    rw [List.map_cons, runSteps_cons] at hok
    rw [runSteps_cons]
    rcases hs : s.blank.apply fs' with _ | fs₁'
    · rw [hs] at hok
      cases hok
    · rw [hs] at hok
      obtain ⟨fs₁, hs₁, hshape⟩ := h.apply s hs
      rw [hs₁]
      exact ih hshape hok

/-- The steps with empty values are the same for all parameters. -/
def blankSteps : List CreateStep := (createSteps ⟨0, 0, 0, [], [], [], []⟩).map CreateStep.blank

theorem map_blank_createSteps (p : GadgetParams) :
    (createSteps p).map CreateStep.blank = blankSteps := rfl

theorem build_isSome (p : GadgetParams) : (runSteps ∅ (createSteps p)).isSome := by
  have hempty : SameShape ∅ ∅ := fun _ => rfl
  apply hempty.runSteps
  rw [map_blank_createSteps]
  decide +kernel

/-! ### What the steps touch is the same for all parameters -/

def blankParams : GadgetParams := ⟨0, 0, 0, [], [], [], []⟩

theorem CreateStep.blank_path (s : CreateStep) : s.blank.path = s.path := by
  cases s <;> rfl

theorem CreateStep.blank_touches (s : CreateStep) : s.blank.touches = s.touches := by
  cases s <;> rfl

theorem CreateStep.blank_isLink (s : CreateStep) : s.blank.isLink = s.isLink := by
  cases s <;> rfl

theorem untouched_of_blank {steps : List CreateStep} {q : ConfigPath}
    (h : ∀ s ∈ steps.map CreateStep.blank, q ∉ s.touches) : ∀ s ∈ steps, q ∉ s.touches := by
  intro s hs
  rw [← s.blank_touches]
  exact h s.blank (List.mem_map_of_mem hs)

variable (p)

theorem createSteps_pairwise : (createSteps p).Pairwise fun s t => s.path ∉ t.touches := by
  have hblank : blankSteps.Pairwise fun s t => s.path ∉ t.touches := by decide +kernel
  rw [← map_blank_createSteps p, List.pairwise_map] at hblank
  simpa only [CreateStep.blank_path, CreateStep.blank_touches] using hblank

theorem buildSteps_untouched : ∀ s ∈ buildSteps p, cfgLink ∉ s.touches := by
  apply untouched_of_blank
  change ∀ s ∈ (buildSteps blankParams).map CreateStep.blank, cfgLink ∉ s.touches
  decide +kernel

theorem buildSteps_isLink : ∀ s ∈ buildSteps p, s.isLink = false := by
  intro s hs
  have hblank : ∀ s ∈ (buildSteps blankParams).map CreateStep.blank, s.isLink = false := by
    decide +kernel
  rw [← s.blank_isLink]
  exact hblank s.blank (List.mem_map_of_mem (l := buildSteps p) hs)

variable {p}

/-! ### A whole build -/

theorem strip_strip (t : Text) : strip (strip t) = strip t := by
  have hhead : (strip t).dropWhile isSpace = strip t := by
    rw [List.dropWhile_eq_self_iff]
    intro hl
    have hstart : strip t <+: t.dropWhile isSpace := List.rdropWhile_prefix _ _
    have hdrop := List.dropWhile_eq_self_iff.mp (List.dropWhile_idempotent isSpace t)
    rw [hstart.getElem hl]
    exact hdrop (hl.trans_le hstart.length_le)
  change ((strip t).dropWhile isSpace).rdropWhile isSpace = strip t
  rw [hhead]
  exact List.rdropWhile_idempotent _ _

theorem build_done {fs₀ : ConfigFs} (h : runSteps fs₀ (createSteps p) = some fs) :
    ∀ s ∈ buildSteps p, s.Done fs := by
  unfold createSteps at h
  rw [runSteps_append, Option.bind_eq_some_iff] at h
  obtain ⟨fs₁, hbuild, hlink⟩ := h
  rw [runSteps_cons, Option.bind_eq_some_iff] at hlink
  obtain ⟨fs₂, hlink, heq⟩ := hlink
  cases heq
  obtain ⟨hpairs, -, hlast⟩ := List.pairwise_append.mp (createSteps_pairwise p)
  intro s hs
  have hdone := runSteps_done hbuild hpairs (buildSteps_isLink p) s hs
  exact hdone.congr (apply_frame hlink (hlast s hs _ List.mem_cons_self))

def Complete (p : GadgetParams) (fs : ConfigFs) : Prop := ∀ s ∈ createSteps p, s.Done fs

theorem build_complete (h : runSteps ∅ (createSteps p) = some fs) : Complete p fs := by
  intro s hs
  rcases List.mem_append.mp hs with hs | hs
  · exact build_done h s hs
  · cases List.mem_singleton.mp hs
    unfold createSteps at h
    rw [runSteps_append, Option.bind_eq_some_iff] at h
    obtain ⟨fs₁, hbuild, hlink⟩ := h
    rw [runSteps_cons, Option.bind_eq_some_iff] at hlink
    obtain ⟨fs₂, hlink, heq⟩ := hlink
    cases heq
    have hfree : fs₁.lookup cfgLink = none := runSteps_frame hbuild (buildSteps_untouched p)
    exact apply_done hlink fun _ => hfree

theorem exists_gadgetDir (h : fs.isDir gadgetDir = true) : fs.exists_ gadgetDir := by
  unfold ConfigFs.isDir at h
  split at h
  · rename_i made hlookup
    rw [ConfigFs.exists_, ← AList.lookup_isSome, hlookup]
    rfl
  · cases of_decide_eq_true h

def teacParams : GadgetParams :=
  ⟨0x0525, 0xA4A5, 0x0001, "Linux Foundation".toList, "USB Floppy".toList, "0001".toList,
    "TEAC    FD-05PUW         3000".toList⟩

end UsbFloppy.Gadget
