import UsbFloppy.Kernel.Throttle

/-! Function instances of the gadget module and the module-wide singletons f_floppy.c
keeps beside them: the active fsg_common of the sysfs bridge, the reference count, and
the throttle and tracker states handed to other modules. -/

namespace UsbFloppy.Kernel
open Transition

/-- The address of an allocated object. -/
abbrev Ptr := ℕ

/-- What `fsg_common_setup` writes and the allocation path reads. -/
structure FsgCommonObj where
  freeStorageOnRelease : Bool
  sysfs : Bool
  lun0 : Bool
  deriving DecidableEq, Repr

/-- A `usb_function_instance` handed out by `fsg_alloc_inst`: its `opts->common`. -/
structure FsgInstance where
  common : Ptr
  deriving DecidableEq, Repr

/-- `heap` holds the fsg_common objects that are set up and not yet freed. The instances
in `live` were handed out and not yet given back. -/
structure ModuleState where
  heap : Ptr → Option FsgCommonObj
  floppyActiveCommon : Option Ptr
  floppyThrottleRefcnt : ℤ
  gThrottle : Option FloppyThrottleState
  gState : Option FloppyIoEventState
  live : List FsgInstance

def moduleInit : ModuleState where
  heap := fun _ => none
  floppyActiveCommon := none
  floppyThrottleRefcnt := 0
  gThrottle := none
  gState := none
  live := []

def floppyThrottleGet (s : ModuleState) : Option FloppyThrottleState := s.gThrottle

def floppyIoEventGet (s : ModuleState) : Option FloppyIoEventState := s.gState

/-- What the allocators answer during one `fsg_alloc_inst`. -/
structure AllocAnswers where
  opts : Bool
  common : Option Ptr
  buffhds : Bool
  buffers : List Bool
  lun : Bool
  deriving DecidableEq, Repr

/-- `fsg_common_setup(NULL)`. -/
def fsgCommonSetup (s : ModuleState) (kzalloc : Option Ptr) : Except Errno (ModuleState × Ptr) :=
  match kzalloc with
  | none => .error .ENOMEM
  | some p => .ok
      ({ s with
          heap := Function.update s.heap p (some ⟨true, false, false⟩)
          floppyActiveCommon := some p }, p)

def takeReference (s : ModuleState) : ModuleState :=
  { s with
    gThrottle := if s.floppyThrottleRefcnt = 0 then some floppyThrottleInit else s.gThrottle
    gState := if s.floppyThrottleRefcnt = 0 then some floppyIoEventInit else s.gState
    floppyThrottleRefcnt := s.floppyThrottleRefcnt + 1 }

/-- `fsg_common_set_num_buffers`: the list of heads, then one buffer for each. -/
def fsgCommonSetNumBuffers (a : AllocAnswers) : Except Errno Unit :=
  if a.buffhds ∧ a.buffers.all id then .ok () else .error .ENOMEM

/-- `fsg_common_create_lun` for LUN 0, removable and without a file. Without sysfs no
device is registered. -/
def fsgCommonCreateLun (s : ModuleState) (p : Ptr) (a : AllocAnswers) :
    Except Errno ModuleState :=
  match s.heap p with
  | none => .error .EINVAL
  | some common =>
    if common.lun0 then .error .EBUSY
    else if a.lun then
      .ok { s with heap := Function.update s.heap p (some { common with lun0 := true }) }
    else .error .ENOMEM

def kfree (s : ModuleState) (p : Ptr) : ModuleState :=
  { s with heap := Function.update s.heap p none }

/-- `fsg_alloc_inst`. The error labels free the common but leave the singletons alone. -/
def fsgAllocInst (s : ModuleState) (a : AllocAnswers) : ModuleState × Except Errno FsgInstance :=
  if a.opts then
    match fsgCommonSetup s a.common with
    | .error e => (s, .error e)
    | .ok (s, p) =>
      let s := takeReference s
      match fsgCommonSetNumBuffers a with
      | .error e => (kfree s p, .error e)
      | .ok () =>
        match fsgCommonCreateLun s p a with
        | .error e => (kfree s p, .error e)
        | .ok s => ({ s with live := ⟨p⟩ :: s.live }, .ok ⟨p⟩)
  else (s, .error .ENOMEM)

/-- `fsg_common_release`: the LUNs and buffers go with the object. -/
def fsgCommonRelease (s : ModuleState) (p : Ptr) : ModuleState :=
  let s := if s.floppyActiveCommon = some p then { s with floppyActiveCommon := none } else s
  match s.heap p with
  | some common => if common.freeStorageOnRelease then kfree s p else s
  | none => s

def dropReference (s : ModuleState) : ModuleState :=
  if s.floppyThrottleRefcnt - 1 ≤ 0 then
    { s with gThrottle := none, gState := none, floppyThrottleRefcnt := 0 }
  else { s with floppyThrottleRefcnt := s.floppyThrottleRefcnt - 1 }

def fsgFreeInst (s : ModuleState) (i : FsgInstance) : ModuleState :=
  let s := dropReference (fsgCommonRelease s i.common)
  { s with live := s.live.erase i }

inductive ModuleCall
  | alloc (a : AllocAnswers)
  | free (i : FsgInstance)
  deriving DecidableEq, Repr

def moduleStep (s : ModuleState) : ModuleCall → ModuleState
  | .alloc a => (fsgAllocInst s a).1
  | .free i => fsgFreeInst s i

/-- One gadget at a time: an instance is made when none is live, and a live one is freed. -/
def SingleGadget (s : ModuleState) : ModuleCall → Prop
  | .alloc _ => s.live = []
  | .free i => i ∈ s.live

/-- The module-wide state tracks the live instances. -/
structure SingletonsTrack (s : ModuleState) : Prop where
  activeSetUp : ∀ p, s.floppyActiveCommon = some p → s.heap p ≠ none
  activeLive : s.live ≠ [] → s.floppyActiveCommon ≠ none
  refcnt : s.floppyThrottleRefcnt = s.live.length
  throttle : floppyThrottleGet s ≠ none ↔ 0 < s.live.length
  ioEvents : floppyIoEventGet s ≠ none ↔ 0 < s.live.length

/-- A call that got its opts and its common also gets its buffers and its LUN. -/
def CompletesOnceCounted (_ : ModuleState) : ModuleCall → Prop
  | .alloc a => a.opts → a.common ≠ none → a.buffhds ∧ a.buffers.all id ∧ a.lun
  | .free _ => True

/-- No instance and nothing set, or one instance that all the singletons belong to. -/
inductive Settled (s : ModuleState) : Prop
  | idle (live : s.live = []) (active : s.floppyActiveCommon = none)
      (refcnt : s.floppyThrottleRefcnt = 0) (throttle : s.gThrottle = none)
      (ioEvents : s.gState = none)
  | serving (i : FsgInstance) (live : s.live = [i])
      (active : s.floppyActiveCommon = some i.common) (heap : s.heap i.common ≠ none)
      (refcnt : s.floppyThrottleRefcnt = 1) (throttle : s.gThrottle ≠ none)
      (ioEvents : s.gState ≠ none)

theorem settled_init : Settled moduleInit := .idle rfl rfl rfl rfl rfl

theorem Settled.singletonsTrack {s : ModuleState} (h : Settled s) : SingletonsTrack s := by
  cases h with
  | idle live active refcnt throttle ioEvents =>
    constructor <;> simp_all [floppyThrottleGet, floppyIoEventGet]
  | serving i live active heap refcnt throttle ioEvents =>
    constructor <;> simp_all [floppyThrottleGet, floppyIoEventGet]

theorem fsgAllocInst_cases {s : ModuleState} (h : Settled s) (hlive : s.live = [])
    (a : AllocAnswers) :
    ((¬ a.opts ∨ a.common = none) ∧ (fsgAllocInst s a).1 = s) ∨
      (a.opts ∧ a.common ≠ none ∧ (a.buffhds ∧ a.buffers.all id ∧ a.lun) ∧
        Settled (fsgAllocInst s a).1) ∨
      (a.opts ∧ a.common ≠ none ∧ ¬ (a.buffhds ∧ a.buffers.all id ∧ a.lun) ∧
        (fsgAllocInst s a).1.live = [] ∧ (fsgAllocInst s a).1.floppyThrottleRefcnt = 1) := by
  obtain ⟨refcnt⟩ : Nonempty (s.floppyThrottleRefcnt = 0) := by
    cases h with
    | idle _ _ refcnt _ _ => exact ⟨refcnt⟩
    | serving i live _ _ _ _ _ => simp [live] at hlive
  by_cases hopts : a.opts
  · rcases hcommon : a.common with _ | p
    · exact Or.inl ⟨Or.inr rfl, by simp [fsgAllocInst, hopts, hcommon, fsgCommonSetup]⟩
    · by_cases hbuf : a.buffhds ∧ a.buffers.all id
      · have hset : fsgCommonSetNumBuffers a = .ok () := if_pos hbuf
        by_cases hlun : a.lun
        · refine Or.inr (Or.inl ⟨hopts, by simp, ⟨hbuf.1, hbuf.2, hlun⟩, ?_⟩)
          apply Settled.serving ⟨p⟩ <;>
            simp [fsgAllocInst, hopts, hcommon, fsgCommonSetup, hset, fsgCommonCreateLun, hlun,
              takeReference, refcnt, hlive]
        · refine Or.inr (Or.inr ⟨hopts, by simp, by simp [hlun], ?_⟩)
          simp [fsgAllocInst, hopts, hcommon, fsgCommonSetup, hset, fsgCommonCreateLun, hlun,
            takeReference, refcnt, hlive, kfree]
      · have hset : fsgCommonSetNumBuffers a = .error .ENOMEM := if_neg hbuf
        refine Or.inr (Or.inr ⟨hopts, by simp, fun hall => hbuf ⟨hall.1, hall.2.1⟩, ?_⟩)
        simp [fsgAllocInst, hopts, hcommon, fsgCommonSetup, hset, takeReference, refcnt, hlive,
          kfree]
  · exact Or.inl ⟨Or.inl hopts, by simp [fsgAllocInst, hopts]⟩

theorem Settled.free {s : ModuleState} (h : Settled s) {i : FsgInstance} (hi : i ∈ s.live) :
    Settled (fsgFreeInst s i) := by
  cases h with
  | idle live _ _ _ _ => simp [live] at hi
  | serving j live active heap refcnt throttle ioEvents =>
    obtain rfl : i = j := by simpa [live] using hi
    obtain ⟨common, hcommon⟩ := Option.ne_none_iff_exists'.mp heap
    apply Settled.idle <;>
      by_cases hfree : common.freeStorageOnRelease <;>
        simp [fsgFreeInst, fsgCommonRelease, active, hcommon, hfree, kfree, dropReference,
          refcnt, live]

theorem settled_step {s : ModuleState} (h : Settled s) (c : ModuleCall)
    (hadm : SingleGadget s c) (hok : CompletesOnceCounted s c) : Settled (moduleStep s c) := by
  cases c with
  | alloc a =>
    rcases fsgAllocInst_cases h hadm a with ⟨-, heq⟩ | ⟨-, -, -, hs⟩ | ⟨ho, hc, hn, -, -⟩
    · rw [moduleStep, heq]
      exact h
    · exact hs
    · exact absurd (hok ho hc) hn
  | free i => exact h.free hadm

theorem singletonsTrack_step_iff {s : ModuleState} (h : Settled s) (c : ModuleCall)
    (hadm : SingleGadget s c) :
    SingletonsTrack (moduleStep s c) ↔ CompletesOnceCounted s c := by
  refine ⟨fun ht => ?_, fun hok => (settled_step h c hadm hok).singletonsTrack⟩
  cases c with
  | free i => trivial
  | alloc a =>
    intro ho hc
    rcases fsgAllocInst_cases h hadm a with ⟨hn, -⟩ | ⟨-, -, hall, -⟩ | ⟨-, -, -, hlive, href⟩
    · exact absurd hn (by simp [ho, hc])
    · exact hall
    · -- the reference was taken and is never given back
      have hcount := ht.refcnt
      rw [moduleStep, hlive, href] at hcount
      exact absurd hcount (by decide)

/-- In the single-gadget model the singletons track the live instances after every call
exactly when no allocation fails after its reference was taken. -/
theorem singletons_track_iff (calls : List ModuleCall)
    (hsingle : Guarded moduleStep SingleGadget moduleInit calls) :
    AfterEach moduleStep SingletonsTrack moduleInit calls ↔
      Guarded moduleStep CompletesOnceCounted moduleInit calls :=
  afterEach_iff_guarded (fun _ c h => settled_step h c) (fun _ c h => singletonsTrack_step_iff h c)
    settled_init hsingle

theorem singletons_track_iff_example :
    AfterEach moduleStep SingletonsTrack moduleInit
      [.alloc ⟨true, some 7, true, [true, true], true⟩, .free ⟨7⟩] :=
  (singletons_track_iff _ (by simp [Guarded, SingleGadget, moduleStep, fsgAllocInst,
    fsgCommonSetup, takeReference, fsgCommonSetNumBuffers, fsgCommonCreateLun, moduleInit])).mpr
    (by simp [Guarded, CompletesOnceCounted])

/-- The second buffer cannot be allocated: the common is freed, the active pointer still
points to it, and one reference is counted for no instance. -/
theorem singletons_dangle :
    Guarded moduleStep SingleGadget moduleInit [.alloc ⟨true, some 7, true, [true, false], true⟩] ∧
      ¬ AfterEach moduleStep SingletonsTrack moduleInit
        [.alloc ⟨true, some 7, true, [true, false], true⟩] := by
  refine ⟨⟨rfl, trivial⟩, fun h => ?_⟩
  exact h.1.activeSetUp 7 rfl (by simp [moduleStep, fsgAllocInst, fsgCommonSetup,
    fsgCommonSetNumBuffers, kfree])

end UsbFloppy.Kernel
