import UsbFloppy.Kernel.Scsi
import UsbFloppy.Lib.Run

/-! What the host is told about a change of the medium: the main loop of f_floppy.c, the
stores that change the medium between and during its commands, and the exceptions that
interrupt it. Beside it a history of which disk the host knows is in the drive. -/

namespace UsbFloppy.Kernel
open Transition

/-- The part of `fsg_store_file` under `filesem`. The door is looked at before, without the
lock, so that the host may still lock it in between. -/
def loadMedium (vfs : Vfs) (lun : FsgLun) (filename : Text) : Except Errno FsgLun :=
  if filename ≠ [] then
    match fsgLunOpen vfs lun filename with
    | .error e => .error e
    | .ok lun => .ok { lun with unitAttentionData := SS_NOT_READY_TO_READY_TRANSITION }
  else if lun.isOpen then
    .ok { fsgLunClose lun with unitAttentionData := SS_MEDIUM_NOT_PRESENT }
  else .ok lun

theorem fsgStoreFile_eq (vfs : Vfs) (lun : FsgLun) (buf : Text) :
    fsgStoreFile vfs lun buf =
      if lun.preventMediumRemoval ∧ lun.isOpen then .error .EBUSY
      else loadMedium vfs lun (chomp buf) := rfl

/-- The status of a command status wrapper. -/
inductive BulkStatus
  | ok
  | fail
  | phase
  deriving DecidableEq, Repr

/-- `struct bulk_cs_wrap`, with the sense data a failed status stands for. -/
structure BulkCsWrap where
  residue : UInt32
  status : BulkStatus
  sense : ℕ
  deriving DecidableEq, Repr

/-- `send_status`. `lun` is what `curlun` points to by now. -/
def sendStatus (c : FsgCommon) (lun : FsgLun) : BulkCsWrap :=
  let sd :=
    if c.curlun.isSome then lun.senseData
    else if c.badLunOkay then SS_NO_SENSE
    else SS_LOGICAL_UNIT_NOT_SUPPORTED
  if c.phaseError then ⟨c.residue, .phase, SS_INVALID_COMMAND⟩
  else if sd ≠ SS_NO_SENSE then ⟨c.residue, .fail, sd⟩
  else ⟨c.residue, .ok, sd⟩

/-- The exceptions of a configured gadget. `normal` is a signal that comes when its
exception is already handled. -/
inductive FsgState
  | normal
  | abortBulkOut
  | protocolReset
  deriving DecidableEq, Repr

/-- What `handle_exception` does to every LUN. The line that would set
`SS_RESET_OCCURRED` after a protocol reset is commented out. -/
def handleException (oldState : FsgState) (lun : FsgLun) : FsgLun :=
  if oldState ≠ .abortBulkOut then
    { lun with
      preventMediumRemoval := false
      senseData := SS_NO_SENSE
      unitAttentionData := SS_NO_SENSE
      senseDataInfo := 0
      infoValid := false }
  else lun

/-- Where the main loop stands: before the next command, before the status of one, or after
a signal, which it takes up before anything else. -/
inductive MainLoop
  | nextCommand
  | reply (common : FsgCommon)
  | signalled

structure FsgThread where
  lun : FsgLun
  loop : MainLoop

/-- The gadget when the host has just configured it. -/
def configured : FsgThread where
  lun := { removableLun with unitAttentionData := SS_RESET_OCCURRED }
  loop := .nextCommand

/-- A store to `lun0_file` of the name of a disk, or of none, that found the door open; a
store to `lun0_ro`; a command for one of the LUNs; the status reaching the host; and an
exception taken up by the main loop. -/
inductive BusEvent (Disk : Type*)
  | file (vfs : Vfs) (filename : Text) (disk : Disk)
  | ro (buf : Text)
  | command (lun : ℕ) (cmd : HostCommand) (io : CommandIo)
  | status
  | exception (oldState : FsgState)

/-- What `received_cbw` saves. There is no LUN but the first. -/
def receivedCbw (lun : FsgLun) (number : ℕ) (cmd : HostCommand) : FsgCommon :=
  { cmd.received lun with curlun := if number = 0 then some lun else none }

variable {Disk : Type*}

def FsgThread.step (t : FsgThread) : BusEvent Disk → FsgThread
  | .file vfs filename _ =>
    match loadMedium vfs t.lun filename with
    | .error _ => t
    | .ok lun => { t with lun }
  | .ro buf =>
    match fsgStoreRo t.lun buf with
    | .error _ => t
    | .ok lun => { t with lun }
  | .command number cmd io =>
    match t.loop with
    | .nextCommand =>
      let r := doScsiCommand io (receivedCbw t.lun number cmd)
      { lun := if number = 0 then r.2.curlun.getD t.lun else t.lun
        loop := if r.1 then .reply r.2 else .signalled }
    | _ => t
  | .status =>
    match t.loop with
    | .reply _ => { t with loop := .nextCommand }
    | _ => t
  | .exception oldState =>
    match oldState, t.loop with
    -- raised by `finish_reply` only, and followed by the status
    | .abortBulkOut, .reply _ => { t with loop := .nextCommand }
    | .abortBulkOut, _ => t
    | _, _ => { lun := handleException oldState t.lun, loop := .nextCommand }

/-- The status the host gets in a step. -/
def FsgThread.sends (t : FsgThread) : BusEvent Disk → Option BulkCsWrap
  | .status | .exception .abortBulkOut =>
    match t.loop with
    | .reply c => some (sendStatus c t.lun)
    | _ => none
  | _ => none

/-! ### What the host knows -/

/-- READ, WRITE, VERIFY, READ CAPACITY and TEST UNIT READY. -/
def ScsiCommand.accessesMedium : ScsiCommand → Bool
  | .read6 | .read10 | .read12 | .read16 | .write6 | .write10 | .write12 | .write16
  | .verify | .readCapacity | .readCapacity16 | .testUnitReady => true
  | _ => false

/-- The sense data that tell the host of a change of the medium. -/
def Announces (sense : ℕ) : Prop :=
  sense = SS_NOT_READY_TO_READY_TRANSITION ∨ sense = SS_MEDIUM_NOT_PRESENT

instance (sense : ℕ) : Decidable (Announces sense) := inferInstanceAs (Decidable (_ ∨ _))

/-- What is remembered of the command that waits for its status: whether it ran on a medium
the host had not been told of, and whether no medium left the drive since. -/
structure Flight where
  command : ScsiCommand
  untold : Bool
  current : Bool
  deriving DecidableEq, Repr

/-- A status the host got, and the command it is for. -/
structure Answer where
  flight : Flight
  status : BulkCsWrap
  deriving DecidableEq, Repr

/-- The disk that was attached last, the disk a medium-access command last reached, whether
no failed status has told of the change since a medium left the drive last, and the status
the host got in the last step. -/
structure History (Disk : Type*) where
  inserted : Option Disk
  accessed : Option Disk
  untold : Bool
  flight : Flight
  answer : Option Answer

structure Watched (Disk : Type*) extends History Disk where
  thread : FsgThread

/-- The drive holds another disk than the one last accessed, and the host has not been
told. -/
def Watched.Untold (s : Watched Disk) : Prop :=
  s.thread.lun.isOpen = true ∧ s.untold = true ∧ s.inserted ≠ s.accessed

section Watching
variable [DecidableEq Disk]

instance (s : Watched Disk) : Decidable s.Untold := inferInstanceAs (Decidable (_ ∧ _ ∧ _))

/-- The command passes its check and goes for the medium. -/
def reachesMedium (c : FsgCommon) : Bool :=
  (scsiCommand c).accessesMedium && (checkScsi { c with phaseError := false }).isOk

def Watched.watch (s : Watched Disk) : BusEvent Disk → History Disk
  | .file vfs filename disk =>
    match loadMedium vfs s.thread.lun filename with
    | .error _ => { s.toHistory with answer := none }
    | .ok lun =>
      { s.toHistory with
        inserted := if lun.isOpen then some disk else s.inserted
        untold := s.untold || s.thread.lun.isOpen
        flight := { s.flight with current := s.flight.current && !s.thread.lun.isOpen }
        answer := none }
  | .command number cmd io =>
    match s.thread.loop with
    | .nextCommand =>
      let c := receivedCbw s.thread.lun number cmd
      let lun' := (s.thread.step (.command number cmd io : BusEvent Disk)).lun
      { s.toHistory with
        accessed := if reachesMedium c then s.inserted else s.accessed
        untold := s.untold || s.thread.lun.isOpen && !lun'.isOpen
        flight := ⟨scsiCommand c, number = 0 ∧ s.Untold, true⟩
        answer := none }
    | _ => { s.toHistory with answer := none }
  | e =>
    match s.thread.sends e with
    | some csw =>
      { s.toHistory with
        untold := s.untold &&
          !decide (csw.status = .fail ∧ Announces csw.sense ∧ s.flight.current = true)
        answer := some ⟨s.flight, csw⟩ }
    | none => { s.toHistory with answer := none }

def Watched.step (s : Watched Disk) (e : BusEvent Disk) : Watched Disk :=
  { s.watch e with thread := s.thread.step e }

end Watching

/-- No disk was attached yet. -/
def unwatched : Watched Disk where
  inserted := none
  accessed := none
  untold := true
  flight := ⟨.unknown, false, false⟩
  answer := none
  thread := configured

/-- The status the host just got is no success of a medium-access command on a medium it
had not been told of. -/
def Watched.Announced (s : Watched Disk) : Prop :=
  ∀ a ∈ s.answer, a.flight.command.accessesMedium = true → a.flight.untold = true →
    a.status.status ≠ .ok

/-- The command is stopped by a unit attention, but as a phase error: the unit attention is
gone and the host gets no failed status for it. -/
def Swallows (lun : FsgLun) (c : FsgCommon) : Prop := AttentionPending lun c ∧ c.Short

/-- While the host has not been told of the disk in the drive, no reset is handled and no
command swallows the unit attention. -/
def Harmless (s : Watched Disk) : BusEvent Disk → Prop
  | .command number cmd _ =>
    match s.thread.loop with
    | .nextCommand =>
      s.Untold → ¬ (number = 0 ∧ Swallows s.thread.lun (cmd.received s.thread.lun))
    | _ => True
  | .exception oldState => s.Untold → oldState = .abortBulkOut
  | _ => True

instance (lun : FsgLun) (c : FsgCommon) : Decidable (Swallows lun c) :=
  inferInstanceAs (Decidable (_ ∧ _))

instance decidableHarmless [DecidableEq Disk] (s : Watched Disk) :
    (e : BusEvent Disk) → Decidable (Harmless s e)
  | .file .. | .ro .. | .status => isTrue trivial
  | .exception oldState => inferInstanceAs (Decidable (s.Untold → oldState = .abortBulkOut))
  | .command number cmd _ =>
    match hloop : s.thread.loop with
    | .nextCommand =>
      decidable_of_iff
        (s.Untold → ¬ (number = 0 ∧ Swallows s.thread.lun (cmd.received s.thread.lun)))
        (by rw [Harmless, hloop])
    | .reply _ | .signalled => isTrue (by rw [Harmless, hloop]; trivial)

/-! ### The steps of the thread -/

theorem loadMedium_ok {vfs : Vfs} {lun lun' : FsgLun} {filename : Text}
    (h : loadMedium vfs lun filename = .ok lun') :
    lun'.senseData = lun.senseData ∧
      (lun'.isOpen = true → lun'.unitAttentionData = SS_NOT_READY_TO_READY_TRANSITION) := by
  unfold loadMedium at h
  split_ifs at h with hname hopen
  · split at h
    · cases h
    · rename_i lun₁ hload
      obtain ⟨filp, -, rfl⟩ := fsgLunOpen_ok hload
      obtain rfl := Except.ok.inj h
      exact ⟨rfl, fun _ => rfl⟩
  · obtain rfl := Except.ok.inj h
    exact ⟨rfl, fun hopen => absurd hopen Bool.false_ne_true⟩
  · obtain rfl := Except.ok.inj h
    exact ⟨rfl, fun hopen' => absurd hopen' hopen⟩

theorem fsgStoreRo_ok {lun lun' : FsgLun} {buf : Text} (h : fsgStoreRo lun buf = .ok lun') :
    ∃ ro, lun' = { lun with ro := ro, initiallyRo := ro } := by
  unfold fsgStoreRo fsgSetRo at h
  split at h
  · cases h
  · split_ifs at h
    exact ⟨_, (Except.ok.inj h).symm⟩

theorem accessesMedium_cmnd {c : FsgCommon} (h : (scsiCommand c).accessesMedium = true) :
    c.cmnd 0 ≠ INQUIRY ∧ c.cmnd 0 ≠ REQUEST_SENSE := by
  constructor
  · intro hcmd
    have hlookup : scsiCommands.lookup INQUIRY = some .inquiry := by decide
    rw [scsiCommand, hcmd, hlookup] at h
    exact absurd h Bool.false_ne_true
  · intro hcmd
    have hlookup : scsiCommands.lookup REQUEST_SENSE = some .requestSense := by decide
    rw [scsiCommand, hcmd, hlookup] at h
    exact absurd h Bool.false_ne_true

theorem sendStatus_not_ok {c : FsgCommon} {lun : FsgLun}
    (h : c.phaseError = true ∨ c.curlun.isSome = true ∧ lun.senseData ≠ SS_NO_SENSE) :
    (sendStatus c lun).status ≠ .ok := by
  unfold sendStatus
  dsimp only
  rcases h with hphase | ⟨hlun, hsense⟩
  · rw [if_pos hphase]
    exact BulkStatus.noConfusion
  · rw [if_pos hlun, if_pos hsense]
    split_ifs <;> exact BulkStatus.noConfusion

theorem sendStatus_fail {c : FsgCommon} {lun : FsgLun} (hphase : c.phaseError = false)
    (hlun : c.curlun.isSome = true) (hsense : lun.senseData ≠ SS_NO_SENSE) :
    sendStatus c lun = ⟨c.residue, .fail, lun.senseData⟩ := by
  unfold sendStatus
  dsimp only
  rw [if_pos hlun, hphase, if_neg Bool.false_ne_true, if_pos hsense]

theorem doScsiCommand_isOpen {lun : FsgLun} {c : FsgCommon} (hc : c.curlun = some lun)
    (io : CommandIo) (hopen : ((doScsiCommand io c).2.curlun.getD lun).isOpen = true) :
    lun.isOpen = true := by
  by_cases hattention : AttentionPending lun c
  · rcases doScsiCommand_pending hc hattention io with ⟨hlun, -⟩ | ⟨hlun, -⟩ <;>
      rwa [hlun] at hopen
  · obtain ⟨lun', hlun, hkept⟩ := doScsiCommand_left hc hattention io
    rw [hlun] at hopen
    exact hkept.isOpen hopen

/-! ### The invariant -/

/-- The status that is due tells the host of the medium in the drive. -/
def Watched.Telling (s : Watched Disk) : Prop :=
  ∃ c, s.thread.loop = .reply c ∧ c.phaseError = false ∧ c.curlun.isSome = true ∧
    s.thread.lun.senseData = SS_NOT_READY_TO_READY_TRANSITION ∧ s.flight.current = true

/-- A change the host does not know of waits in the LUN or is being told, unless a reset is
to be handled before anything else. -/
structure Watched.Inv (s : Watched Disk) : Prop where
  pending : s.Untold → s.thread.lun.unitAttentionData = SS_NOT_READY_TO_READY_TRANSITION ∨
    s.Telling ∨ s.thread.loop = .signalled
  reply : ∀ c, s.thread.loop = .reply c → s.flight.command.accessesMedium = true →
    s.flight.untold = true →
      c.phaseError = true ∨ c.curlun.isSome = true ∧ s.thread.lun.senseData ≠ SS_NO_SENSE
  announced : s.Announced

theorem inv_unwatched : (unwatched : Watched Disk).Inv where
  pending := by
    rintro ⟨hopen, -⟩
    exact absurd hopen Bool.false_ne_true
  reply := by
    intro c hloop
    cases hloop
  announced := by
    intro a ha
    cases ha

theorem Watched.Inv.attention {s : Watched Disk} (h : s.Inv)
    (hloop : s.thread.loop = .nextCommand) (huntold : s.Untold) :
    s.thread.lun.unitAttentionData = SS_NOT_READY_TO_READY_TRANSITION := by
  rcases h.pending huntold with hattention | ⟨c, hreply, -⟩ | hsignal
  · exact hattention
  · rw [hloop] at hreply
    cases hreply
  · rw [hloop] at hsignal
    cases hsignal

theorem Watched.Inv.unanswered {s : Watched Disk} (h : s.Inv) :
    Watched.Inv { s with answer := none } where
  pending := h.pending
  reply := h.reply
  announced := by
    intro a ha
    cases ha

section Watching
variable [DecidableEq Disk]

theorem Watched.Inv.file {s : Watched Disk} (h : s.Inv) (vfs : Vfs) (filename : Text)
    (disk : Disk) : (s.step (.file vfs filename disk)).Inv := by
  cases hload : loadMedium vfs s.thread.lun filename with
  | error e =>
    have hstep : s.step (.file vfs filename disk) = { s with answer := none } := by
      simp only [Watched.step, Watched.watch, FsgThread.step, hload]
    rw [hstep]
    exact h.unanswered
  | ok lun' =>
    obtain ⟨hsense, hattention⟩ := loadMedium_ok hload
    have hthread : (s.step (.file vfs filename disk)).thread = { s.thread with lun := lun' } := by
      simp only [Watched.step, FsgThread.step, hload]
    have hflight : (s.step (.file vfs filename disk)).flight =
        { s.flight with current := s.flight.current && !s.thread.lun.isOpen } := by
      simp only [Watched.step, Watched.watch, hload]
    refine ⟨?_, ?_, ?_⟩
    · rintro ⟨hopen, -⟩
      rw [hthread] at hopen ⊢
      exact Or.inl (hattention hopen)
    · intro c hloop haccess huntold
      rw [hthread] at hloop ⊢
      rw [hflight] at haccess huntold
      rw [hsense]
      exact h.reply c hloop haccess huntold
    · intro a ha
      simp only [Watched.step, Watched.watch, hload] at ha
      cases ha

theorem Watched.Inv.ro {s : Watched Disk} (h : s.Inv) (buf : Text) :
    (s.step (.ro buf : BusEvent Disk)).Inv := by
  cases hro : fsgStoreRo s.thread.lun buf with
  | error e =>
    have hstep : s.step (.ro buf) = { s with answer := none } := by
      simp only [Watched.step, Watched.watch, FsgThread.sends, FsgThread.step, hro]
    rw [hstep]
    exact h.unanswered
  | ok lun' =>
    obtain ⟨ro, rfl⟩ := fsgStoreRo_ok hro
    have hstep : s.step (.ro buf) = { s with
        answer := none
        thread := { s.thread with lun := { s.thread.lun with ro := ro, initiallyRo := ro } } } := by
      simp only [Watched.step, Watched.watch, FsgThread.sends, FsgThread.step, hro]
    rw [hstep]
    exact ⟨h.pending, h.reply, fun a ha => by cases ha⟩

theorem Watched.Inv.status {s : Watched Disk} (h : s.Inv) :
    (s.step (.status : BusEvent Disk)).Inv := by
  cases hloop : s.thread.loop with
  | reply c =>
    have hthread : (s.step (.status : BusEvent Disk)).thread =
        { s.thread with loop := .nextCommand } := by
      simp only [Watched.step, FsgThread.step, hloop]
    refine ⟨?_, ?_, ?_⟩
    -- a status that tells of the change leaves nothing untold
    · rintro ⟨hopen, huntold, hother⟩
      rw [hthread] at hopen ⊢
      simp only [Watched.step, Watched.watch, FsgThread.sends, hloop, Bool.and_eq_true,
        Bool.not_eq_true', decide_eq_false_iff_not] at huntold hother
      rcases h.pending ⟨hopen, huntold.1, hother⟩ with hattention | htelling | hsignal
      · exact Or.inl hattention
      · obtain ⟨c', hloop', hphase, hlun, hsense, hcurrent⟩ := htelling
        obtain rfl : c = c' := MainLoop.reply.inj (hloop.symm.trans hloop')
        have hne : s.thread.lun.senseData ≠ SS_NO_SENSE := by
          rw [hsense]
          decide
        have hcsw := sendStatus_fail hphase hlun hne
        refine absurd ⟨?_, ?_, hcurrent⟩ huntold.2
        · rw [hcsw]
        · rw [hcsw]
          exact Or.inl hsense
      · rw [hloop] at hsignal
        cases hsignal
    · intro c' hloop'
      rw [hthread] at hloop'
      cases hloop'
    · intro a ha haccess huntold
      simp only [Watched.step, Watched.watch, FsgThread.sends, hloop, Option.mem_def,
        Option.some.injEq] at ha
      subst ha
      exact sendStatus_not_ok (h.reply c hloop haccess huntold)
  | nextCommand | signalled =>
    have hstep : s.step (.status : BusEvent Disk) = { s with answer := none } := by
      simp only [Watched.step, Watched.watch, FsgThread.sends, FsgThread.step, hloop]
    rw [hstep]
    exact h.unanswered

theorem step_abortBulkOut (s : Watched Disk) :
    s.step (.exception .abortBulkOut) = s.step .status := by
  simp only [Watched.step, Watched.watch, FsgThread.sends, FsgThread.step]
  cases s.thread.loop <;> rfl

theorem step_reset {s : Watched Disk} {oldState : FsgState} (habort : oldState ≠ .abortBulkOut) :
    s.step (.exception oldState) = { s with
      answer := none
      thread := ⟨handleException oldState s.thread.lun, .nextCommand⟩ } := by
  cases oldState with
  | abortBulkOut => exact absurd rfl habort
  | normal | protocolReset => rfl

theorem Watched.Inv.reset {s : Watched Disk} {oldState : FsgState}
    (habort : oldState ≠ .abortBulkOut) (htold : ¬ s.Untold) :
    (s.step (.exception oldState : BusEvent Disk)).Inv := by
  have hlun : (handleException oldState s.thread.lun).filp = s.thread.lun.filp := by
    rw [handleException, if_pos habort]
  rw [step_reset habort]
  refine ⟨?_, ?_, fun a ha => by cases ha⟩
  · rintro ⟨hopen, huntold⟩
    refine absurd ⟨?_, huntold⟩ htold
    rw [FsgLun.isOpen, ← hlun]
    exact hopen
  · intro c hloop
    cases hloop

/-- What the step of a command leaves, read off the result of `do_scsi_command`. -/
theorem step_command {s : Watched Disk} (hloop : s.thread.loop = .nextCommand) (number : ℕ)
    (cmd : HostCommand) (io : CommandIo) :
    let c := receivedCbw s.thread.lun number cmd
    let r := doScsiCommand io c
    let lun' := if number = 0 then r.2.curlun.getD s.thread.lun else s.thread.lun
    s.step (.command number cmd io) =
      { inserted := s.inserted
        accessed := if reachesMedium c then s.inserted else s.accessed
        untold := s.untold || s.thread.lun.isOpen && !lun'.isOpen
        flight := ⟨scsiCommand c, number = 0 ∧ s.Untold, true⟩
        answer := none
        thread := ⟨lun', if r.1 then .reply r.2 else .signalled⟩ } := by
  simp only [Watched.step, Watched.watch, FsgThread.step, hloop]

theorem untold_of_step_command {s : Watched Disk} (hloop : s.thread.loop = .nextCommand)
    {number : ℕ} {cmd : HostCommand} {io : CommandIo}
    (hopen : (s.step (.command number cmd io)).thread.lun.isOpen = true →
      s.thread.lun.isOpen = true)
    (huntold : (s.step (.command number cmd io)).Untold) : s.Untold := by
  obtain ⟨hopen', huntold, hother⟩ := huntold
  rw [step_command hloop] at hopen' huntold hother
  refine ⟨hopen (by rwa [step_command hloop]), ?_, ?_⟩
  · simp only [hopen', Bool.not_true, Bool.and_false, Bool.or_false] at huntold
    exact huntold
  · intro heq
    refine hother ?_
    dsimp only
    split_ifs
    · rfl
    · exact heq

theorem unanswered_command {s : Watched Disk} (hloop : s.thread.loop = .nextCommand)
    (number : ℕ) (cmd : HostCommand) (io : CommandIo) :
    (s.step (.command number cmd io)).Announced := by
  intro a ha
  rw [step_command hloop] at ha
  cases ha

theorem thread_command {s : Watched Disk} (hloop : s.thread.loop = .nextCommand)
    (cmd : HostCommand) (io : CommandIo) :
    (s.step (.command 0 cmd io)).thread =
      ⟨(doScsiCommand io (cmd.received s.thread.lun)).2.curlun.getD s.thread.lun,
        if (doScsiCommand io (cmd.received s.thread.lun)).1 then
          .reply (doScsiCommand io (cmd.received s.thread.lun)).2
        else .signalled⟩ := by
  rw [step_command hloop]
  rfl

theorem flight_command {s : Watched Disk} (hloop : s.thread.loop = .nextCommand)
    (cmd : HostCommand) (io : CommandIo) :
    (s.step (.command 0 cmd io)).flight =
      ⟨scsiCommand (cmd.received s.thread.lun), decide s.Untold, true⟩ := by
  rw [step_command hloop]
  simp only [receivedCbw, if_true, true_and]
  rfl

theorem Watched.Inv.pending_command {s : Watched Disk} (h : s.Inv)
    (hloop : s.thread.loop = .nextCommand) {cmd : HostCommand}
    (hharmless : s.Untold → ¬ Swallows s.thread.lun (cmd.received s.thread.lun))
    {io : CommandIo} (huntold : (s.step (.command 0 cmd io)).Untold) :
    (s.step (.command 0 cmd io)).thread.lun.unitAttentionData =
        SS_NOT_READY_TO_READY_TRANSITION ∨
      (s.step (.command 0 cmd io)).Telling ∨
      (s.step (.command 0 cmd io)).thread.loop = .signalled := by
  have hcurlun : (cmd.received s.thread.lun).curlun = some s.thread.lun := rfl
  have hthread := thread_command hloop cmd io
  have hopen : (s.step (.command 0 cmd io)).thread.lun.isOpen = true →
      s.thread.lun.isOpen = true := by
    rw [hthread]
    exact doScsiCommand_isOpen hcurlun io
  have hbefore := untold_of_step_command hloop hopen huntold
  have hattention := h.attention hloop hbefore
  by_cases hpending : AttentionPending s.thread.lun (cmd.received s.thread.lun)
  -- stopped: the unit attention is kept, or is the sense data of the status that is due
  · rcases doScsiCommand_pending hcurlun hpending io with ⟨hlun, -⟩ | ⟨hlun, hphase⟩
    · refine Or.inl ?_
      rw [hthread, hlun]
      exact hattention
    · have hclean : (doScsiCommand io (cmd.received s.thread.lun)).2.phaseError = false :=
        Bool.eq_false_iff.mpr fun hshort => hharmless hbefore ⟨hpending, hphase hshort⟩
      refine Or.inr ?_
      by_cases hgo : (doScsiCommand io (cmd.received s.thread.lun)).1 = true
      · refine Or.inl ⟨_, ?_, hclean, ?_, ?_, ?_⟩
        · rw [hthread, if_pos hgo]
        · rw [hlun]
          rfl
        · rw [hthread, hlun]
          exact hattention
        · rw [flight_command hloop]
      · refine Or.inr ?_
        rw [hthread, if_neg hgo]
  · obtain ⟨lun', hlun, hkept⟩ := doScsiCommand_left hcurlun hpending io
    refine Or.inl ?_
    rw [hthread, hlun]
    exact hkept.attention.trans hattention

theorem Watched.Inv.reply_command {s : Watched Disk} (h : s.Inv)
    (hloop : s.thread.loop = .nextCommand) {cmd : HostCommand} {io : CommandIo} {c : FsgCommon}
    (hreply : (s.step (.command 0 cmd io)).thread.loop = .reply c)
    (haccess : (s.step (.command 0 cmd io)).flight.command.accessesMedium = true)
    (huntold : (s.step (.command 0 cmd io)).flight.untold = true) :
    c.phaseError = true ∨ c.curlun.isSome = true ∧
      (s.step (.command 0 cmd io)).thread.lun.senseData ≠ SS_NO_SENSE := by
  rw [flight_command hloop] at haccess huntold
  have hattention := h.attention hloop (of_decide_eq_true huntold)
  have hpending : AttentionPending s.thread.lun (cmd.received s.thread.lun) := by
    refine ⟨?_, accessesMedium_cmnd haccess⟩
    rw [hattention]
    decide
  have hc : (doScsiCommand io (cmd.received s.thread.lun)).2 = c := by
    rw [thread_command hloop] at hreply
    dsimp only at hreply
    split_ifs at hreply
    exact MainLoop.reply.inj hreply
  rw [← hc, thread_command hloop]
  rcases doScsiCommand_pending rfl hpending io with ⟨-, hphase⟩ | ⟨hlun, -⟩
  · exact Or.inl hphase
  · rw [hlun]
    exact Or.inr ⟨rfl, hpending.1⟩

theorem Watched.Inv.command_other {s : Watched Disk} (h : s.Inv)
    (hloop : s.thread.loop = .nextCommand) {number : ℕ} (hother : number ≠ 0)
    (cmd : HostCommand) (io : CommandIo) : (s.step (.command number cmd io)).Inv := by
  refine ⟨?_, ?_, unanswered_command hloop number cmd io⟩
  · intro huntold
    have hlun : (s.step (.command number cmd io)).thread.lun = s.thread.lun := by
      rw [step_command hloop]
      exact if_neg hother
    have hbefore := untold_of_step_command hloop (fun hopen => by rwa [hlun] at hopen) huntold
    rw [hlun]
    exact Or.inl (h.attention hloop hbefore)
  · intro c _ _ huntold
    rw [step_command hloop] at huntold
    exact absurd (of_decide_eq_true huntold).1 hother

theorem Watched.Inv.command {s : Watched Disk} (h : s.Inv)
    (hloop : s.thread.loop = .nextCommand) {number : ℕ} {cmd : HostCommand}
    (hharmless : s.Untold →
      ¬ (number = 0 ∧ Swallows s.thread.lun (cmd.received s.thread.lun))) (io : CommandIo) :
    (s.step (.command number cmd io)).Inv := by
  by_cases hzero : number = 0
  · subst hzero
    refine ⟨?_, ?_, unanswered_command hloop 0 cmd io⟩
    · intro huntold
      exact h.pending_command hloop (fun hbefore hswallows => hharmless hbefore ⟨rfl, hswallows⟩)
        huntold
    · intro c hreply haccess huntold
      exact h.reply_command hloop hreply haccess huntold
  · exact h.command_other hloop hzero cmd io

theorem Watched.Inv.step {s : Watched Disk} (h : s.Inv) (e : BusEvent Disk)
    (hharmless : Harmless s e) : (s.step e).Inv := by
  cases e with
  | file vfs filename disk => exact h.file vfs filename disk
  | ro buf => exact h.ro buf
  | status => exact h.status
  | exception oldState =>
    by_cases habort : oldState = .abortBulkOut
    · subst habort
      rw [step_abortBulkOut]
      exact h.status
    · exact .reset habort fun huntold => habort (hharmless huntold)
  | command number cmd io =>
    cases hloop : s.thread.loop with
    | nextCommand =>
      refine h.command hloop ?_ io
      simp only [Harmless, hloop] at hharmless
      exact hharmless
    | reply c | signalled =>
      -- the thread does not take a command before the status is sent
      have hstep : s.step (.command number cmd io) = { s with answer := none } := by
        simp only [Watched.step, Watched.watch, FsgThread.step, hloop]
      rw [hstep]
      exact h.unanswered

/-- In a run without a harmful step no medium-access command succeeds on a medium the host
has not been told of. -/
theorem host_told (events : List (BusEvent Disk))
    (hharmless : Guarded Watched.step Harmless unwatched events) :
    Throughout Watched.step Watched.Announced unwatched events := by
  refine Throughout.mono (throughout_invariant ?_ inv_unwatched hharmless) ?_
  · intro s e h hok
    exact h.step e hok
  · intro s h
    exact h.announced

end Watching

/-! ### Runs -/

def testUnitReady : HostCommand where
  cmnd := fun _ => 0
  cmndSize := 6
  dataDir := .none
  dataSize := 0

def quietIo : CommandIo where
  now := 0
  transfer :=
    { cmnd := fun _ => 0, dataSizeFromCmnd := 0, residue := 0, usbAmountLeft := 0
      shortPacketReceived := false, numBuffers := ⟨2, Nat.zero_lt_two⟩, curlun := removableLun
      oSync := false, throttle := floppyThrottleInit, io := floppyIoEventInit
      filled := [], moved := [] }
  reads := fun _ => ⟨false, some FSG_BUFLEN, false, true⟩
  writes := fun _ => ⟨true, false, 0, FSG_BUFLEN, some FSG_BUFLEN, false⟩
  verifies := fun _ => (some FSG_BUFLEN, false)
  interrupted := false
  fsyncFails := false
  signal := false

/-- Every name is an image of a full disk. -/
def fullDisks : Vfs := fun name _ => .ok ⟨name, .reg, 1474560, true, true, true⟩

/-- TEST UNIT READY and its status. -/
def ask : List (BusEvent ℕ) := [.command 0 testUnitReady quietIo, .status]

/-- The host sees disk 0, is told of it and uses it; then disk 1 takes its place. -/
def swapped : List (BusEvent ℕ) :=
  .file fullDisks ['a'] 0 :: ask ++ ask ++ [.file fullDisks [] 0, .file fullDisks ['b'] 1]

/-- READ(10) of two blocks, with room for one. -/
def shortRead : HostCommand where
  cmnd := fun i => if i = 0 then READ_10 else if i = 8 then 2 else 0
  cmndSize := 10
  dataDir := .toHost
  dataSize := 512

theorem host_told_example :
    Throughout Watched.step Watched.Announced unwatched
      (swapped ++ ask ++ [.exception .protocolReset] ++ ask) :=
  host_told _ (by decide +kernel)

theorem not_announced {s : Watched Disk} {a : Answer} (ha : s.answer = some a)
    (haccess : a.flight.command.accessesMedium = true) (huntold : a.flight.untold = true)
    (hok : a.status.status = .ok) : ¬ s.Announced := fun h => h a ha haccess huntold hok

theorem swap_missed :
    ¬ Throughout Watched.step Watched.Announced unwatched
        (swapped ++ [.exception .protocolReset] ++ ask) ∧
      ¬ Throughout Watched.step Watched.Announced unwatched
        (swapped ++ [.command 0 shortRead quietIo, .status] ++ ask) := by
  have hreset : (run Watched.step unwatched
      (swapped ++ [.exception .protocolReset] ++ ask)).answer =
        some ⟨⟨.testUnitReady, true, true⟩, ⟨0, .ok, 0⟩⟩ := by decide +kernel
  have hshort : (run Watched.step unwatched
      (swapped ++ [.command 0 shortRead quietIo, .status] ++ ask)).answer =
        some ⟨⟨.testUnitReady, true, true⟩, ⟨0, .ok, 0⟩⟩ := by decide +kernel
  constructor
  · intro h
    exact not_announced hreset rfl rfl rfl (h _ (List.prefix_refl _))
  · intro h
    exact not_announced hshort rfl rfl rfl (h _ (List.prefix_refl _))

/-! ### The two ways to miss a change -/

theorem testUnitReady_succeeds {lun : FsgLun} (hopen : lun.isOpen = true)
    (hnone : lun.unitAttentionData = SS_NO_SENSE) {io : CommandIo} (hsignal : io.signal = false) :
    ∃ c, doScsiCommand io (testUnitReady.received lun) = (true, c) ∧ c.phaseError = false ∧
      c.curlun = some { lun with
        senseData := SS_NO_SENSE, senseDataInfo := 0, infoValid := false } := by
  have hcmnd : (checkDataSize (testUnitReady.received lun).claim).cmnd = fun _ => 0 :=
    checkDataSize_cmnd _
  obtain ⟨c, hcheck, hphase, hlun⟩ :
      ∃ c, checkOnLun 0 true (checkDataSize (testUnitReady.received lun).claim) = .ok c ∧
        c.phaseError = false ∧ c.curlun = some { lun with
          senseData := SS_NO_SENSE, senseDataInfo := 0, infoValid := false } := by
    refine checkOnLun_clear rfl ?_ hnone hopen true fun i _ => Or.inr (Or.inl ?_)
    · rw [hcmnd]
      decide
    · rw [hcmnd]
      split_ifs <;> rfl
  refine ⟨setReply c 0, ?_, ?_, ?_⟩
  · have hswitch : scsiSwitch io { testUnitReady.received lun with phaseError := false } =
        (.ok 0, c) := by
      have hok : checkScsi { testUnitReady.received lun with phaseError := false } = .ok c := by
        rw [checkScsi_eq]
        exact hcheck
      rw [scsiSwitch, hok]
      rfl
    rw [doScsiCommand, hswitch]
    dsimp only
    rw [if_neg (by rw [hsignal]; exact Bool.false_ne_true)]
  · rw [setReply_phaseError]
    exact hphase
  · rw [setReply_curlun]
    exact hlun

section Watching
variable [DecidableEq Disk]

/-- With nothing pending for a disk the host does not know of, it is told that all is well. -/
theorem hidden_change {s : Watched Disk} (huntold : s.Untold)
    (hloop : s.thread.loop = .nextCommand)
    (hnone : s.thread.lun.unitAttentionData = SS_NO_SENSE) {io : CommandIo}
    (hsignal : io.signal = false) :
    ¬ (run Watched.step s [.command 0 testUnitReady io, .status]).Announced := by
  obtain ⟨c, hcommand, hphase, hlun⟩ := testUnitReady_succeeds huntold.1 hnone hsignal
  have hcommand' : doScsiCommand io (receivedCbw s.thread.lun 0 testUnitReady) = (true, c) :=
    hcommand
  rw [run_cons, step_command hloop, run_cons, run_nil]
  simp only [hcommand', hlun, Option.getD_some, if_true, true_and]
  refine not_announced rfl rfl (decide_eq_true huntold) ?_
  rw [sendStatus, hlun, hphase]
  rfl

theorem reset_hides {s : Watched Disk} {oldState : FsgState} (huntold : s.Untold)
    (habort : oldState ≠ .abortBulkOut) :
    (s.step (.exception oldState)).Untold ∧
      (s.step (.exception oldState)).thread.loop = .nextCommand ∧
      (s.step (.exception oldState)).thread.lun.unitAttentionData = SS_NO_SENSE := by
  rw [step_reset habort, handleException, if_pos habort]
  exact ⟨huntold, rfl, rfl⟩

theorem swallow_hides {s : Watched Disk} {cmd : HostCommand} (huntold : s.Untold)
    (hloop : s.thread.loop = .nextCommand)
    (hswallows : Swallows s.thread.lun (cmd.received s.thread.lun)) (io : CommandIo) :
    (s.step (.command 0 cmd io)).Untold ∧
      (s.step (.command 0 cmd io)).thread.lun.unitAttentionData = SS_NO_SENSE ∧
      ((∃ c, (s.step (.command 0 cmd io)).thread.loop = .reply c ∧ c.phaseError = true) ∨
        (s.step (.command 0 cmd io)).thread.loop = .signalled) := by
  obtain ⟨c, herr, hlun, hphase⟩ := checkScsi_short rfl hswallows.1 hswallows.2
  have hswitch : scsiSwitch io { cmd.received s.thread.lun with phaseError := false } =
      (.error .EINVAL, c) := by
    rw [scsiSwitch, herr]
  have hresult := doScsiCommand_snd io (cmd.received s.thread.lun)
  rw [hswitch] at hresult
  have hcommand : receivedCbw s.thread.lun 0 cmd = cmd.received s.thread.lun := rfl
  have hreach : reachesMedium (cmd.received s.thread.lun) = false := by
    rw [reachesMedium, herr]
    exact Bool.and_false _
  rw [step_command hloop, hcommand, hreach]
  simp only [if_true, hresult.1, hlun, Option.getD_some]
  refine ⟨⟨huntold.1, ?_, huntold.2.2⟩, rfl, ?_⟩
  · rw [huntold.2.1]
    rfl
  · split_ifs
    · exact Or.inl ⟨_, rfl, hresult.2.trans hphase⟩
    · exact Or.inr rfl

theorem phase_hides {s : Watched Disk} {c : FsgCommon} (huntold : s.Untold)
    (hloop : s.thread.loop = .reply c) (hphase : c.phaseError = true) :
    (s.step .status).Untold ∧ (s.step .status).thread = { s.thread with loop := .nextCommand } := by
  have hthread : (s.step .status).thread = { s.thread with loop := .nextCommand } := by
    simp only [Watched.step, FsgThread.step, hloop]
  refine ⟨⟨?_, ?_, ?_⟩, hthread⟩
  · rw [hthread]
    exact huntold.1
  · simp only [Watched.step, Watched.watch, FsgThread.sends, hloop, sendStatus, hphase, if_true,
      reduceCtorEq, false_and, decide_false, Bool.not_false, Bool.and_true]
    exact huntold.2.1
  · simp only [Watched.step, Watched.watch, FsgThread.sends, hloop]
    exact huntold.2.2

/-- After any harmful step the run can go on so that the host is not told. -/
theorem harmful_hides_change {s : Watched Disk} {e : BusEvent Disk} (hharmful : ¬ Harmless s e)
    {io : CommandIo} (hsignal : io.signal = false) :
    ∃ es, ¬ (run Watched.step s (e :: es)).Announced := by
  cases e with
  | file | ro | status => exact absurd trivial hharmful
  | exception oldState =>
    obtain ⟨huntold, habort⟩ := Classical.not_imp.mp hharmful
    obtain ⟨huntold', hloop, hnone⟩ := reset_hides huntold habort
    refine ⟨[.command 0 testUnitReady io, .status], ?_⟩
    rw [run_cons]
    exact hidden_change huntold' hloop hnone hsignal
  | command number cmd io' =>
    unfold Harmless at hharmful
    cases hloop : s.thread.loop with
    | reply c | signalled =>
      rw [hloop] at hharmful
      exact absurd trivial hharmful
    | nextCommand =>
      rw [hloop] at hharmful
      obtain ⟨huntold, hnot⟩ := Classical.not_imp.mp hharmful
      obtain ⟨rfl, hswallows⟩ := not_not.mp hnot
      obtain ⟨huntold', hnone, ⟨c, hreply, hphase⟩ | hsignalled⟩ :=
        swallow_hides huntold hloop hswallows io'
      · obtain ⟨huntold'', hthread⟩ := phase_hides huntold' hreply hphase
        refine ⟨[.status, .command 0 testUnitReady io, .status], ?_⟩
        rw [run_cons, run_cons]
        refine hidden_change huntold'' ?_ ?_ hsignal
        · rw [hthread]
        · rw [hthread]
          exact hnone
      · obtain ⟨huntold'', hloop', hnone'⟩ :=
          reset_hides huntold' (show FsgState.protocolReset ≠ .abortBulkOut by decide)
        refine ⟨[.exception .protocolReset, .command 0 testUnitReady io, .status], ?_⟩
        rw [run_cons, run_cons]
        exact hidden_change huntold'' hloop' hnone' hsignal

end Watching

end UsbFloppy.Kernel
