import UsbFloppy.Kernel.BulkOnly
import UsbFloppy.Kernel.Wrappers

/-! The thread of f_floppy.c from one wrapper to its status, and the exceptions that may be
raised at any moment: by control requests, by a new configuration, by a signal, and by the
thread itself. -/

namespace UsbFloppy.Kernel
open Transition

/-- `enum fsg_state`. -/
inductive ExceptionState
  | normal
  | abortBulkOut
  | protocolReset
  | configChange
  | exit
  | terminated
  deriving DecidableEq, Repr

/-- An exception preempts those of a lower or equal priority. -/
def ExceptionState.priority : ExceptionState → ℕ
  | .normal => 0
  | .abortBulkOut => 1
  | .protocolReset => 2
  | .configChange => 3
  | .exit => 4
  | .terminated => 5

/-- Where the thread stands: before it looks for an exception and for the next command; with
a command that was received, replied to, or finished up to its status; in `handle_exception`
behind the lock, with what it read there; or at its end. -/
inductive ThreadPosition
  | top
  | received (number : ℕ) (cmd : HostCommand)
  | replied (io : CommandIo) (before after : FsgCommon)
  | finished
  | handling (oldState : ExceptionState) (reqTag : UInt32) (newFsg : Option ℕ)
  | exited

/-- `struct fsg_common`. The functions that may be configured are numbered; `enabled` are the
endpoints of the current one, `ignoreBulkOut` is its flag, and `killed` a signal other than
the one the exceptions use. -/
structure Transport where
  state : ExceptionState
  exceptionReqTag : UInt32
  exceptionArg : Option ℕ
  ep0ReqTag : UInt32
  fsg : Option ℕ
  running : Bool
  enabled : Bool
  ignoreBulkOut : Bool
  signalPending : Bool
  killed : Bool
  tag : UInt32
  common : FsgCommon
  lun : FsgLun
  position : ThreadPosition

/-- What happens outside the thread, and the steps of the thread with what they meet. -/
inductive TransportEvent
  | setAlt (fsg : ℕ)
  | disable (fsg : ℕ)
  | unbind (fsg : ℕ)
  | bulkReset
  | otherSetup
  | exit
  | kill
  | store (lun : FsgLun)
  | shutdown
  | cbw (p : OutPacket)
  | execute (io : CommandIo)
  | finish (fin : FinishIo) (stale : ℕ)
  | sendStatus (sent : Bool)
  | handle (interrupted : Bool)
  | act (done : Bool)
  | stop

/-- `__raise_exception`. -/
def Transport.raise (t : Transport) (newState : ExceptionState) (arg : Option ℕ) : Transport :=
  if t.state.priority ≤ newState.priority then
    { t with
      exceptionReqTag := t.ep0ReqTag
      state := newState
      exceptionArg := arg
      signalPending := true }
  else t

/-- `fsg_setup`: a request is counted, and a reset raises its exception. -/
def Transport.setup (t : Transport) (isReset : Bool) : Transport :=
  if t.fsg = none then t
  else
    let t := { t with ep0ReqTag := t.ep0ReqTag + 1 }
    if isReset then t.raise .protocolReset none else t

/-- `exception_in_progress`, which is looked at between the steps of a command. -/
def Transport.unlessException (t t' : Transport) : Transport :=
  if t.state ≠ .normal then { t with position := .top } else t'

/-- `get_next_command` with a wrapper that arrives. -/
def Transport.getNextCommand (t : Transport) (p : OutPacket) : Transport :=
  match receiveCbw t.ignoreBulkOut t.common.cmnd p with
  | .ignored | .meaningless => t
  | .invalid => { t with ignoreBulkOut := true }
  | .command number cmd tag =>
    { t with tag, common := receivedCbw t.lun number cmd, position := .received number cmd }

/-- `do_scsi_command`. -/
def Transport.execute (t : Transport) (number : ℕ) (cmd : HostCommand) (io : CommandIo) :
    Transport :=
  let c := receivedCbw t.lun number cmd
  let r := doScsiCommand io c
  { t with
    common := r.2
    lun := if number = 0 then r.2.curlun.getD t.lun else t.lun
    position := if r.1 then .replied io c r.2 else .top }

/-- `finish_reply`. -/
def Transport.finish (t : Transport) (io : CommandIo) (before after : FsgCommon) (fin : FinishIo)
    (stale : ℕ) : Transport :=
  match (finishReply io.transfer.numBuffers fin (prepare io before after stale)).1 with
  | .status => { t with position := .finished }
  | .abortBulkOut => { t.raise .abortBulkOut none with position := .top }
  | .stopped => { t with position := .top }

/-- The exception that counts. A signal that kills the thread becomes one. -/
def Transport.pending (t : Transport) : ExceptionState := if t.killed then .exit else t.state

/-- `handle_exception` up to the lock, and what it does behind it. A signal may come again
while transfers are cancelled. -/
def Transport.handleException (t : Transport) (interrupted : Bool) : Transport :=
  let t :=
    { t with
      signalPending := false
      killed := false
      state := t.pending }
  if t.fsg ≠ none ∧ interrupted then { t with signalPending := true }
  else
    { t with
      state := .normal
      lun :=
        if t.state ≠ .abortBulkOut then
          { t.lun with
            preventMediumRemoval := false
            senseData := SS_NO_SENSE
            unitAttentionData := SS_NO_SENSE
            senseDataInfo := 0
            infoValid := false }
        else t.lun
      position := .handling t.state t.exceptionReqTag t.exceptionArg }

/-- `do_set_interface`, which may fail to enable an endpoint or to allocate a request. -/
def Transport.setInterface (t : Transport) (newFsg : Option ℕ) (done : Bool) : Transport :=
  if newFsg ≠ none ∧ done then
    { t with
      fsg := newFsg
      running := true
      enabled := true
      ignoreBulkOut := false
      lun := { t.lun with unitAttentionData := SS_RESET_OCCURRED } }
  else { t with fsg := none, running := false, enabled := false }

/-- The rest of `handle_exception`. -/
def Transport.act (t : Transport) (oldState : ExceptionState) (newFsg : Option ℕ) (done : Bool) :
    Transport :=
  let t := { t with position := .top }
  match oldState with
  | .normal | .abortBulkOut | .terminated => t
  | .protocolReset => if t.fsg = none then t else { t with ignoreBulkOut := false }
  | .configChange => t.setInterface newFsg done
  | .exit => { t.setInterface none done with state := .terminated }

def Transport.step (t : Transport) : TransportEvent → Transport
  | .setAlt fsg => t.raise .configChange (some fsg)
  | .disable fsg => { t with enabled := t.enabled && t.fsg != some fsg }.raise .configChange none
  | .unbind fsg => if t.fsg = some fsg then t.raise .configChange none else t
  | .bulkReset => t.setup true
  | .otherSetup => t.setup false
  | .exit => t.raise .exit none
  | .kill => { t with killed := true, signalPending := true }
  | .store lun => { t with lun }
  | .shutdown => { t with running := false }
  | .cbw p =>
    match t.position with
    | .top =>
      if t.state = .normal ∧ t.signalPending = false ∧ t.running then t.getNextCommand p else t
    | _ => t
  | .execute io =>
    match t.position with
    | .received number cmd => t.unlessException (t.execute number cmd io)
    | _ => t
  | .finish fin stale =>
    match t.position with
    | .replied io before after => t.unlessException (t.finish io before after fin stale)
    | _ => t
  | .sendStatus _ =>
    match t.position with
    | .finished => { t with position := .top }
    | _ => t
  | .handle interrupted =>
    match t.position with
    | .top =>
      if t.state ≠ .terminated ∧ (t.state ≠ .normal ∨ t.signalPending) then
        t.handleException interrupted
      else t
    | _ => t
  | .act done =>
    match t.position with
    | .handling oldState _ newFsg => t.act oldState newFsg done
    | _ => t
  | .stop =>
    match t.position with
    | .top =>
      if t.state = .terminated then
        { t with
          lun := if t.lun.isOpen then fsgLunClose t.lun else t.lun
          position := .exited }
      else t
    | _ => t

/-! ### What the host sees -/

/-- The tag of a command that is accepted. -/
def Transport.accepts (t : Transport) : TransportEvent → Option UInt32
  | .cbw p =>
    match t.position, receiveCbw t.ignoreBulkOut t.common.cmnd p with
    | .top, .command _ _ tag =>
      if t.state = .normal ∧ t.signalPending = false ∧ t.running then some tag else none
    | _, _ => none
  | _ => none

/-- The status that is sent, as bytes. -/
def Transport.sends (t : Transport) : TransportEvent → Option (List UInt8)
  | .sendStatus sent =>
    match t.position with
    | .finished =>
      if t.state = .normal ∧ sent then some ((Kernel.sendStatus t.common t.lun).toBytes t.tag)
      else none
    | _ => none
  | .act sent =>
    match t.position with
    | .handling .abortBulkOut _ _ =>
      if sent then some ((Kernel.sendStatus t.common t.lun).toBytes t.tag) else none
    | _ => none
  | _ => none

/-- A control request is counted. -/
def Transport.counts (t : Transport) : TransportEvent → Bool
  | .bulkReset | .otherSetup => t.fsg ≠ none
  | _ => false

def Transport.countsReset (t : Transport) : TransportEvent → Bool
  | .bulkReset => t.fsg ≠ none
  | _ => false

/-- `ep0_queue` completes the status stage of the latest control request of the interface. -/
def Transport.completes (t : Transport) : TransportEvent → Bool
  | .act _ =>
    match t.position with
    | .handling .protocolReset reqTag _ => t.fsg ≠ none ∧ t.ep0ReqTag = reqTag
    | _ => false
  | _ => false

/-- `usb_composite_setup_continue` completes the status stage of a configuration. -/
def Transport.continuesSetup (t : Transport) : TransportEvent → Bool
  | .act _ =>
    match t.position with
    | .handling .configChange _ newFsg => newFsg.isSome
    | _ => false
  | _ => false

/-- The thread, and what was seen of it: the tags of the commands that were accepted; every
status with the number of commands before it; how many control requests there were, which of
them were bulk resets, and which were completed; the function the host has configured last;
whether its configuration failed; and how often a function was configured, and the status stage
of a configuration completed. -/
structure Journal where
  transport : Transport
  accepted : List UInt32
  statuses : List (ℕ × List UInt8)
  requests : ℕ
  resets : List ℕ
  completed : List ℕ
  requested : Option ℕ
  failed : Bool
  setAlts : ℕ
  continued : ℕ

def Journal.step (j : Journal) (e : TransportEvent) : Journal where
  transport := j.transport.step e
  accepted := j.accepted ++ (j.transport.accepts e).toList
  statuses := j.statuses ++ (j.transport.sends e).toList.map fun csw => (j.accepted.length, csw)
  requests := if j.transport.counts e then j.requests + 1 else j.requests
  resets := if j.transport.countsReset e then j.resets ++ [j.requests + 1] else j.resets
  completed := if j.transport.completes e then j.completed ++ [j.requests] else j.completed
  requested :=
    match e with
    | .setAlt fsg => some fsg
    | .disable _ => none
    | .unbind fsg => if j.transport.fsg = some fsg then none else j.requested
    | _ => j.requested
  failed :=
    match e, j.transport.position with
    | .act done, .handling .configChange _ newFsg => newFsg.isSome && !done
    | _, _ => j.failed
  setAlts :=
    match e with
    | .setAlt _ => j.setAlts + 1
    | _ => j.setAlts
  continued := if j.transport.continuesSetup e then j.continued + 1 else j.continued

/-- The thread when it has been started, with no function configured. -/
def Transport.initial : Transport where
  state := .normal
  exceptionReqTag := 0
  exceptionArg := none
  ep0ReqTag := 0
  fsg := none
  running := false
  enabled := false
  ignoreBulkOut := false
  signalPending := false
  killed := false
  tag := 0
  common := receivedCbw removableLun 0 ⟨fun _ => 0, 0, .none, 0⟩
  lun := removableLun
  position := .top

def Journal.initial : Journal := ⟨.initial, [], [], 0, [], [], none, false, 0, 0⟩

/-- What every event keeps holds after every run. -/
theorem journal_invariant (Inv : Journal → Prop) (h0 : Inv .initial)
    (hstep : ∀ j e, Inv j → Inv (j.step e)) (events : List TransportEvent) :
    Inv (run Journal.step .initial events) :=
  run_invariant (fun j e hj _ => hstep j e hj) h0
    (guarded_of_forall (fun _ (_ : TransportEvent) => trivial) _ events)

/-! ### What a step leaves alone -/

section Raise
variable (t : Transport) (newState : ExceptionState) (arg : Option ℕ)

@[simp] theorem raise_position : (t.raise newState arg).position = t.position := by
  unfold Transport.raise
  split_ifs <;> rfl

@[simp] theorem raise_tag : (t.raise newState arg).tag = t.tag := by
  unfold Transport.raise
  split_ifs <;> rfl

@[simp] theorem raise_fsg : (t.raise newState arg).fsg = t.fsg := by
  unfold Transport.raise
  split_ifs <;> rfl

@[simp] theorem raise_ep0ReqTag : (t.raise newState arg).ep0ReqTag = t.ep0ReqTag := by
  unfold Transport.raise
  split_ifs <;> rfl

@[simp] theorem raise_running : (t.raise newState arg).running = t.running := by
  unfold Transport.raise
  split_ifs <;> rfl

@[simp] theorem raise_killed : (t.raise newState arg).killed = t.killed := by
  unfold Transport.raise
  split_ifs <;> rfl

@[simp] theorem raise_enabled : (t.raise newState arg).enabled = t.enabled := by
  unfold Transport.raise
  split_ifs <;> rfl

@[simp] theorem raise_ignoreBulkOut : (t.raise newState arg).ignoreBulkOut = t.ignoreBulkOut := by
  unfold Transport.raise
  split_ifs <;> rfl

/-- An exception is raised, or one of a higher priority goes on. -/
theorem raise_cases :
    ((t.raise newState arg).state = newState ∧ (t.raise newState arg).exceptionArg = arg ∧
        (t.raise newState arg).exceptionReqTag = t.ep0ReqTag ∧
        t.state.priority ≤ newState.priority) ∨
      newState.priority < t.state.priority ∧ t.raise newState arg = t := by
  unfold Transport.raise
  split_ifs with hprior
  · exact Or.inl ⟨rfl, rfl, rfl, hprior⟩
  · exact Or.inr ⟨not_le.mp hprior, rfl⟩

end Raise

section HandleException
variable (t : Transport) (interrupted : Bool)

@[simp] theorem handleException_fsg : (t.handleException interrupted).fsg = t.fsg := by
  unfold Transport.handleException
  dsimp only
  split_ifs <;> rfl

@[simp] theorem handleException_running : (t.handleException interrupted).running = t.running := by
  unfold Transport.handleException
  dsimp only
  split_ifs <;> rfl

@[simp] theorem handleException_enabled : (t.handleException interrupted).enabled = t.enabled := by
  unfold Transport.handleException
  dsimp only
  split_ifs <;> rfl

@[simp] theorem handleException_ignoreBulkOut :
    (t.handleException interrupted).ignoreBulkOut = t.ignoreBulkOut := by
  unfold Transport.handleException
  dsimp only
  split_ifs <;> rfl

@[simp] theorem handleException_ep0ReqTag :
    (t.handleException interrupted).ep0ReqTag = t.ep0ReqTag := by
  unfold Transport.handleException
  dsimp only
  split_ifs <;> rfl

@[simp] theorem handleException_exceptionReqTag :
    (t.handleException interrupted).exceptionReqTag = t.exceptionReqTag := by
  unfold Transport.handleException
  dsimp only
  split_ifs <;> rfl

@[simp] theorem handleException_exceptionArg :
    (t.handleException interrupted).exceptionArg = t.exceptionArg := by
  unfold Transport.handleException
  dsimp only
  split_ifs <;> rfl

@[simp] theorem handleException_tag : (t.handleException interrupted).tag = t.tag := by
  unfold Transport.handleException
  dsimp only
  split_ifs <;> rfl

/-- The pending exception is taken up, or stays pending where a signal comes again. -/
theorem handleException_cases :
    ((t.handleException interrupted).position = t.position ∧
        (t.handleException interrupted).state = t.pending) ∨
      (t.handleException interrupted).position =
          .handling t.pending t.exceptionReqTag t.exceptionArg ∧
        (t.handleException interrupted).state = .normal := by
  unfold Transport.handleException
  dsimp only
  split_ifs
  all_goals first
    | exact Or.inl ⟨rfl, rfl⟩
    | exact Or.inr ⟨rfl, rfl⟩

end HandleException

theorem state_of_pending {t : Transport} (h : t.pending ≠ .exit) : t.state = t.pending := by
  unfold Transport.pending at h ⊢
  split_ifs at h ⊢
  · exact absurd rfl h
  · rfl

theorem handleException_killed (t : Transport) (interrupted : Bool) :
    (t.handleException interrupted).killed = false := by
  unfold Transport.handleException
  dsimp only
  split_ifs <;> rfl

theorem act_reqTags (t : Transport) (oldState : ExceptionState) (newFsg : Option ℕ) (done : Bool) :
    (t.act oldState newFsg done).ep0ReqTag = t.ep0ReqTag ∧
      (t.act oldState newFsg done).exceptionReqTag = t.exceptionReqTag := by
  unfold Transport.act Transport.setInterface
  cases oldState
  all_goals
    dsimp only
    try split_ifs
  all_goals exact ⟨rfl, rfl⟩

/-- After an exception the thread is back at the top, and no other has been raised by it. -/
theorem act_position (t : Transport) (oldState : ExceptionState) (newFsg : Option ℕ) (done : Bool) :
    (t.act oldState newFsg done).position = .top ∧
      ((t.act oldState newFsg done).state = t.state ∨
        (t.act oldState newFsg done).state = .terminated) := by
  unfold Transport.act Transport.setInterface
  cases oldState
  all_goals
    dsimp only
    try split_ifs
  all_goals first
    | exact ⟨rfl, Or.inl rfl⟩
    | exact ⟨rfl, Or.inr rfl⟩

end UsbFloppy.Kernel
