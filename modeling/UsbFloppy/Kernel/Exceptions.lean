import UsbFloppy.Kernel.Answered

/-! What the exceptions bring about, in whatever order they are raised and taken up: the
configuration follows the host, and after an invalid wrapper nothing is accepted without a
reset. -/

namespace UsbFloppy.Kernel
open Transition

/-- An exception that the thread has taken up, with what it read then. -/
structure TakenUp where
  oldState : ExceptionState
  reqTag : UInt32
  newFsg : Option ℕ

def Transport.handling (t : Transport) : Option TakenUp :=
  match t.position with
  | .handling oldState reqTag newFsg => some ⟨oldState, reqTag, newFsg⟩
  | _ => none

/-- Within a command, and while the LUN or the endpoints fail. -/
def TransportEvent.isLocal : TransportEvent → Bool
  | .cbw _ | .execute _ | .finish _ _ | .sendStatus _ | .stop | .store _ | .shutdown => true
  | _ => false

/-- The configuration and the exceptions are as before, unless the thread aborts its command. -/
structure Transport.Kept (t t' : Transport) : Prop where
  fsg : t'.fsg = t.fsg
  enabled : t'.enabled = t.enabled
  running : t'.running = true → t.running = true
  killed : t'.killed = t.killed
  ep0ReqTag : t'.ep0ReqTag = t.ep0ReqTag
  ignoreBulkOut : t.ignoreBulkOut = true → t'.ignoreBulkOut = true
  handling : t'.handling = t.handling
  exception :
    (t'.state = t.state ∧ t'.exceptionArg = t.exceptionArg ∧
        t'.exceptionReqTag = t.exceptionReqTag) ∨
      t.state.priority ≤ 1 ∧ t'.state = .abortBulkOut

theorem Transport.Kept.refl (t : Transport) : t.Kept t :=
  ⟨rfl, rfl, id, rfl, rfl, id, rfl, Or.inl ⟨rfl, rfl, rfl⟩⟩

theorem Transport.Kept.at {t t' : Transport} (h : t.Kept t') {p : ThreadPosition}
    (hp : ({ t' with position := p } : Transport).handling = t.handling) :
    t.Kept { t' with position := p } :=
  ⟨h.fsg, h.enabled, h.running, h.killed, h.ep0ReqTag, h.ignoreBulkOut, hp, h.exception⟩

theorem handling_none {t : Transport}
    (h : ∀ oldState reqTag newFsg, t.position ≠ .handling oldState reqTag newFsg) :
    t.handling = none := by
  unfold Transport.handling
  split
  · rename_i hpos
    exact absurd hpos (h _ _ _)
  · rfl

theorem kept_unlessException {t t' : Transport} (hnone : t.handling = none) (h : t.Kept t') :
    t.Kept (t.unlessException t') := by
  unfold Transport.unlessException
  split_ifs
  · exact (Transport.Kept.refl t).at hnone.symm
  · exact h

theorem kept_abort (t : Transport) : t.Kept (t.raise .abortBulkOut none) := by
  refine ⟨raise_fsg _ _ _, raise_enabled _ _ _, fun h => (raise_running _ _ _).symm.trans h,
    raise_killed _ _ _, raise_ep0ReqTag _ _ _, fun h => (raise_ignoreBulkOut _ _ _).trans h, ?_, ?_⟩
  · rw [Transport.handling, raise_position]
    rfl
  · rcases raise_cases t .abortBulkOut none with ⟨hstate, -, -, hprior⟩ | ⟨-, hsame⟩
    · exact Or.inr ⟨hprior, hstate⟩
    · exact Or.inl ⟨congrArg _ hsame, congrArg _ hsame, congrArg _ hsame⟩

theorem kept_step {t : Transport} {e : TransportEvent} (he : e.isLocal) : t.Kept (t.step e) := by
  have hrefl := Transport.Kept.refl t
  cases e with
  | store => exact ⟨rfl, rfl, id, rfl, rfl, id, rfl, Or.inl ⟨rfl, rfl, rfl⟩⟩
  | shutdown =>
    exact ⟨rfl, rfl, fun h => absurd h Bool.false_ne_true, rfl, rfl, id, rfl, Or.inl ⟨rfl, rfl, rfl⟩⟩
  | cbw p =>
    simp only [Transport.step]
    split
    · rename_i htop
      split_ifs
      · unfold Transport.getNextCommand
        split
        · exact hrefl
        · exact hrefl
        · exact ⟨rfl, rfl, id, rfl, rfl, fun _ => rfl, rfl, Or.inl ⟨rfl, rfl, rfl⟩⟩
        · refine ⟨rfl, rfl, id, rfl, rfl, id, ?_, Or.inl ⟨rfl, rfl, rfl⟩⟩
          simp only [Transport.handling, htop]
      · exact hrefl
    · exact hrefl
  | execute io =>
    simp only [Transport.step]
    split
    · rename_i hpos
      have hnone : t.handling = none := by simp only [Transport.handling, hpos]
      refine kept_unlessException hnone ⟨rfl, rfl, id, rfl, rfl, id, ?_, Or.inl ⟨rfl, rfl, rfl⟩⟩
      rw [hnone]
      refine handling_none fun _ _ _ h => ?_
      simp only [Transport.execute] at h
      split_ifs at h
    · exact hrefl
  -- an early end of the data raises ABORT_BULK_OUT here
  | finish fin stale =>
    simp only [Transport.step]
    split
    · rename_i hpos
      have hnone : t.handling = none := by simp only [Transport.handling, hpos]
      refine kept_unlessException hnone ?_
      unfold Transport.finish
      split
      · exact hrefl.at hnone.symm
      · exact (kept_abort t).at hnone.symm
      · exact hrefl.at hnone.symm
    · exact hrefl
  | sendStatus sent =>
    simp only [Transport.step]
    split
    · rename_i hpos
      refine hrefl.at (p := .top) ?_
      simp only [Transport.handling, hpos]
    · exact hrefl
  | stop =>
    simp only [Transport.step]
    split
    · rename_i hpos
      have hnone : t.handling = none := by simp only [Transport.handling, hpos]
      split
      · exact ⟨rfl, rfl, id, rfl, rfl, id, hnone.symm, Or.inl ⟨rfl, rfl, rfl⟩⟩
      · exact hrefl
    · exact hrefl
  | _ => exact absurd he Bool.false_ne_true

theorem handling_some {t : Transport} {x : TakenUp} (h : t.handling = some x) :
    t.position = .handling x.oldState x.reqTag x.newFsg := by
  unfold Transport.handling at h
  split at h
  · obtain rfl := Option.some.inj h
    assumption
  · cases h

@[simp] theorem raise_handling (t : Transport) (newState : ExceptionState) (arg : Option ℕ) :
    (t.raise newState arg).handling = t.handling := by
  rw [Transport.handling, raise_position]
  rfl

/-- The thread looks for an exception only at the top, and takes it up or is interrupted. -/
theorem handle_cases (t : Transport) (interrupted : Bool) :
    t.step (.handle interrupted) = t ∨
      (t.step (.handle interrupted) = t.handleException interrupted ∧ t.handling = none ∧
        t.state ≠ .terminated ∧
        ((t.step (.handle interrupted)).handling = none ∧
            (t.step (.handle interrupted)).state = t.pending ∨
          (t.step (.handle interrupted)).handling =
              some ⟨t.pending, t.exceptionReqTag, t.exceptionArg⟩ ∧
            (t.step (.handle interrupted)).state = .normal)) := by
  cases hpos : t.position with
  | top =>
    by_cases hgo : t.state ≠ .terminated ∧ (t.state ≠ .normal ∨ t.signalPending)
    · have hstep : t.step (.handle interrupted) = t.handleException interrupted := by
        simp only [Transport.step, hpos, if_pos hgo]
      have hnone : t.handling = none := by simp only [Transport.handling, hpos]
      refine Or.inr ⟨hstep, hnone, hgo.1, ?_⟩
      rw [hstep]
      rcases handleException_cases t interrupted with ⟨hpos', hstate⟩ | ⟨hpos', hstate⟩
      · refine Or.inl ⟨?_, hstate⟩
        simp only [Transport.handling, hpos', hpos]
      · refine Or.inr ⟨?_, hstate⟩
        rw [Transport.handling, hpos']
    · exact Or.inl (by simp only [Transport.step, hpos, if_neg hgo])
  | _ => exact Or.inl (by simp only [Transport.step, hpos])

theorem act_cases (t : Transport) (done : Bool) :
    (t.step (.act done) = t ∧ t.handling = none) ∨
      ∃ x, t.handling = some x ∧ t.step (.act done) = t.act x.oldState x.newFsg done ∧
        (t.step (.act done)).handling = none := by
  cases hpos : t.position with
  | handling oldState reqTag newFsg =>
    have hstep : t.step (.act done) = t.act oldState newFsg done := by
      simp only [Transport.step, hpos]
    refine Or.inr ⟨⟨oldState, reqTag, newFsg⟩, by rw [Transport.handling, hpos], hstep, ?_⟩
    refine handling_none fun _ _ _ h => ?_
    rw [hstep, (act_position t oldState newFsg done).1] at h
    cases h
  | _ =>
    exact Or.inl ⟨by simp only [Transport.step, hpos], by simp only [Transport.handling, hpos]⟩

/-- Only a change of the configuration and the exit touch more than the flag of a wedge. -/
theorem act_quiet {t : Transport} {oldState : ExceptionState} (hchange : oldState ≠ .configChange)
    (hexit : oldState ≠ .exit) (newFsg : Option ℕ) (done : Bool) :
    ∃ ignoreBulkOut, t.act oldState newFsg done = { t with position := .top, ignoreBulkOut } := by
  cases oldState with
  | normal | abortBulkOut | terminated => exact ⟨t.ignoreBulkOut, rfl⟩
  | protocolReset =>
    by_cases hfsg : t.fsg = none
    · exact ⟨t.ignoreBulkOut, if_pos hfsg⟩
    · exact ⟨false, if_neg hfsg⟩
  | configChange => exact absurd rfl hchange
  | exit => exact absurd rfl hexit

/-! ### After an invalid wrapper -/

/-- What comes on the bulk-out endpoint is ignored, and no reset is on its way. -/
structure Transport.Wedged (t : Transport) : Prop where
  ignoreBulkOut : t.ignoreBulkOut = true
  reset : t.state ≠ .protocolReset
  change : t.state = .configChange → t.exceptionArg = none
  handling : ∀ x, t.handling = some x →
    x.oldState ≠ .protocolReset ∧ (x.oldState = .configChange → x.newFsg = none)

/-- The host resets the gadget, or configures it anew. -/
def TransportEvent.resets : TransportEvent → Bool
  | .bulkReset | .setAlt _ => true
  | _ => false

theorem wedged_raise {t : Transport} (h : t.Wedged) {newState : ExceptionState}
    (hne : newState ≠ .protocolReset) : (t.raise newState none).Wedged := by
  refine ⟨(raise_ignoreBulkOut _ _ _).trans h.ignoreBulkOut, ?_, ?_, ?_⟩
  · rcases raise_cases t newState none with ⟨hstate, -⟩ | ⟨-, hsame⟩
    · rwa [hstate]
    · rw [hsame]
      exact h.reset
  · rcases raise_cases t newState none with ⟨-, harg, -⟩ | ⟨-, hsame⟩
    · exact fun _ => harg
    · rw [hsame]
      exact h.change
  · rw [raise_handling]
    exact h.handling

theorem wedged_step {t : Transport} (h : t.Wedged) {e : TransportEvent} (he : e.resets = false) :
    (t.step e).Wedged := by
  -- what the thread does of itself at most raises ABORT_BULK_OUT
  by_cases hlocal : e.isLocal = true
  · have hkept := kept_step (t := t) hlocal
    refine ⟨hkept.ignoreBulkOut h.ignoreBulkOut, ?_, ?_, ?_⟩
    · rcases hkept.exception with ⟨hstate, -⟩ | ⟨-, hstate⟩
      · rw [hstate]
        exact h.reset
      · rw [hstate]
        exact ExceptionState.noConfusion
    · rcases hkept.exception with ⟨hstate, harg, -⟩ | ⟨-, hstate⟩
      · rw [hstate, harg]
        exact h.change
      · rw [hstate]
        exact fun habort => ExceptionState.noConfusion habort
    · rw [hkept.handling]
      exact h.handling
  · cases e with
    -- a configuration without a function is none that the host set
    | disable fsg =>
      exact wedged_raise (t := { t with enabled := t.enabled && t.fsg != some fsg })
        ⟨h.ignoreBulkOut, h.reset, h.change, h.handling⟩ (by decide)
    | unbind fsg =>
      simp only [Transport.step]
      split_ifs
      · exact wedged_raise h (by decide)
      · exact h
    | otherSetup =>
      simp only [Transport.step, Transport.setup, Bool.false_eq_true, if_false]
      split_ifs
      · exact h
      · exact ⟨h.ignoreBulkOut, h.reset, h.change, h.handling⟩
    | kill => exact ⟨h.ignoreBulkOut, h.reset, h.change, h.handling⟩
    | exit => exact wedged_raise h (by decide)
    | handle interrupted =>
      rcases handle_cases t interrupted with hsame | ⟨hstep, -, -, htaken⟩
      · rwa [hsame]
      · have hpending : t.pending ≠ .protocolReset := fun hpending => h.reset <|
          (state_of_pending (by rw [hpending]; decide)).trans hpending
        have hchange (hpending : t.pending = .configChange) : t.exceptionArg = none := h.change <|
          (state_of_pending (by rw [hpending]; decide)).trans hpending
        refine ⟨?_, ?_, ?_, ?_⟩
        · rw [hstep, handleException_ignoreBulkOut]
          exact h.ignoreBulkOut
        · rcases htaken with ⟨-, hstate⟩ | ⟨-, hstate⟩
          · rwa [hstate]
          · rw [hstate]
            exact ExceptionState.noConfusion
        · intro hstate'
          rw [hstep, handleException_exceptionArg]
          rcases htaken with ⟨-, hstate⟩ | ⟨-, hstate⟩
          · exact hchange (hstate.symm.trans hstate')
          · exact ExceptionState.noConfusion (hstate.symm.trans hstate')
        · intro x hhandling
          rcases htaken with ⟨hnone, -⟩ | ⟨hsome, -⟩
          · exact absurd (hhandling.symm.trans hnone) (Option.some_ne_none _)
          · obtain rfl := Option.some.inj (hsome.symm.trans hhandling)
            exact ⟨hpending, hchange⟩
    | act done =>
      rcases act_cases t done with ⟨hsame, -⟩ | ⟨⟨oldState, reqTag, newFsg⟩, hhandling, hstep, hnone⟩
      · rwa [hsame]
      · -- what is acted on is no reset, and configures nothing
        obtain ⟨hne, hnewFsg⟩ := h.handling _ hhandling
        obtain ⟨hignore, hreset, hchange⟩ : (t.act oldState newFsg done).ignoreBulkOut = true ∧
            (t.act oldState newFsg done).state ≠ .protocolReset ∧
            ((t.act oldState newFsg done).state = .configChange →
              (t.act oldState newFsg done).exceptionArg = none) := by
          cases oldState with
          | normal | abortBulkOut | terminated => exact ⟨h.ignoreBulkOut, h.reset, h.change⟩
          | protocolReset => exact absurd rfl hne
          | configChange =>
            obtain rfl : newFsg = none := hnewFsg rfl
            exact ⟨h.ignoreBulkOut, h.reset, h.change⟩
          | exit =>
            exact ⟨h.ignoreBulkOut, ExceptionState.noConfusion,
              fun hend => ExceptionState.noConfusion hend⟩
        rw [← hstep] at hignore hreset hchange
        exact ⟨hignore, hreset, hchange, fun _ hsome =>
          absurd (hsome.symm.trans hnone) (Option.some_ne_none _)⟩
    | setAlt | bulkReset => exact absurd he Bool.noConfusion
    | _ => exact absurd rfl hlocal

/-- Nothing is accepted as long as what comes is ignored. -/
theorem wedged_accepts {t : Transport} (h : t.Wedged) (e : TransportEvent) : t.accepts e = none := by
  cases e with
  | cbw p =>
    have hignored : receiveCbw t.ignoreBulkOut t.common.cmnd p = .ignored := by
      unfold receiveCbw
      exact if_pos (Or.inr h.ignoreBulkOut)
    simp only [Transport.accepts, hignored]
    split <;> first | rfl | contradiction
  | _ => rfl

/-- The thread waits for a wrapper. -/
structure Transport.Waits (t : Transport) : Prop where
  position : t.position = .top
  state : t.state = .normal
  signal : t.signalPending = false
  running : t.running = true

theorem receiveCbw_invalid {p : OutPacket} (hstatus : p.status = 0)
    (hinvalid : p.bytes.length ≠ US_BULK_CB_WRAP_LEN ∨ u32At p.bytes 0 ≠ US_BULK_CB_SIGN)
    (ignoreBulkOut : Bool) (cmnd : ℕ → UInt8) :
    receiveCbw ignoreBulkOut cmnd p = if ignoreBulkOut then .ignored else .invalid := by
  unfold receiveCbw
  cases ignoreBulkOut with
  | true => exact if_pos (Or.inr rfl)
  | false =>
    exact (if_neg (not_or.mpr ⟨not_not.mpr hstatus, Bool.false_ne_true⟩)).trans (if_pos hinvalid)

theorem wedged_of_invalid {t : Transport} (h : t.Waits) {p : OutPacket} (hstatus : p.status = 0)
    (hinvalid : p.bytes.length ≠ US_BULK_CB_WRAP_LEN ∨ u32At p.bytes 0 ≠ US_BULK_CB_SIGN) :
    (t.step (.cbw p)).Wedged := by
  have hstep : t.step (.cbw p) = t.getNextCommand p := by
    simp only [Transport.step, h.position]
    exact if_pos ⟨h.state, h.signal, h.running⟩
  have hnone : t.handling = none := by simp only [Transport.handling, h.position]
  have hignore : t.getNextCommand p = { t with ignoreBulkOut := true } := by
    rw [Transport.getNextCommand, receiveCbw_invalid hstatus hinvalid]
    cases hbefore : t.ignoreBulkOut with
    | true => simp only [if_true, ← hbefore]
    | false => simp only [Bool.false_eq_true, if_false]
  rw [hstep, hignore]
  exact ⟨rfl, fun hreset => ExceptionState.noConfusion (h.state.symm.trans hreset),
    fun hchange => ExceptionState.noConfusion (h.state.symm.trans hchange),
    fun _ hsome => absurd (hsome.symm.trans hnone) (Option.some_ne_none _)⟩

/-- Behind a packet that is not a wrapper, no command is accepted until the host resets the
gadget or configures it anew. -/
theorem nothing_accepted_without_reset {j : Journal} {p : OutPacket} {events : List TransportEvent}
    (hwaits : j.transport.Waits) (hstatus : p.status = 0)
    (hinvalid : p.bytes.length ≠ US_BULK_CB_WRAP_LEN ∨ u32At p.bytes 0 ≠ US_BULK_CB_SIGN)
    (hno : ∀ e ∈ events, e.resets = false) :
    (run Journal.step j (.cbw p :: events)).accepted = j.accepted := by
  have hfirst : (j.step (.cbw p)).accepted = j.accepted := by
    have hrefused : j.transport.accepts (.cbw p) = none := by
      simp only [Transport.accepts, hwaits.position, receiveCbw_invalid hstatus hinvalid]
      cases j.transport.ignoreBulkOut <;> rfl
    simp only [Journal.step, hrefused, Option.toList_none, List.append_nil]
  have hkept (j' : Journal) (e : TransportEvent)
      (hj' : j'.transport.Wedged ∧ j'.accepted = j.accepted) (he : e.resets = false) :
      (j'.step e).transport.Wedged ∧ (j'.step e).accepted = j.accepted := by
    refine ⟨wedged_step hj'.1 he, ?_⟩
    simp only [Journal.step, wedged_accepts hj'.1, Option.toList_none, List.append_nil, hj'.2]
  exact (run_invariant hkept ⟨wedged_of_invalid hwaits hstatus hinvalid, hfirst⟩
    (guarded_of_mem _ hno)).2

theorem nothing_accepted_without_reset_example :
    (run Journal.step sampleConfigured [.cbw ⟨0, [1, 2, 3]⟩, .cbw (samplePacket 7)]).accepted = [] :=
  nothing_accepted_without_reset ⟨rfl, rfl, rfl, rfl⟩ rfl (Or.inl (by decide)) (by decide)

/-! ### The configuration follows the host -/

/-- The function that is configured is the one the host asked for last, if that one could be. -/
structure Journal.Settled (j : Journal) : Prop where
  fsg : j.transport.fsg = if j.failed then none else j.requested
  enabled : j.transport.enabled = j.transport.fsg.isSome
  running : j.transport.running = true → j.transport.fsg.isSome = true

/-- What an exception that is taken up will make of the configuration. -/
def Journal.Heads (j : Journal) : Option TakenUp → Prop
  | some ⟨.configChange, _, newFsg⟩ => newFsg = j.requested
  | some ⟨.exit, _, _⟩ => True
  | _ => j.Settled

/-- As long as no change is pending, the configuration is settled or is about to be. -/
structure Journal.Follows (j : Journal) : Prop where
  pending : j.transport.state = .configChange → j.transport.exceptionArg = j.requested
  heads : j.transport.state.priority < ExceptionState.configChange.priority →
    j.Heads j.transport.handling

theorem heads_of_settled {j : Journal} (h : j.Settled) {x : Option TakenUp}
    (hx : ∀ reqTag newFsg, x ≠ some ⟨.configChange, reqTag, newFsg⟩) : j.Heads x := by
  unfold Journal.Heads
  split
  · exact absurd rfl (hx _ _)
  · trivial
  · exact h

/-- Where the configuration stays, what was to become of it stays too. -/
theorem Journal.Heads.of_same {j j' : Journal} {x : Option TakenUp} (h : j.Heads x)
    (hfsg : j'.transport.fsg = j.transport.fsg) (henabled : j'.transport.enabled = j.transport.enabled)
    (hrunning : j'.transport.running = true → j.transport.running = true)
    (hrequested : j'.requested = j.requested) (hfailed : j'.failed = j.failed) : j'.Heads x := by
  unfold Journal.Heads at h ⊢
  split
  · rw [hrequested]
    exact h
  · trivial
  · rename_i hother hexit
    split at h
    · exact absurd rfl (hother _ _)
    · exact absurd rfl (hexit _ _)
    · refine ⟨?_, ?_, fun hruns => ?_⟩
      · rw [hfsg, hfailed, hrequested]
        exact h.fsg
      · rw [henabled, hfsg]
        exact h.enabled
      · rw [hfsg]
        exact h.running (hrunning hruns)

/-- A change of the configuration is pending, or the thread is about to end. -/
theorem follows_change {j : Journal} {t : Transport} {arg : Option ℕ}
    (htransport : j.transport = t.raise .configChange arg) (harg : arg = j.requested) :
    j.Follows := by
  rcases raise_cases t .configChange arg with ⟨hstate, harg', -⟩ | ⟨hprior, hsame⟩
  · rw [← htransport] at hstate harg'
    refine ⟨fun _ => harg'.trans harg, fun hprior => ?_⟩
    rw [hstate] at hprior
    exact absurd hprior (lt_irrefl _)
  · rw [hsame] at htransport
    rw [← htransport] at hprior
    refine ⟨fun hstate => ?_, fun hprior' => absurd (hprior.trans hprior') (lt_irrefl _)⟩
    rw [hstate] at hprior
    exact absurd hprior (lt_irrefl _)

theorem settled_setInterface {j : Journal} {t : Transport} {newFsg : Option ℕ} {done : Bool}
    (htransport : j.transport = t.setInterface newFsg done) (hrequested : newFsg = j.requested)
    (hfailed : j.failed = (newFsg.isSome && !done)) : j.Settled := by
  unfold Transport.setInterface at htransport
  split_ifs at htransport with hset
  · obtain ⟨hsome, rfl⟩ := hset
    have hisSome : newFsg.isSome = true := Option.isSome_iff_ne_none.mpr hsome
    rw [Bool.not_true, Bool.and_false] at hfailed
    refine ⟨?_, ?_, fun _ => ?_⟩
    · rw [htransport, hfailed]
      exact hrequested
    · rw [htransport]
      exact hisSome.symm
    · rw [htransport]
      exact hisSome
  · refine ⟨?_, ?_, fun hruns => ?_⟩
    · rw [htransport, hfailed, ← hrequested]
      cases newFsg with
      | none => rfl
      | some fsg =>
        have hdone : done = false :=
          Bool.eq_false_iff.mpr fun hdone => hset ⟨Option.some_ne_none fsg, hdone⟩
        rw [hdone]
        rfl
    · rw [htransport]
      rfl
    · rw [htransport] at hruns
      exact absurd hruns Bool.false_ne_true

theorem Journal.Follows.congr {j j' : Journal} (h : j.Follows)
    (htransport : j'.transport = j.transport) (hrequested : j'.requested = j.requested)
    (hfailed : j'.failed = j.failed) : j'.Follows := by
  refine ⟨?_, fun hprior => ?_⟩
  · rw [htransport, hrequested]
    exact h.pending
  · rw [htransport] at hprior ⊢
    refine (h.heads hprior).of_same ?_ ?_ (fun hruns => ?_) hrequested hfailed
    · rw [htransport]
    · rw [htransport]
    · rwa [← htransport]

theorem follows_handle {j : Journal} (h : j.Follows) (interrupted : Bool) :
    (j.step (.handle interrupted)).Follows := by
  rcases handle_cases j.transport interrupted with hsame | ⟨hstep, hnone, hgoes, htaken⟩
  · exact h.congr hsame rfl rfl
  have hheads (hprior : j.transport.state.priority < ExceptionState.configChange.priority) :
      (j.step (.handle interrupted)).Settled := by
    have hbefore := h.heads hprior
    rw [hnone] at hbefore
    have hafter : (j.step (.handle interrupted)).Heads none := by
      refine hbefore.of_same ?_ ?_ (fun hruns => ?_) rfl rfl
      · exact (congrArg _ hstep).trans (handleException_fsg _ _)
      · exact (congrArg _ hstep).trans (handleException_enabled _ _)
      · exact ((congrArg _ hstep).trans (handleException_running _ _)).symm.trans hruns
    exact hafter
  rcases htaken with ⟨hnone', hstate⟩ | ⟨hsome, hnormal⟩
  · refine ⟨fun hchange => ?_, fun hprior => ?_⟩
    · have hpending := hstate.symm.trans hchange
      refine ((congrArg _ hstep).trans (handleException_exceptionArg _ _)).trans (h.pending ?_)
      exact (state_of_pending (by rw [hpending]; decide)).trans hpending
    · rw [show (j.step (.handle interrupted)).transport.state = _ from hstate] at hprior
      have hsame := state_of_pending (t := j.transport) fun hexit => by
        rw [hexit] at hprior
        exact absurd hprior (by decide)
      exact heads_of_settled (hheads (by rwa [hsame])) fun _ _ => by
        rw [show (j.step (.handle interrupted)).transport.handling = none from hnone']
        exact fun hsome => Option.some_ne_none _ hsome.symm
  · refine ⟨fun hchange => ExceptionState.noConfusion (hnormal.symm.trans hchange), fun _ => ?_⟩
    rw [show (j.step (.handle interrupted)).transport.handling = _ from hsome]
    cases hpending : j.transport.pending with
    | configChange =>
      exact h.pending ((state_of_pending (by rw [hpending]; decide)).trans hpending)
    | exit => trivial
    | terminated =>
      exact absurd ((state_of_pending (by rw [hpending]; decide)).trans hpending) hgoes
    | _ =>
      have hsame := (state_of_pending (by rw [hpending]; decide)).trans hpending
      exact hheads (by rw [hsame]; decide)

theorem follows_act {j : Journal} (h : j.Follows) (done : Bool) : (j.step (.act done)).Follows := by
  rcases act_cases j.transport done with
    ⟨hsame, hnone⟩ | ⟨⟨oldState, reqTag, newFsg⟩, hsome, hstep, hnone⟩
  · refine h.congr hsame rfl ?_
    simp only [Journal.step]
    split
    · rename_i hpos
      rw [Transport.handling, hpos] at hnone
      cases hnone
    · rfl
  have hpos : j.transport.position = .handling oldState reqTag newFsg := handling_some hsome
  have htop : (j.step (.act done)).transport.handling = none := hnone
  have htransport : (j.step (.act done)).transport = j.transport.act oldState newFsg done := hstep
  have hheads := h.heads
  rw [hsome] at hheads
  -- an exit ends all; a change of configuration settles it; the rest leaves it as it is
  by_cases hexit : oldState = .exit
  · have hend : (j.step (.act done)).transport.state = .terminated := by
      rw [htransport, hexit]
      rfl
    refine ⟨fun hchange => ExceptionState.noConfusion (hend.symm.trans hchange), fun hprior => ?_⟩
    rw [hend] at hprior
    exact absurd hprior (by decide)
  by_cases hchange : oldState = .configChange
  · subst hchange
    have hset : (j.step (.act done)).transport =
        ({ j.transport with position := .top } : Transport).setInterface newFsg done := htransport
    have hstate : (j.step (.act done)).transport.state = j.transport.state := by
      rw [hset, Transport.setInterface]
      split <;> rfl
    have harg : (j.step (.act done)).transport.exceptionArg = j.transport.exceptionArg := by
      rw [hset, Transport.setInterface]
      split <;> rfl
    refine ⟨fun hpending => harg.trans (h.pending (hstate.symm.trans hpending)), fun hprior => ?_⟩
    rw [htop]
    refine settled_setInterface hset (hheads (by rwa [← hstate])) ?_
    simp only [Journal.step, hpos]
  · obtain ⟨ignoreBulkOut, hquiet⟩ := act_quiet (t := j.transport) hchange hexit newFsg done
    have hfailed : (j.step (.act done)).failed = j.failed := by
      simp only [Journal.step, hpos]
      split
      · rename_i hother
        obtain ⟨rfl, -, -⟩ := ThreadPosition.handling.inj hother
        exact absurd rfl hchange
      · rfl
    rw [hquiet] at htransport
    refine ⟨fun hpending => ?_, fun hprior => ?_⟩
    · rw [htransport] at hpending ⊢
      exact h.pending hpending
    · rw [htop]
      rw [htransport] at hprior
      have hsettled : j.Settled := by
        have hbefore := hheads hprior
        unfold Journal.Heads at hbefore
        split at hbefore
        · rename_i hother
          obtain ⟨rfl, -, -⟩ := TakenUp.mk.inj (Option.some.inj hother)
          exact absurd rfl hchange
        · rename_i hother
          obtain ⟨rfl, -, -⟩ := TakenUp.mk.inj (Option.some.inj hother)
          exact absurd rfl hexit
        · exact hbefore
      refine Journal.Heads.of_same (x := none) hsettled ?_ ?_ (fun hruns => ?_) rfl hfailed
      · rw [htransport]
      · rw [htransport]
      · rwa [htransport] at hruns

theorem follows_raise {j j' : Journal} (h : j.Follows) {newState : ExceptionState}
    {arg : Option ℕ} (htransport : j'.transport = j.transport.raise newState arg)
    (hrequested : j'.requested = j.requested) (hfailed : j'.failed = j.failed)
    (hne : newState ≠ .configChange) : j'.Follows := by
  rcases raise_cases j.transport newState arg with ⟨hstate, -, -, hprior⟩ | ⟨-, hsame⟩
  · rw [← htransport] at hstate
    refine ⟨fun hchange => absurd (hstate.symm.trans hchange) hne, fun hlow => ?_⟩
    rw [hstate] at hlow
    have hhandling : j'.transport.handling = j.transport.handling := by
      rw [htransport, raise_handling]
    rw [hhandling]
    refine (h.heads (hprior.trans_lt hlow)).of_same ?_ ?_ (fun hruns => ?_) hrequested hfailed
    · rw [htransport, raise_fsg]
    · rw [htransport, raise_enabled]
    · rwa [htransport, raise_running] at hruns
  · exact h.congr (htransport.trans hsame) hrequested hfailed

/-- A control request is counted, which changes nothing else. -/
theorem follows_counted {j : Journal} (h : j.Follows) :
    ({ j with transport := { j.transport with ep0ReqTag := j.transport.ep0ReqTag + 1 } } :
      Journal).Follows :=
  ⟨h.pending, fun hprior => (h.heads hprior).of_same rfl rfl id rfl rfl⟩

theorem follows_step {j : Journal} (h : j.Follows) (e : TransportEvent) : (j.step e).Follows := by
  by_cases hlocal : e.isLocal = true
  · have hkept := kept_step (t := j.transport) hlocal
    have hrequested : (j.step e).requested = j.requested := by
      cases e <;> first | rfl | exact absurd hlocal Bool.false_ne_true
    have hfailed : (j.step e).failed = j.failed := by
      cases e <;> first | rfl | exact absurd hlocal Bool.false_ne_true
    refine ⟨fun hchange => ?_, fun hprior => ?_⟩
    · rcases hkept.exception with ⟨hstate, harg, -⟩ | ⟨-, hstate⟩
      · exact harg.trans ((h.pending (hstate.symm.trans hchange)).trans hrequested.symm)
      · exact ExceptionState.noConfusion (hstate.symm.trans hchange)
    · have hbefore : j.transport.state.priority < ExceptionState.configChange.priority := by
        rcases hkept.exception with ⟨hstate, -⟩ | ⟨hlow, -⟩
        · rwa [← hstate]
        · exact hlow.trans_lt (by decide)
      rw [show (j.step e).transport.handling = _ from hkept.handling]
      exact (h.heads hbefore).of_same hkept.fsg hkept.enabled hkept.running hrequested hfailed
  · cases e with
    | setAlt fsg => exact follows_change (t := j.transport) rfl rfl
    | disable fsg => exact follows_change (t := { j.transport with enabled := _ }) rfl rfl
    | unbind fsg =>
      by_cases hfsg : j.transport.fsg = some fsg
      · exact follows_change (t := j.transport) (if_pos hfsg) (if_pos hfsg).symm
      · exact h.congr (if_neg hfsg) (if_neg hfsg) rfl
    | bulkReset =>
      by_cases hfsg : j.transport.fsg = none
      · exact h.congr (if_pos hfsg) rfl rfl
      · exact follows_raise (follows_counted h) (if_neg hfsg) rfl rfl (by decide)
    | otherSetup =>
      by_cases hfsg : j.transport.fsg = none
      · exact h.congr (if_pos hfsg) rfl rfl
      · exact (follows_counted h).congr (if_neg hfsg) rfl rfl
    | kill => exact ⟨h.pending, fun hprior => (h.heads hprior).of_same rfl rfl id rfl rfl⟩
    | exit => exact follows_raise h rfl rfl rfl (by decide)
    | handle interrupted => exact follows_handle h interrupted
    | act done => exact follows_act h done
    | _ => exact absurd rfl hlocal

theorem follows_initial : Journal.initial.Follows :=
  ⟨fun hchange => ExceptionState.noConfusion hchange,
    fun _ => ⟨rfl, rfl, fun hruns => absurd hruns Bool.false_ne_true⟩⟩

/-- Whatever is raised, and whenever it is taken up: once no exception above a reset is pending or
in progress, the function that is configured is the one the host asked for last, unless its
endpoints could not be set up; and only the endpoints of a configured function are in use. -/
theorem configuration_follows_host {events : List TransportEvent}
    (hpending : (run Journal.step Journal.initial events).transport.state.priority <
      ExceptionState.configChange.priority)
    (hprogress : ∀ x, (run Journal.step Journal.initial events).transport.handling = some x →
      x.oldState ≠ .configChange ∧ x.oldState ≠ .exit) :
    let j := run Journal.step Journal.initial events
    j.transport.fsg = (if j.failed then none else j.requested) ∧
      j.transport.enabled = j.transport.fsg.isSome ∧
      (j.transport.running = true → j.transport.fsg.isSome = true) := by
  have hfollows :=
    journal_invariant Journal.Follows follows_initial (fun _ e hj => follows_step hj e) events
  have hheads := hfollows.heads hpending
  intro j
  unfold Journal.Heads at hheads
  split at hheads
  · rename_i hsome
    exact absurd rfl (hprogress _ hsome).1
  · rename_i hsome
    exact absurd rfl (hprogress _ hsome).2
  · exact ⟨hheads.fsg, hheads.enabled, hheads.running⟩

/-- The host changes its mind while the first configuration is set up. -/
theorem configuration_follows_host_example :
    (run Journal.step Journal.initial [.setAlt 1, .handle false, .setAlt 2, .bulkReset, .act true,
      .handle true, .handle false, .act true]).transport.fsg = some 2 := by
  have hpending : (run Journal.step Journal.initial [.setAlt 1, .handle false, .setAlt 2, .bulkReset,
      .act true, .handle true, .handle false, .act true]).transport.state.priority <
        ExceptionState.configChange.priority := by decide
  exact (configuration_follows_host hpending fun _ hsome =>
    absurd (show some _ = none from hsome.symm) (Option.some_ne_none _)).1

end UsbFloppy.Kernel
