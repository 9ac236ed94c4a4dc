import UsbFloppy.Kernel.Transport

/-! Each command that is accepted gets at most one status, with its own tag, whatever happens in
between; and exactly one as long as nothing does. -/

namespace UsbFloppy.Kernel
open Transition

/-! ### One status for each command -/

/-- A command was accepted that may still get its status. -/
def Transport.Open (t : Transport) : Prop :=
  match t.position with
  | .received .. | .replied .. | .finished => True
  | .handling oldState _ _ => oldState = .abortBulkOut
  | .top => t.state = .abortBulkOut
  | .exited => False

theorem open_raise {t : Transport} {newState : ExceptionState} {arg : Option ℕ}
    (hne : newState ≠ .abortBulkOut) (h : (t.raise newState arg).Open) : t.Open := by
  rcases raise_cases t newState arg with ⟨hstate, -, -⟩ | ⟨-, hsame⟩
  · unfold Transport.Open at h ⊢
    rw [raise_position] at h
    split at h
    · trivial
    · trivial
    · trivial
    · exact h
    · exact absurd (hstate.symm.trans h) hne
    · exact h
  · rwa [hsame] at h

/-- What a step means for the commands that wait for their status. -/
inductive Answering (t : Transport) (e : TransportEvent) : Prop
  | quiet (haccepts : t.accepts e = none) (hsends : t.sends e = none)
    (hopen : (t.step e).Open → t.Open ∧ (t.step e).tag = t.tag)
  | accepts (tag : UInt32) (haccepts : t.accepts e = some tag) (hsends : t.sends e = none)
    (htag : (t.step e).tag = tag)
  | answers (csw : BulkCsWrap) (haccepts : t.accepts e = none)
    (hsends : t.sends e = some (csw.toBytes t.tag)) (hopen : t.Open) (hclosed : ¬ (t.step e).Open)

/-- The thread does not raise `ABORT_BULK_OUT` while it handles an exception. -/
def Transport.Apart (t : Transport) : Prop :=
  ∀ oldState reqTag newFsg, t.position = .handling oldState reqTag newFsg →
    t.state ≠ .abortBulkOut

theorem answering_raise {t t' : Transport} {e : TransportEvent} {newState : ExceptionState}
    {arg : Option ℕ} (haccepts : t.accepts e = none) (hsends : t.sends e = none)
    (hstep : t.step e = t'.raise newState arg) (hne : newState ≠ .abortBulkOut)
    (hopen : t'.Open → t.Open) (htag : t'.tag = t.tag) : Answering t e := by
  refine .quiet haccepts hsends fun h => ?_
  rw [hstep] at h ⊢
  exact ⟨hopen (open_raise hne h), (raise_tag _ _ _).trans htag⟩

section Answering
variable {t : Transport}

theorem answering_kept {e : TransportEvent} (haccepts : t.accepts e = none)
    (hsends : t.sends e = none) (hstep : t.step e = t) : Answering t e :=
  .quiet haccepts hsends fun h => ⟨hstep ▸ h, by rw [hstep]⟩

theorem answering_handle (interrupted : Bool) : Answering t (.handle interrupted) := by
  cases hpos : t.position with
  | top =>
    by_cases hgo : t.state ≠ .terminated ∧ (t.state ≠ .normal ∨ t.signalPending)
    · have hstep : t.step (.handle interrupted) = t.handleException interrupted := by
        simp only [Transport.step, hpos, if_pos hgo]
      refine .quiet rfl rfl fun h => ?_
      rw [hstep] at h ⊢
      refine ⟨?_, handleException_tag t interrupted⟩
      rw [Transport.Open, hpos]
      rcases handleException_cases t interrupted with ⟨hpos', hstate⟩ | ⟨hpos', -⟩
      · rw [Transport.Open, hpos', hpos] at h
        have habort := hstate.symm.trans h
        exact (state_of_pending (by rw [habort]; decide)).trans habort
      · rw [Transport.Open, hpos'] at h
        exact (state_of_pending (by rw [h]; decide)).trans h
    · exact answering_kept rfl rfl (by simp only [Transport.step, hpos, if_neg hgo])
  | _ => exact answering_kept rfl rfl (by simp only [Transport.step, hpos])

/-- Only an aborted command gets its status from an exception. -/
theorem answering_act (hapart : t.Apart) (done : Bool) : Answering t (.act done) := by
  cases hpos : t.position with
  | handling oldState reqTag newFsg =>
    have hstep : t.step (.act done) = t.act oldState newFsg done := by
      simp only [Transport.step, hpos]
    obtain ⟨htop, hstate⟩ := act_position t oldState newFsg done
    have hclosed : ¬ (t.step (.act done)).Open := by
      rw [hstep, Transport.Open, htop]
      have hnot := hapart oldState reqTag newFsg hpos
      rcases hstate with hsame | hend
      · simp only [hsame]
        exact hnot
      · simp only [hend]
        exact ExceptionState.noConfusion
    by_cases hsent : oldState = .abortBulkOut ∧ done = true
    · obtain ⟨rfl, rfl⟩ := hsent
      refine .answers (Kernel.sendStatus t.common t.lun) rfl ?_ ?_ hclosed
      · simp only [Transport.sends, hpos, if_true]
      · rw [Transport.Open, hpos]
    · refine .quiet rfl ?_ fun h => absurd h hclosed
      cases oldState with
      | abortBulkOut =>
        simp only [Transport.sends, hpos]
        exact if_neg fun hdone => hsent ⟨rfl, hdone⟩
      | _ => simp only [Transport.sends, hpos]
  | _ =>
    exact answering_kept rfl (by simp only [Transport.sends, hpos])
      (by simp only [Transport.step, hpos])

theorem answering_status (sent : Bool) : Answering t (.sendStatus sent) := by
  cases hpos : t.position with
  | finished =>
    have hstep : t.step (.sendStatus sent) = { t with position := .top } := by
      simp only [Transport.step, hpos]
    by_cases hsent : t.state = .normal ∧ sent = true
    · refine .answers (Kernel.sendStatus t.common t.lun) rfl ?_ ?_ ?_
      · simp only [Transport.sends, hpos, if_pos hsent]
      · rw [Transport.Open, hpos]
        trivial
      · rw [hstep, Transport.Open]
        simp only [hsent.1]
        exact ExceptionState.noConfusion
    · refine .quiet rfl (by simp only [Transport.sends, hpos, if_neg hsent]) fun _ => ⟨?_, ?_⟩
      · rw [Transport.Open, hpos]
        trivial
      · rw [hstep]
  | _ =>
    exact answering_kept rfl (by simp only [Transport.sends, hpos])
      (by simp only [Transport.step, hpos])

theorem answering_cbw (p : OutPacket) : Answering t (.cbw p) := by
  cases hpos : t.position with
  | top =>
    by_cases hready : t.state = .normal ∧ t.signalPending = false ∧ t.running
    · have hstep : t.step (.cbw p) = t.getNextCommand p := by
        simp only [Transport.step, hpos, if_pos hready]
      cases hcbw : receiveCbw t.ignoreBulkOut t.common.cmnd p with
      | command number cmd tag =>
        refine .accepts tag ?_ rfl ?_
        · simp only [Transport.accepts, hpos, hcbw, if_pos hready]
        · rw [hstep, Transport.getNextCommand, hcbw]
      | invalid =>
        refine .quiet ?_ rfl fun h => ?_
        · simp only [Transport.accepts, hpos, hcbw]
        · rw [hstep, Transport.getNextCommand, hcbw] at h ⊢
          exact ⟨h, rfl⟩
      | _ =>
        refine answering_kept ?_ rfl ?_
        · simp only [Transport.accepts, hpos, hcbw]
        · rw [hstep, Transport.getNextCommand, hcbw]
    · refine answering_kept ?_ rfl ?_
      · simp only [Transport.accepts, hpos, if_neg hready]
        split <;> rfl
      · simp only [Transport.step, hpos, if_neg hready]
  | _ =>
    exact answering_kept (by simp only [Transport.accepts, hpos]) rfl
      (by simp only [Transport.step, hpos])

/-- Between a command and its status only the tag matters, which stays. -/
theorem answering_between {e : TransportEvent} (haccepts : t.accepts e = none)
    (hsends : t.sends e = none) (hopen : t.Open) (htag : (t.step e).tag = t.tag) :
    Answering t e := .quiet haccepts hsends fun _ => ⟨hopen, htag⟩

theorem answering_execute (io : CommandIo) : Answering t (.execute io) := by
  cases hpos : t.position with
  | received number cmd =>
    refine answering_between rfl rfl (by rw [Transport.Open, hpos]; trivial) ?_
    simp only [Transport.step, hpos, Transport.unlessException]
    split_ifs <;> rfl
  | _ => exact answering_kept rfl rfl (by simp only [Transport.step, hpos])

theorem answering_finish (fin : FinishIo) (stale : ℕ) : Answering t (.finish fin stale) := by
  cases hpos : t.position with
  | replied io before after =>
    refine answering_between rfl rfl (by rw [Transport.Open, hpos]; trivial) ?_
    simp only [Transport.step, hpos, Transport.unlessException]
    split_ifs
    · rfl
    · unfold Transport.finish
      split
      · rfl
      · exact raise_tag _ _ _
      · rfl
  | _ => exact answering_kept rfl rfl (by simp only [Transport.step, hpos])

theorem answering_stop : Answering t .stop := by
  cases hpos : t.position with
  | top =>
    by_cases hend : t.state = .terminated
    · refine .quiet rfl rfl fun h => ?_
      simp only [Transport.step, hpos, if_pos hend] at h
      exact absurd h id
    · exact answering_kept rfl rfl (by simp only [Transport.step, hpos, if_neg hend])
  | _ => exact answering_kept rfl rfl (by simp only [Transport.step, hpos])

end Answering

theorem answering {t : Transport} (hapart : t.Apart) (e : TransportEvent) : Answering t e := by
  cases e with
  | setAlt fsg => exact answering_raise rfl rfl rfl ExceptionState.noConfusion id rfl
  | disable fsg => exact answering_raise rfl rfl rfl ExceptionState.noConfusion id rfl
  | unbind fsg =>
    by_cases hfsg : t.fsg = some fsg
    · exact answering_raise rfl rfl (if_pos hfsg) ExceptionState.noConfusion id rfl
    · exact answering_kept rfl rfl (if_neg hfsg)
  | bulkReset =>
    by_cases hfsg : t.fsg = none
    · exact answering_kept rfl rfl (if_pos hfsg)
    · exact answering_raise rfl rfl (if_neg hfsg) ExceptionState.noConfusion id rfl
  | otherSetup =>
    by_cases hfsg : t.fsg = none
    · exact answering_kept rfl rfl (if_pos hfsg)
    · refine .quiet rfl rfl fun h => ?_
      rw [show t.step .otherSetup = { t with ep0ReqTag := t.ep0ReqTag + 1 } from if_neg hfsg] at h ⊢
      exact ⟨h, rfl⟩
  | exit => exact answering_raise rfl rfl rfl ExceptionState.noConfusion id rfl
  | kill | store | shutdown => exact .quiet rfl rfl fun h => ⟨h, rfl⟩
  | cbw p => exact answering_cbw p
  | execute io => exact answering_execute io
  | finish fin stale => exact answering_finish fin stale
  | sendStatus sent => exact answering_status sent
  | handle interrupted => exact answering_handle interrupted
  | act done => exact answering_act hapart done
  | stop => exact answering_stop

theorem apart_of_position {t : Transport}
    (h : ∀ oldState reqTag newFsg, t.position ≠ .handling oldState reqTag newFsg) : t.Apart :=
  fun oldState reqTag newFsg hpos => absurd hpos (h oldState reqTag newFsg)

theorem apart_of_top {t : Transport} (h : t.position = .top) : t.Apart :=
  apart_of_position fun _ _ _ hpos => ThreadPosition.noConfusion (h.symm.trans hpos)

theorem apart_raise {t : Transport} (h : t.Apart) {newState : ExceptionState} {arg : Option ℕ}
    (hne : newState ≠ .abortBulkOut) : (t.raise newState arg).Apart := by
  intro oldState reqTag newFsg hpos
  rcases raise_cases t newState arg with ⟨hstate, -, -⟩ | ⟨-, hsame⟩
  · rwa [hstate]
  · rw [hsame]
    exact h oldState reqTag newFsg ((raise_position _ _ _).symm.trans hpos)

theorem apart_unlessException {t t' : Transport} (h : t'.Apart) : (t.unlessException t').Apart := by
  unfold Transport.unlessException
  split_ifs
  · exact apart_of_top rfl
  · exact h

theorem apart_step {t : Transport} (h : t.Apart) (e : TransportEvent) : (t.step e).Apart := by
  cases e with
  | setAlt fsg => exact apart_raise h ExceptionState.noConfusion
  | disable fsg =>
    exact apart_raise (t := { t with enabled := t.enabled && t.fsg != some fsg }) h (by decide)
  | unbind fsg =>
    simp only [Transport.step]
    split_ifs
    · exact apart_raise h (by decide)
    · exact h
  | bulkReset =>
    simp only [Transport.step, Transport.setup, if_true]
    split_ifs
    · exact h
    · exact apart_raise (t := { t with ep0ReqTag := t.ep0ReqTag + 1 }) h (by decide)
  | otherSetup =>
    simp only [Transport.step, Transport.setup, Bool.false_eq_true, if_false]
    split_ifs
    · exact h
    · exact h
  | exit => exact apart_raise h ExceptionState.noConfusion
  | kill | store | shutdown => exact h
  -- the thread is at the top of its loop, or gets to a command from there
  | cbw p =>
    simp only [Transport.step]
    split
    · rename_i htop
      split_ifs
      · unfold Transport.getNextCommand
        split
        · exact h
        · exact h
        · exact apart_of_top htop
        · exact apart_of_position fun _ _ _ hpos => ThreadPosition.noConfusion hpos
      · exact h
    · exact h
  | execute io =>
    simp only [Transport.step]
    split
    · refine apart_unlessException (apart_of_position fun _ _ _ hpos => ?_)
      simp only [Transport.execute] at hpos
      split_ifs at hpos
    · exact h
  | finish fin stale =>
    simp only [Transport.step]
    split
    · refine apart_unlessException ?_
      unfold Transport.finish
      split
      · exact apart_of_position fun _ _ _ hpos => ThreadPosition.noConfusion hpos
      · exact apart_of_top rfl
      · exact apart_of_top rfl
    · exact h
  | sendStatus sent =>
    simp only [Transport.step]
    split
    · exact apart_of_top rfl
    · exact h
  -- what is taken up is gone from `state` by then
  | handle interrupted =>
    simp only [Transport.step]
    split
    · rename_i htop
      split_ifs
      · rcases handleException_cases t interrupted with ⟨hpos, -⟩ | ⟨-, hstate⟩
        · exact apart_of_top (hpos.trans htop)
        · intro _ _ _ _
          rw [hstate]
          exact ExceptionState.noConfusion
      · exact h
    · exact h
  | act done =>
    simp only [Transport.step]
    split
    · exact apart_of_top (act_position _ _ _ _).1
    · exact h
  | stop =>
    simp only [Transport.step]
    split
    · split
      · exact apart_of_position fun _ _ _ hpos => ThreadPosition.noConfusion hpos
      · exact h
    · exact h

/-- Every status belongs to one of the accepted commands, and they come in order. A command that
waits for its status is the last one. -/
structure Journal.Answers (j : Journal) : Prop where
  apart : j.transport.Apart
  ordered : (j.statuses.map Prod.fst).Pairwise (· < ·)
  bound : ∀ s ∈ j.statuses, s.1 ≤ j.accepted.length
  tags : ∀ s ∈ j.statuses, 0 < s.1 ∧ ∃ (tag : UInt32) (csw : BulkCsWrap),
    j.accepted[s.1 - 1]? = some tag ∧ s.2 = csw.toBytes tag
  waiting : j.transport.Open → j.accepted.getLast? = some j.transport.tag ∧
    ∀ s ∈ j.statuses, s.1 < j.accepted.length

theorem answers_initial : Journal.initial.Answers where
  apart := apart_of_top rfl
  ordered := List.Pairwise.nil
  bound _ h := absurd h List.not_mem_nil
  tags _ h := absurd h List.not_mem_nil
  waiting h := ExceptionState.noConfusion (show ExceptionState.normal = .abortBulkOut from h)

theorem answers_step {j : Journal} (h : j.Answers) (e : TransportEvent) : (j.step e).Answers := by
  have hapart := apart_step h.apart e
  cases answering h.apart e with
  -- neither list grows
  | quiet haccepts hsends hopen =>
    have haccepted : (j.step e).accepted = j.accepted := by
      simp only [Journal.step, haccepts, Option.toList_none, List.append_nil]
    have hstatuses : (j.step e).statuses = j.statuses := by
      simp only [Journal.step, hsends, Option.toList_none, List.map_nil, List.append_nil]
    refine ⟨hapart, ?_, ?_, ?_, ?_⟩
    · rw [hstatuses]
      exact h.ordered
    · rw [hstatuses, haccepted]
      exact h.bound
    · rw [hstatuses, haccepted]
      exact h.tags
    · intro hnow
      obtain ⟨hbefore, htag⟩ := hopen hnow
      rw [hstatuses, haccepted, show (j.step e).transport.tag = j.transport.tag from htag]
      exact h.waiting hbefore
  | accepts tag haccepts hsends htag =>
    have haccepted : (j.step e).accepted = j.accepted ++ [tag] := by
      simp only [Journal.step, haccepts, Option.toList_some]
    have hstatuses : (j.step e).statuses = j.statuses := by
      simp only [Journal.step, hsends, Option.toList_none, List.map_nil, List.append_nil]
    have hless (s : ℕ × List UInt8) (hs : s ∈ j.statuses) : s.1 < (j.accepted ++ [tag]).length := by
      rw [List.length_append]
      exact Nat.lt_succ_of_le (h.bound s hs)
    refine ⟨hapart, ?_, ?_, ?_, ?_⟩
    · rw [hstatuses]
      exact h.ordered
    · rw [hstatuses, haccepted]
      exact fun s hs => (hless s hs).le
    · rw [hstatuses, haccepted]
      intro s hs
      obtain ⟨hpos, tag', csw, htag', hcsw⟩ := h.tags s hs
      exact ⟨hpos, tag', csw, List.getElem?_append_left
        (List.getElem?_eq_some_iff.mp htag').1 ▸ htag', hcsw⟩
    · rw [hstatuses, haccepted]
      intro _
      refine ⟨?_, hless⟩
      rw [List.getLast?_append, show (j.step e).transport.tag = tag from htag]
      rfl
  -- the command that waited is the last one, so that its number is above those of all statuses
  | answers csw haccepts hsends hopen hclosed =>
    have haccepted : (j.step e).accepted = j.accepted := by
      simp only [Journal.step, haccepts, Option.toList_none, List.append_nil]
    have hstatuses : (j.step e).statuses =
        j.statuses ++ [(j.accepted.length, csw.toBytes j.transport.tag)] := by
      simp only [Journal.step, hsends, Option.toList_some, List.map_cons, List.map_nil]
    obtain ⟨hlast, hless⟩ := h.waiting hopen
    refine ⟨hapart, ?_, ?_, ?_, fun hnow => absurd hnow hclosed⟩
    · rw [hstatuses, List.map_append, List.pairwise_append]
      refine ⟨h.ordered, List.pairwise_singleton _ _, fun number hnumber behind hbehind => ?_⟩
      obtain ⟨s, hs, rfl⟩ := List.mem_map.mp hnumber
      rw [List.mem_singleton.mp hbehind]
      exact hless s hs
    · rw [hstatuses, haccepted]
      intro s hs
      rcases List.mem_append.mp hs with hold | hnew
      · exact h.bound s hold
      · rw [List.mem_singleton.mp hnew]
    · rw [hstatuses, haccepted]
      intro s hs
      rcases List.mem_append.mp hs with hold | hnew
      · exact h.tags s hold
      · rw [List.mem_singleton.mp hnew]
        rw [List.getLast?_eq_getElem?] at hlast
        have hlength := (List.getElem?_eq_some_iff.mp hlast).1
        exact ⟨by omega, j.transport.tag, csw, hlast, rfl⟩

/-- Whatever happens while commands are executed, every status carries the tag of a command that
was accepted before it, no command gets two, and they come in the order of the commands. -/
theorem statuses_answer_commands (events : List TransportEvent) :
    let j := run Journal.step Journal.initial events
    (j.statuses.map Prod.fst).Pairwise (· < ·) ∧
      ∀ number bytes, (number, bytes) ∈ j.statuses → 0 < number ∧
        ∃ (tag : UInt32) (csw : BulkCsWrap),
          j.accepted[number - 1]? = some tag ∧ bytes = csw.toBytes tag := by
  have h := journal_invariant Journal.Answers answers_initial (fun _ e hj => answers_step hj e) events
  exact ⟨h.ordered, fun number bytes hmem => h.tags (number, bytes) hmem⟩

/-! ### Left alone, no command stays without its status -/

/-- Nothing from outside cuts the thread short, and no transfer of its own fails. -/
def Transport.undisturbed (t : Transport) : TransportEvent → Bool
  | .cbw _ | .store _ | .otherSetup | .stop => true
  | .execute io =>
    match t.position with
    | .received number cmd => (doScsiCommand io (receivedCbw t.lun number cmd)).1
    | _ => true
  | .finish fin stale =>
    match t.position with
    | .replied io before after =>
      (finishReply io.transfer.numBuffers fin (prepare io before after stale)).1 ≠ .stopped
    | _ => true
  | .sendStatus sent => sent
  | .handle interrupted => !interrupted
  | .act done => done
  | .setAlt _ | .disable _ | .unbind _ | .bulkReset | .exit | .kill | .shutdown => false

/-- The only exception is the one that the thread raises itself. -/
structure Transport.Untroubled (t : Transport) : Prop where
  killed : t.killed = false
  state : t.state = .normal ∨ t.state = .abortBulkOut ∧ t.position = .top
  position : ∀ oldState reqTag newFsg, t.position = .handling oldState reqTag newFsg →
    oldState = .normal ∨ oldState = .abortBulkOut

theorem Transport.Untroubled.normal {t : Transport} (h : t.Untroubled) (hpos : t.position ≠ .top) :
    t.state = .normal := h.state.resolve_right fun habort => hpos habort.2

/-- What a step leaves of an untroubled thread, and of a command that waits for its status. -/
structure Advances (t : Transport) (e : TransportEvent) : Prop where
  untroubled : (t.step e).Untroubled
  waits : t.Open → t.sends e = none → (t.step e).Open
  accepts : ∀ tag, t.accepts e = some tag → ¬ t.Open ∧ (t.step e).Open

theorem advances_kept {t : Transport} (h : t.Untroubled) {e : TransportEvent}
    (haccepts : t.accepts e = none) (hstep : t.step e = t) : Advances t e where
  untroubled := hstep.symm ▸ h
  waits hopen _ := hstep.symm ▸ hopen
  accepts _ htag := nomatch haccepts.symm.trans htag

section Advances
variable {t : Transport} (h : t.Untroubled)
include h

theorem advances_cbw (p : OutPacket) : Advances t (.cbw p) := by
  cases hpos : t.position with
  | top =>
    by_cases hready : t.state = .normal ∧ t.signalPending = false ∧ t.running
    · have hstep : t.step (.cbw p) = t.getNextCommand p := by
        simp only [Transport.step, hpos, if_pos hready]
      have hclosed : ¬ t.Open := by
        rw [Transport.Open, hpos, hready.1]
        exact ExceptionState.noConfusion
      cases hcbw : receiveCbw t.ignoreBulkOut t.common.cmnd p with
      | command number cmd tag =>
        have hnext : t.getNextCommand p =
            { t with
              tag
              common := receivedCbw t.lun number cmd
              position := .received number cmd } := by
          rw [Transport.getNextCommand, hcbw]
        have hopen : (t.step (.cbw p)).Open := by
          rw [hstep, hnext]
          trivial
        refine ⟨?_, fun _ _ => hopen, fun _ _ => ⟨hclosed, hopen⟩⟩
        rw [hstep, hnext]
        exact ⟨h.killed, Or.inl hready.1, fun _ _ _ hhandling => ThreadPosition.noConfusion hhandling⟩
      | invalid =>
        have hnext : t.getNextCommand p = { t with ignoreBulkOut := true } := by
          rw [Transport.getNextCommand, hcbw]
        refine ⟨?_, fun hopen => absurd hopen hclosed, fun tag htag => ?_⟩
        · rw [hstep, hnext]
          exact ⟨h.killed, h.state, h.position⟩
        · simp only [Transport.accepts, hpos, hcbw, reduceCtorEq] at htag
      | _ =>
        refine advances_kept h (by simp only [Transport.accepts, hpos, hcbw]) ?_
        rw [hstep, Transport.getNextCommand, hcbw]
    · refine advances_kept h ?_ (by simp only [Transport.step, hpos, if_neg hready])
      simp only [Transport.accepts, hpos, if_neg hready]
      split <;> rfl
  | _ =>
    exact advances_kept h (by simp only [Transport.accepts, hpos])
      (by simp only [Transport.step, hpos])

theorem advances_execute {io : CommandIo} (hok : t.undisturbed (.execute io)) :
    Advances t (.execute io) := by
  cases hpos : t.position with
  | received number cmd =>
    have hnormal := h.normal (by rw [hpos]; exact ThreadPosition.noConfusion)
    have hstep : t.step (.execute io) = t.execute number cmd io := by
      simp only [Transport.step, hpos, Transport.unlessException, hnormal, ne_eq, not_true_eq_false,
        if_false]
    have hreplied : (t.execute number cmd io).position = .replied io (receivedCbw t.lun number cmd)
        (doScsiCommand io (receivedCbw t.lun number cmd)).2 := by
      simp only [Transport.undisturbed, hpos] at hok
      exact if_pos hok
    refine ⟨⟨?_, ?_, ?_⟩, ?_, fun _ htag => nomatch htag⟩
    · rw [hstep]
      exact h.killed
    · rw [hstep]
      exact Or.inl hnormal
    · intro _ _ _ hhandling
      rw [hstep, hreplied] at hhandling
      nomatch hhandling
    · intro _ _
      rw [hstep, Transport.Open, hreplied]
      trivial
  | _ => exact advances_kept h rfl (by simp only [Transport.step, hpos])

theorem advances_finish {fin : FinishIo} {stale : ℕ} (hok : t.undisturbed (.finish fin stale)) :
    Advances t (.finish fin stale) := by
  cases hpos : t.position with
  | replied io before after =>
    have hnormal := h.normal (by rw [hpos]; exact ThreadPosition.noConfusion)
    have hstep : t.step (.finish fin stale) = t.finish io before after fin stale := by
      simp only [Transport.step, hpos, Transport.unlessException, hnormal, ne_eq, not_true_eq_false,
        if_false]
    cases hend : (finishReply io.transfer.numBuffers fin (prepare io before after stale)).1 with
    | status =>
      have hfinish : t.finish io before after fin stale = { t with position := .finished } := by
        rw [Transport.finish, hend]
      rw [hfinish] at hstep
      refine ⟨?_, fun _ _ => ?_, fun _ htag => nomatch htag⟩
      · rw [hstep]
        exact ⟨h.killed, Or.inl hnormal, fun _ _ _ hhandling => nomatch hhandling⟩
      · rw [hstep]
        trivial
    | abortBulkOut =>
      have hfinish : t.finish io before after fin stale =
          { t.raise .abortBulkOut none with position := .top } := by
        rw [Transport.finish, hend]
      have hraise : t.raise .abortBulkOut none =
          { t with
            exceptionReqTag := t.ep0ReqTag
            state := .abortBulkOut
            exceptionArg := none
            signalPending := true } := if_pos (by rw [hnormal]; decide)
      rw [hfinish, hraise] at hstep
      refine ⟨?_, fun _ _ => ?_, fun _ htag => nomatch htag⟩
      · rw [hstep]
        exact ⟨h.killed, Or.inr ⟨rfl, rfl⟩, fun _ _ _ hhandling => nomatch hhandling⟩
      · rw [hstep]
        exact rfl
    | stopped =>
      simp only [Transport.undisturbed, hpos, decide_eq_true_eq] at hok
      exact absurd hend hok
  | _ => exact advances_kept h rfl (by simp only [Transport.step, hpos])

theorem advances_status : Advances t (.sendStatus true) := by
  cases hpos : t.position with
  | finished =>
    have hnormal := h.normal (by rw [hpos]; exact ThreadPosition.noConfusion)
    have hstep : t.step (.sendStatus true) = { t with position := .top } := by
      simp only [Transport.step, hpos]
    refine ⟨?_, fun _ hsends => ?_, fun _ htag => nomatch htag⟩
    · rw [hstep]
      exact ⟨h.killed, Or.inl hnormal, fun _ _ _ hhandling => nomatch hhandling⟩
    · simp only [Transport.sends, hpos, hnormal, and_self, if_true, reduceCtorEq] at hsends
  | _ => exact advances_kept h rfl (by simp only [Transport.step, hpos])

theorem advances_handle : Advances t (.handle false) := by
  cases hpos : t.position with
  | top =>
    by_cases hgo : t.state ≠ .terminated ∧ (t.state ≠ .normal ∨ t.signalPending)
    · have hstep : t.step (.handle false) = t.handleException false := by
        simp only [Transport.step, hpos, if_pos hgo]
      have hpending : t.pending = t.state := by
        rw [Transport.pending, h.killed]
        rfl
      have hhandling : (t.handleException false).position =
          .handling t.state t.exceptionReqTag t.exceptionArg := by
        simp only [Transport.handleException, Bool.false_eq_true, and_false, if_false, hpending]
      have hkilled : (t.handleException false).killed = false := by
        simp only [Transport.handleException, Bool.false_eq_true, and_false, if_false]
      have hnormal : (t.handleException false).state = .normal := by
        simp only [Transport.handleException, Bool.false_eq_true, and_false, if_false]
      refine ⟨?_, fun hopen _ => ?_, fun _ htag => nomatch htag⟩
      · rw [hstep]
        refine ⟨hkilled, Or.inl hnormal, fun oldState reqTag newFsg hpos' => ?_⟩
        obtain ⟨rfl, -, -⟩ := ThreadPosition.handling.inj (hhandling.symm.trans hpos')
        exact h.state.imp_right And.left
      · rw [hstep, Transport.Open, hhandling]
        rw [Transport.Open, hpos] at hopen
        exact hopen
    · exact advances_kept h rfl (by simp only [Transport.step, hpos, if_neg hgo])
  | _ => exact advances_kept h rfl (by simp only [Transport.step, hpos])

theorem advances_act : Advances t (.act true) := by
  cases hpos : t.position with
  | handling oldState reqTag newFsg =>
    have hnormal := h.normal (by rw [hpos]; exact ThreadPosition.noConfusion)
    have hstep : t.step (.act true) = { t with position := .top } := by
      simp only [Transport.step, hpos]
      rcases h.position oldState reqTag newFsg hpos with rfl | rfl <;> rfl
    refine ⟨?_, fun hopen hsends => ?_, fun _ htag => nomatch htag⟩
    · rw [hstep]
      exact ⟨h.killed, Or.inl hnormal, fun _ _ _ hhandling => nomatch hhandling⟩
    · rw [Transport.Open, hpos] at hopen
      simp only at hopen
      simp only [Transport.sends, hpos, hopen, if_true, reduceCtorEq] at hsends
  | _ => exact advances_kept h rfl (by simp only [Transport.step, hpos])

theorem advances {e : TransportEvent} (hok : t.undisturbed e) : Advances t e := by
  cases e with
  | cbw p => exact advances_cbw h p
  | store lun =>
    exact ⟨⟨h.killed, h.state, h.position⟩, fun hopen _ => hopen, fun _ htag => nomatch htag⟩
  | otherSetup =>
    by_cases hfsg : t.fsg = none
    · exact advances_kept h rfl (if_pos hfsg)
    · have hstep : t.step .otherSetup = { t with ep0ReqTag := t.ep0ReqTag + 1 } := if_neg hfsg
      refine ⟨?_, fun hopen _ => ?_, fun _ htag => nomatch htag⟩
      · rw [hstep]
        exact ⟨h.killed, h.state, h.position⟩
      · rw [hstep]
        exact hopen
  | stop =>
    refine advances_kept h rfl ?_
    have hgoes : t.state ≠ .terminated := by
      rcases h.state with hnormal | ⟨habort, -⟩
      · rw [hnormal]
        exact ExceptionState.noConfusion
      · rw [habort]
        exact ExceptionState.noConfusion
    simp only [Transport.step, if_neg hgoes]
    split <;> rfl
  | execute io => exact advances_execute h hok
  | finish fin stale => exact advances_finish h hok
  | sendStatus sent =>
    obtain rfl : sent = true := hok
    exact advances_status h
  | handle interrupted =>
    obtain rfl : interrupted = false := (Bool.not_eq_true' interrupted).mp hok
    exact advances_handle h
  | act done =>
    obtain rfl : done = true := hok
    exact advances_act h
  | setAlt | disable | unbind | bulkReset | exit | kill | shutdown =>
    exact absurd hok Bool.false_ne_true

end Advances

/-- Since the start, every command has its status but for the last one, which waits for it. -/
structure Journal.Complete (start j : Journal) (waiting : Bool) : Prop where
  untroubled : j.transport.Untroubled
  waits : waiting = true ↔ j.transport.Open
  answered : ∃ n, j.accepted.length = start.accepted.length + n + waiting.toNat ∧
    j.statuses.map Prod.fst =
      start.statuses.map Prod.fst ++ List.range' (start.accepted.length + 1) n

theorem complete_step {start j : Journal} {waiting : Bool} (hapart : j.transport.Apart)
    (h : start.Complete j waiting) {e : TransportEvent} (hok : j.transport.undisturbed e) :
    ∃ waiting', start.Complete (j.step e) waiting' := by
  obtain ⟨n, hlength, hnumbers⟩ := h.answered
  have hadvances := advances h.untroubled hok
  cases answering hapart e with
  | quiet haccepts hsends hopen =>
    refine ⟨waiting, hadvances.untroubled, ?_, n, ?_, ?_⟩
    · rw [h.waits]
      exact ⟨fun hwaits => hadvances.waits hwaits hsends, fun hwaits => (hopen hwaits).1⟩
    · simp only [Journal.step, haccepts, Option.toList_none, List.append_nil, hlength]
    · simp only [Journal.step, hsends, Option.toList_none, List.map_nil, List.append_nil, hnumbers]
  | accepts tag haccepts hsends htag =>
    obtain ⟨hclosed, hopen⟩ := hadvances.accepts tag haccepts
    obtain rfl : waiting = false := Bool.eq_false_iff.mpr fun hwaits => hclosed (h.waits.mp hwaits)
    refine ⟨true, hadvances.untroubled, iff_of_true rfl hopen, n, ?_, ?_⟩
    · simp only [Journal.step, haccepts, Option.toList_some, List.length_append, List.length_cons,
        List.length_nil, hlength, Bool.toNat_false, Bool.toNat_true, Nat.add_zero]
    · simp only [Journal.step, hsends, Option.toList_none, List.map_nil, List.append_nil, hnumbers]
  | answers csw haccepts hsends hopen hclosed =>
    obtain rfl : waiting = true := h.waits.mpr hopen
    rw [Bool.toNat_true] at hlength
    refine ⟨false, hadvances.untroubled, iff_of_false Bool.false_ne_true hclosed, n + 1, ?_, ?_⟩
    · simp only [Journal.step, haccepts, Option.toList_none, List.append_nil, hlength,
        Bool.toNat_false, Nat.add_zero, Nat.add_assoc]
    · simp only [Journal.step, hsends, Option.toList_some, List.map_append, List.map_cons,
        List.map_nil, hnumbers, List.append_assoc, hlength]
      rw [List.range'_concat, Nat.one_mul, Nat.add_right_comm]

/-- The thread waits for a command, and nothing is pending. -/
structure Transport.Ready (t : Transport) : Prop where
  position : t.position = .top
  state : t.state = .normal
  killed : t.killed = false

def ThreadPosition.isTop : ThreadPosition → Bool
  | .top => true
  | _ => false

theorem ThreadPosition.isTop_iff {p : ThreadPosition} : p.isTop = true ↔ p = .top := by
  cases p <;> simp [ThreadPosition.isTop]

instance (t : Transport) : Decidable t.Ready :=
  decidable_of_iff (t.position.isTop = true ∧ t.state = .normal ∧ t.killed = false)
    ⟨fun h => ⟨ThreadPosition.isTop_iff.mp h.1, h.2.1, h.2.2⟩,
      fun h => ⟨ThreadPosition.isTop_iff.mpr h.position, h.state, h.killed⟩⟩

theorem Transport.Ready.closed {t : Transport} (h : t.Ready) : ¬ t.Open := by
  rw [Transport.Open, h.position, h.state]
  exact ExceptionState.noConfusion

/-- As long as the thread is left alone, each command it accepts gets its status before it accepts
another, and exactly one. -/
theorem every_command_answered {start : Journal} {events : List TransportEvent}
    (hready : start.transport.Ready)
    (halone : Guarded Journal.step (fun j e => j.transport.undisturbed e) start events)
    (hagain : (run Journal.step start events).transport.Ready) :
    let j := run Journal.step start events
    j.statuses.map Prod.fst = start.statuses.map Prod.fst ++
      List.range' (start.accepted.length + 1) (j.accepted.length - start.accepted.length) := by
  have huntroubled : start.transport.Untroubled := ⟨hready.killed, Or.inl hready.state,
    fun _ _ _ hpos => nomatch hready.position.symm.trans hpos⟩
  have hstart : start.Complete start false := ⟨huntroubled,
    iff_of_false Bool.false_ne_true hready.closed, 0, rfl, (List.append_nil _).symm⟩
  have hkept (j : Journal) (e : TransportEvent)
      (hj : j.transport.Apart ∧ ∃ waiting, start.Complete j waiting)
      (hok : j.transport.undisturbed e) :
      (j.step e).transport.Apart ∧ ∃ waiting, start.Complete (j.step e) waiting :=
    ⟨apart_step hj.1 e, hj.2.elim fun _ h => complete_step hj.1 h hok⟩
  obtain ⟨-, waiting, hcomplete⟩ :=
    run_invariant hkept ⟨apart_of_top hready.position, false, hstart⟩ halone
  obtain rfl : waiting = false :=
    Bool.eq_false_iff.mpr fun hwaits => hagain.closed (hcomplete.waits.mp hwaits)
  obtain ⟨n, hlength, hnumbers⟩ := hcomplete.answered
  rw [Bool.toNat_false, Nat.add_zero] at hlength
  intro j
  rw [hnumbers, hlength, Nat.add_sub_cancel_left]

/-- TEST UNIT READY for the first LUN. -/
def samplePacket (tag : UInt32) : OutPacket :=
  ⟨0, BulkCbWrap.toBytes ⟨US_BULK_CB_SIGN, tag, 0, 0, 0, 6, fun _ => 0⟩⟩

def sampleConfigured : Journal :=
  run Journal.step Journal.initial [.setAlt 1, .handle false, .act true]

/-- WRITE(6) of one block, with 512 bytes announced. -/
def sampleWritePacket (tag : UInt32) : OutPacket :=
  ⟨0, BulkCbWrap.toBytes ⟨US_BULK_CB_SIGN, tag, 512, 0, 0, 6,
    fun i => if i = 0 then WRITE_6 else if i = 4 then 1 else 0⟩⟩

/-- The bytes that are thrown away end with an empty packet. -/
def cutShort : FinishIo := { sampleFinish with throws := fun _ => ⟨true, false, 0, 0, none, false⟩ }

/-- Three commands without a medium. The second is a WRITE that the thread aborts. -/
def threeCommands : List TransportEvent :=
  [.cbw (samplePacket 7), .execute quietIo, .finish sampleFinish 0, .sendStatus true,
    .cbw (sampleWritePacket 8), .execute quietIo, .finish cutShort 0, .handle false, .act true,
    .cbw (samplePacket 9), .execute quietIo, .finish sampleFinish 0, .sendStatus true]

/-- The medium is missing, and the host is told so, also through ABORT_BULK_OUT. -/
theorem every_command_answered_example :
    (run Journal.step sampleConfigured threeCommands).statuses.map Prod.fst = [1, 2, 3] := by
  have hready : sampleConfigured.transport.Ready := ⟨rfl, rfl, rfl⟩
  have halone : Guarded Journal.step (fun j e => j.transport.undisturbed e) sampleConfigured
      threeCommands := by
    decide +kernel
  have hagain : (run Journal.step sampleConfigured threeCommands).transport.Ready := by
    decide +kernel
  have haccepted : (run Journal.step sampleConfigured threeCommands).accepted.length = 3 := by
    decide +kernel
  refine (every_command_answered hready halone hagain).trans ?_
  rw [haccepted]
  rfl

end UsbFloppy.Kernel
