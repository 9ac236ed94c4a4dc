import UsbFloppy.Lib.Run
import UsbFloppy.Core.Config

/-! save_config of config.py by any number of callers at once. They share config.json, the
name of its temporary file, and the Config in memory. -/

namespace UsbFloppy.Core
open Json Transition

/-- The two names in the folder of config.json, and the inodes. A power loss leaves a file
that was written after its last fsync with any content. -/
structure ConfigDir where
  config : Option ℕ
  tmp : Option ℕ
  data : ℕ → Str
  synced : ℕ → Bool
  /-- how many inodes were given out -/
  inodes : ℕ
  /-- the inodes that config.json was given by this run -/
  named : List ℕ

/-- How far a call of `save_config` is. -/
inductive Saver
  /-- the field is assigned -/
  | called
  | serialized (payload : Str)
  | writing (payload : Str) (inode offset : ℕ)
  | synced (payload : Str) (inode : ℕ)
  deriving DecidableEq

structure Saving where
  cfg : Config
  dir : ConfigDir
  savers : ℕ → Option Saver

inductive SaveStep
  /-- caller `i` assigns a field and calls `save_config` -/
  | call (i : ℕ) (c : Change)
  | serialize (i : ℕ)
  | openTmp (i : ℕ)
  /-- the next `n` characters; buffers may be flushed in parts -/
  | write (i n : ℕ)
  | fsync (i : ℕ)
  | replace (i : ℕ)

namespace ConfigDir

variable (d : ConfigDir)

/-- `open(tmp, "w")`, and the inode it gives. -/
def openTmp : ℕ × ConfigDir :=
  let i := d.tmp.getD d.inodes
  (i, { d with
    tmp := some i
    data := Function.update d.data i []
    synced := Function.update d.synced i false
    inodes := if d.tmp = none then d.inodes + 1 else d.inodes })

/-- Writes at an offset. A gap before it is filled with null characters. -/
def write (i offset : ℕ) (text : Str) : ConfigDir :=
  let old := d.data i
  { d with
    data := Function.update d.data i ((old ++ List.replicate (offset - old.length) '\x00').take offset
      ++ (text ++ old.drop (offset + text.length)))
    synced := Function.update d.synced i false }

def fsync (i : ℕ) : ConfigDir := { d with synced := Function.update d.synced i true }

/-- `os.replace(tmp, path)`. Without a tmp it raises. -/
def replace : ConfigDir :=
  match d.tmp with
  | none => d
  | some i => { d with config := some i, tmp := none, named := i :: d.named }

end ConfigDir

namespace Saving

variable (s : Saving)

def setSaver (i : ℕ) (x : Option Saver) : Saving :=
  { s with savers := Function.update s.savers i x }

def step : SaveStep → Saving
  | .call i c =>
    if s.savers i = none then
      { s with cfg := c.apply s.cfg }.setSaver i (some .called)
    else s
  | .serialize i =>
    match s.savers i with
    | some .called => s.setSaver i (some (.serialized s.cfg.payload))
    | _ => s
  | .openTmp i =>
    match s.savers i with
    | some (.serialized payload) =>
      { s with dir := s.dir.openTmp.2 }.setSaver i (some (.writing payload s.dir.openTmp.1 0))
    | _ => s
  | .write i n =>
    match s.savers i with
    | some (.writing payload inode offset) =>
      let chunk := (payload.drop offset).take n
      { s with dir := s.dir.write inode offset chunk }.setSaver i
        (some (.writing payload inode (offset + chunk.length)))
    | _ => s
  | .fsync i =>
    match s.savers i with
    | some (.writing payload inode offset) =>
      if offset = payload.length then
        { s with dir := s.dir.fsync inode }.setSaver i (some (.synced payload inode))
      else s
    | _ => s
  | .replace i =>
    match s.savers i with
    -- the callers catch the OSError of a missing tmp
    | some (.synced _ _) => { s with dir := s.dir.replace }.setSaver i none
    | _ => s

end Saving

/-- What an observer of the calls notes: the earlier values of the Config, the value in
memory when a caller serialized it, and whether a call has finished. -/
structure SaveLog where
  held : List Config
  taken : ℕ → Option Config
  finished : Bool

def noteSaving (l : SaveLog) (s : Saving) : SaveStep → SaveLog
  | .call i _ => if s.savers i = none then { l with held := s.cfg :: l.held } else l
  | .serialize i =>
    if s.savers i = some .called then { l with taken := Function.update l.taken i (some s.cfg) }
    else l
  | .replace i =>
    match s.savers i with
    | some (.synced _ _) => { l with finished := true }
    | _ => l
  | _ => l

/-- The callers beside the log. -/
def saveStep : Saving × SaveLog → SaveStep → Saving × SaveLog := watched Saving.step noteSaving

/-- The serialization of one of the Configs. -/
def Complete (held : List Config) (text : Str) : Prop := ∃ cfg ∈ held, text = cfg.payload

/-- config.json is absent or whole, and so it is after a power loss. -/
def Whole (p : Saving × SaveLog) : Prop :=
  (∀ i ∈ p.1.dir.config, Complete (p.1.cfg :: p.2.held) (p.1.dir.data i)) ∧
    ∀ i ∈ p.1.dir.named, p.1.dir.synced i = true ∧
      Complete (p.1.cfg :: p.2.held) (p.1.dir.data i)

/-- When all calls have finished, config.json is the Config in memory. -/
def UpToDate (p : Saving × SaveLog) : Prop :=
  (∀ i, p.1.savers i = none) → p.2.finished = true →
    p.1.dir.config.map p.1.dir.data = some p.1.cfg.payload

/-- The saver has opened the temporary file. -/
def Saver.HasOpened : Saver → Prop
  | .writing _ _ _ => True
  | .synced _ _ => True
  | _ => False

/-- Nobody opens the temporary file while another is at it. Nobody replaces config.json when
the Config was changed after it serialized, unless another call is yet to serialize or did so
after the change. -/
def Apart (p : Saving × SaveLog) : SaveStep → Prop
  | .openTmp i =>
    (∃ payload, p.1.savers i = some (.serialized payload)) →
      ∀ j, ∀ x ∈ p.1.savers j, ¬ x.HasOpened
  | .replace i =>
    (∃ payload inode, p.1.savers i = some (.synced payload inode)) →
      p.2.taken i = some p.1.cfg ∨
        ∃ j ≠ i, ∃ x ∈ p.1.savers j, x = .called ∨ p.2.taken j = some p.1.cfg
  | _ => True

/-- The payload a saver is about to put in place. -/
def Saver.holds (text : Str) : Saver → Prop
  | .called => True
  | .serialized payload => payload = text
  | .writing payload _ _ => payload = text
  | .synced payload _ => payload = text

/-- What the saver holds is the serialization of what it has taken. -/
def Saver.Took (taken : Option Config) : Saver → Prop
  | .called => True
  | x => ∃ cfg ∈ taken, x.holds cfg.payload

namespace Saving

/-- What a saver has reached. -/
def Reached (held : List Config) (s : Saving) : Saver → Prop
  | .called => True
  | .serialized payload => Complete held payload
  | .writing payload inode offset =>
    Complete held payload ∧ s.dir.tmp = some inode ∧ offset ≤ payload.length ∧
      s.dir.data inode = payload.take offset
  | .synced payload inode =>
    Complete held payload ∧ s.dir.tmp = some inode ∧ s.dir.data inode = payload ∧
      s.dir.synced inode = true

structure Inv (held : List Config) (finished : Bool) (s : Saving) : Prop where
  mem_held : s.cfg ∈ held
  tmp_lt : ∀ i ∈ s.dir.tmp, i < s.dir.inodes
  named_lt : ∀ i ∈ s.dir.named, i < s.dir.inodes
  named_tmp : ∀ i ∈ s.dir.named, s.dir.tmp ≠ some i
  named_whole : ∀ i ∈ s.dir.named, s.dir.synced i = true ∧ Complete held (s.dir.data i)
  config_named : ∀ i ∈ s.dir.config, i ∈ s.dir.named
  opened : ∀ j k, ∀ x ∈ s.savers j, ∀ y ∈ s.savers k, x.HasOpened → y.HasOpened → j = k
  reached : ∀ j, ∀ x ∈ s.savers j, Reached held s x
  current : finished = true → s.dir.config.map s.dir.data = some s.cfg.payload ∨
    ∃ j, ∃ x ∈ s.savers j, x.holds s.cfg.payload

variable {s : Saving} {held held' : List Config} {finished : Bool}

theorem Complete.mono {text : Str} (h : Complete held text) (hheld : held ⊆ held') :
    Complete held' text := by
  obtain ⟨cfg, hcfg, htext⟩ := h
  exact ⟨cfg, hheld hcfg, htext⟩

theorem Reached.mono {t : Saving} {x : Saver} (h : Reached held s x) (hheld : held ⊆ held')
    (hdir : x.HasOpened → t.dir.tmp = s.dir.tmp ∧ ∀ i ∈ s.dir.tmp,
      t.dir.data i = s.dir.data i ∧ t.dir.synced i = s.dir.synced i) : Reached held' t x := by
  cases x with
  | called => trivial
  | serialized payload =>
    have hcomplete : Complete held payload := h
    exact Complete.mono hcomplete hheld
  | writing payload inode offset =>
    obtain ⟨hcomplete, htmp, hoffset, hdata⟩ := h
    obtain ⟨htmp', hsame⟩ := hdir trivial
    exact ⟨Complete.mono hcomplete hheld, htmp'.trans htmp, hoffset,
      (hsame inode htmp).1.trans hdata⟩
  | synced payload inode =>
    obtain ⟨hcomplete, htmp, hdata, hsynced⟩ := h
    obtain ⟨htmp', hsame⟩ := hdir trivial
    exact ⟨Complete.mono hcomplete hheld, htmp'.trans htmp, (hsame inode htmp).1.trans hdata,
      (hsame inode htmp).2.trans hsynced⟩

theorem Inv.advance (h : Inv held finished s) {i : ℕ} {y z : Saver} (hold : s.savers i = some y)
    {data : ℕ → Str} {synced : ℕ → Bool}
    (hnamed : ∀ j ∈ s.dir.named, data j = s.dir.data j ∧ synced j = s.dir.synced j)
    (hothers : ∀ j ≠ i, ∀ x ∈ s.savers j, x.HasOpened →
      ¬ z.HasOpened ∧ data = s.dir.data ∧ synced = s.dir.synced)
    (hholds : y.holds s.cfg.payload → z.holds s.cfg.payload)
    (hreached : Reached held { s with dir := { s.dir with data := data, synced := synced } } z) :
    Inv held finished
      ({ s with dir := { s.dir with data := data, synced := synced } }.setSaver i (some z)) := by
  refine { h with named_whole := ?_, opened := ?_, reached := ?_, current := ?_ }
  · intro j hj
    obtain ⟨hsynced, cfg, hcfg, htext⟩ := h.named_whole j hj
    exact ⟨(hnamed j hj).2.trans hsynced, cfg, hcfg, (hnamed j hj).1.trans htext⟩
  · intro j k x hx x' hy hxo hyo
    obtain ⟨hj, ⟨⟩⟩ | ⟨hj, hxs⟩ := update_eq_some hx
    · obtain ⟨hk, -⟩ | ⟨hk, hys⟩ := update_eq_some hy
      · exact hj.trans hk.symm
      · exact absurd hxo (hothers k hk x' hys hyo).1
    · obtain ⟨hk, ⟨⟩⟩ | ⟨-, hys⟩ := update_eq_some hy
      · exact absurd hyo (hothers j hj x hxs hxo).1
      · exact h.opened _ _ _ hxs _ hys hxo hyo
  · intro j x hx
    obtain ⟨hj, ⟨⟩⟩ | ⟨hj, hxs⟩ := update_eq_some hx
    · exact hreached
    · refine (h.reached j x hxs).mono (fun _ h => h) fun hopened => ?_
      obtain ⟨-, rfl, rfl⟩ := hothers j hj x hxs hopened
      exact ⟨rfl, fun _ _ => ⟨rfl, rfl⟩⟩
  · intro hfinished
    obtain hcurrent | ⟨j, x, hx, hxh⟩ := h.current hfinished
    · refine Or.inl ?_
      obtain ⟨j, hj, htext⟩ := Option.map_eq_some_iff.mp hcurrent
      have hsame := (hnamed j (h.config_named j hj)).1
      exact Option.map_eq_some_iff.mpr ⟨j, hj, hsame.trans htext⟩
    · refine Or.inr ?_
      by_cases hji : j = i
      · subst hji
        rw [hold] at hx
        cases hx
        exact ⟨j, z, Function.update_self j _ _, hholds hxh⟩
      · exact ⟨j, x, (Function.update_of_ne hji _ _).trans hx, hxh⟩

theorem inv_call (h : Inv held finished s) {i : ℕ} (hidle : s.savers i = none) (c : Change) :
    Inv (c.apply s.cfg :: held) finished
      ({ s with cfg := c.apply s.cfg }.setSaver i (some .called)) := by
  have hheld : held ⊆ c.apply s.cfg :: held := List.subset_cons_of_subset _ (fun _ h => h)
  refine { h with mem_held := List.mem_cons_self, named_whole := ?_, opened := ?_, reached := ?_,
                  current := ?_ }
  · exact fun j hj => ⟨(h.named_whole j hj).1, Complete.mono (h.named_whole j hj).2 hheld⟩
  · intro j k x hx y hy hxo hyo
    obtain ⟨rfl, ⟨⟩⟩ | ⟨-, hx⟩ := update_eq_some hx
    · cases hxo
    obtain ⟨rfl, ⟨⟩⟩ | ⟨-, hy⟩ := update_eq_some hy
    · cases hyo
    exact h.opened _ _ _ hx _ hy hxo hyo
  · intro j x hx
    obtain ⟨rfl, ⟨⟩⟩ | ⟨-, hx⟩ := update_eq_some hx
    · trivial
    · exact (h.reached j x hx).mono hheld fun _ => ⟨rfl, fun _ _ => ⟨rfl, rfl⟩⟩
  · exact fun _ => Or.inr ⟨i, .called, Function.update_self i _ _, trivial⟩

theorem inv_serialize (h : Inv held finished s) (i : ℕ) :
    Inv held finished (s.step (.serialize i)) := by
  dsimp only [step]
  split
  · rename_i hold
    exact h.advance hold (fun _ _ => ⟨rfl, rfl⟩) (fun _ _ _ _ _ => ⟨fun ho => ho, rfl, rfl⟩)
      (fun _ => rfl) ⟨s.cfg, h.mem_held, rfl⟩
  · exact h

theorem Inv.update_named (h : Inv held finished s) {inode : ℕ} (htmp : s.dir.tmp = some inode)
    (text : Str)
    (b : Bool) : ∀ j ∈ s.dir.named, Function.update s.dir.data inode text j = s.dir.data j ∧
      Function.update s.dir.synced inode b j = s.dir.synced j := by
  intro j hj
  have hne : j ≠ inode := by
    rintro rfl
    exact h.named_tmp j hj htmp
  exact ⟨Function.update_of_ne hne _ _, Function.update_of_ne hne _ _⟩

theorem Inv.newTmp (h : Inv held finished s) (htmp : s.dir.tmp = none) :
    Inv held finished
      { s with dir := { s.dir with tmp := some s.dir.inodes, inodes := s.dir.inodes + 1 } } := by
  refine { h with tmp_lt := ?_, named_lt := ?_, named_tmp := ?_, reached := ?_ }
  · rintro i ⟨⟩
    exact Nat.lt_succ_self _
  · exact fun i hi => Nat.lt_succ_of_lt (h.named_lt i hi)
  · rintro i hi ⟨⟩
    exact absurd (h.named_lt _ hi) (lt_irrefl _)
  · intro j x hx
    refine (h.reached j x hx).mono (fun _ h => h) fun hopened => ?_
    have hreached := h.reached j x hx
    cases x with
    | called => cases hopened
    | serialized payload => cases hopened
    | writing payload inode offset => exact absurd (htmp.symm.trans hreached.2.1) (by simp)
    | synced payload inode => exact absurd (htmp.symm.trans hreached.2.1) (by simp)

theorem inv_openTmp (h : Inv held finished s) {i : ℕ}
    (hok : (∃ payload, s.savers i = some (.serialized payload)) →
      ∀ j, ∀ x ∈ s.savers j, ¬ x.HasOpened) : Inv held finished (s.step (.openTmp i)) := by
  dsimp only [step]
  split
  · rename_i payload hold
    have hnone := hok ⟨payload, hold⟩
    have hcomplete : Complete held payload := h.reached i _ hold
    cases htmp : s.dir.tmp with
    | none =>
      have hnew := (h.newTmp htmp).advance (z := .writing payload s.dir.inodes 0) hold
        ((h.newTmp htmp).update_named rfl [] false)
        (fun j _ x hx hopened => absurd hopened (hnone j x hx)) (fun hp => hp)
        ⟨hcomplete, rfl, Nat.zero_le _, Function.update_self _ _ _⟩
      simp only [ConfigDir.openTmp, htmp, Option.getD_none, if_true]
      exact hnew
    | some inode =>
      have hnew := h.advance (z := .writing payload inode 0) hold (h.update_named htmp [] false)
        (fun j _ x hx hopened => absurd hopened (hnone j x hx)) (fun hp => hp)
        ⟨hcomplete, htmp, Nat.zero_le _, Function.update_self _ _ _⟩
      simp only [ConfigDir.openTmp, htmp, Option.getD_some, reduceCtorEq, if_false]
      rw [← htmp]
      exact hnew
  · exact h

theorem write_data {payload : Str} {offset : ℕ} (hoffset : offset ≤ payload.length) (n : ℕ) :
    (payload.take offset ++ List.replicate (offset - (payload.take offset).length) '\x00').take offset ++
        ((payload.drop offset).take n ++
          (payload.take offset).drop (offset + ((payload.drop offset).take n).length)) =
      payload.take (offset + ((payload.drop offset).take n).length) := by
  have hlen : (payload.take offset).length = offset := List.length_take_of_le hoffset
  have hdrop : (payload.take offset).drop (offset + ((payload.drop offset).take n).length) = [] := by
    rw [List.drop_eq_nil_iff]
    omega
  have hchunk : (payload.drop offset).take ((payload.drop offset).take n).length =
      (payload.drop offset).take n := by
    rw [List.length_take, ← List.take_eq_take_min]
  rw [hlen, Nat.sub_self, List.replicate_zero, List.append_nil, List.take_take, min_self, hdrop,
    List.append_nil, List.take_add, hchunk]

theorem Inv.others (h : Inv held finished s) {i : ℕ} {y : Saver} (hold : s.savers i = some y)
    (hopened : y.HasOpened) : ∀ j ≠ i, ∀ x ∈ s.savers j, ¬ x.HasOpened :=
  fun j hj x hx hxo => hj (h.opened j i x hx y hold hxo hopened)

theorem inv_write (h : Inv held finished s) (i n : ℕ) :
    Inv held finished (s.step (.write i n)) := by
  dsimp only [step]
  split
  · rename_i payload inode offset hold
    obtain ⟨hcomplete, htmp, hoffset, hdata⟩ : Reached held s (.writing payload inode offset) :=
      h.reached i _ hold
    have hlen : ((payload.drop offset).take n).length ≤ payload.length - offset := by
      rw [← List.length_drop]
      exact List.length_take_le' _ _
    refine h.advance hold (h.update_named htmp _ false)
      (fun j hj x hx hopened => absurd hopened (h.others hold trivial j hj x hx)) (fun hp => hp)
      ⟨hcomplete, htmp, by omega, ?_⟩
    dsimp only
    rw [Function.update_self, hdata]
    exact write_data hoffset n
  · exact h

theorem inv_fsync (h : Inv held finished s) (i : ℕ) :
    Inv held finished (s.step (.fsync i)) := by
  dsimp only [step]
  split
  · rename_i payload inode offset hold
    split_ifs with hall
    · obtain ⟨hcomplete, htmp, -, hdata⟩ : Reached held s (.writing payload inode offset) :=
        h.reached i _ hold
      have hnamed := h.update_named htmp (s.dir.data inode) true
      rw [Function.update_eq_self] at hnamed
      refine h.advance hold hnamed
        (fun j hj x hx hopened => absurd hopened (h.others hold trivial j hj x hx)) (fun hp => hp)
        ⟨hcomplete, htmp, ?_, Function.update_self _ _ _⟩
      dsimp only
      rw [hdata, hall, List.take_length]
    · exact h
  · exact h

theorem inv_replace (h : Inv held finished s) {i : ℕ} {payload : Str} {inode : ℕ}
    (hold : s.savers i = some (.synced payload inode))
    (hok : payload = s.cfg.payload ∨ ∃ j ≠ i, ∃ x ∈ s.savers j, x.holds s.cfg.payload) :
    Inv held true ({ s with dir := s.dir.replace }.setSaver i none) := by
  obtain ⟨hcomplete, htmp, hdata, hsynced⟩ : Reached held s (.synced payload inode) :=
    h.reached i _ hold
  have hothers := h.others hold trivial
  have hreplace : s.dir.replace = { s.dir with
      config := some inode, tmp := none, named := inode :: s.dir.named } := by
    rw [ConfigDir.replace, htmp]
  rw [hreplace]
  refine { mem_held := h.mem_held, tmp_lt := ?_, named_lt := ?_, named_tmp := ?_, named_whole := ?_,
           config_named := ?_, opened := ?_, reached := ?_, current := ?_ }
  · rintro j ⟨⟩
  · exact List.forall_mem_cons.mpr ⟨h.tmp_lt inode htmp, h.named_lt⟩
  · rintro j - ⟨⟩
  · exact List.forall_mem_cons.mpr ⟨⟨hsynced, hdata ▸ hcomplete⟩, h.named_whole⟩
  · rintro j ⟨⟩
    exact List.mem_cons_self
  · intro j k x hx x' hy hxo hyo
    obtain ⟨-, ⟨⟩⟩ | ⟨hj, hxs⟩ := update_eq_some hx
    exact absurd hxo (hothers j hj x hxs)
  · intro j x hx
    obtain ⟨-, ⟨⟩⟩ | ⟨hj, hxs⟩ := update_eq_some hx
    exact (h.reached j x hxs).mono (fun _ h => h) fun hopened => absurd hopened (hothers j hj x hxs)
  · intro _
    obtain hcurrent | ⟨j, hj, x, hx, hxh⟩ := hok
    · exact Or.inl (congrArg some (hdata.trans hcurrent))
    · exact Or.inr ⟨j, x, (Function.update_of_ne hj _ _).trans hx, hxh⟩

end Saving

/-! ### The log -/

theorem Saver.Took.holds {taken : Option Config} {cfg : Config} {x : Saver} (h : x.Took taken)
    (htaken : taken = some cfg) : x.holds cfg.payload := by
  subst htaken
  cases x with
  | called => trivial
  | serialized | writing | synced =>
    obtain ⟨cfg', ⟨⟩, hholds⟩ := h
    exact hholds

/-- The invariant holds of the callers, and what they hold is what the log says they took. -/
structure Logged (p : Saving × SaveLog) : Prop where
  inv : p.1.Inv (p.1.cfg :: p.2.held) p.2.finished
  took : ∀ j, ∀ x ∈ p.1.savers j, x.Took (p.2.taken j)

variable {p : Saving × SaveLog}

theorem Logged.whole (h : Logged p) : Whole p :=
  ⟨fun i hi => (h.inv.named_whole i (h.inv.config_named i hi)).2, h.inv.named_whole⟩

theorem Logged.upToDate (h : Logged p) : UpToDate p := by
  intro hidle hfinished
  obtain hcurrent | ⟨j, x, hx, -⟩ := h.inv.current hfinished
  · exact hcurrent
  · rw [hidle j] at hx
    cases hx

/-- A saver that moves on with the payload it has. -/
theorem Logged.took_update (h : Logged p) {i : ℕ} {z : Option Saver}
    (hz : ∀ x ∈ z, x.Took (p.2.taken i)) :
    ∀ j, ∀ x ∈ Function.update p.1.savers i z j, x.Took (p.2.taken j) := by
  intro j x hx
  obtain ⟨rfl, hz'⟩ | ⟨-, hx⟩ := update_eq_some hx
  · exact hz x hz'
  · exact h.took j x hx

/-- A saver that goes on holds what it held. -/
theorem Logged.took_next (h : Logged p) {i : ℕ} {y z : Saver} (hold : p.1.savers i = some y)
    (hy : y ≠ .called) (hsame : ∀ text, y.holds text → z.holds text) :
    ∀ j, ∀ x ∈ Function.update p.1.savers i (some z) j, x.Took (p.2.taken j) := by
  refine h.took_update fun x hx => ?_
  obtain rfl : z = x := by simpa using hx
  have htook := h.took i y hold
  cases y with
  | called => exact absurd rfl hy
  | serialized | writing | synced =>
    obtain ⟨cfg, hcfg, hholds⟩ := htook
    have hz : z.holds cfg.payload := hsame _ hholds
    cases z with
    | called => trivial
    | serialized | writing | synced => exact ⟨cfg, hcfg, hz⟩

theorem Logged.call (h : Logged p) (i : ℕ) (c : Change) : Logged (saveStep p (.call i c)) := by
  dsimp only [saveStep, watched, Saving.step, noteSaving]
  split_ifs with hidle
  · refine ⟨Saving.inv_call h.inv hidle c, h.took_update ?_⟩
    rintro x ⟨⟩
    trivial
  · exact h

theorem Logged.serialize (h : Logged p) (i : ℕ) : Logged (saveStep p (.serialize i)) := by
  have hinv := Saving.inv_serialize h.inv i
  dsimp only [saveStep, watched, Saving.step, noteSaving] at hinv ⊢
  split at hinv
  · rename_i hcalled
    rw [if_pos hcalled]
    refine ⟨hinv, fun j x hx => ?_⟩
    obtain ⟨rfl, ⟨⟩⟩ | ⟨hj, hx⟩ := update_eq_some hx
    · dsimp only
      rw [Function.update_self]
      exact ⟨p.1.cfg, rfl, rfl⟩
    · dsimp only
      rw [Function.update_of_ne hj]
      exact h.took j x hx
  · rename_i hnot
    rw [if_neg hnot]
    exact h

theorem Logged.openTmp (h : Logged p) {i : ℕ} (hok : Apart p (.openTmp i)) :
    Logged (saveStep p (.openTmp i)) := by
  have hinv := Saving.inv_openTmp h.inv hok
  dsimp only [saveStep, watched, Saving.step, noteSaving] at hinv ⊢
  split
  · rename_i payload hold
    simp only [hold] at hinv
    exact ⟨hinv, h.took_next hold (by simp) fun _ htext => htext⟩
  · exact h

theorem Logged.write (h : Logged p) (i n : ℕ) : Logged (saveStep p (.write i n)) := by
  have hinv := Saving.inv_write h.inv i n
  dsimp only [saveStep, watched, Saving.step, noteSaving] at hinv ⊢
  split
  · rename_i payload inode offset hold
    simp only [hold] at hinv
    exact ⟨hinv, h.took_next hold (by simp) fun _ htext => htext⟩
  · exact h

theorem Logged.fsync (h : Logged p) (i : ℕ) : Logged (saveStep p (.fsync i)) := by
  have hinv := Saving.inv_fsync h.inv i
  dsimp only [saveStep, watched, Saving.step, noteSaving] at hinv ⊢
  split
  · rename_i payload inode offset hold
    simp only [hold] at hinv
    split_ifs at hinv ⊢
    · exact ⟨hinv, h.took_next hold (by simp) fun _ htext => htext⟩
    · exact h
  · exact h

theorem Logged.replace (h : Logged p) {i : ℕ} (hok : Apart p (.replace i)) :
    Logged (saveStep p (.replace i)) := by
  dsimp only [saveStep, watched, Saving.step, noteSaving]
  split
  · rename_i payload inode hold
    have hcurrent : payload = p.1.cfg.payload ∨
        ∃ j ≠ i, ∃ x ∈ p.1.savers j, x.holds p.1.cfg.payload := by
      refine (hok ⟨payload, inode, hold⟩).imp (fun htaken => (h.took i _ hold).holds htaken) ?_
      rintro ⟨j, hj, x, hx, rfl | htaken⟩
      · exact ⟨j, hj, .called, hx, trivial⟩
      · exact ⟨j, hj, x, hx, (h.took j x hx).holds htaken⟩
    refine ⟨Saving.inv_replace h.inv hold hcurrent, h.took_update ?_⟩
    rintro x ⟨⟩
  · exact h

theorem Logged.step {x : SaveStep} (h : Logged p) (hok : Apart p x) : Logged (saveStep p x) := by
  cases x with
  | call i c => exact h.call i c
  | serialize i => exact h.serialize i
  | openTmp i => exact h.openTmp hok
  | write i n => exact h.write i n
  | fsync i => exact h.fsync i
  | replace i => exact h.replace hok

/-- No call is under way. The file is that of some earlier Config or absent, and of tmp there
may be anything. -/
structure Start (p : Saving × SaveLog) : Prop where
  idle : ∀ i, p.1.savers i = none
  unfinished : p.2.finished = false
  tmp_lt : ∀ i ∈ p.1.dir.tmp, i < p.1.dir.inodes
  config_lt : ∀ i ∈ p.1.dir.config, i < p.1.dir.inodes
  distinct : ∀ i ∈ p.1.dir.config, p.1.dir.tmp ≠ some i
  named : p.1.dir.named = p.1.dir.config.toList
  synced : ∀ i ∈ p.1.dir.config, p.1.dir.synced i = true
  complete : ∀ i ∈ p.1.dir.config, Complete (p.1.cfg :: p.2.held) (p.1.dir.data i)

theorem Start.logged (h : Start p) : Logged p := by
  have hnamed : ∀ i, i ∈ p.1.dir.named ↔ i ∈ p.1.dir.config := by
    intro i
    rw [h.named]
    exact Option.mem_toList
  have hidle : ∀ j, ∀ x, x ∉ p.1.savers j := by
    intro j x hx
    rw [h.idle j] at hx
    cases hx
  refine ⟨{ mem_held := List.mem_cons_self, tmp_lt := h.tmp_lt, named_lt := ?_, named_tmp := ?_,
            named_whole := ?_, config_named := ?_, opened := ?_, reached := ?_, current := ?_ }, ?_⟩
  · exact fun i hi => h.config_lt i ((hnamed i).mp hi)
  · exact fun i hi => h.distinct i ((hnamed i).mp hi)
  · exact fun i hi => ⟨h.synced i ((hnamed i).mp hi), h.complete i ((hnamed i).mp hi)⟩
  · exact fun i hi => (hnamed i).mpr hi
  · exact fun j k x hx => absurd hx (hidle j x)
  · exact fun j x hx => absurd hx (hidle j x)
  · intro hfinished
    rw [h.unfinished] at hfinished
    cases hfinished
  · exact fun j x hx => absurd hx (hidle j x)

/-- As long as no two callers are at the temporary file and none puts back a text from before
a change that nobody else is going to save, config.json is absent or whole at every moment,
and in the end it is the Config in memory. -/
theorem config_never_half_written (hstart : Start p) {steps : List SaveStep}
    (hok : Guarded saveStep Apart p steps) :
    Throughout saveStep (fun p => Whole p ∧ UpToDate p) p steps := by
  have hinv : Throughout saveStep Logged p steps :=
    throughout_invariant (fun _ _ h hok => h.step hok) hstart.logged hok
  exact hinv.mono fun p h => ⟨h.whole, h.upToDate⟩

def freshSaving : Saving × SaveLog :=
  (⟨defaultConfig, ⟨none, none, fun _ => [], fun _ => false, 0, []⟩, fun _ => none⟩,
    ⟨[], fun _ => none, false⟩)

theorem freshSaving_start : Start freshSaving where
  idle _ := rfl
  unfinished := rfl
  tmp_lt i hi := by cases hi
  config_lt i hi := by cases hi
  distinct i hi := by cases hi
  named := rfl
  synced i hi := by cases hi
  complete i hi := by cases hi

def SaveStep.caller : SaveStep → ℕ
  | .call i _ | .serialize i | .openTmp i | .write i _ | .fsync i | .replace i => i

theorem Saving.step_savers (s : Saving) {x : SaveStep} {j : ℕ} (hj : j ≠ x.caller) :
    (s.step x).savers j = s.savers j := by
  unfold Saving.step
  cases x <;> dsimp only <;> split <;> first
    | rfl
    | exact Function.update_of_ne hj _ _
    | split_ifs <;> first | rfl | exact Function.update_of_ne hj _ _

theorem run_savers {steps : List SaveStep} {j : ℕ} (hj : ∀ x ∈ steps, j ≠ x.caller) :
    (run saveStep p steps).1.savers j = p.1.savers j := by
  induction steps generalizing p with
  | nil => rfl
  | cons x steps ih =>
    obtain ⟨hx, hsteps⟩ := List.forall_mem_cons.mp hj
    rw [run_cons, ih hsteps]
    exact p.1.step_savers hx

/-- Caller 0 serializes the volume, and caller 1 mutes before the volume is in place. -/
def saveVolume : List SaveStep :=
  [.call 0 (.volume 10), .serialize 0, .call 1 (.mute true), .openTmp 0, .write 0 100,
    .write 0 100, .fsync 0]

def saveMute : List SaveStep := [.openTmp 1, .write 1 1000, .fsync 1, .replace 1]

def saveTwice : List SaveStep := (saveVolume ++ [.replace 0, .serialize 1]) ++ saveMute

theorem saveTwice_others {steps : List SaveStep} (hsteps : ∀ x ∈ steps, x.caller ≤ 1) {j : ℕ}
    (hj : 1 < j) : (run saveStep freshSaving steps).1.savers j = none := by
  apply run_savers
  intro x hx hcaller
  have hle := hsteps x hx
  omega

theorem saveTwice_closed {steps : List SaveStep} (hsteps : ∀ x ∈ steps, x.caller ≤ 1)
    (hzero : ∀ x ∈ (run saveStep freshSaving steps).1.savers 0, ¬ x.HasOpened)
    (hone : ∀ x ∈ (run saveStep freshSaving steps).1.savers 1, ¬ x.HasOpened) :
    ∀ j, ∀ x ∈ (run saveStep freshSaving steps).1.savers j, ¬ x.HasOpened := by
  rintro (_ | _ | i) x hx
  · exact hzero x hx
  · exact hone x hx
  · rw [saveTwice_others hsteps (by omega)] at hx
    cases hx

/-- Serializing the volume, the steps of caller 0 leave caller 1 where it was. -/
theorem saveVolume_called : (run saveStep freshSaving saveVolume).1.savers 1 = some .called := by
  decide +kernel

set_option maxRecDepth 8000 in
theorem saveTwice_apart : Guarded saveStep Apart freshSaving saveTwice := by
  refine (guarded_append _ _ _).mpr ⟨(guarded_append _ _ _).mpr ⟨?_, ?_⟩, ?_⟩
  · refine ⟨trivial, trivial, trivial, fun _ => ?_, trivial, trivial, trivial, trivial⟩
    have hopened : ∀ j, ∀ x ∈ (run saveStep freshSaving (saveVolume.take 3)).1.savers j,
        ¬ x.HasOpened := by
      refine saveTwice_closed (by decide) ?_ ?_
      · rintro x ⟨⟩
        exact id
      · rintro x ⟨⟩
        exact id
    exact hopened
  · exact ⟨fun _ => Or.inr ⟨1, by decide, .called, saveVolume_called, Or.inl rfl⟩, trivial, trivial⟩
  · refine ⟨fun _ => saveTwice_closed (by decide) ?_ ?_, trivial, trivial, fun _ => Or.inl rfl, trivial⟩
    · rintro x ⟨⟩
    · rintro x ⟨⟩
      exact id

theorem config_never_half_written_example :
    (∀ i, (run saveStep freshSaving saveTwice).1.savers i = none) ∧
      (run saveStep freshSaving saveTwice).1.dir.config.map
        (run saveStep freshSaving saveTwice).1.dir.data =
          some (run saveStep freshSaving saveTwice).1.cfg.payload := by
  have hidle : ∀ i, (run saveStep freshSaving saveTwice).1.savers i = none := by
    rintro (_ | _ | i)
    · decide +kernel
    · decide +kernel
    · exact saveTwice_others (by decide) (by omega)
  exact ⟨hidle, (config_never_half_written freshSaving_start saveTwice_apart _ List.prefix_rfl).2
    hidle (by decide +kernel)⟩

/-- Caller 1 truncates the temporary file that caller 0 has written and then puts in place. -/
theorem config_half_written :
    ¬ Throughout saveStep (fun p => Whole p ∧ UpToDate p) freshSaving
      [.call 0 (.volume 10), .serialize 0, .openTmp 0, .write 0 1000, .fsync 0,
        .call 1 (.mute true), .serialize 1, .openTmp 1, .replace 0] := by
  intro h
  obtain ⟨⟨hwhole, -⟩, -⟩ := h _ List.prefix_rfl
  obtain ⟨cfg, -, htext⟩ := hwhole 0 (by decide +kernel)
  have hempty : [] = cfg.payload := Eq.trans (by decide +kernel) htext
  obtain ⟨c, t, heq, -⟩ := dumpsAt_opens 0 (.obj cfg.asdict)
  rw [Config.payload, dumps, heq] at hempty
  cases hempty

end UsbFloppy.Core
