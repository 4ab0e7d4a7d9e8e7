import BumbelBee.Proof.Readers
import BumbelBee.Proof.Session

/-!
# Where a replay sends `sched_yield`

A replay that starts from the table the recording started from takes the recording's steps.
As long as its calls agree with the log, the next task's event in the log is the next call of
`schedule`; so where `sched_yield` finds a switch before it, that is the switch it would make
by itself, to a slot that is ready. Once a call disagrees the log stays where it is, before an
event that is a handler's or at its end, and `sched_yield` is told nothing any more.

All this rests on the two runs recording the same words. `sysload_task` records
`memory_used_bytes()` under the scheduler's own event type: where that differs, the replay
stops before an amount of memory and `sched_yield` takes it for a slot.

The argument is a simulation of two machines that do not run in step: handlers come in where they
like on either side, and the replay goes on after it has diverged. `Working` is what both keep, and
`ReplayStage` where the replay is. What has to be excluded is that the replay stands before an event
that is no switch of the scheduler's and yet has its type; it is for this that the words have to be
the same, and for nothing else. The store comes in only as the place the log is read from: on a disk
with two sessions of one id the log of another session is read, and then nothing is said.
-/

namespace BumbelBee
namespace Proof

open Lib Kernel

/-! ## The log and the process

A log is compared with a process, not with another log: what `LogOf` says is that the tasks' events
in it are the first of the process's emissions, with the handlers' among them anywhere. So an event
at the head of what is left of the log is either a handler's, or the very next emission.
-/

/-- The log holds of the calls of a run what there was room for. -/
structure LogOf (memoryUsed : UInt64) (s₀ : Sys) (es : List TraceEvent) : Prop where
  room : es.length ≤ traceBufferCap
  stored : ∃ n logged, logged <+: schedule.emitted s₀ n ∧
    List.Forall₂ (RecordedAs memoryUsed) logged (es.filter ofTask) ∧
    (logged ≠ schedule.emitted s₀ n → es.length = traceBufferCap)

section
variable {memoryUsed : UInt64} {s₀ : Sys} {es : List TraceEvent}

theorem Trace.length_events (t : Trace) : t.events.length = t.currentEvents.toNat := by
  rw [Trace.events, List.length_map, List.length_range]

theorem Logging.logOf {requests : List Request} {quiet : Prop} {t : Trace} {n : Nat}
    (h : Logging memoryUsed requests quiet t) (hrequests : requests = schedule.emitted s₀ n) :
    LogOf memoryUsed s₀ t.events := by
  obtain ⟨logged, hprefix, hstored, hfull⟩ := h.stored
  refine ⟨Trace.length_events t ▸ h.room, n, logged, hrequests ▸ hprefix, hstored, ?_⟩
  intro hne
  rw [Trace.length_events]
  exact hfull (hrequests ▸ hne)

/-- **A task's event at the head** is one that the run emits there. -/
theorem LogOf.head (h : LogOf memoryUsed s₀ es) {j : Nat}
    (htasks : ∀ e ∈ es.take j, ofTask e = true) {e : TraceEvent} {rest : List TraceEvent}
    (hrest : es.drop j = e :: rest) (htask : ofTask e = true) :
    ∃ n, ∃ hj : j < (schedule.emitted s₀ n).length,
      RecordedAs memoryUsed (schedule.emitted s₀ n)[j] e := by
  obtain ⟨n, logged, hprefix, hstored, -⟩ := h.stored
  have hlt : j < es.length := by
    by_contra hge
    rw [List.drop_of_length_le (by omega)] at hrest
    cases hrest
  have hfilter : es.filter ofTask = es.take j ++ e :: rest.filter ofTask := by
    conv_lhs => rw [← List.take_append_drop j es, hrest]
    rw [List.filter_append, List.filter_eq_self.mpr htasks, List.filter_cons_of_pos htask]
  rw [hfilter] at hstored
  have htake : (es.take j).length = j := by
    rw [List.length_take]
    omega
  have hlength := hstored.length_eq
  rw [List.length_append, htake, List.length_cons] at hlength
  have hlogged : j < logged.length := by omega
  have hat := hstored.get hlogged (by rw [List.length_append, htake, List.length_cons]; omega)
  simp only [List.get_eq_getElem] at hat
  rw [List.getElem_append_right (by omega), hprefix.getElem hlogged] at hat
  simp only [htake, Nat.sub_self, List.getElem_cons_zero] at hat
  exact ⟨n, lt_of_lt_of_le hlogged hprefix.length_le, hat⟩

/-- So it is the next call the process makes, if it makes one. -/
theorem LogOf.head_next (h : LogOf memoryUsed s₀ es) {k : Nat}
    (htasks : ∀ e ∈ es.take (schedule.emitted s₀ k).length, ofTask e = true) {e : TraceEvent}
    {rest : List TraceEvent} (hrest : es.drop (schedule.emitted s₀ k).length = e :: rest)
    (htask : ofTask e = true) {r : Request}
    (hemit : schedule.emit (schedule.after s₀ k) = some r) : RecordedAs memoryUsed r e := by
  obtain ⟨n, hj, hat⟩ := h.head htasks hrest htask
  rw [Process.emitted_next hemit hj] at hat
  exact hat

/-- And a process that has come to rest has no task's event before it. -/
theorem LogOf.head_fixed (h : LogOf memoryUsed s₀ es) {k : Nat}
    (htasks : ∀ e ∈ es.take (schedule.emitted s₀ k).length, ofTask e = true) {e : TraceEvent}
    {rest : List TraceEvent} (hrest : es.drop (schedule.emitted s₀ k).length = e :: rest)
    (hnext : schedule.next (schedule.after s₀ k) = schedule.after s₀ k)
    (hemit : schedule.emit (schedule.after s₀ k) = none) : ofTask e = false := by
  rw [← Bool.not_eq_true]
  intro htask
  obtain ⟨n, hj, -⟩ := h.head htasks hrest htask
  rcases Nat.le_total k n with hle | hle
  · rw [(Process.emitted_fixed hnext hemit hle).2] at hj
    exact lt_irrefl _ hj
  · exact absurd (schedule.emitted_prefix s₀ hle).length_le (Nat.not_le_of_lt hj)

end

/-! ## What the replay expects

`trace_replay_expected_next_task` looks at the next event of the log, whoever recorded it, and
answers by its type. The answer is a slot where the event is one that `switch_to` has recorded; that
no other event has this type is the condition.
-/

/-- The next event of the log decides it. -/
theorem Replaying.expected {es : List TraceEvent} {start : UInt64} {w : Walk TraceEvent} {t : Trace}
    (h : Replaying es start w t) : traceReplayExpectedNextTask t =
      w.rest.head?.bind fun e =>
        if e.type = TraceEventType.sched.code then some e.data1.toUInt32.toBitVec.toInt
        else none := by
  have hlast : t.replay.eventIndex ≥ t.replay.eventCount ↔
      es.length ≤ t.replay.eventIndex.toNat := by
    rw [ge_iff_le, UInt32.le_iff_toNat_le, h.count]
  rw [traceReplayExpectedNextTask, h.active, h.rest]
  by_cases hend : es.length ≤ t.replay.eventIndex.toNat
  · rw [List.drop_of_length_le hend]
    simp only [hlast.mpr hend, decide_true, Bool.or_true, if_true, List.head?_nil, Option.bind_none]
  · have hlt : t.replay.eventIndex.toNat < es.length := by omega
    have hopen : decide (t.replay.eventIndex ≥ t.replay.eventCount) = false :=
      decide_eq_false fun hge => hend (hlast.mp hge)
    rw [List.drop_eq_getElem_cons hlt, ← eventAt_of_contents h.log hlt, hopen]
    simp only [Bool.not_true, Bool.or_self, Bool.false_eq_true, if_false, List.head?_cons,
      Option.bind_some, bne_iff_ne, ne_eq, ite_not]

/-- Nothing is expected before a handler's event or at the end. -/
theorem Replaying.expected_none {es : List TraceEvent} {start : UInt64} {w : Walk TraceEvent}
    {t : Trace} (h : Replaying es start w t) (hhead : ∀ e ∈ w.rest.head?, ofTask e = false) :
    traceReplayExpectedNextTask t = none := by
  rw [h.expected]
  cases hrest : w.rest.head? with
  | none => rfl
  | some e =>
    rw [Option.bind_some]
    refine if_neg fun htype => ?_
    have hforeign := hhead e hrest
    rw [ofTask, htype] at hforeign
    cases hforeign

/-- What a call says in both runs: no handler's type, and the same word. -/
def SameWord (recorded replayed : UInt64) (type : TraceEventType) (d : Datum) : Prop :=
  ofHandler type.code = false ∧ d.value recorded = d.value replayed

/-- A slot as the log has it. -/
theorem slot_toInt : ∀ next : Fin maxTasks,
    (UInt64.ofNat next.val).toUInt32.toBitVec.toInt = (next.val : Int) := by
  decide

/-! ## A replay under way

Three things can have happened: every call so far has agreed, one has not, or the replay is over. In
the first the replay is the process itself, one call later; in the second the walk stands still, and
the tasks go on by themselves.
-/

/-- The slots a yield is sent to are ready. -/
def SafeDispatch (m : Machine) : Prop :=
  m.sys.yields m.failed = true → ∀ j, 0 ≤ j → traceReplayExpectedNextTask m.trace = some j →
    ∃ i : Fin maxTasks, j = i.val ∧ m.sys.sched.isReady i = true

/-- The log is all the tasks' and misses nothing of theirs. -/
def Faithful (s₀ : Sys) (es : List TraceEvent) : Prop :=
  (∀ n, (schedule.emitted s₀ n).length ≤ es.length) ∧ ∀ e ∈ es, ofTask e = true

/-- **Where a `demo replay` is** `j` calls behind the one that was typed, once it has begun. -/
inductive ReplayStage (s₀ : Sys) (es : List TraceEvent) (start memoryUsed : UInt64) (j : Nat)
    (m : Machine) : Prop
  | begun (memory : m.memoryUsed = memoryUsed) (calls : j = 1)
      (sched : m.sys.sched.current = 0 ∧ m.sys.sched.prepareReplay = s₀.sched)
      (active : m.sys.activeWorkloads = s₀.activeWorkloads)
      (command : m.sys.shell = .prepareReplay :: (s₀.shell ++ [.replayEnd]))
      (replaying : Replaying es start (Walk.start es) m.trace)
  /-- The calls so far agree with the log. -/
  | locked (k : Nat) (w : Walk TraceEvent) (memory : m.memoryUsed = memoryUsed) (calls : j = k + 2)
      (sys : m.sys = (schedule.after s₀ k).followedBy [.replayEnd])
      (replaying : Replaying es start w m.trace) (agreed : w.failed = false)
      (rest : w.rest = es.drop (schedule.emitted s₀ k).length)
      (length : (schedule.emitted s₀ k).length ≤ es.length)
      (tasks : ∀ e ∈ es.take (schedule.emitted s₀ k).length, ofTask e = true)
      (underWay : ∀ i < k, (schedule.after s₀ i).UnderWay)
  /-- One did not: the log stands where it stood. -/
  | stuck (k : Nat) (w : Walk TraceEvent) (memory : m.memoryUsed = memoryUsed) (calls : j = k + 2)
      (sys : m.sys = (schedule.after s₀ k).followedBy [.replayEnd])
      (replaying : Replaying es start w m.trace) (failed : w.failed = true)
      (head : ∀ e ∈ w.rest.head?, ofTask e = false) (bad : ¬ Faithful s₀ es)
      (underWay : ∀ i < k, (schedule.after s₀ i).UnderWay)
  /-- The shell found the replay failed. -/
  | leaving (k : Nat) (w : Walk TraceEvent) (calls : j = k + 3)
      (command : m.sys.sched.current = 0 ∧ m.sys.shell = [.replayEnd])
      (replaying : Replaying es start w m.trace) (failed : w.failed = true)
      (bad : ¬ Faithful s₀ es) (underWay : ∀ i < k, (schedule.after s₀ i).UnderWay)
  | ended (idle : m.sys.sched.current = 0 ∧ m.sys.shell = [])
      (inactive : m.trace.replay.active = false)
      (verdict : m.trace.replay.failed = false ↔ Faithful s₀ es)
      (count : m.trace.replay.failed = false →
        m.trace.replay.eventIndex = m.trace.replay.eventCount)

section
variable {s₀ : Sys} {es : List TraceEvent} {recorded replayed start : UInt64} {m : Machine}

/-- What a machine is told while its calls agree with the log: nothing, or the slot that its
    yield finds by itself. -/
theorem locked_yield (hlog : LogOf recorded s₀ es) {k : Nat}
    (hconsistent : (schedule.after s₀ k).sched.Consistent) {w : Walk TraceEvent} {t : Trace}
    (h : Replaying es start w t) (hrest : w.rest = es.drop (schedule.emitted s₀ k).length)
    (htasks : ∀ e ∈ es.take (schedule.emitted s₀ k).length, ofTask e = true) :
    (schedule.after s₀ k).step (traceReplayExpectedNextTask t) false =
        (schedule.after s₀ k).step none false ∧
      ((schedule.after s₀ k).yields false = true → ∀ j, traceReplayExpectedNextTask t = some j →
        ∃ i : Fin maxTasks, j = i.val ∧ (schedule.after s₀ k).sched.isReady i = true) := by
  by_cases hyields : (schedule.after s₀ k).yields false = true
  swap
  · rw [Bool.not_eq_true] at hyields
    refine ⟨Sys.step_expected hyields _, fun h => ?_⟩
    rw [hyields] at h
    cases h
  -- a handler's event at the head, or none: nothing is expected
  have hnone : (∀ e ∈ w.rest.head?, ofTask e = false) → traceReplayExpectedNextTask t = none :=
    h.expected_none
  have hquiet : traceReplayExpectedNextTask t = none →
      (schedule.after s₀ k).step (traceReplayExpectedNextTask t) false =
          (schedule.after s₀ k).step none false ∧
        ((schedule.after s₀ k).yields false = true → ∀ j, traceReplayExpectedNextTask t = some j →
          ∃ i : Fin maxTasks, j = i.val ∧ (schedule.after s₀ k).sched.isReady i = true) := by
    intro hnone
    rw [hnone]
    exact ⟨rfl, fun _ j hj => by cases hj⟩
  rcases Sys.step_yields hconsistent hyields with
    ⟨next, r, s', hready, htype, hdata, hfree, hforced⟩ | hstay
  · cases hhead : es.drop (schedule.emitted s₀ k).length with
    | nil =>
      apply hquiet
      apply hnone
      rw [hrest, hhead]
      intro e he
      cases he
    | cons e rest =>
      by_cases htask : ofTask e = true
      · -- the switch that the log has here is the one this yield makes
        have hemit : schedule.emit (schedule.after s₀ k) = some r := (schedule_of_step hfree).2
        have hat := hlog.head_next htasks hhead htask hemit
        have hexpected : traceReplayExpectedNextTask t = some (next.val : Int) := by
          rw [h.expected, hrest, hhead, List.head?_cons, Option.bind_some, if_pos, hat.data1, hdata,
            Datum.value, slot_toInt]
          rw [hat.type, htype]
        rw [hexpected]
        refine ⟨hforced.trans hfree.symm, fun _ j hj => ⟨next, ?_, hready⟩⟩
        exact (Option.some.inj hj).symm
      · apply hquiet
        apply hnone
        rw [hrest, hhead]
        intro e' he'
        rw [List.head?_cons, Option.mem_some_iff] at he'
        rw [← he']
        exact Bool.not_eq_true _ |>.mp htask
  · obtain ⟨hnext, hemit⟩ := schedule_of_step hstay
    apply hquiet
    apply hnone
    rw [hrest]
    intro e he
    obtain ⟨rest, hhead⟩ := List.head?_eq_some_iff.mp he
    exact hlog.head_fixed htasks hhead hnext hemit

/-! ## One step of the replay

A step asks the replay which task is expected, and may then make a call that the replay compares.
The question comes first, so the lemmas do: with the answer the step is one of the process, and the
call it makes is its emission.
-/

/-- A call that the replay checks. -/
theorem Replaying.request {w : Walk TraceEvent} (h : Replaying es start w m.trace) {r : Request}
    (hpid : r.pid = m.sys.sched.currentPid) (htype : ofHandler r.type.code = false) :
    ∃ t, m.perform (.record r) = .ok { m with trace := t } ∧
      Replaying es start (w.step RecordCall.agrees (Request.call m.ticks m.memoryUsed r)) t := by
  refine ⟨_, record_call hpid, h.step (Or.inr ?_)⟩
  intro hirq
  rw [show (Request.call m.ticks m.memoryUsed r).type = r.type.code from rfl] at hirq
  rw [hirq] at htype
  cases htype

/-- It agrees with its own event, and with no handler's. -/
theorem call_agrees {ticks : UInt64} {r : Request} {e : TraceEvent}
    (hword : SameWord recorded replayed r.type r.data1) :
    (RecordedAs recorded r e → (Request.call ticks replayed r).agrees e = true) ∧
      (ofTask e = false → (Request.call ticks replayed r).agrees e = false) := by
  have hagrees : (Request.call ticks replayed r).agrees e =
      (r.pid == e.pid && r.type.code == e.type && r.data0 == e.data0 &&
        r.data1.value replayed == e.data1) := by
    rw [RecordCall.agrees, show (Request.call ticks replayed r).eventPid = r.pid from ite_self _]
    rfl
  rw [hagrees]
  constructor
  · intro hat
    simp only [hat.pid, hat.type, hat.data0, hat.data1, hword.2, beq_self_eq_true, Bool.and_self]
  · intro hforeign
    have hne : (r.type.code == e.type) = false := by
      rw [beq_eq_false_iff_ne]
      intro hsame
      have hhandler := hword.1
      rw [hsame] at hhandler
      rw [ofTask, hhandler] at hforeign
      cases hforeign
    simp only [hne, Bool.and_false, Bool.false_and]

/-- The step `Sys` takes, with the command behind it. -/
theorem replay_step {s s' : Sys} {e : Effect} (hsys : m.sys = s.followedBy [.replayEnd])
    (hunder : s.UnderWay)
    (hstep : s.step (traceReplayExpectedNextTask m.trace) m.failed = .ok (s', e)) :
    m.step = { m with sys := s'.followedBy [.replayEnd] }.perform e := by
  rw [Machine.step, hsys, Sys.step_followedBy hunder, hstep]
  rfl

/-- `trace_replay_end`. -/
theorem replay_end (hcommand : m.sys.sched.current = 0 ∧ m.sys.shell = [.replayEnd]) :
    m.step = .ok { m with
      sys := m.sys.setShell []
      trace := traceReplayEnd m.trace } := by
  rw [Machine.step, Sys.step, if_pos hcommand.1, Sys.shellStep, hcommand.2]
  rfl

/-- What it leaves is the verdict on the walk. -/
theorem Replaying.at_end {w : Walk TraceEvent} {t : Trace} (h : Replaying es start w t) :
    (traceReplayEnd t).replay.active = false ∧
      ((traceReplayEnd t).replay.failed = false →
        (traceReplayEnd t).replay.eventIndex = (traceReplayEnd t).replay.eventCount) := by
  simp only [traceReplayEnd, h.active, Bool.not_true, Bool.false_eq_true, if_false, true_and]
  intro hfailed
  rw [Bool.or_eq_false_iff, bne_eq_false_iff_eq] at hfailed
  exact hfailed.2

/-- A run that is at its end stays there. -/
theorem at_rest {k : Nat} (hend : ¬ (schedule.after s₀ k).UnderWay) :
    schedule.next (schedule.after s₀ k) = schedule.after s₀ k ∧
      schedule.emit (schedule.after s₀ k) = none := by
  simp only [Sys.UnderWay, ne_eq, not_or, not_not] at hend
  exact schedule_of_step (e := .none)
    (by simp only [Sys.step, if_pos hend.2, Sys.shellStep, hend.1])

/-- At the end of a run whose calls all agreed, nothing of a faithful log is left. -/
theorem LogOf.rest_nil_iff (hlog : LogOf recorded s₀ es) {k : Nat}
    (hend : ¬ (schedule.after s₀ k).UnderWay)
    (hlength : (schedule.emitted s₀ k).length ≤ es.length)
    (htasks : ∀ e ∈ es.take (schedule.emitted s₀ k).length, ofTask e = true) :
    es.drop (schedule.emitted s₀ k).length = [] ↔ Faithful s₀ es := by
  obtain ⟨hnext, hemit⟩ := at_rest hend
  constructor
  · intro hnil
    have hle := List.drop_eq_nil_iff.mp hnil
    refine ⟨fun n => ?_, fun e he => htasks e ?_⟩
    · rcases Nat.le_total k n with hkn | hnk
      · rw [(Process.emitted_fixed hnext hemit hkn).2]
        exact hlength
      · exact (schedule.emitted_prefix s₀ hnk).length_le.trans hlength
    · rw [List.take_of_length_le hle]
      exact he
  · intro hfaithful
    cases hhead : es.drop (schedule.emitted s₀ k).length with
    | nil => rfl
    | cons e rest =>
      have hforeign := hlog.head_fixed htasks hhead hnext hemit
      rw [hfaithful.2 e (List.mem_of_mem_drop (hhead ▸ List.mem_cons_self))] at hforeign
      cases hforeign

theorem shell_suffix (s₀ : Sys) (k : Nat) : (schedule.after s₀ k).shell <:+ s₀.shell := by
  refine schedule.after_induction (P := fun s => s.shell <:+ s₀.shell) List.suffix_rfl ?_ k
  intro s h
  obtain ⟨s', e, hstep⟩ := s.step_none false
  rw [(schedule_of_step hstep).1]
  rcases Sys.step_shell hstep with ⟨op, hop, -⟩ | ⟨hkept, -⟩
  · exact (hop ▸ List.suffix_cons op s'.shell).trans h
  · exact hkept ▸ h

/-- The loop is the last of the profile's calls. -/
theorem loop_last {profile : UInt32} {rest : List ShellOp}
    (h : .untilIdle :: rest <:+ runProfile profile) : rest = [] := by
  obtain ⟨done, hdone⟩ := h
  rcases List.eq_nil_or_concat rest with rfl | ⟨rest', op, rfl⟩
  · rfl
  · -- the calls before the last one are spawns
    rw [runProfile, List.concat_eq_append, ← List.cons_append, ← List.append_assoc] at hdone
    have hspawns := (List.append_inj' hdone rfl).1
    have hloop : ShellOp.untilIdle ∈ (workloadRunProfile profile).map .spawn :=
      hspawns ▸ List.mem_append_right _ List.mem_cons_self
    obtain ⟨w, -, hw⟩ := List.mem_map.mp hloop
    cases hw

/-- Only the loop asks whether the replay has failed. -/
theorem step_failed {s : Sys} (h : ¬ (s.sched.current = 0 ∧ s.shell.head? = some .untilIdle)) :
    s.step none true = s.step none false := by
  unfold Sys.step
  split
  · rename_i hcur
    unfold Sys.shellStep
    cases hshell : s.shell with
    | nil => rfl
    | cons op rest =>
      cases op with
      | untilIdle => exact absurd ⟨hcur, by rw [hshell]; rfl⟩ h
      | _ => rfl
  · rfl

/-- A walk that stands before what its calls disagree with stays there. -/
theorem walk_stays {w : Walk TraceEvent} {c : RecordCall} (hfailed : w.failed = true)
    (hhead : ∀ e ∈ w.rest.head?, c.agrees e = false) :
    (w.step RecordCall.agrees c).failed = true ∧
      (w.step RecordCall.agrees c).rest = w.rest := by
  refine ⟨Walk.step_failed c hfailed, ?_⟩
  unfold Walk.step
  split
  · rfl
  · rename_i e rest hrest
    rw [hhead e (by rw [hrest]; rfl)]
    rfl

theorem underWay_succ {k : Nat} (h : ∀ i < k, (schedule.after s₀ i).UnderWay)
    (hk : (schedule.after s₀ k).UnderWay) : ∀ i < k + 1, (schedule.after s₀ i).UnderWay := by
  intro i hi
  rcases Nat.lt_succ_iff_lt_or_eq.mp hi with hi | rfl
  · exact h i hi
  · exact hk

/-- A call made while the calls agreed with the log: it agrees too, or the log has come to a
    handler's event or to its end. -/
theorem ReplayStage.ofCall (hlog : LogOf recorded s₀ es) {k : Nat} {w : Walk TraceEvent}
    {ticks : UInt64} {r : Request} (memory : m.memoryUsed = replayed)
    (sys : m.sys = (schedule.after s₀ (k + 1)).followedBy [.replayEnd])
    (replaying : Replaying es start
      (w.step RecordCall.agrees (Request.call ticks replayed r)) m.trace)
    (agreed : w.failed = false) (rest : w.rest = es.drop (schedule.emitted s₀ k).length)
    (tasks : ∀ e ∈ es.take (schedule.emitted s₀ k).length, ofTask e = true)
    (underWay : ∀ i < k + 1, (schedule.after s₀ i).UnderWay)
    (hemit : schedule.emit (schedule.after s₀ k) = some r)
    (hword : SameWord recorded replayed r.type r.data1) :
    ReplayStage s₀ es start replayed (k + 3) m := by
  have hemitted : (schedule.emitted s₀ (k + 1)).length = (schedule.emitted s₀ k).length + 1 := by
    rw [schedule.emitted_succ, hemit]
    exact List.length_append
  -- what the call meets: the log's end, an entry of the tasks, or a handler's
  cases hhead : es.drop (schedule.emitted s₀ k).length with
  | nil =>
    rw [hhead] at rest
    have hw : w.step RecordCall.agrees (Request.call ticks replayed r) =
        { w with failed := true } := by
      simp only [Walk.step, rest]
    refine .stuck (k + 1) _ memory rfl sys replaying (by rw [hw]) ?_ ?_ underWay
    · rw [hw]
      intro e he
      rw [rest] at he
      cases he
    · intro hfaithful
      have hmore := hfaithful.1 (k + 1)
      have hnone := List.drop_eq_nil_iff.mp hhead
      omega
  | cons e tail =>
    rw [hhead] at rest
    have hlt : (schedule.emitted s₀ k).length < es.length := by
      by_contra hge
      rw [List.drop_of_length_le (by omega)] at hhead
      cases hhead
    have hget := List.drop_eq_getElem_cons hlt
    rw [hhead] at hget
    obtain ⟨he, htail⟩ := List.cons.inj hget
    obtain ⟨hagrees, hdisagrees⟩ := @call_agrees recorded replayed ticks r e hword
    -- a task's entry is this very call; a handler's is not, and stays at the front
    by_cases htask : ofTask e = true
    · have hw : w.step RecordCall.agrees (Request.call ticks replayed r) =
          { w with rest := tail, last := some e } := by
        simp only [Walk.step, rest, hagrees (hlog.head_next tasks hhead htask hemit), if_true]
      refine .locked (k + 1) _ memory rfl sys replaying (by rw [hw]; exact agreed) ?_ ?_ ?_ underWay
      · rw [hw, hemitted]
        exact htail
      · rw [hemitted]
        exact hlt
      · rw [hemitted, List.take_succ_eq_append_getElem hlt, List.forall_mem_append]
        refine ⟨tasks, fun e' he' => ?_⟩
        rw [List.mem_singleton.mp he', ← he]
        exact htask
    · rw [Bool.not_eq_true] at htask
      have hw : w.step RecordCall.agrees (Request.call ticks replayed r) =
          { w with failed := true, last := some e } := by
        simp only [Walk.step, rest, hdisagrees htask, Bool.false_eq_true, if_false]
      refine .stuck (k + 1) _ memory rfl sys replaying (by rw [hw]) ?_ ?_ underWay
      · rw [hw]
        intro e' he'
        rw [rest, List.head?_cons, Option.mem_some_iff] at he'
        rw [← he']
        exact htask
      · intro hfaithful
        rw [hfaithful.2 e (he ▸ List.getElem_mem hlt)] at htask
        cases htask

/-- `trace_replay_end` behind the run. -/
theorem ReplayStage.ofEnd {j k : Nat} {w : Walk TraceEvent}
    (sys : m.sys = (schedule.after s₀ k).followedBy [.replayEnd])
    (hend : ¬ (schedule.after s₀ k).UnderWay) (replaying : Replaying es start w m.trace)
    (verdict : w.accepts ↔ Faithful s₀ es) :
    ∃ m', m.step = .ok m' ∧ ReplayStage s₀ es start replayed j m' := by
  simp only [Sys.UnderWay, ne_eq, not_or, not_not] at hend
  have hcommand : m.sys.sched.current = 0 ∧ m.sys.shell = [.replayEnd] := by
    rw [sys]
    refine ⟨hend.2, ?_⟩
    rw [Sys.followedBy, Sys.setShell, hend.1]
    rfl
  obtain ⟨hover, hcount⟩ := replaying.at_end
  exact ⟨_, replay_end hcommand,
    .ended ⟨hcommand.1, rfl⟩ hover (replaying.ends.trans verdict) hcount⟩

/-- **One call of the replay**: it is made, and the replay is where `ReplayStage` says. -/
theorem ReplayStage.step {profile : UInt32} {j : Nat} (hlog : LogOf recorded s₀ es)
    (hcommand : s₀.shell = runProfile profile)
    (hwork : Working (SameWord recorded replayed) s₀)
    (h : ReplayStage s₀ es start replayed j m) :
    ∃ m', m.step = .ok m' ∧ ReplayStage s₀ es start replayed (j + 1) m' := by
  have hsched : ∀ word, SameWord recorded replayed .sched (.word word) := fun _ => ⟨rfl, rfl⟩
  cases h with
  | begun memory calls sched active command replaying =>
    have hsys : m.sys.step (traceReplayExpectedNextTask m.trace) m.failed =
        .ok (s₀.followedBy [.replayEnd], .none) := by
      rw [Sys.step, if_pos sched.1, Sys.shellStep, command]
      simp only [sched.2, active]
      rfl
    refine ⟨{ m with sys := s₀.followedBy [.replayEnd] }, ?_, ?_⟩
    · rw [Machine.step, hsys]
      rfl
    · exact .locked 0 (Walk.start es) memory (by rw [calls]) rfl replaying rfl rfl (Nat.zero_le _)
        (fun e he => absurd he List.not_mem_nil) fun i hi => absurd hi (Nat.not_lt_zero i)
  | locked k w memory calls sys replaying agreed rest length tasks underWay =>
    have hk := hwork.after hsched k
    have hfailed : m.failed = false := by
      rw [Machine.failed, replaying.failed, agreed, Bool.and_false]
    by_cases hunder : (schedule.after s₀ k).UnderWay
    · obtain ⟨s', e, hs⟩ := (schedule.after s₀ k).step_none false
      obtain ⟨hafter, hemit⟩ := schedule_of_step hs
      rw [← schedule.after_succ] at hafter
      have hstep := replay_step sys hunder
        (hfailed ▸ (locked_yield hlog hk.consistent replaying rest tasks).1.trans hs)
      -- a step that makes no call leaves the walk alone; one that makes a call is a step of it
      rcases (hk.step hsched hs).2 with rfl | ⟨r, rfl, hpid, hword⟩
      · have hemitted : schedule.emitted s₀ (k + 1) = schedule.emitted s₀ k := by
          rw [schedule.emitted_succ, hemit]
          exact List.append_nil _
        refine ⟨_, hstep, .locked (k + 1) w memory (by rw [calls]) (by rw [hafter]) replaying agreed
          ?_ ?_ ?_ (underWay_succ underWay hunder)⟩
        · rw [hemitted]
          exact rest
        · rw [hemitted]
          exact length
        · rw [hemitted]
          exact tasks
      · obtain ⟨t, hperform, hwalk⟩ := Replaying.request
          (m := { m with sys := s'.followedBy [.replayEnd] }) replaying hpid hword.1
        rw [hperform] at hstep
        rw [show ({ m with sys := s'.followedBy [.replayEnd] } : Machine).memoryUsed = replayed from
          memory] at hwalk
        rw [calls]
        exact ⟨_, hstep, .ofCall hlog memory (by rw [hafter]) hwalk agreed rest tasks
          (underWay_succ underWay hunder) hemit hword⟩
    · refine ReplayStage.ofEnd sys hunder replaying ?_
      rw [Walk.accepts, rest, hlog.rest_nil_iff hunder length tasks]
      exact and_iff_right agreed
  | stuck k w memory calls sys replaying failed head bad underWay =>
    have hk := hwork.after hsched k
    have hfailed : m.failed = true := by
      rw [Machine.failed, replaying.active, replaying.failed, failed]
      rfl
    -- a failed replay names no next task, and ends the shell's loop
    have hexpected := replaying.expected_none head
    by_cases hunder : (schedule.after s₀ k).UnderWay
    · by_cases hloop : (schedule.after s₀ k).sched.current = 0 ∧
          (schedule.after s₀ k).shell.head? = some .untilIdle
      · -- the loop is left
        obtain ⟨rest, hshell⟩ := List.head?_eq_some_iff.mp hloop.2
        have hlast := loop_last (hcommand ▸ hshell ▸ shell_suffix s₀ k)
        have hs : (schedule.after s₀ k).step (traceReplayExpectedNextTask m.trace) m.failed =
            .ok ((schedule.after s₀ k).setShell [], .none) := by
          simp only [hfailed, Sys.step, if_pos hloop.1, Sys.shellStep, hshell, hlast, Bool.not_true,
            Bool.and_false, Bool.false_eq_true, if_false]
        refine ⟨_, replay_step sys hunder hs, ?_⟩
        exact .leaving k w (by rw [calls]) ⟨hloop.1, rfl⟩ replaying failed bad underWay
      · obtain ⟨s', e, hs⟩ := (schedule.after s₀ k).step_none false
        have hafter := (schedule_of_step hs).1
        rw [← schedule.after_succ] at hafter
        have hstep := replay_step sys hunder
          (by rw [hexpected, hfailed]; exact (step_failed hloop).trans hs)
        rcases (hk.step hsched hs).2 with rfl | ⟨r, rfl, hpid, hword⟩
        · exact ⟨_, hstep, .stuck (k + 1) w memory (by rw [calls]) (by rw [hafter]) replaying failed
            head bad (underWay_succ underWay hunder)⟩
        · obtain ⟨t, hperform, hwalk⟩ := Replaying.request
            (m := { m with sys := s'.followedBy [.replayEnd] }) replaying hpid hword.1
          rw [hperform] at hstep
          rw [show ({ m with sys := s'.followedBy [.replayEnd] } : Machine).memoryUsed = replayed from
            memory] at hwalk
          obtain ⟨hstill, hrest⟩ := @walk_stays w (Request.call m.ticks replayed r) failed
            fun e he => (call_agrees hword).2 (head e he)
          refine ⟨_, hstep, .stuck (k + 1) _ memory (by rw [calls]) (by rw [hafter]) hwalk hstill ?_
            bad (underWay_succ underWay hunder)⟩
          rw [hrest]
          exact head
    · refine ReplayStage.ofEnd sys hunder replaying ?_
      rw [Walk.accepts, failed]
      exact iff_of_false (fun h => Bool.noConfusion h.1) bad
  | leaving k w calls command replaying failed bad underWay =>
    obtain ⟨hover, hcount⟩ := replaying.at_end
    refine ⟨_, replay_end command, .ended ⟨command.1, rfl⟩ hover ?_ hcount⟩
    rw [replaying.ends, Walk.accepts, failed]
    exact iff_of_false (fun h => Bool.noConfusion h.1) bad
  | ended idle inactive verdict count =>
    refine ⟨m, ?_, .ended idle inactive verdict count⟩
    rw [Machine.step, Sys.step, if_pos idle.1, Sys.shellStep, idle.2]
    rfl

/-! ## A whole replay -/

theorem recordAll_replay : ∀ (cs : List RecordCall) {t : Trace}, t.replay.active = false →
    (recordAll cs t).replay = t.replay := by
  intro cs
  induction cs with
  | nil => exact fun _ => rfl
  | cons c cs ih =>
    intro t h
    have hcall : (c.run t).replay = t.replay := (c.run_kept t).replay h
    exact (ih (by rw [hcall]; exact h)).trans hcall

/-- A replay lets no interrupt in, and one that is over stays so. -/
theorem ReplayStage.interrupt {j : Nat} (h : ReplayStage s₀ es start replayed j m)
    (i : Interrupt) : ReplayStage s₀ es start replayed j (m.interrupt i) := by
  have hkept : ∀ {w : Walk TraceEvent}, Replaying es start w m.trace →
      ReplayStage s₀ es start replayed j (m.interrupt i) := by
    intro w replaying
    rw [Machine.interrupt_replaying replaying.active]
    exact h
  cases id h with
  | begun memory calls sched active command replaying => exact hkept replaying
  | locked k w memory calls sys replaying => exact hkept replaying
  | stuck k w memory calls sys replaying => exact hkept replaying
  | leaving k w calls command replaying => exact hkept replaying
  | ended idle inactive verdict count =>
    rw [Machine.interrupt_eq inactive]
    have hreplay := recordAll_replay (interruptCalls m.ticks m.sys.sched.currentPid i) inactive
    refine .ended idle ?_ ?_ ?_
    · rw [hreplay]
      exact inactive
    · rw [hreplay]
      exact verdict
    · rw [hreplay]
      exact count

theorem ReplayStage.run {profile : UInt32} (hlog : LogOf recorded s₀ es)
    (hcommand : s₀.shell = runProfile profile)
    (hwork : Working (SameWord recorded replayed) s₀) : ∀ (turns : List Turn) {j : Nat}
    {m : Machine}, ReplayStage s₀ es start replayed j m → ∃ m', m.run turns = .ok m' ∧
      ReplayStage s₀ es start replayed (j + turns.count .step) m' := by
  intro turns
  induction turns with
  | nil => exact fun h => ⟨_, rfl, h⟩
  | cons turn turns ih =>
    intro j m h
    cases turn with
    | step =>
      obtain ⟨m', hstep, h'⟩ := h.step hlog hcommand hwork
      obtain ⟨m'', hrun, h''⟩ := ih h'
      refine ⟨m'', ?_, ?_⟩
      · simp only [Machine.run, Machine.turn, hstep]
        exact hrun
      · rw [List.count_cons_self, Nat.add_comm (List.count _ _), ← Nat.add_assoc]
        exact h''
    | interrupt i =>
      obtain ⟨m', hrun, h'⟩ := ih (h.interrupt i)
      refine ⟨m', hrun, ?_⟩
      rw [List.count_cons_of_ne (by simp)]
      exact h'

theorem yields_followedBy {s : Sys} {failed : Bool}
    (h : (s.followedBy [.replayEnd]).yields failed = true) : s.yields failed = true := by
  unfold Sys.yields at h ⊢
  by_cases hcur : s.sched.current = 0
  · rw [if_pos (show (s.followedBy [.replayEnd]).sched.current = 0 from hcur)] at h
    rw [if_pos hcur]
    cases hshell : s.shell with
    | nil =>
      rw [Sys.followedBy, hshell] at h
      cases h
    | cons op rest =>
      rw [Sys.followedBy, hshell] at h
      exact h
  · rw [if_neg (show ¬ (s.followedBy [.replayEnd]).sched.current = 0 from hcur)] at h
    rw [if_neg hcur]
    exact h

theorem ReplayStage.safe {j : Nat} (hlog : LogOf recorded s₀ es)
    (hwork : Working (SameWord recorded replayed) s₀)
    (h : ReplayStage s₀ es start replayed j m) : SafeDispatch m := by
  intro hyields next _ hexpected
  have hhead : ∀ {op : ShellOp} {rest : List ShellOp}, m.sys.sched.current = 0 →
      m.sys.shell = op :: rest → op ≠ .untilIdle → False := by
    intro op rest hcur hshell hne
    unfold Sys.yields at hyields
    rw [if_pos hcur, hshell, List.head?_cons] at hyields
    simp [hne] at hyields
  cases h with
  | begun memory calls sched active command replaying =>
    exact (hhead sched.1 command (by simp)).elim
  | locked k w memory calls sys replaying agreed rest length tasks underWay =>
    have hfailed : m.failed = false := by
      rw [Machine.failed, replaying.failed, agreed, Bool.and_false]
    rw [sys, hfailed] at hyields
    have hconsistent := (hwork.after (fun _ => ⟨rfl, rfl⟩) k).consistent
    rw [sys]
    exact (locked_yield hlog hconsistent replaying rest tasks).2 (yields_followedBy hyields) next
      hexpected
  | stuck k w memory calls sys replaying failed head bad underWay =>
    rw [replaying.expected_none head] at hexpected
    cases hexpected
  | leaving k w calls command replaying failed bad underWay =>
    exact (hhead command.1 command.2 (by simp)).elim
  | ended idle inactive verdict count =>
    rw [Proof.expected_none inactive] at hexpected
    cases hexpected

end

/-! ## The count of workloads

`active_workloads` is no part of the task table, and the two runs may start with different counts in
it. Only the shell's loop reads it. What it decides is whether one more yield is made with nobody
ready, and that is not recorded.
-/

section
variable {profile : UInt32} {s s' : Sys}

/-- Nothing is recorded from here on. -/
def Silent (s : Sys) : Prop := schedule.next s = s ∧ schedule.emit s = none

/-- Two runs that differ in `active_workloads` at most, or that have both come to rest. -/
inductive Alike (profile : UInt32) (s s' : Sys) : Prop
  | same (active : UInt32) (eq : s' = { s with activeWorkloads := active })
      (suffix : s.shell <:+ runProfile profile)
  | silent (left : Silent s) (right : Silent s')

theorem silent_of_step (h : s.step none false = .ok (s, .none)) : Silent s := schedule_of_step h

theorem yield_active (active : UInt32) :
    ({ s with activeWorkloads := active } : Sys).yield none =
      (s.yield none).map fun r => ({ r.1 with activeWorkloads := active }, r.2) := by
  unfold Sys.yield
  cases hfound : s.sched.findNextReady with
  | none => rfl
  | some next =>
    simp only [Sys.switchTo]
    split
    · rfl
    · split
      · split <;> rfl
      · rfl

/-- Only the loop reads the count. -/
theorem step_active (h : ¬ (s.sched.current = 0 ∧ s.shell.head? = some .untilIdle))
    (active : UInt32) : ∃ active', ({ s with activeWorkloads := active } : Sys).step none false =
      (s.step none false).map fun r => ({ r.1 with activeWorkloads := active' }, r.2) := by
  unfold Sys.step
  by_cases hcur : s.sched.current = 0
  · simp only [if_pos hcur, Sys.shellStep]
    cases hshell : s.shell with
    | nil => exact ⟨active, by simp only [Except.map, hshell]⟩
    | cons op rest =>
      cases op with
      | untilIdle => exact absurd ⟨hcur, by rw [hshell]; rfl⟩ h
      | spawn w => exact ⟨active + 1, rfl⟩
      | _ => exact ⟨active, rfl⟩
  · simp only [if_neg hcur]
    cases s.sched.tasks s.sched.current with
    | none => exact ⟨active, rfl⟩
    | some t =>
      simp only [Sys.taskStep]
      cases t.code with
      | nil => exact ⟨active, @yield_active { s with sched := s.sched.retire [.halt] } active⟩
      | cons op rest =>
        cases op with
        | yield => exact ⟨active, @yield_active (s.setCode rest) active⟩
        | finished => exact ⟨active - 1, rfl⟩
        | _ => exact ⟨active, rfl⟩

/-- At the loop with nobody ready the run has come to rest, one way or the other. -/
theorem loop_silent (hcur : s.sched.current = 0) (hshell : s.shell = [.untilIdle])
    (hready : s.sched.hasReady = false) :
    schedule.emit s = none ∧ Silent (schedule.next s) := by
  have hfound : s.sched.findNextReady = none := by
    rw [Sched.hasReady] at hready
    exact Option.not_isSome_iff_eq_none.mp (by rw [hready]; exact Bool.false_ne_true)
  cases hbusy : s.busy with
  | true =>
    have hstep : s.step none false = .ok (s, .none) := by
      simp only [Sys.step, if_pos hcur, Sys.shellStep, hshell, hbusy, Bool.not_false, Bool.and_true,
        if_true, Sys.yield, hfound]
    obtain ⟨hnext, hemit⟩ := schedule_of_step hstep
    rw [hnext]
    exact ⟨hemit, hnext, hemit⟩
  | false =>
    have hstep : s.step none false = .ok (s.setShell [], .none) := by
      simp only [Sys.step, if_pos hcur, Sys.shellStep, hshell, hbusy, Bool.false_and,
        Bool.false_eq_true, if_false]
    obtain ⟨hnext, hemit⟩ := schedule_of_step hstep
    rw [hnext]
    refine ⟨hemit, silent_of_step ?_⟩
    rw [Sys.step, if_pos (show (s.setShell []).sched.current = 0 from hcur)]
    rfl

theorem Alike.next (h : Alike profile s s') :
    schedule.emit s' = schedule.emit s ∧ Alike profile (schedule.next s) (schedule.next s') := by
  cases h with
  | silent left right =>
    rw [left.1, left.2, right.1, right.2]
    exact ⟨rfl, .silent left right⟩
  | same active eq suffix =>
    subst eq
    obtain ⟨s₁, e, hs⟩ := s.step_none false
    obtain ⟨hnext, hemit⟩ := schedule_of_step hs
    have hsuffix : s₁.shell <:+ runProfile profile := by
      rcases Sys.step_shell hs with ⟨op, hop, -⟩ | ⟨hkept, -⟩
      · exact (hop ▸ List.suffix_cons op s₁.shell).trans suffix
      · exact hkept ▸ suffix
    -- two steps with the same effect leave the shells alike
    have hsame : ∀ {active' : UInt32}, ({ s with activeWorkloads := active } : Sys).step none false =
        .ok ({ s₁ with activeWorkloads := active' }, e) →
        schedule.emit { s with activeWorkloads := active } = schedule.emit s ∧
          Alike profile (schedule.next s) (schedule.next { s with activeWorkloads := active }) := by
      intro active' hs'
      obtain ⟨hnext', hemit'⟩ := schedule_of_step hs'
      rw [hnext, hnext', hemit, hemit']
      exact ⟨rfl, .same active' rfl hsuffix⟩
    -- only the loop that waits for the workloads looks at their number
    by_cases hloop : s.sched.current = 0 ∧ s.shell.head? = some .untilIdle
    · obtain ⟨rest, hshell⟩ := List.head?_eq_some_iff.mp hloop.2
      have hlast : rest = [] := loop_last (hshell ▸ suffix)
      rw [hlast] at hshell
      cases hready : s.sched.hasReady with
      | false =>
        obtain ⟨hquiet, hsilent⟩ := loop_silent hloop.1 hshell hready
        obtain ⟨hquiet', hsilent'⟩ :=
          @loop_silent { s with activeWorkloads := active } hloop.1 hshell hready
        exact ⟨hquiet'.trans hquiet.symm, .silent hsilent hsilent'⟩
      | true =>
        have hyield : ∀ active', ({ s with activeWorkloads := active' } : Sys).step none false =
            ({ s with activeWorkloads := active' } : Sys).yield none := by
          intro active'
          simp only [Sys.step, if_pos hloop.1, Sys.shellStep, hshell, Sys.busy, hready, Bool.or_true,
            Bool.not_false, Bool.and_self, if_true]
        refine @hsame active ?_
        rw [hyield active, yield_active, ← hyield s.activeWorkloads, hs]
        rfl
    · obtain ⟨active', hs'⟩ := step_active hloop active
      exact hsame (hs'.trans (by rw [hs]; rfl))

/-- **The count makes no difference** to what is recorded. -/
theorem Alike.emitted (h : Alike profile s s') (n : Nat) :
    schedule.emitted s' n = schedule.emitted s n := by
  have hrun : ∀ n, Alike profile (schedule.after s n) (schedule.after s' n) := by
    intro n
    induction n with
    | zero => exact h
    | succ n ih =>
      rw [schedule.after_succ, schedule.after_succ]
      exact ih.next.2
  induction n with
  | zero => rfl
  | succ n ih => rw [schedule.emitted_succ, schedule.emitted_succ, ih, (hrun n).next.1]

end

/-! ## From the prompt

Here the two runs are put together. The recording gives the log, and the log is of the process the
replay starts with, since that depends on what `sched_prepare_replay` leaves of the table and on
nothing else.
-/

section
variable {profile : UInt32} {recorded : UInt64} {m₁ m₂ m : Machine}

/-- The replay starts from the table the recording started from, but for the zombies and the
    pids to come, and the tasks record the same words in both. -/
structure Repeats (profile : UInt32) (m₁ m₂ : Machine) : Prop where
  table : m₂.sys.sched.prepareReplay = m₁.sys.sched.prepareReplay
  tasks : m₁.sys.sched.prepareReplay.EachCode (Records (SameWord m₁.memoryUsed m₂.memoryUsed))
  workloads : ∀ w ∈ workloadRunProfile profile,
    Records (SameWord m₁.memoryUsed m₂.memoryUsed) w.code

theorem Repeats.working (h : Repeats profile m₁ m₂) (h₁ : Prompt m₁) (active : UInt32) :
    Working (SameWord m₁.memoryUsed m₂.memoryUsed)
      { profileRun profile m₁ with activeWorkloads := active } where
  consistent := h₁.consistent.prepareReplay
  codes := h.tasks
  shell := by
    intro op hop
    rw [profileRun, runProfile, List.mem_append, List.mem_map, List.mem_singleton] at hop
    rcases hop with ⟨w, hw, rfl⟩ | rfl
    · exact Or.inr ⟨w, rfl, h.workloads w hw⟩
    · exact Or.inl rfl
  done := by
    intro hnil
    exact absurd hnil (List.append_ne_nil_of_right_ne_nil _ (List.cons_ne_nil _ _))

theorem Repeats.profileRun_eq (h : Repeats profile m₁ m₂) : profileRun profile m₂ =
    { profileRun profile m₁ with activeWorkloads := m₂.sys.activeWorkloads } := by
  rw [profileRun, h.table]
  rfl

/-- The log of a session that `demo record` comes to store is a log of the replay's run. -/
theorem Repeats.logOf (h : Repeats profile m₁ m₂) (h₁ : Prompt m₁) {turns : List Turn}
    (hrun : (m₁.type (demoRecord profile)).run turns = .ok m) (hstop : m.sys.shell = [.traceStop]) :
    LogOf m₁.memoryUsed (profileRun profile m₂) m.trace.events ∧
      m.trace.currentProfile = profile := by
  obtain ⟨k, -, hprofile, -, hlogging⟩ := session_of_run (fun _ => ⟨rfl, rfl⟩)
    (fun _ _ hword => hword.1) h₁ (h.working h₁ m₁.sys.activeWorkloads) hrun hstop
  have halike : Alike profile (profileRun profile m₁) (profileRun profile m₂) :=
    .same m₂.sys.activeWorkloads h.profileRun_eq List.suffix_rfl
  exact ⟨hlogging.logOf (halike.emitted k).symm, hprofile⟩

/-- The command is typed, and `trace_replay_begin` is still to be called. -/
structure Waiting (m₂ : Machine) (id : UInt32) (m : Machine) : Prop where
  background : Background m₂ m
  sys : m.sys = (m₂.type (demoReplay id)).sys

/-- There was no session to replay. -/
structure Refused (m : Machine) : Prop where
  noReplay : m.trace.replay.active = false
  idle : m.sys.sched.current = 0 ∧ m.sys.shell = []

/-- `trace_replay_begin`, and what the command makes of it. -/
theorem Waiting.step {id : UInt32} (h : Waiting m₂ id m) (h₂ : Prompt m₂) :
    m.step = { m with sys := m₂.sys.setShell [] }.begin id := by
  rw [Machine.step, expected_none h.background.noReplay, h.sys, Sys.step,
    if_pos (show (m₂.type (demoReplay id)).sys.sched.current = 0 from h₂.shell)]
  rfl

theorem Waiting.begins {id : UInt32} (h : Waiting m₂ id m) (h₂ : Prompt m₂)
    {session : TraceSessionInfo} {t : Trace} {fs : Fs}
    (hbegin : traceReplayBegin id m.trace m.fs = .ok (some session, t, fs)) :
    m.step = .ok { m with
      sys := m₂.sys.setShell (demoReplayBegun session.profileId), trace := t, fs } := by
  rw [h.step h₂, Machine.begin, hbegin]
  rfl

theorem begin_none {id : UInt32} {t t' : Trace} {fs fs' : Fs}
    (h : traceReplayBegin id t fs = .ok (none, t', fs')) : t'.replay = t.replay := by
  obtain ⟨bytes, buf, -, ⟨-, -, rfl⟩ | ⟨size, info, -, hsome, -⟩⟩ := traceReplayBegin_cases h
  · rfl
  · cases hsome

/-- A replay that begins is under way. -/
theorem Waiting.begun {id : UInt32} {i : Fin fsMaxInodes} {es : List TraceEvent}
    {info : TraceSessionInfo} (h : Waiting m₂ id m) (h₂ : Prompt m₂)
    (hfinds : Finds m₂.fs i id (encodeEvents es) (some info)) (hroom : es.length ≤ traceBufferCap)
    (hprofile : info.profileId = profile) (hknown : profile ≠ workloadProfileNone)
    {session : TraceSessionInfo} {t : Trace} {fs : Fs}
    (hbegin : traceReplayBegin id m.trace m.fs = .ok (some session, t, fs)) :
    ∃ m', m.step = .ok m' ∧
      ReplayStage (profileRun profile m₂) es info.startTicks m₂.memoryUsed 1 m' := by
  have hbegin' := hbegin
  rw [h.background.store] at hbegin'
  obtain ⟨hsession, -, hreplaying⟩ := hfinds.replaying hroom hbegin'
  have hstep := h.begins h₂ hbegin
  rw [hsession, show (storedInfo id (encodeEvents es) (some info)).profileId = profile from hprofile]
    at hstep
  rw [hsession] at hreplaying
  refine ⟨_, hstep, .begun h.background.memory rfl ⟨h₂.shell, rfl⟩ rfl ?_ hreplaying⟩
  rw [Sys.setShell, demoReplayBegun, if_neg hknown]
  rfl

theorem Waiting.interrupt {id : UInt32} (h : Waiting m₂ id m) (i : Interrupt) :
    Waiting m₂ id (m.interrupt i) := by
  obtain ⟨hbackground, hsys, -⟩ := h.background.interrupt i
  exact ⟨hbackground, hsys.trans h.sys⟩

theorem Refused.turn (h : Refused m) (turn : Turn) :
    ∃ m', m.turn turn = .ok m' ∧ Refused m' := by
  cases turn with
  | step =>
    refine ⟨m, ?_, h⟩
    rw [Machine.turn, Machine.step, Sys.step, if_pos h.idle.1, Sys.shellStep, h.idle.2]
    rfl
  | interrupt i =>
    refine ⟨_, rfl, ?_⟩
    rw [Machine.interrupt_eq h.noReplay]
    exact ⟨(recordAll_kept _ _).2.2.trans h.noReplay, h.idle⟩

theorem Refused.run : ∀ (turns : List Turn) {m : Machine}, Refused m →
    ∃ m', m.run turns = .ok m' ∧ Refused m' := by
  intro turns
  induction turns with
  | nil => exact fun h => ⟨_, rfl, h⟩
  | cons turn turns ih =>
    intro m h
    obtain ⟨m', hturn, h'⟩ := h.turn turn
    obtain ⟨m'', hrun, h''⟩ := ih h'
    refine ⟨m'', ?_, h''⟩
    rw [Machine.run, hturn]
    exact hrun

/-- **Every state of a replay**: it waits to begin, the session could not be read, or it is on
    its way. -/
theorem replay_reaches {id : UInt32} {i : Fin fsMaxInodes} {es : List TraceEvent}
    {info : TraceSessionInfo} (h₂ : Prompt m₂)
    (hfinds : Finds m₂.fs i id (encodeEvents es) (some info)) (hprofile : info.profileId = profile)
    (hknown : profile ≠ workloadProfileNone)
    (hwork : Working (SameWord recorded m₂.memoryUsed) (profileRun profile m₂))
    (hlog : LogOf recorded (profileRun profile m₂) es) :
    ∀ (turns : List Turn) {m : Machine}, Waiting m₂ id m → ∃ m', m.run turns = .ok m' ∧
      (Waiting m₂ id m' ∧ turns.count .step = 0 ∨
        Refused m' ∧ (∃ t t' fs', traceReplayBegin id t m₂.fs = .ok (none, t', fs')) ∨
        ReplayStage (profileRun profile m₂) es info.startTicks m₂.memoryUsed
          (turns.count .step) m') := by
  intro turns
  induction turns with
  | nil => exact fun h => ⟨_, rfl, Or.inl ⟨h, rfl⟩⟩
  | cons turn turns ih =>
    intro m h
    cases turn with
    | interrupt i =>
      rw [List.count_cons_of_ne (by simp)]
      exact ih (h.interrupt i)
    | step =>
      simp only [Machine.run, Machine.turn]
      cases hbegin : traceReplayBegin id m.trace m.fs with
      | error o =>
        -- the session was recorded into a buffer of the same size
        have hfits : (encodeEvents es).length ≤ traceBufferCap * traceEventSize := by
          rw [length_encodeEvents, Nat.mul_comm]
          exact Nat.mul_le_mul_right _ hlog.room
        have hok := hfinds.begin_isOk hfits m.trace
        rw [← h.background.store, hbegin] at hok
        cases hok
      | ok r =>
        obtain ⟨session, t, fs⟩ := r
        cases session with
        | none =>
          have hstep : m.step = .ok { m with sys := m₂.sys.setShell [], trace := t, fs } := by
            rw [h.step h₂, Machine.begin, hbegin]
            rfl
          have hover : t.replay.active = false := by
            rw [begin_none hbegin]
            exact h.background.noReplay
          obtain ⟨m', hrun, h'⟩ := Refused.run turns
            (m := { m with sys := m₂.sys.setShell [], trace := t, fs }) ⟨hover, h₂.shell, rfl⟩
          rw [hstep]
          rw [h.background.store] at hbegin
          exact ⟨m', hrun, Or.inr (Or.inl ⟨h', _, _, _, hbegin⟩)⟩
        | some session =>
          obtain ⟨m', hstep, hstage⟩ := h.begun h₂ hfinds hlog.room hprofile hknown hbegin
          obtain ⟨m'', hrun, hstage'⟩ := hstage.run hlog rfl hwork turns
          rw [hstep, List.count_cons_self, Nat.add_comm]
          exact ⟨m'', hrun, Or.inr (Or.inr hstage')⟩

/-- **Safe dispatch.** A replay that starts as the recording started and records the same words
    sends `sched_yield` to ready slots only, whatever was recorded beside the tasks' events and
    wherever the replay diverges.

    `hknown` is for a profile there is; another one records nothing. `h₁` and `h₂` are the two
    prompts: the shell runs, and no replay is under way. `hrecorded` and `hstop` say that the
    recording has come to its `trace_stop`, with whatever interrupts on the way, and `hfinds` that
    the store finds the session under its id. `hrepeats` is the condition proper: the tables are the
    same but for the dead, and no task records a word under the scheduler's type that is not the
    same in both runs. `turns₂` is any course of the replay, and there is no bound on it. -/
theorem forced_dispatch_safe {turns₁ : List Turn} {id : UInt32} {i : Fin fsMaxInodes}
    (hknown : profile ≠ workloadProfileNone) (h₁ : Prompt m₁)
    (hrecorded : (m₁.type (demoRecord profile)).run turns₁ = .ok m)
    (hstop : m.sys.shell = [.traceStop]) (h₂ : Prompt m₂)
    (hfinds : Finds m₂.fs i id (encodeEvents m.trace.events)
      (some (traceStopInfo m.ticks m.trace)))
    (hrepeats : Repeats profile m₁ m₂) (turns₂ : List Turn) :
    ∃ m', (m₂.type (demoReplay id)).run turns₂ = .ok m' ∧ SafeDispatch m' := by
  obtain ⟨hlog, hprofile⟩ := hrepeats.logOf h₁ hrecorded hstop
  have hwaiting : Waiting m₂ id (m₂.type (demoReplay id)) := ⟨⟨h₂.noReplay, rfl, rfl⟩, rfl⟩
  have hwork : Working (SameWord m₁.memoryUsed m₂.memoryUsed) (profileRun profile m₂) :=
    hrepeats.profileRun_eq ▸ hrepeats.working h₁ m₂.sys.activeWorkloads
  obtain ⟨m', hrun, hstage⟩ :=
    replay_reaches h₂ hfinds hprofile hknown hwork hlog turns₂ hwaiting
  refine ⟨m', hrun, ?_⟩
  have hnothing : m'.trace.replay.active = false → SafeDispatch m' := by
    intro hnone _ next _ hexpected
    rw [expected_none hnone] at hexpected
    cases hexpected
  rcases hstage with ⟨hwaits, -⟩ | ⟨hrefused, -⟩ | hstage
  · exact hnothing hwaits.background.noReplay
  · exact hnothing hrefused.noReplay
  · exact hstage.safe hlog hwork

end

/-! ## A session of `sysload`, replayed with other memory in use -/

/-- The shell's prompt after the boot. -/
def promptAt (memoryUsed : UInt64) (fs : Fs) : Machine :=
  ⟨⟨schedInit [], 0, []⟩, memoryUsed, 0, Trace.loaded, fs⟩

theorem promptAt_fs (memoryUsed : UInt64) (fs : Fs) : (promptAt memoryUsed fs).fs = fs := rfl

theorem prompt_promptAt (memoryUsed : UInt64) (fs : Fs) : Prompt (promptAt memoryUsed fs) :=
  ⟨rfl, Sched.Consistent.init [], rfl⟩

theorem prepared_init : (schedInit []).prepareReplay = schedInit ([] : List TaskOp) := by
  have htasks : (schedInit []).prepareReplay.tasks = (schedInit ([] : List TaskOp)).tasks := by
    funext i
    simp only [Sched.prepareReplay]
    split
    · rename_i hi
      exact (if_neg hi.1).symm
    · rfl
  rw [show (schedInit []).prepareReplay = { schedInit ([] : List TaskOp) with
    tasks := (schedInit []).prepareReplay.tasks } from rfl, htasks]

theorem eachCode_init (P : TraceEventType → Datum → Prop) :
    (schedInit []).prepareReplay.EachCode (Records P) := by
  rw [prepared_init]
  intro i t ht
  simp only [schedInit] at ht
  split at ht
  · cases ht
    exact fun _ _ _ hin => absurd hin List.not_mem_nil
  · cases ht

theorem records_workload (w : Workload) :
    Records (fun type _ => ofHandler type.code = false) w.code := by
  intro type data0 data1 hin
  cases w with
  | attack =>
    simp only [Workload.code, attackTask, List.mem_append, List.mem_flatMap, List.mem_cons,
      TaskOp.record.injEq, List.not_mem_nil, or_false, reduceCtorEq] at hin
    obtain ⟨-, -, rfl, -⟩ := hin
    rfl
  | sysload slot =>
    simp only [Workload.code, sysloadTask, List.mem_append, List.mem_flatMap, List.mem_cons,
      TaskOp.record.injEq, List.not_mem_nil, or_false, reduceCtorEq] at hin
    obtain ⟨-, -, rfl, -⟩ := hin
    rfl
  | lifecycle slot =>
    simp only [Workload.code, lifecycleChild, List.mem_append, List.mem_flatMap, List.mem_cons,
      TaskOp.record.injEq, List.not_mem_nil, or_false, reduceCtorEq] at hin
    obtain ⟨-, -, rfl, -⟩ := hin
    rfl

/-- `attack` records no memory, so it repeats with any amount in use. -/
theorem repeats_attack (recorded replayed : UInt64) (fs fs' : Fs) :
    Repeats workloadProfileAttack (promptAt recorded fs) (promptAt replayed fs') := by
  refine ⟨rfl, eachCode_init _, fun w hw => ?_⟩
  rw [show workloadRunProfile workloadProfileAttack = [.attack] from rfl, List.mem_singleton] at hw
  subst hw
  intro type data0 data1 hin
  simp only [Workload.code, attackTask, List.mem_append, List.mem_flatMap, List.mem_cons,
    TaskOp.record.injEq, List.not_mem_nil, or_false, reduceCtorEq] at hin
  obtain ⟨-, -, rfl, -, rfl⟩ := hin
  exact ⟨rfl, rfl⟩

/-- A recording from the prompt is stored as session 2 of the used store. -/
theorem stored_promptAt {profile : UInt32} {memoryUsed : UInt64} {turns : List Turn} {m : Machine}
    (hrun : ((promptAt memoryUsed usedStore).type (demoRecord profile)).run turns = .ok m)
    (hstop : m.sys.shell = [.traceStop]) (hlength : m.trace.events.length ≤ 228) :
    Mounted (traceStop m.ticks m.trace m.fs).2.1 ∧ m.trace.currentProfile = profile ∧
      (fsWriteTraceSession (encodeEvents m.trace.events) (some (traceStopInfo m.ticks m.trace))
        m.fs).1 = some 2 ∧
      ∃ i, Holds (traceStop m.ticks m.trace m.fs).2.1 i 2 (encodeEvents m.trace.events)
        (some (traceStopInfo m.ticks m.trace)) := by
  have hwork : Working (fun type _ => ofHandler type.code = false)
      (profileRun profile (promptAt memoryUsed usedStore)) := by
    refine ⟨(Sched.Consistent.init []).prepareReplay, eachCode_init _, fun op hop => ?_,
      fun hnil => absurd hnil (List.append_ne_nil_of_right_ne_nil _ (List.cons_ne_nil _ _))⟩
    rw [profileRun, runProfile, List.mem_append, List.mem_map, List.mem_singleton] at hop
    rcases hop with ⟨w, -, rfl⟩ | rfl
    · exact Or.inr ⟨w, rfl, records_workload w⟩
    · exact Or.inl rfl
  obtain ⟨-, hbackground, hprofile, -⟩ := session_of_run (fun _ => rfl) (fun _ _ h => h)
    (prompt_promptAt _ _) hwork hrun hstop
  have hfs := hbackground.store
  rw [promptAt_fs] at hfs
  have hmounted : Mounted usedStore :=
    (Mounted.run _ (Mounted.boot rfl (Or.inl blankDrive_not_formatted))).1
  have hbytes : (encodeEvents m.trace.events).length ≤ 9120 := by
    rw [length_encodeEvents]
    exact Nat.mul_le_mul_left traceEventSize hlength
  have hid := hmounted.stores (encodeEvents m.trace.events) ⟨⟨10, by decide⟩, by decide +kernel⟩
    (by
      rw [sectorsOf_toNat (by omega)]
      have hmark : usedStore.superblock.nextFreeLba.toNat ≤ 6000 := by decide +kernel
      omega) (some (traceStopInfo m.ticks m.trace))
  obtain ⟨hwrite, -, hheld⟩ :=
    hmounted.write (encodeEvents m.trace.events) (some (traceStopInfo m.ticks m.trace))
  obtain ⟨-, i, -, hholds⟩ := hheld _ hid
  rw [show usedStore.superblock.nextSessionId = 2 by decide +kernel] at hid hholds
  rw [(traceStop_spec m.ticks m.trace m.fs).1, hfs]
  exact ⟨hwrite, hprofile, hid, i, hholds⟩

theorem run_step {m m' : Machine} (h : m.step = .ok m') (turns : List Turn) :
    m.run (.step :: turns) = m'.run turns := by
  rw [Machine.run, Machine.turn, h]

/-- The shell's loop in a replay of `sysload`. -/
def sysloadLoop : Sys :=
  schedule.after ⟨schedInit [], 0, demoReplayBegun workloadProfileSysload⟩ 4

/-- The first worker runs. -/
def sysloadWorker : Sys := { sysloadLoop with sched := sysloadLoop.sched.switchTo 1 }

/-- **The replay that is misled**: the first worker finds another amount of memory in use than
    the log has, and its yield is sent to the amount that was recorded. -/
theorem sysload_misled {es rest : List TraceEvent} {e₀ e₁ : TraceEvent} {start ticks : UInt64}
    {t : Trace} {fs : Fs} (h : Replaying es start (Walk.start es) t) (hes : es = e₀ :: e₁ :: rest)
    (h₀ : RecordedAs 20480 ⟨2, .sched, 0, .word 1⟩ e₀)
    (h₁ : RecordedAs 20480 ⟨2, .sched, 0, .memoryUsed⟩ e₁) :
    (⟨⟨schedInit [], 0, demoReplayBegun workloadProfileSysload⟩, 24576, ticks, t, fs⟩ :
      Machine).run (List.replicate 7 .step) = .error (.task 20480) := by
  have hstart : (⟨⟨schedInit [], 0, demoReplayBegun workloadProfileSysload⟩, 24576, ticks, t, fs⟩ :
      Machine).run (List.replicate 7 .step) =
        (⟨sysloadLoop, 24576, ticks, t, fs⟩ : Machine).run (List.replicate 3 .step) := rfl
  -- the shell is sent to the worker, as it would go by itself
  have hexpected : traceReplayExpectedNextTask t = some 1 := by
    rw [h.expected, Walk.start, hes, List.head?_cons, Option.bind_some, if_pos h₀.type, h₀.data1]
    rfl
  have hfailed : t.replay.failed = false := h.failed
  obtain ⟨t₁, hperform, hwalk⟩ := Replaying.request (r := ⟨2, .sched, 0, .word 1⟩)
    (m := ⟨sysloadWorker, 24576, ticks, t, fs⟩) h rfl rfl
  have hswitch : (⟨sysloadLoop, 24576, ticks, t, fs⟩ : Machine).step =
      .ok ⟨sysloadWorker, 24576, ticks, t₁, fs⟩ := by
    rw [Machine.step, hexpected, Machine.failed, hfailed, Bool.and_false]
    exact hperform
  have hw : (Walk.start es).step RecordCall.agrees
      (Request.call ticks 24576 ⟨2, .sched, 0, .word 1⟩) = ⟨e₁ :: rest, false, some e₀⟩ := by
    have hagrees := (@call_agrees 20480 24576 ticks ⟨2, .sched, 0, .word 1⟩ e₀ ⟨rfl, rfl⟩).1 h₀
    simp only [Walk.step, Walk.start, hes, hagrees, if_true]
  rw [hw] at hwalk
  -- the worker's own call disagrees
  obtain ⟨t₂, hperform₂, hwalk₂⟩ := Replaying.request (r := ⟨2, .sched, 0, .memoryUsed⟩)
    (m := ⟨sysloadWorker.setCode ((sysloadTask 0).drop 1), 24576, ticks, t₁, fs⟩) hwalk rfl rfl
  have hrecord : (⟨sysloadWorker, 24576, ticks, t₁, fs⟩ : Machine).step =
      .ok ⟨sysloadWorker.setCode ((sysloadTask 0).drop 1), 24576, ticks, t₂, fs⟩ := by
    exact hperform₂
  have hw₂ : (⟨e₁ :: rest, false, some e₀⟩ : Walk TraceEvent).step RecordCall.agrees
      (Request.call ticks 24576 ⟨2, .sched, 0, .memoryUsed⟩) = ⟨e₁ :: rest, true, some e₁⟩ := by
    have hdisagrees : (Request.call ticks 24576 ⟨2, .sched, 0, .memoryUsed⟩).agrees e₁ = false := by
      simp only [RecordCall.agrees, h₁.data1]
      exact Bool.and_false _
    simp only [Walk.step, hdisagrees, Bool.false_eq_true, if_false]
  rw [hw₂] at hwalk₂
  -- and its yield takes the amount for a slot
  have hexpected₂ : traceReplayExpectedNextTask t₂ = some 20480 := by
    rw [hwalk₂.expected, List.head?_cons, Option.bind_some, if_pos h₁.type, h₁.data1]
    rfl
  have hyield : (⟨sysloadWorker.setCode ((sysloadTask 0).drop 1), 24576, ticks, t₂, fs⟩ :
      Machine).step = .error (.task 20480) := by
    rw [Machine.step, hexpected₂]
    rfl
  rw [hstart, List.replicate_succ, run_step hswitch, List.replicate_succ, run_step hrecord,
    List.replicate_succ, Machine.run, Machine.turn, hyield]

/-- The recorder when the shell comes to `trace_stop`. -/
def recordedAt (profile : UInt32) (turns : List Turn) (P : List TraceEvent → Bool) : Bool :=
  match ((promptAt 20480 usedStore).type (demoRecord profile)).run turns with
  | .ok m => m.sys.shell == [.traceStop] && P m.trace.events
  | .error _ => false

theorem recordedAt_run {profile : UInt32} {turns : List Turn} {P : List TraceEvent → Bool}
    (h : recordedAt profile turns P = true) :
    ∃ m, ((promptAt 20480 usedStore).type (demoRecord profile)).run turns = .ok m ∧
      m.sys.shell = [.traceStop] ∧ P m.trace.events = true := by
  unfold recordedAt at h
  split at h
  · rename_i m hrun
    rw [Bool.and_eq_true, beq_iff_eq] at h
    exact ⟨m, hrun, h.1, h.2⟩
  · cases h

/-- A session of `sysload` recorded with 20480 bytes in use sends a replay with 24576 in use to
    slot 20480. -/
theorem forced_dispatch_faults : ∃ m i,
    ((promptAt 20480 usedStore).type (demoRecord workloadProfileSysload)).run
        (List.replicate 242 .step) = .ok m ∧ m.sys.shell = [.traceStop] ∧
      Holds (traceStop m.ticks m.trace m.fs).2.1 i 2 (encodeEvents m.trace.events)
        (some (traceStopInfo m.ticks m.trace)) ∧
      ((promptAt 24576 (traceStop m.ticks m.trace m.fs).2.1).type (demoReplay 2)).run
        (List.replicate 8 .step) = .error (.task 20480) := by
  have hrecorded : recordedAt workloadProfileSysload (List.replicate 242 .step) (fun es =>
      es.length == 228 && es.take 2 == [⟨1, 0, 2, 3, 40, 0, 1⟩, ⟨2, 0, 2, 3, 40, 0, 20480⟩]) = true := by
    decide +kernel
  obtain ⟨m, hrun, hstop, hevents⟩ := recordedAt_run hrecorded
  rw [Bool.and_eq_true, beq_iff_eq, beq_iff_eq] at hevents
  obtain ⟨hlength, hfirst⟩ := hevents
  obtain ⟨hmounted, hprofile, -, i, hheld⟩ := stored_promptAt hrun hstop hlength.le
  have hes : m.trace.events = ⟨1, 0, 2, 3, 40, 0, 1⟩ :: ⟨2, 0, 2, 3, 40, 0, 20480⟩ ::
      m.trace.events.drop 2 := by
    conv_lhs => rw [← List.take_append_drop 2 m.trace.events, hfirst]
    rfl
  have hroom : m.trace.events.length ≤ traceBufferCap := by
    rw [hlength]
    decide
  refine ⟨m, i, hrun, hstop, hheld, ?_⟩
  generalize (traceStop m.ticks m.trace m.fs).2.1 = fs at hmounted hheld
  have hrecalls := hheld.recalls hmounted
  obtain ⟨t, hbegin⟩ := hrecalls.begins hroom Trace.loaded
  obtain ⟨-, -, hreplaying⟩ := hrecalls.replaying hroom hbegin
  have hwaiting : Waiting (promptAt 24576 fs) 2 ((promptAt 24576 fs).type (demoReplay 2)) :=
    ⟨⟨rfl, rfl, rfl⟩, rfl⟩
  have hstep := hwaiting.begins (prompt_promptAt _ _) hbegin
  rw [show (storedInfo 2 (encodeEvents m.trace.events)
    (some (traceStopInfo m.ticks m.trace))).profileId = workloadProfileSysload from hprofile] at hstep
  rw [List.replicate_succ, run_step hstep]
  exact sysload_misled hreplaying hes ⟨rfl, rfl, rfl, rfl⟩ ⟨rfl, rfl, rfl, rfl⟩

/-- `attack` records no memory, so its session is safe to replay with any; a key that was
    recorded too makes the replay diverge, and no more. -/
theorem forced_dispatch_safe_attack : ∃ m,
    ((promptAt 20480 usedStore).type (demoRecord workloadProfileAttack)).run
        (List.replicate 12 .step ++ .interrupt (.keyboard (some (97, 30))) ::
          List.replicate 48 .step) = .ok m ∧
      ∀ turns₂, ∃ m', ((promptAt 24576 (traceStop m.ticks m.trace m.fs).2.1).type
        (demoReplay 2)).run turns₂ = .ok m' ∧ SafeDispatch m' := by
  have hrecorded : recordedAt workloadProfileAttack (List.replicate 12 .step ++
      .interrupt (.keyboard (some (97, 30))) :: List.replicate 48 .step)
      (fun es => es.length == 51) = true := by
    decide +kernel
  obtain ⟨m, hrun, hstop, hlength⟩ := recordedAt_run hrecorded
  rw [beq_iff_eq] at hlength
  obtain ⟨hmounted, -, -, i, hheld⟩ := stored_promptAt hrun hstop (by omega)
  refine ⟨m, hrun, fun turns₂ => ?_⟩
  generalize (traceStop m.ticks m.trace m.fs).2.1 = fs at hmounted hheld ⊢
  exact forced_dispatch_safe (by decide) (prompt_promptAt _ _) hrun hstop (prompt_promptAt _ _)
    (hheld.recalls hmounted).toFinds (repeats_attack _ _ _ _) turns₂

end Proof
end BumbelBee
