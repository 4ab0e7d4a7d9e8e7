import BumbelBee.Proof.Interrupts
import BumbelBee.Proof.Transmit

/-!
# Who stored the events of a recorded session

The filter in `trace_record` keeps out of a profile's session what `isr_dispatch` itself
records, and nothing else: a key, a flushed packet, the flush's report get in, and before
`current_profile` is set so does everything. `session_from_tasks` is exact: the session is
the tasks' own if and only if no interrupt of one of these kinds came while it was open.

A session has no field for who stored an event, so the model of the run keeps a list beside it
(`origins`), and that the two lists go together is part of the result. What gets in does so by its
type: `trace_record` drops the interrupts' and the clock's events while a profile is set, and the
drivers' events have other types.
-/

namespace BumbelBee
namespace Proof

open Lib Kernel

/-! ## Which calls are stored -/

/-- The recorder takes what passes its filter. -/
def taking (t : Trace) : Bool :=
  t.recording && !t.replay.active && decide (t.currentEvents.toNat < traceBufferCap)

/-- What a call of `trace_record` does to the count, and what it leaves. -/
theorem RecordCall.run_count (c : RecordCall) (t : Trace) :
    (c.run t).currentEvents.toNat =
        t.currentEvents.toNat + (if taking t && !filtered t c then 1 else 0) ∧
      (c.run t).recording = t.recording ∧ (c.run t).currentProfile = t.currentProfile ∧
      (c.run t).replay.active = t.replay.active := by
  have hkept := c.run_kept t
  refine ⟨?_, hkept.recording, hkept.currentProfile, hkept.active⟩
  have hran := c.ran t
  generalize c.run t = t' at hran ⊢
  cases hran with
  | hidden hit =>
    rw [hit, Bool.not_true, Bool.and_false]
    rfl
  | compared _ active =>
    rw [taking, active, Bool.not_true, Bool.and_false]
    rfl
  | closed _ _ off =>
    rw [taking, off]
    rfl
  | full _ _ _ full =>
    rw [taking, decide_eq_false (Nat.not_lt.mpr full), Bool.and_false]
    rfl
  | stored pass idle on room =>
    rw [taking, on, idle, decide_eq_true room, pass]
    exact toNat_currentEvents_succ room

theorem recordAll_count_le (cs : List RecordCall) : ∀ t : Trace,
    t.currentEvents.toNat ≤ (recordAll cs t).currentEvents.toNat := by
  induction cs with
  | nil => exact fun t => le_refl _
  | cons c cs ih =>
    intro t
    refine le_trans ?_ (ih (c.run t))
    rw [(RecordCall.run_count c t).1]
    exact Nat.le_add_right _ _

/-- A recorder that takes nothing is left as full as it was. -/
theorem recordAll_closed (cs : List RecordCall) : ∀ {t : Trace}, taking t = false →
    (recordAll cs t).currentEvents.toNat = t.currentEvents.toNat := by
  induction cs with
  | nil => exact fun _ => rfl
  | cons c cs ih =>
    intro t h
    obtain ⟨hcount, hrecording, -, hactive⟩ := RecordCall.run_count c t
    rw [h, Bool.false_and, if_neg Bool.false_ne_true, Nat.add_zero] at hcount
    have hclosed : taking (c.run t) = false := by
      rw [taking, hrecording, hactive, hcount]
      exact h
    exact (ih hclosed).trans hcount

/-- **What an interrupt stores**: something, if the recorder takes it, and if the profile is not
    set yet or a handler records. -/
theorem recordAll_interrupt {t : Trace} (ticks : UInt64) (pid : UInt32) (i : Interrupt) :
    let stores := taking t &&
      (t.currentProfile == workloadProfileNone || !(handlerCalls ticks pid i).isEmpty)
    (stores = true → t.currentEvents.toNat <
        (recordAll (interruptCalls ticks pid i) t).currentEvents.toNat) ∧
      (stores = false → (recordAll (interruptCalls ticks pid i) t).currentEvents.toNat =
        t.currentEvents.toNat) := by
  intro stores
  let irq : RecordCall := ⟨ticks, pid, TraceEventType.irq.code, 0, i.vector, 0⟩
  have hrun : recordAll (interruptCalls ticks pid i) t =
      recordAll (handlerCalls ticks pid i) (irq.run t) := rfl
  by_cases htaking : taking t = true
  · obtain ⟨hcount, hrecording, hprofile, hactive⟩ := RecordCall.run_count irq t
    have hfilter : filtered t irq = (t.currentProfile != workloadProfileNone) := by
      rw [taking, Bool.and_assoc, Bool.and_eq_true] at htaking
      rw [filtered, htaking.1, Bool.true_and, show (irq.type == TraceEventType.irq.code) = true from
        beq_self_eq_true _, Bool.and_true]
    by_cases hnone : t.currentProfile = workloadProfileNone
    · -- the profile is not set: `isr_dispatch`'s own call gets in
      have hown : (irq.run t).currentEvents.toNat = t.currentEvents.toNat + 1 := by
        rw [hcount, hfilter, hnone, htaking]
        rfl
      have hmost := recordAll_count_le (handlerCalls ticks pid i) (irq.run t)
      refine ⟨fun _ => by rw [hrun]; omega, fun hstores => ?_⟩
      rw [show stores = true by simp [stores, htaking, hnone]] at hstores
      cases hstores
    · have hfiltered : filtered t irq = true := by
        rw [hfilter]
        exact bne_iff_ne.mpr hnone
      have hsame : (irq.run t).currentEvents.toNat = t.currentEvents.toNat := by
        rw [hcount, hfiltered, Bool.not_true, Bool.and_false]
        rfl
      cases hcalls : handlerCalls ticks pid i with
      | nil =>
        refine ⟨fun hstores => ?_, fun _ => by rw [hrun, hcalls]; exact hsame⟩
        rw [show stores = false by simp [stores, hnone, hcalls]] at hstores
        cases hstores
      | cons c cs =>
        have htype : c.type ≠ TraceEventType.irq.code := by
          rcases handlerCalls_type (c := c) (by rw [hcalls]; exact List.mem_cons_self) with h | h | h
          · rw [h]; decide
          · rw [h]; decide
          · rw [h]; decide
        have hstored : (c.run (irq.run t)).currentEvents.toNat = t.currentEvents.toNat + 1 := by
          have htaking' : taking (irq.run t) = true := by
            rw [taking, hrecording, hactive, hsame]
            exact htaking
          have hpasses : filtered (irq.run t) c = false := by
            rw [filtered, beq_false_of_ne htype, Bool.and_false]
          rw [(RecordCall.run_count c _).1, htaking', hpasses, hsame]
          rfl
        have hmost := recordAll_count_le cs (c.run (irq.run t))
        refine ⟨fun _ => ?_, fun hstores => ?_⟩
        · rw [hrun, hcalls, show recordAll (c :: cs) (irq.run t) = recordAll cs (c.run (irq.run t))
            from rfl]
          omega
        · rw [show stores = true by simp [stores, htaking, hcalls]] at hstores
          cases hstores
  · rw [Bool.not_eq_true] at htaking
    refine ⟨fun hstores => ?_, fun _ => recordAll_closed _ htaking⟩
    rw [show stores = false by simp [stores, htaking]] at hstores
    cases hstores

/-! ## Who stored what -/

/-- The session's buffer is the session's: what was in it before is gone. -/
def opened (b : Board) : Bool := !b.machine.sys.shell.contains (.start .currentEvents)

/-- The interrupt that comes in stores an event. -/
def irqStores (i : Irq) (b : Board) : Bool :=
  taking b.machine.trace &&
    (b.machine.trace.currentProfile == workloadProfileNone || irqTraced i b.devices)

theorem Board.irq_count (i : Irq) (b : Board) :
    (irqStores i b = true → b.machine.trace.currentEvents.toNat <
        (b.irq i).machine.trace.currentEvents.toNat) ∧
      (irqStores i b = false → (b.irq i).machine.trace.currentEvents.toNat =
        b.machine.trace.currentEvents.toNat) := by
  by_cases hreplay : b.machine.trace.replay.active = true
  · have hkept : (b.irq i).machine.trace = b.machine.trace :=
      congrArg Devices.trace (if_pos (c := b.devices.trace.replay.active = true) hreplay)
    have hstores : irqStores i b = false := by
      rw [irqStores, taking, hreplay, Bool.not_true, Bool.and_false, Bool.false_and, Bool.false_and]
    rw [hkept, hstores]
    exact ⟨fun h => Bool.noConfusion h, fun _ => rfl⟩
  · rw [Bool.not_eq_true] at hreplay
    obtain ⟨j, hj, htraced⟩ := Board.irq_machine hreplay i
    have hstores : irqStores i b = (taking b.machine.trace &&
        (b.machine.trace.currentProfile == workloadProfileNone ||
          !(handlerCalls b.machine.ticks b.machine.sys.sched.currentPid j).isEmpty)) := by
      have := htraced b.machine.ticks b.machine.sys.sched.currentPid
      rw [irqStores]
      cases hirq : irqTraced i b.devices with
      | true => cases hcalls : handlerCalls b.machine.ticks b.machine.sys.sched.currentPid j with
        | nil => rw [hirq] at this; exact absurd (this.mp hcalls) (by simp)
        | cons c cs => rfl
      | false => rw [this.mpr hirq]; rfl
    rw [hj, Machine.interrupt_eq hreplay, hstores]
    exact recordAll_interrupt b.machine.ticks b.machine.sys.sched.currentPid j

/-- The run's invariant: the shell is on its way through the command, and each event in the
    buffer has its origin. -/
structure Watching (profile : UInt32) (w : Watched) : Prop where
  shell : w.board.machine.sys.shell <:+ demoRecord profile
  length : w.origins.length = w.board.machine.trace.currentEvents.toNat

theorem Watching.start (profile : UInt32) (b : Board) :
    Watching profile (Watched.type (demoRecord profile) b) :=
  ⟨List.suffix_rfl, List.length_replicate⟩

theorem length_watch {o : Origin} {before after : Nat} {origins : List Origin}
    (h : origins.length = before) : (watch o before after origins).length = after := by
  rw [watch, List.length_append, List.length_take, List.length_replicate, h]
  omega

/-- The session's calls name no replay. -/
theorem demoRecord_effect {profile : UInt32} {op : ShellOp} (h : op ∈ demoRecord profile) :
    op.effect = .none ∨ (∃ stmt, op = .start stmt) ∨ op = .traceStop := by
  simp only [demoRecord, runProfile, List.mem_append, List.mem_cons, List.mem_map, List.not_mem_nil,
    or_false] at h
  rcases h with (rfl | ⟨stmt, -, rfl⟩) | (⟨w, -, rfl⟩ | rfl) | rfl
  · exact Or.inl rfl
  · exact Or.inr (Or.inl ⟨stmt, rfl⟩)
  · exact Or.inl rfl
  · exact Or.inl rfl
  · exact Or.inr (Or.inr rfl)

theorem Machine.record_count (type : TraceEventType) (pid : UInt32) (data0 data1 : UInt64)
    (m : Machine) :
    m.trace.currentEvents.toNat ≤ (m.record type pid data0 data1).trace.currentEvents.toNat := by
  have hcount := (RecordCall.run_count
    ⟨m.ticks, m.sys.sched.currentPid, type.code, pid, data0, data1⟩ m.trace).1
  rw [show (m.record type pid data0 data1).trace = RecordCall.run
    ⟨m.ticks, m.sys.sched.currentPid, type.code, pid, data0, data1⟩ m.trace from rfl, hcount]
  exact Nat.le_add_right _ _

/-- A start statement leaves the count alone, but for the one that empties the buffer. -/
theorem StartStmt.run_count {ticks : UInt64} {stmt : StartStmt} (h : stmt ≠ .currentEvents)
    (t : Trace) : (stmt.run ticks t).currentEvents = t.currentEvents := by
  cases stmt with
  | currentEvents => exact absurd rfl h
  | _ => rfl

/-- `trace_stop` leaves the shell and the count as they were. -/
theorem Machine.perform_traceStop {m m' : Machine} (h : m.perform .traceStop = .ok m') :
    m'.sys = m.sys ∧ m'.trace.currentEvents = m.trace.currentEvents := by
  have hstop := (traceStop_spec m.ticks m.trace m.fs).2.2.2.2.1
  simp only [Machine.perform] at h
  split at h
  · rename_i hrun
    cases h
    rw [hrun] at hstop
    exact ⟨rfl, hstop⟩
  · cases h

/-- **The machine's own step.** The buffer is emptied once, on the way to the session, and from
    there on its count does not shrink. -/
theorem Machine.step_opened {profile : UInt32} {m m' : Machine} (h : m.step = .ok m')
    (hshell : m.sys.shell <:+ demoRecord profile) :
    m'.sys.shell <:+ demoRecord profile ∧
      (.start .currentEvents ∉ m.sys.shell → .start .currentEvents ∉ m'.sys.shell ∧
        m.trace.currentEvents.toNat ≤ m'.trace.currentEvents.toNat) ∧
      (.start .currentEvents ∈ m.sys.shell → .start .currentEvents ∉ m'.sys.shell →
        m'.trace.currentEvents = 0) := by
  unfold Machine.step at h
  cases hstep : m.sys.step (traceReplayExpectedNextTask m.trace) m.failed with
  | error f =>
    rw [hstep] at h
    cases h
  | ok r =>
    obtain ⟨sys, e⟩ := r
    rw [hstep] at h
    simp only at h
    rcases Sys.step_shell hstep with ⟨op, hop, rfl⟩ | ⟨hkept, rfl | ⟨r, rfl⟩⟩
    · -- the shell makes its next call
      have hsuffix : sys.shell <:+ demoRecord profile :=
        (List.suffix_cons op sys.shell).trans (hop ▸ hshell)
      have hmem : op ∈ demoRecord profile := hshell.subset (hop ▸ List.mem_cons_self)
      have hrest : .start .currentEvents ∉ m.sys.shell → .start .currentEvents ∉ sys.shell :=
        fun hnot hin => hnot (hop ▸ List.mem_cons_of_mem op hin)
      have hother : op ≠ .start .currentEvents → .start .currentEvents ∈ m.sys.shell →
          .start .currentEvents ∈ sys.shell := by
        intro hne hin
        rw [hop] at hin
        exact (List.mem_cons.mp hin).resolve_left (Ne.symm hne)
      -- its effect: none, one store of the start, or the stop
      rcases demoRecord_effect hmem with hnone | ⟨stmt, rfl⟩ | rfl
      · rw [hnone] at h
        cases h
        refine ⟨hsuffix, fun hnot => ⟨hrest hnot, le_refl _⟩, fun hin hnot => ?_⟩
        exact absurd (hother (fun hop => by rw [hop] at hnone; cases hnone) hin) hnot
      · cases h
        by_cases hstmt : stmt = .currentEvents
        · subst hstmt
          refine ⟨hsuffix, fun hnot => ?_, fun _ _ => rfl⟩
          exact absurd (hop ▸ List.mem_cons_self) hnot
        · refine ⟨hsuffix, fun hnot => ⟨hrest hnot, ?_⟩, fun hin hnot => ?_⟩
          · rw [StartStmt.run_count hstmt]
          · exact absurd (hother (fun hop => hstmt (ShellOp.start.inj hop)) hin) hnot
      · obtain ⟨hsys, hcount⟩ := Machine.perform_traceStop h
        rw [hsys, hcount]
        refine ⟨hsuffix, fun hnot => ⟨hrest hnot, le_refl _⟩, fun hin hnot => ?_⟩
        exact absurd (hother ShellOp.noConfusion hin) hnot
    · cases h
      exact ⟨hkept ▸ hshell, fun hnot => ⟨hkept ▸ hnot, le_refl _⟩,
        fun hin hnot => absurd (hkept ▸ hin) hnot⟩
    · cases h
      exact ⟨hkept ▸ hshell, fun hnot => ⟨hkept ▸ hnot,
        Machine.record_count r.type r.pid r.data0 (r.data1.value m.memoryUsed) { m with sys }⟩,
        fun hin hnot => absurd (hkept ▸ hin) hnot⟩

/-- The session is the tasks' so far, once it is one. -/
def TasksOnly (w : Watched) : Prop :=
  opened w.board = true → ∀ o ∈ w.origins, o = .task

/-- The move keeps the session the tasks'. -/
def undisturbed (m : Move) (b : Board) : Bool :=
  match m with
  | .step => true
  | .irq i => !(opened b && irqStores i b)

theorem opened_iff {b : Board} :
    opened b = true ↔ .start .currentEvents ∉ b.machine.sys.shell := by
  rw [opened, Bool.not_eq_true', ← Bool.not_eq_true, List.contains_iff_mem]

theorem mem_watch {o : Origin} {before after : Nat} {origins : List Origin}
    (hlength : origins.length = before) (hle : before ≤ after) :
    (∀ o' ∈ watch o before after origins, o' = .task) ↔
      (∀ o' ∈ origins, o' = .task) ∧ (before < after → o = .task) := by
  rw [watch, List.take_of_length_le (by omega)]
  refine ⟨fun h => ⟨fun o' ho' => h o' (List.mem_append_left _ ho'), fun hlt => ?_⟩,
    fun ⟨hold, hnew⟩ o' ho' => ?_⟩
  · exact h o (List.mem_append_right _ (List.mem_replicate.mpr ⟨by omega, rfl⟩))
  · rcases List.mem_append.mp ho' with ho' | ho'
    · exact hold o' ho'
    · obtain ⟨hne, rfl⟩ := List.mem_replicate.mp ho'
      exact hnew (by omega)

/-- **One move**, exactly: it keeps the session the tasks' unless an interrupt stores an event. -/
theorem Watching.move {profile : UInt32} {m : Move} {w w' : Watched} (h : Watching profile w)
    (hmove : w.move m = .ok w') :
    Watching profile w' ∧ (TasksOnly w' ↔ TasksOnly w ∧ undisturbed m w.board = true) := by
  unfold Watched.move at hmove
  cases hboard : w.board.move m with
  | error f =>
    rw [hboard] at hmove
    cases hmove
  | ok b =>
    rw [hboard] at hmove
    cases hmove
    cases m with
    | step =>
      unfold Board.move at hboard
      cases hstep : w.board.machine.step with
      | error f =>
        rw [hstep] at hboard
        cases hboard
      | ok machine =>
        rw [hstep] at hboard
        cases hboard
        obtain ⟨hsuffix, hopen, hempty⟩ := Machine.step_opened hstep h.shell
        refine ⟨⟨hsuffix, length_watch h.length⟩, ?_⟩
        by_cases hin : .start .currentEvents ∈ w.board.machine.sys.shell
        · -- the session is not open yet: if this opens it, the buffer is empty
          have hclosed : TasksOnly w := fun hopened => absurd hin (opened_iff.mp hopened)
          refine ⟨fun _ => ⟨hclosed, rfl⟩, fun _ hopened => ?_⟩
          have hzero := hempty hin (opened_iff.mp hopened)
          have hnone : watch (Move.origin .step) w.board.machine.trace.currentEvents.toNat
              machine.trace.currentEvents.toNat w.origins = [] :=
            List.eq_nil_of_length_eq_zero (by rw [length_watch h.length, hzero]; rfl)
          rw [hnone]
          exact fun o ho => absurd ho List.not_mem_nil
        · obtain ⟨hstill, hle⟩ := hopen hin
          have hopened : opened w.board = true := opened_iff.mpr hin
          have hopened' : opened { w.board with machine } = true := opened_iff.mpr hstill
          have hwatch := mem_watch (o := .task) h.length hle
          refine ⟨fun hall => ⟨fun _ => (hwatch.mp (hall hopened')).1, rfl⟩, fun hall _ => ?_⟩
          exact hwatch.mpr ⟨hall.1 hopened, fun _ => rfl⟩
    | irq i =>
      cases hboard
      refine ⟨⟨h.shell, length_watch h.length⟩, ?_⟩
      -- an interrupt opens no session; in an open one all that matters is whether it stores
      have hsame : opened (w.board.irq i) = opened w.board := rfl
      obtain ⟨hgrows, hstays⟩ := Board.irq_count i w.board
      cases hopened : opened w.board with
      | false =>
        have hquiet : undisturbed (.irq i) w.board = true := by
          rw [undisturbed, hopened, Bool.false_and, Bool.not_false]
        refine ⟨fun _ => ⟨fun hin => ?_, hquiet⟩, fun _ hin => ?_⟩
        · rw [hopened] at hin
          cases hin
        · rw [hsame, hopened] at hin
          cases hin
      | true =>
        rw [undisturbed, hopened, Bool.true_and]
        cases hstores : irqStores i w.board with
        | true =>
          have hwatch := mem_watch (o := .interrupt) h.length (hgrows hstores).le
          refine ⟨fun hall => ?_, fun hall => Bool.noConfusion hall.2⟩
          exact Origin.noConfusion ((hwatch.mp (hall (hsame.trans hopened))).2 (hgrows hstores))
        | false =>
          have hcount := hstays hstores
          have hwatch := mem_watch (o := .interrupt) h.length hcount.ge
          refine ⟨fun hall => ⟨fun _ => (hwatch.mp (hall (hsame.trans hopened))).1, rfl⟩,
            fun hall _ => hwatch.mpr ⟨hall.1 hopened, fun hlt => absurd hcount hlt.ne'⟩⟩

/-- Each move of the run is one that keeps the session the tasks'. -/
def undisturbedRun : List Move → Board → Bool
  | [], _ => true
  | m :: ms, b => undisturbed m b &&
    match b.move m with
    | .error _ => true
    | .ok b => undisturbedRun ms b

theorem Watching.run {profile : UInt32} : ∀ {moves : List Move} {w w' : Watched},
    Watching profile w → w.run moves = .ok w' →
    Watching profile w' ∧ (TasksOnly w' ↔ TasksOnly w ∧ undisturbedRun moves w.board = true) := by
  intro moves
  induction moves with
  | nil =>
    intro w w' h hrun
    cases hrun
    exact ⟨h, fun hall => ⟨hall, rfl⟩, fun hall => hall.1⟩
  | cons m ms ih =>
    intro w w' h hrun
    unfold Watched.run at hrun
    cases hmove : w.move m with
    | error f =>
      rw [hmove] at hrun
      cases hrun
    | ok w₁ =>
      rw [hmove] at hrun
      obtain ⟨h₁, hstep⟩ := h.move hmove
      obtain ⟨h', hrest⟩ := ih h₁ hrun
      have hboard : w.board.move m = .ok w₁.board := by
        unfold Watched.move at hmove
        cases hboard : w.board.move m with
        | error f => rw [hboard] at hmove; cases hmove
        | ok b => rw [hboard] at hmove; cases hmove; rfl
      rw [undisturbedRun, hboard, hrest, hstep, and_assoc, Bool.and_eq_true]
      exact ⟨h', Iff.rfl⟩

/-- **Who stored the session.** Whatever comes in while a profile is recorded, the session's
    events are all the tasks' and the scheduler's if and only if no interrupt that came while it
    was open, with the profile not set yet or a key, a packet or a flush to record, found room.

    `hrun` is the recording of a profile with any moves of the tasks and any interrupts, over a
    board in any state, and `hopened` says that the session has been started in it, so that the
    buffer is this session's. The right side is on the moves one by one: an interrupt that stores
    something, while the session is open, with room left. -/
theorem session_from_tasks (b : Board) (profile : UInt32) (moves : List Move) (w : Watched)
    (hrun : (Watched.type (demoRecord profile) b).run moves = .ok w)
    (hopened : opened w.board = true) :
    w.origins.length = w.board.machine.trace.events.length ∧
      ((∀ o ∈ w.origins, o = .task) ↔
        undisturbedRun moves { b with machine := b.machine.type (demoRecord profile) } = true) := by
  obtain ⟨h, hall⟩ := (Watching.start profile b).run hrun
  have hclosed : TasksOnly (Watched.type (demoRecord profile) b) := by
    intro hopened
    refine absurd ?_ (opened_iff.mp hopened)
    exact List.mem_append_left _ (List.mem_cons_of_mem _ (List.mem_map_of_mem
      (by simp [startStmts])))
  refine ⟨by rw [h.length, Trace.events, List.length_map, List.length_range], ?_⟩
  refine ⟨fun htasks => (hall.mp fun _ => htasks).2, fun hquiet => hall.mpr ⟨hclosed, hquiet⟩ hopened⟩

/-- The shell's prompt, nothing typed yet. -/
def promptBoard : Board where
  machine := ⟨⟨schedInit [], 0, []⟩, 0x200000, 100, Trace.loaded, fsBoot blankDrive⟩
  keyboard := (booted Devices.loaded).keyboard
  power := (booted Devices.loaded).power
  net := (booted Devices.loaded).net

/-- What a run of `demo record` leaves of the command, and who stored which type of event. -/
def watchedSession (moves : List Move) : Option (List ShellOp × List (Origin × UInt16)) :=
  match (Watched.type (demoRecord workloadProfileLifecycle) promptBoard).run moves with
  | .ok w => some (w.board.machine.sys.shell,
      w.origins.zip (w.board.machine.trace.events.map TraceEvent.type))
  | .error _ => none

/-- `a` is typed while the session is open: the session `trace_stop` is about to store begins
    with an event no replay can regenerate. -/
theorem session_holds_a_key :
    (watchedSession (List.replicate 7 .step ++ [.irq (.keyboard 0x1e)] ++ List.replicate 39 .step)).map
        (fun s => (s.1, s.2.head?)) =
      some ([.traceStop], some (.interrupt, TraceEventType.keyboard.code)) := by
  decide +kernel

/-- A tick with nothing to flush and a key let go do no harm. -/
theorem session_from_tasks_quiet :
    let moves := List.replicate 7 .step ++ [.irq .timer, .irq (.keyboard 0x9e)] ++
      List.replicate 39 .step
    ∃ w, (Watched.type (demoRecord workloadProfileLifecycle) promptBoard).run moves = .ok w ∧
      w.board.machine.sys.shell = [.traceStop] ∧ ∀ o ∈ w.origins, o = .task := by
  intro moves
  have hfacts : (match (Watched.type (demoRecord workloadProfileLifecycle) promptBoard).run moves with
      | .ok w => w.board.machine.sys.shell == [.traceStop] && opened w.board
      | .error _ => false) = true := by decide +kernel
  cases hrun : (Watched.type (demoRecord workloadProfileLifecycle) promptBoard).run moves with
  | error f =>
    rw [hrun] at hfacts
    cases hfacts
  | ok w =>
    rw [hrun, Bool.and_eq_true] at hfacts
    obtain ⟨-, hall⟩ := session_from_tasks promptBoard workloadProfileLifecycle moves w hrun hfacts.2
    exact ⟨w, rfl, eq_of_beq hfacts.1, hall.mpr (by decide +kernel)⟩

end Proof
end BumbelBee
