import BumbelBee.Proof.Origins

/-!
# What a recording stores

The shell and the tasks take the steps of `schedule`, whoever else is let in between: an
interrupt touches the recorder and the clock, never the tasks. So the events a recording gets
from the tasks are those `schedule` emits, in order, among whatever the handlers record; only
when the buffer is full are some missing at the end.

What the tasks record is a matter of their code. `Records P code` says it of the arguments of
every `trace_record` call in it, and `Working P` of a whole table.

`RecordStage` says how far the command has come: which statements of `trace_start_profile` are done,
whether the run of the profile is under way, or whether it has ended and the session is to be
stored. The stages before the profile is set are the delicate ones, since the recorder is on and
does not filter yet.
-/

namespace BumbelBee
namespace Kernel

open Lib

/-! ## A command behind another -/

/-- With more of the shell's command behind. -/
def Sys.followedBy (tail : List ShellOp) (s : Sys) : Sys := s.setShell (s.shell ++ tail)

/-- Somebody else runs, or the shell's command is not at its end. -/
def Sys.UnderWay (s : Sys) : Prop := s.shell ≠ [] ∨ s.sched.current ≠ 0

section
variable {tail : List ShellOp} {s : Sys}

theorem Sys.switchTo_followedBy (next : Int) :
    (s.followedBy tail).switchTo next =
      (s.switchTo next).map fun r => (r.1.followedBy tail, r.2) := by
  unfold Sys.switchTo
  by_cases hsame : next < 0 ∨ next = s.sched.current.val
  · rw [if_pos hsame, if_pos (show next < 0 ∨ next = (s.followedBy tail).sched.current.val from hsame)]
    rfl
  rw [if_neg hsame, if_neg (show ¬ (next < 0 ∨ next = (s.followedBy tail).sched.current.val) from hsame)]
  by_cases hin : next.toNat < maxTasks
  · simp only [dif_pos hin]
    by_cases hvisible : s.sched.taskVisible ⟨next.toNat, hin⟩ = true
    · rw [if_pos hvisible,
        if_pos (show (s.followedBy tail).sched.taskVisible ⟨next.toNat, hin⟩ = true from hvisible)]
      rfl
    · rw [if_neg hvisible,
        if_neg (show ¬ (s.followedBy tail).sched.taskVisible ⟨next.toNat, hin⟩ = true from hvisible)]
      rfl
  · simp only [dif_neg hin]
    rfl

theorem Sys.yield_followedBy (expected : Option Int) :
    (s.followedBy tail).yield expected =
      (s.yield expected).map fun r => (r.1.followedBy tail, r.2) := by
  unfold Sys.yield
  cases expected with
  | some next => exact Sys.switchTo_followedBy next
  | none =>
    rw [show (s.followedBy tail).sched.findNextReady = s.sched.findNextReady from rfl]
    cases s.sched.findNextReady with
    | some next => exact Sys.switchTo_followedBy next.val
    | none => rfl

theorem Sys.taskStep_followedBy (expected : Option Int) (code : List TaskOp) :
    (s.followedBy tail).taskStep expected code =
      (s.taskStep expected code).map fun r => (r.1.followedBy tail, r.2) := by
  cases code with
  | nil => exact @Sys.yield_followedBy tail { s with sched := s.sched.retire [.halt] } none
  | cons op rest =>
    cases op with
    | yield => exact @Sys.yield_followedBy tail (s.setCode rest) expected
    | _ => rfl

/-- **A step does not look ahead**: what stands behind the command makes no difference to it. -/
theorem Sys.step_followedBy (h : s.UnderWay) (expected : Option Int) (failed : Bool) :
    (s.followedBy tail).step expected failed =
      (s.step expected failed).map fun r => (r.1.followedBy tail, r.2) := by
  unfold Sys.step
  rw [show (s.followedBy tail).sched = s.sched from rfl]
  by_cases hcur : s.sched.current = 0
  · rw [if_pos hcur, if_pos hcur]
    obtain ⟨op, rest, hshell⟩ := List.exists_cons_of_ne_nil (h.resolve_right fun hne => hne hcur)
    have htail : (s.followedBy tail).shell = op :: (rest ++ tail) := by
      rw [Sys.followedBy, hshell]
      rfl
    unfold Sys.shellStep
    rw [hshell, htail]
    cases op with
    | untilIdle =>
      simp only [show (s.followedBy tail).busy = s.busy from rfl]
      split
      · exact Sys.yield_followedBy expected
      · rfl
    | _ => rfl
  · rw [if_neg hcur, if_neg hcur]
    cases s.sched.tasks s.sched.current with
    | none => rfl
    | some t => exact Sys.taskStep_followedBy expected t.code

end

/-! ## What a step asks the replay -/

/-- Only `sched_yield` asks which task is expected. -/
theorem Sys.step_expected {s : Sys} {failed : Bool} (h : s.yields failed = false)
    (expected : Option Int) : s.step expected failed = s.step none failed := by
  unfold Sys.yields at h
  unfold Sys.step
  split
  · rename_i hcur
    rw [if_pos hcur] at h
    unfold Sys.shellStep
    cases hshell : s.shell with
    | nil => rfl
    | cons op rest =>
      cases op with
      | untilIdle =>
        rw [hshell, List.head?_cons, beq_self_eq_true, Bool.true_and] at h
        simp only [h, Bool.false_eq_true, if_false]
      | _ => rfl
  · rename_i hcur
    rw [if_neg hcur] at h
    cases ht : s.sched.tasks s.sched.current with
    | none => rfl
    | some t =>
      rw [ht, Option.any_some] at h
      simp only
      unfold Sys.taskStep
      cases hcode : t.code with
      | nil => rfl
      | cons op rest =>
        cases op with
        | yield => rw [hcode] at h; cases h
        | _ => rfl

/-- With no replay to ask, `sched_yield` switches to another slot that it found ready, just as
    if it had been told to; or it stays. -/
theorem Sys.yield_cases {s : Sys} (hs : s.sched.Consistent) :
    (∃ next, s.sched.isReady next = true ∧ s.yield none = s.switchTo next.val ∧
      s.switchTo next.val = .ok ({ s with sched := s.sched.switchTo next },
        .record ⟨s.sched.pid next, .sched, UInt64.ofNat s.sched.current.val,
          .word (UInt64.ofNat next.val)⟩)) ∨
    s.sched.findNextReady = none ∧ s.yield none = .ok (s, .none) := by
  unfold Sys.yield
  cases hfound : s.sched.findNextReady with
  | none => exact Or.inr ⟨rfl, rfl⟩
  | some next =>
    have hready := Sched.findNextReady_ready hfound
    obtain ⟨t, ht, -⟩ := Sched.isReady_some hready
    have hvisible : s.sched.taskVisible next = true := by
      rw [Sched.taskVisible, ht]
      rfl
    exact Or.inl ⟨next, hready, rfl, Sys.switchTo_visible hvisible (hs.found_ne hfound)⟩

/-- **A step that yields**: it switches to a slot that was ready, and records that, or nobody
    is ready and nothing happens. -/
theorem Sys.step_yields {s : Sys} {failed : Bool} (hs : s.sched.Consistent)
    (h : s.yields failed = true) :
    (∃ next r s', s.sched.isReady next = true ∧ r.type = .sched ∧
      r.data1 = .word (UInt64.ofNat next.val) ∧ s.step none failed = .ok (s', .record r) ∧
      s.step (some next.val) failed = .ok (s', .record r)) ∨
    s.step none failed = .ok (s, .none) := by
  unfold Sys.yields at h
  by_cases hcur : s.sched.current = 0
  · rw [if_pos hcur] at h
    simp only [Bool.and_eq_true, beq_iff_eq] at h
    obtain ⟨⟨hhead, hbusy⟩, hfailed⟩ := h
    have hstep : ∀ expected, s.step expected failed = s.yield expected := by
      intro expected
      obtain ⟨rest, hshell⟩ := List.head?_eq_some_iff.mp hhead
      simp only [Sys.step, if_pos hcur, Sys.shellStep, hshell, hbusy, hfailed, Bool.and_self,
        if_true]
    rcases Sys.yield_cases hs with ⟨next, hready, hfound, hswitch⟩ | ⟨-, hstay⟩
    · exact Or.inl ⟨next, _, _, hready, rfl, rfl, (hstep none).trans (hfound.trans hswitch),
        (hstep _).trans hswitch⟩
    · exact Or.inr ((hstep none).trans hstay)
  · rw [if_neg hcur] at h
    obtain ⟨t, ht, hcode⟩ := (Option.any_eq_true _ _).mp h
    obtain ⟨rest, hcode⟩ := List.head?_eq_some_iff.mp (beq_iff_eq.mp hcode)
    have hstep : ∀ expected, s.step expected failed = (s.setCode rest).yield expected := by
      intro expected
      simp only [Sys.step, if_neg hcur, ht, Sys.taskStep, hcode]
    have hs' : (s.setCode rest).sched.Consistent := hs.setCode rest
    rcases Sys.yield_cases hs' with ⟨next, hready, hfound, hswitch⟩ | ⟨hnone, -⟩
    · have hready' : s.sched.isReady next = true := by
        rw [Sched.isReady_iff, ← s.sched.state_setCode rest]
        exact Sched.isReady_iff.mp hready
      exact Or.inl ⟨next, _, _, hready', rfl, rfl, (hstep none).trans (hfound.trans hswitch),
        (hstep _).trans hswitch⟩
    · -- the shell is ready while a task runs
      obtain ⟨next, hfound⟩ := hs'.found (show (s.setCode rest).sched.current ≠ 0 from hcur)
      rw [hnone] at hfound
      cases hfound

end Kernel

namespace Proof

open Lib Kernel

/-! ## What the tasks may record -/

/-- Every `trace_record` call of the code has the property. -/
def Records (P : TraceEventType → Datum → Prop) (code : List TaskOp) : Prop :=
  ∀ type data0 data1, .record type data0 data1 ∈ code → P type data1

/-- A call of `trace_record` by the tasks: it names whoever runs behind it. -/
def MadeIn (P : TraceEventType → Datum → Prop) (s' : Sys) (e : Effect) : Prop :=
  e = .none ∨ ∃ r, e = .record r ∧ r.pid = s'.sched.currentPid ∧ P r.type r.data1

/-- A profile run under way: the table is in order, the tasks record what they may, and the
    shell spawns or waits. -/
structure Working (P : TraceEventType → Datum → Prop) (s : Sys) : Prop where
  consistent : s.sched.Consistent
  codes : s.sched.EachCode (Records P)
  shell : ∀ op ∈ s.shell, op = .untilIdle ∨ ∃ w, op = .spawn w ∧ Records P w.code
  done : s.shell = [] → s.sched.current = 0

section
variable {P : TraceEventType → Datum → Prop}

theorem Records.tail {op : TaskOp} {rest : List TaskOp} (h : Records P (op :: rest)) :
    Records P rest := by
  intro type data0 data1 hin
  exact h type data0 data1 (List.mem_cons_of_mem op hin)

theorem records_halt : Records P [.halt] := by
  intro type data0 data1 hin
  rw [List.mem_singleton] at hin
  cases hin

theorem eachCode_yield {s : Sched (List TaskOp)} (h : s.EachCode (Records P)) :
    s.yield.EachCode (Records P) := by
  unfold Sched.yield
  split
  · unfold Sched.dispatch
    split
    · exact h
    · exact h.switchTo _
  · exact h

theorem pid_switchTo {α : Type} (s : Sched α) (next : Fin maxTasks) :
    (s.switchTo next).currentPid = s.pid next := by
  unfold Sched.currentPid Sched.pid Sched.switchTo
  simp only [if_true]
  cases s.tasks next <;> rfl

theorem pid_setCode {α : Type} (s : Sched α) (code : α) :
    (s.setCode code).currentPid = s.currentPid := by
  unfold Sched.currentPid Sched.pid Sched.setCode
  simp only [Function.update_self]
  cases s.tasks s.current <;> rfl

theorem current_spawn {α : Type} (s : Sched α) (code : α) :
    (s.spawn code).2.current = s.current := by
  unfold Sched.spawn
  split <;> rfl

/-- `sched_yield` with no replay to ask: nothing is recorded, or the switch that is made. -/
theorem madeIn_yield (hsched : ∀ word, P .sched (.word word)) {s s' : Sys} {e : Effect}
    (h : s.yield none = .ok (s', e)) :
    s' = { s with sched := s.sched.yield } ∧ MadeIn P s' e := by
  obtain ⟨e', he'⟩ := s.yield_none
  have hsame : e' = e ∧ { s with sched := s.sched.yield } = s' := by
    rw [h] at he'
    cases he'
    exact ⟨rfl, rfl⟩
  obtain ⟨rfl, rfl⟩ := hsame
  refine ⟨rfl, ?_⟩
  unfold Sys.yield at h
  cases hfound : s.sched.findNextReady with
  | none =>
    rw [hfound] at h
    exact Or.inl (congrArg Prod.snd (Except.ok.inj h)).symm
  | some next =>
    rw [hfound] at h
    by_cases hcur : next = s.sched.current
    · simp only [hcur, s.switchTo_self] at h
      exact Or.inl (congrArg Prod.snd (Except.ok.inj h)).symm
    · obtain ⟨t, ht, -⟩ := Sched.isReady_some (Sched.findNextReady_ready hfound)
      have hvisible : s.sched.taskVisible next = true := by
        rw [Sched.taskVisible, ht]
        rfl
      have hyield : s.sched.yield = s.sched.switchTo next := by
        simp only [Sched.yield, hfound, Sched.dispatch, if_neg hcur]
      simp only [Sys.switchTo_visible hvisible hcur] at h
      refine Or.inr ⟨_, (congrArg Prod.snd (Except.ok.inj h)).symm, ?_, hsched _⟩
      simp only [hyield, pid_switchTo]

/-- **One step of a run under way**, with no replay to ask. -/
theorem Working.step (hsched : ∀ word, P .sched (.word word)) {s s' : Sys} {failed : Bool}
    {e : Effect} (h : Working P s) (hstep : s.step none failed = .ok (s', e)) :
    Working P s' ∧ MadeIn P s' e := by
  -- the shell's loop and a task's yield end the same way
  have hyield : ∀ {s₁ : Sys}, Working P s₁ → s₁.shell ≠ [] → s₁.yield none = .ok (s', e) →
      Working P s' ∧ MadeIn P s' e := by
    intro s₁ h₁ hmore hstep
    obtain ⟨rfl, hmade⟩ := madeIn_yield hsched hstep
    exact ⟨⟨h₁.consistent.yield, eachCode_yield h₁.codes, h₁.shell, fun hnil => absurd hnil hmore⟩,
      hmade⟩
  unfold Sys.step at hstep
  split at hstep
  · -- the shell's next call
    rename_i hcur
    unfold Sys.shellStep at hstep
    cases hshell : s.shell with
    | nil =>
      rw [hshell] at hstep
      cases hstep
      exact ⟨h, Or.inl rfl⟩
    | cons op rest =>
      have hrest : ∀ op' ∈ rest, op' = .untilIdle ∨ ∃ w, op' = .spawn w ∧ Records P w.code := by
        intro op' hin
        exact h.shell op' (hshell ▸ List.mem_cons_of_mem op hin)
      rw [hshell] at hstep
      -- the loop waits or is left, and a spawn takes a slot
      rcases h.shell op (hshell ▸ List.mem_cons_self) with rfl | ⟨w, rfl, hw⟩
      · simp only at hstep
        split at hstep
        · exact hyield h (hshell ▸ List.cons_ne_nil _ _) hstep
        · cases hstep
          exact ⟨⟨h.consistent, h.codes, hrest, fun _ => hcur⟩, Or.inl rfl⟩
      · cases hstep
        refine ⟨⟨h.consistent.spawn _, h.codes.spawn hw, hrest, fun _ => ?_⟩, Or.inl rfl⟩
        rw [current_spawn]
        exact hcur
  · rename_i hcur
    have hmore : s.shell ≠ [] := fun hnil => hcur (h.done hnil)
    split at hstep
    · cases hstep
      exact ⟨h, Or.inl rfl⟩
    · rename_i t ht
      -- the running task's code decides: halt, record, yield or go on
      have hcode := h.codes _ t ht
      have hset : ∀ {op : TaskOp} {rest : List TaskOp}, t.code = op :: rest →
          Working P (s.setCode rest) := by
        intro op rest hop
        exact ⟨h.consistent.setCode rest, h.codes.setCode (Records.tail (hop ▸ hcode)), h.shell,
          h.done⟩
      unfold Sys.taskStep at hstep
      split at hstep
      · obtain ⟨rfl, hmade⟩ :=
          @madeIn_yield P hsched { s with sched := s.sched.retire [.halt] } s' e hstep
        exact ⟨⟨h.consistent.taskExit hcur _, eachCode_yield (h.codes.retire records_halt),
          h.shell, fun hnil => absurd hnil hmore⟩, hmade⟩
      · rename_i type data0 data1 rest hop
        cases hstep
        refine ⟨hset hop, Or.inr ⟨_, rfl, (pid_setCode _ _).symm, ?_⟩⟩
        exact hcode type data0 data1 (hop ▸ List.mem_cons_self)
      · rename_i rest hop
        exact hyield (hset hop) hmore hstep
      · rename_i rest hop
        cases hstep
        exact ⟨⟨(hset hop).consistent, (hset hop).codes, h.shell, h.done⟩, Or.inl rfl⟩
      · cases hstep
        exact ⟨h, Or.inl rfl⟩

end

/-! ## The process of the run -/

/-- The call of `trace_record` a step makes. -/
def requestOf : Effect → Option Request
  | .record r => some r
  | _ => none

theorem schedule_of_step {s s' : Sys} {e : Effect} (h : s.step none false = .ok (s', e)) :
    schedule.next s = s' ∧ schedule.emit s = requestOf e := by
  refine ⟨by simp only [schedule, h], ?_⟩
  simp only [schedule, h]
  cases e <;> rfl

/-! ## The log -/

/-- The types the interrupt handlers record. -/
def ofHandler (type : UInt16) : Bool :=
  [TraceEventType.irq, .keyboard, .net, .power].any fun handler => handler.code == type

/-- The event was recorded by a task or by `switch_to`. -/
def ofTask (e : TraceEvent) : Bool := !ofHandler e.type

/-- The event is what the call records while `memory_used_bytes()` is this. -/
structure RecordedAs (memoryUsed : UInt64) (r : Request) (e : TraceEvent) : Prop where
  pid : e.pid = r.pid
  type : e.type = r.type.code
  data0 : e.data0 = r.data0
  data1 : e.data1 = r.data1.value memoryUsed

/-- The recorder is on and has of the tasks' calls all it had room for; it has nothing else
    exactly when it was quiet. -/
structure Logging (memoryUsed : UInt64) (requests : List Request) (quiet : Prop) (t : Trace) :
    Prop where
  recording : t.recording = true
  noReplay : t.replay.active = false
  room : t.currentEvents.toNat ≤ traceBufferCap
  stored : ∃ logged, logged <+: requests ∧
    List.Forall₂ (RecordedAs memoryUsed) logged (t.events.filter ofTask) ∧
    (logged ≠ requests → t.currentEvents.toNat = traceBufferCap)
  clean : (∀ e ∈ t.events, ofTask e = true) ↔ quiet

/-- What a call of `trace_record` appends. -/
theorem RecordCall.run_events (c : RecordCall) (t : Trace) :
    (c.run t).events = t.events ++
      if taking t && !filtered t c then [c.event t.nextEventId] else [] := by
  have hran := c.ran t
  generalize c.run t = t' at hran ⊢
  cases hran with
  | hidden hit =>
    rw [hit, Bool.not_true, Bool.and_false]
    exact (List.append_nil _).symm
  | compared _ active =>
    rw [taking, active, Bool.not_true, Bool.and_false]
    exact (List.append_nil _).symm
  | closed _ _ off =>
    rw [taking, off]
    exact (List.append_nil _).symm
  | full _ _ _ full =>
    rw [taking, decide_eq_false (Nat.not_lt.mpr full), Bool.and_false]
    exact (List.append_nil _).symm
  | stored pass idle on room =>
    rw [taking, on, idle, decide_eq_true room, pass]
    exact events_append _ (toNat_currentEvents_succ room) rfl

section
variable {memoryUsed : UInt64} {requests : List Request} {quiet : Prop} {t : Trace}

/-- `current_events = 0`. -/
theorem Logging.start (ticks : UInt64) (hrecording : t.recording = true)
    (hreplay : t.replay.active = false) (hquiet : quiet) :
    Logging memoryUsed [] quiet (StartStmt.currentEvents.run ticks t) where
  recording := hrecording
  noReplay := hreplay
  room := Nat.zero_le _
  stored := ⟨[], List.prefix_rfl, List.Forall₂.nil, fun hne => absurd rfl hne⟩
  clean := iff_of_true (fun _ he => absurd he List.not_mem_nil) hquiet

theorem Logging.congr (h : Logging memoryUsed requests quiet t) {t' : Trace}
    (hrecording : t'.recording = t.recording) (hreplay : t'.replay = t.replay)
    (hcount : t'.currentEvents = t.currentEvents) (hbuffer : t'.buffer = t.buffer) :
    Logging memoryUsed requests quiet t' := by
  have hevents : t'.events = t.events := by rw [Trace.events, Trace.events, hcount, hbuffer]
  refine ⟨hrecording.trans h.recording, by rw [hreplay]; exact h.noReplay,
    by rw [hcount]; exact h.room, ?_, ?_⟩
  · rw [hevents, hcount]
    exact h.stored
  · rw [hevents]
    exact h.clean

/-- A recorder that is on takes what it has room for. -/
theorem Logging.taking (h : Logging memoryUsed requests quiet t) :
    taking t = decide (t.currentEvents.toNat < traceBufferCap) := by
  rw [Proof.taking, h.recording, h.noReplay]
  rfl

/-- What a handler records is not the tasks', and if it is stored it was not quiet. -/
theorem Logging.handler (h : Logging memoryUsed requests quiet t) {c : RecordCall}
    (hc : ofHandler c.type = true) :
    Logging memoryUsed requests
      (quiet ∧ (c.run t).currentEvents.toNat = t.currentEvents.toNat) (c.run t) := by
  obtain ⟨hcount, hrecording, -, hactive⟩ := c.run_count t
  have hevents := c.run_events t
  have hroom := h.room
  obtain ⟨logged, hprefix, hstored, hfull⟩ := h.stored
  have hforeign : ofTask (c.event t.nextEventId) = false := by
    rw [ofTask, show (c.event t.nextEventId).type = c.type from rfl, hc]
    rfl
  by_cases htaken : (Proof.taking t && !filtered t c) = true
  · rw [if_pos htaken] at hcount hevents
    have hlt : t.currentEvents.toNat < traceBufferCap := by
      rw [Bool.and_eq_true, h.taking, decide_eq_true_eq] at htaken
      exact htaken.1
    refine ⟨hrecording.trans h.recording, hactive.trans h.noReplay, by omega,
      ⟨logged, hprefix, ?_, ?_⟩, ?_⟩
    · rw [hevents, List.filter_append, List.filter_cons_of_neg (by simp [hforeign]),
        List.filter_nil, List.append_nil]
      exact hstored
    · intro hne
      have := hfull hne
      omega
    · rw [hevents]
      refine iff_of_false (fun hall => ?_) (fun hboth => by omega)
      rw [hall _ (List.mem_append_right _ List.mem_cons_self)] at hforeign
      cases hforeign
  · rw [if_neg htaken, Nat.add_zero] at hcount
    rw [if_neg htaken, List.append_nil] at hevents
    refine ⟨hrecording.trans h.recording, hactive.trans h.noReplay, by omega,
      ⟨logged, hprefix, ?_, ?_⟩, ?_⟩
    · rw [hevents]
      exact hstored
    · intro hne
      exact hcount.trans (hfull hne)
    · rw [hevents, h.clean]
      exact (and_iff_left hcount).symm

/-- **A handler's calls**. -/
theorem Logging.handlers : ∀ {cs : List RecordCall} {quiet : Prop} {t : Trace},
    (∀ c ∈ cs, ofHandler c.type = true) → Logging memoryUsed requests quiet t →
      Logging memoryUsed requests
        (quiet ∧ (recordAll cs t).currentEvents.toNat = t.currentEvents.toNat) (recordAll cs t) := by
  intro cs
  induction cs with
  | nil =>
    intro quiet t _ h
    have hquiet : (quiet ∧ (recordAll [] t).currentEvents.toNat = t.currentEvents.toNat) = quiet :=
      propext (and_iff_left rfl)
    rw [hquiet]
    exact h
  | cons c cs ih =>
    intro quiet t hcs h
    have hrest := ih (fun c' hin => hcs c' (List.mem_cons_of_mem c hin))
      (h.handler (hcs c List.mem_cons_self))
    -- the count never shrinks, so it is the same in the end if each call left it alone
    have hfirst := recordAll_count_le [c] t
    have hlast := recordAll_count_le cs (c.run t)
    have hquiet : ((quiet ∧ (c.run t).currentEvents.toNat = t.currentEvents.toNat) ∧
        (recordAll cs (c.run t)).currentEvents.toNat = (c.run t).currentEvents.toNat) =
          (quiet ∧ (recordAll (c :: cs) t).currentEvents.toNat = t.currentEvents.toNat) := by
      refine propext ⟨fun ⟨⟨hq, h₁⟩, h₂⟩ => ⟨hq, h₂.trans h₁⟩, fun ⟨hq, hsame⟩ => ?_⟩
      simp only [recordAll, List.foldl_cons, List.foldl_nil] at hfirst hlast hsame
      refine ⟨⟨hq, ?_⟩, ?_⟩
      · omega
      · simp only [recordAll]
        omega
    rw [← hquiet]
    exact hrest

/-- **A task's call** is logged, or the buffer is full. -/
theorem Logging.request (h : Logging memoryUsed requests quiet t) {r : Request} {c : RecordCall}
    (hc : ∀ eventId, RecordedAs memoryUsed r (c.event eventId))
    (htype : ofHandler c.type = false) :
    Logging memoryUsed (requests ++ [r]) quiet (c.run t) := by
  obtain ⟨hcount, hrecording, -, hactive⟩ := c.run_count t
  have hevents := c.run_events t
  have hroom := h.room
  obtain ⟨logged, hprefix, hstored, hfull⟩ := h.stored
  have hpasses : filtered t c = false := by
    have hirq : (c.type == TraceEventType.irq.code) = false := by
      rw [beq_eq_false_iff_ne]
      intro hirq
      rw [hirq] at htype
      revert htype
      decide
    rw [filtered, hirq, Bool.and_false]
  rw [h.taking, hpasses, Bool.not_false, Bool.and_true] at hcount hevents
  -- with room nothing was missing so far, and the call is appended; without, it is missing
  by_cases hlt : t.currentEvents.toNat < traceBufferCap
  · rw [if_pos (decide_eq_true hlt)] at hcount hevents
    have hall : logged = requests := by
      by_contra hne
      have := hfull hne
      omega
    subst hall
    have htask : ofTask (c.event t.nextEventId) = true := by
      rw [ofTask, show (c.event t.nextEventId).type = c.type from rfl, htype]
      rfl
    refine ⟨hrecording.trans h.recording, hactive.trans h.noReplay, by omega, ⟨logged ++ [r],
      List.prefix_rfl, ?_, fun hne => absurd rfl hne⟩, ?_⟩
    · rw [hevents, List.filter_append, List.filter_cons_of_pos htask, List.filter_nil]
      exact List.rel_append hstored (List.Forall₂.cons (hc _) List.Forall₂.nil)
    · rw [hevents, List.forall_mem_append, h.clean]
      refine and_iff_left ?_
      intro e he
      rw [List.mem_singleton.mp he]
      exact htask
  · rw [if_neg (by simpa using hlt), Nat.add_zero] at hcount
    rw [if_neg (by simpa using hlt), List.append_nil] at hevents
    refine ⟨hrecording.trans h.recording, hactive.trans h.noReplay, by omega, ⟨logged,
      hprefix.trans (List.prefix_append ..), ?_, fun _ => by omega⟩, ?_⟩
    · rw [hevents]
      exact hstored
    · rw [hevents]
      exact h.clean

end

/-! ## A recording under way -/

/-- The interrupt that comes in stores an event. -/
def stores (i : Interrupt) (m : Machine) : Bool :=
  taking m.trace && (m.trace.currentProfile == workloadProfileNone ||
    !(handlerCalls m.ticks m.sys.sched.currentPid i).isEmpty)

theorem recordAll_kept (cs : List RecordCall) : ∀ t : Trace,
    (recordAll cs t).recording = t.recording ∧
      (recordAll cs t).currentProfile = t.currentProfile ∧
      (recordAll cs t).replay.active = t.replay.active := by
  induction cs with
  | nil => exact fun t => ⟨rfl, rfl, rfl⟩
  | cons c cs ih =>
    intro t
    obtain ⟨-, hrecording, hprofile, hactive⟩ := c.run_count t
    obtain ⟨hrecording', hprofile', hactive'⟩ := ih (c.run t)
    exact ⟨hrecording'.trans hrecording, hprofile'.trans hprofile, hactive'.trans hactive⟩

theorem interruptCalls_handler {ticks : UInt64} {pid : UInt32} {i : Interrupt} :
    ∀ c ∈ interruptCalls ticks pid i, ofHandler c.type = true := by
  intro c hc
  rcases List.mem_cons.mp hc with rfl | hc
  · rfl
  · rcases handlerCalls_type hc with htype | htype | htype
    · rw [htype]
      rfl
    · rw [htype]
      rfl
    · rw [htype]
      rfl

theorem Logging.interrupt {memoryUsed : UInt64} {requests : List Request} {quiet : Prop}
    {m : Machine} (h : Logging memoryUsed requests quiet m.trace) (i : Interrupt) :
    Logging memoryUsed requests (quiet ∧ stores i m = false) (m.interrupt i).trace := by
  rw [Machine.interrupt_eq h.noReplay]
  have hlog := h.handlers (@interruptCalls_handler m.ticks m.sys.sched.currentPid i)
  obtain ⟨hgrows, hstays⟩ := @recordAll_interrupt m.trace m.ticks m.sys.sched.currentPid i
  have hquiet : ((recordAll (interruptCalls m.ticks m.sys.sched.currentPid i)
      m.trace).currentEvents.toNat = m.trace.currentEvents.toNat) = (stores i m = false) := by
    refine propext ⟨fun hsame => ?_, hstays⟩
    rw [← Bool.not_eq_true]
    intro hstores
    exact absurd hsame (hgrows hstores).ne'
  rw [hquiet] at hlog
  exact hlog

/-- The shell is past the statement that empties the buffer. -/
def sessionOpen (m : Machine) : Bool := !m.sys.shell.contains (.start .currentEvents)

/-- The turn stores nothing of a handler's in the session. -/
def quietTurn (t : Turn) (m : Machine) : Bool :=
  match t with
  | .step => true
  | .interrupt i => !(sessionOpen m && stores i m)

/-- Each turn of the run is quiet. -/
def quietRun : List Turn → Machine → Bool
  | [], _ => true
  | t :: ts, m => quietTurn t m &&
    match m.turn t with
    | .error _ => true
    | .ok m => quietRun ts m

/-- The shell's prompt: nobody else runs, and nothing is replayed. -/
structure Prompt (m : Machine) : Prop where
  shell : m.sys.sched.current = 0
  consistent : m.sys.sched.Consistent
  noReplay : m.trace.replay.active = false

/-- What `workload_run_profile` finds behind `sched_prepare_replay`. -/
def profileRun (profile : UInt32) (m : Machine) : Sys :=
  ⟨m.sys.sched.prepareReplay, m.sys.activeWorkloads, runProfile profile⟩

/-- What no recording changes. -/
structure Background (m₁ m : Machine) : Prop where
  noReplay : m.trace.replay.active = false
  memory : m.memoryUsed = m₁.memoryUsed
  store : m.fs = m₁.fs

/-- **Where a `demo record` is** that was typed in `m₁`; `quiet` says whether the session holds
    the tasks' events alone. -/
inductive RecordStage (profile : UInt32) (m₁ : Machine) (quiet : Prop) (m : Machine) : Prop
  | typed (background : Background m₁ m)
      (sys : m.sys = ⟨m₁.sys.sched, m₁.sys.activeWorkloads, demoRecord profile⟩) (clean : quiet)
  /-- The first `j` statements of `trace_start_profile` are done. -/
  | starting (j : Nat) (background : Background m₁ m) (more : j < 6)
      (sys : m.sys = ⟨m₁.sys.sched.prepareReplay, m₁.sys.activeWorkloads,
        ((startStmts profile).drop j).map .start ++ (runProfile profile ++ [.traceStop])⟩)
      (recording : 1 ≤ j → m.trace.recording = true)
      (log : 3 ≤ j → Logging m₁.memoryUsed [] quiet m.trace) (clean : j < 3 → quiet)
  | running (k : Nat) (background : Background m₁ m)
      (sys : m.sys = (schedule.after (profileRun profile m₁) k).followedBy [.traceStop])
      (profileSet : m.trace.currentProfile = profile)
      (log : Logging m₁.memoryUsed (schedule.emitted (profileRun profile m₁) k) quiet m.trace)
  | stopped (shell : m.sys.shell = [])

section
variable {P : TraceEventType → Datum → Prop} {profile : UInt32} {m₁ m : Machine} {quiet : Prop}

theorem expected_none {t : Trace} (h : t.replay.active = false) :
    traceReplayExpectedNextTask t = none := by
  simp only [traceReplayExpectedNextTask, h, Bool.not_false, Bool.true_or, if_true]

theorem Working.after (hsched : ∀ word, P .sched (.word word)) {s : Sys} (h : Working P s)
    (n : Nat) : Working P (schedule.after s n) := by
  refine schedule.after_induction h ?_ n
  intro s h
  obtain ⟨s', e, hstep⟩ := s.step_none false
  rw [(schedule_of_step hstep).1]
  exact (h.step hsched hstep).1

/-- A machine that replays nothing takes the step `Sys` takes with no replay to ask. -/
theorem machine_step {m : Machine} (h : m.trace.replay.active = false) {s' : Sys} {e : Effect}
    (hstep : m.sys.step none false = .ok (s', e)) : m.step = { m with sys := s' }.perform e := by
  have hfailed : m.failed = false := by rw [Machine.failed, h, Bool.false_and]
  rw [Machine.step, expected_none h, hfailed, hstep]

/-- The call a task's request makes. -/
def Request.call (ticks memoryUsed : UInt64) (r : Request) : RecordCall :=
  ⟨ticks, r.pid, r.type.code, r.pid, r.data0, r.data1.value memoryUsed⟩

theorem Request.call_recordedAs (ticks memoryUsed : UInt64) (r : Request) (eventId : UInt64) :
    RecordedAs memoryUsed r ((Request.call ticks memoryUsed r).event eventId) := by
  refine ⟨?_, rfl, rfl, rfl⟩
  exact ite_self _

theorem record_call {m : Machine} {r : Request} (hpid : r.pid = m.sys.sched.currentPid) :
    m.perform (.record r) =
      .ok { m with trace := (Request.call m.ticks m.memoryUsed r).run m.trace } := by
  simp only [Machine.perform, Machine.record, ← hpid]
  rfl

/-- **One step of the recording**. -/
theorem RecordStage.step (hsched : ∀ word, P .sched (.word word))
    (htask : ∀ type d, P type d → ofHandler type.code = false) (hprompt : m₁.sys.sched.current = 0)
    (hwork : Working P (profileRun profile m₁)) (h : RecordStage profile m₁ quiet m)
    {m' : Machine} (hstep : m.step = .ok m') : RecordStage profile m₁ quiet m' := by
  cases h with
  | typed background sys clean =>
    have hsys : m.sys.step none false = .ok (⟨m₁.sys.sched.prepareReplay, m₁.sys.activeWorkloads,
        ((startStmts profile).drop 0).map .start ++ (runProfile profile ++ [.traceStop])⟩, .none) := by
      rw [sys, Sys.step, if_pos hprompt]
      rfl
    rw [machine_step background.noReplay hsys] at hstep
    cases hstep
    exact .starting 0 ⟨background.noReplay, background.memory, background.store⟩ (by decide) rfl
      (fun hle => absurd hle (by decide)) (fun hle => absurd hle (by decide)) fun _ => clean
  | starting j background more sys recording log clean =>
    have hnext : ∀ stmt rest, (startStmts profile).drop j = stmt :: rest → m' = { m with
        sys := ⟨m₁.sys.sched.prepareReplay, m₁.sys.activeWorkloads,
          rest.map .start ++ (runProfile profile ++ [.traceStop])⟩
        trace := stmt.run m.ticks m.trace } := by
      intro stmt rest hdrop
      have hsys : m.sys.step none false = .ok (⟨m₁.sys.sched.prepareReplay, m₁.sys.activeWorkloads,
          rest.map .start ++ (runProfile profile ++ [.traceStop])⟩, .start stmt) := by
        rw [sys, hdrop, Sys.step, if_pos (show m₁.sys.sched.prepareReplay.current = 0 from hprompt)]
        rfl
      rw [machine_step background.noReplay hsys] at hstep
      exact (Except.ok.inj hstep).symm
    have hbackground : ∀ {s : Sys} {stmt : StartStmt},
        Background m₁ { m with sys := s, trace := stmt.run m.ticks m.trace } := by
      intro s stmt
      refine ⟨?_, background.memory, background.store⟩
      cases stmt <;> exact background.noReplay
    -- the six stores of `trace_start_profile`, each followed by the next
    obtain rfl | rfl | rfl | rfl | rfl | rfl :
        j = 0 ∨ j = 1 ∨ j = 2 ∨ j = 3 ∨ j = 4 ∨ j = 5 := by omega
    · rw [hnext _ _ rfl]
      exact .starting 1 hbackground (by decide) rfl (fun _ => rfl)
        (fun hle => absurd hle (by decide)) fun _ => clean (by decide)
    · rw [hnext _ _ rfl]
      exact .starting 2 hbackground (by decide) rfl (fun _ => recording le_rfl)
        (fun hle => absurd hle (by decide)) fun _ => clean (by decide)
    · rw [hnext _ _ rfl]
      exact .starting 3 hbackground (by decide) rfl (fun _ => recording (by decide))
        (fun _ => Logging.start m.ticks (recording (by decide)) background.noReplay (clean (by decide)))
        fun hlt => absurd hlt (by decide)
    · rw [hnext _ _ rfl]
      exact .starting 4 hbackground (by decide) rfl (fun _ => recording (by decide))
        (fun _ => (log le_rfl).congr rfl rfl rfl rfl) fun hlt => absurd hlt (by decide)
    · rw [hnext _ _ rfl]
      exact .starting 5 hbackground (by decide) rfl (fun _ => recording (by decide))
        (fun _ => (log (by decide)).congr rfl rfl rfl rfl) fun hlt => absurd hlt (by decide)
    · rw [hnext _ _ rfl]
      exact .running 0 hbackground rfl rfl ((log (by decide)).congr rfl rfl rfl rfl)
  | running k background sys profileSet log =>
    -- the command's own steps, then `trace_stop` behind them
    have hk := hwork.after hsched k
    by_cases hunder : (schedule.after (profileRun profile m₁) k).UnderWay
    · obtain ⟨s', e, hs⟩ := (schedule.after (profileRun profile m₁) k).step_none false
      obtain ⟨hafter, hemit⟩ := schedule_of_step hs
      have hsys : m.sys.step none false = .ok (s'.followedBy [.traceStop], e) := by
        rw [sys, Sys.step_followedBy hunder, hs]
        rfl
      rw [machine_step background.noReplay hsys] at hstep
      rw [← schedule.after_succ] at hafter
      rcases (hk.step hsched hs).2 with rfl | ⟨r, rfl, hpid, hr⟩
      · cases hstep
        refine .running (k + 1) ⟨background.noReplay, background.memory, background.store⟩
          (by rw [hafter]) profileSet ?_
        rw [schedule.emitted_succ, hemit]
        exact (List.append_nil _).symm ▸ log
      · rw [record_call hpid] at hstep
        cases hstep
        refine .running (k + 1) ⟨?_, background.memory, background.store⟩
          (by rw [hafter]) ?_ ?_
        · exact (RecordCall.run_count _ _).2.2.2.trans background.noReplay
        · exact (RecordCall.run_count _ _).2.2.1.trans profileSet
        · rw [schedule.emitted_succ, hemit]
          refine log.request ?_ (htask _ _ hr)
          rw [background.memory]
          exact Request.call_recordedAs m.ticks m₁.memoryUsed r
    · -- the command is at its end, and the session is stored
      have hend : (schedule.after (profileRun profile m₁) k).shell = [] ∧
          (schedule.after (profileRun profile m₁) k).sched.current = 0 := by
        simpa only [Sys.UnderWay, ne_eq, not_or, not_not] using hunder
      have hsys : m.sys.step none false =
          .ok (schedule.after (profileRun profile m₁) k, .traceStop) := by
        rw [sys, Sys.step, if_pos (show (Sys.followedBy _ _).sched.current = 0 from hend.2)]
        simp only [Sys.shellStep, Sys.followedBy, Sys.setShell, hend.1, List.nil_append]
        rw [← hend.1]
      rw [machine_step background.noReplay hsys] at hstep
      refine .stopped ?_
      rw [(Machine.perform_traceStop hstep).1]
      exact hend.1
  | stopped shell =>
    refine .stopped ?_
    unfold Machine.step at hstep
    cases hsys : m.sys.step (traceReplayExpectedNextTask m.trace) m.failed with
    | error f =>
      rw [hsys] at hstep
      cases hstep
    | ok r =>
      rw [hsys] at hstep
      obtain ⟨s', e⟩ := r
      rcases Sys.step_shell hsys with ⟨op, hop, -⟩ | ⟨hkept, rfl | ⟨r, rfl⟩⟩
      · rw [shell] at hop
        cases hop
      · cases hstep
        exact hkept.trans shell
      · cases hstep
        exact hkept.trans shell

theorem sessionOpen_iff {m : Machine} :
    sessionOpen m = true ↔ .start .currentEvents ∉ m.sys.shell := by
  rw [sessionOpen, Bool.not_eq_true', ← Bool.not_eq_true, List.contains_iff_mem]

/-- Before the buffer is emptied every turn is quiet. -/
theorem quietTurn_closed {m : Machine} {i : Interrupt} (h : .start .currentEvents ∈ m.sys.shell) :
    quietTurn (.interrupt i) m = true := by
  have hclosed : sessionOpen m = false := by
    rw [← Bool.not_eq_true, sessionOpen_iff, not_not]
    exact h
  rw [quietTurn, hclosed]
  rfl

theorem quietTurn_open {m : Machine} {i : Interrupt} (h : .start .currentEvents ∉ m.sys.shell) :
    quietTurn (.interrupt i) m = true ↔ stores i m = false := by
  rw [quietTurn, sessionOpen_iff.mpr h, Bool.true_and, Bool.not_eq_true']

theorem Background.interrupt (h : Background m₁ m) (i : Interrupt) :
    Background m₁ (m.interrupt i) ∧ (m.interrupt i).sys = m.sys ∧
      (m.interrupt i).trace.recording = m.trace.recording ∧
      (m.interrupt i).trace.currentProfile = m.trace.currentProfile := by
  rw [Machine.interrupt_eq h.noReplay]
  obtain ⟨hrecording, hprofile, hactive⟩ :=
    recordAll_kept (interruptCalls m.ticks m.sys.sched.currentPid i) m.trace
  exact ⟨⟨hactive.trans h.noReplay, h.memory, h.store⟩, rfl, hrecording, hprofile⟩

/-- **An interrupt to the recording**. -/
theorem RecordStage.interrupt (hsched : ∀ word, P .sched (.word word))
    (hwork : Working P (profileRun profile m₁)) (h : RecordStage profile m₁ quiet m)
    (i : Interrupt) :
    RecordStage profile m₁ (quiet ∧ quietTurn (.interrupt i) m = true) (m.interrupt i) := by
  have hopen : .start .currentEvents ∉ m.sys.shell →
      (quiet ∧ stores i m = false) = (quiet ∧ quietTurn (.interrupt i) m = true) := by
    intro hnot
    rw [quietTurn_open hnot]
  have hidle : ShellOp.start .currentEvents ∉ runProfile profile ++ [.traceStop] := by
    simp [runProfile]
  cases h with
  | typed background sys clean =>
    obtain ⟨hbackground, hsys, -⟩ := background.interrupt i
    refine .typed hbackground (hsys.trans sys) ⟨clean, quietTurn_closed ?_⟩
    rw [sys]
    simp [demoRecord, startStmts]
  | starting j background more sys recording log clean =>
    obtain ⟨hbackground, hsys, hrecording, -⟩ := background.interrupt i
    refine .starting j hbackground more (hsys.trans sys)
      (fun hle => hrecording.trans (recording hle)) (fun hle => ?_) fun hlt => ⟨clean hlt, ?_⟩
    · rw [← hopen]
      · exact (log hle).interrupt i
      · rw [sys, List.mem_append, not_or]
        refine ⟨?_, hidle⟩
        obtain rfl | rfl | rfl : j = 3 ∨ j = 4 ∨ j = 5 := by omega
        · simp [startStmts]
        · simp [startStmts]
        · simp [startStmts]
    · refine quietTurn_closed ?_
      rw [sys]
      refine List.mem_append_left _ ?_
      obtain rfl | rfl | rfl : j = 0 ∨ j = 1 ∨ j = 2 := by omega
      · simp [startStmts]
      · simp [startStmts]
      · simp [startStmts]
  | running k background sys profileSet log =>
    obtain ⟨hbackground, hsys, -, hprofile⟩ := background.interrupt i
    refine .running k hbackground (hsys.trans sys) (hprofile.trans profileSet) ?_
    rw [← hopen]
    · exact log.interrupt i
    · rw [sys]
      intro hin
      rcases List.mem_append.mp hin with hin | hin
      · rcases (hwork.after hsched k).shell _ hin with hop | ⟨w, hop, -⟩
        · cases hop
        · cases hop
      · rw [List.mem_singleton] at hin
        cases hin
  | stopped shell =>
    refine .stopped ?_
    by_cases hreplay : m.trace.replay.active = true
    · rw [Machine.interrupt_replaying hreplay]
      exact shell
    · rw [Machine.interrupt_eq (Bool.not_eq_true _ |>.mp hreplay)]
      exact shell

/-- **The whole recording**. -/
theorem RecordStage.run (hsched : ∀ word, P .sched (.word word))
    (htask : ∀ type d, P type d → ofHandler type.code = false) (hprompt : m₁.sys.sched.current = 0)
    (hwork : Working P (profileRun profile m₁)) :
    ∀ {turns : List Turn} {quiet : Prop} {m m' : Machine}, RecordStage profile m₁ quiet m →
      m.run turns = .ok m' → RecordStage profile m₁ (quiet ∧ quietRun turns m = true) m' := by
  intro turns
  induction turns with
  | nil =>
    intro quiet m m' h hrun
    cases hrun
    rw [quietRun, show (quiet ∧ true = true) = quiet from propext (and_iff_left rfl)]
    exact h
  | cons turn turns ih =>
    intro quiet m m' h hrun
    rw [Machine.run] at hrun
    cases hturn : m.turn turn with
    | error f =>
      rw [hturn] at hrun
      cases hrun
    | ok m'' =>
      rw [hturn] at hrun
      have hquiet : (quiet ∧ quietRun (turn :: turns) m = true) =
          ((quiet ∧ quietTurn turn m = true) ∧ quietRun turns m'' = true) := by
        rw [quietRun, hturn, Bool.and_eq_true, and_assoc]
      rw [hquiet]
      refine ih ?_ hrun
      cases turn with
      | step =>
        rw [quietTurn, show (quiet ∧ true = true) = quiet from propext (and_iff_left rfl)]
        exact h.step hsched htask hprompt hwork hturn
      | interrupt i =>
        cases hturn
        exact h.interrupt hsched hwork i

/-- **The session**: what the recorder has when the shell comes to `trace_stop`. -/
theorem session_of_run (hsched : ∀ word, P .sched (.word word))
    (htask : ∀ type d, P type d → ofHandler type.code = false) (h₁ : Prompt m₁)
    (hwork : Working P (profileRun profile m₁)) {turns : List Turn}
    (hrun : (m₁.type (demoRecord profile)).run turns = .ok m) (hstop : m.sys.shell = [.traceStop]) :
    ∃ k, Background m₁ m ∧ m.trace.currentProfile = profile ∧
      ¬ (schedule.after (profileRun profile m₁) k).UnderWay ∧
      Logging m₁.memoryUsed (schedule.emitted (profileRun profile m₁) k)
        (quietRun turns (m₁.type (demoRecord profile)) = true) m.trace := by
  have hstart : RecordStage profile m₁ True (m₁.type (demoRecord profile)) :=
    .typed ⟨h₁.noReplay, rfl, rfl⟩ rfl trivial
  have hstage := hstart.run hsched htask h₁.shell hwork hrun
  rw [show (True ∧ quietRun turns (m₁.type (demoRecord profile)) = true) =
    (quietRun turns (m₁.type (demoRecord profile)) = true) from propext (and_iff_right trivial)]
    at hstage
  have hlong : ∀ ops : List ShellOp, ops ++ (runProfile profile ++ [.traceStop]) ≠ [.traceStop] := by
    intro ops heq
    have hlength := congrArg List.length heq
    simp only [runProfile, List.length_append, List.length_map, List.length_cons, List.length_nil]
      at hlength
    omega
  cases hstage with
  | typed background sys clean =>
    rw [sys] at hstop
    exact absurd hstop (hlong (.prepareReplay :: (startStmts profile).map .start))
  | starting j background more sys recording log clean =>
    rw [sys] at hstop
    exact absurd hstop (hlong _)
  | running k background sys profileSet log =>
    have hnil : (schedule.after (profileRun profile m₁) k).shell = [] := by
      rw [sys] at hstop
      exact List.append_cancel_right (hstop.trans (List.nil_append _).symm)
    refine ⟨k, background, profileSet, ?_, log⟩
    rintro (hmore | hcur)
    · exact hmore hnil
    · exact hcur ((hwork.after hsched k).done hnil)
  | stopped shell =>
    rw [shell] at hstop
    cases hstop

end

end Proof
end BumbelBee
