import Mathlib.Algebra.Group.Nat.Defs
import BumbelBee.Kernel.Sched

/-!
# The task table over whole runs

`Consistent` is what the scheduler keeps from `sched_init` on: the current slot is the one
that runs, and the shell in slot 0 is running or ready. So a task that exits always finds
somebody to switch to, if only the shell.

Pids are another matter. The counter only grows but for `sched_prepare_replay`, which winds
it back to 2 whether or not a task is still alive; `Numbered` holds as long as none is.

The table is used from two sides. A yield leaves the current task ready and looks for another; an
exit leaves it a zombie, and there has to be another one, since the call does not come back. The
shell is that one, because it never exits: this is a property of who calls `task_exit`, and
`Enabled` is where it is said.
-/

namespace BumbelBee
namespace Kernel

section
variable {α : Type} {s : Sched α}

/-! ## The states a step leaves -/

theorem Sched.isReady_iff {i : Fin maxTasks} :
    s.isReady i = true ↔ s.state i = some .ready := by
  unfold Sched.isReady Sched.state
  cases s.tasks i with
  | none => simp
  | some t => simp

theorem Sched.isZombie_iff {i : Fin maxTasks} :
    s.isZombie i = true ↔ s.state i = some .zombie := by
  unfold Sched.isZombie Sched.state
  cases s.tasks i with
  | none => simp
  | some t => simp

theorem Sched.state_setCode (s : Sched α) (code : α) (i : Fin maxTasks) :
    (s.setCode code).state i = s.state i := by
  unfold Sched.state Sched.setCode
  by_cases hi : i = s.current
  · subst hi
    simp only [Function.update_self]
    cases s.tasks s.current <;> rfl
  · simp only [Function.update_of_ne hi]

theorem Sched.state_retire (s : Sched α) (halted : α) (i : Fin maxTasks) :
    (s.retire halted).state i =
      if i = s.current then (s.state i).map fun _ => .zombie else s.state i := by
  unfold Sched.state Sched.retire
  by_cases hi : i = s.current
  · subst hi
    simp only [Function.update_self, if_true]
    cases s.tasks s.current <;> rfl
  · simp only [Function.update_of_ne hi, if_neg hi]

theorem Task.preempt_state (t : Task α) :
    t.preempt.state = if t.state = .running then .ready else t.state := by
  unfold Task.preempt
  split <;> rfl

theorem Sched.state_switchTo (s : Sched α) (next i : Fin maxTasks) :
    (s.switchTo next).state i =
      if i = next then (s.state i).map fun _ => .running
      else if i = s.current then
        (s.state i).map fun st => if st = .running then .ready else st
      else s.state i := by
  unfold Sched.state Sched.switchTo
  by_cases hnext : i = next
  · simp only [if_pos hnext]
    cases s.tasks i <;> rfl
  · simp only [if_neg hnext]
    by_cases hcur : i = s.current
    · simp only [if_pos hcur]
      cases s.tasks i with
      | none => rfl
      | some t => simp only [Option.map_some, t.preempt_state]
    · simp only [if_neg hcur]

theorem Sched.state_spawn {i : Fin maxTasks} (h : s.freeSlot = some i) (code : α)
    (j : Fin maxTasks) :
    (s.spawn code).2.state j =
      if j = i then (if visiblePid s.nextPid then some .ready else none) else s.state j := by
  unfold Sched.state Sched.spawn
  simp only [h]
  by_cases hj : j = i
  · subst hj
    simp only [Function.update_self, if_true]
    split <;> rfl
  · simp only [Function.update_of_ne hj, if_neg hj]

theorem Sched.state_prepareReplay (s : Sched α) (i : Fin maxTasks) :
    s.prepareReplay.state i =
      if i ≠ 0 ∧ s.state i = some .zombie then none else s.state i := by
  simp only [← Sched.isZombie_iff]
  unfold Sched.state Sched.prepareReplay
  simp only
  split <;> rfl

theorem Sched.spawn_none (h : s.freeSlot = none) (code : α) : s.spawn code = (none, s) := by
  simp only [Sched.spawn, h]

/-- **A spawn takes an empty slot or a zombie's**, and never the shell's. -/
theorem Sched.freeSlot_free {i : Fin maxTasks} (h : s.freeSlot = some i) :
    i ≠ 0 ∧ (s.state i = none ∨ s.state i = some .zombie) := by
  have hfree := List.find?_some h
  have hmem := List.mem_of_find?_eq_some h
  constructor
  · rintro rfl
    revert hmem
    decide
  · simp only [Bool.or_eq_true, Bool.not_eq_eq_eq_not, Bool.not_true] at hfree
    rcases hfree with hfree | hfree
    · left
      simpa [Sched.taskVisible, Sched.state] using hfree
    · exact Or.inr (Sched.isZombie_iff.mp hfree)

/-! ## Who is still at work

A zombie keeps its slot, its name and its pid, and runs nothing. Most of the books are kept over the
live tasks, so what each call does to them is said here once.
-/

/-- What the task of a slot has to run; a zombie runs nothing. -/
def Sched.liveAt (s : Sched α) (i : Fin maxTasks) : Option α :=
  (s.tasks i).bind fun t => if t.state = .zombie then none else some t.code

theorem Sched.liveAt_free {i : Fin maxTasks} (h : s.state i = none ∨ s.state i = some .zombie) :
    s.liveAt i = none := by
  unfold Sched.state at h
  unfold Sched.liveAt
  cases ht : s.tasks i with
  | none => rfl
  | some t =>
    rw [ht] at h
    rcases h with h | h
    · cases h
    · rw [Option.bind_some, if_pos (Option.some.inj h)]

theorem Sched.liveAt_of_task {i : Fin maxTasks} {t : Task α} (h : s.tasks i = some t)
    (hlive : t.state ≠ .zombie) : s.liveAt i = some t.code := by
  rw [Sched.liveAt, h, Option.bind_some, if_neg hlive]

/-- Switching to a ready slot makes no zombie and revives none. -/
theorem Sched.liveAt_switchTo {next : Fin maxTasks} (h : s.isReady next = true) :
    (s.switchTo next).liveAt = s.liveAt := by
  funext i
  unfold Sched.liveAt Sched.switchTo
  simp only
  split
  · rename_i hi
    obtain ⟨t, ht, hready⟩ := Sched.isReady_some h
    subst hi
    simp [ht, hready]
  · split
    · cases s.tasks i with
      | none => rfl
      | some t =>
        simp only [Option.map_some, Option.bind_some, Task.preempt]
        split
        · rename_i hrun
          simp [hrun]
        · rfl
    · rfl

theorem Sched.liveAt_retire (halted : α) :
    (s.retire halted).liveAt = Function.update s.liveAt s.current none := by
  funext i
  by_cases hi : i = s.current
  · subst hi
    rw [Function.update_self]
    unfold Sched.liveAt Sched.retire
    simp only [Function.update_self]
    cases s.tasks s.current <;> rfl
  · rw [Function.update_of_ne hi]
    unfold Sched.liveAt Sched.retire
    simp only [Function.update_of_ne hi]

theorem Sched.liveAt_spawn {i : Fin maxTasks} (h : s.freeSlot = some i) (code : α) :
    (s.spawn code).2.liveAt = Function.update s.liveAt i
      (if visiblePid s.nextPid then some code else none) := by
  funext j
  unfold Sched.liveAt Sched.spawn
  simp only [h]
  by_cases hj : j = i
  · subst hj
    simp only [Function.update_self]
    split <;> rfl
  · simp only [Function.update_of_ne hj]

theorem Sched.liveAt_prepareReplay : s.prepareReplay.liveAt = s.liveAt := by
  funext i
  by_cases hz : i ≠ 0 ∧ s.isZombie i = true
  · rw [Sched.liveAt_free (Or.inr (Sched.isZombie_iff.mp hz.2)), Sched.liveAt, Sched.prepareReplay]
    simp only [if_pos hz, Option.bind_none]
  · unfold Sched.liveAt Sched.prepareReplay
    simp only [if_neg hz]

/-! ## One task runs, and the shell is never far

The invariant is about one slot and the shell's, and nothing more is needed: a switch goes from the
slot that runs to one that is ready, and as long as the shell is one of the two there is always
somewhere to go.
-/

structure Sched.Consistent (s : Sched α) : Prop where
  running : ∀ i, s.state i = some .running ↔ i = s.current
  shell : s.state 0 = some .ready ∨ s.state 0 = some .running

theorem Sched.Consistent.init (code : α) : (schedInit code).Consistent where
  running i := by
    simp only [schedInit, Sched.state]
    split <;> simp_all
  shell := Or.inr rfl

theorem Sched.Consistent.setCode (h : s.Consistent) (code : α) : (s.setCode code).Consistent where
  running i := by
    rw [s.state_setCode]
    exact h.running i
  shell := by
    rw [s.state_setCode]
    exact h.shell

theorem Sched.Consistent.spawn (h : s.Consistent) (code : α) : (s.spawn code).2.Consistent := by
  cases hslot : s.freeSlot with
  | none =>
    rw [Sched.spawn_none hslot]
    exact h
  | some i =>
    obtain ⟨hne, hfree⟩ := Sched.freeSlot_free hslot
    have hcur : i ≠ s.current := fun hi => by
      rw [(h.running i).mpr hi] at hfree
      rcases hfree with hfree | hfree <;> cases hfree
    have hsame : (s.spawn code).2.current = s.current := by simp only [Sched.spawn, hslot]
    constructor
    · intro j
      rw [Sched.state_spawn hslot, hsame]
      by_cases hj : j = i
      · subst hj
        rw [if_pos rfl]
        refine iff_of_false ?_ hcur
        split <;> simp
      · rw [if_neg hj]
        exact h.running j
    · rw [Sched.state_spawn hslot, if_neg (Ne.symm hne)]
      exact h.shell

theorem Sched.Consistent.prepareReplay (h : s.Consistent) : s.prepareReplay.Consistent where
  running i := by
    rw [s.state_prepareReplay, ← show s.current = s.prepareReplay.current from rfl, ← h.running i]
    split
    · rename_i hz
      simp [hz.2]
    · exact Iff.rfl
  shell := by
    rw [s.state_prepareReplay, if_neg fun hz => hz.1 rfl]
    exact h.shell

/-- Switching from one slot to a ready one. -/
theorem Sched.switchTo_consistent {next : Fin maxTasks} (hnext : s.state next = some .ready)
    (hrunning : ∀ i, s.state i = some .running → i = s.current)
    (hshell : s.state 0 = some .ready ∨ s.state 0 = some .running) :
    (s.switchTo next).Consistent where
  running i := by
    rw [s.state_switchTo, show (s.switchTo next).current = next from rfl]
    by_cases hi : i = next
    · subst hi
      simp [hnext]
    · rw [if_neg hi]
      refine iff_of_false ?_ hi
      by_cases hcur : i = s.current
      · rw [if_pos hcur]
        cases s.state i with
        | none => simp
        | some st => cases st <;> simp
      · rw [if_neg hcur]
        exact fun hrun => hcur (hrunning i hrun)
  shell := by
    rw [s.state_switchTo]
    split
    · rcases hshell with hs | hs <;> simp [hs]
    · split
      · rcases hshell with hs | hs <;> simp [hs]
      · exact hshell

theorem Sched.Consistent.found_ne (h : s.Consistent) {next : Fin maxTasks}
    (hfound : s.findNextReady = some next) : next ≠ s.current := by
  intro hcur
  have hready := Sched.isReady_iff.mp (Sched.findNextReady_ready hfound)
  rw [(h.running next).mpr hcur] at hready
  cases hready

theorem Sched.Consistent.yield (h : s.Consistent) : s.yield.Consistent := by
  unfold Sched.yield
  cases hfound : s.findNextReady with
  | none => exact h
  | some next =>
    simp only [Sched.dispatch, if_neg (h.found_ne hfound)]
    exact Sched.switchTo_consistent (Sched.isReady_iff.mp (Sched.findNextReady_ready hfound))
      (fun i => (h.running i).mp) h.shell

/-- **A yield moves nothing but the state** of a task, and that between ready and running. -/
theorem Sched.yield_tasks (s : Sched α) (i : Fin maxTasks) :
    ∃ f : Task α → Task α, s.yield.tasks i = (s.tasks i).map f ∧ ∀ t, s.tasks i = some t →
      (f t).code = t.code ∧ (f t).pid = t.pid ∧ ((f t).state = .zombie ↔ t.state = .zombie) := by
  have hstay : ∃ f : Task α → Task α, s.tasks i = (s.tasks i).map f ∧ ∀ t, s.tasks i = some t →
      (f t).code = t.code ∧ (f t).pid = t.pid ∧ ((f t).state = .zombie ↔ t.state = .zombie) :=
    ⟨id, by simp, fun t _ => ⟨rfl, rfl, Iff.rfl⟩⟩
  unfold Sched.yield
  cases hfound : s.findNextReady with
  | none => exact hstay
  | some next =>
    simp only [Sched.dispatch]
    split
    · exact hstay
    · simp only [Sched.switchTo]
      split
      · rename_i hi
        refine ⟨fun t => { t with state := .running }, rfl, fun t ht => ⟨rfl, rfl, ?_⟩⟩
        obtain ⟨t', ht', hready⟩ := Sched.isReady_some (Sched.findNextReady_ready hfound)
        rw [hi, ht', Option.some.injEq] at ht
        subst ht
        simp [hready]
      · split
        · refine ⟨Task.preempt, rfl, fun t _ => ?_⟩
          unfold Task.preempt
          split
          · rename_i hrun
            exact ⟨rfl, rfl, by simp [hrun]⟩
          · exact ⟨rfl, rfl, Iff.rfl⟩
        · exact hstay

/-- Behind slot 0 the shell is ready. -/
theorem Sched.Consistent.shell_ready (h : s.Consistent) (hcur : s.current ≠ 0) :
    s.state 0 = some .ready := by
  rcases h.shell with hs | hs
  · exact hs
  · exact absurd ((h.running 0).mp hs).symm hcur

/-- A task behind slot 0 that yields finds somebody. -/
theorem Sched.Consistent.found (h : s.Consistent) (hcur : s.current ≠ 0) :
    ∃ next, s.findNextReady = some next :=
  Option.isSome_iff_exists.mp
    (Sched.findNextReady_isSome (Sched.isReady_iff.mpr (h.shell_ready hcur)))

/-- With the running task a zombie nobody runs elsewhere, and the shell is as it was. -/
theorem Sched.Consistent.retired (h : s.Consistent) (hcur : s.current ≠ 0) (halted : α) :
    (∀ i, (s.retire halted).state i = some .running → i = s.current) ∧
      ((s.retire halted).state 0 = some .ready ∨ (s.retire halted).state 0 = some .running) := by
  refine ⟨fun i hrun => ?_, ?_⟩
  · rw [s.state_retire] at hrun
    split at hrun
    · assumption
    · exact (h.running i).mp hrun
  · rw [s.state_retire, if_neg (Ne.symm hcur)]
    exact h.shell

/-- **A task that exits** finds a ready slot, and it is not its own. -/
theorem Sched.Consistent.exit_found (h : s.Consistent) (hcur : s.current ≠ 0) (halted : α) :
    ∃ next, (s.retire halted).findNextReady = some next ∧ next ≠ s.current := by
  have hshell : (s.retire halted).state 0 = some .ready := by
    rw [s.state_retire, if_neg (Ne.symm hcur)]
    exact h.shell_ready hcur
  obtain ⟨next, hnext⟩ := Option.isSome_iff_exists.mp
    (Sched.findNextReady_isSome (Sched.isReady_iff.mpr hshell))
  refine ⟨next, hnext, fun hsame => ?_⟩
  have hready := Sched.isReady_iff.mp (Sched.findNextReady_ready hnext)
  rw [s.state_retire, if_pos hsame, (h.running next).mpr hsame] at hready
  cases hready

theorem Sched.Consistent.taskExit (h : s.Consistent) (hcur : s.current ≠ 0) (halted : α) :
    (s.taskExit halted).Consistent := by
  obtain ⟨next, hnext, hne⟩ := h.exit_found hcur halted
  have hdispatch : s.taskExit halted = (s.retire halted).switchTo next := by
    simp only [Sched.taskExit, Sched.yield, hnext, Sched.dispatch]
    exact if_neg hne
  rw [hdispatch]
  obtain ⟨hrunning, hshell⟩ := h.retired hcur halted
  exact Sched.switchTo_consistent (Sched.isReady_iff.mp (Sched.findNextReady_ready hnext))
    hrunning hshell

end

end Kernel

namespace Proof

open Kernel

variable {α : Type}

/-! ## Runs of the scheduler

Any code may run in the tasks, so the table's steps are the calls it makes of the scheduler, in any
order. An exit is enabled in every task but the shell.
-/

/-- The calls that reach the task table while no replay is active. -/
inductive SchedOp (α : Type)
  | spawn (code : α)
  | yield
  /-- `sched_tick`: it counts, and asks for a switch nobody makes. -/
  | tick
  | prepareReplay
  | exit (halted : α)

def SchedOp.run : SchedOp α → Sched α → Sched α
  | .spawn code, s => (s.spawn code).2
  | .yield, s => s.yield
  | .tick, s => s
  | .prepareReplay, s => s.prepareReplay
  | .exit halted, s => s.taskExit halted

/-- The shell has no `task_exit` to come to. -/
def SchedOp.Enabled (s : Sched α) : SchedOp α → Prop
  | .exit _ => s.current ≠ 0
  | _ => True

/-- The slot `switch_to` is handed, and the table it finds. -/
def SchedOp.dispatches (s : Sched α) : SchedOp α → Option (Fin maxTasks × Sched α)
  | .yield => s.findNextReady.map (·, s)
  | .exit halted => (s.retire halted).findNextReady.map (·, s.retire halted)
  | _ => none

/-- What `sched_init` and any calls after it reach. -/
inductive SchedReaches : Sched α → Prop
  | init (code : α) : SchedReaches (schedInit code)
  | step {s : Sched α} (op : SchedOp α) (h : SchedReaches s) (henabled : op.Enabled s) :
      SchedReaches (op.run s)

theorem Consistent.step {s : Sched α} (h : s.Consistent) (op : SchedOp α)
    (henabled : op.Enabled s) : (op.run s).Consistent := by
  cases op with
  | spawn code => exact h.spawn code
  | yield => exact h.yield
  | tick => exact h
  | prepareReplay => exact h.prepareReplay
  | exit halted => exact h.taskExit henabled halted

theorem SchedReaches.consistent {s : Sched α} (h : SchedReaches s) : s.Consistent := by
  induction h with
  | init code => exact Sched.Consistent.init code
  | step op _ henabled ih => exact Consistent.step ih op henabled

/-- **The scheduler's invariant**, in every state it reaches: the current slot and no other
    runs; the shell is ready or runs; a task that exits finds a ready slot; every slot that is
    switched to is ready; and a spawn takes no live task's slot.

    `h` is any run from `sched_init` of yields, spawns, ticks, exits and clearings for a replay, in
    any order, with any code in the tasks. The parts are about the next call: what an exit finds,
    what a dispatch goes to, and which slot a spawn takes. -/
theorem scheduler_invariant {s : Sched α} (h : SchedReaches s) :
    (∀ i, s.state i = some .running ↔ i = s.current) ∧
      (s.state 0 = some .ready ∨ s.state 0 = some .running) ∧
      (s.current ≠ 0 → ∀ halted, ∃ next, (s.retire halted).findNextReady = some next ∧
        s.taskExit halted = (s.retire halted).switchTo next) ∧
      (∀ op : SchedOp α, op.Enabled s → ∀ next t, op.dispatches s = some (next, t) →
        t.taskVisible next = true ∧ t.state next = some .ready) ∧
      ∀ i, s.freeSlot = some i → s.state i ≠ some .ready ∧ s.state i ≠ some .running := by
  have hs := h.consistent
  refine ⟨hs.running, hs.shell, fun hcur halted => ?_, fun op _ next t hd => ?_, fun i hi => ?_⟩
  · obtain ⟨next, hnext, hne⟩ := hs.exit_found hcur halted
    refine ⟨next, hnext, ?_⟩
    simp only [Sched.taskExit, Sched.yield, hnext, Sched.dispatch]
    exact if_neg hne
  · have hready : t.isReady next = true := by
      cases op with
      | yield =>
        obtain ⟨i, hi, heq⟩ := Option.map_eq_some_iff.mp hd
        cases heq
        exact Sched.findNextReady_ready hi
      | exit halted =>
        obtain ⟨i, hi, heq⟩ := Option.map_eq_some_iff.mp hd
        cases heq
        exact Sched.findNextReady_ready hi
      | spawn => cases hd
      | tick => cases hd
      | prepareReplay => cases hd
    obtain ⟨task, htask, -⟩ := Sched.isReady_some hready
    exact ⟨by rw [Sched.taskVisible, htask]; rfl, Sched.isReady_iff.mp hready⟩
  · rcases (Sched.freeSlot_free hi).2 with hfree | hfree <;> simp [hfree]

/-- A table after two spawns, a switch to the first task and its exit: the second task runs. -/
def sampleTable : Sched Unit :=
  [SchedOp.spawn (), .spawn (), .yield, .tick, .exit ()].foldl (fun s op => op.run s) (schedInit ())

theorem scheduler_invariant_sample :
    (∀ i, sampleTable.state i = some .running ↔ i = sampleTable.current) ∧
      sampleTable.current = 2 := by
  have hreaches : SchedReaches sampleTable :=
    .step (.exit ()) (.step .tick (.step .yield (.step (.spawn ()) (.step (.spawn ())
      (.init ()) trivial) trivial) trivial) trivial) (by rw [SchedOp.Enabled]; decide)
  exact ⟨(scheduler_invariant hreaches).1, by decide⟩

/-! ## Pids

A run is measured by the number of its spawns, which is also what bounds the counter. A replay
chooses its own switches, and for the pids it makes no difference.
-/

/-- The pid a visible slot shows. -/
def pidAt (s : Sched α) (i : Fin maxTasks) : Option UInt32 := (s.tasks i).map Task.pid

/-- Nobody is alive but the shell. -/
def Alone (s : Sched α) : Prop := ∀ i, i ≠ 0 → s.state i = none ∨ s.state i = some .zombie

/-- The tables that `n` spawns, any switches (a replay's own choices among them), any exits
    and the `sched_prepare_replay` of a demo command reach, each of the last made in a state
    that has the property. -/
inductive PidReaches (P : Sched α → Prop) : Nat → Sched α → Prop
  | init (code : α) : PidReaches P 0 (schedInit code)
  | spawn {n : Nat} {s : Sched α} (code : α) (h : PidReaches P n s) :
      PidReaches P (n + 1) (s.spawn code).2
  | dispatch {n : Nat} {s : Sched α} (next : Fin maxTasks) (h : PidReaches P n s) :
      PidReaches P n (s.dispatch next)
  | retire {n : Nat} {s : Sched α} (halted : α) (h : PidReaches P n s) :
      PidReaches P n (s.retire halted)
  | prepareReplay {n : Nat} {s : Sched α} (h : PidReaches P n s) (hs : P s) :
      PidReaches P n s.prepareReplay

theorem pidAt_retire (s : Sched α) (halted : α) (i : Fin maxTasks) :
    pidAt (s.retire halted) i = pidAt s i := by
  unfold pidAt Sched.retire
  by_cases hi : i = s.current
  · subst hi
    simp only [Function.update_self]
    cases s.tasks s.current <;> rfl
  · simp only [Function.update_of_ne hi]

theorem pidAt_dispatch (s : Sched α) (next i : Fin maxTasks) :
    pidAt (s.dispatch next) i = pidAt s i := by
  unfold pidAt Sched.dispatch
  split
  · rfl
  · unfold Sched.switchTo
    simp only
    split
    · cases s.tasks i <;> rfl
    · split
      · cases s.tasks i with
        | none => rfl
        | some t =>
          simp only [Option.map_some, Task.preempt]
          split <;> rfl
      · rfl

theorem pidAt_spawn {s : Sched α} {i : Fin maxTasks} (h : s.freeSlot = some i) (code : α)
    (j : Fin maxTasks) :
    pidAt (s.spawn code).2 j =
      if j = i then (if visiblePid s.nextPid then some s.nextPid else none) else pidAt s j := by
  unfold pidAt Sched.spawn
  simp only [h]
  by_cases hj : j = i
  · subst hj
    simp only [Function.update_self, if_true]
    split <;> rfl
  · simp only [Function.update_of_ne hj, if_neg hj]

theorem pidAt_prepareReplay {s : Sched α} {i : Fin maxTasks} {p : UInt32}
    (h : pidAt s.prepareReplay i = some p) : pidAt s i = some p ∧ (i = 0 ∨ s.state i ≠ some .zombie) := by
  unfold pidAt Sched.prepareReplay at h
  simp only at h
  split at h
  · cases h
  · rename_i hz
    refine ⟨h, ?_⟩
    by_cases hi : i = 0
    · exact Or.inl hi
    · exact Or.inr fun hs => hz ⟨hi, Sched.isZombie_iff.mpr hs⟩

/-- Every pid but the shell's is below the counter, and no two slots show the same. -/
structure Numbered (n : Nat) (s : Sched α) : Prop where
  shell : pidAt s 0 = some 1
  issued : ∀ i p, i ≠ 0 → pidAt s i = some p → 2 ≤ p.toNat ∧ p.toNat < s.nextPid.toNat
  distinct : ∀ i j p, pidAt s i = some p → pidAt s j = some p → i = j
  next : 2 ≤ s.nextPid.toNat ∧ s.nextPid.toNat ≤ 2 + n

theorem Numbered.init (code : α) : Numbered 0 (schedInit code) where
  shell := rfl
  issued i p hi hp := by simp [pidAt, schedInit, hi] at hp
  distinct i j p hi hj := by
    unfold pidAt schedInit at hi hj
    simp only at hi hj
    split at hi
    · split at hj
      · simp_all
      · cases hj
    · cases hi
  next := ⟨le_rfl, le_rfl⟩

/-- What is in use lies below the counter, the shell's included. -/
theorem Numbered.below {n : Nat} {s : Sched α} (h : Numbered n s) {i : Fin maxTasks} {p : UInt32}
    (hp : pidAt s i = some p) : p.toNat < s.nextPid.toNat := by
  by_cases hi : i = 0
  · subst hi
    rw [h.shell] at hp
    cases hp
    exact h.next.1
  · exact (h.issued i p hi hp).2

theorem Numbered.spawn {n : Nat} {s : Sched α} (h : Numbered n s) (hn : n + 1 < 2 ^ 31)
    (code : α) : Numbered (n + 1) (s.spawn code).2 := by
  cases hslot : s.freeSlot with
  | none =>
    rw [Sched.spawn_none hslot]
    exact ⟨h.shell, h.issued, h.distinct, h.next.1, h.next.2.trans (by omega)⟩
  | some i =>
    have hne := (Sched.freeSlot_free hslot).1
    have hlow := h.next.1
    have hhigh := h.next.2
    have hnext : (s.spawn code).2.nextPid.toNat = s.nextPid.toNat + 1 := by
      simp only [Sched.spawn, hslot]
      rw [UInt32.toNat_add]
      simp only [UInt32.reduceToNat]
      omega
    -- a pid that is seen afterwards is the new one, or was seen before
    have hnew : ∀ {j : Fin maxTasks} {p : UInt32}, pidAt (s.spawn code).2 j = some p →
        j = i ∧ p = s.nextPid ∨ j ≠ i ∧ pidAt s j = some p := by
      intro j p hp
      rw [pidAt_spawn hslot] at hp
      split at hp
      · split at hp
        · cases hp
          exact Or.inl ⟨by assumption, rfl⟩
        · cases hp
      · exact Or.inr ⟨by assumption, hp⟩
    refine ⟨?_, fun j p hj hp => ?_, fun j k p hj hk => ?_, by omega, by omega⟩
    · rw [pidAt_spawn hslot, if_neg (Ne.symm hne)]
      exact h.shell
    · rcases hnew hp with ⟨-, rfl⟩ | ⟨-, hold⟩
      · omega
      · have := h.issued j p hj hold
        omega
    · rcases hnew hj with ⟨rfl, rfl⟩ | ⟨-, hold⟩
      · rcases hnew hk with ⟨rfl, -⟩ | ⟨-, hold'⟩
        · rfl
        · exact absurd (h.below hold') (lt_irrefl _)
      · rcases hnew hk with ⟨rfl, rfl⟩ | ⟨-, hold'⟩
        · exact absurd (h.below hold) (lt_irrefl _)
        · exact h.distinct j k p hold hold'

theorem Numbered.dispatch {n : Nat} {s : Sched α} (h : Numbered n s) (next : Fin maxTasks) :
    Numbered n (s.dispatch next) := by
  have hnext : (s.dispatch next).nextPid = s.nextPid := by
    unfold Sched.dispatch
    split <;> rfl
  refine ⟨?_, fun i p hi hp => ?_, fun i j p hi hj => ?_, hnext ▸ h.next⟩
  · rw [pidAt_dispatch]
    exact h.shell
  · rw [pidAt_dispatch] at hp
    rw [hnext]
    exact h.issued i p hi hp
  · rw [pidAt_dispatch] at hi hj
    exact h.distinct i j p hi hj

theorem Numbered.retire {n : Nat} {s : Sched α} (h : Numbered n s) (halted : α) :
    Numbered n (s.retire halted) := by
  refine ⟨?_, fun i p hi hp => ?_, fun i j p hi hj => ?_, h.next⟩
  · rw [pidAt_retire]
    exact h.shell
  · rw [pidAt_retire] at hp
    exact h.issued i p hi hp
  · rw [pidAt_retire] at hi hj
    exact h.distinct i j p hi hj

/-- With nobody else alive the counter can start over. -/
theorem Numbered.prepareReplay {n : Nat} {s : Sched α} (h : Numbered n s) (halone : Alone s) :
    Numbered n s.prepareReplay := by
  have hshell : ∀ {i : Fin maxTasks} {p : UInt32}, pidAt s.prepareReplay i = some p → i = 0 := by
    intro i p hp
    obtain ⟨hold, hi | hlive⟩ := pidAt_prepareReplay hp
    · exact hi
    · by_contra hi
      rcases halone i hi with hnone | hz
      · unfold Sched.state at hnone
        unfold pidAt at hold
        rw [Option.map_eq_none_iff] at hnone
        rw [hnone] at hold
        cases hold
      · exact hlive hz
  refine ⟨?_, fun i p hi hp => absurd (hshell hp) hi, fun i j p hi hj => ?_, ?_⟩
  · rw [← h.shell]
    unfold pidAt Sched.prepareReplay
    simp
  · rw [hshell hi, hshell hj]
  · exact ⟨le_rfl, Nat.le_add_right 2 n⟩

theorem PidReaches.numbered {n : Nat} {s : Sched α} (h : PidReaches Alone n s) (hn : n < 2 ^ 31) :
    Numbered n s := by
  induction h with
  | init code => exact Numbered.init code
  | spawn code _ ih => exact (ih (by omega)).spawn hn code
  | dispatch next _ ih => exact (ih hn).dispatch next
  | retire halted _ ih => exact (ih hn).retire halted
  | prepareReplay _ halone ih => exact (ih hn).prepareReplay halone

/-- A pid finds the slot that shows it, when there is only one. -/
theorem findTask_pidAt {s : Sched α}
    (hdistinct : ∀ i j p, pidAt s i = some p → pidAt s j = some p → i = j) {i : Fin maxTasks}
    {p : UInt32} (hp : pidAt s i = some p) : s.findTask p = some i := by
  have hshows : ∀ j, (s.taskVisible j && s.pid j == p) = true ↔ pidAt s j = some p := by
    intro j
    unfold Sched.taskVisible Sched.pid pidAt
    cases s.tasks j <;> simp
  have hsome : (s.findTask p).isSome = true := by
    rw [Sched.findTask, List.find?_isSome]
    exact ⟨i, List.mem_finRange i, (hshows i).mpr hp⟩
  obtain ⟨j, hj⟩ := Option.isSome_iff_exists.mp hsome
  have hshown := List.find?_some (show List.find? _ _ = some j from hj)
  rw [hj, hdistinct j i p ((hshows j).mp hshown) hp]

/-- **Pids are unique** as long as no demo command is run over a live task: any two visible
    slots differ in their pids, so a pid leads the calls that take one to its own slot, and
    the pid a spawn returns to the slot it took.

    `h` is a run of `n` spawns in which `sched_prepare_replay`, which a demo command calls, finds
    nobody alive but the shell. `hn` keeps the counter from going round. -/
theorem pids_unique {n : Nat} {s : Sched α} (h : PidReaches Alone n s) (hn : n < 2 ^ 31) :
    (∀ i j p, pidAt s i = some p → pidAt s j = some p → i = j) ∧
      (∀ i p, pidAt s i = some p → s.findTask p = some i ∧ schedTaskState p s = s.state i) ∧
      ∀ code p, n + 1 < 2 ^ 31 → (s.spawn code).1 = some p →
        (s.spawn code).2.findTask p = s.freeSlot := by
  have hs := h.numbered hn
  refine ⟨hs.distinct, fun i p hp => ?_, fun code p hn' hp => ?_⟩
  · have hfind := findTask_pidAt hs.distinct hp
    exact ⟨hfind, by rw [schedTaskState, hfind, Option.bind_some]⟩
  · cases hslot : s.freeSlot with
    | none =>
      rw [Sched.spawn_none hslot] at hp
      cases hp
    | some i =>
      have hpid : p = s.nextPid := by
        simp only [Sched.spawn, hslot, Option.some.injEq] at hp
        exact hp.symm
      refine findTask_pidAt (hs.spawn hn' code).distinct ?_
      have hvisible : visiblePid s.nextPid = true := by
        have hlow := hs.next.1
        have hhigh := hs.next.2
        simp only [visiblePid, Bool.and_eq_true, decide_eq_true_eq, bne_iff_ne, gt_iff_lt,
          UInt32.lt_iff_toNat_lt, ne_eq, ← UInt32.toNat_inj, UInt32.reduceToNat]
        omega
      rw [pidAt_spawn hslot, if_pos rfl, if_pos hvisible, hpid]

/-- `fork`, and the child runs its first round. -/
def forked : Sched Unit := (((schedInit ()).spawn ()).2.dispatch 1).dispatch 0

/-- `fork`, and the child runs until it exits. -/
def forkExited : Sched Unit := ((((schedInit ()).spawn ()).2.dispatch 1).retire ()).dispatch 0

/-- The child is alive when `demo record attack` winds the counter back: the attack's task
    gets the child's pid, and the pid leads to the child. -/
theorem pids_shared_after_demo :
    PidReaches (fun _ => True) 2 (forked.prepareReplay.spawn ()).2 ∧
      (forked.prepareReplay.spawn ()).1 = some 2 ∧
      pidAt (forked.prepareReplay.spawn ()).2 1 = some 2 ∧
      pidAt (forked.prepareReplay.spawn ()).2 2 = some 2 ∧
      (forked.prepareReplay.spawn ()).2.findTask 2 = some 1 :=
  ⟨.spawn () (.prepareReplay (.dispatch 0 (.dispatch 1 (.spawn () (.init ())))) trivial),
    by decide⟩

/-- Once the child has exited the pid is free again. -/
theorem pids_unique_sample :
    ((forkExited.prepareReplay.spawn ()).2.nextPid = 3) ∧
      ∀ i j p, pidAt (forkExited.prepareReplay.spawn ()).2 i = some p →
        pidAt (forkExited.prepareReplay.spawn ()).2 j = some p → i = j := by
  have halone : Alone forkExited := by
    unfold Alone
    decide
  have hreaches : PidReaches Alone 2 (forkExited.prepareReplay.spawn ()).2 :=
    .spawn () (.prepareReplay (.dispatch 0 (.retire () (.dispatch 1 (.spawn () (.init ()))))) halone)
  exact ⟨by decide, (pids_unique hreaches (by decide)).1⟩

end Proof
end BumbelBee
