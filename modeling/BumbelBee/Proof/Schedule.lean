import BumbelBee.Kernel.Demo
import BumbelBee.Lib.Process
import BumbelBee.Proof.TaskTable

/-!
# The schedule of a workload profile

With no replay to ask, a step of `Sys` is a function of the task table, the workloads that
are active and what is left of the shell's command. `schedule` is that process, its
emissions the `trace_record` calls of the tasks and of `switch_to`.

Over a consistent table it never fails: whoever it switches to was found ready.

A recording asks the recorder for nothing: whether an event is stored makes no difference to any
task. This is why the interrupts, which come in anywhere, leave the order of the tasks' calls alone;
and it is why the same calls are made again at the replay, as long as it does not ask for another
order.
-/

namespace BumbelBee
namespace Kernel

open Lib

/-! ## The table -/

/-- What every task still has to run has the property. -/
def Sched.EachCode {α : Type} (P : α → Prop) (s : Sched α) : Prop :=
  ∀ i t, s.tasks i = some t → P t.code

section
variable {α : Type} {P : α → Prop} {s : Sched α}

theorem Sched.EachCode.setCode (h : s.EachCode P) {code : α} (hcode : P code) :
    (s.setCode code).EachCode P := by
  intro i t ht
  by_cases hi : i = s.current
  · subst hi
    simp only [Sched.setCode, Function.update_self, Option.map_eq_some_iff] at ht
    obtain ⟨_, -, rfl⟩ := ht
    exact hcode
  · exact h i t (by simpa only [Sched.setCode, Function.update_of_ne hi] using ht)

theorem Sched.EachCode.retire (h : s.EachCode P) {halted : α} (hcode : P halted) :
    (s.retire halted).EachCode P := by
  intro i t ht
  by_cases hi : i = s.current
  · subst hi
    simp only [Sched.retire, Function.update_self, Option.map_eq_some_iff] at ht
    obtain ⟨_, -, rfl⟩ := ht
    exact hcode
  · exact h i t (by simpa only [Sched.retire, Function.update_of_ne hi] using ht)

theorem Task.preempt_code (t : Task α) : t.preempt.code = t.code := by
  unfold Task.preempt
  split <;> rfl

theorem Sched.EachCode.switchTo (h : s.EachCode P) (next : Fin maxTasks) :
    (s.switchTo next).EachCode P := by
  intro i t ht
  simp only [Sched.switchTo] at ht
  split at ht
  · obtain ⟨t', ht', rfl⟩ := Option.map_eq_some_iff.mp ht
    exact h i t' ht'
  · split at ht
    · obtain ⟨t', ht', rfl⟩ := Option.map_eq_some_iff.mp ht
      rw [t'.preempt_code]
      exact h i t' ht'
    · exact h i t ht

theorem Sched.EachCode.spawn (h : s.EachCode P) {code : α} (hcode : P code) :
    (s.spawn code).2.EachCode P := by
  unfold Sched.spawn
  split
  · exact h
  · rename_i i _
    intro j t ht
    by_cases hj : j = i
    · subst hj
      simp only [Function.update_self] at ht
      split at ht
      · cases ht
        exact hcode
      · cases ht
    · exact h j t (by simpa only [Function.update_of_ne hj] using ht)

theorem Sched.EachCode.prepareReplay (h : s.EachCode P) : s.prepareReplay.EachCode P := by
  intro i t ht
  simp only [Sched.prepareReplay] at ht
  split at ht
  · cases ht
  · exact h i t ht

end

/-! ## Switching without a replay -/

/-- Switching to another slot that holds a task. -/
theorem Sys.switchTo_visible {s : Sys} {next : Fin maxTasks}
    (hvisible : s.sched.taskVisible next = true) (hne : next ≠ s.sched.current) :
    s.switchTo next.val = .ok ({ s with sched := s.sched.switchTo next },
      .record ⟨s.sched.pid next, .sched, UInt64.ofNat s.sched.current.val,
        .word (UInt64.ofNat next.val)⟩) := by
  have hother : ¬ ((next.val : Int) < 0 ∨ (next.val : Int) = s.sched.current.val) := by
    have := Fin.val_ne_of_ne hne
    omega
  simp only [Sys.switchTo, if_neg hother, Int.toNat_natCast, Fin.is_lt, dif_pos, Fin.eta, hvisible,
    if_true]

theorem Sys.switchTo_self (s : Sys) : s.switchTo s.sched.current.val = .ok (s, .none) := by
  simp only [Sys.switchTo, or_true, if_true]

/-- `sched_yield` with no replay to ask. -/
theorem Sys.yield_none (s : Sys) :
    ∃ e, s.yield none = .ok ({ s with sched := s.sched.yield }, e) := by
  unfold Sys.yield Sched.yield
  cases hfound : s.sched.findNextReady with
  | none => exact ⟨_, rfl⟩
  | some next =>
    simp only [Sched.dispatch]
    by_cases hcur : next = s.sched.current
    · rw [if_pos hcur, hcur]
      exact ⟨_, s.switchTo_self⟩
    · rw [if_neg hcur]
      obtain ⟨t, ht, -⟩ := Sched.isReady_some (Sched.findNextReady_ready hfound)
      exact ⟨_, Sys.switchTo_visible (by rw [Sched.taskVisible, ht]; rfl) hcur⟩

theorem Sys.taskExit_eq (s : Sys) :
    ∃ e, s.taskExit = .ok ({ s with sched := s.sched.taskExit [.halt] }, e) :=
  Sys.yield_none { s with sched := s.sched.retire [.halt] }

/-- What a task's next call leaves, with no replay to ask. -/
def Sys.taskNext (s : Sys) : List TaskOp → Sys
  | [] => { s with sched := s.sched.taskExit [.halt] }
  | .record _ _ _ :: rest => s.setCode rest
  | .yield :: rest => { s with sched := (s.sched.setCode rest).yield }
  | .finished :: rest =>
    { s with sched := s.sched.setCode rest, activeWorkloads := s.activeWorkloads - 1 }
  | .halt :: _ => s

theorem Sys.taskStep_none (s : Sys) (code : List TaskOp) :
    ∃ e, s.taskStep none code = .ok (s.taskNext code, e) := by
  cases code with
  | nil => exact s.taskExit_eq
  | cons op rest =>
    cases op with
    | record type data0 data1 => exact ⟨_, rfl⟩
    | yield => exact (s.setCode rest).yield_none
    | finished => exact ⟨_, rfl⟩
    | halt => exact ⟨_, rfl⟩

/-- **No step fails** that has no replay to ask. -/
theorem Sys.step_none (s : Sys) (failed : Bool) :
    ∃ s' e, s.step none failed = .ok (s', e) := by
  unfold Sys.step
  split
  · unfold Sys.shellStep
    split <;> try exact ⟨_, _, rfl⟩
    split
    · obtain ⟨e, he⟩ := s.yield_none
      exact ⟨_, e, he⟩
    · exact ⟨_, _, rfl⟩
  · split
    · exact ⟨_, _, rfl⟩
    · obtain ⟨e, he⟩ := s.taskStep_none _
      exact ⟨_, e, he⟩

/-! ## The shell's command -/

/-- What the shell's call asks of the recorder and the store. -/
def ShellOp.effect : ShellOp → Effect
  | .start stmt => .start stmt
  | .traceStop => .traceStop
  | .replayBegin sessionId => .replayBegin sessionId
  | .replayEnd => .replayEnd
  | _ => .none

theorem Sys.switchTo_shell {s s' : Sys} {next : Int} {e : Effect}
    (h : s.switchTo next = .ok (s', e)) :
    s'.shell = s.shell ∧ (e = .none ∨ ∃ r, e = .record r) := by
  unfold Sys.switchTo at h
  split at h
  · cases h
    exact ⟨rfl, Or.inl rfl⟩
  · split at h
    · split at h
      · cases h
        exact ⟨rfl, Or.inr ⟨_, rfl⟩⟩
      · cases h
    · cases h

theorem Sys.yield_shell {s s' : Sys} {expected : Option Int} {e : Effect}
    (h : s.yield expected = .ok (s', e)) :
    s'.shell = s.shell ∧ (e = .none ∨ ∃ r, e = .record r) := by
  unfold Sys.yield at h
  split at h
  · exact Sys.switchTo_shell h
  · split at h
    · exact Sys.switchTo_shell h
    · cases h
      exact ⟨rfl, Or.inl rfl⟩

/-- **One step and the shell's command**: the shell makes its next call, or nobody touches what
    is left of it and at most a call of `trace_record` is made. -/
theorem Sys.step_shell {s s' : Sys} {expected : Option Int} {failed : Bool} {e : Effect}
    (h : s.step expected failed = .ok (s', e)) :
    (∃ op, s.shell = op :: s'.shell ∧ e = ShellOp.effect op) ∨
      (s'.shell = s.shell ∧ (e = .none ∨ ∃ r, e = .record r)) := by
  unfold Sys.step at h
  split at h
  · unfold Sys.shellStep at h
    cases hshell : s.shell with
    | nil =>
      rw [hshell] at h
      cases h
      exact Or.inr ⟨hshell, Or.inl rfl⟩
    | cons op rest =>
      rw [hshell] at h
      -- only the loop may stay at the front; every other call is made and dropped
      cases op with
      | untilIdle =>
        simp only at h
        split at h
        · obtain ⟨hkept, he⟩ := Sys.yield_shell h
          exact Or.inr ⟨hkept.trans hshell, he⟩
        · cases h
          exact Or.inl ⟨_, rfl, rfl⟩
      | _ =>
        cases h
        exact Or.inl ⟨_, rfl, rfl⟩
  · split at h
    · cases h
      exact Or.inr ⟨rfl, Or.inl rfl⟩
    · rename_i t ht
      unfold Sys.taskStep at h
      split at h
      · exact Or.inr
          (@Sys.yield_shell { s with sched := s.sched.retire [.halt] } s' none e h)
      · cases h
        exact Or.inr ⟨rfl, Or.inr ⟨_, rfl⟩⟩
      · rename_i rest _
        exact Or.inr (@Sys.yield_shell (s.setCode rest) s' expected e h)
      · cases h
        exact Or.inr ⟨rfl, Or.inl rfl⟩
      · cases h
        exact Or.inr ⟨rfl, Or.inl rfl⟩

end Kernel

namespace Proof

open Lib Kernel

/-- The tasks and the shell by themselves, and the `trace_record` calls they make. -/
def schedule : Process Sys Request where
  next s :=
    match s.step none false with
    | .ok (s', _) => s'
    | .error _ => s
  emit s :=
    match s.step none false with
    | .ok (_, .record r) => some r
    | _ => none

theorem schedule_task {s : Sys} (hcur : s.sched.current ≠ 0) {t : Kernel.Task (List TaskOp)}
    (ht : s.sched.tasks s.sched.current = some t) : schedule.next s = s.taskNext t.code := by
  obtain ⟨e, he⟩ := s.taskStep_none t.code
  simp only [schedule, Sys.step, if_neg hcur, ht, he]

end Proof
end BumbelBee
