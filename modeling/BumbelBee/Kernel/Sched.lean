import Mathlib.Algebra.GroupWithZero.Nat
import Mathlib.Data.List.FinRange
import Mathlib.Data.Fin.Basic
import Mathlib.Data.Fintype.Basic

/-!
# The scheduler's task table (`kernel/sched.c`)

Eight slots, cooperative round robin; what a task still has to run is its `code`, whose kind
is left open here. A slot `task_visible` denies is `none`: nothing ever reads what is left in
it. The counters `sched_dump` shows (ticks, yields, events, times), the names and the address
spaces, all of which every task here shares, are left out.
-/

namespace BumbelBee
namespace Kernel

/-- `MAX_TASKS`. -/
abbrev maxTasks : Nat := 8

instance : NeZero maxTasks := ⟨Nat.succ_ne_zero 7⟩

/-- `enum sched_task_state`; an empty slot is no task. -/
inductive TaskState
  | ready | running | zombie
deriving DecidableEq, Repr

structure Task (α : Type) where
  state : TaskState
  pid : UInt32
  code : α
deriving DecidableEq, Repr

structure Sched (α : Type) where
  tasks : Fin maxTasks → Option (Task α)
  current : Fin maxTasks
  nextPid : UInt32

variable {α : Type}

def Sched.taskVisible (s : Sched α) (i : Fin maxTasks) : Bool := (s.tasks i).isSome

/-- `task_visible(idx) && tasks[idx].state == SCHED_TASK_READY`. -/
def Sched.isReady (s : Sched α) (i : Fin maxTasks) : Bool :=
  (s.tasks i).any fun t => t.state == .ready

def Sched.isZombie (s : Sched α) (i : Fin maxTasks) : Bool :=
  (s.tasks i).any fun t => t.state == .zombie

/-- `tasks[i].pid`. -/
def Sched.pid (s : Sched α) (i : Fin maxTasks) : UInt32 := ((s.tasks i).map Task.pid).getD 0

def Sched.currentPid (s : Sched α) : UInt32 := s.pid s.current

/-- The slots behind the current one, itself last. -/
def Sched.findNextReady (s : Sched α) : Option (Fin maxTasks) :=
  ((List.finRange maxTasks).map fun i => s.current + 1 + i).find? s.isReady

def Sched.hasReady (s : Sched α) : Bool := s.findNextReady.isSome

/-- A running task that is switched away from is ready again. -/
def Task.preempt (t : Task α) : Task α :=
  if t.state = .running then { t with state := .ready } else t

/-- What `switch_to` does to the table when `next` is another slot. -/
def Sched.switchTo (next : Fin maxTasks) (s : Sched α) : Sched α :=
  { s with
    tasks := fun i =>
      if i = next then (s.tasks i).map fun t => { t with state := .running }
      else if i = s.current then (s.tasks i).map Task.preempt
      else s.tasks i
    current := next }

/-- What the current task still has to run. -/
def Sched.setCode (code : α) (s : Sched α) : Sched α :=
  { s with
    tasks := Function.update s.tasks s.current
      ((s.tasks s.current).map fun t => { t with code }) }

/-- The first part of `task_exit`; a task resumed behind it runs `halted`. -/
def Sched.retire (halted : α) (s : Sched α) : Sched α :=
  { s with
    tasks := Function.update s.tasks s.current
      ((s.tasks s.current).map fun t => { t with state := .zombie, code := halted }) }

/-- The pids `task_visible` admits. -/
def visiblePid (pid : UInt32) : Bool := pid > 0 && pid != 0xffffffff

/-- The slot a spawn takes: the first but the shell's that is empty or holds a zombie. -/
def Sched.freeSlot (s : Sched α) : Option (Fin maxTasks) :=
  ((List.finRange maxTasks).drop 1).find? fun i => !s.taskVisible i || s.isZombie i

/-- The pid, or `none` for -1. -/
def Sched.spawn (code : α) (s : Sched α) : Option UInt32 × Sched α :=
  match s.freeSlot with
  | none => (none, s)
  | some i =>
    (some s.nextPid, { s with
      tasks := Function.update s.tasks i
        (if visiblePid s.nextPid then some ⟨.ready, s.nextPid, code⟩ else none)
      nextPid := s.nextPid + 1 })

/-- `sched_prepare_replay`: zombies make room, and pids start over behind the shell's. -/
def Sched.prepareReplay (s : Sched α) : Sched α :=
  { s with
    tasks := fun i => if i ≠ 0 ∧ s.isZombie i = true then none else s.tasks i
    nextPid := 2 }

/-- `sched_init`. -/
def schedInit (code : α) : Sched α where
  tasks i := if i = 0 then some ⟨.running, 1, code⟩ else none
  current := 0
  nextPid := 2

/-- `switch_to(next)`. -/
def Sched.dispatch (next : Fin maxTasks) (s : Sched α) : Sched α :=
  if next = s.current then s else s.switchTo next

/-- `sched_yield` while no replay is active. -/
def Sched.yield (s : Sched α) : Sched α :=
  match s.findNextReady with
  | some next => s.dispatch next
  | none => s

/-- `task_exit`. -/
def Sched.taskExit (halted : α) (s : Sched α) : Sched α := (s.retire halted).yield

/-- `tasks[i].state`. -/
def Sched.state (s : Sched α) (i : Fin maxTasks) : Option TaskState := (s.tasks i).map Task.state

/-- The slot `sched_task_state` and `sched_task_set_exec` find for a pid. -/
def Sched.findTask (pid : UInt32) (s : Sched α) : Option (Fin maxTasks) :=
  (List.finRange maxTasks).find? fun i => s.taskVisible i && s.pid i == pid

/-- `sched_task_state`; `none` for -1. -/
def schedTaskState (pid : UInt32) (s : Sched α) : Option TaskState :=
  (s.findTask pid).bind s.state

/-! ## Round robin -/

theorem Sched.findNextReady_ready {s : Sched α} {i : Fin maxTasks}
    (h : s.findNextReady = some i) : s.isReady i = true := List.find?_some h

/-- A ready task is found, wherever it is. -/
theorem Sched.findNextReady_isSome {s : Sched α} {i : Fin maxTasks} (h : s.isReady i = true) :
    s.findNextReady.isSome = true := by
  rw [findNextReady, List.find?_isSome]
  have hround : ∀ c i : Fin maxTasks, c + 1 + (i - (c + 1)) = i := by decide
  exact ⟨i, List.mem_map.mpr ⟨i - (s.current + 1), List.mem_finRange _, hround _ _⟩, h⟩

theorem Sched.hasReady_iff {s : Sched α} :
    s.hasReady = true ↔ ∃ i, s.isReady i = true := by
  refine ⟨fun h => ?_, fun ⟨i, hi⟩ => findNextReady_isSome hi⟩
  obtain ⟨i, hi⟩ := Option.isSome_iff_exists.mp h
  exact ⟨i, findNextReady_ready hi⟩

theorem Sched.isReady_some {s : Sched α} {i : Fin maxTasks} (h : s.isReady i = true) :
    ∃ t, s.tasks i = some t ∧ t.state = .ready := by
  simp only [isReady, Option.any_eq_true_iff_get, beq_iff_eq] at h
  obtain ⟨hs, hr⟩ := h
  exact ⟨_, (Option.some_get hs).symm, hr⟩

end Kernel
end BumbelBee
