import BumbelBee.Kernel.Processes
import BumbelBee.Kernel.Workload

/-!
# What a task's slot shows (`kernel/sched.c`)

`struct task` holds more than the scheduler goes by: the parent, the name, the exec path and
two counters, which `/proc/tasks` prints. They stand here beside the processes, slot by slot,
and every call that writes a slot writes its part of them.
-/

namespace BumbelBee
namespace Kernel

open Lib

/-- The rest of a `struct task`. -/
structure TaskRest where
  parentPid : UInt32
  name : List UInt8
  execPath : List UInt8
  cpuTicks : UInt64
  yields : UInt64
deriving DecidableEq, Repr

/-- A cleared slot. -/
def TaskRest.zero : TaskRest := ⟨0, [], [], 0, 0⟩

structure TaskTable where
  procs : Processes
  rest : Fin maxTasks → TaskRest

/-- `sched_init`, for the rest of it. -/
def taskTableBoot (m : Memory) : TaskTable where
  procs := processesBoot m
  rest i := if i = 0 then ⟨0, cstr "kernel-shell", cstr "/bin/sh", 0, 0⟩ else TaskRest.zero

/-! ## Spawning -/

/-- What a spawn writes into the slot it takes: `char name[24]`, with a terminator. -/
def newRest (name : List UInt8) (parentPid : UInt32) : TaskRest :=
  ⟨parentPid, name.take 23, cstr "[kernel-task]", 0, 0⟩

/-- `sched_spawn_with_parent_aspace`. -/
def TaskTable.spawnWithParentAspace (name : List UInt8) (parentPid : UInt32) (job : Option JobRef)
    (aspaceId : UInt32) (k : TaskTable) : Option UInt32 × TaskTable :=
  match schedSpawnWithParentAspace job aspaceId k.procs, k.procs.sched.freeSlot with
  | (some pid, procs), some i =>
    (some pid, ⟨procs, Function.update k.rest i (newRest name parentPid)⟩)
  | (pid, procs), _ => (pid, { k with procs })

/-- `sched_spawn_with_parent`. -/
def TaskTable.spawnWithParent (name : List UInt8) (parentPid : UInt32) (k : TaskTable) :
    Option UInt32 × TaskTable :=
  match k.procs.aspaces.forkClone k.procs.currentAspace with
  | (aspaceId, aspaces) =>
    let k := { k with procs := { k.procs with aspaces } }
    if aspaceId = 0 then (none, k)
    else
      let (pid, k) := k.spawnWithParentAspace name parentPid none aspaceId
      (pid, { k with procs := k.procs.release aspaceId })

/-- The name a workload's task is given. -/
def Workload.taskName : Workload → List UInt8
  | .attack => cstr "attack_sim"
  | .sysload _ => cstr "sysload"
  | .lifecycle _ => cstr "life-child"

/-- `sched_spawn`, as the workloads call it. -/
def TaskTable.spawn (w : Workload) (k : TaskTable) : TaskTable :=
  (k.spawnWithParent w.taskName k.procs.sched.currentPid).2

def TaskTable.fork (k : TaskTable) : TaskTable :=
  (k.spawnWithParent (cstr "fork-child") k.procs.sched.currentPid).2

/-- `sched_task_set_exec`, into `char exec_path[32]`. -/
def TaskTable.setExec (pid : UInt32) (path : List UInt8) (k : TaskTable) : TaskTable :=
  match k.procs.sched.findTask pid with
  | none => k
  | some i => { k with
      rest := Function.update k.rest i { k.rest i with execPath := path.take 31 } }

/-- The name `builtin_exec_spawn` gives a program's task. -/
def programTaskName (prog : BuiltinProgram) (path : List UInt8) : List UInt8 :=
  if prog.entry = .ping then cstr "ping" else path.drop 5

/-- `builtin_exec_spawn`. -/
def TaskTable.exec (path : List UInt8) (arg : Option (List UInt8)) (k : TaskTable) : TaskTable :=
  match spawnProgram path with
  | none => k
  | some prog =>
    let aspaceId := k.procs.aspaces.kernelAspaceId
    match k.procs.aspaces.retain aspaceId with
    | none => k
    | some aspaces =>
      let k := { k with procs := { k.procs with aspaces } }
      if aspaceId = 0 then k
      else
        match allocJob prog arg k.procs.jobs with
        | none => { k with procs := k.procs.release aspaceId }
        | some (job, jobs) =>
          let k := { k with procs := { k.procs with jobs } }
          match k.spawnWithParentAspace (programTaskName prog path) k.procs.sched.currentPid
              (some job) aspaceId with
          | (none, k) => { k with procs := k.procs.release aspaceId }
          | (some pid, k) =>
            let k := if negative pid then k else k.setExec pid path
            { k with procs := k.procs.release aspaceId }

/-! ## Counting and clearing -/

/-- The current task's rest, changed. -/
def TaskTable.mapCurrent (f : TaskRest → TaskRest) (k : TaskTable) : TaskTable :=
  let i := k.procs.sched.current
  { k with rest := Function.update k.rest i (f (k.rest i)) }

/-- `sched_tick`, which only asks for a switch besides. -/
def TaskTable.tick (k : TaskTable) : TaskTable :=
  k.mapCurrent fun r => { r with cpuTicks := r.cpuTicks + 1 }

/-- `sched_yield`. -/
def TaskTable.yield (forced : Option (Fin maxTasks)) (k : TaskTable) : TaskTable :=
  let k := k.mapCurrent fun r => { r with yields := r.yields + 1 }
  { k with procs := k.procs.yield forced }

/-- `sched_prepare_replay`. -/
def TaskTable.prepareReplay (k : TaskTable) : TaskTable where
  procs := { k.procs with sched := k.procs.sched.prepareReplay }
  rest i := if i ≠ 0 ∧ k.procs.sched.isZombie i = true then TaskRest.zero else k.rest i

/-! ## The snapshot -/

/-- The fields of `struct sched_task_info` that are printed. -/
structure SchedTaskInfo where
  pid : UInt32
  parentPid : UInt32
  state : TaskState
  aspaceId : UInt32
  name : List UInt8
  execPath : List UInt8
  cpuTicks : UInt64
  yields : UInt64
deriving DecidableEq, Repr

/-- What `sched_snapshot` copies of a slot. -/
def taskInfo (t : Task TaskBody) (r : TaskRest) : SchedTaskInfo :=
  ⟨t.pid, r.parentPid, t.state, t.code.aspaceId, r.name, r.execPath, r.cpuTicks, r.yields⟩

def schedSnapshot (k : TaskTable) (maxEntries : Nat) : List SchedTaskInfo :=
  ((List.finRange maxTasks).filterMap fun i =>
    (k.procs.sched.tasks i).map fun t => taskInfo t (k.rest i)).take maxEntries

def schedStateName : TaskState → List UInt8
  | .ready => cstr "ready"
  | .running => cstr "running"
  | .zombie => cstr "zombie"

end Kernel
end BumbelBee
