import BumbelBee.Kernel.Event

/-!
# The workloads (`kernel/workload.c`)

A workload task makes a fixed sequence of calls: each loop is unrolled into the operations it
performs. The only thing read on the way is `memory_used_bytes()`, so a recorded word is
either known beforehand or that.
-/

namespace BumbelBee
namespace Kernel

/-- The last argument of a `trace_record` call. -/
inductive Datum
  | word (w : UInt64)
  | memoryUsed
deriving DecidableEq, Repr

def Datum.value (memoryUsed : UInt64) : Datum → UInt64
  | .word w => w
  | .memoryUsed => memoryUsed

/-- What a task does, one call at a time. -/
inductive TaskOp
  /-- `trace_record(type, sched_current_pid(), data0, data1)`. -/
  | record (type : TraceEventType) (data0 : UInt64) (data1 : Datum)
  /-- `sched_yield()`. -/
  | yield
  /-- `active_workloads--`. -/
  | finished
  /-- The `hlt` loop at the end of `task_exit`. -/
  | halt
deriving DecidableEq, Repr

inductive Workload
  | attack
  | sysload (slot : UInt64)
  | lifecycle (slot : UInt64)
deriving DecidableEq, Repr

def lifecycleChild (slot : UInt64) : List TaskOp :=
  ((List.range 4).flatMap fun i =>
    [.record .workload (0x5000 + slot) (.word (UInt64.ofNat i)), .yield]) ++ [.finished]

def attackTask : List TaskOp :=
  ((List.range 16).flatMap fun i =>
    [.record .workload (0x1000 + UInt64.ofNat i) (.word (0x2000 + UInt64.ofNat i * 4)), .yield]) ++
    [.finished]

def sysloadTask (slot : UInt64) : List TaskOp :=
  ((List.range 32).flatMap fun i =>
    [.record .sched (slot * 1000 + UInt64.ofNat i) .memoryUsed, .yield]) ++ [.finished]

def Workload.code : Workload → List TaskOp
  | .attack => attackTask
  | .sysload slot => sysloadTask slot
  | .lifecycle slot => lifecycleChild slot

def workloadProfileAttack : UInt32 := 1
def workloadProfileSysload : UInt32 := 2
def workloadProfileLifecycle : UInt32 := 3

/-- The workloads `workload_run_profile` starts; an unknown profile starts none. -/
def workloadRunProfile (profileId : UInt32) : List Workload :=
  if profileId = workloadProfileAttack then [.attack]
  else if profileId = workloadProfileSysload then [.sysload 0, .sysload 1, .sysload 2]
  else if profileId = workloadProfileLifecycle then [.lifecycle 0, .lifecycle 1, .lifecycle 2]
  else []

end Kernel
end BumbelBee
