import BumbelBee.Kernel.Aspace
import BumbelBee.Kernel.BuiltinExec
import BumbelBee.Kernel.Elf
import BumbelBee.Kernel.Sched

/-!
# Processes (`kernel/sched.c`, `kernel/builtin_exec.c`, `kernel/syscall.c`)

The task table with what a task holds: its address space and, behind an exec, the job it was
handed. Names, exec paths and parents, which nothing here reads back, and the code the tasks
run are left out; a task may end whenever it is the one that runs.

`builtin_exec_run_sync` is not over when it is called: the ring-3 program runs in between.
`sync` is that call, between its `aspace_create` and its `aspace_release`.

An exec marks a job, then spawns; a task that ends gives its job back, then exits. There is no way
back from the first to before it, so the order of the two in `builtinExecSpawn` is as it stands in
the source, and so do the failures in between.
-/

namespace BumbelBee
namespace Kernel

open Lib

/-! ## The built-in programs -/

inductive ProgramEntry
  | ping | ring3 | ps | netstat
deriving DecidableEq, Repr

/-- `struct builtin_program`, without the texts. -/
structure BuiltinProgram where
  path : List UInt8
  image : List UInt8
  entry : ProgramEntry

/-- `struct builtin_elf_image`. -/
def builtinImage (entry : UInt64) : List UInt8 :=
  encodeEhdr (execEhdr entry) ++ encodePhdr (execPhdr 0x401000 120)

def programs : List BuiltinProgram := [
  ⟨cstr "/bin/ping", builtinImage 0x401000, .ping⟩,
  ⟨cstr "/bin/ring3demo", builtinImage 0x401040, .ring3⟩,
  ⟨cstr "/bin/ps", builtinImage 0x401080, .ps⟩,
  ⟨cstr "/bin/netstat", builtinImage 0x4010c0, .netstat⟩]

def findProgram (path : List UInt8) : Option BuiltinProgram :=
  programs.find? fun prog => prog.path == path

/-! ## Jobs -/

abbrev pingJobsMax : Nat := 4
abbrev genericJobsMax : Nat := 4

/-- A used `struct ping_job`. -/
structure PingJob where
  target : List UInt8
  count : UInt32
  intervalTicks : UInt32
deriving DecidableEq, Repr

/-- A used `struct generic_job`. -/
structure GenericJob where
  arg : List UInt8
deriving DecidableEq, Repr

structure Jobs where
  ping : Fin pingJobsMax → Option PingJob
  generic : Fin genericJobsMax → Option GenericJob

/-- The job a task's argument points to. -/
inductive JobRef
  | ping (slot : Fin pingJobsMax)
  | generic (slot : Fin genericJobsMax)
deriving DecidableEq, Repr

def isDigit (c : UInt8) : Bool := 0x30 ≤ c && c ≤ 0x39

/-- `parse_u32`; it wraps. -/
def parseU32 (s : List UInt8) : Option UInt32 :=
  if s = [] ∨ s.all isDigit = false then none
  else some (s.foldl (fun value c => value * 10 + (c - 0x30).toUInt32) 0)

/-- The job an argument of `/bin/ping` asks for. -/
def pingJobOf (arg : Option (List UInt8)) : Option PingJob :=
  match arg with
  | none => none
  | some arg =>
    let target := (arg.takeWhile (· ≠ 0x20)).take 31
    let rest := arg.drop target.length
    if target = [] then none
    else
      let parsed := if rest.head? = some 0x20 then parseU32 rest.tail else none
      some ⟨target, (parsed.filter fun n => n > 0 && n < 32).getD 4, 5⟩

/-- `alloc_ping_job`. -/
def Jobs.allocPing (arg : Option (List UInt8)) (j : Jobs) : Option (JobRef × Jobs) :=
  match pingJobOf arg with
  | none => none
  | some job =>
    match (List.finRange pingJobsMax).find? fun i => (j.ping i).isNone with
    | none => none
    | some i => some (.ping i, { j with ping := Function.update j.ping i (some job) })

/-- `alloc_generic_job`. -/
def Jobs.allocGeneric (arg : Option (List UInt8)) (j : Jobs) : Option (JobRef × Jobs) :=
  match (List.finRange genericJobsMax).find? fun i => (j.generic i).isNone with
  | none => none
  | some i => some (.generic i, { j with
      generic := Function.update j.generic i (some ⟨(arg.getD []).take 63⟩) })

/-- `job->used = 0`. -/
def Jobs.free (job : JobRef) (j : Jobs) : Jobs :=
  match job with
  | .ping i => { j with ping := Function.update j.ping i none }
  | .generic i => { j with generic := Function.update j.generic i none }

/-! ## The tasks and what they hold -/

structure TaskBody where
  aspaceId : UInt32
  job : Option JobRef
deriving DecidableEq, Repr

/-- The locals of a `builtin_exec_run_sync` that has its address space; `entered` once the
    image is in it. -/
structure SyncRun where
  aspaceId : UInt32
  oldAspace : UInt32
  info : ElfInfo
  image : ImageMem
  entered : Bool

structure Processes where
  sched : Sched TaskBody
  aspaces : Aspaces
  jobs : Jobs
  sync : Option SyncRun

/-- `sched_current_aspace`. -/
def Processes.currentAspace (s : Processes) : UInt32 :=
  ((s.sched.tasks s.sched.current).map fun t => t.code.aspaceId).getD 0

def Processes.release (id : UInt32) (s : Processes) : Processes :=
  { s with aspaces := s.aspaces.release id }

/-- `sched_spawn_with_parent_aspace`: the pid, or `none` for -1. -/
def schedSpawnWithParentAspace (job : Option JobRef) (aspaceId : UInt32) (s : Processes) :
    Option UInt32 × Processes :=
  match s.sched.freeSlot with
  | none => (none, s)
  | some _ =>
    match s.aspaces.retain aspaceId with
    | none => (none, s)
    | some aspaces =>
      let (pid, sched) := s.sched.spawn ⟨aspaceId, job⟩
      (pid, { s with sched, aspaces })

/-- `sched_spawn_with_parent`, and so `sched_spawn` and `sys_fork`. -/
def schedSpawnWithParent (s : Processes) : Option UInt32 × Processes :=
  match s.aspaces.forkClone s.currentAspace with
  | (aspaceId, aspaces) =>
    if aspaceId = 0 then (none, { s with aspaces })
    else
      let (pid, s) := schedSpawnWithParentAspace none aspaceId { s with aspaces }
      (pid, s.release aspaceId)

def schedSpawn (s : Processes) : Option UInt32 × Processes := schedSpawnWithParent s

def sysFork (s : Processes) : Option UInt32 × Processes := schedSpawnWithParent s

/-- `sched_task_set_aspace`, which nothing calls; `false` for -1. -/
def schedTaskSetAspace (pid aspaceId : UInt32) (s : Processes) : Bool × Processes :=
  match s.sched.findTask pid with
  | none => (false, s)
  | some i =>
    match s.sched.tasks i with
    | none => (false, s)
    | some t =>
      if t.code.aspaceId = aspaceId then (true, s)
      else
        match s.aspaces.retain aspaceId with
        | none => (false, s)
        | some aspaces =>
          let moved := some { t with code := { t.code with aspaceId } }
          (true, { s with
            aspaces := aspaces.release t.code.aspaceId
            sched := { s.sched with tasks := Function.update s.sched.tasks i moved } })

/-- The job for a program's task. -/
def allocJob (prog : BuiltinProgram) (arg : Option (List UInt8)) (j : Jobs) :
    Option (JobRef × Jobs) :=
  if prog.entry = .ping then j.allocPing arg else j.allocGeneric arg

/-- The program `builtin_exec_spawn` starts, when it gets past its checks. -/
def spawnProgram (path : List UInt8) : Option BuiltinProgram := do
  let prog ← findProgram path
  -- the headers of these images lie inside them: what is around is not looked at
  let _ ← elfParseImage (imageMem prog.image fun _ => 0) (UInt64.ofNat prog.image.length)
  if path = cstr "/bin/ring3demo" then none else some prog

/-- A pid that is negative as an `int`. -/
def negative (pid : UInt32) : Bool := pid ≥ 0x80000000

/-- `builtin_exec_spawn`: the pid, or `none` for -1. -/
def builtinExecSpawn (path : List UInt8) (arg : Option (List UInt8)) (s : Processes) :
    Option UInt32 × Processes :=
  match spawnProgram path with
  | none => (none, s)
  | some prog =>
    let aspaceId := s.aspaces.kernelAspaceId
    match s.aspaces.retain aspaceId with
    | none => (none, s)
    | some aspaces =>
      let s := { s with aspaces }
      if aspaceId = 0 then (none, s)
      else
        match allocJob prog arg s.jobs with
        | none => (none, s.release aspaceId)
        | some (job, jobs) =>
          match schedSpawnWithParentAspace (some job) aspaceId { s with jobs } with
          | (none, s) => (none, s.release aspaceId)
          | (some pid, s) =>
            -- the reference is dropped either way; only the answer differs
            (if negative pid then none else some pid, s.release aspaceId)

/-! ## Switching and exiting -/

/-- `switch_to(next)`. -/
def Processes.switchTo (next : Fin maxTasks) (s : Processes) : Processes :=
  if next = s.sched.current then s
  else
    let id := ((s.sched.tasks next).map fun t => t.code.aspaceId).getD 0
    { s with sched := s.sched.switchTo next, aspaces := s.aspaces.switch id }

def Processes.dispatchNext (next : Option (Fin maxTasks)) (s : Processes) : Processes :=
  match next with
  | none => s
  | some next => s.switchTo next

/-- `sched_yield`; `forced` is the slot a replay asks for. -/
def Processes.yield (forced : Option (Fin maxTasks)) (s : Processes) : Processes :=
  s.dispatchNext (forced.or s.sched.findNextReady)

/-- `task_exit`: the slot keeps what is in it. -/
def Processes.taskExit (s : Processes) : Processes :=
  match s.sched.tasks s.sched.current with
  | none => s
  | some t =>
    let s := s.release t.code.aspaceId
    let s := { s with sched := s.sched.retire t.code }
    s.dispatchNext s.sched.findNextReady

/-- The end of a task: its body gives the job back, and `task_exit` follows. -/
def Processes.taskEnds (s : Processes) : Processes :=
  match (s.sched.tasks s.sched.current).bind fun t => t.code.job with
  | none => s.taskExit
  | some job => { s with jobs := s.jobs.free job }.taskExit

/-! ## Running a ring-3 program -/

/-- `builtin_exec_run_sync` up to its `aspace_create`, with the image that was read; `frame`
    is the stack around it. -/
def runSyncOpen (image : Option (List UInt8)) (frame : ImageMem) (s : Processes) : Processes :=
  match image with
  | none => s
  | some image =>
    let mem := imageMem image frame
    match elfParseImage mem (UInt64.ofNat image.length) with
    | none => s
    | some info =>
      match s.aspaces.create .userShared (some (cstr "ring3demo")) with
      | (aspaceId, aspaces) =>
        if aspaceId = 0 then { s with aspaces }
        else { s with aspaces, sync := some ⟨aspaceId, s.currentAspace, info, mem, false⟩ }

/-- `builtin_exec_run_sync` up to its `aspace_create`: the file is read into `u8 image[256]` first,
    whatever its size. -/
def runSync (path : List UInt8) (stack : Nat → UInt8) (frame : ImageMem) (fs : Fs) (s : Processes) :
    Except Overrun (Processes × Fs) := do
  let (image, fs) ← runSyncImage path stack fs
  .ok (runSyncOpen image frame s, fs)

/-- The segment's bytes in the file image. -/
def SyncRun.segment (r : SyncRun) : List UInt8 :=
  (List.range r.info.loadFilesz.toUInt32.toNat).map fun i =>
    r.image (r.info.loadOffset + UInt64.ofNat i)

/-- The image, the rest of its segment and the stack, written one after the other. -/
def SyncRun.load (r : SyncRun) (s : Aspaces) : Bool × Aspaces :=
  match s.write r.aspaceId r.info.firstVaddr r.segment with
  | (false, s) => (false, s)
  | (true, s) =>
    match
      if r.info.loadMemsz > r.info.loadFilesz then
        s.zero r.aspaceId (r.info.firstVaddr + r.info.loadFilesz)
          (r.info.loadMemsz - r.info.loadFilesz).toUInt32
      else (true, s) with
    | (false, s) => (false, s)
    | (true, s) => s.zero r.aspaceId (aspaceUserStackTop - 0x4000) 0x4000

/-- The load, and `aspace_switch` when it worked. -/
def runSyncEnter (r : SyncRun) (s : Processes) : Processes :=
  match r.load s.aspaces with
  | (false, aspaces) => { s with aspaces := aspaces.release r.aspaceId, sync := none }
  | (true, aspaces) =>
    { s with aspaces := aspaces.switch r.aspaceId, sync := some { r with entered := true } }

/-- Behind `usermode_run_entry_stack`. -/
def runSyncLeave (r : SyncRun) (s : Processes) : Processes :=
  { s with aspaces := (s.aspaces.switch r.oldAspace).release r.aspaceId, sync := none }

/-- What the kernel starts with: `aspace_init`, `sched_init`, `builtin_exec_init`. -/
def processesBoot (m : Memory) : Processes where
  sched := schedInit ⟨(aspaceInit m).kernelAspaceId, none⟩
  aspaces := aspaceInit m
  jobs := ⟨fun _ => none, fun _ => none⟩
  sync := none

end Kernel
end BumbelBee
