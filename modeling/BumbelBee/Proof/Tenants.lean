import BumbelBee.Kernel.Tasks
import BumbelBee.Proof.RefCounts
import BumbelBee.Proof.Schedule
import BumbelBee.Proof.Texts

/-!
# Who is in the tables

Whatever is spawned, forked, run and ended, and however far the ids wrap: every task lives in
the kernel's address space, every other space is one `builtin_exec_run_sync` made for its
program, with one reference, and the names and exec paths of the tasks are among a few.

These are bounds on texts in the end: `/proc/tasks` and `/proc/aspace` are rendered from the tables,
and how long their lines get depends on what names, paths and kinds of space there are. They have to
hold of every reachable state, with ids that have gone round, and so ask nothing of the ids.
-/

namespace BumbelBee
namespace Proof

open Lib Kernel

/-! ## The address spaces -/

/-- The kernel's own space, whatever its reference count. -/
structure KernelSpace (a : AspaceInfo) : Prop where
  id : a.id = 1
  kind : a.kind = .kernel
  stack : a.userStackTop = 0
  label : a.label = cstr "kernel"

/-- The space of a ring-3 program. -/
structure ProgramSpace (a : AspaceInfo) : Prop where
  kind : a.kind = .userShared
  refcount : a.refcount = 1
  stack : a.userStackTop = aspaceUserStackTop
  label : a.label = cstr "ring3demo"

/-- The kernel's space in the first slot, and programs' in the others. An id that wraps may be
    the kernel's again, or 0: such a space is never found, and stays. -/
structure PlainSpaces (s : Aspaces) : Prop where
  kernelId : s.kernelAspaceId = 1
  kernel : ∃ a, s.table 0 = some a ∧ KernelSpace a.info
  program : ∀ i a, i ≠ 0 → s.table i = some a → ProgramSpace a.info

section
variable {s : Aspaces}

theorem PlainSpaces.congr (h : PlainSpaces s) {s' : Aspaces} (htable : s'.table = s.table)
    (hkernel : s'.kernelAspaceId = s.kernelAspaceId) : PlainSpaces s' := by
  refine ⟨hkernel.trans h.kernelId, ?_, ?_⟩
  · rw [htable]
    exact h.kernel
  · rw [htable]
    exact h.program

theorem PlainSpaces.findKernel (h : PlainSpaces s) : s.findSlot 1 = some 0 := by
  obtain ⟨a, ha, hk⟩ := h.kernel
  have hfirst : (s.table 0).any (fun a => a.info.id == 1) = true := by
    rw [ha, Option.any_some, hk.id]
    rfl
  rw [Aspaces.findSlot, List.finRange_succ, List.find?_cons, hfirst]

/-- The kernel's slot may count up and down. -/
theorem PlainSpaces.recount (h : PlainSpaces s) {a : AspaceSlot} (ha : s.table 0 = some a)
    (refcount : UInt32) : PlainSpaces (s.setRefcount 0 a refcount) := by
  obtain ⟨a', ha', hk⟩ := h.kernel
  rw [ha, Option.some.injEq] at ha'
  subst ha'
  refine ⟨h.kernelId, ⟨{ a with info := { a.info with refcount } }, ?_,
    hk.id, hk.kind, hk.stack, hk.label⟩, ?_⟩
  · simp only [Aspaces.setRefcount, Function.update_self]
  · intro i b hi hb
    simp only [Aspaces.setRefcount, Function.update_of_ne hi] at hb
    exact h.program i b hi hb

theorem PlainSpaces.retain (h : PlainSpaces s) : ∃ s', s.retain 1 = some s' ∧ PlainSpaces s' := by
  obtain ⟨a, ha, -⟩ := h.kernel
  exact ⟨_, Aspaces.retain_found h.findKernel ha, h.recount ha (a.info.refcount + 1)⟩

/-- A release drops a program's space, or counts the kernel's down. -/
theorem PlainSpaces.release (h : PlainSpaces s) (id : UInt32) : PlainSpaces (s.release id) := by
  unfold Aspaces.release
  cases hfind : s.findSlot id with
  | none => exact h
  | some i =>
    obtain ⟨a, ha, hid⟩ := Aspaces.findSlot_some hfind
    simp only [ha]
    by_cases hi : i = 0
    · subst hi
      obtain ⟨a', ha', hk⟩ := h.kernel
      rw [ha, Option.some.injEq] at ha'
      subst ha'
      rw [if_neg fun hgone => hgone.2 (by rw [← hid, hk.id, h.kernelId])]
      exact h.recount ha _
    · have hone := (h.program i a hi ha).refcount
      have hkernel : id ≠ s.kernelAspaceId := by
        rw [h.kernelId]
        intro hid
        rw [hid, h.findKernel, Option.some.injEq] at hfind
        exact hi hfind.symm
      rw [hone, if_pos ⟨by decide, hkernel⟩]
      refine ⟨h.kernelId, ?_, fun j b hj hb => ?_⟩
      · simp only [Function.update_of_ne (Ne.symm hi)]
        exact h.kernel
      · by_cases hji : j = i
        · subst hji
          simp at hb
        · simp only [Function.update_of_ne hji] at hb
          exact h.program j b hj hb

theorem PlainSpaces.forkClone (h : PlainSpaces s) :
    ∃ s', s.forkClone 1 = (1, s') ∧ PlainSpaces s' := by
  obtain ⟨a, ha, hk⟩ := h.kernel
  obtain ⟨s', hs', hplain⟩ := h.retain
  refine ⟨s', ?_, hplain⟩
  simp only [Aspaces.forkClone, h.findKernel, Option.bind_eq_bind, Option.bind_some, ha, hk.kind, hs']

/-- What `clone_kernel_root` leaves of a slot's fields. -/
theorem cloneKernelRoot_fields {cr3 : UInt64} {info info' : AspaceInfo} {m m' : Memory}
    (h : cloneKernelRoot cr3 info m = (some info', m')) : info'.kind = info.kind ∧
      info'.refcount = info.refcount ∧ info'.userStackTop = aspaceUserStackTop ∧
      info'.label = info.label := by
  unfold cloneKernelRoot at h
  simp only at h
  split at h
  · cases h
  · obtain ⟨hinfo, -⟩ := Prod.mk.inj h
    cases hinfo
    exact ⟨rfl, rfl, rfl, rfl⟩

theorem PlainSpaces.create (h : PlainSpaces s) :
    PlainSpaces (s.create .userShared (some (cstr "ring3demo"))).2 := by
  unfold Aspaces.create
  cases hslot : s.unusedSlot with
  | none => exact h
  | some i =>
    simp only
    cases hclone : cloneKernelRoot s.kernelCr3
        (s.newInfo .userShared (some (cstr "ring3demo"))) s.memory with
    | mk made memory =>
      cases made with
      | none => exact ⟨h.kernelId, h.kernel, h.program⟩
      | some info =>
        obtain ⟨hkind, hcount, hstack, hlabel⟩ := cloneKernelRoot_fields hclone
        have hempty := Aspaces.unusedSlot_none hslot
        have hi : i ≠ 0 := by
          rintro rfl
          obtain ⟨a, ha, -⟩ := h.kernel
          rw [ha] at hempty
          cases hempty
        refine ⟨h.kernelId, ?_, fun j b hj hb => ?_⟩
        · simp only [Function.update_of_ne (Ne.symm hi)]
          exact h.kernel
        · by_cases hji : j = i
          · subst hji
            simp only [Function.update_self, Option.some.injEq] at hb
            subst hb
            have hshort : copyLabel 24 (cstr "ring3demo") = cstr "ring3demo" := by decide
            exact ⟨hkind, hcount, hstack, hlabel.trans hshort⟩
          · simp only [Function.update_of_ne hji] at hb
            exact h.program j b hj hb

end

/-! ## The tasks -/

/-- One task runs, every task lives in the kernel's space, and the spaces are in order. -/
structure Housed (s : Processes) : Prop where
  consistent : s.sched.Consistent
  tasks : s.sched.EachCode fun body => body.aspaceId = 1
  spaces : PlainSpaces s.aspaces

section
variable {s : Processes}

theorem Housed.boot (m : Memory) : Housed (processesBoot m) where
  consistent := Sched.Consistent.init _
  tasks := by
    intro i t ht
    simp only [processesBoot, schedInit] at ht
    split at ht
    · cases ht
      rfl
    · cases ht
  spaces := by
    have hshort : copyLabel 24 (cstr "kernel") = cstr "kernel" := by decide
    refine ⟨rfl, ⟨_, rfl, rfl, rfl, rfl, hshort⟩, fun i a hi ha => ?_⟩
    have hempty : (aspaceInit m).table i = none := by
      have hslot : (⟨fun _ => none, 1, 0, m.cr3, m⟩ : Aspaces).unusedSlot = some 0 := by
        simp [Aspaces.unusedSlot, List.finRange_succ]
      simp only [aspaceInit, Aspaces.create, hslot, Function.update_of_ne hi]
    rw [show (processesBoot m).aspaces = aspaceInit m from rfl, hempty] at ha
    cases ha

theorem Housed.withSpaces (h : Housed s) {aspaces : Aspaces} (hspaces : PlainSpaces aspaces) :
    Housed { s with aspaces } := ⟨h.consistent, h.tasks, hspaces⟩

theorem Housed.release (h : Housed s) (id : UInt32) : Housed (s.release id) :=
  h.withSpaces (h.spaces.release id)

theorem Housed.currentAspace (h : Housed s) : s.currentAspace = 1 := by
  obtain ⟨t, ht, -⟩ := Option.map_eq_some_iff.mp ((h.consistent.running s.sched.current).mpr rfl)
  rw [Processes.currentAspace, ht]
  exact h.tasks _ t ht

theorem Housed.spawnTask (h : Housed s) (job : Option JobRef) :
    Housed (schedSpawnWithParentAspace job 1 s).2 := by
  obtain ⟨aspaces, hretain, hplain⟩ := h.spaces.retain
  unfold schedSpawnWithParentAspace
  split
  · exact h
  · rw [hretain]
    exact ⟨h.consistent.spawn _, h.tasks.spawn rfl, hplain⟩

theorem Housed.spawn (h : Housed s) : Housed (schedSpawnWithParent s).2 := by
  obtain ⟨aspaces, hfork, hplain⟩ := h.spaces.forkClone
  unfold schedSpawnWithParent
  rw [h.currentAspace, hfork]
  exact ((h.withSpaces hplain).spawnTask none).release 1

theorem Housed.exec (h : Housed s) (path : List UInt8) (arg : Option (List UInt8)) :
    Housed (builtinExecSpawn path arg s).2 := by
  obtain ⟨aspaces, hretain, hplain⟩ := h.spaces.retain
  unfold builtinExecSpawn
  simp only [h.spaces.kernelId, hretain]
  cases spawnProgram path with
  | none => exact h
  | some prog =>
    simp only [if_neg (show ¬ (1 : UInt32) = 0 by decide)]
    cases allocJob prog arg s.jobs with
    | none => exact (h.withSpaces hplain).release 1
    | some job =>
      have hjobs : Housed { s with aspaces, jobs := job.2 } := ⟨h.consistent, h.tasks, hplain⟩
      have hspawned := hjobs.spawnTask (some job.1)
      simp only
      cases hres : schedSpawnWithParentAspace (some job.1) 1 { s with aspaces, jobs := job.2 } with
      | mk pid s' =>
        rw [hres] at hspawned
        cases pid with
        | none => exact hspawned.release 1
        | some pid => exact hspawned.release 1

/-- A switch to a ready slot, from a table that is in order but for the running slot. -/
theorem Housed.switchTo {next : Fin maxTasks} (hready : s.sched.isReady next = true)
    (hrunning : ∀ i, s.sched.state i = some .running → i = s.sched.current)
    (hshell : s.sched.state 0 = some .ready ∨ s.sched.state 0 = some .running)
    (hne : next ≠ s.sched.current) (htasks : s.sched.EachCode fun body => body.aspaceId = 1)
    (hspaces : PlainSpaces s.aspaces) : Housed (s.switchTo next) := by
  rw [Processes.switchTo, if_neg hne]
  exact ⟨Sched.switchTo_consistent (Sched.isReady_iff.mp hready) hrunning hshell,
    htasks.switchTo next, hspaces.congr (Aspaces.switch_table _ _) (Aspaces.switch_kernel _ _)⟩

theorem Housed.yield (h : Housed s) {forced : Option (Fin maxTasks)}
    (hforced : ∀ next, forced = some next → s.sched.isReady next = true) :
    Housed (s.yield forced) := by
  rcases Processes.yield_cases hforced with hstay | ⟨next, hready, hne, hrun⟩
  · rw [hstay]
    exact h
  · rw [hrun]
    exact Housed.switchTo hready (fun i => (h.consistent.running i).mp) h.consistent.shell hne
      h.tasks h.spaces

theorem Housed.taskExit (h : Housed s) (hcur : s.sched.current ≠ 0) : Housed s.taskExit := by
  obtain ⟨t, next, ht, -, hready, hne, hexit⟩ := Processes.taskExit_eq h.consistent hcur
  rw [hexit]
  obtain ⟨hrunning, hshell⟩ := h.consistent.retired hcur t.code
  exact Housed.switchTo hready hrunning hshell hne
    (h.tasks.retire (h.tasks _ t ht)) (h.spaces.release _)

theorem Housed.taskEnds (h : Housed s) (hcur : s.sched.current ≠ 0) : Housed s.taskEnds := by
  unfold Processes.taskEnds
  split
  · exact h.taskExit hcur
  · exact Housed.taskExit ⟨h.consistent, h.tasks, h.spaces⟩ hcur

theorem Housed.syncOpen (h : Housed s) (image : Option (List UInt8)) (frame : ImageMem) :
    Housed (runSyncOpen image frame s) := by
  unfold runSyncOpen
  split
  · exact h
  · simp only
    split
    · exact h
    · have hcreated := h.spaces.create
      split
      · exact h.withSpaces hcreated
      · exact ⟨h.consistent, h.tasks, hcreated⟩

theorem Housed.syncEnter (h : Housed s) (r : SyncRun) : Housed (runSyncEnter r s) := by
  have hslots := SyncRun.load_slots r s.aspaces
  unfold runSyncEnter
  cases hload : r.load s.aspaces with
  | mk ok aspaces =>
    rw [hload] at hslots
    have hplain : PlainSpaces aspaces := h.spaces.congr hslots.1 hslots.2
    cases ok with
    | false => exact ⟨h.consistent, h.tasks, hplain.release _⟩
    | true =>
      exact ⟨h.consistent, h.tasks,
        hplain.congr (Aspaces.switch_table _ _) (Aspaces.switch_kernel _ _)⟩

theorem Housed.syncLeave (h : Housed s) (r : SyncRun) : Housed (runSyncLeave r s) :=
  ⟨h.consistent, h.tasks,
    (h.spaces.congr (Aspaces.switch_table _ _) (Aspaces.switch_kernel _ _)).release _⟩

/-- **Every step keeps them housed**, whatever numbers it hands out. -/
theorem Housed.step (h : Housed s) (op : ProcOp) (henabled : op.Enabled s) :
    Housed (op.run s) := by
  cases op with
  | spawn => exact h.spawn
  | fork => exact h.spawn
  | exec path arg => exact h.exec path arg
  | yield forced => exact h.yield henabled.2
  | exit => exact h.taskEnds henabled.2
  | prepareReplay => exact ⟨h.consistent.prepareReplay, h.tasks.prepareReplay, h.spaces⟩
  | syncOpen path stack fs frame =>
    simp only [ProcOp.run]
    split
    · exact h
    · exact h.syncOpen _ frame
  | syncEnter =>
    obtain ⟨r, hr, -⟩ := henabled
    simp only [ProcOp.run, hr, Option.map_some, Option.getD_some]
    exact h.syncEnter r
  | syncLeave =>
    obtain ⟨r, hr, -⟩ := henabled
    simp only [ProcOp.run, hr, Option.map_some, Option.getD_some]
    exact h.syncLeave r

end

/-! ## The rest of the slots -/

/-- What comes to the task table: the calls of `ProcOp`, with the names they give, and the
    timer's `sched_tick`. -/
inductive TableOp
  | spawn (w : Workload)
  | fork
  | exec (path : List UInt8) (arg : Option (List UInt8))
  | yield (forced : Option (Fin maxTasks))
  | prepareReplay
  | tick
  /-- The end of a task, and the parts of a `builtin_exec_run_sync`. -/
  | exit
  | syncOpen (path : List UInt8) (stack : Nat → UInt8) (fs : Fs) (frame : ImageMem)
  | syncEnter
  | syncLeave

/-- The same call, as far as the processes go. -/
def TableOp.procOp : TableOp → Option ProcOp
  | .spawn _ => some .spawn
  | .fork => some .fork
  | .exec path arg => some (.exec path arg)
  | .yield forced => some (.yield forced)
  | .prepareReplay => some .prepareReplay
  | .tick => none
  | .exit => some .exit
  | .syncOpen path stack fs frame => some (.syncOpen path stack fs frame)
  | .syncEnter => some .syncEnter
  | .syncLeave => some .syncLeave

def TableOp.run : TableOp → TaskTable → TaskTable
  | .spawn w, k => k.spawn w
  | .fork, k => k.fork
  | .exec path arg, k => k.exec path arg
  | .yield forced, k => k.yield forced
  | .prepareReplay, k => k.prepareReplay
  | .tick, k => k.tick
  | op, k => { k with procs := (op.procOp.map fun p => p.run k.procs).getD k.procs }

def TableOp.Enabled (op : TableOp) (k : TaskTable) : Prop :=
  ∀ p, op.procOp = some p → p.Enabled k.procs

/-! The processes go through what `ProcOp` says. -/

theorem spawnWithParentAspace_procs (name : List UInt8) (parentPid : UInt32) (job : Option JobRef)
    (aspaceId : UInt32) (k : TaskTable) :
    (k.spawnWithParentAspace name parentPid job aspaceId).1 =
        (schedSpawnWithParentAspace job aspaceId k.procs).1 ∧
      (k.spawnWithParentAspace name parentPid job aspaceId).2.procs =
        (schedSpawnWithParentAspace job aspaceId k.procs).2 := by
  unfold TaskTable.spawnWithParentAspace
  split
  · rename_i hres _
    rw [hres]
    exact ⟨rfl, rfl⟩
  · rename_i hres _
    rw [hres]
    exact ⟨rfl, rfl⟩

theorem spawnWithParent_procs (name : List UInt8) (parentPid : UInt32) (k : TaskTable) :
    (k.spawnWithParent name parentPid).2.procs = (schedSpawnWithParent k.procs).2 := by
  unfold TaskTable.spawnWithParent schedSpawnWithParent
  cases hfork : k.procs.aspaces.forkClone k.procs.currentAspace with
  | mk aspaceId aspaces =>
    simp only
    split
    · rfl
    · simp only [spawnWithParentAspace_procs]

theorem exec_procs (path : List UInt8) (arg : Option (List UInt8)) (k : TaskTable) :
    (k.exec path arg).procs = (builtinExecSpawn path arg k.procs).2 := by
  unfold TaskTable.exec builtinExecSpawn
  cases spawnProgram path with
  | none => rfl
  | some prog =>
    simp only
    cases k.procs.aspaces.retain k.procs.aspaces.kernelAspaceId with
    | none => rfl
    | some aspaces =>
      simp only
      split
      · rfl
      · cases allocJob prog arg k.procs.jobs with
        | none => rfl
        | some job =>
          obtain ⟨hpid, hprocs⟩ := spawnWithParentAspace_procs (programTaskName prog path)
            k.procs.sched.currentPid (some job.1) k.procs.aspaces.kernelAspaceId
            { k with procs := { k.procs with aspaces, jobs := job.2 } }
          simp only
          generalize TaskTable.spawnWithParentAspace (programTaskName prog path)
            k.procs.sched.currentPid (some job.1) k.procs.aspaces.kernelAspaceId
            { k with procs := { k.procs with aspaces, jobs := job.2 } } = there at hpid hprocs ⊢
          generalize schedSpawnWithParentAspace (some job.1) k.procs.aspaces.kernelAspaceId
            { k.procs with aspaces, jobs := job.2 } = here at hpid hprocs ⊢
          obtain ⟨pid, k'⟩ := there
          obtain ⟨pid', s'⟩ := here
          simp only at hpid hprocs
          subst hpid
          subst hprocs
          cases pid with
          | none => rfl
          | some pid =>
            -- the exec path stands beside the processes
            have hset : ∀ k'' : TaskTable, (k''.setExec pid path).procs = k''.procs := fun k'' => by
              unfold TaskTable.setExec
              split <;> rfl
            simp only
            split
            · rfl
            · rw [hset]

theorem TableOp.run_procs (op : TableOp) (k : TaskTable) :
    (op.run k).procs = (op.procOp.map fun p => p.run k.procs).getD k.procs := by
  cases op with
  | spawn w => exact spawnWithParent_procs _ _ k
  | fork => exact spawnWithParent_procs _ _ k
  | exec path arg => exact exec_procs path arg k
  | _ => rfl

/-- The texts of a slot are among the kernel's own: none is long. -/
structure ShortRest (r : TaskRest) : Prop where
  name : r.name.length ≤ 12
  execPath : r.execPath.length ≤ 13

def ShortRests (k : TaskTable) : Prop := ∀ i, ShortRest (k.rest i)

theorem ShortRest.new {name : List UInt8} (h : name.length ≤ 12) (parentPid : UInt32) :
    ShortRest (newRest name parentPid) :=
  ⟨(List.length_take_le' 23 name).trans h,
    show (cstr "[kernel-task]").length ≤ 13 by decide⟩

section
variable {k : TaskTable}

theorem ShortRests.boot (m : Memory) : ShortRests (taskTableBoot m) := by
  intro i
  simp only [taskTableBoot]
  split
  · exact ⟨by decide, by decide⟩
  · exact ⟨by decide, by decide⟩

theorem ShortRests.withProcs (h : ShortRests k) (procs : Processes) :
    ShortRests { k with procs } := h

theorem ShortRests.update (h : ShortRests k) (i : Fin maxTasks) {r : TaskRest} (hr : ShortRest r) :
    ShortRests { k with rest := Function.update k.rest i r } := by
  intro j
  by_cases hj : j = i
  · subst hj
    simp only [Function.update_self]
    exact hr
  · simp only [Function.update_of_ne hj]
    exact h j

theorem ShortRests.spawnWithParentAspace (h : ShortRests k) {name : List UInt8}
    (hname : name.length ≤ 12) (parentPid : UInt32) (job : Option JobRef) (aspaceId : UInt32) :
    ShortRests (k.spawnWithParentAspace name parentPid job aspaceId).2 := by
  unfold TaskTable.spawnWithParentAspace
  split
  · exact (h.update _ (ShortRest.new hname parentPid)).withProcs _
  · exact h.withProcs _

theorem ShortRests.spawnWithParent (h : ShortRests k) {name : List UInt8}
    (hname : name.length ≤ 12) (parentPid : UInt32) :
    ShortRests (k.spawnWithParent name parentPid).2 := by
  unfold TaskTable.spawnWithParent
  simp only
  split
  · exact h.withProcs _
  · exact ((h.withProcs _).spawnWithParentAspace hname _ _ _).withProcs _

theorem ShortRests.setExec (h : ShortRests k) (pid : UInt32) {path : List UInt8}
    (hpath : path.length ≤ 13) : ShortRests (k.setExec pid path) := by
  unfold TaskTable.setExec
  split
  · exact h
  · rename_i i _
    exact h.update i ⟨(h i).name, (List.length_take_le' 31 path).trans hpath⟩

/-- The one program with a longer path is not started this way. -/
theorem length_spawnProgram {path : List UInt8} {prog : BuiltinProgram}
    (h : spawnProgram path = some prog) : path.length ≤ 12 := by
  unfold spawnProgram at h
  simp only [Option.bind_eq_bind, Option.bind_eq_some_iff] at h
  obtain ⟨found, hfound, -, -, h⟩ := h
  have hshort : ∀ prog ∈ programs, prog.path ≠ cstr "/bin/ring3demo" → prog.path.length ≤ 12 := by
    decide
  have hpath : found.path = path := by simpa using List.find?_some hfound
  split at h
  · cases h
  · rename_i hne
    rw [← hpath] at hne ⊢
    exact hshort found (List.mem_of_find?_eq_some hfound) hne

theorem length_programTaskName (prog : BuiltinProgram) {path : List UInt8}
    (h : path.length ≤ 12) : (programTaskName prog path).length ≤ 12 := by
  unfold programTaskName
  split
  · decide
  · rw [List.length_drop]
    omega

theorem ShortRests.exec (h : ShortRests k) (path : List UInt8) (arg : Option (List UInt8)) :
    ShortRests (k.exec path arg) := by
  unfold TaskTable.exec
  cases hprog : spawnProgram path with
  | none => exact h
  | some prog =>
    have hpath := length_spawnProgram hprog
    simp only
    split
    · exact h
    · split
      · exact h.withProcs _
      · split
        · exact h.withProcs _
        · rename_i aspaces _ _ _ job jobs _
          have hspawned := (h.withProcs { k.procs with aspaces, jobs }).spawnWithParentAspace
            (length_programTaskName prog hpath) k.procs.sched.currentPid (some job)
            k.procs.aspaces.kernelAspaceId
          split
          · rename_i k' hres
            rw [hres] at hspawned
            exact hspawned.withProcs _
          · rename_i pid k' hres
            rw [hres] at hspawned
            split
            · exact hspawned.withProcs _
            · exact (hspawned.setExec pid (by omega)).withProcs _

theorem ShortRests.mapCurrent (h : ShortRests k) {f : TaskRest → TaskRest}
    (hname : ∀ r, (f r).name = r.name) (hexec : ∀ r, (f r).execPath = r.execPath) :
    ShortRests (k.mapCurrent f) :=
  h.update _ ⟨by rw [hname]; exact (h _).name, by rw [hexec]; exact (h _).execPath⟩

/-- **The texts stay short.** -/
theorem ShortRests.step (h : ShortRests k) (op : TableOp) : ShortRests (op.run k) := by
  cases op with
  | spawn w =>
    have hname : w.taskName.length ≤ 12 := by
      cases w with
      | attack => exact (show (cstr "attack_sim").length ≤ 12 by decide)
      | sysload => exact (show (cstr "sysload").length ≤ 12 by decide)
      | lifecycle => exact (show (cstr "life-child").length ≤ 12 by decide)
    exact h.spawnWithParent hname _
  | fork => exact h.spawnWithParent (by decide) _
  | exec path arg => exact h.exec path arg
  | yield forced =>
    exact (h.mapCurrent (f := fun r => { r with yields := r.yields + 1 }) (fun _ => rfl)
      fun _ => rfl).withProcs _
  | prepareReplay =>
    intro i
    simp only [TableOp.run, TaskTable.prepareReplay]
    split
    · exact ⟨Nat.zero_le _, Nat.zero_le _⟩
    · exact h i
  | tick =>
    exact h.mapCurrent (f := fun r => { r with cpuTicks := r.cpuTicks + 1 }) (fun _ => rfl)
      fun _ => rfl
  | _ => exact h.withProcs _

end

/-! ## What the table shows -/

/-- A line of `/proc/aspace` is 59 characters at most. -/
theorem KernelSpace.most {a : AspaceInfo} (h : KernelSpace a) : mostOf (aspaceLine a) ≤ 59 := by
  have hrefs := length_decimal_u32 a.refcount
  have hflag : (decimal (if a.isolated then 1 else 0)).length = 1 := by
    cases a.isolated <;> rfl
  have hkind : (decimal a.kind.code.toNat).length = 1 := by
    rw [h.kind]
    rfl
  have hstack : (decimal a.userStackTop.toNat).length = 1 := by
    rw [h.stack]
    rfl
  have hlabel : a.label.length = 6 := by
    rw [h.label]
    rfl
  simp only [aspaceLine, mostOf_cons, mostOf_nil, Piece.u32_most, Piece.u64_most, Piece.char_most,
    Piece.number_most, Piece.chars_most]
  omega

theorem ProgramSpace.most {a : AspaceInfo} (h : ProgramSpace a) : mostOf (aspaceLine a) ≤ 59 := by
  have hrefs : (decimal a.refcount.toNat).length = 1 := by
    rw [h.refcount]
    simp [length_decimal, width]
  have hflag : (decimal (if a.isolated then 1 else 0)).length ≤ 1 :=
    length_decimal_le (by decide) (by split <;> decide)
  have hkind : (decimal a.kind.code.toNat).length ≤ 1 := by
    rw [h.kind]
    exact length_decimal_le (by decide) (by decide)
  have hstack : (decimal a.userStackTop.toNat).length ≤ 10 := by
    rw [h.stack]
    exact length_decimal_le (by decide) (by decide)
  have hlabel : a.label.length = 9 := by
    rw [h.label]
    rfl
  simp only [aspaceLine, mostOf_cons, mostOf_nil, Piece.u32_most, Piece.u64_most, Piece.char_most,
    Piece.number_most, Piece.chars_most]
  omega

theorem PlainSpaces.fits {s : Aspaces} (h : PlainSpaces s) :
    FitsScratch (renderProcAspace (UInt32.ofNat vfsScratchMax) s) := by
  refine renderProcAspace_fits fun i a ha => ?_
  by_cases hi : i = 0
  · subst hi
    obtain ⟨a', ha', hk⟩ := h.kernel
    rw [ha, Option.some.injEq] at ha'
    subst ha'
    exact hk.most
  · exact (h.program i a hi ha).most

theorem ShortRests.fits {k : TaskTable} (h : ShortRests k) :
    FitsScratch (renderProcTasks (UInt32.ofNat vfsScratchMax) k) :=
  renderProcTasks_fits fun i => ⟨(h i).name, (h i).execPath⟩

end Proof
end BumbelBee
