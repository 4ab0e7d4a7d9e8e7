import BumbelBee.Lib.Tokens
import BumbelBee.Proof.Tenants

/-!
# The jobs and their tasks

A program's job goes to the task that runs it and is free again when that task ends. The
books balance over every run: what is marked used is held by a task, or lost, and it is lost
by an exec that took it and found no slot for its task, or one whose pid `task_visible`
denies. Nothing brings it back. So the states in which every used job belongs to a task are
the ones that are reached without such an exec, and no others.

The pool of jobs is marked from outside the task table and unmarked from inside a task, and between
the two the exec can fail in three places. Only the first failure is clean. That the jobs lost are
exactly those of the other two needs the whole run, since a job may be lost long before the state
that is looked at; `JobsBalanced` keeps the lost ones as a list.
-/

namespace BumbelBee
namespace Proof

open Lib Kernel

/-! ## The two pools

There are four jobs for `/bin/ping` and four for the others, each a slot with a flag. A job is found
by its flag alone, so one that is lost is never handed out again.
-/

/-- `ping_jobs[i].used` and `generic_jobs[i].used`. -/
def jobUsed (j : Jobs) : JobRef → Bool
  | .ping i => (j.ping i).isSome
  | .generic i => (j.generic i).isSome

section
variable {j j' : Jobs} {job : JobRef} {arg : Option (List UInt8)} {prog : BuiltinProgram}

theorem jobUsed_ping (j : Jobs) (i : Fin pingJobsMax) (v : Option PingJob) :
    jobUsed { j with ping := Function.update j.ping i v } =
      Function.update (jobUsed j) (.ping i) v.isSome := by
  funext job
  cases job with
  | ping k =>
    by_cases hk : k = i
    · subst hk
      simp only [jobUsed, Function.update_self]
    · rw [Function.update_of_ne (by simpa using hk)]
      simp only [jobUsed, Function.update_of_ne hk]
  | generic k => rw [Function.update_of_ne (by simp), jobUsed, jobUsed]

theorem jobUsed_generic (j : Jobs) (i : Fin genericJobsMax) (v : Option GenericJob) :
    jobUsed { j with generic := Function.update j.generic i v } =
      Function.update (jobUsed j) (.generic i) v.isSome := by
  funext job
  cases job with
  | ping k => rw [Function.update_of_ne (by simp), jobUsed, jobUsed]
  | generic k =>
    by_cases hk : k = i
    · subst hk
      simp only [jobUsed, Function.update_self]
    · rw [Function.update_of_ne (by simpa using hk)]
      simp only [jobUsed, Function.update_of_ne hk]

theorem jobUsed_free (job : JobRef) (j : Jobs) :
    jobUsed (j.free job) = Function.update (jobUsed j) job false := by
  cases job with
  | ping i => exact jobUsed_ping j i none
  | generic i => exact jobUsed_generic j i none

/-- **A job that is handed out** was free, and is the one that is used now. -/
theorem allocJob_some (h : allocJob prog arg j = some (job, j')) :
    jobUsed j job = false ∧ jobUsed j' = Function.update (jobUsed j) job true := by
  unfold allocJob at h
  split at h
  · unfold Jobs.allocPing at h
    split at h
    · cases h
    · split at h
      · cases h
      · rename_i made _ _ i hfound
        cases h
        refine ⟨?_, jobUsed_ping j i (some made)⟩
        simpa [jobUsed] using List.find?_some hfound
  · unfold Jobs.allocGeneric at h
    split at h
    · cases h
    · rename_i i hfound
      cases h
      refine ⟨?_, jobUsed_generic j i (some _)⟩
      simpa [jobUsed] using List.find?_some hfound

/-- There is a job for the program: a slot of its pool, and for `/bin/ping` a target too. -/
def PoolFree (prog : BuiltinProgram) (arg : Option (List UInt8)) (j : Jobs) : Prop :=
  if prog.entry = .ping then pingJobOf arg ≠ none ∧ ∃ i, j.ping i = none
  else ∃ i, j.generic i = none

theorem findFree_isSome {n : Nat} {α : Type} {pool : Fin n → Option α} :
    ((List.finRange n).find? fun i => (pool i).isNone).isSome = true ↔ ∃ i, pool i = none := by
  simp only [List.find?_isSome, List.mem_finRange, true_and, Option.isNone_iff_eq_none]

theorem allocJob_isSome : (allocJob prog arg j).isSome = true ↔ PoolFree prog arg j := by
  unfold allocJob PoolFree
  split
  · rw [← findFree_isSome]
    unfold Jobs.allocPing
    cases pingJobOf arg with
    | none => simp only [Option.isSome_none, Bool.false_eq_true, ne_eq, not_true_eq_false, false_and]
    | some made =>
      cases (List.finRange pingJobsMax).find? fun i => (j.ping i).isNone with
      | none => simp
      | some i => simp
  · rw [← findFree_isSome]
    unfold Jobs.allocGeneric
    cases (List.finRange genericJobsMax).find? fun i => (j.generic i).isNone with
    | none => simp
    | some i => simp

end

/-- **The programs that are started as tasks**: those a path names, but for the one that is
    run in a space of its own. -/
theorem spawnProgram_some_iff {path : List UInt8} {prog : BuiltinProgram} :
    spawnProgram path = some prog ↔
      prog ∈ programs ∧ prog.path = path ∧ path ≠ cstr "/bin/ring3demo" := by
  have hparsed : ∀ prog ∈ programs, (elfParseImage (imageMem prog.image fun _ => 0)
      (UInt64.ofNat prog.image.length)).isSome = true := by decide +kernel
  have hfind : ∀ prog ∈ programs, findProgram prog.path = some prog := by
    simp only [programs, List.forall_mem_cons]
    exact ⟨rfl, rfl, rfl, rfl, List.forall_mem_nil _⟩
  constructor
  · intro h
    simp only [spawnProgram, Option.bind_eq_bind, Option.bind_eq_some_iff] at h
    obtain ⟨found, hfound, -, -, h⟩ := h
    split at h
    · cases h
    · cases h
      exact ⟨List.mem_of_find?_eq_some hfound, by simpa using List.find?_some hfound,
        by assumption⟩
  · rintro ⟨hmem, rfl, hne⟩
    obtain ⟨info, hinfo⟩ := Option.isSome_iff_exists.mp (hparsed prog hmem)
    simp only [spawnProgram, hfind prog hmem, hinfo, Option.bind_eq_bind, Option.bind_some,
      if_neg hne]

/-! ## What each call does to the tasks and the jobs -/

section
variable {s : Processes}

/-- `sched_spawn_with_parent_aspace` in the kernel's space, which is always found. -/
theorem Housed.spawnTask_eq (h : Housed s) (job : Option JobRef) :
    ∃ aspaces, schedSpawnWithParentAspace job 1 s =
      ((s.sched.spawn ⟨1, job⟩).1, { s with sched := (s.sched.spawn ⟨1, job⟩).2, aspaces }) := by
  obtain ⟨aspaces, hretain, -⟩ := h.spaces.retain
  unfold schedSpawnWithParentAspace
  cases hslot : s.sched.freeSlot with
  | none => exact ⟨s.aspaces, by rw [Sched.spawn_none hslot]⟩
  | some i => exact ⟨aspaces, by rw [hretain]⟩

theorem Housed.spawn_eq (h : Housed s) :
    (schedSpawnWithParent s).2.sched = (s.sched.spawn ⟨1, none⟩).2 ∧
      (schedSpawnWithParent s).2.jobs = s.jobs := by
  obtain ⟨aspaces, hfork, hplain⟩ := h.spaces.forkClone
  obtain ⟨aspaces', hspawn⟩ := (h.withSpaces hplain).spawnTask_eq none
  unfold schedSpawnWithParent
  simp only [h.currentAspace, hfork, if_neg (show ¬ (1 : UInt32) = 0 by decide), hspawn]
  exact ⟨rfl, rfl⟩

/-- **`builtin_exec_spawn`** is turned away, finds no job and gives the reference back, or has
    its job and spawns. -/
theorem Housed.exec_cases (h : Housed s) (path : List UInt8) (arg : Option (List UInt8)) :
    (spawnProgram path = none ∧ builtinExecSpawn path arg s = (none, s)) ∨
    (∃ prog aspaces, spawnProgram path = some prog ∧ allocJob prog arg s.jobs = none ∧
      s.aspaces.retain 1 = some aspaces ∧
      builtinExecSpawn path arg s = (none, { s with aspaces := aspaces.release 1 })) ∨
    ∃ prog job jobs aspaces, spawnProgram path = some prog ∧
      allocJob prog arg s.jobs = some (job, jobs) ∧
      builtinExecSpawn path arg s = ((s.sched.spawn ⟨1, some job⟩).1.filter fun pid => !negative pid,
        { s with sched := (s.sched.spawn ⟨1, some job⟩).2, aspaces, jobs }) := by
  obtain ⟨aspaces, hretain, hplain⟩ := h.spaces.retain
  unfold builtinExecSpawn
  simp only [h.spaces.kernelId, hretain, if_neg (show ¬ (1 : UInt32) = 0 by decide)]
  cases hprog : spawnProgram path with
  | none => exact Or.inl ⟨rfl, rfl⟩
  | some prog =>
    refine Or.inr ?_
    cases hjob : allocJob prog arg s.jobs with
    | none => exact Or.inl ⟨prog, aspaces, rfl, hjob, rfl, by simp only [hjob]; rfl⟩
    | some taken =>
      obtain ⟨job, jobs⟩ := taken
      have hin : Housed { s with aspaces, jobs } := ⟨h.consistent, h.tasks, hplain⟩
      obtain ⟨aspaces', hspawn⟩ := hin.spawnTask_eq (some job)
      refine Or.inr ⟨prog, job, jobs, aspaces'.release 1, rfl, hjob, ?_⟩
      simp only [hjob, hspawn]
      cases (s.sched.spawn ⟨1, some job⟩).1 with
      | none => rfl
      | some pid =>
        simp only [Option.filter_some]
        cases negative pid <;> rfl

theorem switchTo_live {next : Fin maxTasks} (hready : s.sched.isReady next = true) :
    (s.switchTo next).sched.liveAt = s.sched.liveAt ∧ (s.switchTo next).jobs = s.jobs := by
  unfold Processes.switchTo
  split
  · exact ⟨rfl, rfl⟩
  · exact ⟨Sched.liveAt_switchTo hready, rfl⟩

theorem yield_live {forced : Option (Fin maxTasks)}
    (hforced : ∀ next, forced = some next → s.sched.isReady next = true) :
    (s.yield forced).sched.liveAt = s.sched.liveAt ∧ (s.yield forced).jobs = s.jobs := by
  rcases Processes.yield_cases hforced with hstay | ⟨next, hready, -, hrun⟩
  · rw [hstay]
    exact ⟨rfl, rfl⟩
  · rw [hrun]
    exact switchTo_live hready

/-- `task_exit` leaves a zombie. -/
theorem taskExit_live (h : s.sched.Consistent) (hcur : s.sched.current ≠ 0) :
    s.taskExit.sched.liveAt = Function.update s.sched.liveAt s.sched.current none ∧
      s.taskExit.jobs = s.jobs := by
  obtain ⟨t, next, -, -, hready, -, hexit⟩ := Processes.taskExit_eq h hcur
  obtain ⟨hlive, hjobs⟩ := switchTo_live
    (s := { s.release t.code.aspaceId with sched := s.sched.retire t.code }) hready
  rw [hexit]
  exact ⟨hlive.trans (Sched.liveAt_retire t.code), hjobs⟩

theorem syncOpen_live (image : Option (List UInt8)) (frame : ImageMem) (s : Processes) :
    (runSyncOpen image frame s).sched = s.sched ∧ (runSyncOpen image frame s).jobs = s.jobs := by
  unfold runSyncOpen
  split
  · exact ⟨rfl, rfl⟩
  · simp only
    split
    · exact ⟨rfl, rfl⟩
    · split <;> exact ⟨rfl, rfl⟩

theorem syncEnter_live (r : SyncRun) (s : Processes) :
    (runSyncEnter r s).sched = s.sched ∧ (runSyncEnter r s).jobs = s.jobs := by
  unfold runSyncEnter
  split <;> exact ⟨rfl, rfl⟩

end

/-! ## The books

The tasks hold jobs as they hold spaces, and the same rules for counted tables apply, with a job
held once. What is lost is held by nobody, and stays on the list.
-/

/-- The job that an unfinished task holds. -/
def jobAt (s : Sched TaskBody) : Fin maxTasks → Option JobRef :=
  (fun live => live.bind TaskBody.job) ∘ s.liveAt

/-- What is marked used is held by a task, or lost. -/
abbrev JobsBalanced (lost : List JobRef) (s : Processes) : Prop :=
  Tokened (jobUsed s.jobs) (jobAt s.sched) lost

/-- The task a spawn would make is one the scheduler sees. -/
def seatFree (s : Sched TaskBody) : Bool := s.freeSlot.isSome && visiblePid s.nextPid

/-- The job that `builtin_exec_spawn` loses: it is taken, and nobody will ever give it back. -/
def jobLost (path : List UInt8) (arg : Option (List UInt8)) (s : Processes) : List JobRef :=
  match spawnProgram path >>= fun prog => allocJob prog arg s.jobs with
  | none => []
  | some (job, _) => if seatFree s.sched then [] else [job]

/-- The slot a spawn takes holds no job before, and the task's own behind it. -/
theorem jobAt_spawn {s : Sched TaskBody} {i : Fin maxTasks} (hslot : s.freeSlot = some i)
    (body : TaskBody) : jobAt s i = none ∧ jobAt (s.spawn body).2 =
      Function.update (jobAt s) i (if visiblePid s.nextPid then body.job else none) := by
  constructor
  · rw [jobAt, Function.comp_apply, Sched.liveAt_free (Sched.freeSlot_free hslot).2]
    rfl
  · rw [jobAt, Sched.liveAt_spawn hslot, Function.comp_update,
      apply_ite fun live => Option.bind live TaskBody.job]
    rfl

theorem jobAt_spawn_seated {s : Sched TaskBody} (h : seatFree s = true) (aspaceId : UInt32)
    (job : JobRef) : ∃ i, jobAt s i = none ∧
      jobAt (s.spawn ⟨aspaceId, some job⟩).2 = Function.update (jobAt s) i (some job) := by
  obtain ⟨hslot, hvisible⟩ := Bool.and_eq_true_iff.mp h
  obtain ⟨i, hi⟩ := Option.isSome_iff_exists.mp hslot
  obtain ⟨hbefore, hafter⟩ := jobAt_spawn hi ⟨aspaceId, some job⟩
  rw [if_pos hvisible] at hafter
  exact ⟨i, hbefore, hafter⟩

/-- A task that holds nothing, or that nobody sees, or that is not made. -/
theorem jobAt_spawn_unseated {s : Sched TaskBody} {body : TaskBody}
    (h : body.job = none ∨ seatFree s = false) : jobAt (s.spawn body).2 = jobAt s := by
  cases hslot : s.freeSlot with
  | none => rw [Sched.spawn_none hslot]
  | some i =>
    obtain ⟨hbefore, hafter⟩ := jobAt_spawn hslot body
    have hnothing : (if visiblePid s.nextPid then body.job else none) = none := by
      rcases h with hjob | hseat
      · rw [hjob, ite_self]
      · simp only [seatFree, hslot, Option.isSome_some, Bool.true_and] at hseat
        rw [hseat, if_neg (by simp)]
    rw [hafter, hnothing, ← hbefore, Function.update_eq_self]

section
variable {s s' : Processes} {lost : List JobRef}

theorem JobsBalanced.same (h : JobsBalanced lost s) (hlive : s'.sched.liveAt = s.sched.liveAt)
    (hjobs : s'.jobs = s.jobs) : JobsBalanced lost s' := by
  rw [JobsBalanced, jobAt, hlive, hjobs]
  exact h

theorem JobsBalanced.boot (m : Memory) : JobsBalanced [] (processesBoot m) := by
  intro job
  have hnobody : ∀ i, jobAt (processesBoot m).sched i ≠ some job := fun i => by
    rw [jobAt, Function.comp_apply, Sched.liveAt]
    simp only [processesBoot, schedInit]
    split <;> simp
  rw [holdersOf_eq_zero_iff.mpr hnobody]
  cases job <;> rfl

/-- A call that makes a task without a job, or none. -/
theorem JobsBalanced.spawn (h : JobsBalanced lost s) (housed : Housed s) :
    JobsBalanced lost (schedSpawnWithParent s).2 := by
  obtain ⟨hsched, hjobs⟩ := housed.spawn_eq
  rw [JobsBalanced, hsched, hjobs, jobAt_spawn_unseated (Or.inl rfl)]
  exact h

/-- **An exec** hands its job to its task, or loses it. -/
theorem JobsBalanced.exec (h : JobsBalanced lost s) (housed : Housed s) (path : List UInt8)
    (arg : Option (List UInt8)) :
    JobsBalanced (jobLost path arg s ++ lost) (builtinExecSpawn path arg s).2 := by
  unfold jobLost
  rcases housed.exec_cases path arg with ⟨hprog, hexec⟩ | ⟨prog, aspaces, hprog, hjob, -, hexec⟩ |
    ⟨prog, job, jobs, aspaces, hprog, hjob, hexec⟩
  · rw [hprog, hexec]
    exact h
  · simp only [hprog, hexec, Option.bind_eq_bind, Option.bind_some, hjob]
    exact h
  · simp only [hprog, hexec, Option.bind_eq_bind, Option.bind_some, hjob]
    obtain ⟨hfree, hused⟩ := allocJob_some hjob
    rw [JobsBalanced, hused]
    cases hseat : seatFree s.sched with
    | true =>
      obtain ⟨i, hempty, hseated⟩ := jobAt_spawn_seated hseat 1 job
      rw [hseated]
      exact h.take hfree hempty
    | false =>
      rw [jobAt_spawn_unseated (Or.inr hseat)]
      exact h.lose hfree

/-- **A task's end** gives its job back. -/
theorem JobsBalanced.taskEnds (h : JobsBalanced lost s) (hconsistent : s.sched.Consistent)
    (hcur : s.sched.current ≠ 0) : JobsBalanced lost s.taskEnds := by
  obtain ⟨t, -, ht, hrun, -⟩ := Processes.taskExit_eq hconsistent hcur
  have hholds : jobAt s.sched s.sched.current = t.code.job := by
    rw [jobAt, Function.comp_apply, Sched.liveAt_of_task ht (by simp [hrun])]
    rfl
  have hdropped : ∀ s' : Processes, s'.sched = s.sched →
      jobAt s'.taskExit.sched = Function.update (jobAt s.sched) s.sched.current none ∧
        s'.taskExit.jobs = s'.jobs := fun s' hsame => by
    obtain ⟨hlive, hjobs⟩ := taskExit_live (hsame ▸ hconsistent) (hsame ▸ hcur)
    rw [jobAt, hlive, Function.comp_update, hsame]
    exact ⟨rfl, hjobs⟩
  unfold Processes.taskEnds
  rw [ht, Option.bind_some]
  cases hjob : t.code.job with
  | none =>
    obtain ⟨hafter, hjobs⟩ := hdropped s rfl
    rw [hjob] at hholds
    rw [JobsBalanced, hjobs, hafter, ← hholds, Function.update_eq_self]
    exact h
  | some job =>
    obtain ⟨hafter, hjobs⟩ := hdropped { s with jobs := s.jobs.free job } rfl
    simp only
    rw [JobsBalanced, hjobs, hafter, jobUsed_free]
    exact h.give (hholds.trans hjob)

end

/-! ## Every run -/

/-- A path that names a program `builtin_exec_spawn` starts. -/
def Startable (path : List UInt8) : Prop :=
  ∃ prog ∈ programs, prog.path = path ∧ path ≠ cstr "/bin/ring3demo"

/-- There is a program to start, and a job for it. -/
def JobReady (path : List UInt8) (arg : Option (List UInt8)) (j : Jobs) : Prop :=
  ∃ prog ∈ programs, prog.path = path ∧ path ≠ cstr "/bin/ring3demo" ∧ PoolFree prog arg j

theorem startable_iff {path : List UInt8} : Startable path ↔ ∃ prog, spawnProgram path = some prog := by
  simp only [spawnProgram_some_iff]
  rfl

theorem jobReady_iff {path : List UInt8} {prog : BuiltinProgram} (arg : Option (List UInt8))
    (j : Jobs) (h : spawnProgram path = some prog) :
    JobReady path arg j ↔ (allocJob prog arg j).isSome = true := by
  rw [allocJob_isSome]
  constructor
  · rintro ⟨found, hmem, hpath, hne, hpool⟩
    have hfound := spawnProgram_some_iff.mpr ⟨hmem, hpath, hne⟩
    rw [h, Option.some.injEq] at hfound
    exact hfound ▸ hpool
  · intro hpool
    obtain ⟨hmem, hpath, hne⟩ := spawnProgram_some_iff.mp h
    exact ⟨prog, hmem, hpath, hne, hpool⟩

/-- An exec that comes to its spawn finds a slot for the task, and a pid it is seen by. -/
def ProcOp.Seated : ProcOp → Processes → Prop
  | .exec path arg, s => JobReady path arg s.jobs →
    s.sched.freeSlot.isSome = true ∧ visiblePid s.sched.nextPid = true
  | _, _ => True

/-- What a step loses. -/
def ProcOp.jobLost : ProcOp → Processes → List JobRef
  | .exec path arg, s => Proof.jobLost path arg s
  | _, _ => []

theorem ProcOp.jobLost_eq_nil {op : ProcOp} {s : Processes} :
    op.jobLost s = [] ↔ op.Seated s := by
  cases op with
  | exec path arg =>
    simp only [ProcOp.jobLost, ProcOp.Seated, Proof.jobLost]
    cases hprog : spawnProgram path with
    | none =>
      refine iff_of_true rfl fun ⟨prog, hmem, hpath, hne, _⟩ => ?_
      rw [spawnProgram_some_iff.mpr ⟨hmem, hpath, hne⟩] at hprog
      cases hprog
    | some prog =>
      rw [jobReady_iff arg s.jobs hprog]
      simp only [Option.bind_eq_bind, Option.bind_some, ← Bool.and_eq_true]
      cases allocJob prog arg s.jobs with
      | none => simp
      | some taken => simp [seatFree]
  | _ => exact iff_of_true rfl trivial

section
variable {s : Processes} {lost : List JobRef}

/-- **One step** enters what it loses. -/
theorem JobsBalanced.step (h : JobsBalanced lost s) (housed : Housed s) (op : ProcOp)
    (henabled : op.Enabled s) : JobsBalanced (op.jobLost s ++ lost) (op.run s) := by
  cases op with
  | spawn => exact h.spawn housed
  | fork => exact h.spawn housed
  | exec path arg => exact h.exec housed path arg
  | yield forced =>
    obtain ⟨hlive, hjobs⟩ := yield_live henabled.2
    exact h.same hlive hjobs
  | exit => exact h.taskEnds housed.consistent henabled.2
  | prepareReplay => exact h.same Sched.liveAt_prepareReplay rfl
  | syncOpen path stack fs frame =>
    simp only [ProcOp.run]
    split
    · exact h
    · obtain ⟨hsched, hjobs⟩ := syncOpen_live (by assumption) frame s
      exact h.same (congrArg Sched.liveAt hsched) hjobs
  | syncEnter =>
    obtain ⟨r, hr, -⟩ := henabled
    obtain ⟨hsched, hjobs⟩ := syncEnter_live r s
    simp only [ProcOp.run, hr, Option.map_some, Option.getD_some]
    exact h.same (congrArg Sched.liveAt hsched) hjobs
  | syncLeave =>
    obtain ⟨r, hr, -⟩ := henabled
    simp only [ProcOp.run, hr, Option.map_some, Option.getD_some]
    exact h

variable {P : ProcOp → Processes → Prop}

theorem ProcReaches.housed (h : ProcReaches P s) : Housed s := by
  induction h with
  | boot m => exact Housed.boot m
  | step op _ henabled _ ih => exact ih.step op henabled

/-- **A run** that loses nothing keeps every job with its task. -/
theorem ProcReaches.seated (h : ProcReaches ProcOp.Seated s) : JobsBalanced [] s := by
  induction h with
  | boot m => exact JobsBalanced.boot m
  | step op hs henabled hseated ih =>
    have hstep := ih.step hs.housed op henabled
    rwa [ProcOp.jobLost_eq_nil.mpr hseated] at hstep

/-- Whatever the run, what it lost says whether each of its steps was in order. -/
theorem ProcReaches.balancedJobs (h : ProcReaches P s) :
    ∃ lost, JobsBalanced lost s ∧ (lost = [] → ProcReaches ProcOp.Seated s) := by
  induction h with
  | boot m => exact ⟨[], JobsBalanced.boot m, fun _ => .boot m⟩
  | step op hs henabled _ ih =>
    obtain ⟨lost, hbalanced, hreaches⟩ := ih
    refine ⟨_, hbalanced.step hs.housed op henabled, fun hnothing => ?_⟩
    obtain ⟨hnow, hbefore⟩ := List.append_eq_nil_iff.mp hnothing
    exact .step op (hreaches hbefore) henabled (ProcOp.jobLost_eq_nil.mp hnow)

/-- Every used job has its task in the states that are reached without losing one. -/
theorem ProcReaches.owned_iff (h : ProcReaches P s) :
    (∀ job, jobUsed s.jobs job = true → ∃! i, jobAt s.sched i = some job) ↔
      ProcReaches ProcOp.Seated s := by
  obtain ⟨lost, hbalanced, hreaches⟩ := h.balancedJobs
  rw [hbalanced.owned_iff]
  refine ⟨hreaches, fun hseated => hbalanced.owned_iff.mp (hseated.seated.owned_iff.mpr rfl)⟩

end

/-! ## What a failed exec leaves -/

/-- The tasks, the reference counts and the pools are what they were. -/
structure NoTrace (k k' : TaskTable) : Prop where
  sched : k'.procs.sched = k.procs.sched
  rest : k'.rest = k.rest
  refcounts : ∀ i, (k'.procs.aspaces.table i).map (fun a => a.info.refcount) =
    (k.procs.aspaces.table i).map fun a => a.info.refcount
  used : jobUsed k'.procs.jobs = jobUsed k.procs.jobs

theorem NoTrace.refl (k : TaskTable) : NoTrace k k := ⟨rfl, rfl, fun _ => rfl, rfl⟩

/-- What a failed exec needs to leave no trace: once it has its job it may not fail, and when
    there is no job the reference it took is counted up and down again. -/
structure ExecRecovers (path : List UInt8) (arg : Option (List UInt8)) (s : Processes) : Prop where
  seated : JobReady path arg s.jobs →
    s.sched.freeSlot.isSome = true ∧ negative s.sched.nextPid = false
  counted : Startable path → ¬ JobReady path arg s.jobs →
    ∀ a, s.aspaces.table 0 = some a → a.info.refcount ≠ 0xffffffff

/-- Up and down: 0xffffffff goes to 0, and stays there. -/
theorem upDown_eq_iff (c : UInt32) :
    (if c + 1 > 0 then c + 1 - 1 else c + 1) = c ↔ c ≠ 0xffffffff := by
  by_cases hc : c = 0xffffffff
  · subst hc
    decide
  · have hpos : c + 1 > 0 := by
      refine UInt32.pos_iff_ne_zero.mpr fun hzero => hc ?_
      calc c = c + 1 - 1 := (UInt32.add_sub_cancel c 1).symm
        _ = 0 - 1 := by rw [hzero]
        _ = 0xffffffff := by decide
    rw [if_pos hpos, UInt32.add_sub_cancel]
    exact iff_of_true rfl hc

/-- A retain and a release of the kernel's space. -/
theorem PlainSpaces.retain_release {s s' : Aspaces} (h : PlainSpaces s)
    (hretain : s.retain 1 = some s') :
    (∀ i, ((s'.release 1).table i).map (fun a => a.info.refcount) =
      (s.table i).map fun a => a.info.refcount) ↔
      ∀ a, s.table 0 = some a → a.info.refcount ≠ 0xffffffff := by
  obtain ⟨a, ha, -⟩ := h.kernel
  have hup : s' = s.setRefcount 0 a (a.info.refcount + 1) :=
    Option.some.inj (hretain.symm.trans (Aspaces.retain_found h.findKernel ha))
  have hplain := h.recount ha (a.info.refcount + 1)
  have hdown : ((s.setRefcount 0 a (a.info.refcount + 1)).release 1).table = Function.update s.table 0
      (some { a with info := { a.info with refcount :=
        if a.info.refcount + 1 > 0 then a.info.refcount + 1 - 1 else a.info.refcount + 1 } }) := by
    simp only [Aspaces.release, hplain.findKernel, hplain.kernelId]
    simp only [Aspaces.setRefcount, Function.update_self, ne_eq, not_true_eq_false, and_false,
      if_false, Function.update_idem]
  rw [hup, hdown]
  constructor
  · intro hsame b hb
    have hkernel := hsame 0
    rw [ha, Option.some.injEq] at hb
    rw [Function.update_self, ha, Option.map_some, Option.map_some, Option.some.injEq] at hkernel
    exact hb ▸ (upDown_eq_iff a.info.refcount).mp hkernel
  · intro hcount i
    by_cases hi : i = 0
    · subst hi
      rw [Function.update_self, ha]
      exact congrArg some ((upDown_eq_iff a.info.refcount).mpr (hcount a ha))
    · rw [Function.update_of_ne hi]

section
variable {k : TaskTable} {path : List UInt8} {arg : Option (List UInt8)} {prog : BuiltinProgram}

/-- Without a job no slot of the table is written. -/
theorem exec_rest_jobless (h : Housed k.procs) (hprog : spawnProgram path = some prog)
    (hjob : allocJob prog arg k.procs.jobs = none) : (k.exec path arg).rest = k.rest := by
  obtain ⟨aspaces, hretain, -⟩ := h.spaces.retain
  simp only [TaskTable.exec, hprog, h.spaces.kernelId, hretain,
    if_neg (show ¬ (1 : UInt32) = 0 by decide), hjob]

theorem exec_unknown (hprog : spawnProgram path = none) : k.exec path arg = k := by
  simp only [TaskTable.exec, hprog]

/-- A pid is handed out, and is no error number. -/
theorem spawn_filter_ne_none (s : Sched TaskBody) (body : TaskBody) :
    ((s.spawn body).1.filter fun pid => !negative pid) ≠ none ↔
      s.freeSlot.isSome = true ∧ negative s.nextPid = false := by
  unfold Sched.spawn
  cases s.freeSlot with
  | none => simp
  | some i => simp [Option.filter_some]

/-- **A failed exec**, in any state the table can be in. -/
theorem Housed.noTrace_iff (h : Housed k.procs) :
    ((builtinExecSpawn path arg k.procs).1 = none → NoTrace k (k.exec path arg)) ↔
      ExecRecovers path arg k.procs := by
  have hprocs := exec_procs path arg k
  -- how far the call came: no program, no free job, or a job taken
  rcases h.exec_cases path arg with ⟨hprog, hexec⟩ | ⟨prog, aspaces, hprog, hjob, hretain, hexec⟩ |
    ⟨prog, job, jobs, aspaces, hprog, hjob, hexec⟩
  · -- nothing was taken
    have hunknown : ¬ Startable path := by
      rw [startable_iff, hprog]
      simp
    rw [exec_unknown hprog]
    refine iff_of_true (fun _ => NoTrace.refl k) ⟨?_, fun hknown => absurd hknown hunknown⟩
    rintro ⟨found, hmem, hpath, hne, -⟩
    exact absurd ⟨found, hmem, hpath, hne⟩ hunknown
  · -- the reference was taken and dropped
    have hready : ¬ JobReady path arg k.procs.jobs := by
      rw [jobReady_iff arg k.procs.jobs hprog, hjob]
      simp
    have hcounts := h.spaces.retain_release hretain
    rw [hexec] at hprocs
    rw [hexec]
    constructor
    · intro hnone
      refine ⟨fun hyes => absurd hyes hready, fun _ _ => hcounts.mp ?_⟩
      have hrefcounts := (hnone rfl).refcounts
      rwa [hprocs] at hrefcounts
    · intro hrecovers _
      refine ⟨by rw [hprocs], exec_rest_jobless h hprog hjob, ?_, by rw [hprocs]⟩
      rw [hprocs]
      exact hcounts.mpr (hrecovers.counted (startable_iff.mpr ⟨prog, hprog⟩) hready)
  · -- the job was taken, and nothing gives it back
    have hready : JobReady path arg k.procs.jobs := by
      rw [jobReady_iff arg k.procs.jobs hprog, hjob]
      rfl
    obtain ⟨hfree, hused⟩ := allocJob_some hjob
    rw [hexec] at hprocs
    have hkept : ¬ NoTrace k (k.exec path arg) := fun htrace => by
      have hsame := congrFun htrace.used job
      rw [hprocs] at hsame
      simp only [hused, Function.update_self, hfree] at hsame
      cases hsame
    have hspawned : (builtinExecSpawn path arg k.procs).1 ≠ none ↔
        k.procs.sched.freeSlot.isSome = true ∧ negative k.procs.sched.nextPid = false := by
      rw [hexec]
      exact spawn_filter_ne_none k.procs.sched _
    constructor
    · intro hnone
      exact ⟨fun _ => hspawned.mp fun hfailed => hkept (hnone hfailed),
        fun _ hnot => absurd hready hnot⟩
    · intro hrecovers hfailed
      exact absurd hfailed (hspawned.mpr (hrecovers.seated hready))

end

/-- **Failed execs and owned jobs.** In every state that is reached, a failed exec leaves no
    trace exactly when it had no job to fail with and the kernel's count was not at its end;
    and every used job belongs to exactly one unfinished task exactly when the state is reached
    by steps of which no exec came to its spawn without a slot for its task and a pid it is
    seen by.

    `h` is any run from boot, with no condition on its steps. The first part is about any path and
    argument; the second is about the state, and its right side says that it is also reached by
    steps of which no exec lost a job. -/
theorem exec_leaves_no_trace_iff {k : TaskTable} (h : ProcReaches (fun _ _ => True) k.procs) :
    (∀ path arg, ((builtinExecSpawn path arg k.procs).1 = none → NoTrace k (k.exec path arg)) ↔
      ExecRecovers path arg k.procs) ∧
      ((∀ job, jobUsed k.procs.jobs job = true → ∃! i, jobAt k.procs.sched i = some job) ↔
        ProcReaches ProcOp.Seated k.procs) :=
  ⟨fun _ _ => h.housed.noTrace_iff, h.owned_iff⟩

/-- The shell has forked `n` times, and none of the children has run yet. -/
def crowded (m : Memory) : Nat → TaskTable
  | 0 => taskTableBoot m
  | n + 1 => (crowded m n).fork

theorem crowded_reaches (m : Memory) : ∀ n : Nat,
    ProcReaches (fun _ _ => True) (crowded m n).procs ∧ (crowded m n).procs.sync = none
  | 0 => ⟨.boot m, rfl⟩
  | n + 1 => by
    obtain ⟨hreaches, hidle⟩ := crowded_reaches m n
    rw [crowded, TaskTable.fork, spawnWithParent_procs]
    exact hreaches.fork hidle

/-- With seven children in the table `/bin/ps` has nowhere to go, and its job stays taken. -/
theorem exec_full_table_leaks : ∃ k : TaskTable, k = crowded sampleMemory 7 ∧
    ProcReaches (fun _ _ => True) k.procs ∧
      (builtinExecSpawn (cstr "/bin/ps") none k.procs).1 = none ∧
      ¬ NoTrace k (k.exec (cstr "/bin/ps") none) ∧
      ProcReaches (fun _ _ => True) (k.exec (cstr "/bin/ps") none).procs ∧
      jobUsed (k.exec (cstr "/bin/ps") none).procs.jobs (.generic 0) = true ∧
      ∀ i, jobAt (k.exec (cstr "/bin/ps") none).procs.sched i ≠ some (.generic 0) := by
  obtain ⟨hreaches, hidle⟩ := crowded_reaches sampleMemory 7
  have hfree : jobUsed (crowded sampleMemory 7).procs.jobs (.generic 0) = false := rfl
  have hused : jobUsed ((crowded sampleMemory 7).exec (cstr "/bin/ps") none).procs.jobs
      (.generic 0) = true := by decide +kernel
  refine ⟨_, rfl, hreaches, by decide +kernel, fun htrace => ?_, ?_, hused, by decide +kernel⟩
  · rw [htrace.used, hfree] at hused
    cases hused
  · rw [exec_procs]
    exact .step (.exec (cstr "/bin/ps") none) hreaches hidle trivial

/-- After boot `/bin/ping` with nobody to ping fails without a trace, and `/bin/ps` has its job
    to itself. -/
theorem exec_leaves_no_trace_boot :
    NoTrace (taskTableBoot sampleMemory) ((taskTableBoot sampleMemory).exec (cstr "/bin/ping") none) ∧
      ∃! i, jobAt ((taskTableBoot sampleMemory).exec (cstr "/bin/ps") none).procs.sched i =
        some (.generic 0) := by
  have hboot : ProcReaches (fun _ _ => True) (taskTableBoot sampleMemory).procs := .boot sampleMemory
  constructor
  · have hping : spawnProgram (cstr "/bin/ping") =
        some ⟨cstr "/bin/ping", builtinImage 0x401000, .ping⟩ :=
      spawnProgram_some_iff.mpr ⟨List.mem_cons_self, rfl, by decide⟩
    have hready : ¬ JobReady (cstr "/bin/ping") none (processesBoot sampleMemory).jobs := by
      rw [jobReady_iff none _ hping]
      decide
    refine ((exec_leaves_no_trace_iff hboot).1 (cstr "/bin/ping") none).mpr
      ⟨fun hyes => absurd hyes hready, fun _ _ a ha => ?_⟩ (by decide +kernel)
    have hone : ((processesBoot sampleMemory).aspaces.table 0).map (fun a => a.info.refcount) =
        some 1 := rfl
    change (processesBoot sampleMemory).aspaces.table 0 = some a at ha
    rw [ha, Option.map_some, Option.some.injEq] at hone
    rw [hone]
    decide
  · have hps : ∀ {P : ProcOp → Processes → Prop}, P (.exec (cstr "/bin/ps") none)
        (processesBoot sampleMemory) →
          ProcReaches P ((taskTableBoot sampleMemory).exec (cstr "/bin/ps") none).procs :=
      fun hstep => by
        rw [exec_procs]
        exact .step (.exec (cstr "/bin/ps") none) (.boot sampleMemory) rfl hstep
    have hseated := hps (P := ProcOp.Seated) fun _ => by decide +kernel
    exact (exec_leaves_no_trace_iff (hps trivial)).2.mpr hseated (.generic 0) (by decide +kernel)

end Proof
end BumbelBee
