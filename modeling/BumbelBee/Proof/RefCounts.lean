import Mathlib.Algebra.BigOperators.Fin
import BumbelBee.Proof.Holders

/-!
# Reference counts of address spaces over whole runs

Steps are spawns, forks, execs, switches, exits and the parts of a `builtin_exec_run_sync`,
in any order the kernel can make them. Where each hands out good numbers (a pid that is
visible, an id that is fresh) the counts are exact in every state that is reached. The pids
wrap, and then they are not: `refcounts_leak` forks until they do.

A count is right only with respect to who is counted, and the holders are of three kinds: the live
tasks, the kernel's own reference from the start, and a call of `builtin_exec_run_sync` that is
under way. That a space is dropped by its last holder and by no other is then arithmetic; what is
not is that the id a task carries still means the space it was given for, and this is what good
numbers are for.
-/

namespace BumbelBee
namespace Proof

open Lib Kernel

/-! ## Every run

A `builtin_exec_run_sync` comes in three parts, since the program runs between the load and the
release and other tasks may be switched to before it. `Numbered` is asked of a step and the state
before it; a step that hands no number out has nothing to meet.
-/

/-- The calls that make tasks and end them, the switches between them, and the three parts of
    a `builtin_exec_run_sync`. -/
inductive ProcOp
  | spawn
  | fork
  | exec (path : List UInt8) (arg : Option (List UInt8))
  /-- `sched_yield`; `forced` is what a replay asks for. -/
  | yield (forced : Option (Fin maxTasks))
  | exit
  | prepareReplay
  /-- The call, with the filesystem and the stack it finds. -/
  | syncOpen (path : List UInt8) (stack : Nat → UInt8) (fs : Fs) (frame : ImageMem)
  | syncEnter
  | syncLeave

def ProcOp.run : ProcOp → Processes → Processes
  | .spawn, s => (schedSpawn s).2
  | .fork, s => (sysFork s).2
  | .exec path arg, s => (builtinExecSpawn path arg s).2
  | .yield forced, s => s.yield forced
  | .exit, s => s.taskEnds
  | .prepareReplay, s => { s with sched := s.sched.prepareReplay }
  | .syncOpen path stack fs frame, s =>
    match runSyncImage path stack fs with
    | .error _ => s
    | .ok (image, _) => runSyncOpen image frame s
  | .syncEnter, s => (s.sync.map fun r => runSyncEnter r s).getD s
  | .syncLeave, s => (s.sync.map fun r => runSyncLeave r s).getD s

/-- While a ring-3 program runs nothing else does; it is loaded before it runs. Elsewhere the
    shell has no `task_exit` to come to, and a replay asks for a ready slot. -/
def ProcOp.Enabled : ProcOp → Processes → Prop
  | .exit, s => s.sync = none ∧ s.sched.current ≠ 0
  | .yield forced, s => s.sync = none ∧ ∀ next, forced = some next → s.sched.isReady next = true
  | .syncOpen path stack fs _, s => s.sync = none ∧ (runSyncImage path stack fs).isOk = true
  | .syncEnter, s => ∃ r, s.sync = some r ∧ r.entered = false
  | .syncLeave, s => ∃ r, s.sync = some r ∧ r.entered = true
  | _, s => s.sync = none

/-- The pid a spawn hands out is one `task_visible` admits. -/
def SpawnNumbered (s : Processes) : Prop :=
  s.sched.freeSlot.isSome = true → visiblePid s.sched.nextPid = true

/-- The numbers a step hands out are good: a pid is visible, an address space's id fresh. -/
def ProcOp.Numbered : ProcOp → Processes → Prop
  | .spawn, s => ForkNumbered s.currentAspace s.aspaces ∧ SpawnNumbered s
  | .fork, s => ForkNumbered s.currentAspace s.aspaces ∧ SpawnNumbered s
  | .exec path arg, s => startsTask path arg s = true → SpawnNumbered s
  | .syncOpen .., s => CreateNumbered s.aspaces
  | _, _ => True

/-- What boot and any steps reach that each have the property. -/
inductive ProcReaches (P : ProcOp → Processes → Prop) : Processes → Prop
  | boot (m : Memory) : ProcReaches P (processesBoot m)
  | step {s : Processes} (op : ProcOp) (h : ProcReaches P s) (henabled : op.Enabled s)
      (hstep : P op s) : ProcReaches P (op.run s)

theorem Balanced.boot (m : Memory) : Balanced 1 [] (processesBoot m) := by
  have hheld : heldAt (processesBoot m).sched = Function.update (fun _ => none) 0 (some 1) := by
    funext i
    by_cases hi : i = 0
    · subst hi
      rfl
    · rw [Function.update_of_ne hi]
      simp [heldAt, processesBoot, schedInit, hi]
  have hrefs : ∀ k, refsTo [] (processesBoot m) k = oneMore 1 (fun _ => 0) k := fun k => by
    have hnone : holdersOf (fun _ : Fin maxTasks => (none : Option UInt32)) = fun _ => 0 :=
      funext fun _ => tally_eq_zero_iff.mpr fun _ => rfl
    rw [refsTo, hheld, holdersOf_take rfl, hnone, List.count_nil, Nat.add_zero]
  have hslot : ∀ i a, (aspaceInit m).table i = some a → i = 0 ∧ a.info.id = 1 ∧
      a.info.refcount = 1 := by
    intro i a ha
    by_cases hi : i = 0
    · subst hi
      cases ha
      exact ⟨rfl, rfl, rfl⟩
    · have hnone : (aspaceInit m).table i = none := Function.update_of_ne hi _ _
      rw [hnone] at ha
      cases ha
  refine ⟨Counted.congr ?_ hrefs, Sched.Consistent.init _, rfl, rfl, (hrefs 0).trans rfl⟩
  refine ⟨fun i a ha => ?_, fun i a ha => Or.inl (hslot i a ha).2.1, fun i j a b ha hb _ => ?_,
    fun k hk => ⟨0, _, rfl, ?_⟩⟩
  · rw [(hslot i a ha).2.1, (hslot i a ha).2.2, oneMore_self]
    rfl
  · rw [(hslot i a ha).1, (hslot j b hb).1]
  · by_contra hne
    have hzero : oneMore 1 (fun _ => 0) k = 0 := oneMore_of_ne (Ne.symm hne) _
    rcases hk with rfl | hheld
    · exact hne rfl
    · omega

/-! Only the parts of a `builtin_exec_run_sync` move it on. -/

@[simp] theorem spawnTask_sync (job : Option JobRef) (id : UInt32) (s : Processes) :
    (schedSpawnWithParentAspace job id s).2.sync = s.sync := by
  unfold schedSpawnWithParentAspace
  split
  · rfl
  · split <;> rfl

theorem spawn_sync (s : Processes) : (schedSpawnWithParent s).2.sync = s.sync := by
  unfold schedSpawnWithParent
  simp only
  split
  · rfl
  · exact spawnTask_sync _ _ _

theorem exec_sync (path : List UInt8) (arg : Option (List UInt8)) (s : Processes) :
    (builtinExecSpawn path arg s).2.sync = s.sync := by
  unfold builtinExecSpawn
  split
  · rfl
  · simp only
    split
    · rfl
    · split
      · rfl
      · split
        · rfl
        · rename_i job jobs _
          have hsync := spawnTask_sync (some job) s.aspaces.kernelAspaceId
          split
          · rename_i s' hres
            exact (congrArg (fun r => r.2.sync) hres).symm.trans (hsync _)
          · rename_i s' hres
            exact (congrArg (fun r => r.2.sync) hres).symm.trans (hsync _)

theorem dispatchNext_sync (next : Option (Fin maxTasks)) (s : Processes) :
    (s.dispatchNext next).sync = s.sync := by
  cases next with
  | none => rfl
  | some next =>
    change (s.switchTo next).sync = s.sync
    unfold Processes.switchTo
    split <;> rfl

theorem taskEnds_sync (s : Processes) : s.taskEnds.sync = s.sync := by
  have hexit : ∀ s : Processes, s.taskExit.sync = s.sync := by
    intro s
    unfold Processes.taskExit
    split
    · rfl
    · exact dispatchNext_sync _ _
  unfold Processes.taskEnds
  split
  · exact hexit s
  · exact hexit _

theorem lostBy_numbered {s : Processes} (h : SpawnNumbered s) (id : UInt32) : lostBy id s = [] := by
  refine if_neg ?_
  rintro ⟨hslot, hdenied⟩
  rw [h hslot] at hdenied
  cases hdenied

theorem Balanced.prepareReplay {s : Processes} {home : UInt32} {extra : List UInt32}
    (h : Balanced home extra s) : Balanced home extra { s with sched := s.sched.prepareReplay } := by
  have hheld : heldAt s.sched.prepareReplay = heldAt s.sched := heldAt_prepareReplay
  have hrefs : ∀ k, refsTo extra { s with sched := s.sched.prepareReplay } k = refsTo extra s k :=
    fun k => by rw [refsTo, refsTo, hheld]
  exact ⟨h.counted.congr hrefs, h.consistent.prepareReplay, by rw [hheld]; exact h.shell,
    h.kernel, (hrefs 0).trans h.proper⟩

/-- **One step** keeps the books, when the numbers it hands out are good. -/
theorem Balanced.step {s : Processes} {home : UInt32} (h : Balanced home (syncRefs s.sync) s)
    (op : ProcOp) (henabled : op.Enabled s) (hnumbered : op.Numbered s) :
    Balanced home (syncRefs (op.run s).sync) (op.run s) := by
  have hidle : s.sync = none → Balanced home [] s := fun hsync => by
    rw [hsync] at h
    exact h
  -- a call that ends with nothing in hand, no ring-3 program running
  have hdone : ∀ {s' : Processes}, s'.sync = none → Balanced home [] s' →
      Balanced home (syncRefs s'.sync) s' := fun hsync h' => by
      rw [hsync]
      exact h'
  have hspawned : ForkNumbered s.currentAspace s.aspaces → SpawnNumbered s → s.sync = none →
      Balanced home [] (schedSpawnWithParent s).2 := by
    intro hfork hpid hsync
    have hspawn := (hidle hsync).spawn (by simp) hfork
    have hnone : lostBySpawn s = [] := by
      simp only [lostBySpawn, lostBy_numbered hpid, ite_self]
    rwa [hnone] at hspawn
  cases op with
  | spawn => exact hdone ((spawn_sync s).trans henabled) (hspawned hnumbered.1 hnumbered.2 henabled)
  | fork => exact hdone ((spawn_sync s).trans henabled) (hspawned hnumbered.1 hnumbered.2 henabled)
  | exec path arg =>
    have hexec := (hidle henabled).exec (by simp) path arg
    have hnone : lostByExec path arg s = [] := by
      unfold lostByExec
      split
      · exact lostBy_numbered (hnumbered (by assumption)) _
      · rfl
    rw [hnone] at hexec
    exact hdone ((exec_sync path arg s).trans henabled) hexec
  | yield forced =>
    exact hdone ((dispatchNext_sync _ s).trans henabled.1) ((hidle henabled.1).yield henabled.2)
  | exit =>
    exact hdone ((taskEnds_sync s).trans henabled.1) ((hidle henabled.1).taskEnds henabled.2)
  | prepareReplay => exact h.prepareReplay
  | syncOpen path stack fs frame =>
    obtain ⟨hsync, -⟩ := henabled
    simp only [ProcOp.run]
    split
    · exact h
    · exact (hidle hsync).syncOpen hsync hnumbered _ _
  | syncEnter =>
    obtain ⟨r, hr, -⟩ := henabled
    rw [hr] at h
    simp only [ProcOp.run, hr, Option.map_some, Option.getD_some]
    exact Balanced.syncEnter h
  | syncLeave =>
    obtain ⟨r, hr, -⟩ := henabled
    rw [hr] at h
    simp only [ProcOp.run, hr, Option.map_some, Option.getD_some]
    exact Balanced.syncLeave h

/-- **A whole run** keeps them. -/
theorem ProcReaches.balanced {s : Processes} (h : ProcReaches ProcOp.Numbered s) :
    Balanced 1 (syncRefs s.sync) s := by
  induction h with
  | boot m => exact Balanced.boot m
  | step op _ henabled hnumbered ih => exact ih.step op henabled hnumbered

/-- The tasks behind the shell that hold an address space and are not zombies. -/
def holders (s : Processes) (id : UInt32) : Nat :=
  ((List.finRange maxTasks).drop 1).countP fun i => heldAt s.sched i == some id

theorem holders_add_shell (s : Processes) (id : UInt32) :
    holdersOf (heldAt s.sched) id =
      holders s id + if heldAt s.sched 0 = some id then 1 else 0 := by
  have hslots : (List.finRange maxTasks).drop 1 = [1, 2, 3, 4, 5, 6, 7] := by decide
  unfold holdersOf tally holders
  rw [hslots, Fin.sum_univ_eight]
  simp only [share_holder, List.countP_cons, List.countP_nil, beq_iff_eq]
  omega

/-- **Reference counts.** In every run whose steps hand out good numbers: a used slot's count
    is the number of live tasks behind the shell that hold it, and one for the reference the
    kernel's space was created with or for the call that runs a program in it; no live task
    refers to a space that is gone; and no user space stays behind its last holder.

    `h` is a run whose steps each hand out good numbers: a pid that is not among those nobody sees,
    and an id that no space in use has. Both counters are 32 bits wide, so the condition is on the
    state before a step and says nothing for the first 2³¹ of them. -/
theorem refcounts_exact {s : Processes} (h : ProcReaches ProcOp.Numbered s) :
    (∀ i a, s.aspaces.table i = some a → a.info.refcount.toNat = holders s a.info.id +
      (if a.info.id = s.aspaces.kernelAspaceId then 1 else 0) +
      (if s.sync.map SyncRun.aspaceId = some a.info.id then 1 else 0)) ∧
      (∀ i t, s.sched.tasks i = some t → t.state ≠ .zombie → ∃ j a,
        s.aspaces.findSlot t.code.aspaceId = some j ∧ s.aspaces.table j = some a ∧
          a.info.id = t.code.aspaceId) ∧
      ∀ i a, s.aspaces.table i = some a → a.info.id ≠ s.aspaces.kernelAspaceId →
        (∃ j t, j ≠ 0 ∧ s.sched.tasks j = some t ∧ t.state ≠ .zombie ∧
          t.code.aspaceId = a.info.id) ∨ s.sync.map SyncRun.aspaceId = some a.info.id := by
  have hb := h.balanced
  have hexact : ∀ i a, s.aspaces.table i = some a → a.info.refcount.toNat = holders s a.info.id +
      (if a.info.id = s.aspaces.kernelAspaceId then 1 else 0) +
      (if s.sync.map SyncRun.aspaceId = some a.info.id then 1 else 0) := by
    intro i a ha
    have hcount := hb.counted.exact i a ha
    rw [refsTo, holders_add_shell, hb.shell, syncRefs_count, ← hb.kernel] at hcount
    simpa only [Option.some.injEq, eq_comm] using hcount
  refine ⟨hexact, fun i t ht hlive => hb.findLive ht hlive, fun i a ha huser => ?_⟩
  by_contra hnobody
  rw [not_or] at hnobody
  have hcount := hexact i a ha
  have hused := (hb.counted.used i a ha).resolve_left huser
  -- without the call and with no holder behind the shell the count is zero
  have hnone : holders s a.info.id = 0 := by
    refine List.countP_eq_zero.mpr fun j hj hheld => hnobody.1 ?_
    obtain ⟨t, ht, hlive, hid⟩ := heldAt_some (beq_iff_eq.mp hheld)
    refine ⟨j, t, ?_, ht, hlive, hid⟩
    rintro rfl
    exact absurd hj (by decide)
  rw [if_neg huser, if_neg hnobody.2, hnone, hb.counted.exact i a ha] at hcount
  omega

/-! ## One fork after the other -/

/-- The kernel's space, alone, with a count. -/
def kernelAspaces (m : Memory) (refcount : UInt32) : Aspaces where
  table i := if i = 0 then some ⟨⟨1, .kernel, refcount, false, m.cr3, 0, cstr "kernel"⟩, 0⟩ else none
  nextAspaceId := 2
  kernelAspaceId := 1
  kernelCr3 := m.cr3
  memory := m

/-- The shell runs, and slot 1 is the only other one ever taken. -/
def forkTable (nextPid : UInt32) (slot : Option (Kernel.Task TaskBody)) : Sched TaskBody where
  tasks i := if i = 0 then some ⟨.running, 1, ⟨1, none⟩⟩ else if i = 1 then slot else none
  current := 0
  nextPid := nextPid

def forkState (m : Memory) (refcount nextPid : UInt32) (slot : Option (Kernel.Task TaskBody)) :
    Processes :=
  ⟨forkTable nextPid slot, kernelAspaces m refcount, ⟨fun _ => none, fun _ => none⟩, none⟩

section
variable {m : Memory} {refcount nextPid : UInt32} {slot : Option (Kernel.Task TaskBody)}

theorem kernelAspaces_set (m : Memory) (refcount refcount' : UInt32) :
    (kernelAspaces m refcount).setRefcount 0
      ⟨⟨1, .kernel, refcount, false, m.cr3, 0, cstr "kernel"⟩, 0⟩ refcount' =
        kernelAspaces m refcount' := by
  simp only [Aspaces.setRefcount, kernelAspaces, Aspaces.mk.injEq, and_true]
  funext i
  by_cases hi : i = 0
  · rw [hi, Function.update_self, if_pos rfl]
  · rw [Function.update_of_ne hi, if_neg hi, if_neg hi]

theorem kernelAspaces_retain (m : Memory) (refcount : UInt32) :
    (kernelAspaces m refcount).retain 1 = some (kernelAspaces m (refcount + 1)) :=
  congrArg some (kernelAspaces_set m refcount (refcount + 1))

theorem kernelAspaces_release (m : Memory) (h : refcount + 1 ≠ 0) :
    (kernelAspaces m (refcount + 1)).release 1 = kernelAspaces m refcount := by
  have hfind : (kernelAspaces m (refcount + 1)).findSlot 1 = some 0 := rfl
  have hpos : refcount + 1 > 0 := UInt32.pos_iff_ne_zero.mpr h
  simp only [Aspaces.release, hfind]
  simp only [kernelAspaces, if_true, if_pos hpos, ne_eq, not_true_eq_false, and_false, if_false,
    UInt32.add_sub_cancel]
  exact kernelAspaces_set m (refcount + 1) refcount

theorem kernelAspaces_forkClone (m : Memory) (refcount : UInt32) :
    (kernelAspaces m refcount).forkClone 1 = (1, kernelAspaces m (refcount + 1)) := by
  have hslot : (kernelAspaces m refcount).findSlot 1 >>= (kernelAspaces m refcount).table =
      some ⟨⟨1, .kernel, refcount, false, m.cr3, 0, cstr "kernel"⟩, 0⟩ := rfl
  simp only [Aspaces.forkClone, hslot, kernelAspaces_retain]

/-- A fork into the empty or dead slot 1. -/
theorem forkState_fork (hfree : slot = none ∨ ∃ pid body, slot = some ⟨.zombie, pid, body⟩)
    (hcount : refcount + 1 + 1 ≠ 0) :
    (sysFork (forkState m refcount nextPid slot)).2 = forkState m (refcount + 1) (nextPid + 1)
      (if visiblePid nextPid then some ⟨.ready, nextPid, ⟨1, none⟩⟩ else none) := by
  have hslot : (forkTable nextPid slot).freeSlot = some 1 := by
    rcases hfree with rfl | ⟨pid, body, rfl⟩ <;> rfl
  have htable : ((forkTable nextPid slot).spawn ⟨1, none⟩).2 = forkTable (nextPid + 1)
      (if visiblePid nextPid then some ⟨.ready, nextPid, ⟨1, none⟩⟩ else none) := by
    simp only [Sched.spawn, hslot]
    simp only [forkTable, Sched.mk.injEq, and_true]
    funext i
    by_cases hi : i = 1
    · rw [hi, Function.update_self]
      rfl
    · rw [Function.update_of_ne hi, if_neg hi, if_neg hi]
  have hcurrent : (forkState m refcount nextPid slot).currentAspace = 1 := rfl
  simp only [sysFork, schedSpawnWithParent, hcurrent]
  simp only [forkState, kernelAspaces_forkClone, if_neg (show (1 : UInt32) ≠ 0 by decide),
    schedSpawnWithParentAspace, hslot, kernelAspaces_retain, Processes.release, htable,
    kernelAspaces_release m hcount]

/-- The child of a fork, switched to. -/
def childRunning (m : Memory) (refcount nextPid pid : UInt32) : Processes where
  sched := (forkTable nextPid (some ⟨.ready, pid, ⟨1, none⟩⟩)).switchTo 1
  aspaces := kernelAspaces m refcount
  jobs := ⟨fun _ => none, fun _ => none⟩
  sync := none

theorem forkState_yield (pid : UInt32) :
    (forkState m refcount nextPid (some ⟨.ready, pid, ⟨1, none⟩⟩)).yield none =
      childRunning m refcount nextPid pid := rfl

/-- The child ends, and the shell runs again. -/
theorem childRunning_ends (hcount : refcount + 1 ≠ 0) (pid : UInt32) :
    (childRunning m (refcount + 1) nextPid pid).taskEnds =
      forkState m refcount nextPid (some ⟨.zombie, pid, ⟨1, none⟩⟩) := by
  have htask : (childRunning m (refcount + 1) nextPid pid).sched.tasks
      (childRunning m (refcount + 1) nextPid pid).sched.current =
        some ⟨.running, pid, ⟨1, none⟩⟩ := rfl
  have hnext : ((childRunning m (refcount + 1) nextPid pid).sched.retire ⟨1, none⟩).findNextReady =
      some 0 := by
    have hround : ((List.finRange maxTasks).map fun i => (1 : Fin maxTasks) + 1 + i) =
        [2, 3, 4, 5, 6, 7, 0, 1] := by decide
    rw [Sched.findNextReady]
    change List.find? _ ((List.finRange maxTasks).map fun i => (1 : Fin maxTasks) + 1 + i) = some 0
    rw [hround]
    rfl
  have htable : ((childRunning m (refcount + 1) nextPid pid).sched.retire ⟨1, none⟩).switchTo 0 =
      forkTable nextPid (some ⟨.zombie, pid, ⟨1, none⟩⟩) := by
    simp only [Sched.switchTo, Sched.retire, childRunning, forkTable, Sched.mk.injEq, and_true]
    funext i
    by_cases h0 : i = 0
    · subst h0
      rfl
    · by_cases h1 : i = 1
      · subst h1
        rfl
      · simp only [if_neg h0, if_neg h1, Function.update_of_ne h1]
  have haspaces : (childRunning m (refcount + 1) nextPid pid).aspaces.release 1 =
      kernelAspaces m refcount := kernelAspaces_release m hcount
  simp only [Processes.taskEnds, htask, Option.bind_some, Processes.taskExit, Processes.release,
    hnext, Processes.dispatchNext, Processes.switchTo, haspaces, htable]
  rfl

end

/-- `fork`, and the child runs until it exits. -/
def forkRound (s : Processes) : Processes := ((sysFork s).2.yield none).taskEnds

def forkRounds (m : Memory) : Nat → Processes
  | 0 => processesBoot m
  | n + 1 => forkRound (forkRounds m n)

theorem forkRound_eq (m : Memory) {nextPid : UInt32} {slot : Option (Kernel.Task TaskBody)}
    (hfree : slot = none ∨ ∃ pid body, slot = some ⟨.zombie, pid, body⟩)
    (hvisible : visiblePid nextPid = true) :
    (sysFork (forkState m 1 nextPid slot)).2.yield none = childRunning m 2 (nextPid + 1) nextPid ∧
      forkRound (forkState m 1 nextPid slot) =
        forkState m 1 (nextPid + 1) (some ⟨.zombie, nextPid, ⟨1, none⟩⟩) := by
  have hfork : (sysFork (forkState m 1 nextPid slot)).2 = _ := forkState_fork hfree (by decide)
  rw [hvisible, if_pos rfl] at hfork
  rw [forkRound, hfork, forkState_yield]
  exact ⟨rfl, childRunning_ends (by decide) nextPid⟩

theorem boot_eq (m : Memory) : processesBoot m = forkState m 1 2 none := by
  have haspaces : aspaceInit m = kernelAspaces m 1 := by
    have htable : (aspaceInit m).table = (kernelAspaces m 1).table := by
      funext i
      by_cases hi : i = 0
      · subst hi
        rfl
      · exact (Function.update_of_ne hi _ _).trans (if_neg hi).symm
    change Aspaces.mk (aspaceInit m).table 2 1 m.cr3 m = _
    rw [htable]
    rfl
  have hsched : schedInit (α := TaskBody) ⟨1, none⟩ = forkTable 2 none := by
    simp only [schedInit, forkTable, ite_self]
  rw [processesBoot, haspaces, forkState, ← hsched]
  rfl

theorem visiblePid_ofNat {n : Nat} (hpos : 0 < n) (hlt : n + 1 < 2 ^ 32) :
    visiblePid (UInt32.ofNat n) = true := by
  have hval : (UInt32.ofNat n).toNat = n := UInt32.toNat_ofNat_of_lt' (by unfold UInt32.size; omega)
  simp only [visiblePid, Bool.and_eq_true, decide_eq_true_eq, bne_iff_ne, gt_iff_lt,
    UInt32.lt_iff_toNat_lt, ne_eq, ← UInt32.toNat_inj, UInt32.reduceToNat, hval]
  omega

theorem ProcReaches.fork {s : Processes} (h : ProcReaches (fun _ _ => True) s)
    (hidle : s.sync = none) :
    ProcReaches (fun _ _ => True) (sysFork s).2 ∧ (sysFork s).2.sync = none :=
  ⟨.step .fork h hidle trivial, (spawn_sync s).trans hidle⟩

/-- The pids a round of forks hands out, up to the last one that is visible. -/
theorem forkRounds_eq (m : Memory) : ∀ n : Nat, n + 2 < 2 ^ 32 →
    ∃ slot, (slot = none ∨ ∃ pid body, slot = some ⟨.zombie, pid, body⟩) ∧
      forkRounds m n = forkState m 1 (UInt32.ofNat (n + 2)) slot ∧
      ProcReaches (fun _ _ => True) (forkRounds m n)
  | 0, _ => by
    exact ⟨none, Or.inl rfl, boot_eq m, .boot m⟩
  | n + 1, hn => by
    obtain ⟨slot, hfree, heq, hreaches⟩ := forkRounds_eq m n (by omega)
    have hvisible := visiblePid_ofNat (n := n + 2) (by omega) (by omega)
    obtain ⟨hchild, hround⟩ := forkRound_eq m hfree hvisible
    have hnext : UInt32.ofNat (n + 2) + 1 = UInt32.ofNat (n + 1 + 2) := by
      rw [show n + 1 + 2 = n + 2 + 1 by omega, UInt32.ofNat_add (n + 2) 1]
      rfl
    refine ⟨_, Or.inr ⟨_, _, rfl⟩, by rw [forkRounds, heq, hround, hnext], ?_⟩
    rw [← heq] at hchild
    have hidle : (forkRounds m n).sync = none := by
      rw [heq]
      rfl
    obtain ⟨hforked, hforked_idle⟩ := hreaches.fork hidle
    have hyielded : ProcReaches (fun _ _ => True) ((sysFork (forkRounds m n)).2.yield none) :=
      .step (.yield none) hforked ⟨hforked_idle, fun _ h => by cases h⟩ trivial
    refine .step .exit hyielded ?_ trivial
    rw [hchild]
    exact ⟨rfl, show (1 : Fin maxTasks) ≠ 0 by decide⟩

/-- Some memory, and a stack of page tables at 0x1000. -/
def sampleMemory : Memory := ⟨0x200000, 0x400000, 0, 0x1000, fun _ => 0⟩

/-- The shell has forked `n` times, each child has run, and it forks three times more. -/
def overForked (m : Memory) (n : Nat) : Processes :=
  (sysFork (sysFork (sysFork (forkRounds m n)).2).2).2

/-- When the first of the three gets the pid 4294967295, two of the children are never seen. -/
theorem overForked_eq (m : Memory) {n : Nat} (hn : n + 2 = 4294967295) :
    overForked m n = forkState m 4 2 (some ⟨.ready, 1, ⟨1, none⟩⟩) ∧
      ProcReaches (fun _ _ => True) (overForked m n) := by
  obtain ⟨slot, hfree, heq, hreaches⟩ := forkRounds_eq m n (by omega)
  rw [hn, show UInt32.ofNat 4294967295 = 0xffffffff by decide] at heq
  -- slot 1 stays empty to everybody, twice
  have hfirst : (sysFork (forkState m 1 0xffffffff slot)).2 = forkState m 2 0 none :=
    forkState_fork hfree (by decide)
  have hsecond : (sysFork (forkState m 2 0 none)).2 = forkState m 3 1 none :=
    forkState_fork (Or.inl rfl) (by decide)
  have hthird : (sysFork (forkState m 3 1 none)).2 =
      forkState m 4 2 (some ⟨.ready, 1, ⟨1, none⟩⟩) := forkState_fork (Or.inl rfl) (by decide)
  unfold overForked
  rw [heq] at hreaches ⊢
  obtain ⟨hreaches₁, hidle₁⟩ := hreaches.fork rfl
  obtain ⟨hreaches₂, hidle₂⟩ := hreaches₁.fork hidle₁
  obtain ⟨hreaches₃, -⟩ := hreaches₂.fork hidle₂
  exact ⟨by rw [hfirst, hsecond, hthird], hreaches₃⟩

/-- Nobody is left but the shell and one child, and the kernel's space counts four. -/
theorem refcounts_leak : ∃ s a, s = overForked sampleMemory 4294967293 ∧
    ProcReaches (fun _ _ => True) s ∧ s.sync = none ∧ s.aspaces.table 0 = some a ∧
      a.info.id = s.aspaces.kernelAspaceId ∧ a.info.refcount.toNat = 4 ∧
      holders s a.info.id + 1 = 2 := by
  obtain ⟨heq, hreaches⟩ := overForked_eq sampleMemory (n := 4294967293) rfl
  exact ⟨_, _, heq.symm, heq ▸ hreaches, rfl, rfl, rfl, rfl, rfl⟩

/-- The first fork after boot shares the kernel's space. -/
theorem boot_fork_numbered : ProcOp.Numbered .fork (processesBoot sampleMemory) := by
  refine ⟨fun slot hslot hkind => ?_, fun _ => by decide⟩
  have hkernel : (processesBoot sampleMemory).aspaces.findSlot
      (processesBoot sampleMemory).currentAspace >>= (processesBoot sampleMemory).aspaces.table =
        some ⟨⟨1, .kernel, 1, false, 0x1000, 0, cstr "kernel"⟩, 0⟩ := rfl
  rw [hkernel, Option.some.injEq] at hslot
  subst hslot
  cases hkind

/-- The first fork after boot. -/
theorem refcounts_exact_fork :
    (∀ i a, (sysFork (processesBoot sampleMemory)).2.aspaces.table i = some a →
      a.info.refcount.toNat = holders (sysFork (processesBoot sampleMemory)).2 a.info.id +
        (if a.info.id = 1 then 1 else 0) + 0) ∧
      (((sysFork (processesBoot sampleMemory)).2.aspaces.table 0).map fun a => a.info.refcount) =
        some 2 := by
  have hreaches : ProcReaches ProcOp.Numbered (sysFork (processesBoot sampleMemory)).2 :=
    .step .fork (.boot sampleMemory) rfl boot_fork_numbered
  refine ⟨fun i a ha => ?_, rfl⟩
  have hcount := (refcounts_exact hreaches).1 i a ha
  exact hcount

end Proof
end BumbelBee
