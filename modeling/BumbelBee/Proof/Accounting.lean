import BumbelBee.Lib.Tally
import BumbelBee.Proof.Schedule

/-!
# `active_workloads` and the loop that waits for it

A workload is counted before its task is spawned, and a spawn that finds the table full is
not uncounted. `Accounted lost s` keeps the books with that in them: the counter is the
number of workload tasks that have not finished, plus the `lost` ones that were never there.

`run_workloads_until_idle` waits for the counter to come back to 0. Every step it lets a task
take shortens what is left to run, so it comes to the point where nobody is ready; whether it
leaves then is a matter of `lost` alone.

The loop has no bound of its own and no way out but the counter and an empty table, so its end has
to be proved. `Orderly` code is what every task runs: calls, and one that gives the place in the
count back. As the table never holds more of it than what was spawned, the loop's rounds shorten a
finite amount of code.
-/

namespace BumbelBee
namespace Proof

open Lib Kernel

/-- A task whose code is the calls it still makes. -/
abbrev KernelTask := Kernel.Task (List TaskOp)

/-! ## What is counted

`active_workloads` is a global counter that a spawn raises and a task's last call lowers. That the
two match is a statement about code: the code of a workload's task has exactly one such call, at its
end.
-/

def unfinishedShare (t : KernelTask) : Nat := if .finished ∈ t.code then 1 else 0

/-- The workload tasks that have not come to their `active_workloads--`. -/
def unfinished (s : Sys) : Nat := tally unfinishedShare s.sched.tasks

def workShare (t : KernelTask) : Nat :=
  if t.state = .zombie then 0 else t.code.length + 1

/-- What is left to run, the shell's own turn included. -/
def work (s : Sys) : Nat :=
  2 * tally workShare s.sched.tasks + if s.sched.current = 0 then 1 else 0

/-- A task leaves the count once, and the processor for good only when it is a zombie. -/
structure Orderly (t : KernelTask) : Prop where
  ended : t.state = .zombie → .finished ∉ t.code
  alive : t.state ≠ .zombie → .halt ∉ t.code
  once : t.code.count .finished ≤ 1

structure Accounted (lost : Nat) (s : Sys) : Prop where
  consistent : s.sched.Consistent
  each : ∀ i t, s.sched.tasks i = some t → Orderly t
  shell : ∀ t, s.sched.tasks 0 = some t → t.code = []
  active : s.activeWorkloads = UInt32.ofNat (unfinished s + lost)

theorem Orderly.congr {t t' : KernelTask} (h : Orderly t) (hcode : t'.code = t.code)
    (hstate : t'.state = .zombie ↔ t.state = .zombie) : Orderly t' where
  ended hz := hcode ▸ h.ended (hstate.mp hz)
  alive hz := hcode ▸ h.alive fun hz' => hz (hstate.mpr hz')
  once := hcode ▸ h.once

/-- A task that drops the call it has made. -/
theorem Orderly.tail {t : KernelTask} (h : Orderly t) (hstate : t.state = .running)
    {op : TaskOp} {rest : List TaskOp} (hcode : t.code = op :: rest) :
    Orderly { t with code := rest } where
  ended hz := by rw [hstate] at hz; cases hz
  alive hz hhalt := h.alive hz (hcode ▸ List.mem_cons_of_mem op hhalt)
  once := by
    have honce := h.once
    rw [hcode] at honce
    exact le_trans (List.count_le_count_cons ..) honce

/-! ## The table's operations -/

section
variable {s : Sched (List TaskOp)}

theorem each_yield (h : ∀ i t, s.tasks i = some t → Orderly t) :
    ∀ i t, s.yield.tasks i = some t → Orderly t := by
  intro i t ht
  obtain ⟨f, hf, hsame⟩ := s.yield_tasks i
  rw [hf, Option.map_eq_some_iff] at ht
  obtain ⟨t', ht', rfl⟩ := ht
  obtain ⟨hcode, -, hstate⟩ := hsame t' ht'
  exact (h i t' ht').congr hcode hstate

theorem tally_yield {f : KernelTask → Nat}
    (hf : ∀ t t' : KernelTask, t'.code = t.code →
      (t'.state = .zombie ↔ t.state = .zombie) → f t' = f t) :
    tally f s.yield.tasks = tally f s.tasks := by
  refine tally_congr fun i => ?_
  obtain ⟨g, hg, hsame⟩ := s.yield_tasks i
  rw [hg]
  cases ht : s.tasks i with
  | none => rfl
  | some t =>
    obtain ⟨hcode, -, hstate⟩ := hsame t ht
    exact hf t (g t) hcode hstate

theorem unfinishedShare_congr (t t' : KernelTask) (hcode : t'.code = t.code)
    (_ : t'.state = .zombie ↔ t.state = .zombie) : unfinishedShare t' = unfinishedShare t := by
  unfold unfinishedShare
  rw [hcode]

theorem workShare_congr (t t' : KernelTask) (hcode : t'.code = t.code)
    (hstate : t'.state = .zombie ↔ t.state = .zombie) : workShare t' = workShare t := by
  unfold workShare
  rw [hcode]
  simp only [hstate]

theorem each_update {i : Fin maxTasks} {entry : Option KernelTask}
    (h : ∀ j t, s.tasks j = some t → Orderly t) (hentry : ∀ t, entry = some t → Orderly t) :
    ∀ j t, Function.update s.tasks i entry j = some t → Orderly t := by
  intro j t ht
  by_cases hj : j = i
  · subst hj
    rw [Function.update_self] at ht
    exact hentry t ht
  · rw [Function.update_of_ne hj] at ht
    exact h j t ht

/-- A finished task's code is the rest of a workload's. -/
theorem finished_last {rest : List TaskOp} (h : (TaskOp.finished :: rest).count .finished ≤ 1) :
    .finished ∉ rest := by
  rw [List.count_cons_self] at h
  exact List.count_eq_zero.mp (by omega)

end

/-! ## One call of a task -/

theorem Accounted.current_task {lost : Nat} {s : Sys} (h : Accounted lost s) :
    ∃ t, s.sched.tasks s.sched.current = some t ∧ t.state = .running := by
  have hrun := (h.consistent.running s.sched.current).mpr rfl
  exact Option.map_eq_some_iff.mp hrun

/-- The current task's code, replaced: what that does to a tally. -/
theorem tally_setCode (f : KernelTask → Nat) {s : Sched (List TaskOp)} {t : KernelTask}
    (ht : s.tasks s.current = some t) (code : List TaskOp) :
    tally f (s.setCode code).tasks + f t = tally f s.tasks + f { t with code } := by
  have hupdate := tally_update f s.tasks s.current (some { t with code })
  rw [ht, share_some, share_some] at hupdate
  simpa only [Sched.setCode, ht, Option.map_some] using hupdate

theorem tally_retire (f : KernelTask → Nat) {s : Sched (List TaskOp)} {t : KernelTask}
    (ht : s.tasks s.current = some t) :
    tally f (s.retire [.halt]).tasks + f t =
      tally f s.tasks + f { t with state := .zombie, code := [.halt] } := by
  have hupdate := tally_update f s.tasks s.current
    (some { t with state := .zombie, code := [.halt] })
  rw [ht, share_some, share_some] at hupdate
  simpa only [Sched.retire, ht, Option.map_some] using hupdate

theorem Accounted.yield {lost : Nat} {s : Sys} (h : Accounted lost s) :
    Accounted lost { s with sched := s.sched.yield } where
  consistent := h.consistent.yield
  each := each_yield h.each
  shell := by
    intro t ht
    obtain ⟨f, hf, hsame⟩ := s.sched.yield_tasks 0
    rw [hf, Option.map_eq_some_iff] at ht
    obtain ⟨t', ht', rfl⟩ := ht
    rw [(hsame t' ht').1]
    exact h.shell t' ht'
  active := by
    rw [unfinished, tally_yield unfinishedShare_congr]
    exact h.active

/-- A task behind slot 0 has made a call. -/
theorem Accounted.setCode {lost : Nat} {s : Sys} (h : Accounted lost s)
    (hcur : s.sched.current ≠ 0) {t : KernelTask}
    (ht : s.sched.tasks s.sched.current = some t) (hstate : t.state = .running) {op : TaskOp}
    {rest : List TaskOp} (hcode : t.code = op :: rest) {active : UInt32}
    (hactive : active = UInt32.ofNat (tally unfinishedShare (s.sched.setCode rest).tasks + lost)) :
    Accounted lost { s with sched := s.sched.setCode rest, activeWorkloads := active } where
  consistent := h.consistent.setCode rest
  each := by
    refine each_update h.each fun t' ht' => ?_
    rw [ht, Option.map_some, Option.some.injEq] at ht'
    exact ht' ▸ (h.each _ t ht).tail hstate hcode
  shell := by
    intro t' ht'
    simp only [Sched.setCode, Function.update_of_ne (Ne.symm hcur)] at ht'
    exact h.shell t' ht'
  active := hactive

/-- Only `active_workloads--` takes a task off the count. -/
theorem unfinishedShare_drop {t : KernelTask} (h : Orderly t) {op : TaskOp} {rest : List TaskOp}
    (hcode : t.code = op :: rest) :
    unfinishedShare t =
      unfinishedShare { t with code := rest } + if op = .finished then 1 else 0 := by
  unfold unfinishedShare
  by_cases hop : op = .finished
  · have honce := h.once
    rw [hcode, hop] at honce
    have hlast := finished_last honce
    rw [hcode, hop]
    simp [hlast]
  · rw [hcode, if_neg hop, Nat.add_zero]
    simp [Ne.symm hop]

/-- **A task's call** keeps the books and shortens what is left. -/
theorem Accounted.taskStep {lost : Nat} {s : Sys} (h : Accounted lost s)
    (hcur : s.sched.current ≠ 0) :
    Accounted lost (schedule.next s) ∧ work (schedule.next s) < work s ∧
      (schedule.next s).shell = s.shell := by
  obtain ⟨t, ht, hstate⟩ := h.current_task
  have horderly := h.each _ t ht
  have halive : t.state ≠ .zombie := by simp [hstate]
  have hworkt : workShare t = t.code.length + 1 := if_neg halive
  have hwork : work s = 2 * tally workShare s.sched.tasks := by
    rw [work, if_neg hcur, Nat.add_zero]
  have hle : ∀ s' : Sys, work s' ≤ 2 * tally workShare s'.sched.tasks + 1 := by
    intro s'
    unfold work
    split <;> omega
  rw [schedule_task hcur ht]
  cases hcode : t.code with
  | nil =>
    -- `task_exit`: the zombie counts for nothing
    have htally := tally_retire workShare ht
    have hunfinished := tally_retire unfinishedShare ht
    rw [hworkt, hcode, show workShare { t with state := .zombie, code := [.halt] } = 0 from rfl,
      List.length_nil] at htally
    rw [show unfinishedShare t = 0 by simp [unfinishedShare, hcode],
      show unfinishedShare { t with state := .zombie, code := [.halt] } = 0 from rfl] at hunfinished
    have hsum := tally_yield (s := s.sched.retire [.halt]) workShare_congr
    refine ⟨?_, ?_, rfl⟩
    · refine ⟨h.consistent.taskExit hcur _, each_yield (each_update h.each ?_), ?_, ?_⟩
      · intro t' ht'
        rw [ht, Option.map_some, Option.some.injEq] at ht'
        subst ht'
        exact ⟨fun _ => by simp, fun hz => absurd rfl hz, by simp⟩
      · intro t' ht'
        obtain ⟨f, hf, hsame⟩ := (s.sched.retire [.halt]).yield_tasks 0
        have hzero : (s.sched.retire [.halt]).tasks 0 = s.sched.tasks 0 :=
          Function.update_of_ne (Ne.symm hcur) _ _
        simp only [Sys.taskNext, Sched.taskExit] at ht'
        rw [hf, Option.map_eq_some_iff] at ht'
        obtain ⟨t'', ht'', rfl⟩ := ht'
        rw [(hsame t'' ht'').1]
        exact h.shell t'' (hzero ▸ ht'')
      · simp only [Sys.taskNext, unfinished, Sched.taskExit]
        rw [tally_yield unfinishedShare_congr, show tally unfinishedShare
          (s.sched.retire [.halt]).tasks = unfinished s by unfold unfinished; omega]
        exact h.active
    · have hbound := hle (s.taskNext [])
      simp only [Sys.taskNext, Sched.taskExit] at hbound ⊢
      omega
  | cons op rest =>
    have htally := tally_setCode workShare ht rest
    have hunfinished := tally_setCode unfinishedShare ht rest
    have hrest : workShare { t with code := rest } = rest.length + 1 := if_neg halive
    rw [hworkt, hcode, hrest, List.length_cons] at htally
    rw [unfinishedShare_drop horderly hcode] at hunfinished
    have hkept : ∀ active, active = UInt32.ofNat
        (tally unfinishedShare (s.sched.setCode rest).tasks + lost) → Accounted lost
          { s with sched := s.sched.setCode rest, activeWorkloads := active } :=
      fun active => h.setCode hcur ht hstate hcode
    cases op with
    | record type data0 data1 =>
      rw [if_neg (by simp), Nat.add_zero] at hunfinished
      refine ⟨hkept _ ?_, ?_, rfl⟩
      · rw [h.active, unfinished]
        congr 2
        omega
      · have hbound := hle (s.setCode rest)
        simp only [Sys.taskNext, Sys.setCode] at hbound ⊢
        omega
    | yield =>
      rw [if_neg (by simp), Nat.add_zero] at hunfinished
      have hsum := tally_yield (s := s.sched.setCode rest) workShare_congr
      refine ⟨(hkept s.activeWorkloads ?_).yield, ?_, rfl⟩
      · rw [h.active, unfinished]
        congr 2
        omega
      · have hbound := hle { s with sched := (s.sched.setCode rest).yield }
        simp only [Sys.taskNext] at hbound ⊢
        omega
    | finished =>
      rw [if_pos rfl] at hunfinished
      refine ⟨hkept _ ?_, ?_, rfl⟩
      · rw [h.active, show unfinished s + lost =
          tally unfinishedShare (s.sched.setCode rest).tasks + lost + 1 by unfold unfinished; omega,
          UInt32.ofNat_add]
        exact UInt32.add_sub_cancel _ _
      · have hbound := hle { s with
          sched := s.sched.setCode rest, activeWorkloads := s.activeWorkloads - 1 }
        simp only [Sys.taskNext] at hbound ⊢
        omega
    | halt => exact absurd (hcode ▸ List.mem_cons_self) (horderly.alive halive)

/-! ## The shell's loop

The loop yields while the counter is not zero or somebody is ready. If the counter is exact the loop
ends when the last workload has; if a spawn was lost it never gets to zero, and the loop yields for
ever to nobody.
-/

/-- With nobody ready and the shell running, no workload is left unfinished. -/
theorem Accounted.idle {lost : Nat} {s : Sys} (h : Accounted lost s) (hcur : s.sched.current = 0)
    (hready : s.sched.hasReady = false) : unfinished s = 0 := by
  refine tally_eq_zero_iff.mpr fun i => ?_
  cases ht : s.sched.tasks i with
  | none => rfl
  | some t =>
    have horderly := h.each i t ht
    have hstate : s.sched.state i = some t.state := by rw [Sched.state, ht, Option.map_some]
    rw [share_some, unfinishedShare]
    refine if_neg ?_
    cases hst : t.state with
    | zombie => exact horderly.ended hst
    | running =>
      have hi : i = 0 := hcur ▸ (h.consistent.running i).mp (by rw [hstate, hst])
      rw [h.shell t (hi ▸ ht)]
      simp
    | ready =>
      have hfound := Sched.hasReady_iff.mpr ⟨i, Sched.isReady_iff.mpr (by rw [hstate, hst])⟩
      rw [hready] at hfound
      cases hfound

/-- `run_workloads_until_idle`, when the shell comes to it: it returns, with no workload
    active and nobody ready. -/
def UntilIdleEnds (s : Sys) : Prop :=
  ∃ n, (schedule.after (s.setShell [.untilIdle]) n).sched.current = 0 ∧
    (schedule.after (s.setShell [.untilIdle]) n).shell = [] ∧
    (schedule.after (s.setShell [.untilIdle]) n).activeWorkloads = 0 ∧
    (schedule.after (s.setShell [.untilIdle]) n).sched.hasReady = false

theorem schedule_loop {s : Sys} (hcur : s.sched.current = 0) (hshell : s.shell = [.untilIdle]) :
    schedule.next s = if s.busy then { s with sched := s.sched.yield } else s.setShell [] := by
  obtain ⟨e, he⟩ := s.yield_none
  cases hbusy : s.busy with
  | true =>
    simp only [schedule, Sys.step, if_pos hcur, Sys.shellStep, hshell, hbusy, Bool.not_false,
      Bool.and_true, if_true, he]
  | false =>
    simp only [schedule, Sys.step, if_pos hcur, Sys.shellStep, hshell, hbusy, Bool.false_and,
      Bool.false_eq_true, if_false]

theorem Accounted.setShell {lost : Nat} {s : Sys} (h : Accounted lost s) (ops : List ShellOp) :
    Accounted lost (s.setShell ops) :=
  ⟨h.consistent, h.each, h.shell, h.active⟩

/-- The books are kept while the loop runs, and it never goes on to anything else. -/
theorem Accounted.loop {lost : Nat} {s : Sys} (h : Accounted lost s)
    (hshell : s.shell = [.untilIdle] ∨ s.shell = []) :
    Accounted lost (schedule.next s) ∧
      ((schedule.next s).shell = [.untilIdle] ∨ (schedule.next s).shell = []) := by
  by_cases hcur : s.sched.current = 0
  · rcases hshell with hshell | hshell
    · rw [schedule_loop hcur hshell]
      split
      · exact ⟨h.yield, Or.inl hshell⟩
      · exact ⟨h.setShell [], Or.inr rfl⟩
    · have hstay : schedule.next s = s := by
        simp only [schedule, Sys.step, if_pos hcur, Sys.shellStep, hshell]
      rw [hstay]
      exact ⟨h, Or.inr hshell⟩
  · obtain ⟨hnext, -, hsame⟩ := h.taskStep hcur
    rw [hsame]
    exact ⟨hnext, hshell⟩

/-- When nothing was lost the loop comes to its end, before it runs out of work. -/
theorem Accounted.ends {lost : Nat} (hlost : UInt32.ofNat lost = 0) :
    ∀ (bound : Nat) {s : Sys}, work s ≤ bound → Accounted lost s → s.shell = [.untilIdle] →
      ∃ n ≤ bound, (schedule.after s n).sched.current = 0 ∧ (schedule.after s n).shell = [] ∧
        (schedule.after s n).activeWorkloads = 0 ∧
        (schedule.after s n).sched.hasReady = false := by
  intro bound
  induction bound with
  | zero =>
    intro s hbound h _
    -- the shell's own turn is work
    obtain ⟨t, ht, hstate⟩ := h.current_task
    have hshare := share_le_tally workShare s.sched.tasks s.sched.current
    rw [ht, share_some, workShare, if_neg (by simp [hstate])] at hshare
    unfold work at hbound
    omega
  | succ bound ih =>
    intro s hbound h hshell
    by_cases hcur : s.sched.current = 0
    · have hnext := schedule_loop hcur hshell
      cases hbusy : s.busy with
      | false =>
        rw [hbusy, if_neg (by simp)] at hnext
        simp only [Sys.busy, Bool.or_eq_false_iff, bne_eq_false_iff_eq] at hbusy
        refine ⟨1, by omega, ?_⟩
        rw [schedule.after_succ, schedule.after_zero, hnext]
        exact ⟨hcur, rfl, hbusy.1, hbusy.2⟩
      | true =>
        rw [hbusy, if_pos rfl] at hnext
        have hready : s.sched.hasReady = true := by
          by_contra hnone
          have hidle := h.idle hcur (by simpa using hnone)
          have hactive := h.active
          rw [hidle, Nat.zero_add, hlost] at hactive
          simp only [Sys.busy, hactive, Bool.or_eq_true, bne_self_eq_false, Bool.false_eq_true,
            false_or] at hbusy
          exact hnone hbusy
        obtain ⟨next, hfound⟩ := Option.isSome_iff_exists.mp hready
        have hne := h.consistent.found_ne hfound
        have hwork : work (schedule.next s) < work s := by
          have hsum := tally_yield (s := s.sched) workShare_congr
          have hdispatch : s.sched.yield.current = next := by
            simp only [Sched.yield, hfound, Sched.dispatch, if_neg hne]
            rfl
          rw [hnext, work, work, hsum, hdispatch, if_pos hcur, if_neg (hcur ▸ hne)]
          omega
        have hkept : Accounted lost (schedule.next s) := by
          rw [hnext]
          exact h.yield
        obtain ⟨n, hle, hn⟩ := ih (by omega) hkept (by rw [hnext]; exact hshell)
        rw [schedule.after_next] at hn
        exact ⟨n + 1, by omega, hn⟩
    · obtain ⟨hkept, hwork, hsame⟩ := h.taskStep hcur
      obtain ⟨n, hle, hn⟩ := ih (by omega) hkept (hsame.trans hshell)
      rw [schedule.after_next] at hn
      exact ⟨n + 1, by omega, hn⟩

/-- **The loop ends exactly when nothing was lost.** -/
theorem Accounted.ends_iff {lost : Nat} {s : Sys} (h : Accounted lost s) :
    UntilIdleEnds s ↔ UInt32.ofNat lost = 0 := by
  constructor
  · rintro ⟨n, hcur, -, hactive, hready⟩
    have hrun := schedule.after_induction
      (P := fun s => Accounted lost s ∧ (s.shell = [.untilIdle] ∨ s.shell = []))
      ⟨h.setShell [.untilIdle], Or.inl rfl⟩ (fun s hs => hs.1.loop hs.2) n
    have hbooks := hrun.1.active
    rw [hrun.1.idle hcur hready, Nat.zero_add, hactive] at hbooks
    exact hbooks.symm
  · intro hlost
    obtain ⟨n, -, hn⟩ := Accounted.ends hlost _ le_rfl (h.setShell [.untilIdle]) rfl
    exact ⟨n, hn⟩

/-! ## Runs -/

/-- A spawn that puts a task where the scheduler sees it. -/
def spawns (s : Sched (List TaskOp)) : Bool := s.freeSlot.isSome && visiblePid s.nextPid

/-- One round of a `workload_*` function: `active_workloads++` and the `sched_spawn`. -/
def startWorkload (w : Workload) (s : Sys) : Sys :=
  { s with
    sched := (s.sched.spawn w.code).2
    activeWorkloads := s.activeWorkloads + 1 }

/-- The states the shell's commands and the tasks' calls reach, and how many workload spawns
    failed on the way. `fork` and `execve` spawn tasks that are no workloads; `demo record` is
    a `sched_prepare_replay`, the profile's workloads and the shell's yields. -/
inductive AccountReaches : Nat → Sys → Prop
  | init : AccountReaches 0 ⟨schedInit [], 0, []⟩
  | workload {lost : Nat} {s : Sys} (w : Workload) (h : AccountReaches lost s)
      (hshell : s.sched.current = 0) :
      AccountReaches (lost + if spawns s.sched then 0 else 1) (startWorkload w s)
  | task {lost : Nat} {s : Sys} (code : List TaskOp) (h : AccountReaches lost s)
      (hshell : s.sched.current = 0) (hcode : .finished ∉ code ∧ .halt ∉ code) :
      AccountReaches lost { s with sched := (s.sched.spawn code).2 }
  | prepareReplay {lost : Nat} {s : Sys} (h : AccountReaches lost s)
      (hshell : s.sched.current = 0) :
      AccountReaches lost { s with sched := s.sched.prepareReplay }
  | shellYield {lost : Nat} {s : Sys} (h : AccountReaches lost s) (hshell : s.sched.current = 0) :
      AccountReaches lost { s with sched := s.sched.yield }
  | taskStep {lost : Nat} {s : Sys} (h : AccountReaches lost s) (htask : s.sched.current ≠ 0) :
      AccountReaches lost (schedule.next s)

/-- A workload's task gives its place in the count back with its last call. -/
theorem Workload.code_orderly (w : Workload) : ∃ calls, w.code = calls ++ [.finished] ∧
    .finished ∉ calls ∧ .halt ∉ calls := by
  cases w with
  | attack => exact ⟨_, rfl, by simp, by simp⟩
  | sysload slot => exact ⟨_, rfl, by simp, by simp⟩
  | lifecycle slot => exact ⟨_, rfl, by simp, by simp⟩

theorem Workload.orderly (w : Workload) (pid : UInt32) : Orderly ⟨.ready, pid, w.code⟩ := by
  obtain ⟨calls, hcode, hfinished, hhalt⟩ := Workload.code_orderly w
  refine ⟨fun hz => (by cases hz), fun _ => ?_, ?_⟩
  · rw [hcode]
    simp [hhalt]
  · rw [hcode, List.count_append, List.count_eq_zero.mpr hfinished]
    simp

/-- A spawn, whatever it finds: the table stays consistent and orderly, the shell's slot is
    not touched, and the count grows by the new task's share if there is one. -/
theorem Accounted.spawn {lost : Nat} {s : Sys} (h : Accounted lost s) (code : List TaskOp)
    (hcode : ∀ pid, Orderly ⟨.ready, pid, code⟩) :
    (s.sched.spawn code).2.Consistent ∧
      (∀ i t, (s.sched.spawn code).2.tasks i = some t → Orderly t) ∧
      (∀ t, (s.sched.spawn code).2.tasks 0 = some t → t.code = []) ∧
      tally unfinishedShare (s.sched.spawn code).2.tasks =
        unfinished s + if spawns s.sched ∧ .finished ∈ code then 1 else 0 := by
  refine ⟨h.consistent.spawn code, ?_⟩
  cases hslot : s.sched.freeSlot with
  | none =>
    rw [Sched.spawn_none hslot]
    refine ⟨h.each, h.shell, ?_⟩
    simp [spawns, hslot, unfinished]
  | some i =>
    obtain ⟨hne, hfree⟩ := Sched.freeSlot_free hslot
    have hspawn : (s.sched.spawn code).2.tasks = Function.update s.sched.tasks i
        (if visiblePid s.sched.nextPid then some ⟨.ready, s.sched.nextPid, code⟩ else none) := by
      simp only [Sched.spawn, hslot]
    -- the slot was free or a zombie's, and neither owed anything
    have hold : share unfinishedShare (s.sched.tasks i) = 0 := by
      cases ht : s.sched.tasks i with
      | none => rfl
      | some t =>
        have hz : t.state = .zombie := by
          simpa [Sched.state, ht] using hfree
        exact if_neg ((h.each i t ht).ended hz)
    rw [hspawn]
    refine ⟨each_update h.each fun t ht => ?_, fun t ht => ?_, ?_⟩
    · split at ht
      · cases ht
        exact hcode _
      · cases ht
    · rw [Function.update_of_ne (Ne.symm hne)] at ht
      exact h.shell t ht
    · have hupdate := tally_update unfinishedShare s.sched.tasks i
        (if visiblePid s.sched.nextPid then some ⟨.ready, s.sched.nextPid, code⟩ else none)
      rw [hold, Nat.add_zero] at hupdate
      rw [hupdate, unfinished, spawns, hslot]
      by_cases hvisible : visiblePid s.sched.nextPid = true
      · simp [hvisible, unfinishedShare]
      · simp [hvisible]

theorem Accounted.prepareReplay {lost : Nat} {s : Sys} (h : Accounted lost s) :
    Accounted lost { s with sched := s.sched.prepareReplay } where
  consistent := h.consistent.prepareReplay
  each := by
    intro i t ht
    simp only [Sched.prepareReplay] at ht
    split at ht
    · cases ht
    · exact h.each i t ht
  shell := fun t ht => h.shell t (by simpa [Sched.prepareReplay] using ht)
  active := by
    refine h.active.trans (congrArg (fun n => UInt32.ofNat (n + lost)) (Eq.symm ?_))
    refine tally_congr fun i => ?_
    simp only [Sched.prepareReplay]
    split
    · rename_i hz
      have hzombie := Sched.isZombie_iff.mp hz.2
      cases ht : s.sched.tasks i with
      | none => rfl
      | some t =>
        have hstate : t.state = .zombie := by simpa [Sched.state, ht] using hzombie
        exact (if_neg ((h.each i t ht).ended hstate)).symm
    · rfl

/-- **The books** of every reached state. -/
theorem AccountReaches.accounted {lost : Nat} {s : Sys} (h : AccountReaches lost s) :
    Accounted lost s := by
  induction h with
  | init =>
    have hshell : ∀ i t, (schedInit ([] : List TaskOp)).tasks i = some t → t.code = [] := by
      intro i t ht
      simp only [schedInit] at ht
      split at ht
      · cases ht
        rfl
      · cases ht
    refine ⟨Sched.Consistent.init [], fun i t ht => ?_, hshell 0, by decide⟩
    have hcode := hshell i t ht
    exact ⟨fun _ => by simp [hcode], fun _ => by simp [hcode], by simp [hcode]⟩
  | @workload lost s w _ _ ih =>
    obtain ⟨hconsistent, heach, hshell, htally⟩ := ih.spawn _ (Workload.orderly w)
    refine ⟨hconsistent, heach, hshell, ?_⟩
    obtain ⟨calls, hcode, -, -⟩ := Workload.code_orderly w
    have hone : unfinished (startWorkload w s) + (lost + if spawns s.sched then 0 else 1) =
        unfinished s + lost + 1 := by
      rw [show unfinished (startWorkload w s) = _ from htally]
      simp only [hcode, List.mem_append, List.mem_singleton, or_true, and_true]
      split <;> omega
    rw [hone, UInt32.ofNat_add, ← ih.active]
    rfl
  | task code _ _ hcode ih =>
    obtain ⟨hconsistent, heach, hshell, htally⟩ := ih.spawn code fun pid =>
      ⟨fun hz => (by cases hz), fun _ => hcode.2, by
        rw [List.count_eq_zero.mpr hcode.1]
        exact Nat.zero_le 1⟩
    refine ⟨hconsistent, heach, hshell, ?_⟩
    rw [unfinished, htally, if_neg fun hf => hcode.1 hf.2]
    exact ih.active
  | prepareReplay _ _ ih => exact ih.prepareReplay
  | shellYield _ _ ih => exact ih.yield
  | taskStep _ htask ih => exact (ih.taskStep htask).1

theorem unfinished_le (s : Sys) : unfinished s ≤ maxTasks := by
  refine (tally_le_card fun i => ?_).trans_eq (Fintype.card_fin maxTasks)
  cases s.sched.tasks i with
  | none => exact Nat.zero_le 1
  | some t =>
    rw [share_some, unfinishedShare]
    split <;> omega

/-- **The accounting** of every reached state: the counter shows the unfinished workloads, and
    the loop that waits for it ends with none active and nobody ready, exactly when no
    workload's spawn failed on the way (or 2^32 did, and the counter went round).

    `h` is any run of the shell's commands and the tasks' calls, spawns of other tasks included,
    and `lost` counts the workload spawns in it that found no slot or got a pid that nobody sees.
    The second equivalence is for the state in which the shell is about to wait, and that its
    loop ends is part of the result, not a hypothesis. -/
theorem workloads_accounted {lost : Nat} {s : Sys} (h : AccountReaches lost s) :
    (s.activeWorkloads.toNat = unfinished s ↔ lost % 2 ^ 32 = 0) ∧
      (s.sched.current = 0 → (UntilIdleEnds s ↔ lost % 2 ^ 32 = 0)) := by
  have hs := h.accounted
  have hlost : UInt32.ofNat lost = 0 ↔ lost % 2 ^ 32 = 0 := by
    rw [← UInt32.toNat_inj, UInt32.toNat_ofNat']
    rfl
  refine ⟨?_, fun _ => hs.ends_iff.trans hlost⟩
  have hle := unfinished_le s
  rw [hs.active, UInt32.toNat_ofNat']
  simp only [maxTasks] at hle
  omega

/-- `sysload`, typed by a shell that does not yield in between. -/
def sysload (s : Sys) : Sys :=
  startWorkload (.sysload 2) (startWorkload (.sysload 1) (startWorkload (.sysload 0) s))

/-- Three times over, nine workloads are counted and seven have a slot: the counter never
    comes back to 0, and the shell waits for good. -/
theorem sysload_overcounts : ∃ s : Sys, AccountReaches 2 s ∧ s.sched.current = 0 ∧
    s.activeWorkloads = 9 ∧ unfinished s = 7 ∧ ¬ UntilIdleEnds s := by
  have hreaches : AccountReaches 2 (sysload (sysload (sysload ⟨schedInit [], 0, []⟩))) :=
    .workload (.sysload 2) (.workload (.sysload 1) (.workload (.sysload 0)
      (.workload (.sysload 2) (.workload (.sysload 1) (.workload (.sysload 0)
        (.workload (.sysload 2) (.workload (.sysload 1) (.workload (.sysload 0)
          .init rfl) rfl) rfl) rfl) rfl) rfl) rfl) rfl) rfl
  refine ⟨_, hreaches, rfl, by decide +kernel, by decide +kernel, ?_⟩
  rw [hreaches.accounted.ends_iff]
  decide

/-- One `lifecycle_test` is waited for. -/
theorem workloads_accounted_lifecycle : ∃ s : Sys, unfinished s = 3 ∧ UntilIdleEnds s := by
  have hreaches : AccountReaches 0 (startWorkload (.lifecycle 2) (startWorkload (.lifecycle 1)
      (startWorkload (.lifecycle 0) ⟨schedInit [], 0, []⟩))) :=
    .workload (.lifecycle 2) (.workload (.lifecycle 1) (.workload (.lifecycle 0) .init rfl) rfl) rfl
  exact ⟨_, by decide +kernel, ((workloads_accounted hreaches).2 rfl).mpr rfl⟩

end Proof
end BumbelBee
