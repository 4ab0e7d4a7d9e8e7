import BumbelBee.Proof.Durable
import BumbelBee.Proof.RefCounts

/-!
# Moving a task to another address space

`sched_task_set_aspace` retains the new space for a task and releases the old one. A zombie
has let go of its own already, so moving one that finds another space takes a reference nobody
holds. Moved in any other way, tasks leave the counts exact (`moves_counted_iff`).

A zombie keeps its slot and its pid until a replay clears it, so `sched_task_set_aspace` finds it as
it finds any other task. Everything else the call does is balanced even where it looks odd: a move
to the space the task has already, and one to an id that is not there, change nothing.
-/

namespace BumbelBee
namespace Proof

open Lib Kernel

/-- Every count is the number of live tasks that hold the space, and one for the call that
    made it and runs a program in it; and no live task holds a space that is gone. The
    reference `aspace_init` made is the shell's. -/
structure CountsExact (s : Processes) : Prop where
  exact : ∀ i a, s.aspaces.table i = some a → a.info.refcount.toNat =
    holdersOf (heldAt s.sched) a.info.id +
      if s.sync.map SyncRun.aspaceId = some a.info.id then 1 else 0
  live : ∀ i t, s.sched.tasks i = some t → t.state ≠ .zombie → ∃ j a,
    s.aspaces.findSlot t.code.aspaceId = some j ∧ s.aspaces.table j = some a ∧
      a.info.id = t.code.aspaceId

/-- The task found for the pid is a zombie, and the space is there and not its own. -/
def MovesZombie (pid id : UInt32) (s : Processes) : Prop :=
  ∃ i t, s.sched.findTask pid = some i ∧ s.sched.tasks i = some t ∧ t.state = .zombie ∧
    t.code.aspaceId ≠ id ∧ (s.aspaces.findSlot id).isSome = true

/-- What boot reaches by steps that hand out good numbers, and by moves of tasks that are no
    zombies. -/
inductive MoveReaches : Processes → Prop
  | boot (m : Memory) : MoveReaches (processesBoot m)
  | step {s : Processes} (op : ProcOp) (h : MoveReaches s) (henabled : op.Enabled s)
      (hnumbered : op.Numbered s) : MoveReaches (op.run s)
  | move {s : Processes} (pid id : UInt32) (h : MoveReaches s) (hlive : ¬ MovesZombie pid id s) :
      MoveReaches (schedTaskSetAspace pid id s).2

section
variable {s : Processes} {home id pid : UInt32} {extra : List UInt32} {i : Fin maxTasks}
  {t : Kernel.Task TaskBody}

theorem Balanced.countsExact (h : Balanced home (syncRefs s.sync) s) : CountsExact s where
  exact i a ha := by
    rw [h.counted.exact i a ha, refsTo, syncRefs_count]
  live _ _ ht hlive := h.findLive ht hlive

/-! ## One move

A move retains the new space and then releases the old, so the order of the two keeps a space from
being dropped in between when they are held once. The zombie's old reference was given back at its
exit and is given back again.
-/

/-- The task in a slot, in another address space. -/
def movedTo (i : Fin maxTasks) (t : Kernel.Task TaskBody) (id : UInt32) (s : Sched TaskBody) :
    Sched TaskBody :=
  { s with
    tasks := Function.update s.tasks i (some { t with code := { t.code with aspaceId := id } }) }

/-- What a call does: nothing, when there is nothing to do or to find, or move the task. -/
theorem schedTaskSetAspace_cases (pid id : UInt32) (s : Processes) :
    ((schedTaskSetAspace pid id s).2 = s ∧ ¬ MovesZombie pid id s) ∨ ∃ i t aspaces,
      s.sched.findTask pid = some i ∧ s.sched.tasks i = some t ∧ t.code.aspaceId ≠ id ∧
        s.aspaces.retain id = some aspaces ∧ (schedTaskSetAspace pid id s).2 =
          { s with aspaces := aspaces.release t.code.aspaceId, sched := movedTo i t id s.sched } := by
  unfold schedTaskSetAspace
  cases hfind : s.sched.findTask pid with
  | none =>
    refine Or.inl ⟨rfl, ?_⟩
    rintro ⟨i, t, hi, -⟩
    rw [hfind] at hi
    cases hi
  | some i =>
    have hzombie : ∀ t, s.sched.tasks i = some t → MovesZombie pid id s →
        t.code.aspaceId ≠ id ∧ (s.aspaces.findSlot id).isSome = true := by
      rintro t ht ⟨i', t', hi', ht', -, hne, hsome⟩
      rw [hfind, Option.some.injEq] at hi'
      subst hi'
      rw [ht, Option.some.injEq] at ht'
      subst ht'
      exact ⟨hne, hsome⟩
    simp only
    cases ht : s.sched.tasks i with
    | none =>
      refine Or.inl ⟨rfl, ?_⟩
      rintro ⟨i', t', hi', ht', -⟩
      rw [hfind, Option.some.injEq] at hi'
      subst hi'
      rw [ht] at ht'
      cases ht'
    | some t =>
      simp only
      by_cases hsame : t.code.aspaceId = id
      · rw [if_pos hsame]
        exact Or.inl ⟨rfl, fun hz => (hzombie t ht hz).1 hsame⟩
      · rw [if_neg hsame]
        cases hretain : s.aspaces.retain id with
        | none =>
          refine Or.inl ⟨rfl, fun hz => ?_⟩
          obtain ⟨j, hj⟩ := Option.isSome_iff_exists.mp (hzombie t ht hz).2
          obtain ⟨a, ha, -⟩ := Aspaces.findSlot_some hj
          rw [Aspaces.retain_found hj ha] at hretain
          cases hretain
        | some aspaces => exact Or.inr ⟨i, t, aspaces, rfl, ht, hsame, rfl, rfl⟩

theorem tasks_movedTo (i : Fin maxTasks) (t : Kernel.Task TaskBody) (id : UInt32)
    (s : Sched TaskBody) : (movedTo i t id s).tasks =
      Function.update s.tasks i (some { t with code := { t.code with aspaceId := id } }) := rfl

theorem state_movedTo (ht : s.sched.tasks i = some t) (id : UInt32) (j : Fin maxTasks) :
    (movedTo i t id s.sched).state j = s.sched.state j := by
  rw [Sched.state, Sched.state, tasks_movedTo]
  by_cases hj : j = i
  · subst hj
    rw [Function.update_self, ht]
    rfl
  · rw [Function.update_of_ne hj]

theorem heldAt_movedTo (id : UInt32) (s : Sched TaskBody) (i : Fin maxTasks)
    (t : Kernel.Task TaskBody) : heldAt (movedTo i t id s) =
      Function.update (heldAt s) i (if t.state = .zombie then none else some id) := by
  funext j
  rw [heldAt, tasks_movedTo]
  by_cases hj : j = i
  · subst hj
    rw [Function.update_self, Function.update_self]
    rfl
  · rw [Function.update_of_ne hj, Function.update_of_ne hj]
    rfl

/-- The reference that was taken is the task's now, and its old one is in hand. -/
theorem refsTo_movedTo (ht : s.sched.tasks i = some t) (hlive : t.state ≠ .zombie)
    (extra : List UInt32) (id : UInt32) (aspaces : Aspaces) (k : UInt32) :
    refsTo (t.code.aspaceId :: extra) { s with sched := movedTo i t id s.sched, aspaces } k =
      refsTo (id :: extra) s k := by
  have hheld := heldAt_of_task ht hlive
  have hmoved := heldAt_movedTo id s.sched i t
  rw [if_neg hlive] at hmoved
  have hdrop := congrFun (holdersOf_drop hheld) k
  have htake := congrFun (holdersOf_take (Function.update_self i none (heldAt s.sched)) id) k
  rw [Function.update_idem, ← hmoved] at htake
  simp only [refsTo_cons, oneMore, Pi.add_apply] at hdrop htake ⊢
  rw [refsTo, refsTo, ← hdrop, htake]
  omega

/-- **Moving a live task** keeps the books. -/
theorem Balanced.move (h : Balanced home extra s) (hsmall : extra.length < 2 ^ 31)
    (ht : s.sched.tasks i = some t) (hlive : t.state ≠ .zombie) {aspaces : Aspaces}
    (hretain : s.aspaces.retain id = some aspaces) :
    Balanced (if i = 0 then id else home) extra
      { s with aspaces := aspaces.release t.code.aspaceId, sched := movedTo i t id s.sched } := by
  obtain ⟨j, a, -, ha, rfl, -⟩ := Aspaces.retain_some hretain
  obtain ⟨aspaces', hretain', -, htaken⟩ := h.retain (h.counted.used j a ha) hsmall
  obtain rfl : aspaces = aspaces' := Option.some.inj (hretain.symm.trans hretain')
  have hrefs := refsTo_movedTo ht hlive extra a.info.id aspaces
  have hstate := state_movedTo ht a.info.id
  have hhand : Balanced (if i = 0 then a.info.id else home) (t.code.aspaceId :: extra)
      { s with aspaces, sched := movedTo i t a.info.id s.sched } := by
    refine ⟨htaken.counted.congr hrefs, ⟨fun k => ?_, ?_⟩, ?_, htaken.kernel,
      (hrefs 0).trans htaken.proper⟩
    · rw [hstate]
      exact h.consistent.running k
    · rw [hstate]
      exact h.consistent.shell
    · rw [heldAt_movedTo, if_neg hlive]
      by_cases hi : i = 0
      · rw [hi, Function.update_self, if_pos rfl]
      · rw [Function.update_of_ne (Ne.symm hi), if_neg hi]
        exact h.shell
  exact hhand.release

/-- A space that is released leaves the others as they are. -/
theorem Aspaces.release_of_ne {s : Aspaces} {j : Fin aspaceMax} {a : AspaceSlot}
    (ha : s.table j = some a) (hne : a.info.id ≠ id) : (s.release id).table j = some a := by
  rcases Aspaces.release_cases s id with hsame | ⟨k, b, hb, hid, hrun⟩
  · rw [hsame]
    exact ha
  · have hjk : j ≠ k := by
      rintro rfl
      rw [ha, Option.some.injEq] at hb
      exact hne (hb ▸ hid)
    have hother : ∀ slot, Function.update s.table k slot j = some a := fun slot =>
      (Function.update_of_ne hjk _ _).trans ha
    rcases hrun with hgone | ⟨refcount, hdown⟩
    · rw [hgone]
      exact hother _
    · rw [hdown]
      exact hother _

/-- **Moving a zombie** takes a reference nobody holds. -/
theorem Balanced.move_zombie (h : Balanced home (syncRefs s.sync) s)
    (hmoves : MovesZombie pid id s) : ¬ CountsExact (schedTaskSetAspace pid id s).2 := by
  rcases schedTaskSetAspace_cases pid id s with ⟨-, hnot⟩ |
    ⟨i, t, aspaces, hi, ht, hne, hretain, hrun⟩
  · exact absurd hmoves hnot
  obtain ⟨i', t', hi', ht', hzombie, -, -⟩ := hmoves
  obtain rfl : i = i' := Option.some.inj (hi.symm.trans hi')
  obtain rfl : t = t' := Option.some.inj (ht.symm.trans ht')
  obtain ⟨j, a, -, ha, rfl, rfl⟩ := Aspaces.retain_some hretain
  -- the count of the new space is one more, and its holders are those it had
  have hheld : heldAt (movedTo i t a.info.id s.sched) = heldAt s.sched := by
    rw [heldAt_movedTo, if_pos hzombie, Function.update_eq_self_iff]
    rw [heldAt, ht, Option.bind_some, if_pos hzombie]
  have hafter : (s.aspaces.setRefcount j a (a.info.refcount + 1)).table j =
      some { a with info := { a.info with refcount := a.info.refcount + 1 } } :=
    Function.update_self ..
  have hbefore := h.countsExact.exact j a ha
  have hsmall := refsTo_le (syncRefs s.sync) s a.info.id
  have hcount := h.counted.exact j a ha
  have hsync := length_syncRefs_le s.sync
  intro hexact
  rw [hrun] at hexact
  have hwrong := hexact.exact j _ (Aspaces.release_of_ne hafter (Ne.symm hne))
  simp only [hheld] at hwrong
  rw [← hbefore, UInt32.toNat_add, UInt32.toNat_one] at hwrong
  omega

/-! ## Every run -/

theorem MoveReaches.balanced (h : MoveReaches s) : ∃ home, Balanced home (syncRefs s.sync) s := by
  induction h with
  | boot m => exact ⟨1, Balanced.boot m⟩
  | step op _ henabled hnumbered ih =>
    obtain ⟨home, hb⟩ := ih
    exact ⟨home, hb.step op henabled hnumbered⟩
  | @move s pid id _ hlive ih =>
    obtain ⟨home, hb⟩ := ih
    have hsync : (syncRefs s.sync).length < 2 ^ 31 :=
      (length_syncRefs_le s.sync).trans_lt (by decide)
    rcases schedTaskSetAspace_cases pid id s with ⟨hsame, -⟩ |
      ⟨i, t, aspaces, hi, ht, hne, hretain, hrun⟩
    · rw [hsame]
      exact ⟨home, hb⟩
    · obtain ⟨j, -, hj, -⟩ := Aspaces.retain_some hretain
      have hawake : t.state ≠ .zombie := fun hzombie =>
        hlive ⟨i, t, hi, ht, hzombie, hne, by rw [hj]; rfl⟩
      rw [hrun]
      exact ⟨_, hb.move hsync ht hawake hretain⟩

/-- **Moving tasks keeps the counts**, as long as no zombie is moved to another space that is
    there: in every run whose moves are such, the counts are exact and no space of a live task
    is gone; and one move more leaves it so if and only if it is such a move.

    `h` is any run of spawns, forks, execs, switches, exits and moves, of which the steps hand out
    good numbers (as in `refcounts_exact`: a pid or an id that has gone round spoils the counts by
    itself) and the moves before are of the allowed kind. The second half is about any move that is
    then made, with any pid and id, known or not. -/
theorem moves_counted_iff (h : MoveReaches s) :
    CountsExact s ∧
      ∀ pid id, CountsExact (schedTaskSetAspace pid id s).2 ↔ ¬ MovesZombie pid id s := by
  obtain ⟨home, hb⟩ := h.balanced
  refine ⟨hb.countsExact, fun pid id => ⟨fun hexact hmoves => hb.move_zombie hmoves hexact,
    fun hlive => ?_⟩⟩
  obtain ⟨home', hb'⟩ := (h.move pid id hlive).balanced
  exact hb'.countsExact

theorem ProcReaches.moves (h : ProcReaches ProcOp.Numbered s) : MoveReaches s := by
  induction h with
  | boot m => exact .boot m
  | step op _ henabled hnumbered ih => exact .step op ih henabled hnumbered

end

/-! ## A zombie and a program that runs -/

/-- The shell has forked once, and the child has run. -/
def childGone : Processes := forkState sampleMemory 1 3 (some ⟨.zombie, 2, ⟨1, none⟩⟩)

/-- Then a program's image is read from a fresh store, and its space made. -/
def loadDemo : ProcOp :=
  .syncOpen (cstr "/bin/ring3demo") (fun _ => 0) (fsBoot blankDrive) fun _ => 0

theorem childGone_reached : ProcReaches ProcOp.Numbered childGone := by
  have hvisible : visiblePid 2 = true := rfl
  obtain ⟨hchild, hround⟩ := forkRound_eq sampleMemory (Or.inl rfl) hvisible
  rw [← boot_eq] at hchild hround
  have hforked : ProcReaches ProcOp.Numbered (sysFork (processesBoot sampleMemory)).2 :=
    .step .fork (.boot sampleMemory) rfl boot_fork_numbered
  have hyielded : ProcReaches ProcOp.Numbered
      ((sysFork (processesBoot sampleMemory)).2.yield none) :=
    .step (.yield none) hforked ⟨rfl, fun _ h => by cases h⟩ trivial
  have hended : ProcReaches ProcOp.Numbered (forkRound (processesBoot sampleMemory)) := by
    refine .step .exit hyielded ?_ trivial
    rw [hchild]
    exact ⟨rfl, show (1 : Fin maxTasks) ≠ 0 by decide⟩
  rw [hround] at hended
  exact hended

theorem loadDemo_reached : ProcReaches ProcOp.Numbered (loadDemo.run childGone) := by
  refine .step loadDemo childGone_reached ⟨rfl, by decide +kernel⟩ fun _ => ⟨by decide, ?_⟩
  intro i a ha
  by_cases hi : i = 0
  · rw [hi] at ha
    obtain rfl := Option.some.inj ha
    decide
  · have hnone : childGone.aspaces.table i = none := if_neg hi
    rw [hnone] at ha
    cases ha

/-- The zombie, the shell, and the two spaces. -/
theorem loadDemo_state :
    (loadDemo.run childGone).sched.findTask 1 = some 0 ∧
      (loadDemo.run childGone).sched.tasks 0 = some ⟨.running, 1, ⟨1, none⟩⟩ ∧
      (loadDemo.run childGone).sched.findTask 2 = some 1 ∧
      (loadDemo.run childGone).sched.tasks 1 = some ⟨.zombie, 2, ⟨1, none⟩⟩ ∧
      ((loadDemo.run childGone).aspaces.findSlot 2).isSome = true := by
  decide +kernel

/-- The shell can be moved into the program's space. -/
theorem moves_counted_shell :
    CountsExact (schedTaskSetAspace 1 2 (loadDemo.run childGone)).2 := by
  obtain ⟨hshell, htask, -⟩ := loadDemo_state
  refine ((moves_counted_iff loadDemo_reached.moves).2 1 2).mpr ?_
  rintro ⟨i, t, hi, ht, hzombie, -⟩
  obtain rfl : 0 = i := Option.some.inj (hshell.symm.trans hi)
  obtain rfl := Option.some.inj (htask.symm.trans ht)
  cases hzombie

/-- The zombie cannot. -/
theorem moves_miscounted : ¬ ∀ s, ProcReaches ProcOp.Numbered s → ∀ pid id,
    CountsExact (schedTaskSetAspace pid id s).2 := by
  intro hall
  obtain ⟨-, -, hfind, htask, hspace⟩ := loadDemo_state
  exact loadDemo_reached.balanced.move_zombie ⟨1, _, hfind, htask, rfl, by decide, hspace⟩
    (hall _ loadDemo_reached 2 2)

end Proof
end BumbelBee
