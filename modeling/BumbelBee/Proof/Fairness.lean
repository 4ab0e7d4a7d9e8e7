import BumbelBee.Lib.Rotation
import BumbelBee.Lib.Run
import BumbelBee.Proof.TaskTable

/-!
# Nobody starves

`find_next_ready` goes round the table from the slot behind the current one. While a task
waits, the current slot moves from the one that was dispatched towards the waiting one, and
never past it: so whoever was dispatched before is not dispatched again until the waiting task
has been, whatever is spawned and whoever exits in between.

What is proved is stronger than that a waiting task is dispatched at some time: between two
dispatches of the same slot everybody who waited has had a turn. A task that becomes ready in
between may have to wait for the next round, and a spawn may fill a slot behind the current one;
neither takes a turn from one that waits already.
-/

namespace BumbelBee
namespace Proof

open Lib Kernel

variable {α : Type}

/-- The slots `switch_to` is handed, in order. -/
def dispatched : List (SchedOp α) → Sched α → List (Fin maxTasks) :=
  outputs SchedOp.run fun op s => ((op.dispatches s).map Prod.fst).toList

/-- The task in slot `j` waits, and going round from `i` on the current slot comes before it. -/
structure Awaits (i j : Fin maxTasks) (s : Sched α) : Prop where
  ready : s.state j = some .ready
  between : ahead i s.current < ahead i j

section
variable {s : Sched α} {i j k : Fin maxTasks}

/-- Somebody who is not ready looks for the next task, and it is not him. -/
theorem Sched.yield_found (hcur : s.state s.current ≠ some .ready) (hk : s.findNextReady = some k) :
    k ≠ s.current ∧ s.yield = s.switchTo k := by
  have hne : k ≠ s.current := fun h => by
    rw [← h] at hcur
    exact hcur (Sched.isReady_iff.mp (Sched.findNextReady_ready hk))
  refine ⟨hne, ?_⟩
  simp only [Sched.yield, hk, Sched.dispatch]
  exact if_neg hne

/-- **The switch** goes towards the task that waits: it is dispatched now, or it waits on. -/
theorem Awaits.switch (h : Awaits i j s) (hcur : s.state s.current ≠ some .ready)
    (hk : s.findNextReady = some k) : k ≠ i ∧ (k ≠ j → Awaits i j s.yield) := by
  obtain ⟨hne, hrun⟩ := Sched.yield_found hcur hk
  have hjcur : j ≠ s.current := fun hj => by
    rw [hj] at h
    exact hcur h.ready
  obtain ⟨hpast, hle⟩ := ahead_between h.between
    (ahead_find_le hk (Sched.isReady_iff.mpr h.ready))
  refine ⟨fun hki => ?_, fun hkj => ?_⟩
  · rw [hki, ahead_self] at hpast
    exact absurd hpast (Nat.not_lt_zero _)
  · rw [hrun]
    refine ⟨?_, Nat.lt_of_le_of_ne hle fun heq => hkj ?_⟩
    · rw [s.state_switchTo, if_neg (Ne.symm hkj), if_neg hjcur]
      exact h.ready
    · exact ahead_injective heq

/-- **One call.** -/
theorem Awaits.step (h : Awaits i j s) (hs : s.Consistent) (op : SchedOp α)
    (henabled : op.Enabled s) : (op.dispatches s).map Prod.fst ≠ some i ∧
      ((op.dispatches s).map Prod.fst ≠ some j → Awaits i j (op.run s)) := by
  have hrunning : s.state s.current = some .running := (hs.running _).mpr rfl
  have hjcur : j ≠ s.current := fun hj => by
    have hready := h.ready
    rw [hj, hrunning] at hready
    cases hready
  cases op with
  | spawn code =>
    refine ⟨(Option.some_ne_none i).symm, fun _ => ?_⟩
    cases hslot : s.freeSlot with
    | none =>
      rw [SchedOp.run, Sched.spawn_none hslot]
      exact h
    | some slot =>
      have hother : j ≠ slot := fun hj => by
        have hfree := (Sched.freeSlot_free hslot).2
        rw [← hj, h.ready] at hfree
        simp at hfree
      refine ⟨?_, ?_⟩
      · rw [SchedOp.run, Sched.state_spawn hslot, if_neg hother]
        exact h.ready
      · rw [show (SchedOp.run (.spawn code) s).current = s.current by
          simp only [SchedOp.run, Sched.spawn, hslot]]
        exact h.between
  | yield =>
    obtain ⟨k, hk⟩ := Option.isSome_iff_exists.mp
      (Sched.findNextReady_isSome (Sched.isReady_iff.mpr h.ready))
    obtain ⟨hki, hkeep⟩ := h.switch (by rw [hrunning]; decide) hk
    rw [SchedOp.dispatches, hk]
    exact ⟨fun heq => hki (Option.some.inj heq), fun hkj => hkeep fun heq => hkj (by rw [heq]; rfl)⟩
  | tick => exact ⟨(Option.some_ne_none i).symm, fun _ => h⟩
  | prepareReplay =>
    refine ⟨(Option.some_ne_none i).symm, fun _ => ⟨?_, h.between⟩⟩
    rw [SchedOp.run, s.state_prepareReplay, if_neg fun hz => by rw [h.ready] at hz; cases hz.2]
    exact h.ready
  | exit halted =>
    -- the current task is a zombie when it looks for the next one
    have hretired : Awaits i j (s.retire halted) := by
      refine ⟨?_, h.between⟩
      rw [s.state_retire, if_neg hjcur]
      exact h.ready
    have hzombie : (s.retire halted).state (s.retire halted).current ≠ some .ready := by
      rw [s.state_retire, show (s.retire halted).current = s.current from rfl, if_pos rfl, hrunning]
      decide
    obtain ⟨k, hk⟩ := Option.isSome_iff_exists.mp
      (Sched.findNextReady_isSome (Sched.isReady_iff.mpr hretired.ready))
    obtain ⟨hki, hkeep⟩ := hretired.switch hzombie hk
    rw [SchedOp.dispatches, hk]
    exact ⟨fun heq => hki (Option.some.inj heq), fun hkj => hkeep fun heq => hkj (by rw [heq]; rfl)⟩

end

/-! ## Runs -/

/-- The slot a call dispatches is the current one behind it. -/
theorem SchedOp.dispatched_current {s : Sched α} (hs : s.Consistent) {op : SchedOp α}
    {i : Fin maxTasks} (h : (op.dispatches s).map Prod.fst = some i) : (op.run s).current = i := by
  cases op with
  | spawn code => cases h
  | tick => cases h
  | prepareReplay => cases h
  | yield =>
    rw [SchedOp.dispatches, Option.map_map] at h
    obtain ⟨k, hk, rfl⟩ := Option.map_eq_some_iff.mp h
    have hcur : s.state s.current ≠ some .ready := by
      rw [(hs.running _).mpr rfl]
      nofun
    rw [SchedOp.run, (Sched.yield_found hcur hk).2]
    rfl
  | exit halted =>
    rw [SchedOp.dispatches, Option.map_map] at h
    obtain ⟨k, hk, rfl⟩ := Option.map_eq_some_iff.mp h
    have hcur : (s.retire halted).state (s.retire halted).current ≠ some .ready := by
      rw [s.state_retire, show (s.retire halted).current = s.current from rfl, if_pos rfl,
        (hs.running _).mpr rfl]
      nofun
    rw [SchedOp.run, Sched.taskExit, (Sched.yield_found hcur hk).2]
    rfl

/-- Who waits and is not dispatched waits on. -/
theorem Awaits.run {s : Sched α} {i j : Fin maxTasks} (h : Awaits i j s) (hs : s.Consistent)
    {ops : List (SchedOp α)} (hrun : EachStep SchedOp.run (fun op s => op.Enabled s) ops s)
    (hj : j ∉ dispatched ops s) :
    (runAll SchedOp.run ops s).Consistent ∧ Awaits i j (runAll SchedOp.run ops s) := by
  refine runAll_keeps (fun _ s' => s'.Consistent ∧ Awaits i j s') ⟨hs, h⟩ hrun ?_
  rintro done op hdone ⟨hcons, hawaits⟩ henabled
  refine ⟨Consistent.step hcons op henabled, (hawaits.step hcons op henabled).2 fun hop => hj ?_⟩
  exact mem_outputs.mpr ⟨done, op, hdone, by rw [hop]; exact List.mem_cons_self⟩

/-- **No starvation**: in every run of calls from `sched_init` on, between two dispatches of one
    slot every other task that waited when the first was over has been dispatched, whatever is
    spawned, yields and exits in between.

    `h` is any state reached from `sched_init`. `first` and `second` are calls that both dispatch
    slot `i` (`hfirst`, `hsecond`), `between` is everything that happens from the one to the other,
    and `hj`, `hready` are a task that was ready behind the first. `hrun` asks of each call only
    that it can be made: a task exits that runs. -/
theorem no_starvation {s : Sched α} (h : SchedReaches s) {first second : SchedOp α}
    {between : List (SchedOp α)}
    (hrun : EachStep SchedOp.run (fun op s => op.Enabled s) (first :: between ++ [second]) s)
    {i j : Fin maxTasks} (hfirst : (first.dispatches s).map Prod.fst = some i)
    (hsecond : (second.dispatches (runAll SchedOp.run (first :: between) s)).map Prod.fst = some i)
    (hj : j ≠ i) (hready : (first.run s).state j = some .ready) :
    j ∈ dispatched between (first.run s) := by
  have hs := Consistent.step h.consistent first hrun.1
  obtain ⟨hbetween, hlast⟩ := EachStep.append.mp hrun.2
  by_contra hnot
  have hstart : Awaits i j (first.run s) := by
    refine ⟨hready, ?_⟩
    rw [SchedOp.dispatched_current h.consistent hfirst, ahead_self]
    refine Nat.pos_of_ne_zero fun hzero => hj ?_
    rw [← ahead_self i] at hzero
    exact ahead_injective hzero
  obtain ⟨hcons, hawaits⟩ := hstart.run hs hbetween hnot
  exact (hawaits.step hcons second hlast.1).1 hsecond

/-- The shell yields to the first of two tasks, which yields to the second; this one exits, and
    the shell yields to the first again. -/
theorem no_starvation_sample :
    (2 : Fin maxTasks) ∈ dispatched [.yield, .exit ()]
      ((SchedOp.yield (α := Unit)).run
        ((SchedOp.spawn ()).run ((SchedOp.spawn ()).run (schedInit ())))) := by
  have hreaches : SchedReaches
      ((SchedOp.spawn ()).run ((SchedOp.spawn ()).run (schedInit ()))) :=
    .step (.spawn ()) (.step (.spawn ()) (.init ()) trivial) trivial
  have hrun : EachStep SchedOp.run (fun op s => op.Enabled s)
      (.yield :: [.yield, .exit ()] ++ [.yield])
      ((SchedOp.spawn ()).run ((SchedOp.spawn ()).run (schedInit ()))) :=
    ⟨trivial, trivial, by simp only [SchedOp.Enabled]; decide, trivial, trivial⟩
  exact no_starvation hreaches hrun (i := 1) (by decide) (by decide) (by decide) (by decide)

end Proof
end BumbelBee
