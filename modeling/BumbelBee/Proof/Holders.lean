import BumbelBee.Kernel.Processes
import BumbelBee.Lib.Counted
import BumbelBee.Proof.TaskTable

/-!
# Who holds an address space

`held` is what the reference counts are measured against: the tasks that are not zombies,
slot by slot, and the references a call in progress has in hand (`extra`). The shell holds
the kernel's space and took no reference for it; the one `aspace_init` created stands for it,
so the table agrees with `held` from boot on. The kernel's space is kept, whoever holds it.
Each operation is followed through its retains and releases, on every path.

A spawn that is handed one of the two pids `task_visible` denies leaves a slot that nobody
sees: the reference it took is one that is never given back.

What makes the books balance is that every path out of an operation has been looked at, the failing
ones first: a spawn that finds no slot has taken its space before it looked, and gives it back; a
space that could not be filled is released by the call that made it. `Balanced` has the tasks that
hold, and beside it the references that a call under way has in hand.
-/

namespace BumbelBee
namespace Proof

open Lib Kernel

/-! ## The address-space table

`held` counts references by id. A retain adds one and a release takes one away; a slot that comes to
zero is cleared, and the kernel's is kept at whatever count.
-/

/-- The table counts what is held, and keeps the kernel's space. -/
abbrev AspacesCounted (s : Aspaces) (held : UInt32 → Nat) : Prop :=
  Counted (fun id => id = s.kernelAspaceId) (fun a : AspaceSlot => a.info.id)
    (fun a => a.info.refcount.toNat) s.table held

section
variable {s : Aspaces} {held : UInt32 → Nat} {id : UInt32}

theorem Aspaces.findSlot_some {i : Fin aspaceMax} (h : s.findSlot id = some i) :
    ∃ a, s.table i = some a ∧ a.info.id = id := by
  have hfound := List.find?_some h
  cases ha : s.table i with
  | none => simp [ha] at hfound
  | some a => exact ⟨a, rfl, by simpa [ha] using hfound⟩

/-- A space that is found is retained, and no other. -/
theorem Aspaces.retain_found {i : Fin aspaceMax} {a : AspaceSlot} (hfind : s.findSlot id = some i)
    (ha : s.table i = some a) : s.retain id = some (s.setRefcount i a (a.info.refcount + 1)) := by
  simp only [Aspaces.retain, hfind, ha, Option.bind_eq_bind, Option.bind_some]

theorem Aspaces.retain_some {s' : Aspaces} (h : s.retain id = some s') :
    ∃ i a, s.findSlot id = some i ∧ s.table i = some a ∧ a.info.id = id ∧
      s' = s.setRefcount i a (a.info.refcount + 1) := by
  obtain ⟨i, hi, -⟩ := Option.bind_eq_some_iff.mp h
  obtain ⟨a, ha, hid⟩ := Aspaces.findSlot_some hi
  rw [Aspaces.retain_found hi ha, Option.some.injEq] at h
  exact ⟨i, a, hi, ha, hid, h.symm⟩

/-- `aspace_release` finds nothing, or drops the space, or sets its count. -/
theorem Aspaces.release_cases (s : Aspaces) (id : UInt32) : s.release id = s ∨
    ∃ i a, s.table i = some a ∧ a.info.id = id ∧
      (s.release id = { s with table := Function.update s.table i none } ∨
        ∃ refcount, s.release id = s.setRefcount i a refcount) := by
  unfold Aspaces.release
  cases hfind : s.findSlot id with
  | none => exact Or.inl rfl
  | some i =>
    obtain ⟨a, ha, hid⟩ := Aspaces.findSlot_some hfind
    refine Or.inr ⟨i, a, ha, hid, ?_⟩
    simp only [ha]
    generalize (if a.info.refcount > 0 then a.info.refcount - 1 else a.info.refcount) = refcount
    split
    · exact Or.inl rfl
    · exact Or.inr ⟨refcount, rfl⟩

/-- What is held is found, and the kernel's space. -/
theorem Aspaces.findSlot_held (h : AspacesCounted s held)
    (hheld : id = s.kernelAspaceId ∨ 0 < held id) :
    ∃ i a, s.findSlot id = some i ∧ s.table i = some a ∧ a.info.id = id ∧
      a.info.refcount.toNat = held id := by
  obtain ⟨j, b, hj, hb⟩ := h.present id hheld
  have hsome : (s.findSlot id).isSome = true := by
    rw [Aspaces.findSlot, List.find?_isSome]
    exact ⟨j, List.mem_finRange j, by simp [hj, hb]⟩
  obtain ⟨i, hi⟩ := Option.isSome_iff_exists.mp hsome
  obtain ⟨a, ha, hid⟩ := Aspaces.findSlot_some hi
  exact ⟨i, a, hi, ha, hid, by rw [h.exact i a ha, hid]⟩

/-- **`aspace_retain`** of a space that is held, or the kernel's. -/
theorem Aspaces.retain_spec (h : AspacesCounted s held)
    (hheld : id = s.kernelAspaceId ∨ 0 < held id) (hsmall : held id + 1 < 2 ^ 32) :
    ∃ s', s.retain id = some s' ∧ AspacesCounted s' (oneMore id held) ∧
      s'.kernelAspaceId = s.kernelAspaceId := by
  obtain ⟨i, a, hfind, ha, rfl, hcount⟩ := Aspaces.findSlot_held h hheld
  refine ⟨_, Aspaces.retain_found hfind ha, h.retain ha rfl ?_, rfl⟩
  simp only [UInt32.toNat_add, UInt32.reduceToNat]
  omega

/-- **`aspace_release`** of a reference that is held. -/
theorem Aspaces.release_spec (h : AspacesCounted s (oneMore id held)) :
    AspacesCounted (s.release id) held ∧ (s.release id).kernelAspaceId = s.kernelAspaceId := by
  obtain ⟨i, a, hfind, ha, rfl, hcount⟩ :=
    Aspaces.findSlot_held h (Or.inr (by rw [oneMore_self]; exact Nat.succ_pos _))
  rw [oneMore_self] at hcount
  have hpos : a.info.refcount > 0 := by
    rw [gt_iff_lt, UInt32.lt_iff_toNat_lt, hcount]
    exact Nat.succ_pos _
  have hdown : (a.info.refcount - 1).toNat = held a.info.id := by
    rw [UInt32.toNat_sub_of_le _ _ (UInt32.le_iff_toNat_le.mpr (by rw [hcount]; simp)), hcount]
    rfl
  simp only [Aspaces.release, hfind, ha, if_pos hpos]
  by_cases hgone : a.info.refcount - 1 = 0 ∧ a.info.id ≠ s.kernelAspaceId
  · have hlast : held a.info.id = 0 := by
      rw [← hdown, hgone.1]
      rfl
    rw [if_pos hgone]
    exact ⟨h.free ha (by rw [hcount, hlast]) hgone.2, rfl⟩
  · rw [if_neg hgone]
    refine ⟨h.release ha rfl (by rw [hdown, hcount]) ?_, rfl⟩
    rw [not_and_or, not_not] at hgone
    refine hgone.symm.imp_right fun hleft => Nat.pos_of_ne_zero fun hzero => hleft ?_
    exact UInt32.toNat_inj.mp hzero

/-- `next_aspace_id` is an id `aspace_create` can answer, and nobody has it. -/
def FreshId (s : Aspaces) : Prop :=
  s.nextAspaceId ≠ 0 ∧ ∀ i a, s.table i = some a → a.info.id ≠ s.nextAspaceId

/-- When `clone_kernel_root` finds its pages, the id is fresh. -/
def CreateNumbered (s : Aspaces) : Prop :=
  (cloneKernelRoot s.kernelCr3 (s.newInfo .userShared none) s.memory).1.isSome = true → FreshId s

theorem Aspaces.unusedSlot_none {i : Fin aspaceMax} (h : s.unusedSlot = some i) :
    s.table i = none := by
  have hfound := List.find?_some h
  simpa using hfound

/-- `clone_kernel_root` fills in three fields, and whether it can is a matter of the pages. -/
theorem cloneKernelRoot_spec (kernelCr3 : UInt64) (info info' : AspaceInfo) (m : Memory) :
    (∀ i, (cloneKernelRoot kernelCr3 info m).1 = some i → i.id = info.id ∧ i.refcount = info.refcount) ∧
      ((cloneKernelRoot kernelCr3 info m).1.isSome =
        (cloneKernelRoot kernelCr3 info' m).1.isSome) := by
  unfold cloneKernelRoot
  simp only
  split
  · exact ⟨fun i hi => (by cases hi), rfl⟩
  · refine ⟨fun i hi => ?_, rfl⟩
    cases hi
    exact ⟨rfl, rfl⟩

/-- **`aspace_create`** of a user space: a reference for the caller, or 0 and nothing. -/
theorem Aspaces.create_spec (h : AspacesCounted s held) (hnumbered : CreateNumbered s)
    (label : Option (List UInt8)) :
    (s.create .userShared label).2.kernelAspaceId = s.kernelAspaceId ∧
      ((s.create .userShared label).1 = 0 → AspacesCounted (s.create .userShared label).2 held) ∧
      ((s.create .userShared label).1 ≠ 0 → AspacesCounted (s.create .userShared label).2
        (oneMore (s.create .userShared label).1 held)) := by
  unfold Aspaces.create
  cases hslot : s.unusedSlot with
  | none => exact ⟨rfl, fun _ => h, fun hne => absurd rfl hne⟩
  | some i =>
    have hspec := cloneKernelRoot_spec s.kernelCr3 (s.newInfo .userShared label)
      (s.newInfo .userShared none) s.memory
    cases hclone : cloneKernelRoot s.kernelCr3 (s.newInfo .userShared label) s.memory with
    | mk info memory =>
      rw [hclone] at hspec
      cases info with
      | none =>
        simp only [hclone]
        exact ⟨trivial, fun _ => h, fun hne => absurd rfl hne⟩
      | some info =>
        obtain ⟨hid, hrefcount⟩ := hspec.1 info rfl
        have hfresh := hnumbered hspec.2.symm
        have hnew : info.id = s.nextAspaceId := hid
        simp only [hclone]
        refine ⟨trivial, fun hzero => absurd (hnew ▸ hzero) hfresh.1, fun _ => ?_⟩
        refine h.create (Aspaces.unusedSlot_none hslot) ?_ fun j b hj => ?_
        · rw [hrefcount]
          rfl
        · rw [hnew]
          exact hfresh.2 j b hj

/-- When the clone of a user space finds its pages, its id is fresh. -/
def ForkNumbered (parentId : UInt32) (s : Aspaces) : Prop :=
  ∀ slot, s.findSlot parentId >>= s.table = some slot → slot.info.kind = .userShared →
    CreateNumbered s

/-- **`aspace_fork_clone`** of a space that is held: the kernel's is shared, a user's is made
    anew. -/
theorem Aspaces.forkClone_spec (h : AspacesCounted s held) (hheld : 0 < held id) (hid : id ≠ 0)
    (hsmall : held id + 1 < 2 ^ 32) (hnumbered : ForkNumbered id s) :
    (s.forkClone id).2.kernelAspaceId = s.kernelAspaceId ∧
      ((s.forkClone id).1 = 0 → AspacesCounted (s.forkClone id).2 held) ∧
      ((s.forkClone id).1 ≠ 0 → AspacesCounted (s.forkClone id).2
        (oneMore (s.forkClone id).1 held)) := by
  obtain ⟨i, slot, hfind, hslot, -, -⟩ := Aspaces.findSlot_held h (Or.inr hheld)
  have hparent : s.findSlot id >>= s.table = some slot := by
    rw [hfind, Option.bind_eq_bind, Option.bind_some, hslot]
  unfold Aspaces.forkClone
  rw [hparent]
  cases hkind : slot.info.kind with
  | kernel =>
    obtain ⟨s', hretain, hcounted, hkernel⟩ := Aspaces.retain_spec h (Or.inr hheld) hsmall
    simp only [hkind, hretain]
    exact ⟨hkernel, fun hzero => absurd hzero hid, fun _ => hcounted⟩
  | userShared =>
    simp only [hkind]
    exact Aspaces.create_spec h (hnumbered slot hparent hkind) _

@[simp] theorem Aspaces.switch_table (id : UInt32) (s : Aspaces) :
    (s.switch id).table = s.table := by
  unfold Aspaces.switch
  split <;> rfl

@[simp] theorem Aspaces.switch_kernel (id : UInt32) (s : Aspaces) :
    (s.switch id).kernelAspaceId = s.kernelAspaceId := by
  unfold Aspaces.switch
  split <;> rfl

end

/-! ## The task table -/

/-- The address space a slot's task holds; a zombie has let go of its own. -/
def heldAt (s : Sched TaskBody) (i : Fin maxTasks) : Option UInt32 :=
  (s.tasks i).bind fun t => if t.state = .zombie then none else some t.code.aspaceId

section
variable {s : Sched TaskBody}

/-- It is part of what the slot's task runs with. -/
theorem heldAt_comp (s : Sched TaskBody) :
    heldAt s = Option.map TaskBody.aspaceId ∘ s.liveAt := by
  funext i
  rw [Function.comp_apply, heldAt, Sched.liveAt]
  cases s.tasks i with
  | none => rfl
  | some t =>
    simp only [Option.bind_some]
    split <;> rfl

theorem heldAt_eq_none {i : Fin maxTasks} (h : s.state i = none ∨ s.state i = some .zombie) :
    heldAt s i = none := by
  rw [heldAt_comp, Function.comp_apply, Sched.liveAt_free h]
  rfl

theorem heldAt_of_task {i : Fin maxTasks} {t : Kernel.Task TaskBody} (h : s.tasks i = some t)
    (hlive : t.state ≠ .zombie) : heldAt s i = some t.code.aspaceId := by
  rw [heldAt_comp, Function.comp_apply, Sched.liveAt_of_task h hlive]
  rfl

theorem heldAt_some {i : Fin maxTasks} {id : UInt32} (h : heldAt s i = some id) :
    ∃ t, s.tasks i = some t ∧ t.state ≠ .zombie ∧ t.code.aspaceId = id := by
  obtain ⟨t, ht, hid⟩ := Option.bind_eq_some_iff.mp h
  split at hid
  · cases hid
  · exact ⟨t, ht, by assumption, Option.some.inj hid⟩

theorem heldAt_switchTo {next : Fin maxTasks} (h : s.isReady next = true) :
    heldAt (s.switchTo next) = heldAt s := by
  rw [heldAt_comp, heldAt_comp, Sched.liveAt_switchTo h]

theorem heldAt_retire (halted : TaskBody) :
    heldAt (s.retire halted) = Function.update (heldAt s) s.current none := by
  rw [heldAt_comp, heldAt_comp, Sched.liveAt_retire, Function.comp_update]
  rfl

theorem heldAt_spawn {i : Fin maxTasks} (h : s.freeSlot = some i) (code : TaskBody) :
    heldAt (s.spawn code).2 = Function.update (heldAt s) i
      (if visiblePid s.nextPid then some code.aspaceId else none) := by
  rw [heldAt_comp, heldAt_comp, Sched.liveAt_spawn h, Function.comp_update,
    apply_ite (Option.map TaskBody.aspaceId)]
  rfl

theorem heldAt_prepareReplay : heldAt s.prepareReplay = heldAt s := by
  rw [heldAt_comp, heldAt_comp, Sched.liveAt_prepareReplay]

end

/-! ## The references of a whole state -/

/-- How many hold an address space: live tasks, and `extra` references in hand. -/
def refsTo (extra : List UInt32) (s : Processes) (id : UInt32) : Nat :=
  holdersOf (heldAt s.sched) id + extra.count id

/-- The books are right, and the shell is where it was: at `home`. -/
structure Balanced (home : UInt32) (extra : List UInt32) (s : Processes) : Prop where
  counted : AspacesCounted s.aspaces (refsTo extra s)
  consistent : s.sched.Consistent
  shell : heldAt s.sched 0 = some home
  /-- What `aspace_init` made. -/
  kernel : s.aspaces.kernelAspaceId = 1
  /-- Nobody holds what stands for failure. -/
  proper : refsTo extra s 0 = 0

section
variable {s : Processes} {home : UInt32} {extra : List UInt32} {id : UInt32}

theorem refsTo_cons (extra : List UInt32) (s : Processes) (id : UInt32) :
    refsTo (id :: extra) s = oneMore id (refsTo extra s) := by
  funext k
  unfold refsTo
  by_cases hk : k = id
  · rw [hk, oneMore_self, List.count_cons_self, Nat.add_assoc]
  · rw [oneMore_of_ne hk, List.count_cons_of_ne (Ne.symm hk)]

theorem refsTo_le (extra : List UInt32) (s : Processes) (id : UInt32) :
    refsTo extra s id ≤ 8 + extra.length :=
  Nat.add_le_add (holdersOf_le _ _) List.count_le_length

theorem refsTo_held {i : Fin maxTasks} (h : heldAt s.sched i = some id) : 0 < refsTo extra s id :=
  Nat.lt_of_lt_of_le (holdersOf_pos h) (Nat.le_add_right _ _)

theorem refsTo_hand (h : id ∈ extra) : 0 < refsTo extra s id :=
  Nat.lt_of_lt_of_le (List.count_pos_iff.mpr h) (Nat.le_add_left _ _)

theorem Balanced.held_ne (h : Balanced home extra s) (hheld : 0 < refsTo extra s id) : id ≠ 0 := by
  rintro rfl
  rw [h.proper] at hheld
  exact absurd hheld (Nat.lt_irrefl 0)

theorem Balanced.kernel_ne (h : Balanced home extra s) : s.aspaces.kernelAspaceId ≠ 0 := by
  rw [h.kernel]
  decide

theorem Balanced.current_held (h : Balanced home extra s) :
    heldAt s.sched s.sched.current = some s.currentAspace := by
  obtain ⟨t, ht, hrun⟩ := Option.map_eq_some_iff.mp ((h.consistent.running s.sched.current).mpr rfl)
  rw [heldAt_of_task ht (by simp [hrun]), Processes.currentAspace, ht]
  rfl

/-- The space of a task that is no zombie is there. -/
theorem Balanced.findLive (h : Balanced home extra s) {i : Fin maxTasks}
    {t : Kernel.Task TaskBody} (ht : s.sched.tasks i = some t) (hlive : t.state ≠ .zombie) :
    ∃ j a, s.aspaces.findSlot t.code.aspaceId = some j ∧ s.aspaces.table j = some a ∧
      a.info.id = t.code.aspaceId := by
  have hheld : 0 < refsTo extra s t.code.aspaceId := refsTo_held (heldAt_of_task ht hlive)
  obtain ⟨j, a, hfind, ha, hid, -⟩ := Aspaces.findSlot_held h.counted (Or.inr hheld)
  exact ⟨j, a, hfind, ha, hid⟩

/-- A reference more, as `aspace_retain` or `aspace_create` made it. -/
theorem Balanced.withAspaces (h : Balanced home extra s) (hid : id ≠ 0) {aspaces : Aspaces}
    (hcounted : AspacesCounted aspaces (oneMore id (refsTo extra s)))
    (hkernel : aspaces.kernelAspaceId = s.aspaces.kernelAspaceId) :
    Balanced home (id :: extra) { s with aspaces } := by
  refine ⟨?_, h.consistent, h.shell, hkernel.trans h.kernel, ?_⟩
  · rw [refsTo_cons]
    exact hcounted
  · rw [refsTo_cons, oneMore_of_ne (Ne.symm hid)]
    exact h.proper

theorem Balanced.retain (h : Balanced home extra s)
    (hheld : id = s.aspaces.kernelAspaceId ∨ 0 < refsTo extra s id)
    (hsmall : extra.length < 2 ^ 31) :
    ∃ aspaces, s.aspaces.retain id = some aspaces ∧
      aspaces.kernelAspaceId = s.aspaces.kernelAspaceId ∧
      Balanced home (id :: extra) { s with aspaces } := by
  have hle := refsTo_le extra s id
  obtain ⟨aspaces, hretain, hcounted, hkernel⟩ :=
    Aspaces.retain_spec h.counted hheld (by omega)
  have hne : id ≠ 0 := hheld.elim (fun hk => hk ▸ h.kernel_ne) h.held_ne
  exact ⟨aspaces, hretain, hkernel, h.withAspaces hne hcounted hkernel⟩

theorem Balanced.release (h : Balanced home (id :: extra) s) : Balanced home extra (s.release id) := by
  have hcounted := h.counted
  rw [refsTo_cons] at hcounted
  obtain ⟨hrest, hkernel⟩ := Aspaces.release_spec hcounted
  refine ⟨hrest, h.consistent, h.shell, hkernel.trans h.kernel, ?_⟩
  have hproper := h.proper
  have hle := le_oneMore id 0 (refsTo extra s)
  rw [refsTo_cons] at hproper
  exact Nat.eq_zero_of_le_zero (hproper ▸ hle)

/-- The reference a spawn takes and never gives back: its task is one nobody sees. -/
def lostBy (id : UInt32) (s : Processes) : List UInt32 :=
  if s.sched.freeSlot.isSome = true ∧ visiblePid s.sched.nextPid = false then [id] else []

/-- A slot that is written: the new task takes over the reference that was made for it, or the
    reference is lost. -/
theorem refsTo_spawn {i : Fin maxTasks} (hslot : s.sched.freeSlot = some i)
    (extra : List UInt32) (id : UInt32) (job : Option JobRef) (aspaces : Aspaces) (k : UInt32) :
    refsTo (lostBy id s ++ extra) { s with sched := (s.sched.spawn ⟨id, job⟩).2, aspaces } k =
      refsTo (id :: extra) s k := by
  have hempty := heldAt_eq_none (Sched.freeSlot_free hslot).2
  have hspawn := heldAt_spawn hslot ⟨id, job⟩
  unfold lostBy
  rw [hslot]
  cases hvisible : visiblePid s.sched.nextPid with
  | true =>
    rw [hvisible, if_pos rfl] at hspawn
    rw [if_neg (by simp), List.nil_append, refsTo_cons, refsTo, hspawn, holdersOf_take hempty]
    by_cases hk : k = id
    · rw [hk, oneMore_self, oneMore_self, refsTo]
      exact Nat.add_right_comm _ _ _
    · rw [oneMore_of_ne hk, oneMore_of_ne hk, refsTo]
  | false =>
    rw [hvisible, if_neg (by simp), Function.update_eq_self_iff.mpr hempty.symm] at hspawn
    rw [if_pos (by simp), refsTo, refsTo, hspawn]
    rfl

/-- **`sched_spawn_with_parent_aspace`**, for a space the caller holds. -/
theorem Balanced.spawnTask (h : Balanced home extra s) (hid : id ∈ extra)
    (hsmall : extra.length < 2 ^ 31) (job : Option JobRef) :
    Balanced home (lostBy id s ++ extra) (schedSpawnWithParentAspace job id s).2 := by
  unfold schedSpawnWithParentAspace
  cases hslot : s.sched.freeSlot with
  | none =>
    rw [lostBy, hslot, if_neg (by simp)]
    exact h
  | some i =>
    obtain ⟨aspaces, hretain, -, htaken⟩ := h.retain (Or.inr (refsTo_hand hid)) hsmall
    have hrefs := refsTo_spawn hslot extra id job aspaces
    simp only [hretain]
    refine ⟨htaken.counted.congr hrefs, h.consistent.spawn _, ?_, htaken.kernel,
      (hrefs 0).trans htaken.proper⟩
    rw [heldAt_spawn hslot, Function.update_of_ne (Ne.symm (Sched.freeSlot_free hslot).1)]
    exact h.shell

/-- The order in which references are in hand is nobody's business. -/
theorem Balanced.perm {extra' : List UInt32} (h : Balanced home extra s) (hperm : extra.Perm extra') :
    Balanced home extra' s := by
  have hrefs : ∀ k, refsTo extra' s k = refsTo extra s k := fun k => by
    rw [refsTo, refsTo, hperm.count_eq]
  exact ⟨h.counted.congr hrefs, h.consistent, h.shell, h.kernel, (hrefs 0).trans h.proper⟩

/-- The reference in hand is dropped, what was lost before stays lost. -/
theorem Balanced.releaseBehind {lost : List UInt32} (h : Balanced home (lost ++ id :: extra) s) :
    Balanced home (lost ++ extra) (s.release id) :=
  (h.perm List.perm_middle).release

/-- What `sched_spawn_with_parent` does not give back. -/
def lostBySpawn (s : Processes) : List UInt32 :=
  let forked := s.aspaces.forkClone s.currentAspace
  if forked.1 = 0 then [] else lostBy forked.1 s

/-- **`sched_spawn` and `sys_fork`**, failing or not. -/
theorem Balanced.spawn (h : Balanced home extra s) (hsmall : extra.length + 1 < 2 ^ 31)
    (hnumbered : ForkNumbered s.currentAspace s.aspaces) :
    Balanced home (lostBySpawn s ++ extra) (schedSpawnWithParent s).2 := by
  have hheld : 0 < refsTo extra s s.currentAspace := refsTo_held h.current_held
  have hle := refsTo_le extra s s.currentAspace
  obtain ⟨hkernel, hfail, hforked⟩ := Aspaces.forkClone_spec h.counted hheld (h.held_ne hheld)
    (by omega) hnumbered
  unfold schedSpawnWithParent lostBySpawn
  simp only
  by_cases hzero : (s.aspaces.forkClone s.currentAspace).1 = 0
  · rw [if_pos hzero, if_pos hzero]
    exact ⟨hfail hzero, h.consistent, h.shell, hkernel.trans h.kernel, h.proper⟩
  · rw [if_neg hzero, if_neg hzero]
    have hhand := h.withAspaces hzero (hforked hzero) hkernel
    exact (hhand.spawnTask List.mem_cons_self (by simpa using hsmall) none).releaseBehind

/-- `builtin_exec_spawn` comes to the spawn: the program is there, and a job for it. -/
def startsTask (path : List UInt8) (arg : Option (List UInt8)) (s : Processes) : Bool :=
  match spawnProgram path with
  | none => false
  | some prog => (allocJob prog arg s.jobs).isSome

/-- What `builtin_exec_spawn` does not give back. -/
def lostByExec (path : List UInt8) (arg : Option (List UInt8)) (s : Processes) : List UInt32 :=
  if startsTask path arg s then lostBy s.aspaces.kernelAspaceId s else []

/-- **`builtin_exec_spawn`**, failing at any step or not. -/
theorem Balanced.exec (h : Balanced home extra s) (hsmall : extra.length + 1 < 2 ^ 31)
    (path : List UInt8) (arg : Option (List UInt8)) :
    Balanced home (lostByExec path arg s ++ extra) (builtinExecSpawn path arg s).2 := by
  obtain ⟨aspaces, hretain, -, htaken⟩ := h.retain (Or.inl rfl) (by omega)
  unfold builtinExecSpawn lostByExec startsTask
  cases hprog : spawnProgram path with
  | none => exact h
  | some prog =>
    simp only [hretain, if_neg h.kernel_ne]
    rcases Option.eq_none_or_eq_some (allocJob prog arg s.jobs) with hjob | ⟨job, hjob⟩
    · -- no job slot: the reference is dropped
      simp only [hjob]
      exact htaken.release
    · have hin : Balanced home (s.aspaces.kernelAspaceId :: extra)
          { s with aspaces, jobs := job.2 } :=
        ⟨htaken.counted, htaken.consistent, htaken.shell, htaken.kernel, htaken.proper⟩
      have hspawned := hin.spawnTask List.mem_cons_self (by simpa using hsmall) (some job.1)
      simp only [hjob, Option.isSome_some, if_true]
      cases hres : schedSpawnWithParentAspace (some job.1) s.aspaces.kernelAspaceId
          { s with aspaces, jobs := job.2 } with
      | mk pid s' =>
        rw [hres] at hspawned
        cases pid with
        | none => exact hspawned.releaseBehind
        | some pid => exact hspawned.releaseBehind

/-! ## Switching and exiting -/

/-- `switch_to` a ready slot, from a table that is in order but for the running slot. -/
theorem Balanced.switchTo {next : Fin maxTasks} (hcounted : AspacesCounted s.aspaces (refsTo extra s))
    (hshell : heldAt s.sched 0 = some home) (hkernel : s.aspaces.kernelAspaceId = 1)
    (hproper : refsTo extra s 0 = 0) (hready : s.sched.isReady next = true)
    (hrunning : ∀ i, s.sched.state i = some .running → i = s.sched.current)
    (hstate : s.sched.state 0 = some .ready ∨ s.sched.state 0 = some .running)
    (hne : next ≠ s.sched.current) : Balanced home extra (s.switchTo next) := by
  have hheld : heldAt (s.sched.switchTo next) = heldAt s.sched := heldAt_switchTo hready
  have hconsistent := Sched.switchTo_consistent (Sched.isReady_iff.mp hready) hrunning hstate
  have hrefs : ∀ k, refsTo extra (s.switchTo next) k = refsTo extra s k := fun k => by
    rw [Processes.switchTo, if_neg hne, refsTo, refsTo, hheld]
  refine ⟨?_, ?_, ?_, ?_, (hrefs 0).trans hproper⟩
  · refine Counted.congr ?_ hrefs
    rw [Processes.switchTo, if_neg hne, Aspaces.switch_table, Aspaces.switch_kernel]
    exact hcounted
  · rw [Processes.switchTo, if_neg hne]
    exact hconsistent
  · rw [Processes.switchTo, if_neg hne, hheld]
    exact hshell
  · rw [Processes.switchTo, if_neg hne, Aspaces.switch_kernel]
    exact hkernel

/-- `sched_yield` stays, or switches to a slot that is ready. -/
theorem Processes.yield_cases {forced : Option (Fin maxTasks)}
    (hforced : ∀ next, forced = some next → s.sched.isReady next = true) :
    s.yield forced = s ∨ ∃ next, s.sched.isReady next = true ∧ next ≠ s.sched.current ∧
      s.yield forced = s.switchTo next := by
  unfold Processes.yield Processes.dispatchNext
  cases hnext : forced.or s.sched.findNextReady with
  | none => exact Or.inl rfl
  | some next =>
    have hready : s.sched.isReady next = true := by
      cases forced with
      | none => exact Sched.findNextReady_ready hnext
      | some i => exact Option.some.inj hnext ▸ hforced i rfl
    by_cases hne : next = s.sched.current
    · exact Or.inl (if_pos hne)
    · exact Or.inr ⟨next, hready, hne, rfl⟩

/-- `sched_yield`; what a replay asks for has to be ready. -/
theorem Balanced.yield (h : Balanced home extra s) {forced : Option (Fin maxTasks)}
    (hforced : ∀ next, forced = some next → s.sched.isReady next = true) :
    Balanced home extra (s.yield forced) := by
  rcases Processes.yield_cases hforced with hstay | ⟨next, hready, hne, hrun⟩
  · rw [hstay]
    exact h
  · rw [hrun]
    exact Balanced.switchTo h.counted h.shell h.kernel h.proper hready
      (fun i hi => (h.consistent.running i).mp hi) h.consistent.shell hne

/-- `task_exit` finds somebody to switch to. -/
theorem Processes.taskExit_eq (h : s.sched.Consistent) (hcur : s.sched.current ≠ 0) :
    ∃ t next, s.sched.tasks s.sched.current = some t ∧ t.state = .running ∧
      (s.sched.retire t.code).isReady next = true ∧ next ≠ s.sched.current ∧
      s.taskExit = Processes.switchTo next
        { s.release t.code.aspaceId with sched := s.sched.retire t.code } := by
  obtain ⟨t, ht, hrun⟩ := Option.map_eq_some_iff.mp ((h.running s.sched.current).mpr rfl)
  obtain ⟨next, hnext, hne⟩ := h.exit_found hcur t.code
  refine ⟨t, next, ht, hrun, Sched.findNextReady_ready hnext, hne, ?_⟩
  simp only [Processes.taskExit, ht, Processes.release, hnext, Processes.dispatchNext]

/-- **`task_exit`**: the zombie holds nothing, and what it held is released. -/
theorem Balanced.taskExit (h : Balanced home extra s) (hcur : s.sched.current ≠ 0) :
    Balanced home extra s.taskExit := by
  obtain ⟨t, next, ht, hrun, hready, hne, hexit⟩ := Processes.taskExit_eq h.consistent hcur
  have hholds := heldAt_of_task ht (by simp [hrun])
  have hretired : heldAt (s.sched.retire t.code) = Function.update (heldAt s.sched) s.sched.current none :=
    heldAt_retire t.code
  -- what the zombie lets go of, as a reference in hand
  have hhand : ∀ k, refsTo (t.code.aspaceId :: extra) { s with sched := s.sched.retire t.code } k =
      refsTo extra s k := fun k => by
    have hdrop := congrFun (holdersOf_drop hholds) k
    rw [refsTo_cons, refsTo, ← hdrop, oneMore, oneMore, Pi.add_apply, Pi.add_apply, refsTo, hretired]
    exact Nat.add_right_comm _ _ _
  have hshell : heldAt (s.sched.retire t.code) 0 = some home := by
    rw [hretired, Function.update_of_ne (Ne.symm hcur)]
    exact h.shell
  have hcounted := h.counted.congr hhand
  rw [refsTo_cons] at hcounted
  obtain ⟨hrest, hkernel⟩ := Aspaces.release_spec hcounted
  rw [hexit]
  obtain ⟨hrunning, hstate⟩ := h.consistent.retired hcur t.code
  refine Balanced.switchTo hrest hshell (hkernel.trans h.kernel) ?_ hready hrunning hstate hne
  have hle := le_oneMore t.code.aspaceId 0
    (refsTo extra { s with sched := s.sched.retire t.code })
  rw [← refsTo_cons, hhand, h.proper] at hle
  exact Nat.eq_zero_of_le_zero hle

/-- A task's end: its job is free again, and `task_exit`. -/
theorem Balanced.taskEnds (h : Balanced home extra s) (hcur : s.sched.current ≠ 0) :
    Balanced home extra s.taskEnds := by
  unfold Processes.taskEnds
  split
  · exact h.taskExit hcur
  · exact Balanced.taskExit ⟨h.counted, h.consistent, h.shell, h.kernel, h.proper⟩ hcur

/-! ## Running a ring-3 program -/

/-- The reference a `builtin_exec_run_sync` in progress has in hand. -/
def syncRefs (sync : Option SyncRun) : List UInt32 := (sync.map SyncRun.aspaceId).toList

theorem syncRefs_count (sync : Option SyncRun) (id : UInt32) :
    (syncRefs sync).count id = if sync.map SyncRun.aspaceId = some id then 1 else 0 := by
  unfold syncRefs
  cases sync with
  | none => rfl
  | some r => simp [List.count_singleton]

theorem length_syncRefs_le (sync : Option SyncRun) : (syncRefs sync).length ≤ 1 := by
  unfold syncRefs
  cases sync with
  | none => exact Nat.zero_le 1
  | some r => exact Nat.le_refl 1

theorem Balanced.syncOpen (h : Balanced home [] s) (hsync : s.sync = none)
    (hnumbered : CreateNumbered s.aspaces) (image : Option (List UInt8)) (frame : ImageMem) :
    Balanced home (syncRefs (runSyncOpen image frame s).sync) (runSyncOpen image frame s) := by
  have hidle : Balanced home (syncRefs s.sync) s := by
    rw [hsync]
    exact h
  unfold runSyncOpen
  cases image with
  | none => exact hidle
  | some image =>
    simp only
    cases elfParseImage (imageMem image frame) (UInt64.ofNat image.length) with
    | none => exact hidle
    | some info =>
      obtain ⟨hkernel, hfail, hcreated⟩ :=
        Aspaces.create_spec h.counted hnumbered (some (cstr "ring3demo"))
      simp only
      by_cases hzero : (s.aspaces.create .userShared (some (cstr "ring3demo"))).1 = 0
      · rw [if_pos hzero, hsync]
        exact ⟨hfail hzero, h.consistent, h.shell, hkernel.trans h.kernel, h.proper⟩
      · rw [if_neg hzero]
        have hhand := h.withAspaces hzero (hcreated hzero) hkernel
        exact ⟨hhand.counted, hhand.consistent, hhand.shell, hhand.kernel, hhand.proper⟩

/-- Writing a space's pages leaves every slot as it is. -/
theorem Aspaces.write_slots (id : UInt32) (vaddr : UInt64) (data : List UInt8) (s : Aspaces) :
    (s.write id vaddr data).2.table = s.table ∧
      (s.write id vaddr data).2.kernelAspaceId = s.kernelAspaceId := by
  unfold Aspaces.write
  split <;> exact ⟨rfl, rfl⟩

theorem SyncRun.load_slots (r : SyncRun) (s : Aspaces) :
    (r.load s).2.table = s.table ∧ (r.load s).2.kernelAspaceId = s.kernelAspaceId := by
  have hfirst := Aspaces.write_slots r.aspaceId r.info.firstVaddr r.segment s
  unfold SyncRun.load
  cases hwrite : s.write r.aspaceId r.info.firstVaddr r.segment with
  | mk ok s₁ =>
    rw [hwrite] at hfirst
    cases ok with
    | false => exact hfirst
    | true =>
      simp only
      split
      · rename_i s₂ hrest
        split at hrest
        · have hsecond := Aspaces.write_slots r.aspaceId (r.info.firstVaddr + r.info.loadFilesz)
            (List.replicate (r.info.loadMemsz - r.info.loadFilesz).toUInt32.toNat 0) s₁
          rw [Aspaces.zero] at hrest
          rw [hrest] at hsecond
          exact ⟨hsecond.1.trans hfirst.1, hsecond.2.trans hfirst.2⟩
        · cases hrest
      · rename_i s₂ hrest
        have hstack := Aspaces.write_slots r.aspaceId (aspaceUserStackTop - 0x4000)
          (List.replicate (0x4000 : UInt32).toNat 0) s₂
        split at hrest
        · have hsecond := Aspaces.write_slots r.aspaceId (r.info.firstVaddr + r.info.loadFilesz)
            (List.replicate (r.info.loadMemsz - r.info.loadFilesz).toUInt32.toNat 0) s₁
          rw [Aspaces.zero] at hrest
          rw [hrest] at hsecond
          exact ⟨hstack.1.trans (hsecond.1.trans hfirst.1), hstack.2.trans (hsecond.2.trans hfirst.2)⟩
        · cases hrest
          exact ⟨hstack.1.trans hfirst.1, hstack.2.trans hfirst.2⟩

/-- Anything done to the pages leaves the books as they are. -/
theorem Balanced.withPages (h : Balanced home extra s) {aspaces : Aspaces}
    (htable : aspaces.table = s.aspaces.table)
    (hkernel : aspaces.kernelAspaceId = s.aspaces.kernelAspaceId) :
    Balanced home extra { s with aspaces } :=
  ⟨by rw [AspacesCounted, htable, hkernel]; exact h.counted, h.consistent, h.shell,
    hkernel.trans h.kernel, h.proper⟩

theorem Balanced.withSync (h : Balanced home extra s) (sync : Option SyncRun) :
    Balanced home extra { s with sync } :=
  ⟨h.counted, h.consistent, h.shell, h.kernel, h.proper⟩

theorem Balanced.syncEnter {r : SyncRun} (h : Balanced home [r.aspaceId] s) :
    Balanced home (syncRefs (runSyncEnter r s).sync) (runSyncEnter r s) := by
  obtain ⟨htable, hkernel⟩ := SyncRun.load_slots r s.aspaces
  have hloaded := h.withPages htable hkernel
  unfold runSyncEnter
  cases hload : r.load s.aspaces with
  | mk ok aspaces =>
    rw [hload] at hloaded
    cases ok with
    | false => exact hloaded.release.withSync none
    | true =>
      exact (hloaded.withPages (Aspaces.switch_table r.aspaceId aspaces)
        (Aspaces.switch_kernel r.aspaceId aspaces)).withSync (some { r with entered := true })

theorem Balanced.syncLeave {r : SyncRun} (h : Balanced home [r.aspaceId] s) :
    Balanced home [] (runSyncLeave r s) :=
  ((h.withPages (Aspaces.switch_table r.oldAspace s.aspaces)
    (Aspaces.switch_kernel r.oldAspace s.aspaces)).release).withSync none

end

end Proof
end BumbelBee
