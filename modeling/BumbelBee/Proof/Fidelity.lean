import BumbelBee.Proof.Accounting
import BumbelBee.Proof.Dispatch

/-!
# A replay of a quiet recording

From a state in which nobody but the shell is alive `sched_prepare_replay` leaves the table
`sched_init` does, so every run of a profile is the same run, and it ends. A replay takes its
steps whatever the log says, and ends when they do; it agrees with the log to the end exactly
when the recording was quiet, that is when no handler's event got into the session.

One can get in. `trace_start_profile` switches the recorder on before it sets the profile, and
the filter that keeps interrupts out of a profile's session goes by the profile.

The verdict hangs on two lists, the log and the calls the replay makes, and both are compared with a
third: the emissions of `schedule`. The log is that list with the handlers' events among it, cut
where the buffer is full; the calls are that list itself, for no handler comes in while a replay is
active. A profile makes fewer calls than the buffer has room for (`profile_ends`), so nothing is
cut, and what is left to differ is the handlers' events.

Counting would not do. A handler's event could stand in for one of a task's if the words agreed;
that they cannot is what `ofTask` is for, which tells the two apart by the type alone.
-/

namespace BumbelBee
namespace Proof

open Lib Kernel

/-! ## The run of a profile -/

/-- The shell is the only live task, no workload is active and nothing is replayed. -/
structure DemoReady (m : Machine) : Prop where
  current : m.sys.sched.current = 0
  shell : m.sys.sched.tasks 0 = some ⟨.running, 1, []⟩
  alone : Alone m.sys.sched
  active : m.sys.activeWorkloads = 0
  noReplay : m.trace.replay.active = false

/-- What a profile's run starts from. -/
def profileStart (profile : UInt32) : Sys := ⟨schedInit [], 0, runProfile profile⟩

section
variable {profile : UInt32} {m m₁ m₂ : Machine}

theorem DemoReady.prepared (h : DemoReady m) : m.sys.sched.prepareReplay = schedInit [] := by
  have htasks : m.sys.sched.prepareReplay.tasks = (schedInit ([] : List TaskOp)).tasks := by
    funext i
    simp only [Sched.prepareReplay, schedInit]
    by_cases hi : i = 0
    · rw [if_neg fun hz => hz.1 hi, if_pos hi, hi]
      exact h.shell
    · rw [if_neg hi]
      split
      · rfl
      · rename_i hz
        rcases h.alone i hi with hnone | hzombie
        · exact Option.map_eq_none_iff.mp hnone
        · exact absurd ⟨hi, Sched.isZombie_iff.mpr hzombie⟩ hz
  rw [show m.sys.sched.prepareReplay = ⟨m.sys.sched.prepareReplay.tasks, m.sys.sched.current, 2⟩
    from rfl, htasks, h.current]
  rfl

theorem DemoReady.profileRun (h : DemoReady m) : profileRun profile m = profileStart profile := by
  rw [Proof.profileRun, h.prepared, h.active]
  rfl

theorem DemoReady.prompt (h : DemoReady m) : Prompt m where
  shell := h.current
  consistent := by
    have hshell : m.sys.sched.state 0 = some .running := by
      rw [Sched.state, h.shell]
      rfl
    refine ⟨fun i => ?_, Or.inr hshell⟩
    rw [h.current]
    by_cases hi : i = 0
    · rw [hi]
      exact iff_of_true hshell rfl
    · refine iff_of_false ?_ hi
      rcases h.alone i hi with hnone | hzombie
      · rw [hnone]
        simp
      · rw [hzombie]
        simp
  noReplay := h.noReplay

theorem DemoReady.repeats (h₁ : DemoReady m₁) (h₂ : DemoReady m₂)
    (hmemory : m₂.memoryUsed = m₁.memoryUsed) : Repeats profile m₁ m₂ where
  table := h₂.prepared.trans h₁.prepared.symm
  tasks := by
    rw [h₁.prepared, ← prepared_init]
    exact eachCode_init _
  workloads := by
    intro w _ type data0 data1 hin
    refine ⟨records_workload w type data0 data1 hin, ?_⟩
    rw [hmemory]

/-! ## It ends -/

/-- The profiles of `enum workload_profile`. -/
def Known (profile : UInt32) : Prop :=
  profile = workloadProfileAttack ∨ profile = workloadProfileSysload ∨
    profile = workloadProfileLifecycle

/-- The workloads are spawned one after the other, and none of them is lost. -/
theorem accounted_profile (h : Known profile) :
    ∃ n ≤ 3, Accounted 0 (schedule.after (profileStart profile) n) ∧
      (schedule.after (profileStart profile) n).shell = [.untilIdle] ∧
      work (schedule.after (profileStart profile) n) ≤ 400 := by
  have hstarted : ∀ {s : Sys} (w : Workload), AccountReaches 0 s → s.sched.current = 0 →
      spawns s.sched = true → AccountReaches 0 (startWorkload w s) := by
    intro s w hs hcur hspawns
    have hnext := hs.workload w hcur
    rw [hspawns] at hnext
    exact hnext
  rcases h with rfl | rfl | rfl
  · have hreaches := hstarted .attack .init rfl (by decide)
    exact ⟨1, by decide, hreaches.accounted.setShell [.untilIdle], rfl, by decide +kernel⟩
  · have hreaches := hstarted (.sysload 2) (hstarted (.sysload 1) (hstarted (.sysload 0) .init rfl
      (by decide)) rfl (by decide)) rfl (by decide)
    exact ⟨3, by decide, hreaches.accounted.setShell [.untilIdle], rfl, by decide +kernel⟩
  · have hreaches := hstarted (.lifecycle 2) (hstarted (.lifecycle 1) (hstarted (.lifecycle 0) .init
      rfl (by decide)) rfl (by decide)) rfl (by decide)
    exact ⟨3, by decide, hreaches.accounted.setShell [.untilIdle], rfl, by decide +kernel⟩

/-- **Every profile's run ends**, with fewer calls made than the recorder has room for. -/
theorem profile_ends (h : Known profile) :
    ∃ n, ¬ (schedule.after (profileStart profile) n).UnderWay ∧
      ∀ k, (schedule.emitted (profileStart profile) k).length < traceBufferCap := by
  obtain ⟨n₀, hn₀, haccounted, hshell, hwork⟩ := accounted_profile h
  obtain ⟨n, hn, hcurrent, hdone, -⟩ := Accounted.ends rfl 400 hwork haccounted hshell
  rw [schedule.after_add] at hcurrent hdone
  have hend : ¬ (schedule.after (profileStart profile) (n₀ + n)).UnderWay := by
    rintro (hmore | hother)
    · exact hmore hdone
    · exact hother hcurrent
  refine ⟨n₀ + n, hend, fun k => ?_⟩
  have hroom : 403 < traceBufferCap := by decide
  rcases Nat.le_total k (n₀ + n) with hle | hge
  · have := schedule.length_emitted_le (profileStart profile) k
    omega
  · obtain ⟨hnext, hemit⟩ := at_rest hend
    rw [(Process.emitted_fixed hnext hemit hge).2]
    have := schedule.length_emitted_le (profileStart profile) (n₀ + n)
    omega

/-! ## What the log says -/

/-- A session of such a run misses none of the tasks' events, so it is faithful exactly when it
    was quiet. -/
theorem faithful_iff {t : Trace} {memoryUsed : UInt64} {s₀ : Sys} {n : Nat} {quiet : Prop}
    (h : Logging memoryUsed (schedule.emitted s₀ n) quiet t)
    (hend : ¬ (schedule.after s₀ n).UnderWay)
    (hroom : ∀ k, (schedule.emitted s₀ k).length < traceBufferCap) :
    Faithful s₀ t.events ↔ quiet := by
  refine ⟨fun hfaithful => h.clean.mp hfaithful.2, fun hquiet => ?_⟩
  have htasks := h.clean.mpr hquiet
  refine ⟨fun k => ?_, htasks⟩
  obtain ⟨logged, -, hstored, hfull⟩ := h.stored
  rw [List.filter_eq_self.mpr htasks] at hstored
  by_cases hall : logged = schedule.emitted s₀ n
  · have hlength := hstored.length_eq
    rw [hall] at hlength
    rw [← hlength]
    rcases Nat.le_total k n with hle | hge
    · exact (schedule.emitted_prefix s₀ hle).length_le
    · obtain ⟨hnext, hemit⟩ := at_rest hend
      rw [(Process.emitted_fixed hnext hemit hge).2]
  · rw [Trace.length_events, hfull hall]
    exact (hroom k).le

/-- A replay that has made as many calls as the run has is over. -/
theorem ReplayStage.at_end {s₀ : Sys} {es : List TraceEvent} {start memoryUsed : UInt64} {j n : Nat}
    (h : ReplayStage s₀ es start memoryUsed j m) (hend : ¬ (schedule.after s₀ n).UnderWay)
    (hj : n + 3 < j) :
    m.sys.shell = [] ∧ m.trace.replay.active = false ∧
      (m.trace.replay.failed = false ∧ m.trace.replay.eventIndex = m.trace.replay.eventCount ↔
        Faithful s₀ es) := by
  have hshort : ∀ {k : Nat}, (∀ i < k, (schedule.after s₀ i).UnderWay) → k ≤ n := by
    intro k hunder
    by_contra hlt
    exact hend (hunder n (by omega))
  cases h with
  | begun memory calls => omega
  | locked k w memory calls sys replaying agreed rest length tasks underWay =>
    have := hshort underWay
    omega
  | stuck k w memory calls sys replaying failed head bad underWay =>
    have := hshort underWay
    omega
  | leaving k w calls command replaying failed bad underWay =>
    have := hshort underWay
    omega
  | ended idle inactive verdict count =>
    refine ⟨idle.2, inactive, ?_⟩
    rw [← verdict]
    exact ⟨fun hboth => hboth.1, fun hfailed => ⟨hfailed, count hfailed⟩⟩

/-- **Every replay of a profile ends**, and its verdict is on the log alone. -/
theorem replay_ends {recorded : UInt64} {id : UInt32} {i : Fin fsMaxInodes} {es : List TraceEvent}
    {info : TraceSessionInfo} (hprofile : Known profile) (hset : info.profileId = profile)
    (h₂ : DemoReady m₂) (hrecalls : Recalls m₂.fs i id (encodeEvents es) (some info))
    (hwork : Working (SameWord recorded m₂.memoryUsed) (profileRun profile m₂))
    (hlog : LogOf recorded (profileRun profile m₂) es) :
    ∃ calls, ∀ turns, calls ≤ turns.count .step →
      ∃ m', (m₂.type (demoReplay id)).run turns = .ok m' ∧ m'.sys.shell = [] ∧
        m'.trace.replay.active = false ∧
        (m'.trace.replay.failed = false ∧
            m'.trace.replay.eventIndex = m'.trace.replay.eventCount ↔
          Faithful (profileStart profile) es) := by
  obtain ⟨n, hend, -⟩ := profile_ends hprofile
  have hknown : profile ≠ workloadProfileNone := by
    rcases hprofile with rfl | rfl | rfl
    · decide
    · decide
    · decide
  have hwaiting : Waiting m₂ id (m₂.type (demoReplay id)) := ⟨⟨h₂.noReplay, rfl, rfl⟩, rfl⟩
  refine ⟨n + 4, fun turns hcalls => ?_⟩
  obtain ⟨m', hrun, hstage⟩ :=
    replay_reaches h₂.prompt hrecalls.toFinds hset hknown hwork hlog turns hwaiting
  refine ⟨m', hrun, ?_⟩
  rcases hstage with ⟨-, hnone⟩ | ⟨-, t, t', fs', hrefused⟩ | hstage
  · omega
  · -- a store that gives the session back does so here
    obtain ⟨t₀, hbegin⟩ := hrecalls.begins hlog.room t
    rw [hrefused] at hbegin
    cases hbegin
  · rw [h₂.profileRun] at hstage
    exact hstage.at_end hend (by omega)

/-- **Fidelity.** A session that a profile's recording stored is replayed to its end, event by
    event, exactly when the recording was quiet: no handler's event got into the session.

    `hprofile` is for one of the source's profiles; another records nothing. `DemoReady` is the
    prompt the commands are typed at, on both machines (`h₁`, `h₂`): the shell is the only live
    task, no workload is active, nothing is replayed. `hrecorded` and `hstop` say that the
    recording has come to its `trace_stop`, so the session is what that call hands to the store,
    and `hrecalls` that the store gives it back when the replay asks for it. Of what happened to
    the store in between nothing else is asked; over a mounted one any writes and reboots will do
    (`Holds.later`). `hmemory` is the one thing a workload reads off the rest of the kernel. -/
theorem replay_fidelity {turns₁ : List Turn} {id : UInt32} {i : Fin fsMaxInodes}
    (hprofile : Known profile) (h₁ : DemoReady m₁)
    (hrecorded : (m₁.type (demoRecord profile)).run turns₁ = .ok m)
    (hstop : m.sys.shell = [.traceStop]) (h₂ : DemoReady m₂)
    (hmemory : m₂.memoryUsed = m₁.memoryUsed)
    (hrecalls : Recalls m₂.fs i id (encodeEvents m.trace.events)
      (some (traceStopInfo m.ticks m.trace))) :
    ∃ calls, ∀ turns₂, calls ≤ turns₂.count .step →
      ∃ m', (m₂.type (demoReplay id)).run turns₂ = .ok m' ∧ m'.sys.shell = [] ∧
        m'.trace.replay.active = false ∧
        (m'.trace.replay.failed = false ∧
            m'.trace.replay.eventIndex = m'.trace.replay.eventCount ↔
          quietRun turns₁ (m₁.type (demoRecord profile)) = true) := by
  have hrepeats : Repeats profile m₁ m₂ := h₁.repeats h₂ hmemory
  have hwork : ∀ active, Working (SameWord m₁.memoryUsed m₂.memoryUsed)
      { profileRun profile m₁ with activeWorkloads := active } := hrepeats.working h₁.prompt
  obtain ⟨k, -, hset, hend, hlogging⟩ := session_of_run (fun _ => ⟨rfl, rfl⟩)
    (fun _ _ hword => hword.1) h₁.prompt (hwork m₁.sys.activeWorkloads) hrecorded hstop
  have hlog := (hrepeats.logOf h₁.prompt hrecorded hstop).1
  rw [h₁.profileRun] at hend hlogging
  have hwork₂ := hwork m₂.sys.activeWorkloads
  rw [← hrepeats.profileRun_eq] at hwork₂
  obtain ⟨calls, hcalls⟩ := replay_ends hprofile hset h₂ hrecalls hwork₂ hlog
  obtain ⟨n, -, hroom⟩ := profile_ends hprofile
  refine ⟨calls, fun turns₂ hle => ?_⟩
  obtain ⟨m', hrun, hshell, hover, hverdict⟩ := hcalls turns₂ hle
  exact ⟨m', hrun, hshell, hover, hverdict.trans (faithful_iff hlogging hend hroom)⟩

end

/-! ## The gap in `trace_start_profile` -/

theorem promptAt_memory (memoryUsed : UInt64) (fs fs' : Fs) :
    (promptAt memoryUsed fs).memoryUsed = (promptAt memoryUsed fs').memoryUsed := rfl

theorem demoReady_promptAt (memoryUsed : UInt64) (fs : Fs) : DemoReady (promptAt memoryUsed fs) where
  current := rfl
  shell := rfl
  alone := by
    intro i hi
    left
    rw [Sched.state]
    exact congrArg (Option.map Task.state) (if_neg hi)
  active := rfl
  noReplay := rfl

/-- A timer tick before the profile is set is in the session, and every replay of it fails. -/
theorem replay_unfaithful : ∃ m calls,
    ((promptAt 20480 usedStore).type (demoRecord workloadProfileAttack)).run
        (List.replicate 4 .step ++ .interrupt (.timer none) :: List.replicate 56 .step) = .ok m ∧
      (fsWriteTraceSession (encodeEvents m.trace.events) (some (traceStopInfo m.ticks m.trace))
        m.fs).1 = some 2 ∧
      ∀ turns, calls ≤ turns.count .step → ∃ m',
        ((promptAt 20480 (traceStop m.ticks m.trace m.fs).2.1).type (demoReplay 2)).run turns =
          .ok m' ∧ m'.sys.shell = [] ∧ m'.trace.replay.active = false ∧
            ¬ (m'.trace.replay.failed = false ∧
              m'.trace.replay.eventIndex = m'.trace.replay.eventCount) := by
  have hrecorded : recordedAt workloadProfileAttack (List.replicate 4 .step ++
      .interrupt (.timer none) :: List.replicate 56 .step)
      (fun es => es.length == 51 && es.any fun e => !ofTask e) = true := by
    decide +kernel
  obtain ⟨m, hrun, hstop, hevents⟩ := recordedAt_run hrecorded
  rw [Bool.and_eq_true, beq_iff_eq, List.any_eq_true] at hevents
  obtain ⟨hlength, e, hin, hforeign⟩ := hevents
  obtain ⟨hmounted, hset, hstored, i, hheld⟩ := stored_promptAt hrun hstop (by omega)
  refine ⟨m, ?_⟩
  generalize (traceStop m.ticks m.trace m.fs).2.1 = fs at hmounted hheld ⊢
  have hrepeats := repeats_attack 20480 20480 usedStore fs
  have hlog := (hrepeats.logOf (prompt_promptAt _ _) hrun hstop).1
  have hwork := hrepeats.working (prompt_promptAt _ _) (promptAt 20480 fs).sys.activeWorkloads
  rw [← hrepeats.profileRun_eq] at hwork
  obtain ⟨calls, hcalls⟩ :=
    replay_ends (Or.inl rfl) hset (demoReady_promptAt 20480 fs) (hheld.recalls hmounted) hwork hlog
  refine ⟨calls, hrun, hstored, fun turns hle => ?_⟩
  obtain ⟨m', hrun', hshell, hover, hverdict⟩ := hcalls turns hle
  refine ⟨m', hrun', hshell, hover, fun hpassed => ?_⟩
  rw [(hverdict.mp hpassed).2 e hin] at hforeign
  cases hforeign

/-- A tick once the profile is set leaves no trace: the session replays, here after a reboot. -/
theorem replay_fidelity_attack : ∃ m calls,
    ((promptAt 20480 usedStore).type (demoRecord workloadProfileAttack)).run
        (List.replicate 12 .step ++ .interrupt (.timer none) :: List.replicate 48 .step) = .ok m ∧
      ∀ turns, calls ≤ turns.count .step → ∃ m',
        ((promptAt 20480 (fsRun [.reboot] (traceStop m.ticks m.trace m.fs).2.1)).type
          (demoReplay 2)).run turns = .ok m' ∧ m'.trace.replay.failed = false ∧
            m'.trace.replay.eventIndex = m'.trace.replay.eventCount := by
  have hrecorded : recordedAt workloadProfileAttack (List.replicate 12 .step ++
      .interrupt (.timer none) :: List.replicate 48 .step) (fun es => es.length == 50) = true := by
    decide +kernel
  have hquiet : quietRun (List.replicate 12 .step ++
      .interrupt (.timer none) :: List.replicate 48 .step)
      ((promptAt 20480 usedStore).type (demoRecord workloadProfileAttack)) = true := by
    decide +kernel
  obtain ⟨m, hrun, hstop, hlength⟩ := recordedAt_run hrecorded
  rw [beq_iff_eq] at hlength
  obtain ⟨hmounted, -, -, i, hheld⟩ := stored_promptAt hrun hstop (by omega)
  obtain ⟨calls, hcalls⟩ := replay_fidelity (Or.inl rfl) (demoReady_promptAt 20480 usedStore) hrun
    hstop (demoReady_promptAt 20480 (fsRun [.reboot] (traceStop m.ticks m.trace m.fs).2.1))
    (promptAt_memory _ _ _) (hheld.later hmounted [.reboot])
  refine ⟨m, calls, hrun, fun turns hle => ?_⟩
  obtain ⟨m', hrun', -, -, hverdict⟩ := hcalls turns hle
  exact ⟨m', hrun', hverdict.mpr hquiet⟩

end Proof
end BumbelBee
