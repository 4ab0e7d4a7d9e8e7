import BumbelBee.Lib.Run
import BumbelBee.Proof.Readers

/-!
# Are event ids monotonic?

Every event takes its id from one counter, whether it is stored, dropped or compared with a
session under replay, and its time from the PIT's. Only `trace_replay_begin` sets the
counter back, to 1; the recorder goes by `recording` alone, so a recording may be under way
when it does, and what it stores behind the replay is numbered from 1 again. `Sequenced` is
the invariant of the runs in which no replay begins over a recording that has an event.

A replay under a recording is no accident of this model: the two commands do not exclude one
another, and `trace_replay_begin` sets `next_event_id` whether or not something is being recorded.
While the replay runs nothing is stored, but the ids go on being given out; so what is stored behind
it starts from some small number again.
-/

namespace BumbelBee
namespace Proof

open Lib Kernel

/-- The order of a session's events. -/
def Before (e e' : TraceEvent) : Prop := e.eventId < e'.eventId ∧ e.timestamp ≤ e'.timestamp

instance : DecidableRel Before := fun _ _ => inferInstanceAs (Decidable (_ ∧ _))

/-- The session an operation puts into the store. -/
def RecorderOp.stores : RecorderOp → Trace × Fs → List (List TraceEvent)
  | .stop ticks, (t, fs) =>
    match (fsWriteTraceSession (encodeEvents t.events) (some (traceStopInfo ticks t)) fs).1 with
    | some _ => [t.events]
    | none => []
  | _, _ => []

/-- The sessions stored in a run, in order. -/
def storedSessions : List RecorderOp → Trace × Fs → List (List TraceEvent) :=
  outputs RecorderOp.run RecorderOp.stores

/-- The tick counter an operation finds. -/
def RecorderOp.ticks : RecorderOp → Option UInt64
  | .start ticks _ => some ticks
  | .record c => some c.ticks
  | .stop ticks => some ticks
  | _ => none

def RecorderOp.isRecord : RecorderOp → Bool
  | .record _ => true
  | _ => false

/-- No replay begins while a recording that has an event is under way. -/
def RecorderOp.Apart : RecorderOp → Trace × Fs → Prop
  | .replayBegin id, (t, fs) =>
    ∀ session t' fs', traceReplayBegin id t fs = .ok (some session, t', fs') →
      t.recording = true → t.currentEvents = 0
  | _, _ => True

theorem RecorderOp.stores_events {op : RecorderOp} {s : Trace × Fs} {es : List TraceEvent}
    (h : es ∈ op.stores s) : es = s.1.events := by
  cases op with
  | stop ticks =>
    simp only [RecorderOp.stores] at h
    split at h
    · exact List.mem_singleton.mp h
    · exact absurd h List.not_mem_nil
  | _ => exact absurd h List.not_mem_nil

/-! ## One operation -/

/-- What a call of `trace_record` does to the session: it appends the next event, or it does
    nothing but use up an id. -/
theorem RecordCall.run_cases (c : RecordCall) (t : Trace) :
    ((c.run t).events = t.events ∧ ((c.run t).nextEventId = t.nextEventId ∨
        (c.run t).nextEventId = t.nextEventId + 1)) ∨
      (t.recording = true ∧ (c.run t).events = t.events ++ [c.event t.nextEventId] ∧
        (c.run t).nextEventId = t.nextEventId + 1) := by
  have hran := c.ran t
  generalize c.run t = t' at hran ⊢
  cases hran with
  | hidden => exact Or.inl ⟨rfl, Or.inl rfl⟩
  | compared => exact Or.inl ⟨rfl, Or.inr rfl⟩
  | closed => exact Or.inl ⟨rfl, Or.inr rfl⟩
  | full => exact Or.inl ⟨rfl, Or.inr rfl⟩
  | stored _ _ on room =>
    exact Or.inr ⟨on, events_append _ (toNat_currentEvents_succ room) rfl, rfl⟩

/-- The events of a session, and the counters behind them: what holds once the operations
    `done` were made. -/
structure Sequenced (done : List RecorderOp) (s : Trace × Fs) : Prop where
  ordered : s.1.events.Pairwise Before
  next : s.1.nextEventId.toNat ≤ 1 + done.countP RecorderOp.isRecord
  below : s.1.recording = true → ∀ e ∈ s.1.events, e.eventId < s.1.nextEventId
  past : ∀ e ∈ s.1.events, e.timestamp ∈ done.filterMap RecorderOp.ticks

theorem Sequenced.boot (a : Ata) : Sequenced [] (recorderBoot a) where
  ordered := List.Pairwise.nil
  next := Nat.le_refl _
  below := fun h => absurd h (by simp [recorderBoot, traceInit, Trace.loaded])
  past := fun e he => absurd he (by simp [recorderBoot, traceInit, Trace.events, Trace.loaded])

/-- An operation that leaves the events and the id counter. -/
theorem Sequenced.same {done : List RecorderOp} {s s' : Trace × Fs} (h : Sequenced done s)
    (op : RecorderOp) (hevents : s'.1.events = s.1.events)
    (hnext : s'.1.nextEventId = s.1.nextEventId)
    (hrec : s'.1.recording = true → s.1.recording = true) : Sequenced (done ++ [op]) s' where
  ordered := by rw [hevents]; exact h.ordered
  next := by
    rw [hnext, List.countP_append]
    exact h.next.trans (Nat.add_le_add_left (Nat.le_add_right _ _) 1)
  below := by rw [hevents, hnext]; exact fun hr => h.below (hrec hr)
  past := by
    rw [hevents, List.filterMap_append]
    exact fun e he => List.mem_append_left _ (h.past e he)

/-- An operation behind which there is no event. -/
theorem Sequenced.empty {done : List RecorderOp} {s' : Trace × Fs} (hevents : s'.1.events = [])
    (hnext : s'.1.nextEventId.toNat ≤ 1 + done.countP RecorderOp.isRecord) :
    Sequenced done s' where
  ordered := by rw [hevents]; exact List.Pairwise.nil
  next := hnext
  below := fun _ e he => absurd he (by simp [hevents])
  past := fun e he => absurd he (by simp [hevents])

/-- **A call of `trace_record`**: the event it appends is behind those it finds. -/
theorem Sequenced.record {done : List RecorderOp} {t : Trace} {fs : Fs} (h : Sequenced done (t, fs))
    {c : RecordCall}
    (hclock : ((done ++ [RecorderOp.record c]).filterMap RecorderOp.ticks).Pairwise (· ≤ ·))
    (hcount : (done ++ [RecorderOp.record c]).countP RecorderOp.isRecord < 2 ^ 63) :
    Sequenced (done ++ [RecorderOp.record c]) (c.run t, fs) := by
  have hcounted : (done ++ [RecorderOp.record c]).countP RecorderOp.isRecord =
      done.countP RecorderOp.isRecord + 1 := List.countP_append
  have hticks : (done ++ [RecorderOp.record c]).filterMap RecorderOp.ticks =
      done.filterMap RecorderOp.ticks ++ [c.ticks] := List.filterMap_append
  have hnext : t.nextEventId.toNat ≤ 1 + done.countP RecorderOp.isRecord := h.next
  have hsucc : (t.nextEventId + 1).toNat = t.nextEventId.toNat + 1 := by
    simp only [UInt64.toNat_add, UInt64.reduceToNat] at hnext ⊢
    omega
  have hkept : ∀ e ∈ t.events, e.timestamp ∈ done.filterMap RecorderOp.ticks ++ [c.ticks] :=
    fun e he => List.mem_append_left _ (h.past e he)
  rw [hticks, List.pairwise_append] at hclock
  -- the events stay and an id may be used up, or the next event is appended
  rcases c.run_cases t with ⟨hevents, hid⟩ | ⟨hrec, hevents, hid⟩
  · have hle : t.nextEventId.toNat ≤ (c.run t).nextEventId.toNat ∧
        (c.run t).nextEventId.toNat ≤ t.nextEventId.toNat + 1 := by
      rcases hid with hid | hid <;> rw [hid] <;> omega
    refine ⟨by rw [hevents]; exact h.ordered, ?_, ?_, ?_⟩
    · show (c.run t).nextEventId.toNat ≤ _
      omega
    · intro hrec e he
      rw [hevents] at he
      rw [(c.run_kept _).recording] at hrec
      exact UInt64.lt_of_lt_of_le (h.below hrec e he) (UInt64.le_iff_toNat_le.mpr hle.1)
    · rw [hevents, hticks]
      exact hkept
  · have hlast : t.nextEventId < t.nextEventId + 1 := UInt64.lt_iff_toNat_lt.mpr (by omega)
    refine ⟨?_, ?_, ?_, ?_⟩
    · rw [hevents, List.pairwise_append]
      refine ⟨h.ordered, List.pairwise_singleton _ _, ?_⟩
      intro e he e' he'
      rw [List.mem_singleton.mp he']
      exact ⟨h.below hrec e he, hclock.2.2 _ (h.past e he) _ List.mem_cons_self⟩
    · rw [hid]
      omega
    · intro _ e he
      rw [hid]
      rw [hevents, List.mem_append, List.mem_singleton] at he
      rcases he with he | rfl
      · exact UInt64.lt_trans (h.below hrec e he) hlast
      · exact hlast
    · intro e he
      rw [hticks]
      rw [hevents, List.mem_append, List.mem_singleton] at he
      rcases he with he | rfl
      · exact hkept e he
      · exact List.mem_append_right _ List.mem_cons_self

/-- **One operation.** -/
theorem Sequenced.step {done : List RecorderOp} {s : Trace × Fs} (h : Sequenced done s)
    {op : RecorderOp} (hclock : ((done ++ [op]).filterMap RecorderOp.ticks).Pairwise (· ≤ ·))
    (hcount : (done ++ [op]).countP RecorderOp.isRecord < 2 ^ 63) (happart : op.Apart s) :
    Sequenced (done ++ [op]) (op.run s) := by
  have hmore : done.countP RecorderOp.isRecord ≤ (done ++ [op]).countP RecorderOp.isRecord := by
    rw [List.countP_append]
    exact Nat.le_add_right _ _
  obtain ⟨t, fs⟩ := s
  cases op with
  | start ticks profile =>
    exact Sequenced.empty rfl (h.next.trans (Nat.add_le_add_left hmore 1))
  | record c => exact h.record hclock hcount
  | stop ticks =>
    obtain ⟨-, hrec, -, hnext, -, -, hevents⟩ := traceStop_spec ticks t fs
    exact h.same _ hevents hnext fun hr => absurd hr (by simp [RecorderOp.run, hrec])
  | replayBegin id =>
    simp only [RecorderOp.run]
    cases hbegin : traceReplayBegin id t fs with
    | error e => exact h.same _ rfl rfl fun hr => hr
    | ok r =>
      obtain ⟨session, t', fs'⟩ := r
      obtain ⟨hrec, hcurrent, hevents, hnext⟩ := traceReplayBegin_spec hbegin
      have hold : t'.recording = true → t.recording = true := fun hr => by rwa [← hrec]
      cases session with
      | none => exact h.same _ hevents hnext hold
      | some session =>
        -- the counter is back at 1, and only a recording with no event is still under way
        refine ⟨?_, ?_, ?_, ?_⟩
        · rw [hevents]
          exact h.ordered
        · rw [hnext]
          exact Nat.le_add_right _ _
        · intro hr
          have hempty : t'.currentEvents = 0 :=
            hcurrent.trans (happart session t' fs' hbegin (hold hr))
          simp [Trace.events, hempty]
        · intro e he
          rw [hevents] at he
          rw [List.filterMap_append]
          exact List.mem_append_left _ (h.past e he)
  | replayEnd =>
    refine h.same _ ?_ ?_ ?_ <;> simp only [RecorderOp.run, traceReplayEnd] <;> split
    all_goals first | rfl | exact fun hr => hr

/-! ## Runs -/

/-- **Event ids are monotonic** in a run of the recorder from boot, on any drive, that begins
    no replay over a recording with an event: in every session it stores the ids increase
    and the times do not go back.

    `hclock` says that time does not go back between the calls, and `hcount` that the ids are not
    used up, which takes 2⁶³ calls. `happart` is the condition, on the state before each call: no
    replay begins over a recording that has an event. The drive is arbitrary, and so is what else
    the run does. -/
theorem session_ids_monotonic (a : Ata) (ops : List RecorderOp)
    (hclock : (ops.filterMap RecorderOp.ticks).Pairwise (· ≤ ·))
    (hcount : ops.countP RecorderOp.isRecord < 2 ^ 63)
    (happart : EachStep RecorderOp.run RecorderOp.Apart ops (recorderBoot a)) :
    ∀ es ∈ storedSessions ops (recorderBoot a), es.Pairwise Before := by
  refine (runAll_keeps (fun done s => Sequenced done s ∧
    ∀ es ∈ storedSessions done (recorderBoot a), es.Pairwise Before)
    ⟨Sequenced.boot a, fun es he => absurd he List.not_mem_nil⟩ happart ?_).2
  intro done op hbegins hbefore hop
  obtain ⟨h, hstored⟩ := hbefore
  refine ⟨h.step (hclock.sublist (hbegins.sublist.filterMap _))
    (lt_of_le_of_lt hbegins.sublist.countP_le hcount) hop, ?_⟩
  intro es he
  rw [storedSessions, outputs_snoc, List.mem_append] at he
  rcases he with he | he
  · exact hstored es he
  · rw [RecorderOp.stores_events he]
    exact h.ordered

/-- A shell command of task 1. -/
def shellCall (ticks : UInt64) : RecordCall := ⟨ticks, 1, TraceEventType.shell.code, 0, 3, 0⟩

/-- A recording of one event, its replay, and a recording of two. -/
theorem session_ids_monotonic_apart : ∃ ops, ops = [.start 4 0, .record (shellCall 5), .stop 6,
      .replayBegin 1, .record (shellCall 7), .replayEnd, .start 8 0, .record (shellCall 9),
      .record (shellCall 10), .stop 11] ∧
    (storedSessions ops (recorderBoot blankDrive)).map List.length = [1, 2] ∧
      ∀ es ∈ storedSessions ops (recorderBoot blankDrive), es.Pairwise Before := by
  refine ⟨_, rfl, by decide +kernel, ?_⟩
  apply session_ids_monotonic
  · decide
  · decide
  · refine ⟨trivial, trivial, trivial, fun _ _ _ _ hrec => ?_, trivial, trivial, trivial, trivial,
      trivial, trivial, trivial⟩
    exact absurd hrec (by decide +kernel)

/-- The replay comes in between the second event of a recording and its third: the ids of the
    session are 2, 3 and 1. -/
theorem session_ids_rewound :
    ¬ ∀ es ∈ storedSessions [.start 4 0, .record (shellCall 5), .stop 6, .start 7 0,
      .record (shellCall 8), .record (shellCall 9), .replayBegin 1, .replayEnd,
      .record (shellCall 10), .stop 11] (recorderBoot blankDrive), es.Pairwise Before := by
  decide +kernel

end Proof
end BumbelBee
