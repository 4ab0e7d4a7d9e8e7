import BumbelBee.Kernel.Trace

/-!
# `trace_record`, statement by statement (`kernel/trace.c`)

The function as an interrupt finds it: a frame on the stack with the event built so far, and
the statements still to run. Nothing masks interrupts, so between any two of them a handler
may make a whole call of its own. Without one the statements are `trace_record`
(`recordSteps_eq`).

A handler has no frame of its own here: it comes in, makes its whole call and is gone before the
next statement, as an interrupt is that no other interrupts.
-/

namespace BumbelBee
namespace Kernel

open Lib

/-- The statements, named by what they set or what they test. -/
inductive RecordStmt
  | pid
  | filter
  | eventId
  | timestamp
  | eventPid
  | type
  | size
  | data0
  | data1
  | replay
  | recording
  | full
  | store
  | count
  | peak
  | events
  | bytes
  | setEventCount
deriving DecidableEq, Repr

def recordStmts : List RecordStmt :=
  [.pid, .filter, .eventId, .timestamp, .eventPid, .type, .size, .data0, .data1, .replay,
    .recording, .full, .store, .count, .peak, .events, .bytes, .setEventCount]

/-- A call on the stack: its arguments, what `pit_ticks` and `sched_current_pid` answer it,
    the local `event` and the statements left. -/
structure RecordFrame where
  ticks : UInt64
  currentPid : UInt32
  type : UInt16
  pid : UInt32
  data0 : UInt64
  data1 : UInt64
  event : TraceEvent
  rest : List RecordStmt

/-- The early `return`s leave no statement. -/
def RecordFrame.return (f : RecordFrame) : RecordFrame := { f with rest := [] }

def RecordStmt.run (stmt : RecordStmt) (f : RecordFrame) (t : Trace) : RecordFrame × Trace :=
  match stmt with
  | .pid => ({ f with pid := if f.pid = 0 then f.currentPid else f.pid }, t)
  | .filter =>
    if t.recording && t.currentProfile != workloadProfileNone &&
        f.type == TraceEventType.irq.code then (f.return, t)
    else (f, t)
  | .eventId =>
    ({ f with event := { f.event with eventId := t.nextEventId } },
      { t with nextEventId := t.nextEventId + 1 })
  | .timestamp => ({ f with event := { f.event with timestamp := pitTicks f.ticks t } }, t)
  | .eventPid => ({ f with event := { f.event with pid := f.pid } }, t)
  | .type => ({ f with event := { f.event with type := f.type } }, t)
  | .size => ({ f with event := { f.event with size := UInt16.ofNat traceEventSize } }, t)
  | .data0 => ({ f with event := { f.event with data0 := f.data0 } }, t)
  | .data1 => ({ f with event := { f.event with data1 := f.data1 } }, t)
  | .replay =>
    if t.replay.active then
      (f.return, { t with replay := replayRecord f.event t.replayBuffer t.replay })
    else (f, t)
  | .recording => if !t.recording then (f.return, t) else (f, t)
  | .full =>
    if t.currentEvents ≥ UInt32.ofNat traceBufferCap then
      (f.return, { t with stats := { t.stats with dropped := t.stats.dropped + 1 } })
    else (f, t)
  | .store => (f, { t with buffer := Function.update t.buffer t.currentEvents.toNat f.event })
  | .count => (f, { t with currentEvents := t.currentEvents + 1 })
  | .peak =>
    (f, { t with
      bufferPeak := if t.currentEvents > t.bufferPeak then t.currentEvents else t.bufferPeak })
  | .events => (f, { t with stats := { t.stats with events := t.stats.events + 1 } })
  | .bytes =>
    (f, { t with stats := { t.stats with bytes := t.stats.bytes + UInt64.ofNat traceEventSize } })
  -- `sched_dump` alone reads the task's count
  | .setEventCount => (f, t)

/-- The next statement of the call on the stack. -/
def recordStep (s : RecordFrame × Trace) : RecordFrame × Trace :=
  match s.1.rest with
  | [] => s
  | stmt :: rest => stmt.run { s.1 with rest } s.2

def RecordFrame.enter (ticks : UInt64) (currentPid : UInt32) (type : UInt16) (pid : UInt32)
    (data0 data1 : UInt64) : RecordFrame :=
  ⟨ticks, currentPid, type, pid, data0, data1, TraceEvent.zero, recordStmts⟩

theorem recordStep_done {s : RecordFrame × Trace} (h : s.1.rest = []) : recordStep s = s := by
  simp only [recordStep, h]

theorem recordStep_returned {s : RecordFrame × Trace} (h : s.1.rest = []) (n : Nat) :
    recordStep^[n] s = s :=
  Function.iterate_fixed (recordStep_done h) n

/-- The statements behind the last early `return`. -/
theorem recordSteps_store {f : RecordFrame} (t : Trace)
    (h : f.rest = [.store, .count, .peak, .events, .bytes, .setEventCount]) :
    (recordStep^[6] (f, t)).2 = { t with
      buffer := Function.update t.buffer t.currentEvents.toNat f.event
      currentEvents := t.currentEvents + 1
      bufferPeak := if t.currentEvents + 1 > t.bufferPeak then t.currentEvents + 1
        else t.bufferPeak
      stats := { t.stats with
        events := t.stats.events + 1
        bytes := t.stats.bytes + UInt64.ofNat traceEventSize } } := by
  obtain ⟨ticks, currentPid, type, pid, data0, data1, event, rest⟩ := f
  subst h
  rfl

/-- **Undisturbed** the statements do what `trace_record` does. -/
theorem recordSteps_eq (ticks : UInt64) (currentPid : UInt32) (type : UInt16) (pid : UInt32)
    (data0 data1 : UInt64) (t : Trace) :
    (recordStep^[recordStmts.length]
        (RecordFrame.enter ticks currentPid type pid data0 data1, t)).2 =
      (traceRecord ticks currentPid type pid data0 data1 t).1 := by
  -- the filter, the eight statements that build the event, two tests, and the store
  rw [show recordStmts.length = 6 + 1 + 1 + 8 + 1 + 1 from rfl]
  simp only [Function.iterate_add_apply, Function.iterate_one, traceRecord]
  rw [show recordStep (RecordFrame.enter ticks currentPid type pid data0 data1, t) =
    (⟨ticks, currentPid, type, if pid = 0 then currentPid else pid, data0, data1, TraceEvent.zero,
      recordStmts.drop 1⟩, t) from rfl]
  generalize (if pid = 0 then currentPid else pid) = pid'
  have hfilter : ∀ f : RecordFrame, f.rest = recordStmts.drop 1 → recordStep (f, t) =
      if t.recording && t.currentProfile != workloadProfileNone &&
          f.type == TraceEventType.irq.code then ({ f with rest := [] }, t)
      else ({ f with rest := recordStmts.drop 2 }, t) := by
    intro f hf
    simp only [recordStep, hf]
    rfl
  rw [hfilter _ rfl]
  split
  · simp only [recordStep_done, recordStep_returned]
  · -- the event is built: two tests and the store are left
    generalize hevent : (⟨t.nextEventId, pitTicks ticks t, pid', type,
      UInt16.ofNat traceEventSize, data0, data1⟩ : TraceEvent) = event
    have hbuilt : recordStep^[8] (⟨ticks, currentPid, type, pid', data0, data1, TraceEvent.zero,
        recordStmts.drop 2⟩, t) =
        if t.replay.active then
          (⟨ticks, currentPid, type, pid', data0, data1, event, []⟩, { t with
            nextEventId := t.nextEventId + 1
            replay := replayRecord event t.replayBuffer t.replay })
        else
          (⟨ticks, currentPid, type, pid', data0, data1, event, recordStmts.drop 10⟩,
            { t with nextEventId := t.nextEventId + 1 }) := by
      subst hevent
      rfl
    rw [hbuilt]
    split
    · simp only [recordStep_done, recordStep_returned]
    · have hrecording : ∀ (f : RecordFrame) (t : Trace), f.rest = recordStmts.drop 10 →
          recordStep (f, t) = if !t.recording then ({ f with rest := [] }, t)
            else ({ f with rest := recordStmts.drop 11 }, t) := by
        intro f t hf
        simp only [recordStep, hf]
        rfl
      rw [hrecording ⟨ticks, currentPid, type, pid', data0, data1, event, recordStmts.drop 10⟩ _ rfl]
      split
      · simp only [recordStep_done, recordStep_returned]
      · have hfull : ∀ (f : RecordFrame) (t : Trace), f.rest = recordStmts.drop 11 →
            recordStep (f, t) = if t.currentEvents ≥ UInt32.ofNat traceBufferCap then
                ({ f with rest := [] },
                  { t with stats := { t.stats with dropped := t.stats.dropped + 1 } })
              else ({ f with rest := recordStmts.drop 12 }, t) := by
          intro f t hf
          simp only [recordStep, hf]
          rfl
        rw [hfull ⟨ticks, currentPid, type, pid', data0, data1, event, recordStmts.drop 11⟩ _ rfl]
        split
        · simp only [recordStep_returned]
        · exact recordSteps_store _ rfl

end Kernel
end BumbelBee
