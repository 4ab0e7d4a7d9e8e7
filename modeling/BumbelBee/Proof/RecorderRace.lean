import BumbelBee.Kernel.RecordSteps
import BumbelBee.Lib.Preempt
import BumbelBee.Proof.Recorder

/-!
# The recorder against its own interrupts

`trace_record` runs with interrupts enabled, and the handlers call it too. Where a handler
comes in makes no difference but in one place: between the store into the slot and the count
that takes the slot. There the handler stores into the same slot and counts it, and the count
that follows takes a slot nobody wrote.

`Racing` is what holds at every statement as long as no handler comes in there. `L` are the
calls whose event is counted, each with the number it was given.

The statements are those of the source with every load and store of a shared variable on its own, so
that an interrupt may come in anywhere a compiler leaves one. Handlers are whole calls of the same
function. Between the store and the count they find the slot taken by nobody, and that is the one
place at which they may not come.
-/

namespace BumbelBee
namespace Proof

open Lib Kernel

/-! ## The race -/

/-- The recorder, the call on the foreground's stack and the calls it still makes. -/
structure Race where
  trace : Trace
  frame : RecordFrame
  todo : List RecordCall

def RecordCall.frame (c : RecordCall) : RecordFrame :=
  RecordFrame.enter c.ticks c.currentPid c.type c.pid c.data0 c.data1

/-- No call is on the stack. -/
def RecordFrame.idle : RecordFrame := ⟨0, 0, 0, 0, 0, 0, TraceEvent.zero, []⟩

def raceStep (s : Race) : Race :=
  match s.frame.rest, s.todo with
  | [], [] => s
  | [], c :: todo => { s with frame := c.frame, todo }
  | _ :: _, _ =>
    let (frame, trace) := recordStep (s.frame, s.trace)
    { s with frame, trace }

/-- A handler's `trace_record` runs to the end. -/
def recorderRace : Preemptible Race RecordCall where
  step := raceStep
  handle c s := { s with trace := c.run s.trace }

def Race.start (calls : List RecordCall) (t : Trace) : Race := ⟨t, RecordFrame.idle, calls⟩

/-- The slot is written and not yet taken. -/
def Race.halfStored (s : Race) : Bool := s.frame.rest.head? == some .count

/-! ## Where the foreground stands

A call of `trace_record` has taken its number before it stores the event, and has stored it before
it counts it. So handlers may give out numbers in between, and the events in the buffer need not be
in the order of their ids; they are all there.
-/

/-- What the statements left make of the event. -/
def assignField (f : RecordFrame) (e : TraceEvent) : RecordStmt → TraceEvent
  | .timestamp => { e with timestamp := f.ticks }
  | .eventPid => { e with pid := f.pid }
  | .type => { e with type := f.type }
  | .size => { e with size := UInt16.ofNat traceEventSize }
  | .data0 => { e with data0 := f.data0 }
  | .data1 => { e with data1 := f.data1 }
  | _ => e

/-- The statements that do no more than that. -/
def isField : RecordStmt → Bool
  | .timestamp | .eventPid | .type | .size | .data0 | .data1 => true
  | _ => false

def builtEvent (f : RecordFrame) : TraceEvent := f.rest.foldl (assignField f) f.event

/-- A call is numbered by its third statement and counted by its fourteenth. -/
def numbered (pc : Nat) (c : RecordCall) (id : UInt64) (L : List (RecordCall × UInt64)) :
    List (RecordCall × UInt64) :=
  if 3 ≤ pc ∧ pc ≤ 13 then (c, id) :: L else L

def uncounted (pc : Nat) (c : RecordCall) : List RecordCall := if pc ≤ 13 then [c] else []

/-- `stats.events` runs behind by two statements. -/
def owed (pc : Nat) : UInt64 := if pc = 14 ∨ pc = 15 then 1 else 0

/-- The numbers given out from `first` on. -/
def issuedIds (first : UInt64) (n : Nat) : List UInt64 :=
  (List.range n).map fun k => first + UInt64.ofNat k

/-- The race with the foreground at statement `pc` of the call `c`, 18 for none. -/
structure Racing (t₀ : Trace) (calls seen : List RecordCall) (c : RecordCall) (id : UInt64)
    (pc : Nat) (L : List (RecordCall × UInt64)) (s : Race) : Prop where
  recording : s.trace.recording = true
  noReplay : s.trace.replay.active = false
  noProfile : s.trace.currentProfile = workloadProfileNone
  rest : s.frame.rest = recordStmts.drop pc
  inside : pc ≤ 18
  ticks : s.frame.ticks = c.ticks
  currentPid : s.frame.currentPid = c.currentPid
  type : s.frame.type = c.type
  data0 : s.frame.data0 = c.data0
  data1 : s.frame.data1 = c.data1
  pid : s.frame.pid = if pc = 0 then c.pid else c.eventPid
  built : 3 ≤ pc → pc ≤ 13 → builtEvent s.frame = c.event id
  stored : pc = 13 → s.trace.buffer s.trace.currentEvents.toNat = c.event id
  events : s.trace.events.Perm (t₀.events ++ L.map fun p => p.1.event p.2)
  count : s.trace.currentEvents.toNat = t₀.currentEvents.toNat + L.length
  ids : ((numbered pc c id L).map Prod.snd).Perm
    (issuedIds t₀.nextEventId (numbered pc c id L).length)
  next : s.trace.nextEventId = t₀.nextEventId + UInt64.ofNat (numbered pc c id L).length
  calls : (uncounted pc c ++ (L.map Prod.fst ++ s.todo)).Perm (calls ++ seen)
  stats : s.trace.stats.events + owed pc = t₀.stats.events + UInt64.ofNat L.length

theorem Racing.start {t : Trace} (hrec : t.recording = true) (hreplay : t.replay.active = false)
    (hprofile : t.currentProfile = workloadProfileNone) (calls : List RecordCall) :
    Racing t calls [] ⟨0, 0, 0, 0, 0, 0⟩ 0 18 [] (Race.start calls t) where
  recording := hrec
  noReplay := hreplay
  noProfile := hprofile
  rest := rfl
  inside := le_rfl
  ticks := rfl
  currentPid := rfl
  type := rfl
  data0 := rfl
  data1 := rfl
  pid := rfl
  built _ h := absurd h (by decide)
  stored h := absurd h (by decide)
  events := by simp [Race.start]
  count := rfl
  ids := List.Perm.refl _
  next := by simp [Race.start, numbered]
  calls := by simp [Race.start, uncounted]
  stats := by simp [Race.start, owed]

theorem raceStep_stmt {s : Race} {stmt : RecordStmt} {rest : List RecordStmt}
    (h : s.frame.rest = stmt :: rest) : raceStep s =
      { s with
        frame := (stmt.run { s.frame with rest } s.trace).1
        trace := (stmt.run { s.frame with rest } s.trace).2 } := by
  simp only [raceStep, h, recordStep]

/-! ## The statements

The statements fall into those that build the event on the stack, which nobody else sees, the three
that move the recorder on, and those behind. The lemmas go by these.
-/

section
variable {t₀ : Trace} {calls seen : List RecordCall} {c : RecordCall} {id : UInt64} {pc : Nat}
  {L : List (RecordCall × UInt64)} {s : Race}

/-- The statements before the store that leave the recorder alone. -/
theorem Racing.local (h : Racing t₀ calls seen c id pc L s) (hpc : pc ≠ 2 ∧ pc < 12)
    {f : RecordFrame} (hrest : f.rest = recordStmts.drop (pc + 1))
    (hticks : f.ticks = s.frame.ticks) (hcurrent : f.currentPid = s.frame.currentPid)
    (htype : f.type = s.frame.type) (hdata0 : f.data0 = s.frame.data0)
    (hdata1 : f.data1 = s.frame.data1) (hpid : f.pid = c.eventPid)
    (hbuilt : 3 ≤ pc → builtEvent f = builtEvent s.frame) :
    Racing t₀ calls seen c id (pc + 1) L { s with frame := f } := by
  have hnumbered : numbered (pc + 1) c id L = numbered pc c id L := by
    unfold numbered
    exact if_congr (by omega) rfl rfl
  have huncounted : uncounted (pc + 1) c = uncounted pc c := by
    unfold uncounted
    exact if_congr (by omega) rfl rfl
  have howed : owed (pc + 1) = owed pc := by
    unfold owed
    exact if_congr (by omega) rfl rfl
  exact
    { recording := h.recording
      noReplay := h.noReplay
      noProfile := h.noProfile
      rest := hrest
      inside := by omega
      ticks := hticks.trans h.ticks
      currentPid := hcurrent.trans h.currentPid
      type := htype.trans h.type
      data0 := hdata0.trans h.data0
      data1 := hdata1.trans h.data1
      pid := hpid
      built := fun hlow hhigh => (hbuilt (by omega)).trans (h.built (by omega) (by omega))
      stored := fun hstored => by omega
      events := h.events
      count := h.count
      ids := by rw [hnumbered]; exact h.ids
      next := by rw [hnumbered]; exact h.next
      calls := by rw [huncounted]; exact h.calls
      stats := by rw [howed]; exact h.stats }

theorem field_run {stmt : RecordStmt} (hfield : isField stmt = true) (f : RecordFrame) {t : Trace}
    (hreplay : t.replay.active = false) :
    stmt.run f t = ({ f with event := assignField f f.event stmt }, t) := by
  cases stmt <;> cases hfield
  · simp only [RecordStmt.run, assignField, pitTicks, hreplay, Bool.false_eq_true, if_false]
  all_goals rfl

theorem assignField_congr (f : RecordFrame) (event : TraceEvent) (rest : List RecordStmt) :
    assignField { f with event, rest } = assignField f := by
  funext e stmt
  cases stmt <;> rfl

/-- The statements that fill the event in. -/
theorem Racing.field (h : Racing t₀ calls seen c id pc L s) (hpc : 3 ≤ pc ∧ pc < 12)
    {stmt : RecordStmt} (hrest : s.frame.rest = stmt :: recordStmts.drop (pc + 1))
    (hfield : isField stmt = true) : Racing t₀ calls seen c id (pc + 1) L (raceStep s) := by
  have hpid := h.pid
  rw [if_neg (by omega)] at hpid
  rw [raceStep_stmt hrest, field_run hfield _ h.noReplay]
  refine h.local (by omega) rfl rfl rfl rfl rfl rfl hpid fun _ => ?_
  rw [builtEvent, builtEvent, hrest, List.foldl_cons, assignField_congr]
  rfl

/-- The statements behind the count leave the events alone. -/
theorem Racing.settle (h : Racing t₀ calls seen c id pc L s) (hpc : 14 ≤ pc ∧ pc < 18)
    {t : Trace} (hrecording : t.recording = s.trace.recording) (hreplay : t.replay = s.trace.replay)
    (hprofile : t.currentProfile = s.trace.currentProfile) (hbuffer : t.buffer = s.trace.buffer)
    (hcount : t.currentEvents = s.trace.currentEvents) (hnext : t.nextEventId = s.trace.nextEventId)
    (hstats : t.stats.events + owed (pc + 1) = s.trace.stats.events + owed pc) :
    Racing t₀ calls seen c id (pc + 1) L
      { s with trace := t, frame := { s.frame with rest := recordStmts.drop (pc + 1) } } := by
  have hnumbered : ∀ k, 14 ≤ k → numbered k c id L = L := fun k hk => if_neg (by omega)
  have huncounted : ∀ k, 14 ≤ k → uncounted k c = [] := fun k hk => if_neg (by omega)
  have hevents : t.events = s.trace.events := by rw [Trace.events, hcount, hbuffer, Trace.events]
  have hpid := h.pid
  rw [if_neg (by omega)] at hpid
  exact
    { recording := hrecording.trans h.recording
      noReplay := (congrArg _ hreplay).trans h.noReplay
      noProfile := hprofile.trans h.noProfile
      rest := rfl
      inside := by omega
      ticks := h.ticks
      currentPid := h.currentPid
      type := h.type
      data0 := h.data0
      data1 := h.data1
      pid := hpid
      built := fun _ hhigh => by omega
      stored := fun hstored => by omega
      events := hevents ▸ h.events
      count := hcount ▸ h.count
      ids := by
        have hids := h.ids
        rw [hnumbered _ hpc.1] at hids
        rw [hnumbered _ (by omega)]
        exact hids
      next := by
        have hid := h.next
        rw [hnumbered _ hpc.1] at hid
        rw [hnumbered _ (by omega)]
        exact hnext.trans hid
      calls := by
        have hcalls := h.calls
        rw [huncounted _ hpc.1] at hcalls
        rw [huncounted _ (by omega)]
        exact hcalls
      stats := hstats.trans h.stats }

theorem issuedIds_succ (first : UInt64) (n : Nat) :
    issuedIds first (n + 1) = issuedIds first n ++ [first + UInt64.ofNat n] := by
  simp [issuedIds, List.range_succ]

/-- `event.event_id = next_event_id++`. -/
theorem Racing.number (h : Racing t₀ calls seen c id 2 L s) :
    Racing t₀ calls seen c s.trace.nextEventId 3 L (raceStep s) := by
  have hids := h.ids
  have hnext := h.next
  have hpid := h.pid
  have hcalls := h.calls
  rw [numbered, if_neg (by omega)] at hids hnext
  rw [if_neg (by omega)] at hpid
  rw [raceStep_stmt h.rest]
  refine ⟨h.recording, h.noReplay, h.noProfile, rfl, by omega, h.ticks, h.currentPid, h.type,
    h.data0, h.data1, hpid, fun _ _ => ?_, fun hstored => by omega, h.events, h.count, ?_, ?_,
    hcalls, h.stats⟩
  · simp only [builtEvent, RecordStmt.run, assignField, List.foldl_cons, List.foldl_nil,
      h.ticks, hpid, h.type, h.data0, h.data1]
    rfl
  · rw [numbered, if_pos (by omega), List.map_cons, List.length_cons, issuedIds_succ, hnext]
    exact (List.perm_append_singleton _ _).symm.trans (hids.append_right _) |>.trans
      (List.Perm.refl _)
  · show s.trace.nextEventId + 1 = _
    rw [numbered, if_pos (by omega), List.length_cons, hnext, UInt64.ofNat_add, ← UInt64.add_assoc]
    rfl

/-- `buffer[current_events] = event`. -/
theorem Racing.store (h : Racing t₀ calls seen c id 12 L s) :
    Racing t₀ calls seen c id 13 L (raceStep s) := by
  have hpid := h.pid
  have hbuilt := h.built (by omega) (by omega)
  have hevent : s.frame.event = c.event id := by
    rw [builtEvent, h.rest] at hbuilt
    exact hbuilt
  rw [raceStep_stmt h.rest]
  simp only [RecordStmt.run]
  refine ⟨h.recording, h.noReplay, h.noProfile, rfl, by omega, h.ticks, h.currentPid, h.type,
    h.data0, h.data1, hpid, fun _ _ => hevent, fun _ => ?_, ?_, h.count, h.ids, h.next, h.calls,
    h.stats⟩
  · simp only [Function.update_self, hevent]
  · -- the slot written lies behind the ones that count
    refine List.Perm.trans (List.Perm.of_eq ?_) h.events
    refine List.map_congr_left fun i hi => Function.update_of_ne ?_ _ _
    exact Nat.ne_of_lt (List.mem_range.mp hi)

/-- `current_events++`. -/
theorem Racing.take (h : Racing t₀ calls seen c id 13 L s)
    (hroom : t₀.currentEvents.toNat + calls.length + seen.length ≤ traceBufferCap) :
    Racing t₀ calls seen c id 14 ((c, id) :: L) (raceStep s) := by
  have hpid := h.pid
  have hcalls := h.calls
  have hcount := h.count
  have hstats := h.stats
  have hlength := hcalls.length_eq
  rw [owed, if_neg (by omega), UInt64.add_zero] at hstats
  simp only [uncounted, List.length_append, List.length_map] at hlength
  have hsucc : (s.trace.currentEvents + 1).toNat = s.trace.currentEvents.toNat + 1 := by
    simp only [Nat.le_refl, if_true, List.length_singleton] at hlength
    exact toNat_currentEvents_succ (by omega)
  have hevents : ({ s.trace with currentEvents := s.trace.currentEvents + 1 } : Trace).events =
      s.trace.events ++ [c.event id] := by
    refine events_append (c.event id) hsucc ?_
    rw [← h.stored rfl, Function.update_eq_self]
  rw [raceStep_stmt h.rest]
  simp only [RecordStmt.run]
  refine ⟨h.recording, h.noReplay, h.noProfile, rfl, by omega, h.ticks, h.currentPid, h.type,
    h.data0, h.data1, hpid, fun _ hhigh => by omega, fun hstored => by omega, ?_, ?_, h.ids, h.next,
    hcalls, ?_⟩
  · simp only [hevents, List.map_cons]
    exact (h.events.append_right _).trans
      ((List.Perm.of_eq (List.append_assoc ..)).trans
        ((List.perm_append_singleton _ _).append_left _))
  · simp only [List.length_cons]
    omega
  · rw [owed, if_pos (by omega), List.length_cons, UInt64.ofNat_add, ← UInt64.add_assoc, ← hstats]
    rfl

/-- A call begins. -/
theorem Racing.enter (h : Racing t₀ calls seen c id 18 L s) {c' : RecordCall}
    {todo : List RecordCall} (htodo : s.todo = c' :: todo) :
    Racing t₀ calls seen c' id 0 L { s with frame := c'.frame, todo } where
  recording := h.recording
  noReplay := h.noReplay
  noProfile := h.noProfile
  rest := rfl
  inside := by omega
  ticks := rfl
  currentPid := rfl
  type := rfl
  data0 := rfl
  data1 := rfl
  pid := rfl
  built hlow := by omega
  stored hstored := by omega
  events := h.events
  count := h.count
  ids := h.ids
  next := h.next
  calls := by
    have hcalls : (L.map Prod.fst ++ c' :: todo).Perm (calls ++ seen) := htodo ▸ h.calls
    refine List.Perm.trans ?_ hcalls
    show (c' :: (L.map Prod.fst ++ todo)).Perm _
    exact List.perm_middle.symm
  stats := h.stats

/-- **A step of the foreground.** -/
theorem Racing.step (h : Racing t₀ calls seen c id pc L s)
    (hroom : t₀.currentEvents.toNat + calls.length + seen.length ≤ traceBufferCap) :
    ∃ c' id' pc' L', Racing t₀ calls seen c' id' pc' L' (raceStep s) := by
  -- at the end of a call the next is entered; before it one statement is run
  by_cases hpc : pc = 18
  · subst hpc
    have hrest : s.frame.rest = [] := h.rest
    cases htodo : s.todo with
    | nil =>
      have hstay : raceStep s = s := by simp only [raceStep, hrest, htodo]
      refine ⟨c, id, 18, L, ?_⟩
      rw [hstay]
      exact h
    | cons c' todo =>
      have henter : raceStep s = { s with frame := c'.frame, todo } := by
        simp only [raceStep, hrest, htodo]
      refine ⟨c', id, 0, L, ?_⟩
      rw [henter]
      exact h.enter htodo
  · have hfilter : ∀ type : UInt16, (s.trace.recording &&
        s.trace.currentProfile != workloadProfileNone && type == TraceEventType.irq.code) = false :=
      fun type => by simp [h.noProfile]
    -- up to the test no call of the others can have filled the buffer
    have hfull : ¬ (pc ≤ 13 ∧ s.trace.currentEvents ≥ UInt32.ofNat traceBufferCap) := by
      rintro ⟨hlow, hge⟩
      have hlength := h.calls.length_eq
      have hcount := h.count
      rw [ge_iff_le, UInt32.le_iff_toNat_le, show (UInt32.ofNat traceBufferCap).toNat =
        traceBufferCap from by decide] at hge
      simp only [uncounted, if_pos hlow, List.length_append, List.length_map,
        List.length_singleton] at hlength
      omega
    have hinside := h.inside
    have hpid := h.pid
    interval_cases pc
    · -- `pid`
      refine ⟨c, id, 1, L, ?_⟩
      rw [raceStep_stmt h.rest]
      refine h.local (by omega) rfl rfl rfl rfl rfl rfl ?_ (by omega)
      simp only [RecordStmt.run, hpid, if_pos, h.currentPid]
      rfl
    · -- `filter`: no profile is recorded
      refine ⟨c, id, 2, L, ?_⟩
      rw [raceStep_stmt h.rest]
      simp only [RecordStmt.run, hfilter, Bool.false_eq_true, if_false]
      exact h.local (by omega) rfl rfl rfl rfl rfl rfl hpid (by omega)
    · exact ⟨c, s.trace.nextEventId, 3, L, h.number⟩
    · exact ⟨c, id, 4, L, h.field (by omega) h.rest rfl⟩
    · exact ⟨c, id, 5, L, h.field (by omega) h.rest rfl⟩
    · exact ⟨c, id, 6, L, h.field (by omega) h.rest rfl⟩
    · exact ⟨c, id, 7, L, h.field (by omega) h.rest rfl⟩
    · exact ⟨c, id, 8, L, h.field (by omega) h.rest rfl⟩
    · exact ⟨c, id, 9, L, h.field (by omega) h.rest rfl⟩
    · -- `replay`: none is active
      refine ⟨c, id, 10, L, ?_⟩
      rw [raceStep_stmt h.rest]
      simp only [RecordStmt.run, h.noReplay, Bool.false_eq_true, if_false]
      refine h.local (by omega) rfl rfl rfl rfl rfl rfl hpid fun _ => ?_
      rw [builtEvent, builtEvent, h.rest]
      rfl
    · -- `recording`: it is on
      refine ⟨c, id, 11, L, ?_⟩
      rw [raceStep_stmt h.rest]
      simp only [RecordStmt.run, h.recording, Bool.not_true, Bool.false_eq_true, if_false]
      refine h.local (by omega) rfl rfl rfl rfl rfl rfl hpid fun _ => ?_
      rw [builtEvent, builtEvent, h.rest]
      rfl
    · -- `full`: there is room for every call
      refine ⟨c, id, 12, L, ?_⟩
      rw [raceStep_stmt h.rest]
      simp only [RecordStmt.run, if_neg fun hge => hfull ⟨by omega, hge⟩]
      refine h.local (by omega) rfl rfl rfl rfl rfl rfl hpid fun _ => ?_
      rw [builtEvent, builtEvent, h.rest]
      rfl
    · exact ⟨c, id, 13, L, h.store⟩
    · exact ⟨c, id, 14, (c, id) :: L, h.take hroom⟩
    · refine ⟨c, id, 15, L, ?_⟩
      rw [raceStep_stmt h.rest]
      exact h.settle (by omega) rfl rfl rfl rfl rfl rfl rfl
    · -- `events`: the debt is paid
      refine ⟨c, id, 16, L, ?_⟩
      rw [raceStep_stmt h.rest]
      refine h.settle (by omega) rfl rfl rfl rfl rfl rfl ?_
      show s.trace.stats.events + 1 + owed 16 = s.trace.stats.events + owed 15
      simp [owed]
    · refine ⟨c, id, 17, L, ?_⟩
      rw [raceStep_stmt h.rest]
      exact h.settle (by omega) rfl rfl rfl rfl rfl rfl rfl
    · refine ⟨c, id, 18, L, ?_⟩
      rw [raceStep_stmt h.rest]
      exact h.settle (by omega) rfl rfl rfl rfl rfl rfl rfl
    · exact absurd rfl hpc

/-- What a handler's call does, with room for it. -/
theorem RecordCall.run_stored {t : Trace} (hrecording : t.recording = true)
    (hreplay : t.replay.active = false) (hprofile : t.currentProfile = workloadProfileNone)
    (hroom : t.currentEvents.toNat < traceBufferCap) (c : RecordCall) :
    c.run t = { t with
      nextEventId := t.nextEventId + 1
      buffer := Function.update t.buffer t.currentEvents.toNat (c.event t.nextEventId)
      currentEvents := t.currentEvents + 1
      bufferPeak := if t.currentEvents + 1 > t.bufferPeak then t.currentEvents + 1
        else t.bufferPeak
      stats := { t.stats with
        events := t.stats.events + 1
        bytes := t.stats.bytes + UInt64.ofNat traceEventSize } } := by
  have hran := c.ran t
  generalize c.run t = t' at hran ⊢
  cases hran with
  | hidden hit => simp [filtered, hprofile] at hit
  | compared _ active =>
    rw [hreplay] at active
    cases active
  | closed _ _ off =>
    rw [hrecording] at off
    cases off
  | full _ _ _ full => exact absurd hroom (Nat.not_lt.mpr full)
  | stored => rfl

/-- **A handler's call**, anywhere but between the store and the count. -/
theorem Racing.handle (h : Racing t₀ calls seen c id pc L s) (hpc : pc ≠ 13) (c' : RecordCall)
    (hroom : t₀.currentEvents.toNat + calls.length + (seen ++ [c']).length ≤ traceBufferCap) :
    Racing t₀ calls (seen ++ [c']) c id pc ((c', s.trace.nextEventId) :: L)
      { s with trace := c'.run s.trace } := by
  have hlength := h.calls.length_eq
  have hcount := h.count
  simp only [List.length_append, List.length_map, List.length_singleton] at hlength hroom
  have hfree : s.trace.currentEvents.toNat < traceBufferCap := by omega
  have hrun := RecordCall.run_stored h.recording h.noReplay h.noProfile hfree c'
  have hsucc := toNat_currentEvents_succ hfree
  have hevents : (c'.run s.trace).events = s.trace.events ++ [c'.event s.trace.nextEventId] := by
    rw [hrun]
    exact events_append _ hsucc rfl
  have hnumbered : ((numbered pc c id ((c', s.trace.nextEventId) :: L)).map Prod.snd).Perm
      (s.trace.nextEventId :: (numbered pc c id L).map Prod.snd) := by
    unfold numbered
    split
    · exact List.Perm.swap _ _ _
    · exact List.Perm.refl _
  have hmore : (numbered pc c id ((c', s.trace.nextEventId) :: L)).length =
      (numbered pc c id L).length + 1 := by
    simpa using hnumbered.length_eq
  have hids : ((numbered pc c id ((c', s.trace.nextEventId) :: L)).map Prod.snd).Perm
      (issuedIds t₀.nextEventId (numbered pc c id ((c', s.trace.nextEventId) :: L)).length) := by
    rw [hmore, issuedIds_succ, ← h.next]
    exact hnumbered.trans ((List.perm_append_singleton _ _).symm.trans (h.ids.append_right _))
  have hcalls : (uncounted pc c ++ (((c', s.trace.nextEventId) :: L).map Prod.fst ++ s.todo)).Perm
      (calls ++ (seen ++ [c'])) := by
    rw [← List.append_assoc calls, List.map_cons, List.cons_append]
    exact List.perm_middle.trans ((h.calls.cons c').trans (List.perm_append_singleton _ _).symm)
  have hstats : (c'.run s.trace).stats.events + owed pc =
      t₀.stats.events + UInt64.ofNat (L.length + 1) := by
    rw [hrun, UInt64.ofNat_add, ← UInt64.add_assoc, ← h.stats]
    show s.trace.stats.events + 1 + owed pc = s.trace.stats.events + owed pc + 1
    rw [UInt64.add_assoc, UInt64.add_comm 1, ← UInt64.add_assoc]
  refine ⟨?_, ?_, ?_, h.rest, h.inside, h.ticks, h.currentPid, h.type, h.data0, h.data1, h.pid,
    h.built, fun hstored => absurd hstored hpc, ?_, ?_, hids, ?_, hcalls, hstats⟩
  · rw [hrun]; exact h.recording
  · rw [hrun]; exact h.noReplay
  · rw [hrun]; exact h.noProfile
  · rw [hevents, List.map_cons]
    exact (h.events.append_right _).trans
      ((List.Perm.of_eq (List.append_assoc ..)).trans
        ((List.perm_append_singleton _ _).append_left _))
  · rw [hrun, List.length_cons]
    show (s.trace.currentEvents + 1).toNat = _
    omega
  · rw [hrun, hmore, UInt64.ofNat_add, ← UInt64.add_assoc, ← h.next]
    rfl

theorem Racing.halfStored_iff (h : Racing t₀ calls seen c id pc L s) :
    s.halfStored = true ↔ pc = 13 := by
  have hinside := h.inside
  have hrest := h.rest
  rw [Race.halfStored, hrest]
  clear hrest h
  interval_cases pc <;> decide

end

/-! ## Runs -/

/-- **The recorder under interrupts.** When no handler comes in between the store into the
    slot and the count, then after all calls the buffer holds the event of each of them once,
    under a number of its own, and nothing else is counted.

    `hrecording`, `hreplay` and `hprofile` are the state in which every call stores something: a
    recording with no filter. `hroom` is the room for the foreground's and the handlers' events
    together. `hallowed` is the condition, at each interrupt of the run, and `hdone` says that the
    foreground has come to its end; before that nothing is promised of the calls under way. -/
theorem recorder_race_safe {t : Trace} (hrecording : t.recording = true)
    (hreplay : t.replay.active = false) (hprofile : t.currentProfile = workloadProfileNone)
    (calls : List RecordCall) (slices : List (Slice RecordCall))
    (hroom : t.currentEvents.toNat + calls.length + (interrupts slices).length ≤ traceBufferCap)
    (hallowed : recorderRace.Allowed (fun _ s => s.halfStored = false) slices (Race.start calls t))
    (hdone : (recorderRace.run slices (Race.start calls t)).todo = [] ∧
      (recorderRace.run slices (Race.start calls t)).frame.rest = []) :
    ∃ L : List (RecordCall × UInt64),
      (L.map Prod.fst).Perm (calls ++ interrupts slices) ∧
      (L.map Prod.snd).Perm (issuedIds t.nextEventId L.length) ∧
      (recorderRace.run slices (Race.start calls t)).trace.events.Perm
        (t.events ++ L.map fun p => p.1.event p.2) ∧
      (recorderRace.run slices (Race.start calls t)).trace.currentEvents.toNat =
        t.currentEvents.toNat + L.length ∧
      (recorderRace.run slices (Race.start calls t)).trace.stats.events =
        t.stats.events + UInt64.ofNat L.length := by
  -- the invariant is carried through every step and every handler that is let in
  have hrun := recorderRace.run_keeps
    (fun seen s => t.currentEvents.toNat + calls.length + seen.length ≤ traceBufferCap →
      ∃ c id pc L, Racing t calls seen c id pc L s)
    (fun seen s h hroom => by
      obtain ⟨c, id, pc, L, hracing⟩ := h hroom
      exact hracing.step hroom)
    (fun seen c' s hquiet h hroom => by
      obtain ⟨c, id, pc, L, hracing⟩ := h (by
        rw [List.length_append] at hroom
        omega)
      refine ⟨c, id, pc, _, hracing.handle (fun hpc => ?_) c' hroom⟩
      rw [hracing.halfStored_iff.mpr hpc] at hquiet
      cases hquiet)
    slices [] (fun _ => ⟨_, _, _, _, Racing.start hrecording hreplay hprofile calls⟩) hallowed
  obtain ⟨c, id, pc, L, h⟩ := hrun hroom
  -- with nothing left to run the last call is over
  have hpc : pc = 18 := by
    have hrest := h.rest
    rw [hdone.2] at hrest
    have hlength := congrArg List.length hrest
    rw [List.length_nil, List.length_drop, show recordStmts.length = 18 from rfl] at hlength
    have := h.inside
    omega
  subst hpc
  have hcalls := h.calls
  rw [hdone.1, List.append_nil] at hcalls
  have hstats := h.stats
  rw [owed, if_neg (by omega), UInt64.add_zero] at hstats
  exact ⟨L, hcalls, h.ids, h.events, h.count, hstats⟩

/-- A recording that has just been started. -/
def freshRecording : Trace := traceStart 0 Trace.loaded

def netCall : RecordCall := ⟨7, 1, TraceEventType.net.code, 0, 1, 64⟩
def timerCall : RecordCall := ⟨8, 1, TraceEventType.irq.code, 0, 32, 0⟩

/-- The timer comes in behind the store: the call's event is gone, and a slot nobody wrote
    counts as the session's second event. -/
theorem recorder_race_stale :
    let slices := List.replicate 14 .step ++ [.interrupt timerCall] ++ List.replicate 5 .step
    let s := recorderRace.run slices (Race.start [netCall] freshRecording)
    s.todo = [] ∧ s.frame.rest = [] ∧ interrupts slices = [timerCall] ∧
      s.trace.events = [timerCall.event 2, TraceEvent.zero] ∧
      ∀ id, netCall.event id ∉ s.trace.events := by
  intro slices s
  have hrun : s.todo = [] ∧ s.frame.rest = [] ∧ interrupts slices = [timerCall] ∧
      s.trace.events = [timerCall.event 2, TraceEvent.zero] := by decide +kernel
  refine ⟨hrun.1, hrun.2.1, hrun.2.2.1, hrun.2.2.2, fun id hmem => ?_⟩
  rw [hrun.2.2.2] at hmem
  have htype := List.mem_map_of_mem (f := TraceEvent.type) hmem
  revert htype
  exact (by decide : TraceEventType.net.code ∉ [TraceEventType.irq.code, 0])

/-- A statement later it does no harm. -/
theorem recorder_race_safe_counted :
    let slices := List.replicate 15 .step ++ [.interrupt timerCall] ++ List.replicate 4 .step
    let s := recorderRace.run slices (Race.start [netCall] freshRecording)
    s.trace.currentEvents = 2 ∧ ∃ L : List (RecordCall × UInt64),
      (L.map Prod.fst).Perm [netCall, timerCall] ∧
      s.trace.events.Perm (L.map fun p => p.1.event p.2) := by
  intro slices s
  obtain ⟨L, hcalls, -, hevents, -, -⟩ := recorder_race_safe (t := freshRecording) rfl rfl rfl
    [netCall] slices (by decide) (by
      simp only [slices, Preemptible.Allowed, List.replicate, List.cons_append, List.nil_append]
      decide +kernel) (by decide +kernel)
  exact ⟨by decide +kernel, L, hcalls, hevents⟩

end Proof
end BumbelBee
