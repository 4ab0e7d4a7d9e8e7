import BumbelBee.Lib.Latest
import BumbelBee.Lib.Run
import BumbelBee.Proof.TraceNodes

/-!
# The table of sessions

`trace_stop` enters a stored session under the number of sessions started so far, which only
`trace_start_profile` moves on. Nothing makes a stop follow a start: a stop before the first
start writes in front of the table, a second stop overwrites what the first one entered, and
starts without a stop use the table up. `WellBooked` is what the order of the commands has to
keep to; the table is right in exactly these runs, whatever the filesystem does.
-/

namespace BumbelBee
namespace Proof

open Lib Kernel

/-! ## What is stored, and what is listed -/

/-- A session that is stored: the value of `stats.sessions` it is entered under, and the id
    the filesystem gave it. -/
def RecorderOp.books : RecorderOp → Trace × Fs → List (UInt64 × UInt32)
  | .stop ticks, (t, fs) =>
    match (fsWriteTraceSession (encodeEvents t.events) (some (traceStopInfo ticks t)) fs).1 with
    | some sessionId => [(t.stats.sessions, sessionId)]
    | none => []
  | _, _ => []

/-- The sessions a run stores, in order. -/
def bookings : List RecorderOp → Trace × Fs → List (UInt64 × UInt32) :=
  outputs RecorderOp.run RecorderOp.books

/-- The write past `sessions` a step makes, if it makes one. -/
def RecorderOp.overrun : RecorderOp → Trace × Fs → Option Overrun
  | .stop ticks, (t, fs) => (traceStop ticks t fs).2.2
  | _, _ => none

def listedIds (t : Trace) : List UInt32 := (traceListSessions t).map TraceSessionInfo.sessionId

/-- No step of the run writes past the table; and as long as the table has room for what was
    stored, each stored session is listed exactly once. -/
structure TableRight (ops : List RecorderOp) (s : Trace × Fs) : Prop where
  within : ∀ done op, done ++ [op] <+: ops → op.overrun (runAll RecorderOp.run done s) = none
  listed : ∀ done, done <+: ops → (bookings done s).length ≤ traceSessionCap →
    ∀ e ∈ bookings done s, (listedIds (runAll RecorderOp.run done s).1).count e.2 = 1

/-- No session is stored before the first start; and the first sixteen are stored under
    numbers of their own that lie in the table and have been reached. -/
def WellBooked (ops : List RecorderOp) (s : Trace × Fs) : Prop :=
  ∀ done, done <+: ops → (∀ e ∈ bookings done s, e.1 ≠ 0) ∧
    ((bookings done s).length ≤ traceSessionCap → ((bookings done s).map Prod.fst).Nodup ∧
      ∀ e ∈ bookings done s,
        e.1.toNat ≤ min (runAll RecorderOp.run done s).1.stats.sessions.toNat traceSessionCap)

/-! ## The slots -/

/-- The slot a session is entered in: none there is, for the number 0. -/
def slotOf (e : UInt64 × UInt32) : Nat × UInt32 := ((e.1 - 1).toNat, e.2)

theorem slotOf_lt {c : UInt64} {n : Nat} (hn : n ≤ traceSessionCap) :
    (c - 1).toNat < n ↔ c ≠ 0 ∧ c.toNat ≤ n := by
  have hcap : traceSessionCap = 16 := rfl
  by_cases h0 : c = 0
  · subst h0
    have hwrap : ((0 : UInt64) - 1).toNat = 18446744073709551615 := by decide
    rw [hwrap]
    refine iff_of_false (by omega) fun h => h.1 rfl
  · have hpos : c.toNat ≠ 0 := fun h => h0 (UInt64.toNat_inj.mp h)
    have hpred : (c - 1).toNat = c.toNat - 1 := by
      rw [UInt64.toNat_sub_of_le _ _ (UInt64.le_iff_toNat_le.mpr (by
        rw [UInt64.toNat_one]
        omega))]
      rfl
    rw [hpred]
    exact ⟨fun h => ⟨h0, by omega⟩, fun h => by omega⟩

theorem nodup_slots (log : List (UInt64 × UInt32)) :
    ((log.map slotOf).map Prod.fst).Nodup ↔ (log.map Prod.fst).Nodup := by
  rw [List.map_map, show Prod.fst ∘ slotOf = (fun c : UInt64 => (c - 1).toNat) ∘ Prod.fst from rfl,
    ← List.map_map, List.nodup_map_iff]
  intro a b hab
  have hsub : a - 1 = b - 1 := UInt64.toNat_inj.mp hab
  rw [← UInt64.sub_add_cancel a 1, hsub, UInt64.sub_add_cancel]

/-- **What a stop enters**: the session it stores, in the slot before its number. -/
theorem traceStop_table (ticks : UInt64) (t : Trace) (fs : Fs) :
    (∀ k < traceSessionCap, ((traceStop ticks t fs).1.sessions k).sessionId =
      (latest k ((RecorderOp.books (.stop ticks) (t, fs)).map slotOf)).getD (t.sessions k).sessionId) ∧
    ((traceStop ticks t fs).2.2 = none ↔
      ∀ e ∈ RecorderOp.books (.stop ticks) (t, fs), e.1 ≠ 0) ∧
    (traceStop ticks t fs).1.stats.sessions = t.stats.sessions := by
  have hcap : (UInt64.ofNat traceSessionCap).toNat = traceSessionCap := rfl
  have hslot := slotOf_lt (c := t.stats.sessions) (Nat.le_refl traceSessionCap)
  simp only [RecorderOp.books, traceStop]
  generalize fsWriteTraceSession (encodeEvents t.events) (some (traceStopInfo ticks t)) fs = w
  rcases w with ⟨_ | id, fs'⟩
  · exact ⟨fun k _ => rfl, iff_of_true rfl fun e he => absurd he List.not_mem_nil, rfl⟩
  · simp only [List.map_singleton, List.mem_singleton, forall_eq]
    have hentry : ∀ k, latest k [slotOf (t.stats.sessions, id)] =
        if (t.stats.sessions - 1).toNat = k then some id else none := fun k =>
      latest_concat [] (slotOf (t.stats.sessions, id))
    -- the slot is that of the counter less one: there for 1 to 16, behind the table for 0
    by_cases hfew : t.stats.sessions ≤ UInt64.ofNat traceSessionCap
    · rw [if_pos hfew]
      rw [UInt64.le_iff_toNat_le, hcap] at hfew
      by_cases hin : (t.stats.sessions - 1).toNat < traceSessionCap
      · rw [if_pos hin]
        refine ⟨fun k _ => ?_, iff_of_true rfl (hslot.mp hin).1, rfl⟩
        rw [hentry]
        by_cases hk : (t.stats.sessions - 1).toNat = k
        · subst hk
          simp
        · simp [hk, Ne.symm hk]
      · rw [if_neg hin]
        refine ⟨fun k hk => ?_, iff_of_false (by simp) fun h0 => hin (hslot.mpr ⟨h0, hfew⟩), rfl⟩
        have hother : (t.stats.sessions - 1).toNat ≠ k := fun hsame => by
          rw [← hsame] at hk
          exact hin hk
        rw [hentry, if_neg hother]
        rfl
    · rw [if_neg hfew]
      rw [UInt64.le_iff_toNat_le, hcap] at hfew
      refine ⟨fun k hk => ?_, iff_of_true rfl fun h0 => hfew (by rw [h0]; decide), rfl⟩
      have hother : (t.stats.sessions - 1).toNat ≠ k := fun hsame => by
        rw [← hsame] at hk
        exact hfew (hslot.mp hk).2
      rw [hentry, if_neg hother]
      rfl

/-! ## The ids

`next_session_id` is a 32-bit counter that a disk may bring along at any value, so the ids of one
boot need not grow. But each id that is given out takes an inode, and no inode is ever given back
for one: there are at most 32 of them between two boots, and counted from where the boot left
`next_session_id` they are in order. That holds of every disk, a torn one included.
-/

/-- How many ids the store has given out since it stood at `n₀`. -/
def idsSince (n₀ : UInt32) (fs : Fs) : Nat := (fs.superblock.nextSessionId - n₀).toNat

/-- A write that answers gives out the next id; and with the ids the free inodes run out. -/
theorem fsWriteTraceSession_issues {n₀ : UInt32} {fs : Fs}
    (hroom : idsSince n₀ fs + freeInodes fs.inodes ≤ 32) (data : List UInt8)
    (info : Option TraceSessionInfo) :
    let r := fsWriteTraceSession data info fs
    idsSince n₀ fs ≤ idsSince n₀ r.2 ∧ idsSince n₀ r.2 + freeInodes r.2.inodes ≤ 32 ∧
      ∀ id, r.1 = some id → fs.online = true ∧ id = fs.superblock.nextSessionId ∧
        idsSince n₀ fs < idsSince n₀ r.2 := by
  intro r
  have hres : WriteResult data info fs r := fsWriteTraceSession_result data info fs
  generalize r = r at hres
  cases hres with
  | refused why => exact ⟨Nat.le_refl _, hroom, fun id hid => by cases hid⟩
  | dataFault i t a online space alloc wrote =>
    refine ⟨Nat.le_refl _, ?_, fun id hid => by cases hid⟩
    rw [freeInodes_release (fsAllocInode_some alloc).1 rfl]
    exact hroom
  | stored i t a online space alloc wrote =>
    have hleft := freeInodes_take (fsAllocInode_some alloc).1
      (storedInode_taken fs.superblock (bytesOf data) info).used
    have hnext : idsSince n₀ (fsStored fs i (bytesOf data) info a) = idsSince n₀ fs + 1 := by
      have hsub : fs.superblock.nextSessionId + 1 - n₀ = fs.superblock.nextSessionId - n₀ + 1 := by
        grind
      simp only [idsSince] at hroom ⊢
      rw [show (fsStored fs i (bytesOf data) info a).superblock.nextSessionId =
        fs.superblock.nextSessionId + 1 from rfl, hsub, UInt32.toNat_add, UInt32.toNat_one]
      omega
    have hmemory := fsFlushTables_memory (fsStored fs i (bytesOf data) info a)
    have hsame : idsSince n₀ (fsFlushTables (fsStored fs i (bytesOf data) info a)).2 =
        idsSince n₀ fs + 1 := by rw [hmemory]; exact hnext
    dsimp only
    refine ⟨by omega, ?_, fun id hid => ?_⟩
    · rw [hmemory] at hsame ⊢
      rw [hsame]
      have hfree : freeInodes (fsStored fs i (bytesOf data) info a).inodes + 1 =
        freeInodes fs.inodes := hleft
      show _ + freeInodes (fsStored fs i (bytesOf data) info a).inodes ≤ 32
      omega
    · split at hid
      · obtain rfl := Option.some.inj hid
        exact ⟨online, rfl, by omega⟩
      · cases hid

/-- The table holds what was stored last under each number, and ids are given out in order. -/
structure Entered (n₀ : UInt32) (log : List (UInt64 × UInt32)) (s : Trace × Fs) : Prop where
  table : ∀ k < traceSessionCap,
    (s.1.sessions k).sessionId = (latest k (log.map slotOf)).getD 0
  ordered : log.Pairwise fun d e => (d.2 - n₀).toNat < (e.2 - n₀).toNat
  below : ∀ e ∈ log, (e.2 - n₀).toNat < idsSince n₀ s.2
  room : idsSince n₀ s.2 + freeInodes s.2.inodes ≤ 32

theorem Entered.boot (a : Ata) :
    Entered (fsBoot a).superblock.nextSessionId [] (recorderBoot a) where
  table _ _ := rfl
  ordered := List.Pairwise.nil
  below _ h := absurd h List.not_mem_nil
  room := by
    rw [idsSince, show (recorderBoot a).2 = fsBoot a from rfl, UInt32.sub_self, UInt32.toNat_zero,
      Nat.zero_add]
    exact freeInodes_le _

/-- A step other than a stop leaves the table, and stores nothing. -/
theorem RecorderOp.run_sessions {op : RecorderOp} (hop : ∀ ticks, op ≠ .stop ticks) (s : Trace × Fs) :
    (op.run s).1.sessions = s.1.sessions ∧ op.books s = [] ∧ op.overrun s = none := by
  obtain ⟨t, fs⟩ := s
  cases op with
  | stop ticks => exact absurd rfl (hop ticks)
  | start ticks profile => exact ⟨rfl, rfl, rfl⟩
  | record c =>
    exact ⟨(c.run_kept t).sessions, rfl, rfl⟩
  | replayBegin id =>
    obtain ⟨t', ata, hrun, -, hsessions⟩ := RecorderOp.run_replayBegin id t fs
    exact ⟨(congrArg (fun s => s.1.sessions) hrun).trans hsessions, rfl, rfl⟩
  | replayEnd =>
    refine ⟨?_, rfl, rfl⟩
    simp only [RecorderOp.run, traceReplayEnd]
    split <;> rfl

/-- What a step does to the ids of the store. -/
theorem RecorderOp.run_ids {n₀ : UInt32} {s : Trace × Fs}
    (hroom : idsSince n₀ s.2 + freeInodes s.2.inodes ≤ 32) (op : RecorderOp) :
    idsSince n₀ s.2 ≤ idsSince n₀ (op.run s).2 ∧
      idsSince n₀ (op.run s).2 + freeInodes (op.run s).2.inodes ≤ 32 := by
  rcases op.run_fs s with ⟨ata, hfs⟩ | ⟨data, info, hfs⟩
  · rw [hfs]
    exact ⟨Nat.le_refl _, hroom⟩
  · rw [hfs]
    obtain ⟨hgrows, hroom', -⟩ := fsWriteTraceSession_issues hroom data info
    exact ⟨hgrows, hroom'⟩

/-- **One step.** -/
theorem Entered.step {n₀ : UInt32} {log : List (UInt64 × UInt32)} {s : Trace × Fs}
    (h : Entered n₀ log s) (op : RecorderOp) : Entered n₀ (log ++ op.books s) (op.run s) := by
  obtain ⟨t, fs⟩ := s
  obtain ⟨hgrows, hroom⟩ := op.run_ids h.room
  have hbelow : ∀ e ∈ log, (e.2 - n₀).toNat < idsSince n₀ (op.run (t, fs)).2 := fun e he =>
    (h.below e he).trans_le hgrows
  -- only a stop books, and what it books is newer than all that is in the log
  by_cases hop : ∀ ticks, op ≠ .stop ticks
  · obtain ⟨hsessions, hbooks, -⟩ := op.run_sessions hop (t, fs)
    rw [hbooks, List.append_nil]
    refine ⟨?_, h.ordered, hbelow, hroom⟩
    rw [hsessions]
    exact h.table
  · obtain ⟨ticks, rfl⟩ := not_forall_not.mp hop
    obtain ⟨htable, -⟩ := traceStop_table ticks t fs
    obtain ⟨-, -, hnext⟩ := fsWriteTraceSession_issues h.room (encodeEvents t.events)
      (some (traceStopInfo ticks t))
    have hrun : (RecorderOp.run (.stop ticks) (t, fs)).2 = _ := (traceStop_spec ticks t fs).1
    have hsessions : ∀ k < traceSessionCap,
        ((RecorderOp.run (.stop ticks) (t, fs)).1.sessions k).sessionId =
          (latest k ((RecorderOp.books (.stop ticks) (t, fs)).map slotOf)).getD
            (t.sessions k).sessionId := htable
    generalize hbooks : RecorderOp.books (.stop ticks) (t, fs) = books at hsessions ⊢
    simp only [RecorderOp.books] at hbooks
    cases hstored : (fsWriteTraceSession (encodeEvents t.events)
        (some (traceStopInfo ticks t)) fs).1 with
    | none =>
      rw [hstored] at hbooks
      subst hbooks
      rw [List.append_nil]
      exact ⟨fun k hk => (hsessions k hk).trans (h.table k hk), h.ordered, hbelow, hroom⟩
    | some id =>
      rw [hstored] at hbooks
      subst hbooks
      obtain ⟨-, hid, hless⟩ := hnext id hstored
      have hnewest : (id - n₀).toNat = idsSince n₀ fs := by rw [hid, idsSince]
      -- the latest entry of a slot is the new one, or what it was
      refine ⟨fun k hk => ?_, ?_, ?_, hroom⟩
      · rw [hsessions k hk, List.map_append, List.map_singleton, latest_concat,
          ← List.nil_append [slotOf _], latest_concat, h.table k hk]
        split <;> rfl
      · rw [List.pairwise_append]
        refine ⟨h.ordered, List.pairwise_singleton _ _, fun e he b hb => ?_⟩
        rw [List.mem_singleton.mp hb, hnewest]
        exact h.below e he
      · intro e he
        rcases List.mem_append.mp he with hold | hnew
        · exact hbelow e hold
        · rw [List.mem_singleton.mp hnew, hnewest, hrun]
          exact hless

/-! ## Runs

Runs begin with a boot and go by whole commands. What the table holds is read off the log of what
was stored, by the last entry under each number.
-/

theorem bookings_snoc (done : List RecorderOp) (op : RecorderOp) (s : Trace × Fs) :
    bookings (done ++ [op]) s = bookings done s ++ op.books (runAll RecorderOp.run done s) :=
  outputs_snoc op done s

theorem Entered.run {n₀ : UInt32} {s : Trace × Fs} (h : Entered n₀ [] s) (ops : List RecorderOp) :
    Entered n₀ (bookings ops s) (runAll RecorderOp.run ops s) :=
  runAll_invariant (fun done s' => Entered n₀ (bookings done s) s') h ops fun done op hdone => by
    rw [bookings_snoc]
    exact hdone.step op

section
variable {n₀ : UInt32} {log : List (UInt64 × UInt32)} {s : Trace × Fs}

/-- What is listed is what the slots hold. -/
theorem Entered.listed (h : Entered n₀ log s) :
    listedIds s.1 = shown 0 (min s.1.stats.sessions.toNat traceSessionCap) (log.map slotOf) := by
  rw [listedIds, traceListSessions, List.map_map, shown]
  refine List.map_congr_left fun k hk => ?_
  exact h.table k ((List.mem_range.mp hk).trans_le (Nat.min_le_right _ _))

/-- When each stored session is listed once. A slot nothing was entered in shows the id 0, so a
    session that really has it could be listed without having been entered: `hids` leaves it out. -/
theorem Entered.listed_iff (h : Entered n₀ log s) (hnumbers : ∀ e ∈ log, e.1 ≠ 0)
    (hids : ∀ e ∈ log, e.2 ≠ 0) :
    (∀ e ∈ log, (listedIds s.1).count e.2 = 1) ↔ (log.map Prod.fst).Nodup ∧
      ∀ e ∈ log, e.1.toNat ≤ min s.1.stats.sessions.toNat traceSessionCap := by
  have hvalues : ((log.map slotOf).map Prod.snd).Nodup := by
    rw [List.map_map]
    refine List.Pairwise.map _ (fun d e hlt => ?_) h.ordered
    intro hsame
    rw [show d.2 = e.2 from hsame] at hlt
    exact Nat.lt_irrefl _ hlt
  have hempty : ∀ e ∈ log.map slotOf, e.2 ≠ 0 := by
    intro e he
    obtain ⟨b, hb, rfl⟩ := List.mem_map.mp he
    exact hids b hb
  have hcount := count_shown_iff (n := min s.1.stats.sessions.toNat traceSessionCap) hvalues hempty
  rw [List.forall_mem_map, List.forall_mem_map, nodup_slots, ← h.listed] at hcount
  rw [show (∀ e ∈ log, (listedIds s.1).count e.2 = 1) ↔ _ from hcount]
  refine and_congr_right fun _ => forall₂_congr fun e he => ?_
  exact (slotOf_lt (Nat.min_le_right _ _)).trans (and_iff_right (hnumbers e he))

end

/-- A step writes past the table if it stores a session under the number 0. -/
theorem RecorderOp.overrun_iff (op : RecorderOp) (s : Trace × Fs) :
    op.overrun s = none ↔ ∀ e ∈ op.books s, e.1 ≠ 0 := by
  by_cases hop : ∀ ticks, op ≠ .stop ticks
  · obtain ⟨-, hbooks, hover⟩ := op.run_sessions hop s
    rw [hbooks]
    exact iff_of_true hover fun e he => absurd he List.not_mem_nil
  · obtain ⟨ticks, rfl⟩ := not_forall_not.mp hop
    exact (traceStop_table ticks s.1 s.2).2.1

/-- A disk that is blank, or that keeps the layout of this filesystem, gives out no id 0. -/
theorem bookings_nonzero {a : Ata}
    (hdisk : ¬ Formatted a.sector ∨ Kept (diskSuperblock a.sector) (diskInodes a.sector))
    (ops : List RecorderOp) : 0 ∉ (bookings ops (recorderBoot a)).map Prod.snd := by
  intro hzero
  obtain ⟨e, he, hid⟩ := List.mem_map.mp hzero
  obtain ⟨done, op, -, hbook⟩ := mem_outputs.mp he
  have hroom := ((Entered.boot a).run done).room
  have hkept := Kept.run hdisk done rfl
  rw [show recorderRun done (recorderBoot a) = runAll RecorderOp.run done (recorderBoot a) from rfl]
    at hkept
  generalize runAll RecorderOp.run done (recorderBoot a) = s at hbook hroom hkept
  obtain ⟨t, fs⟩ := s
  cases op with
  | stop ticks =>
    obtain ⟨-, -, hnext⟩ := fsWriteTraceSession_issues hroom (encodeEvents t.events)
      (some (traceStopInfo ticks t))
    simp only [RecorderOp.books] at hbook
    split at hbook
    · rename_i id hstored
      obtain ⟨honline, hnew, -⟩ := hnext id hstored
      rw [List.mem_singleton.mp hbook] at hid
      exact (hkept honline).next (hnew.symm.trans hid)
    · exact absurd hbook List.not_mem_nil
  | start ticks profile => exact absurd hbook List.not_mem_nil
  | record c => exact absurd hbook List.not_mem_nil
  | replayBegin id => exact absurd hbook List.not_mem_nil
  | replayEnd => exact absurd hbook List.not_mem_nil

/-- **The session table is right** in exactly the runs that are well booked, from any boot of any
    disk and whatever the drive does: no stop writes past it, and up to sixteen stored sessions are
    listed once each.

    `hids` says that no session of the run is stored as session 0, which is what an entry nothing
    was entered in shows. A blank disk or one that keeps this filesystem's layout gives out no such
    id (`bookings_nonzero`). -/
theorem session_table_iff (a : Ata) (ops : List RecorderOp)
    (hids : 0 ∉ (bookings ops (recorderBoot a)).map Prod.snd) :
    TableRight ops (recorderBoot a) ↔ WellBooked ops (recorderBoot a) := by
  have hentered := fun done => (Entered.boot a).run done
  have hnonzero : ∀ done, done <+: ops → ∀ e ∈ bookings done (recorderBoot a), e.2 ≠ 0 := by
    intro done hdone e he hzero
    obtain ⟨before, op, hop, hbook⟩ := mem_outputs.mp he
    exact hids (List.mem_map.mpr ⟨e, mem_outputs.mpr ⟨before, op, hop.trans hdone, hbook⟩, hzero⟩)
  constructor
  · intro h done hdone
    have hnumbers : ∀ e ∈ bookings done (recorderBoot a), e.1 ≠ 0 := by
      intro e he
      obtain ⟨before, op, hop, hbook⟩ := mem_outputs.mp he
      exact (op.overrun_iff _).mp (h.within before op (hop.trans hdone)) e hbook
    exact ⟨hnumbers, fun hfew =>
      ((hentered done).listed_iff hnumbers (hnonzero done hdone)).mp (h.listed done hdone hfew)⟩
  · intro h
    refine ⟨fun done op hop => (op.overrun_iff _).mpr fun e he => ?_, fun done hdone hfew => ?_⟩
    · exact (h _ hop).1 e (by
        rw [bookings_snoc]
        exact List.mem_append_right _ he)
    · obtain ⟨hnumbers, hlisted⟩ := h done hdone
      exact ((hentered done).listed_iff hnumbers (hnonzero done hdone)).mpr (hlisted hfew)

instance (ops : List RecorderOp) (s : Trace × Fs) : Decidable (WellBooked ops s) :=
  -- the sessions of the list are gone through, not all that could be
  letI : ∀ (P : UInt64 × UInt32 → Prop) [DecidablePred P] (log : List (UInt64 × UInt32)),
      Decidable (∀ e ∈ log, P e) := fun P _ log => List.decidableBAll P log
  decidable_of_iff (∀ done ∈ ops.inits, _) (forall_congr' fun _ => imp_congr_left (List.mem_inits _ _))

/-- A recording and the next one. -/
theorem session_table_twice :
    TableRight [.start 4 0, .stop 6, .start 7 0, .stop 8] (recorderBoot blankDrive) :=
  (session_table_iff blankDrive _ (bookings_nonzero (Or.inl blankDrive_not_formatted) _)).mpr
    (by decide +kernel)

/-- The first command is `trace stop`: a session of no event is stored, and entered in front of
    the table. -/
theorem session_table_overrun : ¬ TableRight [.stop 4] (recorderBoot blankDrive) := fun h => by
  have hover := h.within [] (.stop 4) List.prefix_rfl
  revert hover
  decide +kernel

end Proof
end BumbelBee
