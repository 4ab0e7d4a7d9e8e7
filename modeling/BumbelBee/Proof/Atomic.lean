import BumbelBee.Proof.Layout
import Mathlib.Data.List.Find

/-!
# Failed session writes

When does a call of `fs_write_trace_session` that returns -1 leave the store as it was?
`SameStore` compares the counters, the free inodes and what each reader sees: a reader of the
tables in memory, and `fs_read_trace_session`, which looks at the disk, so that the two states
are read over the disk each of them has, under one and the same course of the drive.

There are two exceptions, and `fsWriteTraceSession_atomic_iff` says that there are no others.

* A fault in one of the two flushes behind the data (`LateFault`). A fault among the data sectors
  gives the inode back; these are behind the lines that change the counters, and nothing is
  taken back.
* Data that did not land where nobody looks (`Spoils`). What the call wrote before the fault stays
  on the disk. The sectors from `next_free_lba` on are free on a well-formed store, and then this
  cannot happen (`Allocated.not_spoils`). But nothing keeps a session of an earlier boot out of
  there: a reset between the two flushes of a write leaves its inode on the disk and the old mark
  in the superblock (`crash_torn`), and the next write, though it fails, writes over it.
-/

namespace BumbelBee
namespace Proof

open Lib Kernel

/-- The `k`-th coming command completes. -/
def Completes (a : Ata) (k : Nat) : Prop := a.outcome k = .ok

instance (a : Ata) (k : Nat) : Decidable (Completes a k) := inferInstanceAs (Decidable (_ = _))

/-! ## Exactly when a transfer completes -/

theorem ataWrite28_true_iff {lba : UInt32} {buf : List Sector} {a : Ata} :
    (ataWrite28 lba buf a).1 = true ↔
      a.ready = true ∧ ataSelectLba28 lba buf.length = true ∧ Completes a 0 := by
  by_cases hr : a.ready = true
  · by_cases hs : ataSelectLba28 lba buf.length = true
    · simp [ataWrite28_eq hr hs, hr, hs, Completes]
    · simp [ataWrite28, hs]
  · simp [ataWrite28, hr]

/-- A command that completes takes one outcome off the script. -/
theorem ataWrite28_script {lba : UInt32} {buf : List Sector} {a : Ata}
    (h : (ataWrite28 lba buf a).1 = true) :
    (∀ k, Completes (ataWrite28 lba buf a).2 k ↔ Completes a (k + 1)) ∧
      (ataWrite28 lba buf a).2.ready = a.ready := by
  obtain ⟨hr, hs, -⟩ := ataWrite28_true_iff.mp h
  rw [ataWrite28_eq hr hs]
  exact ⟨fun k => by simp [Completes, Nat.add_comm 1], rfl⟩

/-- The loop gets through when every one of its sectors does. -/
theorem fsWriteSectors_true_iff (src : List UInt8) (bytes startLba : UInt32) :
    ∀ (todo : Nat) (i : UInt32) (a : Ata),
      ((fsWriteSectors src bytes startLba todo i a).1 = true ↔
        ∀ j < todo, a.ready = true ∧
          ataSelectLba28 (startLba + (i + UInt32.ofNat j)) 1 = true ∧ Completes a j) ∧
      ((fsWriteSectors src bytes startLba todo i a).1 = true →
        (fsWriteSectors src bytes startLba todo i a).2.ready = a.ready ∧
        ∀ k, Completes (fsWriteSectors src bytes startLba todo i a).2 k ↔ Completes a (todo + k))
  | 0, i, a => by simp [fsWriteSectors]
  | todo + 1, i, a => by
    have hone := @ataWrite28_true_iff (startLba + i) [dataSector src bytes i] a
    have hleft := @ataWrite28_script (startLba + i) [dataSector src bytes i] a
    have hzero : startLba + (i + UInt32.ofNat 0) = startLba + i := by simp
    have hshift : ∀ j, startLba + (i + UInt32.ofNat (j + 1)) =
        startLba + (i + 1 + UInt32.ofNat j) := fun j => by
      rw [UInt32.ofNat_add, UInt32.add_comm (UInt32.ofNat j), UInt32.add_assoc i]
      rfl
    -- the first command is the drive's next, the later ones are shifted by it
    cases hw : ataWrite28 (startLba + i) [dataSector src bytes i] a with
    | mk ok b =>
    rw [hw] at hone hleft
    cases ok with
    | false =>
      simp only [fsWriteSectors, hw]
      refine ⟨⟨fun h => absurd h (by simp), fun h => ?_⟩, fun h => absurd h (by simp)⟩
      have h0 := h 0 (by omega)
      rw [hzero] at h0
      exact absurd (hone.mpr h0) (by simp)
    | true =>
      obtain ⟨hscript, hready⟩ := hleft rfl
      obtain ⟨hiff, hafter⟩ := fsWriteSectors_true_iff src bytes startLba todo (i + 1) b
      simp only [fsWriteSectors, hw]
      refine ⟨?_, fun h => ?_⟩
      · rw [hiff]
        refine ⟨fun h j hj => ?_, fun h j hj => ?_⟩
        · cases j with
          | zero => rw [hzero]; exact hone.mp rfl
          | succ j =>
            rw [hshift, ← hscript, ← hready]
            exact h j (by omega)
        · have := h (j + 1) (by omega)
          rwa [hshift, ← hscript, ← hready] at this
      · obtain ⟨hr, hc⟩ := hafter h
        refine ⟨hr.trans hready, fun k => ?_⟩
        rw [hc k, hscript, show todo + 1 + k = todo + k + 1 by omega]

/-- The data of a call reaches the drive: it is ready, every sector is addressable and every
    command completes. -/
def DataLands (data : List UInt8) (fs : Fs) : Prop :=
  ∀ j < (sectorsOf data).toNat, fs.ata.ready = true ∧
    ataSelectLba28 (fs.superblock.nextFreeLba + UInt32.ofNat j) 1 = true ∧ Completes fs.ata j

/-- One of the two commands behind the data, the table's flush and the superblock's, does not
    complete. -/
def FlushFaults (data : List UInt8) (fs : Fs) : Prop :=
  ¬ Completes fs.ata (sectorsOf data).toNat ∨ ¬ Completes fs.ata ((sectorsOf data).toNat + 1)

theorem fsWriteData_true_iff (data : List UInt8) (fs : Fs) :
    ((fsWriteData data fs).1 = true ↔ DataLands data fs) ∧
    ((fsWriteData data fs).1 = true → (fsWriteData data fs).2.ready = fs.ata.ready ∧
      ∀ k, Completes (fsWriteData data fs).2 k ↔ Completes fs.ata ((sectorsOf data).toNat + k)) := by
  have h := fsWriteSectors_true_iff data (bytesOf data) fs.superblock.nextFreeLba
    (sectorsOf data).toNat 0 fs.ata
  simpa only [DataLands, UInt32.zero_add] using h

theorem fsFlushTables_true_iff {fs : Fs} (hready : fs.ata.ready = true) :
    (fsFlushTables fs).1 = true ↔ Completes fs.ata 0 ∧ Completes fs.ata 1 := by
  have hi := @ataWrite28_true_iff (fsStartLba + 1) (encodeTable fs.inodes) fs.ata
  have hs := @ataWrite28_script (fsStartLba + 1) (encodeTable fs.inodes) fs.ata
  have hsel : ataSelectLba28 (fsStartLba + 1) (encodeTable fs.inodes).length = true := by
    rw [length_encodeTable]; decide
  simp only [hready, hsel, true_and] at hi
  unfold fsFlushTables fsFlushInodes
  cases hw : ataWrite28 (fsStartLba + 1) (encodeTable fs.inodes) fs.ata with
  | mk ok b =>
  rw [hw] at hi hs
  cases ok with
  | false => simpa using fun h => absurd (hi.mpr h) (by simp)
  | true =>
    obtain ⟨hscript, hb⟩ : (∀ k, Completes b k ↔ Completes fs.ata (k + 1)) ∧
        b.ready = fs.ata.ready := hs rfl
    have hsb := @ataWrite28_true_iff fsStartLba [encodeSuperblock fs.superblock] b
    have hsel' : ataSelectLba28 fsStartLba [encodeSuperblock fs.superblock].length = true := by
      rw [List.length_singleton]; decide
    simp only [hb, hready, hsel', true_and] at hsb
    rw [hscript] at hsb
    simp only [fsFlushSuperblock]
    rw [hsb]
    exact ⟨fun h => ⟨hi.mp rfl, h⟩, And.right⟩

/-! ## What data that does not land leaves on the disk -/

/-- From round `i` on, the drive takes the sector of round `i + k`: those before it were written,
    and it is not refused outright. -/
structure Moved (startLba i : UInt32) (a : Ata) (k : Nat) : Prop where
  ready : a.ready = true
  before : ∀ j < k, Completes a j
  addressed : ∀ j ≤ k, ataSelectLba28 (startLba + (i + UInt32.ofNat j)) 1 = true
  moved : a.outcome k ≠ .fault 0

theorem round_succ (startLba i : UInt32) (j : Nat) :
    startLba + (i + UInt32.ofNat (j + 1)) = startLba + (i + 1 + UInt32.ofNat j) := by
  rw [UInt32.ofNat_add, UInt32.add_comm (UInt32.ofNat j), UInt32.add_assoc i]
  rfl

/-- **The writing loop, sector by sector**: a sector of the disk is that of a round the drive took,
    or what it was. -/
theorem fsWriteSectors_sector (src : List UInt8) (bytes startLba : UInt32) :
    ∀ (todo : Nat) (i : UInt32) (a : Ata) (x : Nat),
      (∃ k < todo, Moved startLba i a k ∧ (startLba + (i + UInt32.ofNat k)).toNat = x ∧
        (fsWriteSectors src bytes startLba todo i a).2.sector x =
          dataSector src bytes (i + UInt32.ofNat k)) ∨
      ((∀ k < todo, Moved startLba i a k → (startLba + (i + UInt32.ofNat k)).toNat ≠ x) ∧
        (fsWriteSectors src bytes startLba todo i a).2.sector x = a.sector x)
  | 0, i, a, x => Or.inr ⟨fun k hk => absurd hk (Nat.not_lt_zero k), rfl⟩
  | todo + 1, i, a, x => by
    have hzero : startLba + (i + UInt32.ofNat 0) = startLba + i := by simp
    by_cases hgo : a.ready = true ∧ ataSelectLba28 (startLba + i) 1 = true
    · have hwrite := ataWrite28_eq hgo.1 (show ataSelectLba28 _ [dataSector src bytes i].length = _
        from hgo.2)
      have htaken : a.outcome 0 ≠ .fault 0 → Moved startLba i a 0 := fun hmoved =>
        ⟨hgo.1, fun j hj => absurd hj (Nat.not_lt_zero j), fun j hj => by
          rw [Nat.le_zero.mp hj, hzero]; exact hgo.2, hmoved⟩
      simp only [fsWriteSectors, hwrite]
      cases houtcome : a.outcome 0 with
      | ok =>
        -- the sector is on the disk, and the loop goes on behind it
        simp only [beq_self_eq_true, Outcome.moved, List.length_singleton, List.take_succ_cons,
          List.take_zero, span]
        let b := (a.skip 1).log [((startLba + i).toNat, dataSector src bytes i)]
        have hsector : b.sector = Function.update a.sector (startLba + i).toNat
            (dataSector src bytes i) := Ata.sector_log _ _
        have hshift : ∀ k, Moved startLba (i + 1) b k ↔ Moved startLba i a (k + 1) := by
          refine fun k => ⟨fun h => ⟨hgo.1, fun j hj => ?_, fun j hj => ?_, ?_⟩,
            fun h => ⟨hgo.1, fun j hj => ?_, fun j hj => ?_, ?_⟩⟩
          · cases j with
            | zero => exact houtcome
            | succ j =>
              have := h.before j (by omega)
              simpa [b, Completes, Nat.add_comm 1] using this
          · cases j with
            | zero => rw [hzero]; exact hgo.2
            | succ j => rw [round_succ]; exact h.addressed j (by omega)
          · simpa [b, Nat.add_comm 1] using h.moved
          · simpa [b, Completes, Nat.add_comm 1] using h.before (j + 1) (by omega)
          · rw [← round_succ]; exact h.addressed (j + 1) (by omega)
          · simpa [b, Nat.add_comm 1] using h.moved
        rcases fsWriteSectors_sector src bytes startLba todo (i + 1) b x with
          ⟨k, hk, hreached, haddr, heq⟩ | ⟨hnone, heq⟩
        · refine Or.inl ⟨k + 1, by omega, (hshift k).mp hreached, by rw [round_succ]; exact haddr, ?_⟩
          rw [show i + UInt32.ofNat (k + 1) = i + 1 + UInt32.ofNat k from
            (UInt32.add_right_inj startLba).mp (round_succ startLba i k)]
          exact heq
        · by_cases hx : x = (startLba + i).toNat
          · refine Or.inl ⟨0, by omega, htaken (by rw [houtcome]; simp), by rw [hzero, hx], ?_⟩
            rw [heq, hsector, hx, Function.update_self]
            simp
          · refine Or.inr ⟨fun k hk hreached => ?_, by
              rw [heq, hsector, Function.update_of_ne hx]⟩
            cases k with
            | zero => rw [hzero]; exact fun h => hx h.symm
            | succ k => rw [round_succ]; exact hnone k (by omega) ((hshift k).mpr hreached)
      | fault m =>
        -- the loop ends here, with the sector moved or not
        have hlater : ∀ k < todo + 1, Moved startLba i a k → k = 0 := fun k _ hreached => by
          by_contra hk
          have := hreached.before 0 (Nat.pos_of_ne_zero hk)
          rw [Completes, houtcome] at this
          cases this
        simp only [show (Outcome.fault m == Outcome.ok) = false from rfl, Outcome.moved,
          List.length_singleton]
        cases m with
        | zero =>
          refine Or.inr ⟨fun k hk hreached => absurd (hlater k hk hreached) fun h0 => ?_, by
            simp [span]⟩
          rw [h0] at hreached
          exact hreached.moved houtcome
        | succ m =>
          have hsector : ((a.skip 1).log (span (startLba + i).toNat
              ([dataSector src bytes i].take (min (m + 1) 1)))).sector =
                Function.update a.sector (startLba + i).toNat (dataSector src bytes i) := by
            rw [Ata.sector_log, show min (m + 1) 1 = 1 by omega]
            rfl
          by_cases hx : x = (startLba + i).toNat
          · refine Or.inl ⟨0, by omega, htaken (by rw [houtcome]; simp), by rw [hzero, hx], ?_⟩
            rw [hsector, hx, Function.update_self]
            simp
          · refine Or.inr ⟨fun k hk hreached => ?_, by rw [hsector, Function.update_of_ne hx]⟩
            rw [hlater k hk hreached, hzero]
            exact fun h => hx h.symm
    · -- refused before anything is sent
      have hwrite : ataWrite28 (startLba + i) [dataSector src bytes i] a = (false, a) := by
        rw [ataWrite28, if_pos]
        rw [List.length_singleton, Bool.or_eq_true, Bool.not_eq_true', Bool.not_eq_true',
          ← Bool.not_eq_true, ← Bool.not_eq_true, ← not_and_or]
        exact hgo
      simp only [fsWriteSectors, hwrite]
      refine Or.inr ⟨fun k hk hreached => absurd ⟨hreached.ready, ?_⟩ hgo, trivial⟩
      have := hreached.addressed 0 (Nat.zero_le k)
      rwa [hzero] at this

/-! ## What a read sees of the disk

A reader copies a sector at a time and stops at the size, so of the last sector it copies a part,
and of a sector behind the place where the drive fails it copies nothing. Two disks are alike to it
if they are alike in what it copies; and if they are not there is a course of the drive that shows
it.
-/

/-- How many bytes of the sector of round `i` a reader of the inode copies. -/
def readChunk (n : Inode) (i : UInt32) : Nat :=
  (if n.sizeBytes - i * 512 > 512 then (512 : UInt32) else n.sizeBytes - i * 512).toNat

/-- From round `i` on, a reader of the inode over a drive that lets it gets to round `i + j`. -/
def Reached (n : Inode) (todo : Nat) (i : UInt32) (j : Nat) : Prop :=
  j < todo ∧ ∀ k ≤ j, ataSelectLba28 (n.startLba + (i + UInt32.ofNat k)) 1 = true

/-- What the reader copies in that round. -/
def copied (n : Inode) (i : UInt32) (d : Nat → Sector) (j : Nat) : List UInt8 :=
  (d (n.startLba + (i + UInt32.ofNat j)).toNat).bytes.take (readChunk n (i + UInt32.ofNat j))

theorem Reached.succ {n : Inode} {todo j : Nat} {i : UInt32} :
    Reached n (todo + 1) i (j + 1) ↔
      ataSelectLba28 (n.startLba + i) 1 = true ∧ Reached n todo (i + 1) j := by
  have hzero : n.startLba + (i + UInt32.ofNat 0) = n.startLba + i := by simp
  refine ⟨fun ⟨hj, h⟩ => ⟨?_, by omega, fun k hk => ?_⟩, fun ⟨h₀, hj, h⟩ => ⟨by omega, fun k hk => ?_⟩⟩
  · rw [← hzero]; exact h 0 (by omega)
  · rw [← round_succ]; exact h (k + 1) (by omega)
  · cases k with
    | zero => rw [hzero]; exact h₀
    | succ k => rw [round_succ]; exact h k (by omega)

theorem copied_succ (n : Inode) (i : UInt32) (d : Nat → Sector) (j : Nat) :
    copied n i d (j + 1) = copied n (i + 1) d j := by
  rw [copied, copied, round_succ, show i + UInt32.ofNat (j + 1) = i + 1 + UInt32.ofNat j from
    (UInt32.add_right_inj 0).mp (round_succ 0 i j)]

/-- One round of the loop. -/
theorem fsReadSectors_round {cap : Nat} (n : Inode) (todo : Nat) (i : UInt32) (buf : Buffer cap)
    {a : Ata} (hready : a.ready = true) (hsel : ataSelectLba28 (n.startLba + i) 1 = true) :
    fsReadSectors n (todo + 1) i buf a =
      if a.outcome 0 = .ok then
        buf.copyInto (i * 512).toNat (copied n i a.sector 0) >>= fun b =>
          fsReadSectors n todo (i + 1) b (a.skip 1)
      else .ok (false, buf, a.skip 1) := by
  have hzero : i + UInt32.ofNat 0 = i := by simp
  obtain ⟨ss, hread, hss⟩ := ataRead28_eq hready hsel
  simp only [fsReadSectors, hread]
  by_cases hok : a.outcome 0 = .ok
  · rw [if_pos hok, hss hok, hok, copied, hzero]
    rfl
  · have hbad : (a.outcome 0 == Outcome.ok) = false := by simpa using hok
    rw [if_neg hok, hbad]

theorem fsReadSectors_refused {cap : Nat} (n : Inode) (todo : Nat) (i : UInt32) (buf : Buffer cap)
    {a : Ata} (h : ¬ (a.ready = true ∧ ataSelectLba28 (n.startLba + i) 1 = true)) :
    fsReadSectors n (todo + 1) i buf a = .ok (false, buf, a) := by
  have hread : ataRead28 (n.startLba + i) 1 a = (false, [], a) := by
    rw [ataRead28, if_pos]
    rw [Bool.or_eq_true, Bool.not_eq_true', Bool.not_eq_true', ← Bool.not_eq_true,
      ← Bool.not_eq_true, ← not_and_or]
    exact h
  simp only [fsReadSectors, hread]

/-- **Two disks that look the same to a reader**: the loop makes the same of them. -/
theorem fsReadSectors_congr {cap : Nat} (n : Inode) : ∀ (todo : Nat) (i : UInt32)
    (buf : Buffer cap) (a a' : Ata), a'.ready = a.ready → a'.script = a.script →
    (∀ j, Reached n todo i j → copied n i a'.sector j = copied n i a.sector j) →
    (fsReadSectors n todo i buf a').map (fun r => (r.1, r.2.1)) =
      (fsReadSectors n todo i buf a).map fun r => (r.1, r.2.1)
  | 0, _, _, _, _, _, _, _ => rfl
  | todo + 1, i, buf, a, a', hready, hscript, hsame => by
    by_cases hgo : a.ready = true ∧ ataSelectLba28 (n.startLba + i) 1 = true
    · have houtcome : a'.outcome 0 = a.outcome 0 := by rw [Ata.outcome, Ata.outcome, hscript]
      have hzero : n.startLba + (i + UInt32.ofNat 0) = n.startLba + i := by simp
      rw [fsReadSectors_round n todo i buf hgo.1 hgo.2,
        fsReadSectors_round n todo i buf (hready.trans hgo.1) hgo.2, houtcome,
        hsame 0 ⟨by omega, fun k hk => by rw [Nat.le_zero.mp hk, hzero]; exact hgo.2⟩]
      split
      · cases buf.copyInto (i * 512).toNat (copied n i a.sector 0) with
        | error o => rfl
        | ok b =>
          refine fsReadSectors_congr n todo (i + 1) b (a.skip 1) (a'.skip 1) hready
            (by simp only [Ata.skip, hscript]) fun j hj => ?_
          rw [Ata.skip_sector, Ata.skip_sector, ← copied_succ, ← copied_succ]
          exact hsame (j + 1) (Reached.succ.mpr ⟨hgo.2, hj⟩)
      · rfl
    · rw [fsReadSectors_refused n todo i buf hgo,
        fsReadSectors_refused n todo i buf (by rw [hready]; exact hgo)]
      rfl

/-- The course of a drive that answers the read of round `j`, and not the next one. -/
def untilRound (j : Nat) : List Outcome := List.replicate (j + 1) .ok ++ [.fault 0]

/-- **Stopped behind a round, a read leaves what the round copied** where it copied it. -/
theorem fsReadSectors_until {cap : Nat} (n : Inode) (hcap : 2 ^ 32 + 512 ≤ cap) :
    ∀ (j todo : Nat) (i : UInt32) (buf : Buffer cap) (a : Ata), a.ready = true →
      Reached n todo i j → ∃ ok buf' a',
        fsReadSectors n todo i buf (a.withScript (untilRound j)) = .ok (ok, buf', a') ∧
          buf'.slice ((i + UInt32.ofNat j) * 512).toNat (copied n i a.sector j).length =
            copied n i a.sector j
  | j, todo + 1, i, buf, a, hready, hreached => by
    have hzero : n.startLba + (i + UInt32.ofNat 0) = n.startLba + i := by simp
    have hsel : ataSelectLba28 (n.startLba + i) 1 = true := by
      rw [← hzero]; exact hreached.2 0 (Nat.zero_le _)
    have hroom : ∀ (l : UInt32) (m : Nat),
        (l * 512).toNat + (copied n i a.sector m).length ≤ cap := fun l m => by
      have hoff := (l * 512).toNat_lt
      have hlength : (copied n i a.sector m).length ≤ 512 := by
        rw [copied, List.length_take]
        exact (Nat.min_le_right _ _).trans (Block.length_bytes _).le
      omega
    obtain ⟨b, hb, hcontents⟩ := Buffer.copyInto_of_le (b := buf) (hroom i 0)
    have hround := fsReadSectors_round n todo i buf (a := a.withScript (untilRound j)) hready hsel
    rw [if_pos (by simp [untilRound, List.replicate_succ]), Ata.withScript_sector, hb] at hround
    rw [hround]
    cases j with
    | zero =>
      -- the round is over, and the next one, if there is one, moves nothing
      have hslice : b.slice ((i + UInt32.ofNat 0) * 512).toNat (copied n i a.sector 0).length =
          copied n i a.sector 0 := by
        have hi : i + UInt32.ofNat 0 = i := by simp
        rw [hi, b.slice_eq (Nat.le_refl _), hcontents, List.drop_left' (by simp [Buffer.contents]),
          List.take_length]
      cases todo with
      | zero => exact ⟨_, b, _, rfl, hslice⟩
      | succ todo =>
        by_cases hnext : ataSelectLba28 (n.startLba + (i + 1)) 1 = true
        · refine ⟨false, b, ((a.withScript (untilRound 0)).skip 1).skip 1, ?_, hslice⟩
          simp only [bind, Except.bind]
          have hfault : ((a.withScript (untilRound 0)).skip 1).outcome 0 = .fault 0 := by
            simp [untilRound]
          rw [fsReadSectors_round n todo (i + 1) b (a := (a.withScript (untilRound 0)).skip 1) hready
            hnext, hfault, if_neg (by simp)]
        · exact ⟨false, b, _, fsReadSectors_refused n todo (i + 1) b (fun h => hnext h.2), hslice⟩
    | succ j =>
      have hrest := fsReadSectors_until n hcap j todo (i + 1) b a hready (Reached.succ.mp hreached).2
      have hskip : (a.withScript (untilRound (j + 1))).skip 1 = a.withScript (untilRound j) := by
        simp [Ata.skip, Ata.withScript, untilRound, List.replicate_succ]
      obtain ⟨ok, buf', a', hrun, hslice⟩ := hrest
      refine ⟨ok, buf', a', ?_, ?_⟩
      · simp only [bind, Except.bind]
        rw [hskip]
        exact hrun
      · rw [copied_succ, show i + UInt32.ofNat (j + 1) = i + 1 + UInt32.ofNat j from
          (UInt32.add_right_inj 0).mp (round_succ 0 i j)]
        exact hslice

/-! ## The store as its users see it

The inode that a failed write has given back is free again, and a free inode is invisible whatever
is left in it. So all that can be seen of such a write is on the disk.
-/

/-- Counters, free inodes, and what each of the three readers sees of the sessions: a read of any
    id into any buffer, whatever the drive then does, the snapshot of any size, and the listing. -/
structure SameStore (fs fs' : Fs) : Prop where
  nextFreeLba : fs'.superblock.nextFreeLba = fs.superblock.nextFreeLba
  nextSessionId : fs'.superblock.nextSessionId = fs.superblock.nextSessionId
  freeInodes : freeInodes fs'.inodes = freeInodes fs.inodes
  read : ∀ (id : UInt32) (cap : Nat) (buf : Buffer cap) (outcomes : List Outcome),
    (fsReadTraceSession id buf { fs' with ata := fs'.ata.withScript outcomes }).map
        (fun r => (r.1, r.2.1)) =
      (fsReadTraceSession id buf { fs with ata := fs.ata.withScript outcomes }).map
        fun r => (r.1, r.2.1)
  snapshot : ∀ maxEntries, fsSnapshotTraces fs' maxEntries = fsSnapshotTraces fs maxEntries
  list : fsListTraces fs' = fsListTraces fs

theorem SameStore.refl (fs : Fs) : SameStore fs fs :=
  ⟨rfl, rfl, rfl, fun _ _ _ _ => rfl, fun _ => rfl, rfl⟩

/-- No reader of a session sees a difference between two disks. -/
def SameSessions (fs : Fs) (d : Nat → Sector) : Prop :=
  ∀ id i, fsFindSession fs.inodes id = some i → ∀ j,
    Reached (fs.inodes i) (fs.inodes i).sectorCount.toNat 0 j →
      copied (fs.inodes i) 0 d j = copied (fs.inodes i) 0 fs.ata.sector j

/-- A free inode is invisible, whatever else its record says. -/
theorem fsFindSession_release {t : InodeTable} {i : Fin fsMaxInodes} {n : Inode}
    (hfree : (t i).used = 0) (hn : n.used = 0) (id : UInt32) :
    fsFindSession (Function.update t i n) id = fsFindSession t id :=
  List.find?_congr fun j _ => by
    by_cases hj : j = i
    · subst hj; rw [Function.update_self, isTrace_free hn, isTrace_free hfree]; rfl
    · rw [Function.update_of_ne hj]

section
variable {fs : Fs} {i : Fin fsMaxInodes} {n : Inode} {a : Ata}

theorem update_isTrace (hfree : (fs.inodes i).used = 0) {j : Fin fsMaxInodes}
    (hj : (fs.inodes j).isTrace = true) : Function.update fs.inodes i n j = fs.inodes j :=
  Function.update_of_ne (fun h => by
    subst h; rw [isTrace_free hfree] at hj; exact absurd hj (by simp)) _ _

/-- What `fs_read_trace_session` answers and leaves in the buffer, from the loop's answer. -/
def sessionRead {cap : Nat} (n : Inode) (r : Bool × Buffer cap × Ata) : Option UInt32 × Buffer cap :=
  (if r.1 then some n.sizeBytes else none, r.2.1)

theorem sessionRead_congr {cap : Nat} (n : Inode) {x y : Except Overrun (Bool × Buffer cap × Ata)}
    (h : x.map (fun r => (r.1, r.2.1)) = y.map fun r => (r.1, r.2.1)) :
    x.map (sessionRead n) = y.map (sessionRead n) := by
  have hmap := congrArg (Except.map fun r : Bool × Buffer cap =>
    (if r.1 then some n.sizeBytes else none, r.2)) h
  cases x <;> cases y <;> exact hmap

theorem read_found {id : UInt32} {cap : Nat} (buf : Buffer cap) (honline : fs.online = true)
    {j : Fin fsMaxInodes} (hfound : fsFindSession fs.inodes id = some j) :
    (fsReadTraceSession id buf fs).map (fun r => (r.1, r.2.1)) =
      (fsReadSectors (fs.inodes j) (fs.inodes j).sectorCount.toNat 0 buf fs.ata).map
        (sessionRead (fs.inodes j)) := by
  rw [fsReadTraceSession, hfound, fsReadInode_some honline]
  cases fsReadSectors (fs.inodes j) (fs.inodes j).sectorCount.toNat 0 buf fs.ata <;> rfl

theorem read_released {id : UInt32} {cap : Nat} (buf : Buffer cap) (honline : fs.online = true)
    (hfree : (fs.inodes i).used = 0) (hn : n.used = 0) {j : Fin fsMaxInodes}
    (hfound : fsFindSession fs.inodes id = some j) :
    (fsReadTraceSession id buf
        { fs with inodes := Function.update fs.inodes i n, ata := a }).map (fun r => (r.1, r.2.1)) =
      (fsReadSectors (fs.inodes j) (fs.inodes j).sectorCount.toNat 0 buf a).map
        (sessionRead (fs.inodes j)) := by
  have hsees := update_isTrace (n := n) hfree (fsFindSession_some hfound).1
  have hread := @read_found { fs with inodes := Function.update fs.inodes i n, ata := a } id cap buf
    honline j ((fsFindSession_release hfree hn id).trans hfound)
  rw [hread]
  simp only [hsees]

/-- **An inode given back** leaves the store as it was, when no reader of a session sees what the
    call did to the disk. -/
theorem SameStore.release (honline : fs.online = true) (hready : a.ready = fs.ata.ready)
    (hfree : (fs.inodes i).used = 0) (hn : n.used = 0) (h : SameSessions fs a.sector) :
    SameStore fs { fs with inodes := Function.update fs.inodes i n, ata := a } := by
  have hsame : ∀ j, (Function.update fs.inodes i n j).isTrace = (fs.inodes j).isTrace := fun j => by
    by_cases hj : j = i
    · subst hj; rw [Function.update_self, isTrace_free hn, isTrace_free hfree]
    · rw [Function.update_of_ne hj]
  have hfilter : (List.finRange fsMaxInodes).filter
        (fun j => (Function.update fs.inodes i n j).isTrace) =
      (List.finRange fsMaxInodes).filter fun j => (fs.inodes j).isTrace :=
    List.filter_congr fun j _ => hsame j
  have hmem : ∀ j ∈ (List.finRange fsMaxInodes).filter fun j => (fs.inodes j).isTrace,
      Function.update fs.inodes i n j = fs.inodes j :=
    fun j hj => update_isTrace hfree (by simpa using (List.mem_filter.mp hj).2)
  refine ⟨rfl, rfl, freeInodes_release hfree hn, fun id cap buf outcomes => ?_,
    fun maxEntries => ?_, ?_⟩
  · cases hfound : fsFindSession fs.inodes id with
    | none =>
      simp only [fsReadTraceSession, fsFindSession_release hfree hn, hfound]
      cases fs.online <;> simp [fsReadInode, Except.map]
    | some j =>
      have hloop := fsReadSectors_congr (fs.inodes j) (fs.inodes j).sectorCount.toNat 0 buf
        (fs.ata.withScript outcomes) (a.withScript outcomes) hready rfl (h id j hfound)
      rw [read_released buf honline hfree hn hfound,
        @read_found { fs with ata := fs.ata.withScript outcomes } id cap buf honline j hfound]
      exact sessionRead_congr (fs.inodes j) hloop
  · simp only [fsSnapshotTraces, hfilter]
    exact List.map_congr_left fun j hj => by rw [hmem j (List.mem_of_mem_take hj)]
  · simp only [fsListTraces, hfilter]
    split
    · rfl
    · exact congrArg some (List.map_congr_left fun j hj => by rw [hmem j hj])

/-- And only then: stopped behind the sector that differs, a read leaves other bytes. -/
theorem SameStore.sessions (honline : fs.online = true) (hup : fs.ata.ready = true)
    (hready : a.ready = fs.ata.ready) (hfree : (fs.inodes i).used = 0) (hn : n.used = 0)
    (h : SameStore fs { fs with inodes := Function.update fs.inodes i n, ata := a }) :
    SameSessions fs a.sector := by
  intro id j hfound l hreached
  let cap := 2 ^ 32 + 512
  have hstop := fun b : Ata => fsReadSectors_until (fs.inodes j) (Nat.le_refl cap) l
    (fs.inodes j).sectorCount.toNat 0 ⟨fun _ => 0⟩ b
  obtain ⟨ok, buf, b, hrun, hslice⟩ := hstop fs.ata hup hreached
  obtain ⟨ok', buf', b', hrun', hslice'⟩ := hstop a (hready.trans hup) hreached
  have hboth := h.read id cap ⟨fun _ => 0⟩ (untilRound l)
  rw [read_released _ honline hfree hn hfound,
    @read_found { fs with ata := fs.ata.withScript (untilRound l) } id cap _ honline j hfound] at hboth
  simp only [hrun, hrun'] at hboth
  have hbuf : buf' = buf := congrArg Prod.snd (Except.ok.inj hboth)
  refine hslice'.symm.trans (Eq.trans ?_ hslice)
  rw [hbuf, copied, copied, List.length_take, List.length_take, Block.length_bytes,
    Block.length_bytes]

end

/-! ## The exact condition

The two exceptions exclude one another, for in one the data has landed and in the other it has not.
Both are conditions on the call and the outcomes the drive has in store.
-/

/-- A call that would have gone through but for one of its two flushes. -/
structure LateFault (data : List UInt8) (fs : Fs) : Prop where
  online : fs.online = true
  space : fsNoSpace fs.superblock (sectorsOf data) = false
  inode : ∃ i, (fs.inodes i).used = 0
  lands : DataLands data fs
  faults : FlushFaults data fs

/-- A call whose data did not land, and of which a sector that was written is one that a session
    is read from, with other bytes than it had where the reader copies them. -/
structure Spoils (data : List UInt8) (fs : Fs) : Prop where
  online : fs.online = true
  space : fsNoSpace fs.superblock (sectorsOf data) = false
  inode : ∃ i, (fs.inodes i).used = 0
  misses : ¬ DataLands data fs
  overwrites : ∃ k < (sectorsOf data).toNat, Moved fs.superblock.nextFreeLba 0 fs.ata k ∧
    ∃ id i j, fsFindSession fs.inodes id = some i ∧
      Reached (fs.inodes i) (fs.inodes i).sectorCount.toNat 0 j ∧
      (fs.inodes i).startLba + UInt32.ofNat j = fs.superblock.nextFreeLba + UInt32.ofNat k ∧
      (dataSector data (bytesOf data) (UInt32.ofNat k)).bytes.take
          (readChunk (fs.inodes i) (UInt32.ofNat j)) ≠
        (fs.ata.sector ((fs.inodes i).startLba + UInt32.ofNat j).toNat).bytes.take
          (readChunk (fs.inodes i) (UInt32.ofNat j))

/-- Where the extents of the sessions lie below the mark, nothing is spoiled. -/
theorem Allocated.not_spoils {fs : Fs} (h : Allocated fs.superblock fs.inodes)
    (data : List UInt8) : ¬ Spoils data fs := by
  rintro ⟨-, -, -, -, k, hk, htaken, id, i, j, hfound, hreached, haddr, -⟩
  have hin := h.packed.within i _ (extentOf_used (isTrace_used (fsFindSession_some hfound).1))
  have hmark := h.mark_le
  have hsectors : (sectorsOf data).toNat < 2 ^ 23 := fsSectorsFor_lt (bytesOf data)
  have hj := hreached.1
  simp only [Extent.stop] at hin
  have hnat := congrArg UInt32.toNat haddr
  rw [UInt32.toNat_add, UInt32.toNat_add, UInt32.toNat_ofNat', UInt32.toNat_ofNat'] at hnat
  omega

/-- What data that does not land does to the disk is seen by a reader exactly when it spoils. -/
theorem sameSessions_iff {data : List UInt8} {fs : Fs} {a : Ata} (honline : fs.online = true)
    (hspace : fsNoSpace fs.superblock (sectorsOf data) = false)
    (hinode : ∃ i, (fs.inodes i).used = 0) (hmisses : ¬ DataLands data fs)
    (hwrote : (fsWriteData data fs).2 = a) : SameSessions fs a.sector ↔ ¬ Spoils data fs := by
  have hloop := fsWriteSectors_sector data (bytesOf data) fs.superblock.nextFreeLba
    (sectorsOf data).toNat 0 fs.ata
  rw [show fsWriteSectors data (bytesOf data) fs.superblock.nextFreeLba (sectorsOf data).toNat 0
    fs.ata = fsWriteData data fs from rfl, hwrote] at hloop
  simp only [UInt32.zero_add] at hloop
  constructor
  · rintro hsame ⟨-, -, -, -, k, hk, htaken, id, i, j, hfound, hreached, haddr, hdiffer⟩
    have hcopied := hsame id i hfound j hreached
    simp only [copied, UInt32.zero_add] at hcopied
    refine hdiffer (Eq.trans ?_ hcopied)
    rcases hloop ((fs.inodes i).startLba + UInt32.ofNat j).toNat with
      ⟨l, hl, -, hladdr, heq⟩ | ⟨hnone, -⟩
    · -- one round writes that sector, so it is this one
      have hnat : UInt32.ofNat l = UInt32.ofNat k :=
        (UInt32.add_right_inj _).mp ((UInt32.toNat_inj.mp hladdr).trans haddr)
      rw [heq, hnat]
    · exact absurd (congrArg UInt32.toNat haddr.symm) (hnone k hk htaken)
  · intro hkept id i hfound j hreached
    by_contra hdiffer
    simp only [copied, UInt32.zero_add] at hdiffer
    rcases hloop ((fs.inodes i).startLba + UInt32.ofNat j).toNat with
      ⟨k, hk, htaken, haddr, heq⟩ | ⟨-, heq⟩
    · refine hkept ⟨honline, hspace, hinode, hmisses, k, hk, htaken, id, i, j, hfound, hreached,
        (UInt32.toNat_inj.mp haddr).symm, ?_⟩
      rwa [← heq]
    · exact hdiffer (by rw [heq])

/-- Whether the commit behind landed data goes through. -/
theorem fsFlushStored_true_iff {data : List UInt8} {info : Option TraceSessionInfo} {fs : Fs}
    {i : Fin fsMaxInodes} {a : Ata} (hw : fsWriteData data fs = (true, a)) :
    (fsFlushTables (fsStored fs i (bytesOf data) info a)).1 = true ↔ ¬ FlushFaults data fs := by
  obtain ⟨hlands, hafter⟩ := fsWriteData_true_iff data fs
  rw [hw] at hlands hafter
  obtain ⟨hr, hc⟩ := hafter rfl
  have hready : a.ready = true := hr.trans (hlands.mp rfl 0 (fsSectorsFor_pos _)).1
  rw [fsFlushTables_true_iff (show (fsStored fs i (bytesOf data) info a).ata.ready = true from hready),
    FlushFaults, not_or, Decidable.not_not, Decidable.not_not]
  exact and_congr (hc 0) (hc 1)

/-- **When a failed write is atomic**: in every state, for any data and any course of the drive, a
    call that returns -1 leaves the store as it was unless the data landed and a flush behind it
    failed, or it did not and what was written of it is read as part of a session. In these two
    cases it never does. -/
theorem fsWriteTraceSession_atomic_iff (data : List UInt8) (info : Option TraceSessionInfo)
    (fs : Fs) :
    ((fsWriteTraceSession data info fs).1 = none →
        SameStore fs (fsWriteTraceSession data info fs).2) ↔
      ¬ LateFault data fs ∧ ¬ Spoils data fs := by
  have hres := fsWriteTraceSession_result data info fs
  generalize fsWriteTraceSession data info fs = r at hres ⊢
  cases hres with
  | refused why =>
    -- both exceptions are of calls that got past the three checks
    have hchecked : ¬ (fs.online = true ∧ fsNoSpace fs.superblock (sectorsOf data) = false ∧
        ∃ i, (fs.inodes i).used = 0) := by
      rintro ⟨honline, hspace, i, hi⟩
      rcases why with hoff | hfull | hnone
      · rw [honline] at hoff
        cases hoff
      · rw [hspace] at hfull
        cases hfull
      · exact hnone i hi
    exact iff_of_true (fun _ => SameStore.refl fs)
      ⟨fun h => hchecked ⟨h.online, h.space, h.inode⟩, fun h => hchecked ⟨h.online, h.space, h.inode⟩⟩
  | dataFault i t a online space alloc wrote =>
    have hfree := (fsAllocInode_some alloc).1
    have hmisses : ¬ DataLands data fs := fun h => by
      have := (fsWriteData_true_iff data fs).1.mpr h
      rw [wrote] at this
      cases this
    have hready : a.ready = fs.ata.ready := by
      have hloop := fsWriteSectors_ready data (bytesOf data) fs.superblock.nextFreeLba
        (sectorsOf data).toNat 0 fs.ata
      rwa [show fsWriteSectors data (bytesOf data) fs.superblock.nextFreeLba (sectorsOf data).toNat 0
        fs.ata = (false, a) from wrote] at hloop
    have hwrote : (fsWriteData data fs).2 = a := congrArg Prod.snd wrote
    rw [forall_prop_of_true rfl]
    refine Iff.trans ?_ (and_iff_right fun h : LateFault data fs => hmisses h.lands).symm
    have hsessions := sameSessions_iff online space ⟨i, hfree⟩ hmisses hwrote
    refine ⟨fun h hspoils => ?_, fun h => SameStore.release online hready hfree rfl (hsessions.mpr h)⟩
    -- a drive that took a sector is ready to be read
    obtain ⟨k, -, hmoved, -⟩ := hspoils.overwrites
    exact hsessions.mp (h.sessions online hmoved.ready hready hfree rfl) hspoils
  | stored i t a online space alloc wrote =>
    have hlands := (fsWriteData_true_iff data fs).1
    rw [wrote] at hlands
    have hspoils : ¬ Spoils data fs := fun h => h.misses (hlands.mp rfl)
    rw [and_iff_left hspoils]
    have hflush := @fsFlushStored_true_iff data info fs i a wrote
    by_cases hok : (fsFlushTables (fsStored fs i (bytesOf data) info a)).1 = true
    · refine iff_of_true (fun h => absurd h (by simp [hok])) fun hlate => ?_
      exact hflush.mp hok hlate.faults
    · have hfaults : FlushFaults data fs := not_not.mp fun h => hok (hflush.mpr h)
      refine iff_of_false (fun h => ?_) (not_not_intro
        ⟨online, space, ⟨i, (fsAllocInode_some alloc).1⟩, hlands.mp rfl, hfaults⟩)
      -- the mark has moved by a whole extent, and no extent is empty
      have hmoved := (h (by simp [hok])).nextFreeLba
      rw [fsFlushTables_memory] at hmoved
      have hpos := fsSectorsFor_pos (bytesOf data)
      have hlt := fsSectorsFor_lt (bytesOf data)
      have htoNat := congrArg UInt32.toNat hmoved
      simp only [fsStored, UInt32.toNat_add] at htoNat
      have := fs.superblock.nextFreeLba.toNat_lt
      omega

/-- A healthy store whose next superblock flush fails: the -1 it answers has used up an inode,
    a sector and a session id, and the session it "did not store" can be read back. -/
theorem fsWriteTraceSession_lateFault :
    let fs : Fs := { fsBoot (driveWith formattedSuperblock fun _ => Inode.zero) with
      ata := { (fsBoot (driveWith formattedSuperblock fun _ => Inode.zero)).ata with
        script := [.ok, .ok, .fault 0] } }
    (fsWriteTraceSession [1, 2, 3] none fs).1 = none ∧
      ¬ SameStore fs (fsWriteTraceSession [1, 2, 3] none fs).2 := by
  refine ⟨by decide +kernel, fun h => ?_⟩
  exact absurd h.nextSessionId (by decide +kernel)

/-- A store that holds session 1 with its superblock still the one before, as a reset between the
    two flushes leaves it: a write whose only sector is moved, and then fails, is answered with -1,
    and session 1 reads differently. -/
theorem fsWriteTraceSession_spoils :
    let booted := fsBoot (driveWith formattedSuperblock fun _ => Inode.zero)
    let torn : Fs := { (fsWriteTraceSession [1] none booted).2 with superblock := booted.superblock }
    let fs : Fs := { torn with ata := torn.ata.withScript [.fault 1] }
    let seen := fun fs : Fs => (fsReadTraceSession 1 (⟨fun _ => 0⟩ : Buffer 1) fs).map
      fun r => (r.1, r.2.1.contents 1)
    (fsWriteTraceSession [7] none fs).1 = none ∧ seen torn = .ok (some 1, [1]) ∧
      seen (fsWriteTraceSession [7] none fs).2 = .ok (some 1, [7]) := by
  exact ⟨by decide +kernel, by decide +kernel, by decide +kernel⟩

end Proof
end BumbelBee
