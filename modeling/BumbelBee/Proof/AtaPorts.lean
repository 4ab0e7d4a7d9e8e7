import BumbelBee.Kernel.AtaPorts
import BumbelBee.Lib.Run
import Mathlib.Data.List.GetD

/-!
# Is the driver what the filesystem takes it for?

The filesystem is proved over `Kernel/Ata.lean`, where a command moves whole sectors and then has
completed or failed. Over a drive that never keeps the driver waiting for longer than it is ready
to, the driver's loops are that (`ata_ports_refine`), with one exception: between the last sector
of a write and the flush behind it nobody asks for an error, and the flush clears it
(`ata_write28_lost_iff`). An error that is asked for stays for good (`ata_failure_is_final`).

Three things stand between the two models. A status read is an event: it counts down what the drive
is busy with, and a poll loop that ends too early sees the state before. A failure shows in a bit
that some of the loops look at and others do not. And the bit stays until the next command, which
the driver does not send while it is set. The proof goes through the state a piece of work ends in
(`Drive.settled`), so that how many polls it took matters only where the driver does not wait for
it: behind the last sector of a write.
-/

namespace BumbelBee
namespace Proof

open Lib Kernel
open Kernel.Pio

variable {d : Drive}

/-! ## Waiting

A poll loop has a bound, and a drive that stays busy for longer looks to it as one that failed.
`Punctual` excludes this; then the loop ends in the state the work ends in, and how often it polled
is forgotten.
-/

/-- The driver's bound. -/
abbrev Punctual (d : Drive) : Prop := d.Within 1000000

theorem inb_status : inb ataRegStatus = Drive.inStatus := rfl

theorem ataIoDelay_eq (d : Drive) : ataIoDelay d = d.poll.poll.poll.poll := rfl

@[simp] theorem settled_delay (d : Drive) : (ataIoDelay d).settled = d.settled := by
  simp only [ataIoDelay_eq, Drive.settled_poll]

@[simp] theorem delay_reactions (d : Drive) : (ataIoDelay d).reactions = d.reactions := by
  simp only [ataIoDelay_eq, Drive.poll_reactions]

theorem Punctual.delay (h : Punctual d) : Punctual (ataIoDelay d) := h.poll.poll.poll.poll

theorem delay_of_idle {e : Bool} (h : d.phase = .idle e) : ataIoDelay d = d := by
  have hpoll : d.poll = d := Drive.poll_of_ne fun r polls w => by
    rw [h]
    exact Phase.noConfusion
  simp only [ataIoDelay_eq, hpoll]

theorem busy_undecided (bits : UInt8) : clearOfBsy (Drive.bsy ||| bits) = none := by
  have hbsy : (Drive.bsy ||| bits) &&& ataSrBsy ≠ 0 := by
    rw [Drive.or_and_right]
    intro hzero
    exact absurd (UInt8.or_eq_zero_iff.mp hzero).1 (by decide)
  exact if_neg hbsy

theorem busy_undecided_drq (bits : UInt8) (h : bits &&& Drive.err = 0) :
    readyForData (Drive.bsy ||| bits) = none := by
  have herr : (Drive.bsy ||| bits) &&& ataSrErr = 0 := by
    rw [Drive.or_and_right]
    exact UInt8.or_eq_zero_iff.mpr ⟨by decide, h⟩
  have hbsy : (Drive.bsy ||| bits) &&& ataSrBsy ≠ 0 := by
    rw [Drive.or_and_right]
    intro hzero
    exact absurd (UInt8.or_eq_zero_iff.mp hzero).1 (by decide)
  rw [readyForData, if_neg (not_not.mpr herr), if_neg fun hready => hbsy hready.1]

/-- **Waiting for BSY** to go away: the work is waited for, and an error that is there is
    reported. -/
theorem ataWaitClearBsy_eq (h : Punctual d) :
    ataWaitClearBsy d = (decide (d.settled.status &&& ataSrErr = 0), d.settled) := by
  have hundecided : ∀ bits : UInt8, bits &&& Drive.err = 0 →
      clearOfBsy (Drive.bsy ||| bits) = none := fun bits _ => busy_undecided bits
  have hpoll := Drive.pollFor_settled hundecided
    (fun r polls w hbusy => (h.present r polls w hbusy).1) h (by decide)
    (if_pos d.status_bsy)
  rw [ataWaitClearBsy, inb_status, hpoll]

theorem ataWaitClearBsy_idle (h : Punctual d) {e : Bool} (hphase : d.settled.phase = .idle e) :
    ataWaitClearBsy d = (!e, d.settled) := by
  rw [ataWaitClearBsy_eq h, Drive.status, hphase]
  cases e <;> rfl

/-- **Waiting for DRQ**, of a drive that will fail or has a sector to move. -/
theorem ataWaitDrq_failed (h : Punctual d) (hphase : d.settled.phase = .idle true) :
    ataWaitDrq d = (false, d.settled) := by
  have hdone : readyForData d.settled.status = some false := by
    rw [Drive.status, hphase]
    rfl
  have hpoll := Drive.pollFor_settled busy_undecided_drq
    (fun r polls w hbusy => (h.present r polls w hbusy).1) h (by decide) hdone
  rw [ataWaitDrq, inb_status, hpoll]

theorem ataWaitDrq_ready (h : Punctual d)
    (hstatus : d.settled.status = Drive.drdy ||| Drive.drq) :
    ataWaitDrq d = (true, d.settled) := by
  have hdone : readyForData d.settled.status = some true := by
    rw [hstatus]
    rfl
  have hpoll := Drive.pollFor_settled busy_undecided_drq
    (fun r polls w hbusy => (h.present r polls w hbusy).1) h (by decide) hdone
  rw [ataWaitDrq, inb_status, hpoll]

/-! ## Reading sectors -/

/-- The words of a sector. -/
def sectorWords (s : Sector) : List UInt16 := wordsOf s.bytes

theorem length_sectorWords (s : Sector) : (sectorWords s).length = 256 :=
  length_wordsOf (n := 256) s.size

/-- The drive is idle, and has stored what it had and so many sectors more. -/
structure Rests (d : Drive) (e : Bool) (ws : List (Nat × Sector)) (d' : Drive) : Prop where
  prompt : Punctual d'
  phase : d'.phase = .idle e
  image : d'.image = d.image
  writes : d'.writes = d.writes ++ ws
  reactions : d'.reactions <:+ d.reactions

theorem Rests.trans {d d' d'' : Drive} {e' : Bool} {ws ws' : List (Nat × Sector)}
    (h : d'.image = d.image ∧ d'.writes = d.writes ++ ws ∧ d'.reactions <:+ d.reactions)
    (h' : Rests d' e' ws' d'') : Rests d e' (ws ++ ws') d'' where
  prompt := h'.prompt
  phase := h'.phase
  image := h'.image.trans h.1
  writes := by rw [h'.writes, h.2.1, List.append_assoc]
  reactions := h'.reactions.trans h.2.2

/-- What is begun uses up one reaction. -/
theorem begin_suffix (w : Work) (d : Drive) : (d.begin w).settled.reactions <:+ d.reactions := by
  rw [Drive.settled_reactions, Drive.begin_reactions]
  exact List.tail_suffix _

/-- A piece of work that stores nothing, begun by a drive that has not moved on. -/
theorem begin_medium {d d₀ : Drive} {w : Work} (himage₀ : d₀.image = d.image)
    (hwrites₀ : d₀.writes = d.writes) (hreactions₀ : d₀.reactions = d.reactions)
    (himage : (d₀.begin w).settled.image = d₀.image)
    (hwrites : (d₀.begin w).settled.writes = d₀.writes) :
    (d₀.begin w).settled.image = d.image ∧ (d₀.begin w).settled.writes = d.writes ++ [] ∧
      (d₀.begin w).settled.reactions <:+ d.reactions := by
  refine ⟨himage.trans himage₀, ?_, ?_⟩
  · rw [hwrites, hwrites₀, List.append_nil]
  · rw [← hreactions₀]
    exact begin_suffix w d₀

/-- A sector that was read: the next is fetched. -/
theorem settled_fetch (lba left : Nat) (d : Drive) :
    (d.begin (.fetch lba left)).settled.image = d.image ∧
    (d.begin (.fetch lba left)).settled.writes = d.writes ∧
    ((d.begin (.fetch lba left)).settled.phase = .idle true ∨
      (d.begin (.fetch lba left)).settled.phase =
        .dataIn lba left (sectorWords (d.sector lba))) := by
  rw [Drive.settled_begin, Drive.finish]
  split
  · exact ⟨rfl, rfl, Or.inl rfl⟩
  · exact ⟨rfl, rfl, Or.inr rfl⟩

theorem readSectors_failed (h : Punctual d) (hphase : d.settled.phase = .idle true) (todo : Nat) :
    readSectors (todo + 1) d = (false, [], d.settled) := by
  rw [readSectors, ataWaitDrq_failed h hphase]

theorem readSectors_round (h : Punctual d) {lba left : Nat} {s : Sector}
    (hphase : d.settled.phase = .dataIn lba left (sectorWords s)) (todo : Nat) :
    readSectors (todo + 1) d =
      ((readSectors todo (ataIoDelay (d.settled.readOn lba left))).1,
        sectorWords s ++ (readSectors todo (ataIoDelay (d.settled.readOn lba left))).2.1,
        (readSectors todo (ataIoDelay (d.settled.readOn lba left))).2.2) := by
  have hstatus : d.settled.status = Drive.drdy ||| Drive.drq := by rw [Drive.status, hphase]
  have hwords := Drive.readTimes_inData hphase
    (List.ne_nil_of_length_pos (by rw [length_sectorWords]; decide))
  rw [length_sectorWords] at hwords
  have hport : inw ataRegData = Drive.inData := rfl
  simp only [readSectors, ataWaitDrq_ready h hstatus, hport, hwords]

/-- **The loop of a read.** -/
theorem readSectors_spec : ∀ {n : Nat} {d : Drive} {lba : Nat}, Punctual d →
    d.settled.phase = .idle true ∨
      d.settled.phase = .dataIn lba n (sectorWords (d.settled.sector lba)) →
    ∃ moved ≤ n + 1, ∃ d', readSectors (n + 1) d = (decide (moved = n + 1),
        (readSpan d.settled.sector lba moved).flatMap sectorWords, d') ∧
      Rests d.settled (decide (moved ≠ n + 1)) [] d' := by
  intro n
  induction n with
  | zero =>
    intro d lba h hready
    rcases hready with hfailed | hready
    · refine ⟨0, Nat.zero_le _, d.settled, readSectors_failed h hfailed 0, ?_⟩
      exact ⟨h.settled, hfailed, rfl, (List.append_nil _).symm, List.suffix_refl _⟩
    · have hidle : ataIoDelay (d.settled.readOn lba 0) = { d.settled with phase := .idle false } :=
        delay_of_idle (e := false) rfl
      refine ⟨1, Nat.le_refl _, { d.settled with phase := .idle false }, ?_, ?_⟩
      · rw [readSectors_round h hready, hidle]
        simp [readSectors, readSpan]
      · exact ⟨⟨h.settled.coming, fun r polls w hbusy => Phase.noConfusion hbusy⟩, rfl, rfl,
          (List.append_nil _).symm, List.suffix_refl _⟩
  | succ n ih =>
    intro d lba h hready
    rcases hready with hfailed | hready
    · refine ⟨0, Nat.zero_le _, d.settled, readSectors_failed h hfailed (n + 1), ?_⟩
      exact ⟨h.settled, hfailed, rfl, (List.append_nil _).symm, List.suffix_refl _⟩
    · -- what comes behind the first sector is such a loop again
      obtain ⟨himage, hwrites, hphase⟩ := settled_fetch (lba + 1) n d.settled
      set next := d.settled.begin (.fetch (lba + 1) n)
      have hnext : Punctual next := h.settled.begin (by decide) _
      have hsector : next.settled.sector = d.settled.sector := by
        rw [Drive.sector, Drive.sector, himage, hwrites]
      rw [← hsector, ← settled_delay next] at hphase
      obtain ⟨moved, hmoved, d', hrun, hrests⟩ := ih (Punctual.delay hnext) hphase
      rw [settled_delay] at hrun hrests
      have hround := readSectors_round h hready (n + 1)
      have hon : d.settled.readOn lba (n + 1) = next := rfl
      rw [hon, hrun, hsector] at hround
      refine ⟨moved + 1, by omega, d', ?_, ?_⟩
      · rw [hround, readSpan_succ, List.flatMap_cons]
        simp
      · have hall := Rests.trans (begin_medium rfl rfl rfl himage hwrites) hrests
        simpa using hall

/-! ## Writing sectors -/

theorem pad_sectorWords (s : Sector) : Block.pad 512 ((sectorWords s).flatMap putU16) = s := by
  have hbytes : (sectorWords s).flatMap putU16 = s.bytes := wordsOf_bytes (n := 256) s.size
  rw [hbytes, Block.pad_bytes]

/-- The words that the inner loop hands over are a sector's. -/
theorem bufferWords : ∀ {buf : List Sector} {k : Nat} (hk : k < buf.length),
    (List.range 256).map (fun i => (buf.flatMap sectorWords).getD (k * 256 + i) 0) =
      sectorWords buf[k] := by
  intro buf
  induction buf with
  | nil => exact fun hk => absurd hk (Nat.not_lt_zero _)
  | cons s buf ih =>
    intro k hk
    have hlength := length_sectorWords s
    cases k with
    | zero =>
      apply List.ext_getElem
      · rw [List.length_map, List.length_range, List.getElem_cons_zero, hlength]
      · intro i hi _
        rw [List.length_map, List.length_range] at hi
        rw [List.getElem_map, List.getElem_range, List.flatMap_cons, Nat.zero_mul, Nat.zero_add,
          List.getD_append _ _ _ _ (by rw [hlength]; exact hi),
          List.getD_eq_getElem _ _ (by rw [hlength]; exact hi)]
        rfl
    | succ k =>
      have hrest := ih (k := k) (Nat.lt_of_succ_lt_succ hk)
      rw [List.getElem_cons_succ, ← hrest]
      apply List.map_congr_left
      intro i _
      have hbehind : (k + 1) * 256 + i - 256 = k * 256 + i := by omega
      rw [List.flatMap_cons, List.getD_append_right _ _ _ _ (by rw [hlength]; omega), hlength,
        hbehind]

theorem writeSectors_failed (h : Punctual d) (hphase : d.settled.phase = .idle true)
    (src : List UInt16) (sector todo : Nat) :
    writeSectors src sector (todo + 1) d = (false, d.settled) := by
  rw [writeSectors, ataWaitDrq_failed h hphase]

theorem writeSectors_round (h : Punctual d) {lba left : Nat}
    (hphase : d.settled.phase = .dataOut lba left []) {buf : List Sector} {k : Nat}
    (hk : k < buf.length) (todo : Nat) :
    writeSectors (buf.flatMap sectorWords) k (todo + 1) d =
      writeSectors (buf.flatMap sectorWords) (k + 1) todo
        (ataIoDelay (d.settled.begin (.store lba left buf[k]))) := by
  have hstatus : d.settled.status = Drive.drdy ||| Drive.drq := by rw [Drive.status, hphase]
  have hlength := length_sectorWords buf[k]
  have hwords : sectorWords buf[k] ≠ [] := List.ne_nil_of_length_pos (by rw [hlength]; decide)
  have hstored := Drive.foldl_outData hphase hwords (by rw [hlength]; rfl)
  rw [List.nil_append, pad_sectorWords, ← bufferWords hk, List.foldl_map] at hstored
  have hport : outw ataRegData = Drive.outData := rfl
  simp only [writeSectors, ataWaitDrq_ready h hstatus, hport, hstored]

/-- A sector that was handed over: it is stored, or the drive has failed. -/
theorem settled_store (lba left : Nat) (s : Sector) (d : Drive) :
    (d.begin (.store lba left s)).settled.image = d.image ∧
    (d.begin (.store lba left s)).settled.writes =
      d.writes ++ (if d.next.fails then [] else [(lba, s)]) ∧
    (d.begin (.store lba left s)).settled.phase =
      if d.next.fails then .idle true else Drive.storedOn lba left := by
  rw [Drive.settled_begin, Drive.finish]
  cases d.next.fails with
  | true => exact ⟨rfl, (List.append_nil _).symm, rfl⟩
  | false => exact ⟨rfl, rfl, rfl⟩

/-- The coming so many pieces of work go well. -/
def GoesWell (n : Nat) (d : Drive) : Prop := ∀ r ∈ d.reactions.take n, r.fails = false

theorem goesWell_succ {n : Nat} {d d' : Drive} (h : d'.reactions = d.reactions.tail) :
    GoesWell (n + 1) d ↔ d.next.fails = false ∧ GoesWell n d' := by
  unfold GoesWell Drive.next
  rw [h]
  cases d.reactions with
  | nil => simp
  | cons r rest => simp

/-- **The loop of a write.** All but the last sector are stored when it ends well, and that one is
    the drive's; or it has stopped behind some of them. -/
theorem writeSectors_spec {buf : List Sector} : ∀ {n k : Nat} {d : Drive} {lba : Nat}, Punctual d →
    (hlength : k + n + 1 = buf.length) → d.settled.phase = .dataOut lba n [] →
    (GoesWell n d ∧ ∃ d₁, Punctual d₁ ∧ d₁.image = d.settled.image ∧
      d₁.writes = d.settled.writes ++ span lba ((buf.drop k).take n) ∧
      d₁.reactions = d.reactions.drop n ∧
      writeSectors (buf.flatMap sectorWords) k (n + 1) d =
        (true, ataIoDelay (d₁.begin (.store (lba + n) 0 buf[k + n])))) ∨
    (¬ GoesWell n d ∧ ∃ moved < n, ∃ d',
      writeSectors (buf.flatMap sectorWords) k (n + 1) d = (false, d') ∧
      Rests d.settled true (span lba ((buf.drop k).take moved)) d') := by
  intro n
  induction n with
  | zero =>
    intro k d lba h hlength hphase
    refine Or.inl ⟨by simp [GoesWell], d.settled, h.settled, rfl, by simp [span], by simp, ?_⟩
    rw [writeSectors_round h hphase (by omega)]
    rfl
  | succ n ih =>
    intro k d lba h hlength hphase
    have hk : k < buf.length := by omega
    have hround := writeSectors_round h hphase hk (n + 1)
    obtain ⟨himage, hwrites, hnext⟩ := settled_store lba (n + 1) buf[k] d.settled
    have hprompt : Punctual (d.settled.begin (.store lba (n + 1) buf[k])) :=
      h.settled.begin (by decide) _
    have hreactions : (d.settled.begin (.store lba (n + 1) buf[k])).reactions =
        d.reactions.tail := by
      rw [Drive.begin_reactions, Drive.settled_reactions]
    have hsame : d.settled.next = d.next := by rw [Drive.next, Drive.settled_reactions]; rfl
    rw [hsame] at hwrites hnext
    have hwell := goesWell_succ (n := n) hreactions
    have hsuffix := begin_suffix (.store lba (n + 1) buf[k]) d.settled
    set next := d.settled.begin (.store lba (n + 1) buf[k])
    have hdrop : buf.drop k = buf[k] :: buf.drop (k + 1) := List.drop_eq_getElem_cons hk
    cases hfails : d.next.fails with
    | true =>
      -- the sector was not stored, and the loop finds the error
      rw [hfails, if_pos rfl] at hnext hwrites
      have hstop := writeSectors_failed (Punctual.delay hprompt)
        (by rw [settled_delay]; exact hnext) (buf.flatMap sectorWords) (k + 1) n
      refine Or.inr ⟨fun hgood => ?_, 0, Nat.succ_pos n, next.settled, ?_, ?_⟩
      · rw [hwell, hfails] at hgood
        exact absurd hgood.1 (by decide)
      · rw [hround, hstop, settled_delay]
      · exact ⟨hprompt.settled, hnext, himage, hwrites, hsuffix⟩
    | false =>
      rw [hfails, if_neg (by decide)] at hnext hwrites
      have hspan : ∀ j, span lba ((buf.drop k).take (j + 1)) =
          (lba, buf[k]) :: span (lba + 1) ((buf.drop (k + 1)).take j) := by
        intro j
        rw [hdrop, List.take_succ_cons, span]
      have hlater : GoesWell (n + 1) d ↔ GoesWell n (ataIoDelay next) := by
        rw [hwell, hfails, and_iff_right rfl, GoesWell, GoesWell, delay_reactions]
      rw [← settled_delay next] at hnext
      rcases ih (k := k + 1) (Punctual.delay hprompt) (by omega) hnext with
        ⟨hgood, d₁, hd₁, himage₁, hwrites₁, hreactions₁, hrun⟩ |
        ⟨hbad, moved, hmoved, d', hrun, hrests⟩
      · rw [settled_delay] at himage₁ hwrites₁
        refine Or.inl ⟨hlater.mpr hgood, d₁, hd₁, himage₁.trans himage, ?_, ?_, ?_⟩
        · rw [hwrites₁, hwrites, hspan, List.append_assoc]
          rfl
        · rw [hreactions₁, delay_reactions, hreactions, List.drop_tail]
        · have hplace : lba + 1 + n = lba + (n + 1) := by omega
          have hsector : buf[k + 1 + n] = buf[k + (n + 1)] := by
            congr 1
            omega
          rw [hround, hrun, hplace, hsector]
      · rw [settled_delay] at hrests
        refine Or.inr ⟨fun hgood => hbad (hlater.mp hgood), moved + 1, by omega, d', ?_, ?_⟩
        · rw [hround, hrun]
        · have hall := Rests.trans ⟨himage, hwrites, hsuffix⟩ hrests
          rw [hspan]
          exact hall

/-! ## The last sector and the flush behind it -/

theorem delay_of_busy {r : Reaction} {polls : Nat} {w : Work} (h : d.phase = .busy r polls w) :
    (polls < 4 → ataIoDelay d = d.settled) ∧
    (4 ≤ polls → ataIoDelay d = { d with phase := .busy r (polls - 4) w }) := by
  have hpolls : ataIoDelay d = Drive.poll^[4] d := rfl
  rw [hpolls, Drive.iterate_poll h]
  exact ⟨fun hlt => if_pos hlt, fun hle => if_neg (Nat.not_lt.mpr hle)⟩

/-- How the piece of work behind the next fares. -/
def nextButOne (d : Drive) : Reaction := d.reactions.tail.headD ⟨0, 0, false⟩

/-- **The end of a write.** The driver gives the drive four polls to store the last sector. One
    that takes longer does not take the flush, and its error is seen; one that has failed by then
    takes it, and the error is forgotten. -/
theorem flush_spec (h : Punctual d) (lba : Nat) (s : Sector) :
    ∃ ok d', ataWaitClearBsy (outb ataRegCommand 0xe7 (ataIoDelay (d.begin (.store lba 0 s)))) =
        (ok, d') ∧
      Rests d (!ok) (if d.next.fails then [] else [(lba, s)]) d' ∧
      (ok = true ↔ if d.next.polls < 4 then (nextButOne d).fails = false
        else d.next.fails = false) := by
  have hprompt : Punctual (d.begin (.store lba 0 s)) := h.begin (by decide) _
  have hreactions := Drive.begin_reactions (.store lba 0 s) d
  have hsuffix := begin_suffix (.store lba 0 s) d
  obtain ⟨himage, hwrites, hphase⟩ := settled_store lba 0 s d
  have hbusy : (d.begin (.store lba 0 s)).phase =
      .busy d.next d.next.polls (.store lba 0 s) := by rw [Drive.begin_eq]
  obtain ⟨hquick, hslow⟩ := delay_of_busy hbusy
  set stored := d.begin (.store lba 0 s)
  have hidle : stored.settled.phase = .idle d.next.fails := by
    rw [hphase]
    cases d.next.fails <;> rfl
  by_cases hpolls : d.next.polls < 4
  · -- the sector is done with, well or not
    have hcommand : outb ataRegCommand 0xe7 stored.settled = stored.settled.begin .settle := by
      show stored.settled.outCommand 0xe7 = _
      rw [Drive.outCommand, hidle]
      rfl
    have hflush : Punctual (stored.settled.begin .settle) := hprompt.settled.begin (by decide) _
    have hfares : stored.settled.next = nextButOne d := by
      rw [Drive.next, Drive.settled_reactions, hreactions]
      rfl
    have hend : (stored.settled.begin .settle).settled = { stored.settled with
        reactions := stored.settled.reactions.tail
        phase := .idle (nextButOne d).fails } := by
      rw [Drive.settled_begin, hfares, Drive.finish]
      cases (nextButOne d).fails <;> rfl
    rw [hquick hpolls, hcommand, ataWaitClearBsy_idle hflush (by rw [hend]), hend]
    refine ⟨_, _, rfl, ?_, ?_⟩
    · exact ⟨hend ▸ hflush.settled, by rw [Bool.not_not], himage, hwrites,
        (List.tail_suffix stored.settled.reactions).trans hsuffix⟩
    · rw [if_pos hpolls, Bool.not_eq_true']
  · -- the drive is at it still
    have hdelay := hslow (by omega)
    have hcommand : outb ataRegCommand 0xe7 (ataIoDelay stored) = ataIoDelay stored := by
      show (ataIoDelay stored).outCommand 0xe7 = _
      rw [hdelay]
      rfl
    rw [hcommand, ataWaitClearBsy_idle (Punctual.delay hprompt) (by rw [settled_delay, hidle]),
      settled_delay]
    refine ⟨_, _, rfl, ?_, ?_⟩
    · exact ⟨hprompt.settled, by rw [Bool.not_not, hidle], himage, hwrites, hsuffix⟩
    · rw [if_neg hpolls, Bool.not_eq_true']

/-! ## Commands -/

/-- The driver's own check. -/
def Addressed (lba : UInt32) (count : UInt8) : Prop := lba ≤ 0x0fffffff ∧ count ≠ 0

/-- Between two calls: the drive is idle, or will be. -/
structure Resting (e : Bool) (d : Drive) : Prop where
  prompt : Punctual d
  phase : d.settled.phase = .idle e
  image : d.settled.image = d.image
  writes : d.settled.writes = d.writes

theorem select_rejected {lba : UInt32} {count : UInt8} (h : ¬ Addressed lba count)
    (command : UInt8) (d : Drive) : Pio.ataSelectLba28 lba count command d = (false, d) := by
  refine if_pos ?_
  unfold Addressed at h
  rw [not_and_or, UInt32.not_le, not_not] at h
  exact h

/-- An error that the last command ended with is in the way of the next. -/
theorem select_failed (h : Resting true d) {lba : UInt32} {count : UInt8}
    (hlba : Addressed lba count) (command : UInt8) :
    Pio.ataSelectLba28 lba count command d = (false, d.settled) := by
  have hcheck : ¬ (lba > 0x0fffffff ∨ count = 0) := by
    rintro (hbig | hnone)
    · exact absurd hlba.1 (UInt32.not_le.mpr hbig)
    · exact hlba.2 hnone
  rw [Pio.ataSelectLba28, if_neg hcheck, ataWaitClearBsy_idle h.prompt h.phase]
  rfl

/-- A byte of the address. -/
theorem lba_byte (lba : UInt32) {k : Nat} (hk : k < 32) :
    (lba >>> UInt32.ofNat k &&& 0xff).toUInt8.toNat = lba.toNat / 2 ^ k % 256 := by
  have hshift : (UInt32.ofNat k).toNat = k := UInt32.toNat_ofNat_of_lt' (by rw [UInt32.size]; omega)
  rw [UInt32.toNat_toUInt8, UInt32.toNat_and, UInt32.toNat_shiftRight, hshift,
    Nat.mod_eq_of_lt hk, Nat.shiftRight_eq_div_pow]
  have hmask := Nat.and_two_pow_sub_one_eq_mod (lba.toNat / 2 ^ k) 8
  show (lba.toNat / 2 ^ k &&& 255) % 2 ^ 8 = _
  rw [hmask]
  omega

/-- The registers give the address back. -/
theorem lba_fields {lba : UInt32} (h : lba ≤ 0x0fffffff) :
    (lba &&& 0xff).toUInt8.toNat + 2 ^ 8 * (lba >>> 8 &&& 0xff).toUInt8.toNat +
      2 ^ 16 * (lba >>> 16 &&& 0xff).toUInt8.toNat +
      2 ^ 24 * (((0xe0 : UInt8) ||| (lba >>> 24 &&& 0x0f).toUInt8).toNat % 16) = lba.toNat := by
  have hlow : (lba &&& 0xff).toUInt8.toNat = lba.toNat % 256 := by
    have hbyte := lba_byte lba (k := 0) (by decide)
    have hshift : lba >>> UInt32.ofNat 0 = lba := UInt32.shiftRight_zero
    rwa [Nat.pow_zero, Nat.div_one, hshift] at hbyte
  have hmiddle := lba_byte lba (k := 8) (by decide)
  have hhigh := lba_byte lba (k := 16) (by decide)
  have htop : (((0xe0 : UInt8) ||| (lba >>> 24 &&& 0x0f).toUInt8).toNat % 16) =
      lba.toNat / 2 ^ 24 % 16 := by
    have hmask := Nat.and_two_pow_sub_one_eq_mod (lba.toNat / 2 ^ 24) 4
    have hor := Nat.or_mod_two_pow (a := 0xe0) (b := lba.toNat / 2 ^ 24 % 16) (n := 4)
    rw [UInt8.toNat_or, UInt32.toNat_toUInt8, UInt32.toNat_and, UInt32.toNat_shiftRight]
    show (0xe0 ||| ((lba.toNat >>> 24 &&& 15) % 2 ^ 8)) % 16 = _
    have hfits : lba.toNat / 2 ^ 24 % 16 % 2 ^ 8 = lba.toNat / 2 ^ 24 % 16 := by omega
    have hsame : lba.toNat / 2 ^ 24 % 16 % 2 ^ 4 = lba.toNat / 2 ^ 24 % 16 := by omega
    rw [Nat.shiftRight_eq_div_pow, hmask, hfits]
    refine hor.trans ?_
    rw [hsame]
    exact Nat.zero_or _
  have hbound : lba.toNat < 2 ^ 28 := by
    have hle := UInt32.le_iff_toNat_le.mp h
    have hmax : (0x0fffffff : UInt32).toNat = 2 ^ 28 - 1 := rfl
    omega
  rw [hlow, htop]
  have h8 : lba >>> 8 = lba >>> UInt32.ofNat 8 := rfl
  have h16 : lba >>> 16 = lba >>> UInt32.ofNat 16 := rfl
  rw [h8, h16, hmiddle, hhigh]
  omega

/-- **A command is taken** by a drive that is idle without an error. -/
theorem select_taken (h : Resting false d) {lba : UInt32} {count : UInt8}
    (hlba : Addressed lba count) : ∃ d₀, Punctual d₀ ∧ d₀.phase = .idle false ∧
      d₀.image = d.image ∧ d₀.writes = d.writes ∧ d₀.reactions = d.reactions ∧
      d₀.lba = lba.toNat ∧ d₀.left = count.toNat - 1 ∧
      ∀ command, Pio.ataSelectLba28 lba count command d = (true, d₀.outCommand command) := by
  have hcheck : ¬ (lba > 0x0fffffff ∨ count = 0) := by
    rintro (hbig | hnone)
    · exact absurd hlba.1 (UInt32.not_le.mpr hbig)
    · exact hlba.2 hnone
  refine ⟨{ d.settled with
    count
    lba0 := (lba &&& 0xff).toUInt8
    lba1 := (lba >>> 8 &&& 0xff).toUInt8
    lba2 := (lba >>> 16 &&& 0xff).toUInt8
    select := (0xe0 : UInt8) ||| (lba >>> 24 &&& 0x0f).toUInt8 }, ?_, h.phase, h.image, h.writes,
    d.settled_reactions, lba_fields hlba.1, congrArg (· - 1) (if_neg hlba.2), fun command => ?_⟩
  · exact ⟨h.prompt.settled.coming, fun r polls w hbusy =>
      absurd hbusy (Drive.settled_phase_ne r w polls d)⟩
  · rw [Pio.ataSelectLba28, if_neg hcheck, ataWaitClearBsy_idle h.prompt h.phase]
    have hphase := h.phase
    cases hd : d.settled with
    | mk image writes reactions count' lba0 lba1 lba2 select phase =>
      rw [hd] at hphase
      subst hphase
      rfl

/-! ## A read and a write -/

/-- The commands that reach the drive. -/
theorem outCommand_read {d : Drive} (h : d.phase = .idle false) :
    d.outCommand 0x20 = d.begin (.fetch d.lba d.left) := by
  rw [Drive.outCommand, h]
  rfl

theorem outCommand_write {d : Drive} (h : d.phase = .idle false) :
    d.outCommand 0x30 = d.begin (.await d.lba d.left) := by
  rw [Drive.outCommand, h]
  rfl

theorem ataRead28_of_loop {h : Host} (hready : h.ready = true) {lba : UInt32} {count : UInt8}
    {d₁ d' : Drive} {ok : Bool} {words : List UInt16}
    (hselect : Pio.ataSelectLba28 lba count 0x20 h.drive = (true, d₁))
    (hrun : readSectors count.toNat d₁ = (ok, words, d')) :
    Pio.ataRead28 lba count h = (ok, words, { h with drive := d' }) := by
  rw [Pio.ataRead28, hready, if_neg (by decide), hselect]
  dsimp only
  rw [hrun]

theorem ataWrite28_of_loop {h : Host} (hready : h.ready = true) {lba : UInt32} {count : UInt8}
    {src : List UInt16} {d₁ d₂ d' : Drive} {ok : Bool}
    (hselect : Pio.ataSelectLba28 lba count 0x30 h.drive = (true, d₁))
    (hrun : writeSectors src 0 count.toNat d₁ = (true, d₂))
    (hflush : ataWaitClearBsy (outb ataRegCommand 0xe7 d₂) = (ok, d')) :
    Pio.ataWrite28 lba count src h = (ok, { h with drive := d' }) := by
  rw [Pio.ataWrite28, hready, if_neg (by decide), hselect]
  dsimp only
  rw [hrun]
  dsimp only
  rw [hflush]

theorem ataWrite28_of_stop {h : Host} (hready : h.ready = true) {lba : UInt32} {count : UInt8}
    {src : List UInt16} {d₁ d' : Drive}
    (hselect : Pio.ataSelectLba28 lba count 0x30 h.drive = (true, d₁))
    (hrun : writeSectors src 0 count.toNat d₁ = (false, d')) :
    Pio.ataWrite28 lba count src h = (false, { h with drive := d' }) := by
  rw [Pio.ataWrite28, hready, if_neg (by decide), hselect]
  dsimp only
  rw [hrun]

theorem Addressed.count_eq {lba : UInt32} {count : UInt8} (h : Addressed lba count) :
    ∃ n, count.toNat = n + 1 := by
  have hpos : count.toNat ≠ 0 := fun hzero => h.2 (UInt8.toNat_inj.mp hzero)
  exact ⟨count.toNat - 1, by omega⟩

/-- **A read** that is taken: it moves a front of what was asked for, and all of it when it ends
    well. -/
theorem ataRead28_taken {h : Host} (hready : h.ready = true) (hrest : Resting false h.drive)
    {lba : UInt32} {count : UInt8} (hlba : Addressed lba count) :
    ∃ moved ≤ count.toNat, ∃ d', Pio.ataRead28 lba count h =
        (decide (moved = count.toNat),
          (readSpan h.drive.sector lba.toNat moved).flatMap sectorWords, { h with drive := d' }) ∧
      Rests h.drive (decide (moved ≠ count.toNat)) [] d' := by
  obtain ⟨d₀, hprompt, hidle, himage, hwrites, hreactions, hplace, hleft, hselect⟩ :=
    select_taken hrest hlba
  obtain ⟨n, hn⟩ := hlba.count_eq
  have hsector : d₀.sector = h.drive.sector := by rw [Drive.sector, Drive.sector, himage, hwrites]
  obtain ⟨himage', hwrites', hphase⟩ := settled_fetch lba.toNat n d₀
  have hbegin : d₀.outCommand 0x20 = d₀.begin (.fetch lba.toNat n) := by
    rw [outCommand_read hidle, hplace, hleft, hn, Nat.add_sub_cancel]
  have hsettled : (d₀.begin (.fetch lba.toNat n)).settled.sector = d₀.sector := by
    rw [Drive.sector, Drive.sector, himage', hwrites']
  rw [← hsettled] at hphase
  obtain ⟨moved, hmoved, d', hrun, hrests⟩ := readSectors_spec
    (hprompt.begin (by decide) (.fetch lba.toNat n)) hphase
  rw [hsettled, hsector, ← hbegin, ← hn] at hrun
  rw [← hn] at hmoved hrests
  have hall := Rests.trans (begin_medium himage hwrites hreactions himage' hwrites') hrests
  exact ⟨moved, hmoved, d', ataRead28_of_loop hready (hselect 0x20) hrun, hall⟩

/-- The last sector of a write fails so soon that the driver does not see it. -/
structure Masked (n : Nat) (d : Drive) : Prop where
  before : GoesWell n d
  fails : (d.reactions.getD n ⟨0, 0, false⟩).fails = true
  soon : (d.reactions.getD n ⟨0, 0, false⟩).polls < 4
  flush : (d.reactions.getD (n + 1) ⟨0, 0, false⟩).fails = false

/-- The drive is ready for the first sector, or fails. -/
theorem settled_await (lba left : Nat) (d : Drive) :
    (d.begin (.await lba left)).settled.image = d.image ∧
    (d.begin (.await lba left)).settled.writes = d.writes ∧
    (d.begin (.await lba left)).settled.phase =
      if d.next.fails then .idle true else .dataOut lba left [] := by
  rw [Drive.settled_begin, Drive.finish]
  cases d.next.fails <;> exact ⟨rfl, rfl, rfl⟩

theorem headD_drop {α : Type} (n : Nat) (a : α) (l : List α) : (l.drop n).headD a = l.getD n a := by
  rw [List.headD_eq_head?_getD, List.head?_drop, List.getD_eq_getElem?_getD]

/-- **A write** that is taken. It stores a front of the sectors; a result of 0 says that it has
    stored them all, but for a last one that was masked. -/
theorem ataWrite28_taken {h : Host} (hready : h.ready = true) (hrest : Resting false h.drive)
    {lba : UInt32} {count : UInt8} (hlba : Addressed lba count) {buf : List Sector}
    (hlength : buf.length = count.toNat) :
    ∃ moved ≤ count.toNat, ∃ ok d', Pio.ataWrite28 lba count (buf.flatMap sectorWords) h =
        (ok, { h with drive := d' }) ∧
      Rests h.drive (!ok) (span lba.toNat (buf.take moved)) d' ∧
      (ok = true ∧ moved < count.toNat ↔ Masked count.toNat h.drive) := by
  obtain ⟨d₀, hprompt, hidle, himage, hwrites, hreactions, hplace, hleft, hselect⟩ :=
    select_taken hrest hlba
  obtain ⟨n, hn⟩ := hlba.count_eq
  rw [hn] at hlength
  obtain ⟨himage', hwrites', hphase⟩ := settled_await lba.toNat n d₀
  have hbegin : d₀.outCommand 0x30 = d₀.begin (.await lba.toNat n) := by
    rw [outCommand_write hidle, hplace, hleft, hn, Nat.add_sub_cancel]
  have hstart : Punctual (d₀.begin (.await lba.toNat n)) := hprompt.begin (by decide) _
  have hcoming : (d₀.begin (.await lba.toNat n)).reactions = h.drive.reactions.tail := by
    rw [Drive.begin_reactions, hreactions]
  have hnext : d₀.next = h.drive.next := by rw [Drive.next, Drive.next, hreactions]
  have hwell := goesWell_succ (n := n) hcoming
  have hmedium := begin_medium himage hwrites hreactions himage' hwrites'
  have hselect := hselect 0x30
  rw [hbegin] at hselect
  rw [hnext] at hphase
  set start := d₀.begin (.await lba.toNat n)
  cases hfails : h.drive.next.fails with
  | true =>
    -- the drive does not take the first sector
    rw [hfails, if_pos rfl] at hphase
    have hrun := writeSectors_failed hstart hphase (buf.flatMap sectorWords) 0 n
    rw [← hn] at hrun
    refine ⟨0, Nat.zero_le _, false, start.settled, ataWrite28_of_stop hready hselect hrun, ?_, ?_⟩
    · exact ⟨hstart.settled, hphase, hmedium.1, hmedium.2.1, hmedium.2.2⟩
    · refine iff_of_false (fun h => absurd h.1 (by decide)) fun hmasked => ?_
      have hbefore := hmasked.before
      rw [hn, hwell, hfails] at hbefore
      exact absurd hbefore.1 (by decide)
  | false =>
    rw [hfails, if_neg (by decide)] at hphase
    have hroom : 0 + n + 1 = buf.length := by omega
    rcases writeSectors_spec hstart hroom hphase with
      ⟨hgood, d₁, hd₁, himage₁, hwrites₁, hreactions₁, hrun⟩ |
      ⟨hbad, moved, hmoved, d', hrun, hrests⟩
    · rw [← hn] at hrun
      obtain ⟨ok, d', hflush, hrests, hok⟩ :=
        flush_spec hd₁ (lba.toNat + n) buf[0 + n]
      have hsector : h.drive.reactions.drop (n + 1) = d₁.reactions := by
        rw [hreactions₁, hcoming, List.drop_tail]
      have hlast : h.drive.reactions.getD (n + 1) ⟨0, 0, false⟩ = d₁.next := by
        rw [← headD_drop, hsector]
        rfl
      have hbehind : h.drive.reactions.getD (n + 1 + 1) ⟨0, 0, false⟩ = nextButOne d₁ := by
        rw [← headD_drop, ← List.drop_tail, nextButOne, hreactions₁, hcoming, List.drop_tail,
          ← List.tail_drop, List.drop_tail]
      have hmasked : Masked (n + 1) h.drive ↔
          d₁.next.fails = true ∧ d₁.next.polls < 4 ∧ (nextButOne d₁).fails = false := by
        constructor
        · rintro ⟨-, hlate, hsoon, hquiet⟩
          rw [hlast] at hlate hsoon
          rw [hbehind] at hquiet
          exact ⟨hlate, hsoon, hquiet⟩
        · rintro ⟨hlate, hsoon, hquiet⟩
          rw [← hlast] at hlate hsoon
          rw [← hbehind] at hquiet
          exact ⟨hwell.mpr ⟨hfails, hgood⟩, hlate, hsoon, hquiet⟩
      have hstored : d₁.writes = h.drive.writes ++ span lba.toNat (buf.take n) := by
        rw [hwrites₁, hmedium.2.1, List.append_nil, List.drop_zero]
      have hleft₁ : d₁.reactions <:+ h.drive.reactions := by
        rw [← hsector]
        exact List.drop_suffix _ _
      have hrests := Rests.trans ⟨himage₁.trans hmedium.1, hstored, hleft₁⟩ hrests
      have htake : buf.take (n + 1) = buf.take n ++ [buf[0 + n]] := by
        rw [List.take_succ_eq_append_getElem (by omega)]
        simp only [Nat.zero_add]
      have hall : span lba.toNat (buf.take (n + 1)) = span lba.toNat (buf.take n) ++
          [(lba.toNat + n, buf[0 + n])] := by
        rw [htake, span_append, List.length_take, Nat.min_eq_left (by omega)]
        rfl
      rw [hn, hmasked]
      cases hlate : d₁.next.fails with
      | true =>
        rw [hlate] at hrests hok
        rw [if_pos rfl, List.append_nil] at hrests
        refine ⟨n, Nat.le_succ n, ok, d', ataWrite28_of_loop hready hselect hrun hflush, hrests, ?_⟩
        rw [hok]
        split <;> simp [*]
      | false =>
        rw [hlate, if_neg (by decide), ← hall] at hrests
        refine ⟨n + 1, Nat.le_refl _, ok, d', ataWrite28_of_loop hready hselect hrun hflush,
          hrests, ?_⟩
        exact iff_of_false (fun h => absurd h.2 (Nat.lt_irrefl _)) fun h => absurd h.1 (by decide)
    · rw [← hn] at hrun
      have hrests := Rests.trans hmedium hrests
      rw [List.nil_append, List.drop_zero] at hrests
      refine ⟨moved, by omega, false, d', ataWrite28_of_stop hready hselect hrun, hrests, ?_⟩
      refine iff_of_false (fun h => absurd h.1 (by decide)) fun hmasked => hbad ?_
      have hbefore := hmasked.before
      rw [hn, hwell] at hbefore
      exact hbefore.2

/-- **What a result of 0 is worth.** Over a drive that is idle without an error, an addressed write
    reports success without having stored its sectors exactly when the last one is masked: it
    fails within the four polls the driver waits, and the flush behind it goes well.

    `hready` and `hlba` let the call through to the drive, and `hrest` says that it is prompt and
    idle with no error standing. `hlength` ties the buffer to the count. `Masked` is about the
    drive's course alone: what it does with the sectors and with the flush. -/
theorem ata_write28_lost_iff {h : Host} (hready : h.ready = true) (hrest : Resting false h.drive)
    {lba : UInt32} {count : UInt8} (hlba : Addressed lba count) {buf : List Sector}
    (hlength : buf.length = count.toNat) :
    (Pio.ataWrite28 lba count (buf.flatMap sectorWords) h).1 = true ∧
      (Pio.ataWrite28 lba count (buf.flatMap sectorWords) h).2.drive.writes ≠
        h.drive.writes ++ span lba.toNat buf ↔ Masked count.toNat h.drive := by
  obtain ⟨moved, hmoved, ok, d', hrun, hrests, hmasked⟩ :=
    ataWrite28_taken hready hrest hlba hlength
  rw [hrun, ← hmasked]
  apply and_congr_right'
  rw [hrests.writes, ne_eq, List.append_cancel_left_eq]
  constructor
  · intro hne
    apply Nat.lt_of_le_of_ne hmoved
    rintro rfl
    rw [← hlength, List.take_length] at hne
    exact hne rfl
  · intro hlt heq
    have hcount := congrArg List.length heq
    rw [length_span, length_span, List.length_take] at hcount
    omega

/-- A drive that was never written to. -/
def blankHost (reactions : List Reaction) : Host :=
  ⟨true, ⟨fun _ => Block.zero 512, [], reactions, 0, 0, 0, 0, 0, .idle false⟩⟩

theorem blankHost_rests {reactions : List Reaction}
    (h : ∀ r ∈ reactions, r.polls < 1000000 ∧ r.bits &&& Drive.err = 0) :
    Resting false (blankHost reactions).drive :=
  ⟨⟨h, fun _ _ _ hbusy => Phase.noConfusion hbusy⟩, rfl, rfl, rfl⟩

/-- `ata_write28_lost_iff` on a sector that fails at the third poll. -/
theorem ata_write28_lost_third :
    (Pio.ataWrite28 64 1 ([Block.zero 512].flatMap sectorWords)
        (blankHost [⟨0, 0, false⟩, ⟨2, 0, true⟩])).1 = true ∧
      (Pio.ataWrite28 64 1 ([Block.zero 512].flatMap sectorWords)
        (blankHost [⟨0, 0, false⟩, ⟨2, 0, true⟩])).2.drive.writes ≠
        [] ++ span 64 [Block.zero 512] :=
  (ata_write28_lost_iff rfl (blankHost_rests (by decide)) ⟨by decide, by decide⟩ rfl).mpr
    ⟨by simp [GoesWell, blankHost], rfl, by decide, rfl⟩

/-! ## Calls, one after the other -/

/-- A call to the driver. -/
inductive AtaCall
  | init
  | read (lba : UInt32) (count : UInt8)
  | write (lba : UInt32) (buf : List Sector) (fits : buf.length < 256)

/-- What the driver does: whether it is ready or has returned 0, and the words that have come. -/
def AtaCall.ran (h : Host) : AtaCall → (Bool × List UInt16) × Host
  | .init => (((Pio.ataInit h).ready, []), Pio.ataInit h)
  | .read lba count => (((Pio.ataRead28 lba count h).1, (Pio.ataRead28 lba count h).2.1),
      (Pio.ataRead28 lba count h).2.2)
  | .write lba buf _ =>
    (((Pio.ataWrite28 lba (UInt8.ofNat buf.length) (buf.flatMap sectorWords) h).1, []),
      (Pio.ataWrite28 lba (UInt8.ofNat buf.length) (buf.flatMap sectorWords) h).2)

/-- What the filesystem takes it for. -/
def AtaCall.taken (a : Ata) : AtaCall → (Bool × List UInt16) × Ata
  | .init => (((Kernel.ataInit a).ready, []), Kernel.ataInit a)
  | .read lba count => (((Kernel.ataRead28 lba count.toNat a).1,
      (Kernel.ataRead28 lba count.toNat a).2.1.flatMap sectorWords),
      (Kernel.ataRead28 lba count.toNat a).2.2)
  | .write lba buf _ => (((Kernel.ataWrite28 lba buf a).1, []), (Kernel.ataWrite28 lba buf a).2)

/-- The drive, when its commands will fare as the script says. -/
def asAta (script : List Outcome) (h : Host) : Ata :=
  ⟨h.ready, h.drive.image, h.drive.writes, script⟩

theorem Rests.resting {d d' : Drive} {e : Bool} {ws : List (Nat × Sector)}
    (h : Rests d e ws d') : Resting e d' := by
  have hsame : d'.settled = d' := Drive.settled_of_ne fun r polls w => by
    rw [h.phase]
    exact Phase.noConfusion
  exact ⟨h.prompt, by rw [hsame, h.phase], by rw [hsame], by rw [hsame]⟩

theorem Resting.rests (h : Resting true d) : Rests d true [] d.settled :=
  ⟨h.prompt.settled, h.phase, h.image, by rw [h.writes, List.append_nil],
    d.settled_reactions ▸ List.suffix_refl _⟩

/-- Selecting the drive does not disturb it. -/
theorem select_rests {e : Bool} (hrest : Resting e d) :
    Resting e (outb ataRegHddevsel 0xe0 d) ∧ (outb ataRegHddevsel 0xe0 d).image = d.image ∧
      (outb ataRegHddevsel 0xe0 d).writes = d.writes ∧
      (outb ataRegHddevsel 0xe0 d).reactions = d.reactions := by
  have hout : outb ataRegHddevsel 0xe0 d = d.outSelect 0xe0 := rfl
  cases hphase : d.phase with
  | idle error =>
    have hselect : d.outSelect 0xe0 = { d with select := 0xe0 } := by rw [Drive.outSelect, hphase]
    have hsame : d.settled = d := by rw [Drive.settled, hphase]
    have hsettled : Drive.settled { d with select := 0xe0 } = { d with select := 0xe0 } := by
      rw [Drive.settled, hphase]
    have herror := hrest.phase
    rw [hsame] at herror
    rw [hout, hselect]
    exact ⟨⟨⟨hrest.prompt.coming, hrest.prompt.present⟩, by rw [hsettled]; exact herror,
      by rw [hsettled], by rw [hsettled]⟩, rfl, rfl, rfl⟩
  | _ =>
    have hselect : d.outSelect 0xe0 = d := by rw [Drive.outSelect, hphase]
    rw [hout, hselect]
    exact ⟨hrest, rfl, rfl, rfl⟩

/-- **The probe** finds out whether there is an error. -/
theorem ataInit_rests {e : Bool} {h : Host} (hrest : Resting e h.drive) :
    ∃ d', Pio.ataInit h = ⟨!e, d'⟩ ∧ Rests h.drive e [] d' := by
  obtain ⟨hselected, himage, hwrites, hreactions⟩ := select_rests hrest
  set d₁ := outb ataRegHddevsel 0xe0 h.drive with hd₁
  have hwait : ataWaitClearBsy (ataIoDelay d₁) = (!e, d₁.settled) := by
    rw [ataWaitClearBsy_idle (Punctual.delay hselected.prompt)
      (by rw [settled_delay, hselected.phase]), settled_delay]
  refine ⟨d₁.settled, ?_, hselected.prompt.settled, hselected.phase,
    hselected.image.trans himage, ?_, ?_⟩
  · cases e with
    | true => rw [Pio.ataInit, ← hd₁, hwait]; rfl
    | false =>
      have hstatus : inb ataRegStatus d₁.settled = (Drive.drdy, d₁.settled) := by
        show (d₁.settled.poll.status, d₁.settled.poll) = _
        rw [Drive.poll_settled, Drive.status, hselected.phase]
        rfl
      rw [Pio.ataInit, ← hd₁, hwait]
      simp only [Bool.not_false, hstatus]
      rfl
  · rw [hselected.writes, hwrites, List.append_nil]
  · rw [Drive.settled_reactions, hreactions]

theorem ataRead28_refused {h : Host} (hready : h.ready = true) {lba : UInt32} {count : UInt8}
    {d' : Drive} (hselect : Pio.ataSelectLba28 lba count 0x20 h.drive = (false, d')) :
    Pio.ataRead28 lba count h = (false, [], { h with drive := d' }) := by
  rw [Pio.ataRead28, hready, if_neg (by decide), hselect]

theorem ataWrite28_refused {h : Host} (hready : h.ready = true) {lba : UInt32} {count : UInt8}
    {src : List UInt16} {d' : Drive}
    (hselect : Pio.ataSelectLba28 lba count 0x30 h.drive = (false, d')) :
    Pio.ataWrite28 lba count src h = (false, { h with drive := d' }) := by
  rw [Pio.ataWrite28, hready, if_neg (by decide), hselect]

theorem addressed_iff (lba : UInt32) (count : UInt8) :
    Kernel.ataSelectLba28 lba count.toNat = true ↔ Addressed lba count := by
  have hcount : count.toNat = 0 ↔ count = 0 :=
    ⟨fun h => UInt8.toNat_inj.mp h, fun h => by rw [h]; rfl⟩
  simp [Kernel.ataSelectLba28, Addressed, hcount]

theorem ofNat_length {buf : List Sector} (fits : buf.length < 256) :
    (UInt8.ofNat buf.length).toNat = buf.length := UInt8.toNat_ofNat_of_lt' fits

/-- No work fails before the driver has looked away. -/
def FailsLate (d : Drive) : Prop := ∀ r ∈ d.reactions, r.fails = true → 4 ≤ r.polls

theorem FailsLate.not_masked (h : FailsLate d) (n : Nat) : ¬ Masked n d := by
  intro hmasked
  have hfails := hmasked.fails
  have hsoon := hmasked.soon
  by_cases hn : n < d.reactions.length
  · rw [List.getD_eq_getElem _ _ hn] at hfails hsoon
    have hlate := h _ (List.getElem_mem hn) hfails
    omega
  · rw [List.getD_eq_default _ _ (Nat.not_lt.mp hn)] at hfails
    cases hfails

theorem FailsLate.of_suffix {d' : Drive} (h : FailsLate d) (hs : d'.reactions <:+ d.reactions) :
    FailsLate d' := fun r hr => h r (hs.subset hr)

/-- A read or a write that the driver's own check lets through. -/
def AtaCall.Valid : AtaCall → Prop
  | .init => False
  | .read lba count => Addressed lba count
  | .write lba buf _ => Addressed lba (UInt8.ofNat buf.length)

/-- What a call does, from a drive at rest to a drive at rest. -/
structure AtaCall.Steps (c : AtaCall) (h : Host) (e e' : Bool) : Prop where
  resting : Resting e' (c.ran h).2.drive
  reactions : (c.ran h).2.drive.reactions <:+ h.drive.reactions
  stuck : e = true → e' = true ∧ (c.ran h).1 = (false, []) ∧
    (c.ran h).2.drive.writes = h.drive.writes
  failed : h.ready = true → c.Valid → (c.ran h).1.1 = false → e' = true
  refines : FailsLate h.drive → ∃ front, ∀ rest,
    c.taken (asAta (front ++ rest) h) = ((c.ran h).1, asAta rest (c.ran h).2)

theorem AtaCall.Steps.of_refused {c : AtaCall} {h : Host} {e : Bool} {d' : Drive}
    (hrest : Resting e h.drive) (hran : c.ran h = ((false, []), { h with drive := d' }))
    (hwhy : d' = h.drive ∧ ¬ (h.ready = true ∧ c.Valid) ∨ e = true ∧ d' = h.drive.settled)
    (htaken : ∃ front, ∀ rest, c.taken (asAta (front ++ rest) h) = ((false, []), asAta rest h)) :
    c.Steps h e e := by
  have hsame : Resting e d' ∧ d'.image = h.drive.image ∧ d'.writes = h.drive.writes ∧
      d'.reactions = h.drive.reactions := by
    rcases hwhy with ⟨rfl, -⟩ | ⟨rfl, rfl⟩
    · exact ⟨hrest, rfl, rfl, rfl⟩
    · exact ⟨hrest.rests.resting, hrest.image, hrest.writes, Drive.settled_reactions _⟩
  obtain ⟨hrest', himage, hwrites, hreactions⟩ := hsame
  constructor
  · rw [hran]
    exact hrest'
  · rw [hran]
    exact hreactions ▸ List.suffix_refl _
  · rintro rfl
    rw [hran]
    exact ⟨rfl, rfl, hwrites⟩
  · intro hready hvalid _
    rcases hwhy with ⟨-, hnot⟩ | ⟨he, -⟩
    · exact absurd ⟨hready, hvalid⟩ hnot
    · exact he
  · intro _
    obtain ⟨front, htaken⟩ := htaken
    refine ⟨front, fun rest => ?_⟩
    rw [htaken, hran, asAta, asAta]
    simp only [himage, hwrites]

theorem AtaCall.steps_init {h : Host} {e : Bool} (hrest : Resting e h.drive) :
    AtaCall.init.Steps h e e := by
  obtain ⟨d', hrun, hrests⟩ := ataInit_rests hrest
  have hran : AtaCall.init.ran h = ((!e, []), ⟨!e, d'⟩) := by rw [AtaCall.ran, hrun]
  constructor
  · rw [hran]
    exact hrests.resting
  · rw [hran]
    exact hrests.reactions
  · rintro rfl
    rw [hran]
    exact ⟨rfl, rfl, hrests.writes.trans (List.append_nil _)⟩
  · exact fun _ hvalid _ => hvalid.elim
  · intro _
    refine ⟨[if e then .fault 0 else .ok], fun rest => ?_⟩
    have hwrites := hrests.writes.trans (List.append_nil _)
    rw [hran, asAta, asAta, hrests.image, hwrites]
    cases e <;> rfl

theorem AtaCall.steps_read {h : Host} {e : Bool} (hrest : Resting e h.drive) (lba : UInt32)
    (count : UInt8) : ∃ e', (AtaCall.read lba count).Steps h e e' := by
  cases hready : h.ready with
  | false =>
    refine ⟨e, .of_refused hrest ?_ (Or.inl ⟨rfl, ?_⟩) ⟨[], fun rest => ?_⟩⟩
    · rw [AtaCall.ran, Pio.ataRead28, if_pos hready]
    · rintro ⟨hready', -⟩
      rw [hready] at hready'
      cases hready'
    · simp [AtaCall.taken, Kernel.ataRead28, asAta, hready]
  | true =>
    by_cases hlba : Addressed lba count
    · cases e with
      | true =>
        -- the drive is in error: nothing is asked of it
        refine ⟨true, .of_refused hrest ?_ (Or.inr ⟨rfl, rfl⟩) ⟨[.fault 0], fun rest => ?_⟩⟩
        · rw [AtaCall.ran, ataRead28_refused hready (select_failed hrest hlba 0x20)]
        · simp [AtaCall.taken, Kernel.ataRead28, asAta, hready, (addressed_iff lba count).mpr hlba,
            Ata.next, readSpan]
      | false =>
        obtain ⟨moved, hmoved, d', hrun, hrests⟩ := ataRead28_taken hready hrest hlba
        refine ⟨decide (moved ≠ count.toNat), ?_⟩
        have hran : (AtaCall.read lba count).ran h = ((decide (moved = count.toNat),
            (readSpan h.drive.sector lba.toNat moved).flatMap sectorWords),
            { h with drive := d' }) := by rw [AtaCall.ran, hrun]
        constructor
        · rw [hran]
          exact hrests.resting
        · rw [hran]
          exact hrests.reactions
        · intro he
          cases he
        · intro _ _ hfailed
          rw [hran] at hfailed
          simpa using hfailed
        · intro _
          have hwrites := hrests.writes.trans (List.append_nil _)
          refine ⟨[if moved = count.toNat then .ok else .fault moved], fun rest => ?_⟩
          have hall := (addressed_iff lba count).mpr hlba
          rw [hran, asAta, asAta, hrests.image, hwrites]
          by_cases hend : moved = count.toNat
          · simp [AtaCall.taken, Kernel.ataRead28, hready, hall, Ata.next, hend]
            rfl
          · have hmin : min moved (count.toNat - 1) = moved := by omega
            simp [AtaCall.taken, Kernel.ataRead28, hready, hall, Ata.next, hend, hmin]
            rfl
    · have hcheck : Kernel.ataSelectLba28 lba count.toNat = false :=
        Bool.eq_false_iff.mpr fun hall => hlba ((addressed_iff lba count).mp hall)
      refine ⟨e, .of_refused hrest ?_ (Or.inl ⟨rfl, fun hvalid => hlba hvalid.2⟩)
        ⟨[], fun rest => ?_⟩⟩
      · rw [AtaCall.ran, ataRead28_refused hready (select_rejected hlba 0x20 h.drive)]
      · simp [AtaCall.taken, Kernel.ataRead28, asAta, hready, hcheck]

theorem AtaCall.steps_write {h : Host} {e : Bool} (hrest : Resting e h.drive) (lba : UInt32)
    (buf : List Sector) (fits : buf.length < 256) :
    ∃ e', (AtaCall.write lba buf fits).Steps h e e' := by
  have hcount := ofNat_length fits
  have hall := addressed_iff lba (UInt8.ofNat buf.length)
  rw [hcount] at hall
  cases hready : h.ready with
  | false =>
    refine ⟨e, .of_refused hrest ?_ (Or.inl ⟨rfl, ?_⟩) ⟨[], fun rest => ?_⟩⟩
    · rw [AtaCall.ran, Pio.ataWrite28, if_pos hready]
    · rintro ⟨hready', -⟩
      rw [hready] at hready'
      cases hready'
    · simp [AtaCall.taken, Kernel.ataWrite28, asAta, hready]
  | true =>
    by_cases hlba : Addressed lba (UInt8.ofNat buf.length)
    · cases e with
      | true =>
        refine ⟨true, .of_refused hrest ?_ (Or.inr ⟨rfl, rfl⟩) ⟨[.fault 0], fun rest => ?_⟩⟩
        · rw [AtaCall.ran, ataWrite28_refused hready (select_failed hrest hlba 0x30)]
        · simp [AtaCall.taken, Kernel.ataWrite28, asAta, hready, hall.mpr hlba, Ata.next, span]
      | false =>
        obtain ⟨moved, hmoved, ok, d', hrun, hrests, hmasked⟩ :=
          ataWrite28_taken hready hrest hlba hcount.symm
        refine ⟨!ok, ?_⟩
        have hran : (AtaCall.write lba buf fits).ran h = ((ok, []), { h with drive := d' }) := by
          rw [AtaCall.ran, hrun]
        constructor
        · rw [hran]
          exact hrests.resting
        · rw [hran]
          exact hrests.reactions
        · intro he
          cases he
        · intro _ _ hfailed
          rw [hran] at hfailed
          simpa using hfailed
        · intro hlate
          rw [hcount] at hmoved hmasked
          refine ⟨[if ok then .ok else .fault moved], fun rest => ?_⟩
          rw [hran, asAta, asAta, hrests.image, hrests.writes]
          cases ok with
          | true =>
            -- a success that is not masked has stored them all
            have hmost : ¬ moved < buf.length := fun hlt =>
              hlate.not_masked _ (hmasked.mp ⟨rfl, hlt⟩)
            have htake : buf.take moved = buf := List.take_of_length_le (by omega)
            simp [AtaCall.taken, Kernel.ataWrite28, hready, hall.mpr hlba, Ata.next, htake]
            rfl
          | false =>
            simp [AtaCall.taken, Kernel.ataWrite28, hready, hall.mpr hlba, Ata.next]
            rfl
    · have hcheck : Kernel.ataSelectLba28 lba buf.length = false :=
        Bool.eq_false_iff.mpr fun h => hlba (hall.mp h)
      refine ⟨e, .of_refused hrest ?_ (Or.inl ⟨rfl, fun hvalid => hlba hvalid.2⟩)
        ⟨[], fun rest => ?_⟩⟩
      · rw [AtaCall.ran, ataWrite28_refused hready (select_rejected hlba 0x30 h.drive)]
      · simp [AtaCall.taken, Kernel.ataWrite28, asAta, hready, hcheck]

/-- **One call.** -/
theorem AtaCall.steps {h : Host} {e : Bool} (hrest : Resting e h.drive) (c : AtaCall) :
    ∃ e', c.Steps h e e' := by
  cases c with
  | init => exact ⟨e, steps_init hrest⟩
  | read lba count => exact steps_read hrest lba count
  | write lba buf fits => exact steps_write hrest lba buf fits

/-! ## Runs

A run of calls is simulated call by call, from a drive at rest to a drive at rest. Whether an error
stands is carried along, since it is all that one call leaves to the next besides the medium.
-/

/-- The answers of a run of calls, and what it leaves. -/
def ranAll (calls : List AtaCall) (h : Host) : List (Bool × List UInt16) × Host :=
  (outputs (fun c h => (c.ran h).2) (fun c h => [(c.ran h).1]) calls h,
    runAll (fun c h => (c.ran h).2) calls h)

def takenAll (calls : List AtaCall) (a : Ata) : List (Bool × List UInt16) × Ata :=
  (outputs (fun c a => (c.taken a).2) (fun c a => [(c.taken a).1]) calls a,
    runAll (fun c a => (c.taken a).2) calls a)

/-- **The driver is what the filesystem takes it for.** Over a drive that is prompt, and that does
    not fail before the driver has looked away, every run of calls gives the answers and leaves
    the sectors of a run of `Kernel/Ata.lean`, for some course of its commands.

    `hrest` is a prompt drive between two commands: each piece of work is over before the driver's
    patience is, and while it is busy the drive does not show ERR, which the specification leaves
    undefined and the driver would take for a failure; `e` is whether an error stands from before.
    `hlate` leaves out the one drive the coarser model cannot be had for, which fails within the
    four polls of `ata_io_delay`. The course of outcomes is found by the proof: nothing is assumed
    of how the commands come out. -/
theorem ata_ports_refine {e : Bool} {h : Host} (hrest : Resting e h.drive)
    (hlate : FailsLate h.drive) (calls : List AtaCall) :
    ∃ script, takenAll calls (asAta script h) =
      ((ranAll calls h).1, asAta [] (ranAll calls h).2) := by
  induction calls generalizing e h with
  | nil => exact ⟨[], rfl⟩
  | cons c calls ih =>
    obtain ⟨e', hstep⟩ := c.steps hrest
    obtain ⟨front, hfirst⟩ := hstep.refines hlate
    obtain ⟨script, hrun⟩ := ih hstep.resting (hlate.of_suffix hstep.reactions)
    refine ⟨front ++ script, ?_⟩
    simp only [takenAll, ranAll, outputs, runAll_cons, hfirst, Prod.mk.injEq] at hrun ⊢
    exact ⟨congrArg _ hrun.1, hrun.2⟩

/-- `ata_ports_refine` on a write whose last sector fails late. -/
theorem ata_ports_refine_late :
    ∃ script, takenAll [.init, .write 64 [Block.zero 512] (by decide), .read 64 1]
        (asAta script (blankHost [⟨0, 0, false⟩, ⟨900, 0, true⟩])) =
      ((ranAll [.init, .write 64 [Block.zero 512] (by decide), .read 64 1]
          (blankHost [⟨0, 0, false⟩, ⟨900, 0, true⟩])).1,
        asAta [] (ranAll [.init, .write 64 [Block.zero 512] (by decide), .read 64 1]
          (blankHost [⟨0, 0, false⟩, ⟨900, 0, true⟩])).2) :=
  ata_ports_refine (blankHost_rests (by decide)) (by unfold FailsLate; decide)
    [.init, .write 64 [Block.zero 512] (by decide), .read 64 1]

/-- In error, no call does anything any more. -/
theorem ranAll_stuck {h : Host} (hrest : Resting true h.drive) (calls : List AtaCall) :
    (∀ answer ∈ (ranAll calls h).1, answer = (false, [])) ∧
      (ranAll calls h).2.drive.writes = h.drive.writes := by
  induction calls generalizing h with
  | nil => exact ⟨fun _ hmem => absurd hmem List.not_mem_nil, rfl⟩
  | cons c calls ih =>
    obtain ⟨e', hstep⟩ := c.steps hrest
    obtain ⟨rfl, hanswer, hwrites⟩ := hstep.stuck rfl
    obtain ⟨hanswers, hend⟩ := ih hstep.resting
    refine ⟨fun answer hmem => ?_, hend.trans hwrites⟩
    rcases List.mem_cons.mp hmem with rfl | hmem
    · exact hanswer
    · exact hanswers answer hmem

theorem ranAll_rests {e : Bool} {h : Host} (hrest : Resting e h.drive) (calls : List AtaCall) :
    ∃ e', Resting e' (ranAll calls h).2.drive := by
  induction calls generalizing e h with
  | nil => exact ⟨e, hrest⟩
  | cons c calls ih =>
    obtain ⟨e', hstep⟩ := c.steps hrest
    exact ih hstep.resting

/-- **A failure is for good.** Over a prompt drive, once a read or a write of a ready driver that
    its check let through has failed, every later call fails, the probe of `ata_init` included,
    and no sector is stored any more: the next command would clear the error, and
    `ata_select_lba28` sends none as long as there is one.

    `hrest` is as in `ata_ports_refine`. `hready` and `hvalid` say that the call came as far as its
    command, so that `hfailed` is a failure of the drive and no refusal by the driver. `before` and
    `after` are any calls. -/
theorem ata_failure_is_final {e : Bool} {h : Host} (hrest : Resting e h.drive)
    (before : List AtaCall) {c : AtaCall} (hready : (ranAll before h).2.ready = true)
    (hvalid : c.Valid) (hfailed : (c.ran (ranAll before h).2).1.1 = false) (after : List AtaCall) :
    (∀ answer ∈ (ranAll after (c.ran (ranAll before h).2).2).1, answer = (false, [])) ∧
      (ranAll after (c.ran (ranAll before h).2).2).2.drive.writes =
        (c.ran (ranAll before h).2).2.drive.writes := by
  obtain ⟨e₁, hrest₁⟩ := ranAll_rests hrest before
  obtain ⟨e₂, hstep⟩ := c.steps hrest₁
  obtain rfl := hstep.failed hready hvalid hfailed
  exact ranAll_stuck hstep.resting after

/-- `ata_failure_is_final` behind a sector that could not be read. -/
theorem ata_failure_is_final_read :
    (∀ answer ∈ (ranAll [.init, .read 7 1]
        ((AtaCall.read 9 1).ran (ranAll [] (blankHost [⟨3, 0, true⟩])).2).2).1,
      answer = (false, [])) ∧
      (ranAll [.init, .read 7 1]
        ((AtaCall.read 9 1).ran (ranAll [] (blankHost [⟨3, 0, true⟩])).2).2).2.drive.writes =
        ((AtaCall.read 9 1).ran (ranAll [] (blankHost [⟨3, 0, true⟩])).2).2.drive.writes :=
  have hvalid : (AtaCall.read 9 1).Valid := ⟨by decide, by decide⟩
  ata_failure_is_final (blankHost_rests (by decide)) [] rfl hvalid rfl [.init, .read 7 1]

end Proof
end BumbelBee
