import BumbelBee.Lib.Bytes
import BumbelBee.Lib.Medium

/-!
# The ATA drive (`kernel/ata.c`)

The driver moves whole sectors by polled PIO. A command is accepted (`ata_select_lba28`),
then each sector waits for DRQ and is moved, and a write ends with a cache flush; any of
these waits may time out or report an error, and the command then returns -1 with the
sectors before the failing wait already moved.

What the hardware does is an input: `script` lists how the coming commands fare, one
outcome each, and a drive whose script has run out answers every command. The medium is
the image the machine was started on plus the log of sector writes since, oldest first; a
power cut keeps a prefix of that log.

How long a wait takes and which of the waits it was that failed makes no difference to any caller,
which is why an outcome is so little. That it is enough is not taken for granted:
`Kernel/AtaPorts.lean` has the driver's loops over a drive with registers, and `Proof/AtaPorts.lean`
shows that this model is what they do.
-/

namespace BumbelBee
namespace Kernel

open Lib

abbrev sectorSize : Nat := 512

abbrev Sector := Block sectorSize

/-- How the drive takes one command: it completes, or a status wait fails after `moved`
    sectors were transferred. -/
inductive Outcome
  | ok
  | fault (moved : Nat)
deriving DecidableEq, Repr

structure Ata where
  /-- `ata_ready`. -/
  ready : Bool
  image : Nat → Sector
  writes : List (Nat × Sector)
  script : List Outcome

/-- What the medium holds. -/
def Ata.sector (a : Ata) : Nat → Sector := applyWrites a.writes a.image

/-- The next command's outcome, taken off the script. -/
def Ata.next (a : Ata) : Outcome × Ata :=
  match a.script with
  | [] => (.ok, a)
  | o :: rest => (o, { a with script := rest })

def Ata.log (a : Ata) (ws : List (Nat × Sector)) : Ata := { a with writes := a.writes ++ ws }

/-- `ata_select_lba28`'s own check; its wait is part of the command's outcome. -/
def ataSelectLba28 (lba : UInt32) (count : Nat) : Bool :=
  !(lba > 0x0fffffff || count == 0)

def ataInit (a : Ata) : Ata :=
  match a.next with
  | (.ok, a) => { a with ready := true }
  | (.fault _, a) => { a with ready := false }

def ataIsReady (a : Ata) : Bool := a.ready

/-- The result code (`true` for 0), the sectors that reached the buffer, the drive. The wait
    of the last sector comes before its transfer, so a failed read never moves them all. -/
def ataRead28 (lba : UInt32) (count : Nat) (a : Ata) : Bool × List Sector × Ata :=
  if !a.ready || !ataSelectLba28 lba count then (false, [], a)
  else match a.next with
    | (.ok, a) => (true, readSpan a.sector lba.toNat count, a)
    | (.fault moved, a) => (false, readSpan a.sector lba.toNat (min moved (count - 1)), a)

/-- `buf` is the `count` sectors to write. A write may also fail in its final flush, with
    every sector moved. -/
def ataWrite28 (lba : UInt32) (buf : List Sector) (a : Ata) : Bool × Ata :=
  if !a.ready || !ataSelectLba28 lba buf.length then (false, a)
  else match a.next with
    | (.ok, a) => (true, a.log (span lba.toNat buf))
    | (.fault moved, a) => (false, a.log (span lba.toNat (buf.take moved)))

/-! ## The log -/

@[simp] theorem Ata.log_ready (a : Ata) (ws : List (Nat × Sector)) :
    (a.log ws).ready = a.ready := rfl
@[simp] theorem Ata.log_image (a : Ata) (ws : List (Nat × Sector)) :
    (a.log ws).image = a.image := rfl
@[simp] theorem Ata.log_writes (a : Ata) (ws : List (Nat × Sector)) :
    (a.log ws).writes = a.writes ++ ws := rfl
@[simp] theorem Ata.log_script (a : Ata) (ws : List (Nat × Sector)) :
    (a.log ws).script = a.script := rfl

theorem Ata.log_log (a : Ata) (us vs : List (Nat × Sector)) :
    (a.log us).log vs = a.log (us ++ vs) := by simp [Ata.log]

@[simp] theorem Ata.log_nil (a : Ata) : a.log [] = a := by simp [Ata.log]

@[simp] theorem Ata.sector_log (a : Ata) (ws : List (Nat × Sector)) :
    (a.log ws).sector = applyWrites ws a.sector := by
  funext x
  simp [Ata.sector, applyWrites_append]

/-- How the `k`-th coming command will fare. -/
def Ata.outcome (a : Ata) (k : Nat) : Outcome := a.script.getD k .ok

/-- How many of the `n` sectors of a write this outcome moves. -/
def Outcome.moved (o : Outcome) (n : Nat) : Nat :=
  match o with
  | .ok => n
  | .fault k => min k n

/-- The drive behind its next `k` commands, whatever they wrote. -/
def Ata.skip (a : Ata) (k : Nat) : Ata := { a with script := a.script.drop k }

/-- The same drive, its coming commands faring as the script says. -/
def Ata.withScript (a : Ata) (script : List Outcome) : Ata := { a with script }

@[simp] theorem Ata.withScript_sector (a : Ata) (s : List Outcome) :
    (a.withScript s).sector = a.sector := rfl
@[simp] theorem Ata.withScript_script (a : Ata) (s : List Outcome) :
    (a.withScript s).script = s := rfl
@[simp] theorem Ata.withScript_outcome (a : Ata) (s : List Outcome) (k : Nat) :
    (a.withScript s).outcome k = s.getD k .ok := rfl

@[simp] theorem Ata.skip_ready (a : Ata) (k : Nat) : (a.skip k).ready = a.ready := rfl
@[simp] theorem Ata.skip_sector (a : Ata) (k : Nat) : (a.skip k).sector = a.sector := rfl
@[simp] theorem Ata.skip_skip (a : Ata) (k l : Nat) : (a.skip k).skip l = a.skip (k + l) := by
  simp [Ata.skip]
@[simp] theorem Ata.skip_zero (a : Ata) : a.skip 0 = a := by simp [Ata.skip]
@[simp] theorem Ata.skip_outcome (a : Ata) (k l : Nat) :
    (a.skip k).outcome l = a.outcome (k + l) := by
  simp [Ata.skip, Ata.outcome, List.getD_eq_getElem?_getD]
@[simp] theorem Ata.log_outcome (a : Ata) (ws : List (Nat × Sector)) (k : Nat) :
    (a.log ws).outcome k = a.outcome k := rfl
theorem Ata.log_skip (a : Ata) (ws : List (Nat × Sector)) (k : Nat) :
    (a.log ws).skip k = (a.skip k).log ws := rfl

/-! ## What a command does, once and for all -/

theorem Ata.next_eq (a : Ata) : a.next = (a.outcome 0, a.skip 1) := by
  unfold Ata.next Ata.outcome Ata.skip
  cases h : a.script with
  | nil => cases a; simp_all
  | cons o rest => simp

/-- An accepted write, outcome and all. -/
theorem ataWrite28_eq {a : Ata} (hr : a.ready = true) {lba : UInt32} {buf : List Sector}
    (hs : ataSelectLba28 lba buf.length = true) :
    ataWrite28 lba buf a = (a.outcome 0 == .ok,
      (a.skip 1).log (span lba.toNat (buf.take ((a.outcome 0).moved buf.length)))) := by
  simp only [ataWrite28, hr, hs, Bool.not_true, Bool.or_self, Bool.false_eq_true, if_false,
    Ata.next_eq]
  cases a.outcome 0 with
  | ok => simp [Outcome.moved]
  | fault k => simp [Outcome.moved, ← List.take_eq_take_min]

/-- An accepted read, outcome and all. -/
theorem ataRead28_eq {a : Ata} (hr : a.ready = true) {lba : UInt32} {count : Nat}
    (hs : ataSelectLba28 lba count = true) :
    ∃ ss, ataRead28 lba count a = (a.outcome 0 == .ok, ss, a.skip 1) ∧
      (a.outcome 0 = .ok → ss = readSpan a.sector lba.toNat count) := by
  simp only [ataRead28, hr, hs, Bool.not_true, Bool.or_self, Bool.false_eq_true, if_false,
    Ata.next_eq]
  cases a.outcome 0 <;> simp

/-- The script only ever loses its head. -/
theorem Ata.next_snd (a : Ata) : (a.next).2 = { a with script := a.script.tail } := by
  unfold Ata.next
  cases h : a.script with
  | nil => cases a; simp_all
  | cons o rest => rfl

@[simp] theorem Ata.next_sector (a : Ata) : (a.next).2.sector = a.sector := by
  rw [Ata.next_snd]; rfl

theorem Ata.sector_congr {a b : Ata} (hi : b.image = a.image) (hw : b.writes = a.writes) :
    b.sector = a.sector := by rw [Ata.sector, Ata.sector, hi, hw]

@[simp] theorem ataInit_sector (a : Ata) : (ataInit a).sector = a.sector := by
  have hnext := a.next_snd
  unfold ataInit
  split <;> (rename_i b hb; rw [hb] at hnext; simp only at hnext; subst hnext; rfl)

/-- **A read**: it moves a prefix of the sectors asked for, all of them when it succeeds,
    and leaves the medium alone. -/
theorem ataRead28_spec (lba : UInt32) (count : Nat) (a : Ata) :
    ∃ k ≤ count, (ataRead28 lba count a).2.1 = readSpan a.sector lba.toNat k ∧
      ((ataRead28 lba count a).1 = true → k = count) ∧
      (ataRead28 lba count a).2.2.writes = a.writes ∧
      (ataRead28 lba count a).2.2.image = a.image ∧
      (ataRead28 lba count a).2.2.ready = a.ready := by
  unfold ataRead28
  split
  · exact ⟨0, Nat.zero_le _, by simp [readSpan], by simp, rfl, rfl, rfl⟩
  · have hnext := a.next_snd
    split <;> (rename_i b hb; rw [hb] at hnext; simp only at hnext; subst hnext)
    · exact ⟨count, Nat.le_refl _, rfl, fun _ => rfl, rfl, rfl, rfl⟩
    · exact ⟨_, by omega, rfl, by simp, rfl, rfl, rfl⟩

/-- **A write**: it logs a prefix of the sectors, all of them when it succeeds, and changes
    nothing else about the medium. -/
theorem ataWrite28_spec (lba : UInt32) (buf : List Sector) (a : Ata) :
    ∃ k, (ataWrite28 lba buf a).2.writes = a.writes ++ span lba.toNat (buf.take k) ∧
      ((ataWrite28 lba buf a).1 = true → k = buf.length) ∧
      (ataWrite28 lba buf a).2.image = a.image ∧
      (ataWrite28 lba buf a).2.ready = a.ready := by
  unfold ataWrite28
  split
  · exact ⟨0, by simp [span], by simp, rfl, rfl⟩
  · have hnext := a.next_snd
    split <;> (rename_i b hb; rw [hb] at hnext; simp only at hnext; subst hnext)
    · exact ⟨buf.length, by simp, fun _ => rfl, rfl, rfl⟩
    · exact ⟨_, rfl, by simp, rfl, rfl⟩

end Kernel
end BumbelBee
