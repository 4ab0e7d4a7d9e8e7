import BumbelBee.Lib.Bytes
import BumbelBee.Lib.Medium
import Mathlib.Logic.Function.Iterate

/-!
# A drive behind its ports

What a host sees of an ATA drive that it drives by programmed input and output. The host writes
the address registers and a command; the drive is busy, then moves sectors word by word through
its data register, busy before each, and is idle again. How long it is busy, and whether the work
is done then or has failed, is the drive's: a list of reactions, one for each piece of work.

A drive that is at work takes no register and no command, and a command clears the error that
the last one ended with.
-/

namespace BumbelBee
namespace Lib

/-! ## Bytes as words of two -/

/-- The words that bytes make up, two each, the low one first. -/
def wordsOf : List UInt8 → List UInt16
  | b :: b' :: bytes => UInt16.ofNat (leDecode [b, b']) :: wordsOf bytes
  | _ => []

theorem putU16_leDecode (b b' : UInt8) : putU16 (UInt16.ofNat (leDecode [b, b'])) = [b, b'] := by
  have hb := b.toNat_lt
  have hb' := b'.toNat_lt
  have hdecode : leDecode [b, b'] = b.toNat + 256 * b'.toNat := rfl
  have hword : (UInt16.ofNat (leDecode [b, b'])).toNat = b.toNat + 256 * b'.toNat := by
    rw [hdecode, UInt16.toNat_ofNat_of_lt' (by rw [UInt16.size]; omega)]
  rw [putU16, hword, leEncode, leEncode, leEncode]
  have hlow : UInt8.ofNat (b.toNat + 256 * b'.toNat) = b := by
    apply UInt8.toNat_inj.mp
    rw [UInt8.toNat_ofNat']
    omega
  have hhigh : UInt8.ofNat ((b.toNat + 256 * b'.toNat) / 256) = b' := by
    apply UInt8.toNat_inj.mp
    rw [UInt8.toNat_ofNat']
    omega
  rw [hlow, hhigh]

theorem length_wordsOf : ∀ {n : Nat} {bytes : List UInt8}, bytes.length = 2 * n →
    (wordsOf bytes).length = n := by
  intro n
  induction n with
  | zero =>
    intro bytes h
    rw [List.eq_nil_of_length_eq_zero h]
    rfl
  | succ n ih =>
    intro bytes h
    match bytes with
    | [_] => exact absurd h (by simp; omega)
    | b :: b' :: bytes =>
      rw [wordsOf, List.length_cons, ih (by simp at h; omega)]

/-- **Written out again**, the words are the bytes. -/
theorem wordsOf_bytes : ∀ {n : Nat} {bytes : List UInt8}, bytes.length = 2 * n →
    (wordsOf bytes).flatMap putU16 = bytes := by
  intro n
  induction n with
  | zero =>
    intro bytes h
    rw [List.eq_nil_of_length_eq_zero h]
    rfl
  | succ n ih =>
    intro bytes h
    match bytes with
    | [_] => exact absurd h (by simp; omega)
    | b :: b' :: bytes =>
      rw [wordsOf, List.flatMap_cons, putU16_leDecode, ih (by simp at h; omega)]
      rfl

/-! ## The drive -/

/-- How a piece of work fares. -/
structure Reaction where
  /-- How many reads of the status find the drive busy. -/
  polls : Nat
  /-- What the other bits of the status are meanwhile. -/
  bits : UInt8
  fails : Bool
deriving DecidableEq, Repr

/-- What a drive is busy with; `left` sectors come behind the one at `lba`. -/
inductive Work
  | fetch (lba left : Nat)
  | await (lba left : Nat)
  | store (lba left : Nat) (sector : Block 512)
  /-- nothing that is handed over: a cache is flushed, or the drive spins up -/
  | settle

inductive Phase
  | idle (error : Bool)
  | busy (r : Reaction) (polls : Nat) (w : Work)
  | dataIn (lba left : Nat) (words : List UInt16)
  | dataOut (lba left : Nat) (words : List UInt16)

structure Drive where
  image : Nat → Block 512
  /-- What has been stored since, oldest first. -/
  writes : List (Nat × Block 512)
  /-- How the coming work fares; behind the list all goes well. -/
  reactions : List Reaction
  count : UInt8
  lba0 : UInt8
  lba1 : UInt8
  lba2 : UInt8
  select : UInt8
  phase : Phase

namespace Drive

/-- What the drive has stored. -/
def sector (d : Drive) : Nat → Block 512 := applyWrites d.writes d.image

/-- The next piece of work is begun. -/
def begin (w : Work) (d : Drive) : Drive :=
  match d.reactions with
  | [] => { d with phase := .busy ⟨0, 0, false⟩ 0 w }
  | r :: rest => { d with reactions := rest, phase := .busy r r.polls w }

/-- A sector has been stored. -/
def storedOn (lba : Nat) : Nat → Phase
  | 0 => .idle false
  | left + 1 => .dataOut (lba + 1) left []

/-- A piece of work is over. -/
def finish (r : Reaction) (w : Work) (d : Drive) : Drive :=
  if r.fails then { d with phase := .idle true }
  else match w with
    | .fetch lba left => { d with phase := .dataIn lba left (wordsOf (d.sector lba).bytes) }
    | .await lba left => { d with phase := .dataOut lba left [] }
    | .store lba left sector =>
      { d with writes := d.writes ++ [(lba, sector)], phase := storedOn lba left }
    | .settle => { d with phase := .idle false }

/-! ## The status

A read of the status is what time is measured in: a busy drive counts its reads, and the read that
finds the count at its end sees the work done.
-/

def bsy : UInt8 := 0x80
def drdy : UInt8 := 0x40
def drq : UInt8 := 0x08
def err : UInt8 := 0x01

def status (d : Drive) : UInt8 :=
  match d.phase with
  | .idle error => if error then drdy ||| err else drdy
  | .busy r _ _ => bsy ||| r.bits
  | .dataIn .. => drdy ||| drq
  | .dataOut .. => drdy ||| drq

/-- What a read of the status does: time goes by. -/
def poll (d : Drive) : Drive :=
  match d.phase with
  | .busy r 0 w => d.finish r w
  | .busy r (polls + 1) w => { d with phase := .busy r polls w }
  | _ => d

def inStatus (d : Drive) : UInt8 × Drive := (d.poll.status, d.poll)

/-! ## The other registers -/

/-- The address the registers hold. -/
def lba (d : Drive) : Nat :=
  d.lba0.toNat + 2 ^ 8 * d.lba1.toNat + 2 ^ 16 * d.lba2.toNat + 2 ^ 24 * (d.select.toNat % 16)

/-- How many sectors come behind the first; a count of 0 says 256. -/
def left (d : Drive) : Nat := (if d.count = 0 then 256 else d.count.toNat) - 1

def outCount (v : UInt8) (d : Drive) : Drive :=
  match d.phase with | .idle _ => { d with count := v } | _ => d

def outLba0 (v : UInt8) (d : Drive) : Drive :=
  match d.phase with | .idle _ => { d with lba0 := v } | _ => d

def outLba1 (v : UInt8) (d : Drive) : Drive :=
  match d.phase with | .idle _ => { d with lba1 := v } | _ => d

def outLba2 (v : UInt8) (d : Drive) : Drive :=
  match d.phase with | .idle _ => { d with lba2 := v } | _ => d

def outSelect (v : UInt8) (d : Drive) : Drive :=
  match d.phase with | .idle _ => { d with select := v } | _ => d

def outCommand (c : UInt8) (d : Drive) : Drive :=
  match d.phase with
  | .idle _ =>
    if c = 0x20 then d.begin (.fetch d.lba d.left)
    else if c = 0x30 then d.begin (.await d.lba d.left)
    else if c = 0xe7 then d.begin .settle
    else { d with phase := .idle true }
  | _ => d

/-! ## The data register -/

/-- A sector has been read. -/
def readOn (lba : Nat) : Nat → Drive → Drive
  | 0, d => { d with phase := .idle false }
  | left + 1, d => d.begin (.fetch (lba + 1) left)

def inData (d : Drive) : UInt16 × Drive :=
  match d.phase with
  | .dataIn lba left (w :: w' :: words) => (w, { d with phase := .dataIn lba left (w' :: words) })
  | .dataIn lba left [w] => (w, d.readOn lba left)
  | _ => (0, d)

def outData (v : UInt16) (d : Drive) : Drive :=
  match d.phase with
  | .dataOut lba left words =>
    if words.length + 1 < 256 then { d with phase := .dataOut lba left (words ++ [v]) }
    else d.begin (.store lba left (Block.pad 512 ((words ++ [v]).flatMap putU16)))
  | _ => d

/-! ## What is to come

A host that waits for the end of a piece of work does not see how long it took. `settled` is the
drive as it will then be found, and most of what is said of a drive is said of it settled.
-/

/-- The drive when its work is over. -/
def settled (d : Drive) : Drive :=
  match d.phase with
  | .busy r _ w => d.finish r w
  | _ => d

/-- No work takes as many polls as a host is ready to wait, and a busy drive shows no error. -/
structure Within (bound : Nat) (d : Drive) : Prop where
  coming : ∀ r ∈ d.reactions, r.polls < bound ∧ r.bits &&& err = 0
  present : ∀ r polls w, d.phase = .busy r polls w → polls < bound ∧ r.bits &&& err = 0

variable {d : Drive} {n bound : Nat}

/-! ## Time -/

/-- Work that is over leaves no busy drive. -/
theorem finish_phase_ne (r r' : Reaction) (w w' : Work) (polls : Nat) (d : Drive) :
    (d.finish r w).phase ≠ .busy r' polls w' := by
  unfold finish
  split
  · exact Phase.noConfusion
  · cases w with
    | store lba left sector => cases left <;> exact Phase.noConfusion
    | _ => exact Phase.noConfusion

theorem settled_phase_ne (r : Reaction) (w : Work) (polls : Nat) (d : Drive) :
    d.settled.phase ≠ .busy r polls w := by
  intro hbusy
  cases hphase : d.phase with
  | busy r' polls' w' =>
    rw [settled, hphase] at hbusy
    exact finish_phase_ne _ _ _ _ _ _ hbusy
  | _ =>
    rw [settled, hphase] at hbusy
    rw [hphase] at hbusy
    cases hbusy

/-- A drive that does nothing stays as it is. -/
theorem settled_of_ne (h : ∀ r polls w, d.phase ≠ .busy r polls w) : d.settled = d := by
  cases hphase : d.phase with
  | busy r polls w => exact absurd hphase (h r polls w)
  | _ => rw [settled, hphase]

theorem poll_of_ne (h : ∀ r polls w, d.phase ≠ .busy r polls w) : d.poll = d := by
  cases hphase : d.phase with
  | busy r polls w => exact absurd hphase (h r polls w)
  | _ => rw [poll, hphase]

@[simp] theorem settled_settled (d : Drive) : d.settled.settled = d.settled :=
  settled_of_ne fun r polls w => settled_phase_ne r w polls d

theorem poll_settled (d : Drive) : d.settled.poll = d.settled :=
  poll_of_ne fun r polls w => settled_phase_ne r w polls d

@[simp] theorem settled_finish (r : Reaction) (w : Work) (d : Drive) :
    (d.finish r w).settled = d.finish r w :=
  settled_of_ne fun r' polls w' => finish_phase_ne r r' w w' polls d

@[simp] theorem settled_poll (d : Drive) : d.poll.settled = d.settled := by
  cases h : d.phase with
  | busy r polls w =>
    cases polls with
    | zero =>
      have hpoll : d.poll = d.finish r w := by rw [poll, h]
      have hsettled : d.settled = d.finish r w := by rw [settled, h]
      rw [hpoll, hsettled, settled_finish]
    | succ polls =>
      have hpoll : d.poll = { d with phase := .busy r polls w } := by rw [poll, h]
      have hsettled : d.settled = d.finish r w := by rw [settled, h]
      rw [hpoll, hsettled]
      rfl
  | _ => rw [show d.poll = d by rw [poll, h]]

/-- So many polls see the end of a piece of work that takes fewer. -/
theorem iterate_poll {r : Reaction} {w : Work} : ∀ {n polls : Nat} {d : Drive},
    d.phase = .busy r polls w → poll^[n] d =
      if polls < n then d.settled else { d with phase := .busy r (polls - n) w } := by
  intro n
  induction n with
  | zero =>
    intro polls d h
    rw [if_neg (Nat.not_lt_zero polls), Nat.sub_zero, ← h]
    rfl
  | succ n ih =>
    intro polls d h
    rw [Function.iterate_succ_apply]
    cases polls with
    | zero =>
      have hdone : d.poll = d.settled := by rw [poll, settled, h]
      rw [hdone, Function.iterate_fixed d.poll_settled, if_pos (Nat.succ_pos n)]
    | succ polls =>
      have hpoll : d.poll = { d with phase := .busy r polls w } := by rw [poll, h]
      have hphase : d.poll.phase = .busy r polls w := by rw [hpoll]
      rw [ih hphase, settled_poll, hpoll]
      simp only [Nat.add_lt_add_iff_right, Nat.add_sub_add_right]

theorem finish_reactions (r : Reaction) (w : Work) (d : Drive) :
    (d.finish r w).reactions = d.reactions := by
  unfold finish
  split
  · rfl
  · cases w with
    | store lba left sector => cases left <;> rfl
    | _ => rfl

@[simp] theorem settled_reactions (d : Drive) : d.settled.reactions = d.reactions := by
  cases h : d.phase with
  | busy r polls w => rw [settled, h]; exact finish_reactions r w d
  | _ => rw [settled, h]

@[simp] theorem poll_reactions (d : Drive) : d.poll.reactions = d.reactions := by
  rw [← settled_reactions d.poll, settled_poll, settled_reactions]

theorem or_and_right (a b c : UInt8) : (a ||| b) &&& c = a &&& c ||| b &&& c :=
  UInt8.toBitVec_inj.mp BitVec.and_or_distrib_right

/-- An idle drive, or one with its hand on the data register, is not busy. -/
theorem status_bsy (d : Drive) : d.settled.status &&& bsy = 0 := by
  cases h : d.settled.phase with
  | busy r polls w => exact absurd h (settled_phase_ne r w polls d)
  | idle error =>
    rw [status, h]
    cases error <;> decide
  | _ =>
    rw [status, h]
    show (drdy ||| drq) &&& bsy = 0
    decide

theorem Within.finish (h : Within n d) (r : Reaction) (w : Work) : Within n (d.finish r w) where
  coming := by
    rw [finish_reactions]
    exact h.coming
  present := fun r' polls w' hphase => absurd hphase (finish_phase_ne r r' w w' polls d)

theorem Within.settled (h : Within n d) : Within n d.settled := by
  cases hphase : d.phase with
  | busy r polls w => rw [Drive.settled, hphase]; exact h.finish r w
  | _ => rw [Drive.settled, hphase]; exact h

theorem Within.poll (h : Within n d) : Within n d.poll := by
  cases hphase : d.phase with
  | busy r polls w =>
    cases polls with
    | zero => rw [Drive.poll, hphase]; exact h.finish r w
    | succ polls =>
      rw [Drive.poll, hphase]
      refine ⟨h.coming, fun r' polls' w' hbusy => ?_⟩
      have hpresent := h.present _ _ _ hphase
      injection hbusy with hr hpolls hw
      subst hr hpolls
      exact ⟨by omega, hpresent.2⟩
  | _ => rw [Drive.poll, hphase]; exact h

/-! ## A host that waits -/

/-- A loop that reads up to a number of times, until what it reads decides. -/
def pollFor {σ β ρ : Type} (read : σ → β × σ) (test : β → Option ρ) : Nat → σ → Option ρ × σ
  | 0, s => (none, s)
  | n + 1, s =>
    match test (read s).1 with
    | some answer => (some answer, (read s).2)
    | none => pollFor read test n (read s).2

/-- **A host that waits long enough**, for something that a busy drive does not show, gets its
    answer of the drive whose work is over. -/
theorem pollFor_settled {ρ : Type} {test : UInt8 → Option ρ} {answer : ρ}
    (hbusy : ∀ bits : UInt8, bits &&& err = 0 → test (bsy ||| bits) = none) :
    ∀ {n : Nat} {d : Drive}, (∀ r polls w, d.phase = .busy r polls w → polls < n) →
      Within bound d → 0 < n → test d.settled.status = some answer →
      pollFor inStatus test n d = (some answer, d.settled) := by
  intro n
  induction n with
  | zero =>
    intro d _ _ hpos
    exact absurd hpos (Nat.lt_irrefl 0)
  | succ n ih =>
    intro d hpolls hwithin _ hdone
    -- the status is of a drive that is done, or of one that is busy still
    have hnow : d.poll = d.settled →
        pollFor inStatus test (n + 1) d = (some answer, d.settled) := by
      intro hpoll
      rw [pollFor, inStatus, hpoll, hdone]
    cases hphase : d.phase with
    | busy r polls w =>
      cases polls with
      | zero =>
        apply hnow
        rw [poll, settled, hphase]
      | succ polls =>
        have hpoll : d.poll = { d with phase := .busy r polls w } := by rw [poll, hphase]
        have hbits := (hwithin.present _ _ _ hphase).2
        have hstatus : d.poll.status = bsy ||| r.bits := by rw [hpoll, status]
        have hlater := ih (d := d.poll) (by
            intro r' polls' w' hlater
            have hlt := hpolls _ _ _ hphase
            rw [hpoll] at hlater
            cases hlater
            omega)
          hwithin.poll (by have hlt := hpolls _ _ _ hphase; omega) (by rw [settled_poll, hdone])
        rw [pollFor, inStatus, hstatus, hbusy _ hbits]
        exact hlater.trans (by rw [settled_poll])
    | _ =>
      apply hnow
      rw [poll, settled, hphase]

/-! ## A host that moves words -/

/-- So many reads of a register. -/
def readTimes {σ β : Type} (read : σ → β × σ) : Nat → σ → List β × σ
  | 0, s => ([], s)
  | n + 1, s => ((read s).1 :: (readTimes read n (read s).2).1, (readTimes read n (read s).2).2)

/-- A sector that was fetched is read: the drive goes on with the next. -/
theorem readTimes_inData {lba left : Nat} : ∀ {words : List UInt16} {d : Drive},
    d.phase = .dataIn lba left words → words ≠ [] →
    readTimes inData words.length d = (words, d.readOn lba left) := by
  intro words
  induction words with
  | nil => exact fun _ hne => absurd rfl hne
  | cons w words ih =>
    intro d hphase _
    cases words with
    | nil =>
      have hin : d.inData = (w, d.readOn lba left) := by rw [inData, hphase]
      rw [List.length_cons, readTimes, hin]
      rfl
    | cons w' words =>
      have hin : d.inData = (w, { d with phase := .dataIn lba left (w' :: words) }) := by
        rw [inData, hphase]
      have hrest := ih (d := { d with phase := .dataIn lba left (w' :: words) }) rfl
        (List.cons_ne_nil _ _)
      rw [List.length_cons, readTimes, hin, hrest]
      cases left <;> rfl

/-- A sector is handed over: the drive stores it. -/
theorem foldl_outData {lba left : Nat} : ∀ {words done : List UInt16} {d : Drive},
    d.phase = .dataOut lba left done → words ≠ [] → done.length + words.length = 256 →
    words.foldl (fun d v => d.outData v) d =
      d.begin (.store lba left (Block.pad 512 ((done ++ words).flatMap putU16))) := by
  intro words
  induction words with
  | nil => exact fun _ hne => absurd rfl hne
  | cons w words ih =>
    intro done d hphase _ hlength
    rw [List.length_cons] at hlength
    cases words with
    | nil =>
      have hlast : ¬ done.length + 1 < 256 := by simp at hlength; omega
      rw [List.foldl_cons, List.foldl_nil, outData, hphase]
      exact if_neg hlast
    | cons w' words =>
      have hmore : done.length + 1 < 256 := by simp at hlength; omega
      have hout : d.outData w = { d with phase := .dataOut lba left (done ++ [w]) } := by
        rw [outData, hphase]
        exact if_pos hmore
      rw [List.foldl_cons, hout]
      rw [ih (d := { d with phase := .dataOut lba left (done ++ [w]) }) rfl
        (List.cons_ne_nil _ _) (by simp at hlength ⊢; omega), List.append_assoc]
      rfl

/-! ## What a piece of work leaves alone -/

/-- What happens next. -/
def next (d : Drive) : Reaction := d.reactions.headD ⟨0, 0, false⟩

theorem begin_eq (w : Work) (d : Drive) :
    d.begin w = { d with reactions := d.reactions.tail, phase := .busy d.next d.next.polls w } := by
  unfold begin next
  cases h : d.reactions with
  | nil =>
    cases d
    cases h
    rfl
  | cons r rest => rfl

theorem begin_reactions (w : Work) (d : Drive) : (d.begin w).reactions = d.reactions.tail := by
  rw [begin_eq]

theorem finish_phase (r : Reaction) (w : Work) (phase : Phase) (d : Drive) :
    Drive.finish r w { d with phase } = d.finish r w := by
  unfold finish
  split
  · rfl
  · cases w with
    | store lba left sector => cases left <;> rfl
    | _ => rfl

/-- How a piece of work ends that is begun now. -/
theorem settled_begin (w : Work) (d : Drive) : (d.begin w).settled =
    Drive.finish d.next w { d with reactions := d.reactions.tail } := by
  rw [begin_eq, settled]
  exact finish_phase d.next w _ { d with reactions := d.reactions.tail }

theorem Within.begin (h : Within n d) (hpos : 0 < n) (w : Work) : Within n (d.begin w) := by
  rw [begin_eq]
  refine ⟨fun r hr => h.coming r (List.mem_of_mem_tail hr), fun r polls w' hbusy => ?_⟩
  cases hbusy
  unfold next
  cases hreactions : d.reactions with
  | nil => exact ⟨hpos, rfl⟩
  | cons r rest => exact h.coming r (by rw [hreactions]; exact List.mem_cons_self)

end Drive

end Lib
end BumbelBee
