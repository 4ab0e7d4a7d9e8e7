import BumbelBee.Kernel.FlushSteps
import BumbelBee.Lib.Preempt
import BumbelBee.Proof.Transmit

/-!
# The flush against the timer

`flush_tx_queue` drains the queue with interrupts enabled, and the timer's handler drains the
same queue. Where the handler does so before the loop's test or behind its end, each packet
is sent once. Between the test and `tx_count--` the handler leaves the loop a queue that is
empty: the round under way sends a packet that was sent, or a slot that holds none, and
takes one away from a count of zero.

`Draining` is what holds at every statement as long as no handler flushes in there: of the
packets queued at the call, the first `k` have been sent and the others are still queued.
-/

namespace BumbelBee
namespace Proof

open Lib Kernel

/-- The foreground's call and the hardware's interrupts. -/
def flushRace : Preemptible (FlushFrame × Devices) Irq where
  step := flushStep
  handle i s := (s.1, isrDispatch i s.2)

/-! ## Undisturbed -/

/-- One round is the loop's body. -/
theorem flushStep_body {d : Devices} (h : Rings d.net) (hcount : d.net.txCount ≠ 0)
    (slot : Nat) (flushed : UInt32 × UInt32) :
    flushStep^[7] (⟨slot, flushed.1, flushed.2, .test⟩, d) =
      (⟨d.net.txHead.toNat, (flushOne flushed d).1.1, (flushOne flushed d).1.2, .test⟩,
        (flushOne flushed d).2) := by
  let pkt := d.net.txQueue d.net.txHead.toNat
  obtain ⟨-, -, hkept⟩ := transmitNow_spec pkt.data.bytes pkt.len h
    (by rw [Block.length_bytes]; exact pkt.fits)
  have htest : flushStep (⟨slot, flushed.1, flushed.2, .test⟩, d) =
      (⟨slot, flushed.1, flushed.2, .pkt⟩, d) := by
    simp only [flushStep, if_neg hcount]
  -- the length is read behind `transmit_now`, which leaves the slot alone
  have hbody : flushStep^[6] (⟨slot, flushed.1, flushed.2, .pkt⟩, d) =
      (⟨d.net.txHead.toNat, flushed.1 + 1, flushed.2 +
        ((transmitNow pkt.data.bytes pkt.len d).net.txQueue d.net.txHead.toNat).len, .test⟩,
        (flushOne flushed d).2) := rfl
  rw [Function.iterate_succ_apply, htest, hbody, hkept.txQueue]
  rfl

theorem flushStep_loop : ∀ (n : Nat) {d : Devices}, Rings d.net → d.net.txCount.toNat = n →
    ∀ (slot : Nat) (flushed : UInt32 × UInt32), ∃ slot',
      flushStep^[7 * n] (⟨slot, flushed.1, flushed.2, .test⟩, d) =
        (⟨slot', (flushLoop n flushed d).1.1, (flushLoop n flushed d).1.2, .test⟩,
          (flushLoop n flushed d).2) := by
  intro n
  induction n with
  | zero => exact fun _ _ slot _ => ⟨slot, rfl⟩
  | succ n ih =>
    intro d h hn slot flushed
    obtain ⟨-, -, -, hrings, hcount, -⟩ := flushOne_spec h hn flushed
    have hne : d.net.txCount ≠ 0 := fun h0 => by
      rw [h0] at hn
      exact absurd hn (by simp)
    obtain ⟨slot', hrun⟩ := ih hrings hcount d.net.txHead.toNat (flushOne flushed d).1
    refine ⟨slot', ?_⟩
    rw [Nat.mul_succ, Function.iterate_add_apply, flushStep_body h hne slot flushed, hrun]
    rfl

/-- **Undisturbed** the statements do what `flush_tx_queue` does. -/
theorem flushSteps_eq {d : Devices} (h : Rings d.net) :
    (flushStep^[7 * d.net.txCount.toNat + 4] (FlushFrame.enter, d)).2 = flushTxQueue d ∧
      (flushStep^[7 * d.net.txCount.toNat + 4] (FlushFrame.enter, d)).1.next = .done := by
  obtain ⟨slot, hloop⟩ := flushStep_loop d.net.txCount.toNat h rfl 0 (0, 0)
  obtain ⟨-, -, hcount, -⟩ := flushLoop_spec d.net.txCount.toNat (0, 0) h rfl
  have htest : ∀ f d', d'.net.txCount = 0 → f.next = .test →
      flushStep (f, d') = ({ f with next := .pendingBytes }, d') := by
    intro f d' h0 hnext
    simp only [flushStep, hnext, if_pos h0]
  rw [Nat.add_comm, Function.iterate_add_apply, FlushFrame.enter, hloop,
    show 4 = 3 + 1 from rfl, Function.iterate_succ_apply, htest _ _ hcount rfl]
  exact ⟨rfl, rfl⟩

/-! ## What the call still has to send

At each statement the packets still to be sent are those in the queue, but between the send and
`tx_count--`, where the first of them has been sent and is still counted. `unsent` says so, and the
invariant is about it.
-/

/-- The packets the call has not sent yet, oldest first. Behind `transmit_now` the head's is
    still in the queue; behind `tx_head` the count is one too high. -/
def unsent (next : FlushStmt) (n : Netfs) : List (List UInt8) :=
  match next with
  | .packets | .bytes | .head => (payloads n).tail
  | .count =>
    (window netfsQueueCap n.txQueue n.txHead.toNat (n.txCount.toNat - 1)).map NetPacket.payload
  | _ => payloads n

/-- Of the packets queued at the call the first `k` have been sent. -/
structure Draining (d₀ : Devices) (k : Nat) (f : FlushFrame) (d : Devices) : Prop where
  rings : Rings d.net
  few : d.net.txCount.toNat ≤ d₀.net.txCount.toNat
  sent : d.sent = d₀.sent ++ (payloads d₀.net).take k
  left : unsent f.next d.net = (payloads d₀.net).drop k
  /-- The loop's test has seen a packet, -/
  body : f.next.inBody = true → d.net.txCount ≠ 0
  /-- or none. -/
  behind : f.next.inBody = false → f.next ≠ .test → d.net.txCount = 0
  slot : f.next = .transmit → f.slot = d.net.txHead.toNat

variable {d₀ d : Devices} {k slot : Nat} {packets bytes : UInt32}

theorem Draining.enter (h : Rings d.net) : Draining d 0 FlushFrame.enter d :=
  ⟨h, le_refl _, (List.append_nil _).symm, rfl, fun h => Bool.noConfusion h,
    fun _ h => absurd rfl h, fun h => FlushStmt.noConfusion h⟩

/-- What is left when the first of it is sent. -/
theorem drop_next {L : List (List UInt8)} {p : List UInt8} {rest : List (List UInt8)}
    (h : p :: rest = L.drop k) : rest = L.drop (k + 1) ∧ L.take k ++ [p] = L.take (k + 1) := by
  have hget : L[k]? = some p := by
    rw [← List.head?_drop, ← h]
    rfl
  refine ⟨?_, ?_⟩
  · rw [← List.tail_drop, ← h]
    rfl
  · rw [List.take_add_one, hget]
    rfl

/-- A queue that is not empty, taken apart. -/
theorem payloads_cons (h : Rings d.net) (hcount : d.net.txCount ≠ 0) :
    payloads d.net = (d.net.txQueue d.net.txHead.toNat).payload ::
      (window netfsQueueCap d.net.txQueue ((d.net.txHead.toNat + 1) % netfsQueueCap)
        (d.net.txCount.toNat - 1)).map NetPacket.payload := by
  obtain ⟨n, hn⟩ := Nat.exists_eq_succ_of_ne_zero fun h0 => hcount (UInt32.toNat_inj.mp h0)
  rw [payloads, queued, hn, window_succ, List.map_cons, Nat.mod_eq_of_lt h.txHead]
  rfl

/-! ## One statement

Each of the statements moves one of three things: what has been sent, the head, the count. In
between they do not agree with one another, and `Draining` has for each place which of them is
ahead.
-/

theorem Draining.test (h : Draining d₀ k ⟨slot, packets, bytes, .test⟩ d) :
    Draining d₀ k ⟨slot, packets, bytes, if d.net.txCount = 0 then .pendingBytes else .pkt⟩ d := by
  split
  · rename_i hcount
    exact ⟨h.rings, h.few, h.sent, h.left, fun hb => Bool.noConfusion hb, fun _ _ => hcount,
      fun hn => FlushStmt.noConfusion hn⟩
  · rename_i hcount
    exact ⟨h.rings, h.few, h.sent, h.left, fun _ => hcount, fun hb => Bool.noConfusion hb,
      fun hn => FlushStmt.noConfusion hn⟩

theorem Draining.pkt (h : Draining d₀ k ⟨slot, packets, bytes, .pkt⟩ d) :
    Draining d₀ k ⟨d.net.txHead.toNat, packets, bytes, .transmit⟩ d :=
  ⟨h.rings, h.few, h.sent, h.left, fun _ => h.body rfl, fun hb => Bool.noConfusion hb, fun _ => rfl⟩

/-- The first packet left is sent. -/
theorem Draining.transmit (h : Draining d₀ k ⟨slot, packets, bytes, .transmit⟩ d) :
    Draining d₀ (k + 1) ⟨slot, packets, bytes, .packets⟩
      (transmitNow (d.net.txQueue slot).data.bytes (d.net.txQueue slot).len d) := by
  have hslot : slot = d.net.txHead.toNat := h.slot rfl
  have hcount : d.net.txCount ≠ 0 := h.body rfl
  obtain ⟨hlink, hrings, hkept⟩ := transmitNow_spec (d.net.txQueue slot).data.bytes
    (d.net.txQueue slot).len h.rings
    (by rw [Block.length_bytes]; exact NetPacket.fits _)
  have hcons := payloads_cons h.rings hcount
  have hleft : payloads d.net = (payloads d₀.net).drop k := h.left
  obtain ⟨hrest, htake⟩ := drop_next (hcons.symm.trans hleft)
  have hsent : (transmitNow (d.net.txQueue slot).data.bytes (d.net.txQueue slot).len d).sent =
      d.sent ++ [(d.net.txQueue slot).payload] :=
    (congrArg Link.sent hlink).trans ((link d).send_sent _).1
  refine ⟨hrings, by rw [hkept.txCount]; exact h.few, ?_, ?_, fun _ => ?_,
    fun hb => Bool.noConfusion hb, fun hn => FlushStmt.noConfusion hn⟩
  · rw [hsent, h.sent, List.append_assoc, hslot, htake]
  · rw [unsent, hkept.payloads, hcons, List.tail_cons, hrest]
  · rw [hkept.txCount]
    exact hcount

/-- `flushed_packets` and `flushed_bytes`. -/
theorem Draining.tally {next : FlushStmt}
    (h : Draining d₀ k ⟨slot, packets, bytes, next⟩ d) (hnext : next = .packets ∨ next = .bytes)
    {packets' bytes' : UInt32} {next' : FlushStmt} (hnext' : next' = .bytes ∨ next' = .head) :
    Draining d₀ k ⟨slot, packets', bytes', next'⟩ d := by
  have hunsent : unsent next' d.net = unsent next d.net := by
    rcases hnext with rfl | rfl <;> rcases hnext' with rfl | rfl <;> rfl
  have hcount : d.net.txCount ≠ 0 := h.body (by rcases hnext with rfl | rfl <;> rfl)
  refine ⟨h.rings, h.few, h.sent, hunsent.trans h.left, fun _ => hcount, fun hb => ?_, fun hn => ?_⟩
  · rcases hnext' with rfl | rfl <;> cases hb
  · rcases hnext' with rfl | rfl <;> cases hn

/-- The head moves on: the count is one too high for it. -/
theorem Draining.head (h : Draining d₀ k ⟨slot, packets, bytes, .head⟩ d) :
    Draining d₀ k ⟨slot, packets, bytes, .count⟩ { d with net := { d.net with
      txHead := (d.net.txHead + 1) % UInt32.ofNat netfsQueueCap } } := by
  have hcount : d.net.txCount ≠ 0 := h.body rfl
  have hleft : (payloads d.net).tail = (payloads d₀.net).drop k := h.left
  refine ⟨⟨h.rings.rxHead, h.rings.rxCount, next_lt _, h.rings.txCount⟩, h.few, h.sent, ?_,
    fun _ => hcount, fun hb => Bool.noConfusion hb, fun hn => FlushStmt.noConfusion hn⟩
  rw [← hleft, payloads_cons h.rings hcount, List.tail_cons, ← next_toNat h.rings.txHead]
  rfl

theorem Draining.count (h : Draining d₀ k ⟨slot, packets, bytes, .count⟩ d) :
    Draining d₀ k ⟨slot, packets, bytes, .test⟩
      { d with net := { d.net with txCount := d.net.txCount - 1 } } := by
  have hpred := pred_toNat (h.body rfl)
  have hfew := h.few
  have hcap := h.rings.txCount
  refine ⟨⟨h.rings.rxHead, h.rings.rxCount, h.rings.txHead, ?_⟩, ?_, h.sent, ?_,
    fun hb => Bool.noConfusion hb, fun _ ht => absurd rfl ht, fun hn => FlushStmt.noConfusion hn⟩
  · show (d.net.txCount - 1).toNat ≤ netfsQueueCap
    omega
  · show (d.net.txCount - 1).toNat ≤ d₀.net.txCount.toNat
    omega
  · rw [← h.left]
    simp only [unsent, payloads, queued, hpred]

/-- The statements behind the loop touch no queue. -/
theorem Draining.behindLoop {next next' : FlushStmt} {d' : Devices}
    (h : Draining d₀ k ⟨slot, packets, bytes, next⟩ d) (hnext : next.inBody = false)
    (htest : next ≠ .test) (hnext' : next'.inBody = false)
    (hsent : d'.sent = d.sent) (pending : UInt32)
    (hnet : d'.net = { d.net with txPendingBytes := pending }) :
    Draining d₀ k ⟨slot, packets, bytes, next'⟩ d' := by
  have hcount : d.net.txCount = 0 := h.behind hnext htest
  have hempty : ∀ {next : FlushStmt}, next.inBody = false → unsent next d.net = [] := by
    intro next hnext
    have hnone : payloads d.net = [] :=
      List.eq_nil_of_length_eq_zero (by rw [length_payloads, hcount]; rfl)
    cases next <;> first | exact hnone | cases hnext
  refine ⟨?_, ?_, ?_, ?_, fun hb => ?_, fun _ _ => ?_, fun hn => ?_⟩
  · rw [hnet]
    exact ⟨h.rings.rxHead, h.rings.rxCount, h.rings.txHead, h.rings.txCount⟩
  · rw [hnet]
    exact h.few
  · rw [hsent]
    exact h.sent
  · rw [← h.left, hempty hnext, ← hempty hnext', hnet]
    cases next' <;> rfl
  · rw [hnext'] at hb
    cases hb
  · rw [hnet]
    exact hcount
  · have hn' : next' = .transmit := hn
    rw [hn'] at hnext'
    cases hnext'

/-- **One statement.** -/
theorem Draining.step {f : FlushFrame} (h : Draining d₀ k f d) :
    ∃ k', Draining d₀ k' (flushStep (f, d)).1 (flushStep (f, d)).2 := by
  obtain ⟨slot, packets, bytes, next⟩ := f
  cases next with
  | test => exact ⟨k, h.test⟩
  | pkt => exact ⟨k, h.pkt⟩
  | transmit => exact ⟨k + 1, h.transmit⟩
  | packets => exact ⟨k, h.tally (Or.inl rfl) (Or.inl rfl)⟩
  | bytes => exact ⟨k, h.tally (Or.inr rfl) (Or.inr rfl)⟩
  | head => exact ⟨k, h.head⟩
  | count => exact ⟨k, h.count⟩
  | pendingBytes => exact ⟨k, h.behindLoop rfl (by decide) rfl rfl _ rfl⟩
  | setPending => exact ⟨k, h.behindLoop rfl (by decide) rfl rfl _ rfl⟩
  | noteFlushed =>
    have hkept : (powerNoteNetFlushed packets bytes d).net = d.net ∧
        (powerNoteNetFlushed packets bytes d).sent = d.sent := by
      unfold powerNoteNetFlushed
      split <;> exact ⟨rfl, rfl⟩
    exact ⟨k, h.behindLoop rfl (by decide) rfl hkept.2 d.net.txPendingBytes hkept.1⟩
  | done => exact ⟨k, h⟩

/-- What leaves the network driver alone. -/
theorem Draining.other {f : FlushFrame} {d' : Devices} (h : Draining d₀ k f d)
    (hnet : d'.net = d.net) (hsent : d'.sent = d.sent) : Draining d₀ k f d' := by
  refine ⟨?_, ?_, ?_, ?_, ?_, ?_, ?_⟩
  · rw [hnet]; exact h.rings
  · rw [hnet]; exact h.few
  · rw [hsent]; exact h.sent
  · rw [hnet]; exact h.left
  · rw [hnet]; exact h.body
  · rw [hnet]; exact h.behind
  · rw [hnet]; exact h.slot

/-- **A handler that does not flush the queue under the loop's hands.** In front of the test
    it may: the loop finds nothing left to do. Behind the loop there is nothing to flush. -/
theorem Draining.handle {f : FlushFrame} (h : Draining d₀ k f d) (i : Irq)
    (hquiet : irqFlushes i d = false ∨ f.next.inBody = false) :
    ∃ k', Draining d₀ k' f (isrDispatch i d) := by
  rcases isrDispatch_spec i d with ⟨-, hnet, hsent⟩ | ⟨hflush, htick, d₁, hnet, hsent, hnet', hsent'⟩
  · exact ⟨k, h.other hnet hsent⟩
  have hbody : f.next.inBody = false := hquiet.resolve_left (by rw [hflush]; exact Bool.noConfusion)
  have htest : f.next = .test := by
    by_contra hne
    have hcount := h.behind hbody hne
    rw [tickFlushes, hcount] at htick
    simp at htick
  have hflushed : Flushed d₁ (flushTxQueue d₁) := flushTxQueue_spec (by rw [hnet]; exact h.rings)
  have hleft : payloads d.net = (payloads d₀.net).drop k := by
    have := h.left
    rwa [htest] at this
  refine ⟨(payloads d₀.net).length, ?_, ?_, ?_, ?_, fun hb => ?_, fun _ hne => absurd htest hne,
    fun hn => ?_⟩
  · rw [hnet']
    exact hflushed.rings
  · rw [hnet', hflushed.count]
    exact Nat.zero_le _
  · rw [hsent', show (flushTxQueue d₁).sent = d₁.sent ++ payloads d₁.net from
      (congrArg Link.sent hflushed.link).trans ((link d₁).sendAll_sent _).1, hsent, hnet, h.sent,
      hleft, List.append_assoc, List.take_append_drop, List.take_length]
  · rw [htest, hnet', List.drop_length]
    exact hflushed.payloads
  · rw [hbody] at hb
    cases hb
  · rw [htest] at hn
    cases hn

/-! ## The way to the end

A handler that flushes in front of the test only shortens the loop, and the others leave the count
alone. So the number of statements left goes down with every statement and does not go up with any
handler.
-/

/-- How many statements are left, with so many packets in the queue. -/
def stepsLeft (next : FlushStmt) (queued : Nat) : Nat :=
  match next with
  | .test => 7 * queued + 4
  | .pkt => 7 * queued + 3
  | .transmit => 7 * queued + 2
  | .packets => 7 * queued + 1
  | .bytes => 7 * queued
  | .head => 7 * queued - 1
  | .count => 7 * queued - 2
  | .pendingBytes => 3
  | .setPending => 2
  | .noteFlushed => 1
  | .done => 0

def statementsLeft (s : FlushFrame × Devices) : Nat := stepsLeft s.1.next s.2.net.txCount.toNat

theorem stepsLeft_mono (next : FlushStmt) {m n : Nat} (h : m ≤ n) :
    stepsLeft next m ≤ stepsLeft next n := by
  cases next <;> simp only [stepsLeft] <;> omega

/-- A statement is one less. -/
theorem Draining.stepsLeft_step {f : FlushFrame} (h : Draining d₀ k f d) :
    statementsLeft (flushStep (f, d)) ≤ statementsLeft (f, d) - 1 := by
  obtain ⟨slot, packets, bytes, next⟩ := f
  cases next with
  | test =>
    by_cases hcount : d.net.txCount = 0
    · simp only [statementsLeft, flushStep, if_pos hcount, stepsLeft]
      omega
    · simp only [statementsLeft, flushStep, if_neg hcount, stepsLeft]
      omega
  | transmit =>
    obtain ⟨-, -, hkept⟩ := transmitNow_spec (d.net.txQueue slot).data.bytes
      (d.net.txQueue slot).len h.rings (by rw [Block.length_bytes]; exact NetPacket.fits _)
    simp only [statementsLeft, flushStep, hkept.txCount, stepsLeft]
    omega
  | count =>
    have hpred := pred_toNat (h.body rfl)
    have hpos : 0 < d.net.txCount.toNat := Nat.pos_of_ne_zero fun h0 =>
      h.body rfl (UInt32.toNat_inj.mp h0)
    simp only [statementsLeft, flushStep, hpred, stepsLeft]
    omega
  | pkt | packets | bytes | head | pendingBytes | setPending | noteFlushed | done =>
    simp only [statementsLeft, flushStep, stepsLeft]
    omega

/-- A handler queues nothing. -/
theorem isrDispatch_few (h : Rings d.net) (i : Irq) :
    (isrDispatch i d).net.txCount.toNat ≤ d.net.txCount.toNat := by
  rcases isrDispatch_spec i d with ⟨-, hnet, -⟩ | ⟨-, -, d₁, hnet, -, hnet', -⟩
  · rw [hnet]
  · rw [hnet', (flushTxQueue_spec (by rw [hnet]; exact h)).count]
    exact Nat.zero_le _

/-- Behind the last statement the call is at its end. -/
theorem Draining.done_of_left {f : FlushFrame} (h : Draining d₀ k f d)
    (hleft : statementsLeft (f, d) = 0) : f.next = .done := by
  obtain ⟨slot, packets, bytes, next⟩ := f
  have hpos : next.inBody = true → 0 < d.net.txCount.toNat := fun hbody =>
    Nat.pos_of_ne_zero fun h0 => h.body hbody (UInt32.toNat_inj.mp h0)
  cases next with
  | done => rfl
  | bytes | head | count =>
    have hqueued := hpos rfl
    simp only [statementsLeft, stepsLeft] at hleft
    omega
  | test | pkt | transmit | packets | pendingBytes | setPending | noteFlushed =>
    simp only [statementsLeft, stepsLeft] at hleft
    omega

/-! ## Runs -/

/-- **The flush under interrupts.** When no handler flushes the queue between the loop's test and
    `tx_count--`, at every statement the packets sent are the first ones queued, each once, and
    the count has not grown; and when the call returns, all of them have been sent. It does
    return: seven statements for each packet queued and four more are enough, however many
    interrupts come between them.

    `h` is what every call of the driver keeps: both queues are rings within their arrays.
    `hallowed` is about each interrupt at the statement it comes in at: its handler does not
    flush, or the loop is not between its test and `tx_count--`. -/
theorem flush_race_safe {d : Devices} (h : Rings d.net) (slices : List (Slice Irq))
    (hallowed : flushRace.Allowed
      (fun i s => irqFlushes i s.2 = false ∨ s.1.next.inBody = false) slices (FlushFrame.enter, d)) :
    let s := flushRace.run slices (FlushFrame.enter, d)
    (∃ k, s.2.sent = d.sent ++ (payloads d.net).take k) ∧
      s.2.net.txCount.toNat ≤ d.net.txCount.toNat ∧
      (s.1.next = .done → s.2.sent = d.sent ++ payloads d.net ∧ s.2.net.txCount = 0) ∧
      (7 * d.net.txCount.toNat + 4 ≤ steps slices → s.1.next = .done) := by
  intro s
  obtain ⟨k, hdraining⟩ : ∃ k, Draining d k s.1 s.2 :=
    flushRace.run_keeps (fun _ s => ∃ k, Draining d k s.1 s.2)
      (fun _ _ hinv => hinv.elim fun _ h => h.step)
      (fun _ i _ hquiet hinv => hinv.elim fun _ h => h.handle i hquiet)
      slices [] ⟨0, Draining.enter h⟩ hallowed
  have hleft : statementsLeft s ≤ statementsLeft (FlushFrame.enter, d) - steps slices :=
    flushRace.run_ends (fun s => ∃ k, Draining d k s.1 s.2) statementsLeft
      (fun _ hinv => hinv.elim fun _ h => ⟨h.step, h.stepsLeft_step⟩)
      (fun i _ hquiet hinv => hinv.elim fun _ h =>
        ⟨h.handle i hquiet, stepsLeft_mono _ (isrDispatch_few h.rings i)⟩)
      slices ⟨0, Draining.enter h⟩ hallowed
  have hstart : statementsLeft (FlushFrame.enter, d) = 7 * d.net.txCount.toNat + 4 := rfl
  refine ⟨⟨k, hdraining.sent⟩, hdraining.few, fun hdone => ?_,
    fun henough => hdraining.done_of_left (show statementsLeft s = 0 by omega)⟩
  have hcount : s.2.net.txCount = 0 :=
    hdraining.behind (by rw [hdone]; rfl) (by rw [hdone]; exact FlushStmt.noConfusion)
  have hnone : payloads s.2.net = [] :=
    List.eq_nil_of_length_eq_zero (by rw [length_payloads, hcount]; rfl)
  have hleft := hdraining.left
  rw [hdone, show unsent .done s.2.net = payloads s.2.net from rfl, hnone, eq_comm,
    List.drop_eq_nil_iff] at hleft
  refine ⟨?_, hcount⟩
  rw [hdraining.sent, List.take_of_length_le hleft]

/-- Two packets are queued, and the next tick is the third. -/
def tickDue : Devices :=
  let d := booted Devices.loaded
  let d := (netfsWritePath (cstr "/net/tx") [1] d).2
  let d := (netfsWritePath (cstr "/net/tx") [2] d).2
  powerTickHook (powerTickHook d)

/-- The timer comes in behind `pkt = &tx_queue[tx_head]`: the first packet is sent a second
    time, and one is taken away from a count of zero. -/
theorem flush_race_twice :
    let slices := List.replicate 2 .step ++ [.interrupt .timer] ++ List.replicate 5 .step
    let s := flushRace.run slices (FlushFrame.enter, tickDue)
    payloads tickDue.net = [[1], [2]] ∧ s.2.sent = [[1], [2], [1]] ∧
      s.2.net.txCount = 0xffffffff := by
  decide +kernel

/-- In front of the second test it does no harm. -/
theorem flush_race_safe_tested :
    let slices := List.replicate 7 .step ++ [.interrupt .timer] ++ List.replicate 4 .step
    let s := flushRace.run slices (FlushFrame.enter, tickDue)
    s.2.sent = [[1], [2]] ∧ s.2.net.txCount = 0 := by
  intro slices s
  have hrings : Rings tickDue.net := ⟨by decide +kernel, by decide +kernel, by decide +kernel,
    by decide +kernel⟩
  obtain ⟨-, -, hdone, -⟩ := flush_race_safe hrings slices (by
    simp only [slices, Preemptible.Allowed, List.replicate, List.cons_append, List.nil_append]
    decide +kernel)
  have hrun := hdone (by decide +kernel)
  have hqueued : tickDue.sent ++ payloads tickDue.net = [[1], [2]] := by decide +kernel
  exact ⟨hrun.1.trans hqueued, hrun.2⟩

end Proof
end BumbelBee
