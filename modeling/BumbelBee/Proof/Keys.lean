import BumbelBee.Lib.Run
import BumbelBee.Proof.Transmit

/-!
# Are keys delivered in the order they are typed?

A key reaches the buffer the shell reads from by one of two ways: at once, or through the
power manager's queue, which a tick empties into the buffer. `PowerStep` is what a call can
do to the two rings and to the counters kept for them. Keys stay in order (`keys_in_order`) as
long as none is typed in performance mode past the queue.

The order is lost in one place only. A switch to performance mode leaves the queue as it is and
changes the way of the keys that come next, so these overtake what is queued until a tick comes.
That switching flushes is what the user guide says, and no code does it.
-/

namespace BumbelBee
namespace Proof

open Lib Kernel

/-! ## Runs -/

/-- What comes to the keyboard's buffer and to the power manager. -/
inductive KeyOp
  | key (ch : UInt8)
  | getchar
  | net (op : NetOp)
deriving DecidableEq

def KeyOp.run : KeyOp → Devices → Devices
  | .key ch, d => powerKeyboardChar ch d
  | .getchar, d => { d with keyboard := (keyboardGetchar d.keyboard).2 }
  | .net op, d => (op.run d).2

/-- The characters given to `power_keyboard_char`. -/
def KeyOp.types : KeyOp → List UInt8
  | .key ch => [ch]
  | _ => []

/-- What `keyboard_getchar` returns where it finds a character. -/
def KeyOp.returns : KeyOp → Devices → List Int
  | .getchar, d => if d.keyboard.head = d.keyboard.tail then [] else [(keyboardGetchar d.keyboard).1]
  | _, _ => []

/-- A `char` as the `int` it is returned as. -/
def charValue (ch : UInt8) : Int := ch.toInt8.toInt

def typed (ops : List KeyOp) : List UInt8 := ops.flatMap KeyOp.types

def returned : List KeyOp → Devices → List Int := outputs KeyOp.run KeyOp.returns

/-! ## The two rings

The power manager's queue and the keyboard's buffer are rings with their own conventions: the one
has a head and a count, the other two free-running counters.
-/

/-- The characters in the keyboard's buffer, oldest first. -/
def unread (k : Keyboard) : List UInt8 :=
  window keyboardBufferCap k.buffer k.tail.toNat (k.head - k.tail).toNat

/-- The characters in the power manager's queue, oldest first. -/
def coalesced (p : Power) : List UInt8 :=
  window powerKeyboardQcap p.keyboardQ p.keyboardHead.toNat p.keyboardCount.toNat

/-- The characters that are on their way. -/
def outstanding (d : Devices) : Nat :=
  (d.keyboard.head - d.keyboard.tail).toNat + d.power.keyboardCount.toNat

@[simp] theorem length_unread (k : Keyboard) : (unread k).length = (k.head - k.tail).toNat := by
  simp [unread]

theorem keySlot_toNat {head count : UInt32} (hhead : head.toNat < powerKeyboardQcap)
    (hcount : count.toNat ≤ powerKeyboardQcap) :
    ((head + count) % UInt32.ofNat powerKeyboardQcap).toNat =
      (head.toNat + count.toNat) % powerKeyboardQcap := by
  have hcap : powerKeyboardQcap = 256 := rfl
  have hsum : (head + count).toNat = head.toNat + count.toNat := by
    rw [UInt32.toNat_add, Nat.mod_eq_of_lt (by omega)]
  rw [UInt32.toNat_mod, hsum]
  rfl

theorem keyboardBufferPut_unread {k : Keyboard} (hroom : (k.head - k.tail).toNat < keyboardBufferCap)
    (ch : UInt8) : unread (keyboardBufferPut ch k) = unread k ++ [ch] := by
  have hcap : keyboardBufferCap = 256 := rfl
  have hcount : (k.head + 1 - k.tail).toNat = (k.head - k.tail).toNat + 1 := by
    rw [show k.head + 1 - k.tail = k.head - k.tail + 1 by grind, UInt32.toNat_add]
    simp only [UInt32.reduceToNat]
    omega
  -- the indices wrap at 2^32, a multiple of the buffer's size
  have hslot : k.head.toNat % keyboardBufferCap =
      (k.tail.toNat + (k.head - k.tail).toNat) % keyboardBufferCap := by
    have hhead : k.head.toNat = (k.tail.toNat + (k.head - k.tail).toNat) % 2 ^ 32 := by
      rw [← UInt32.toNat_add]
      congr 1
      grind
    rw [hhead, hcap, Nat.mod_mod_of_dvd _ (by decide)]
  rw [unread, keyboardBufferPut, hslot, hcount]
  exact window_put _ _ _ hroom

theorem keyboardGetchar_unread {k : Keyboard} (h : k.head ≠ k.tail) :
    ∃ ch, unread k = ch :: unread (keyboardGetchar k).2 ∧
      (keyboardGetchar k).1 = charValue ch ∧
      ((keyboardGetchar k).2.head - (keyboardGetchar k).2.tail).toNat + 1 =
        (k.head - k.tail).toNat := by
  have hcap : keyboardBufferCap = 256 := rfl
  have hne : k.head - k.tail ≠ 0 := fun h0 => h (by grind)
  have hcount : (k.head - (k.tail + 1)).toNat + 1 = (k.head - k.tail).toNat := by
    have hpos : (k.head - k.tail).toNat ≠ 0 := fun h0 => hne (UInt32.toNat_inj.mp h0)
    rw [show k.head - (k.tail + 1) = k.head - k.tail - 1 by grind, pred_toNat hne]
    omega
  have hnext : (k.tail + 1).toNat % keyboardBufferCap =
      (k.tail.toNat + 1) % keyboardBufferCap := by
    rw [UInt32.toNat_add, hcap, Nat.mod_mod_of_dvd _ (by decide)]
    rfl
  rw [keyboardGetchar, if_neg h]
  refine ⟨_, ?_, rfl, hcount⟩
  rw [unread, ← hcount, window_succ, ← hnext, window_mod]
  rfl

/-! ## What a call can do -/

/-- No key moves. -/
structure KeysKept (d d' : Devices) : Prop where
  keyboard : d'.keyboard = d.keyboard
  keyboardQ : d'.power.keyboardQ = d.power.keyboardQ
  keyboardHead : d'.power.keyboardHead = d.power.keyboardHead
  keyboardCount : d'.power.keyboardCount = d.power.keyboardCount

/-- Keys, queues and counters stay, but for the mode and the count of its changes. -/
structure Quiet (d d' : Devices) : Prop extends KeysKept d d' where
  txCount : d'.net.txCount = d.net.txCount
  stats : d'.power.stats =
    { d.power.stats with mode := d'.power.stats.mode, modeSwitches := d'.power.stats.modeSwitches }

/-- **One call** of the network driver or of the power manager, by the rings it empties and
    fills. -/
inductive PowerStep (d : Devices) : NetOp → Devices → Prop
  | quiet {op d'} : Quiet d d' → PowerStep d op d'
  | queued {data p d₀ d₁ d'} : (d₀ = d ∨ Flushed d d₀) → Enqueued p d₀ d₁ →
      (d' = d₁ ∨ Flushed d₁ d') → PowerStep d (.tx data) d'
  | flushed {d'} : Flushed d d' → PowerStep d .flush d'
  | ticked {d₀ d₂ d'} : Quiet d d₀ →
      (d₂ = keyboardFlushNow d₀ ∨ Flushed (keyboardFlushNow d₀) d₂) → Quiet d₂ d' →
      PowerStep d .tick d'

theorem TxKept.quiet {d d' : Devices} (h : TxKept d d') : Quiet d d' := by
  refine ⟨⟨h.keyboard, ?_, ?_, ?_⟩, h.txCount, ?_⟩ <;> rw [h.power]

theorem Enqueued.keys {p : List UInt8} {d d' : Devices} (h : Enqueued p d d') : KeysKept d d' := by
  refine ⟨h.keyboard, ?_, ?_, ?_⟩ <;> rw [h.power]

theorem Flushed.keys {d d' : Devices} (h : Flushed d d') : KeysKept d d' := by
  refine ⟨h.keyboard, ?_, ?_, ?_⟩ <;> rw [h.power]

theorem powerTickHook_step {d : Devices} (h : Rings d.net) : PowerStep d .tick (powerTickHook d) := by
  let d₀ := { d with power := { d.power with ticksSinceFlush := d.power.ticksSinceFlush + 1 } }
  have hquiet : Quiet d d₀ := ⟨⟨rfl, rfl, rfl, rfl⟩, rfl, rfl⟩
  by_cases hdue : d₀.power.ticksSinceFlush ≥ powerKeyboardFlushInterval d₀.power
  · have hrun : powerTickHook d = { netfsPowerTick (keyboardFlushNow d₀) with
        power := { (netfsPowerTick (keyboardFlushNow d₀)).power with ticksSinceFlush := 0 } } :=
      if_pos hdue
    rw [hrun]
    have hpackets : netfsPowerTick (keyboardFlushNow d₀) = keyboardFlushNow d₀ ∨
        Flushed (keyboardFlushNow d₀) (netfsPowerTick (keyboardFlushNow d₀)) := by
      rw [netfsPowerTick]
      split
      · refine Or.inr (flushTxQueue_spec ?_)
        rw [(keyboardFlushNow_kept d₀).net]
        exact h
      · exact Or.inl rfl
    exact .ticked hquiet hpackets ⟨⟨rfl, rfl, rfl, rfl⟩, rfl, rfl⟩
  · rw [show powerTickHook d = d₀ from if_neg hdue]
    exact .quiet hquiet

/-- Writes and flushes. -/
theorem NetStep.power {d d' : Devices} {op : NetOp} {r : Int} (hstep : NetStep d op r d')
    (htick : op ≠ .tick) (hmode : ∀ mode, op ≠ .setMode mode) : PowerStep d op d' := by
  cases hstep with
  | sent _ _ _ hkept => exact .quiet hkept.quiet
  | queued _ hroom henqueued _ => exact .queued (hroom.imp_right And.right) henqueued (Or.inl rfl)
  | queuedAndFlushed _ hroom henqueued hflushed =>
    exact .queued (hroom.imp_right And.right) henqueued (Or.inr hflushed)
  | injected _ _ hkept => exact .quiet hkept.quiet
  | loopback _ _ hkept => exact .quiet hkept.quiet
  | flushed hflushed => exact .flushed hflushed
  | keys _ => exact absurd rfl htick
  | tickFlushed _ _ _ => exact absurd rfl htick
  | mode _ _ _ _ _ _ _ => exact absurd rfl (hmode _)

theorem NetOp.run_power {d : Devices} (h : Rings d.net) (op : NetOp) :
    PowerStep d op (op.run d).2 := by
  cases op with
  | tick => exact powerTickHook_step h
  | setMode mode =>
    simp only [NetOp.run, powerSetMode]
    split <;> exact .quiet ⟨⟨rfl, rfl, rfl, rfl⟩, rfl, rfl⟩
  | _ => exact (NetOp.run_step h _).power (by simp) (by simp)

/-- The rings of the network driver stay rings. -/
theorem KeyOp.run_rings {d : Devices} (h : Rings d.net) (op : KeyOp) : Rings (op.run d).net := by
  cases op with
  | key ch =>
    simp only [KeyOp.run, powerKeyboardChar]
    split <;> exact h
  | getchar => exact h
  | net op => exact (NetOp.run_step h op).rings h

/-! ## A key -/

/-- The key goes to the buffer at once. -/
def KeyOp.direct (op : KeyOp) (d : Devices) : Bool :=
  op.types != [] && (d.power.mode == powerModePerformance ||
    d.power.keyboardCount ≥ UInt32.ofNat powerKeyboardQcap)

theorem powerKeyboardChar_direct {ch : UInt8} {d : Devices} (h : (KeyOp.key ch).direct d = true) :
    powerKeyboardChar ch d = { d with
      keyboard := keyboardBufferPut ch d.keyboard
      power := { d.power with stats := { d.power.stats with
        keyboardEvents := d.power.stats.keyboardEvents + 1
        wakeups := d.power.stats.wakeups + 1 } } } := by
  refine if_pos ?_
  simpa [KeyOp.direct, KeyOp.types] using h

theorem powerKeyboardChar_queued {ch : UInt8} {d : Devices} (h : (KeyOp.key ch).direct d = false) :
    powerKeyboardChar ch d = { d with power := { d.power with
      keyboardQ := Function.update d.power.keyboardQ
        ((d.power.keyboardHead + d.power.keyboardCount) % UInt32.ofNat powerKeyboardQcap).toNat ch
      keyboardCount := d.power.keyboardCount + 1
      stats := { d.power.stats with
        keyboardEvents := d.power.stats.keyboardEvents + 1
        pendingKeys := d.power.keyboardCount + 1
        keyboardCoalesced := d.power.stats.keyboardCoalesced + 1 } } } := by
  refine if_neg ?_
  simpa [KeyOp.direct, KeyOp.types] using h

/-- What is queued has a slot. -/
theorem KeyOp.not_direct {ch : UInt8} {d : Devices} (h : (KeyOp.key ch).direct d = false) :
    d.power.mode ≠ powerModePerformance ∧ d.power.keyboardCount.toNat < powerKeyboardQcap := by
  have hcap : (UInt32.ofNat powerKeyboardQcap).toNat = powerKeyboardQcap := by decide
  simpa [KeyOp.direct, KeyOp.types, UInt32.lt_iff_toNat_lt, hcap] using h

/-! ## Emptying the queue -/

/-- What emptying the queue leaves of the power manager. -/
theorem keyboardDrain_power : ∀ (n : Nat) {d : Devices}, d.power.keyboardCount.toNat = n →
    ∃ head, (keyboardDrain n d).power = { d.power with keyboardHead := head, keyboardCount := 0 } ∧
      (d.power.keyboardHead.toNat < powerKeyboardQcap → head.toNat < powerKeyboardQcap)
  | 0, d, hn => by
    have hzero : d.power.keyboardCount = 0 := UInt32.toNat_inj.mp hn
    exact ⟨d.power.keyboardHead, by rw [← hzero]; rfl, id⟩
  | n + 1, d, hn => by
    have hpred : (d.power.keyboardCount - 1).toNat = n := by
      rw [pred_toNat (fun h0 => by rw [h0] at hn; exact absurd hn (by simp)), hn]
      rfl
    obtain ⟨head, hpower, hhead⟩ := @keyboardDrain_power n { d with
      keyboard := keyboardBufferPut (d.power.keyboardQ d.power.keyboardHead.toNat) d.keyboard
      power := { d.power with
        keyboardHead := (d.power.keyboardHead + 1) % UInt32.ofNat powerKeyboardQcap
        keyboardCount := d.power.keyboardCount - 1 } } hpred
    refine ⟨head, hpower, fun _ => hhead ?_⟩
    show ((d.power.keyboardHead + 1) % UInt32.ofNat powerKeyboardQcap).toNat < powerKeyboardQcap
    rw [UInt32.toNat_mod]
    exact Nat.mod_lt _ (by decide)

/-- **Emptying the queue** puts what it holds behind what is unread, as long as there is room. -/
theorem keyboardDrain_unread : ∀ (n : Nat) {d : Devices}, d.power.keyboardCount.toNat = n →
    d.power.keyboardHead.toNat < powerKeyboardQcap → outstanding d ≤ keyboardBufferCap →
    unread (keyboardDrain n d).keyboard = unread d.keyboard ++ coalesced d.power ∧
      outstanding (keyboardDrain n d) = outstanding d
  | 0, d, hn, _, _ => by
    rw [coalesced, hn, window_zero, List.append_nil]
    exact ⟨rfl, rfl⟩
  | n + 1, d, hn, hhead, hroom => by
    have hpred : (d.power.keyboardCount - 1).toNat = n := by
      rw [pred_toNat (fun h0 => by rw [h0] at hn; exact absurd hn (by simp)), hn]
      rfl
    have hcap : keyboardBufferCap = 256 := rfl
    let ch := d.power.keyboardQ d.power.keyboardHead.toNat
    let d₁ : Devices := { d with
      keyboard := keyboardBufferPut ch d.keyboard
      power := { d.power with
        keyboardHead := (d.power.keyboardHead + 1) % UInt32.ofNat powerKeyboardQcap
        keyboardCount := d.power.keyboardCount - 1 } }
    have hput : unread d₁.keyboard = unread d.keyboard ++ [ch] :=
      keyboardBufferPut_unread (by rw [outstanding] at hroom; omega) ch
    have hnext : d₁.power.keyboardHead.toNat =
        (d.power.keyboardHead.toNat + 1) % powerKeyboardQcap := keySlot_toNat hhead (by decide)
    have htaken : coalesced d.power = ch :: coalesced d₁.power := by
      rw [coalesced, hn, window_succ, Nat.mod_eq_of_lt hhead, coalesced, hnext, hpred]
    have hmoved : outstanding d₁ = outstanding d := by
      have hlength := congrArg List.length hput
      rw [List.length_append, length_unread, length_unread, List.length_singleton] at hlength
      rw [outstanding, outstanding, hlength, hpred, hn]
      omega
    obtain ⟨hunread, hsame⟩ := keyboardDrain_unread n hpred
      (by rw [hnext]; exact Nat.mod_lt _ (by decide)) (hmoved.trans_le hroom)
    refine ⟨?_, hsame.trans hmoved⟩
    rw [htaken, List.append_cons, ← hput]
    exact hunread

theorem keyboardFlushNow_power (d : Devices) :
    (d.power.keyboardCount = 0 ∧ keyboardFlushNow d = d) ∨
      (d.power.keyboardCount ≠ 0 ∧ ∃ head, (keyboardFlushNow d).power = { d.power with
        keyboardHead := head
        keyboardCount := 0
        stats := { d.power.stats with
          wakeups := d.power.stats.wakeups + 1
          keyboardFlushes := d.power.stats.keyboardFlushes + 1
          pendingKeys := 0 } } ∧
        (d.power.keyboardHead.toNat < powerKeyboardQcap → head.toNat < powerKeyboardQcap)) := by
  by_cases hempty : d.power.keyboardCount = 0
  · exact Or.inl ⟨hempty, if_pos hempty⟩
  · let d₁ : Devices := { d with power := { d.power with stats := { d.power.stats with
      wakeups := d.power.stats.wakeups + 1
      keyboardFlushes := d.power.stats.keyboardFlushes + 1 } } }
    obtain ⟨head, hpower, hhead⟩ := keyboardDrain_power d.power.keyboardCount.toNat (d := d₁) rfl
    refine Or.inr ⟨hempty, head, ?_, hhead⟩
    rw [keyboardFlushNow, if_neg hempty]
    simp only [hpower, d₁]

theorem keyboardFlushNow_unread {d : Devices} (hhead : d.power.keyboardHead.toNat < powerKeyboardQcap)
    (hroom : outstanding d ≤ keyboardBufferCap) :
    unread (keyboardFlushNow d).keyboard = unread d.keyboard ++ coalesced d.power ∧
      coalesced (keyboardFlushNow d).power = [] ∧
      outstanding (keyboardFlushNow d) = outstanding d ∧
      (keyboardFlushNow d).power.keyboardHead.toNat < powerKeyboardQcap := by
  rcases keyboardFlushNow_power d with ⟨hempty, hrun⟩ | ⟨hempty, head, hpower, hnext⟩
  · have hnone : coalesced d.power = [] := by rw [coalesced, hempty]; rfl
    rw [hrun, hnone, List.append_nil]
    exact ⟨rfl, rfl, rfl, hhead⟩
  · let d₁ : Devices := { d with power := { d.power with stats := { d.power.stats with
      wakeups := d.power.stats.wakeups + 1
      keyboardFlushes := d.power.stats.keyboardFlushes + 1 } } }
    obtain ⟨hunread, hsame⟩ :=
      keyboardDrain_unread d.power.keyboardCount.toNat (d := d₁) rfl hhead hroom
    have hkeyboard : (keyboardFlushNow d).keyboard =
        (keyboardDrain d.power.keyboardCount.toNat d₁).keyboard := by
      rw [keyboardFlushNow, if_neg hempty]
    have hcount : (keyboardFlushNow d).power.keyboardCount =
        (keyboardDrain d.power.keyboardCount.toNat d₁).power.keyboardCount := by
      rw [keyboardFlushNow, if_neg hempty]
    refine ⟨hkeyboard ▸ hunread, ?_, ?_, ?_⟩
    · rw [hpower]
      rfl
    · rw [outstanding, hkeyboard, hcount]
      exact hsame
    · rw [hpower]
      exact hnext hhead

/-! ## The line from the keyboard to the shell

A character typed is in the queue, in the buffer or read, in this order from the newest to the
oldest. Every operation moves the borders between the three.
-/

/-- A key that comes in performance mode while others are in the queue. -/
def KeyOp.overtakes (op : KeyOp) (d : Devices) : Bool :=
  op.types != [] && d.power.mode == powerModePerformance && d.power.keyboardCount != 0

/-- The characters typed are those read, those in the buffer and those in the queue. -/
structure InLine (acc read : List UInt8) (d : Devices) : Prop where
  head : d.power.keyboardHead.toNat < powerKeyboardQcap
  few : outstanding d < keyboardBufferCap
  line : acc = read ++ unread d.keyboard ++ coalesced d.power

variable {acc read : List UInt8} {d d' : Devices}

theorem InLine.kept (h : InLine acc read d) (hkept : KeysKept d d') : InLine acc read d' := by
  refine ⟨?_, ?_, ?_⟩
  · rw [hkept.keyboardHead]
    exact h.head
  · rw [outstanding, hkept.keyboard, hkept.keyboardCount]
    exact h.few
  · rw [coalesced, hkept.keyboard, hkept.keyboardQ, hkept.keyboardHead, hkept.keyboardCount]
    exact h.line

theorem InLine.emptied (h : InLine acc read d) : InLine acc read (keyboardFlushNow d) := by
  obtain ⟨hunread, hnone, hsame, hhead⟩ := keyboardFlushNow_unread h.head h.few.le
  refine ⟨hhead, hsame.trans_lt h.few, ?_⟩
  rw [hunread, hnone, List.append_nil, ← List.append_assoc]
  exact h.line

/-- A call of the drivers moves keys from the queue to the buffer, or none. -/
theorem InLine.net {op : NetOp} (h : InLine acc read d) (hstep : PowerStep d op d') :
    InLine acc read d' := by
  cases hstep with
  | quiet hquiet => exact h.kept hquiet.toKeysKept
  | @queued _ _ d₀ d₁ _ hroom henqueued hbatch =>
    have h₁ : InLine acc read d₁ := by
      rcases hroom with rfl | hflushed
      · exact h.kept henqueued.keys
      · exact (h.kept hflushed.keys).kept henqueued.keys
    rcases hbatch with rfl | hflushed
    · exact h₁
    · exact h₁.kept hflushed.keys
  | flushed hflushed => exact h.kept hflushed.keys
  | ticked hquiet hflush hlast =>
    have h₁ := (h.kept hquiet.toKeysKept).emptied
    rcases hflush with rfl | hflushed
    · exact h₁.kept hlast.toKeysKept
    · exact (h₁.kept hflushed.keys).kept hlast.toKeysKept

/-- **A key** joins the queue, or the buffer when nothing is in the queue. -/
theorem InLine.key {ch : UInt8} (h : InLine acc read d)
    (hqueue : (KeyOp.key ch).overtakes d = false)
    (hfew : outstanding (powerKeyboardChar ch d) < keyboardBufferCap) :
    InLine (acc ++ [ch]) read (powerKeyboardChar ch d) := by
  have hcap : keyboardBufferCap = 256 := rfl
  have hqcap : powerKeyboardQcap = 256 := rfl
  have hbefore := h.few
  rw [outstanding] at hbefore
  -- a key that is handed on goes behind the buffer, with nothing queued in front of it
  by_cases hdirect : (KeyOp.key ch).direct d = true
  · have hmode : d.power.mode = powerModePerformance := by
      by_contra hmode
      have hfull : ¬ d.power.keyboardCount < UInt32.ofNat powerKeyboardQcap := by
        simpa [KeyOp.direct, KeyOp.types, hmode] using hdirect
      exact hfull (UInt32.lt_iff_toNat_lt.mpr (show d.power.keyboardCount.toNat < 256 by omega))
    have hnone : coalesced d.power = [] := by
      have hempty : d.power.keyboardCount = 0 := by
        simpa [KeyOp.overtakes, KeyOp.types, hmode] using hqueue
      rw [coalesced, hempty]
      rfl
    have hline := h.line
    rw [hnone, List.append_nil] at hline
    rw [powerKeyboardChar_direct hdirect] at hfew ⊢
    refine ⟨h.head, hfew, ?_⟩
    rw [keyboardBufferPut_unread (by omega), hline]
    exact (List.append_assoc ..).trans ((List.append_nil _).symm.trans (congrArg _ hnone.symm))
  · rw [Bool.not_eq_true] at hdirect
    -- one that is queued goes behind the queue
    have hcount := (KeyOp.not_direct hdirect).2
    have hslot := keySlot_toNat h.head hcount.le
    have hsucc : (d.power.keyboardCount + 1).toNat = d.power.keyboardCount.toNat + 1 := by
      rw [UInt32.toNat_add]
      simp only [UInt32.reduceToNat]
      omega
    rw [powerKeyboardChar_queued hdirect] at hfew ⊢
    refine ⟨h.head, hfew, ?_⟩
    simp only [coalesced]
    rw [hslot, hsucc, window_put _ _ _ hcount, ← List.append_assoc, h.line]
    rfl

theorem InLine.getchar (h : InLine acc read d) : ∃ now,
    (KeyOp.getchar).returns d = now.map charValue ∧
      InLine acc (read ++ now) (KeyOp.getchar.run d) := by
  by_cases hempty : d.keyboard.head = d.keyboard.tail
  · refine ⟨[], if_pos hempty, ?_⟩
    rw [List.append_nil]
    refine h.kept ⟨?_, rfl, rfl, rfl⟩
    simp only [KeyOp.run, keyboardGetchar, if_pos hempty]
  · obtain ⟨ch, hunread, hvalue, hcount⟩ := keyboardGetchar_unread hempty
    refine ⟨[ch], ?_, h.head, ?_, ?_⟩
    · simp only [KeyOp.returns, if_neg hempty, hvalue]
      rfl
    · have hfew := h.few
      rw [outstanding] at hfew ⊢
      simp only [KeyOp.run]
      omega
    · rw [h.line, hunread]
      simp only [KeyOp.run, List.append_assoc, List.cons_append, List.nil_append]

/-- **One operation.** -/
theorem InLine.step {op : KeyOp} (h : InLine acc read d) (hrings : Rings d.net)
    (hfew : outstanding (op.run d) < keyboardBufferCap) (hqueue : op.overtakes d = false) :
    ∃ now, op.returns d = now.map charValue ∧
      InLine (acc ++ op.types) (read ++ now) (op.run d) := by
  cases op with
  | key ch => exact ⟨[], rfl, by rw [List.append_nil]; exact h.key hqueue hfew⟩
  | getchar =>
    obtain ⟨now, hnow, hread⟩ := h.getchar
    exact ⟨now, hnow, by rw [show KeyOp.getchar.types = [] from rfl, List.append_nil]; exact hread⟩
  | net op =>
    refine ⟨[], rfl, ?_⟩
    rw [show (KeyOp.net op).types = [] from rfl, List.append_nil, List.append_nil]
    exact h.net (op.run_power hrings)

/-! ## Order -/

/-- The characters read are the first ones typed, in order, and the others are on their way. -/
def DeliveredInOrder (ops : List KeyOp) (d : Devices) : Prop :=
  ∃ read, returned ops d = read.map charValue ∧
    typed ops = read ++ unread (runAll KeyOp.run ops d).keyboard ++
      coalesced (runAll KeyOp.run ops d).power

/-- **Keys are delivered in order**, while fewer than 256 are on their way, as long as every key
    that comes in performance mode finds the queue empty.

    `hfew` bounds the keys that are on their way, in the queue and in the buffer, by the size of the
    buffer: beyond it the oldest are overwritten. `hqueue` is on the state before each key: in
    performance mode, where a key goes past the queue, there is nothing in the queue. `d` is any
    state before the drivers' start. -/
theorem keys_in_order (d : Devices) (ops : List KeyOp)
    (hfew : EachStep KeyOp.run (fun op d => outstanding (op.run d) < 256) ops
      (booted (keyboardInit d)))
    (hqueue : EachStep KeyOp.run (fun op d => op.overtakes d = false) ops
      (booted (keyboardInit d))) :
    DeliveredInOrder ops (booted (keyboardInit d)) := by
  let start := booted (keyboardInit d)
  have hstart : InLine [] [] start := by
    have hempty : unread start.keyboard = [] :=
      List.eq_nil_of_length_eq_zero ((length_unread _).trans (by decide : ((0 : UInt32) - 0).toNat = 0))
    refine ⟨Nat.zero_lt_succ _, ?_, ?_⟩
    · show ((0 : UInt32) - 0).toNat + (0 : UInt32).toNat < keyboardBufferCap
      decide
    · rw [hempty]
      rfl
  have hrun := runAll_keeps (fun done d => Rings d.net ∧ ∃ read,
    returned done start = read.map charValue ∧ InLine (typed done) read d)
    ⟨booted_rings _, [], rfl, hstart⟩ (hfew.and hqueue) ?_
  · obtain ⟨-, read, hreturned, h⟩ := hrun
    exact ⟨read, hreturned, h.line⟩
  · intro done op hprefix hbefore hop
    obtain ⟨hrings, read, hreturned, h⟩ := hbefore
    obtain ⟨now, hnow, hstep⟩ := h.step hrings hop.1 hop.2
    refine ⟨op.run_rings hrings, read ++ now, ?_, ?_⟩
    · rw [returned, outputs_snoc, List.map_append, ← hnow]
      exact congrArg (· ++ _) hreturned
    · rw [typed, List.flatMap_append, List.flatMap_singleton]
      exact hstep

/-- `a` and `b`, with a tick before the mode changes, then `c` and three reads. -/
theorem keys_in_order_ticked : DeliveredInOrder [.key 0x61, .key 0x62, .net .tick, .net .tick,
    .net .tick, .getchar, .net (.setMode powerModePerformance), .key 0x63, .getchar, .getchar]
    (booted (keyboardInit Devices.loaded)) := by
  apply keys_in_order
  · simp only [EachStep, and_true]
    decide +kernel
  · simp only [EachStep, and_true]
    decide +kernel

/-- **Overtaken**: `b` is typed in performance mode while `a` is in the queue, and read first. -/
theorem keys_overtaken :
    let ops : List KeyOp := [.key 0x61, .net (.setMode powerModePerformance), .key 0x62, .getchar]
    EachStep KeyOp.run (fun op d => outstanding (op.run d) < 256) ops
        (booted (keyboardInit Devices.loaded)) ∧
      returned ops (booted (keyboardInit Devices.loaded)) = [0x62] ∧
      ¬ DeliveredInOrder ops (booted (keyboardInit Devices.loaded)) := by
  intro ops
  have hreturned : returned ops (booted (keyboardInit Devices.loaded)) = [0x62] := by
    decide +kernel
  refine ⟨?_, hreturned, ?_⟩
  · simp only [ops, EachStep, and_true]
    decide +kernel
  · rintro ⟨read, hread, htyped⟩
    rw [hreturned] at hread
    cases read with
    | nil => exact absurd hread (by simp)
    | cons ch read =>
      have hfirst : ch = 0x61 := (List.cons.inj htyped).1.symm
      rw [hfirst, List.map_cons] at hread
      exact absurd (List.cons.inj hread).1 (by decide)

end Proof
end BumbelBee
