import BumbelBee.Proof.Keys

/-!
# Does the keyboard's buffer return what was put into it?

`keyboard_buffer_put` does not look at the reader's counter, and `keyboard_getchar` answers -1
both for an empty buffer and for the character `0xff`. As long as every put finds a free slot
and is of another character, what is returned is what was put, in order, and -1 says that
nothing is left (`key_buffer_in_order`).

Both counters are free running and only their difference means anything. The invariant is therefore
about the list that was put and not yet got, of which the buffer holds each character at its number
modulo the size; that the counters go round is then a matter of the same modulus.
-/

namespace BumbelBee
namespace Proof

open Lib Kernel

variable {k : Keyboard} {log : List UInt8} {got : List Int} {ch : UInt8}

/-! ## Runs -/

/-- A call to the buffer. -/
inductive BufferOp
  | put (ch : UInt8)
  | getchar
deriving DecidableEq

def BufferOp.run : BufferOp → Keyboard → Keyboard
  | .put ch, k => keyboardBufferPut ch k
  | .getchar, k => (keyboardGetchar k).2

/-- The characters put. -/
def BufferOp.puts : BufferOp → List UInt8
  | .put ch => [ch]
  | .getchar => []

/-- What `keyboard_getchar` answers. -/
def BufferOp.answers : BufferOp → Keyboard → List Int
  | .put _, _ => []
  | .getchar, k => [(keyboardGetchar k).1]

def charsPut (ops : List BufferOp) : List UInt8 := ops.flatMap BufferOp.puts

/-- The characters returned: every answer but -1. -/
def charsReturned (ops : List BufferOp) (k : Keyboard) : List Int :=
  (outputs BufferOp.run BufferOp.answers ops k).filter (· ≠ -1)

/-- A put finds a free slot, and is not of the character that reads as -1. -/
def BufferOp.fits (op : BufferOp) (k : Keyboard) : Prop :=
  ∀ ch, op = .put ch → (k.head - k.tail).toNat < keyboardBufferCap ∧ ch ≠ 0xff

/-- What is returned is put, each put at most once and in order, and -1 says that no put is
    left to return. -/
structure ReturnsPuts (ops : List BufferOp) (k : Keyboard) : Prop where
  inOrder : List.Sublist (charsReturned ops k) ((charsPut ops).map charValue)
  empty : (keyboardGetchar (runAll BufferOp.run ops k)).1 = -1 ↔
    charsReturned ops k = (charsPut ops).map charValue

/-! ## One call

The counters are `u32`s that only go up, and the size of the buffer divides 2³², so a character's
place can be read off its number at any time.
-/

theorem charValue_eq_neg_one : charValue ch = -1 ↔ ch = 0xff := by
  constructor
  · intro h
    have hchar : ch.toInt8 = -1 := Int8.toInt_inj.mp h
    rw [← UInt8.toUInt8_toInt8 ch, hchar]
    rfl
  · rintro rfl
    rfl

theorem unread_eq_nil (h : k.head = k.tail) : unread k = [] := by
  refine List.eq_nil_of_length_eq_zero ?_
  rw [length_unread, h, UInt32.sub_self]
  rfl

/-- What was put is what was returned, and then what is unread. -/
structure Buffered (log : List UInt8) (got : List Int) (k : Keyboard) : Prop where
  order : ∃ read, log = read ++ unread k ∧ got = read.map charValue
  plain : ∀ ch ∈ log, ch ≠ 0xff

theorem Buffered.put (h : Buffered log got k)
    (hroom : (k.head - k.tail).toNat < keyboardBufferCap) (hplain : ch ≠ 0xff) :
    Buffered (log ++ [ch]) got (keyboardBufferPut ch k) := by
  obtain ⟨read, hputs, hgot⟩ := h.order
  refine ⟨⟨read, ?_, hgot⟩, fun c hc => ?_⟩
  · rw [keyboardBufferPut_unread hroom, hputs, List.append_assoc]
  · rcases List.mem_append.mp hc with hc | hc
    · exact h.plain c hc
    · rw [List.mem_singleton.mp hc]
      exact hplain

/-- A read returns the first unread character, or -1 where there is none. -/
theorem Buffered.getchar (h : Buffered log got k) :
    Buffered log (got ++ [(keyboardGetchar k).1].filter (· ≠ -1)) (keyboardGetchar k).2 := by
  by_cases hempty : k.head = k.tail
  · have hcall : keyboardGetchar k = (-1, k) := if_pos hempty
    rw [hcall]
    simpa using h
  · obtain ⟨read, hputs, hgot⟩ := h.order
    obtain ⟨ch, hunread, hch, -⟩ := keyboardGetchar_unread hempty
    have hmem : ch ∈ log := by
      rw [hputs, hunread]
      exact List.mem_append_right _ List.mem_cons_self
    have hvalue : charValue ch ≠ -1 := fun hneg => h.plain ch hmem (charValue_eq_neg_one.mp hneg)
    refine ⟨⟨read ++ [ch], ?_, ?_⟩, h.plain⟩
    · rw [hputs, hunread, List.append_assoc, List.singleton_append]
    · rw [hch, List.filter_cons_of_pos (by simpa using hvalue), List.filter_nil, hgot, List.map_append,
        List.map_singleton]

theorem Buffered.returnsPuts {ops : List BufferOp}
    (h : Buffered (charsPut ops) (charsReturned ops k) (runAll BufferOp.run ops k)) :
    ReturnsPuts ops k := by
  obtain ⟨read, hputs, hgot⟩ := h.order
  refine ⟨?_, ?_⟩
  · rw [hputs, hgot, List.map_append]
    exact List.sublist_append_left _ _
  · have hall : charsReturned ops k = (charsPut ops).map charValue ↔
        unread (runAll BufferOp.run ops k) = [] := by
      rw [hputs, hgot, List.map_append, List.self_eq_append_right, List.map_eq_nil_iff]
    rw [hall]
    by_cases hempty : (runAll BufferOp.run ops k).head = (runAll BufferOp.run ops k).tail
    · have hcall : (keyboardGetchar (runAll BufferOp.run ops k)).1 = -1 :=
        congrArg Prod.fst (if_pos hempty)
      exact iff_of_true hcall (unread_eq_nil hempty)
    · obtain ⟨ch, hunread, hch, -⟩ := keyboardGetchar_unread hempty
      rw [hunread, hch]
      refine iff_of_false (fun hneg => ?_) (List.cons_ne_nil _ _)
      refine h.plain ch ?_ (charValue_eq_neg_one.mp hneg)
      rw [hputs, hunread]
      exact List.mem_append_right _ List.mem_cons_self

/-! ## Every run -/

theorem Buffered.init (d : Devices) : Buffered [] [] (keyboardInit d).keyboard :=
  ⟨⟨[], (unread_eq_nil rfl).symm, rfl⟩, fun _ hch => absurd hch List.not_mem_nil⟩

theorem Buffered.step {op : BufferOp} (h : Buffered log got k) (hfits : op.fits k) :
    Buffered (log ++ op.puts) (got ++ (op.answers k).filter (· ≠ -1)) (op.run k) := by
  cases op with
  | put ch =>
    obtain ⟨hroom, hplain⟩ := hfits ch rfl
    rw [BufferOp.answers, List.filter_nil, List.append_nil]
    exact h.put hroom hplain
  | getchar =>
    rw [BufferOp.puts, List.append_nil]
    exact h.getchar

/-- **The buffer returns what is put into it**, in every run whose puts find a free slot and
    are not of the character `0xff`.

    `hfits` is about the state before each put: there is a free slot, and the character is not
    `0xff`, which a reader cannot tell from none. Gets come at any time. Nothing is asked of the
    counters, which go round in a run that is long enough. -/
theorem key_buffer_in_order (d : Devices) (ops : List BufferOp)
    (hfits : EachStep BufferOp.run BufferOp.fits ops (keyboardInit d).keyboard) :
    ReturnsPuts ops (keyboardInit d).keyboard := by
  refine Buffered.returnsPuts (runAll_keeps
    (fun done k => Buffered (charsPut done) (charsReturned done (keyboardInit d).keyboard) k)
    (Buffered.init d) hfits ?_)
  intro done op _ hdone hop
  have hstep := hdone.step hop
  rw [charsPut, List.flatMap_append, List.flatMap_singleton, charsReturned, outputs_snoc,
    List.filter_append]
  exact hstep

/-- Two characters put, one of them read, and then two reads. -/
theorem key_buffer_in_order_three : ReturnsPuts
    [.put 0x61, .put 0x62, .getchar, .getchar, .getchar] (keyboardInit Devices.loaded).keyboard := by
  apply key_buffer_in_order
  simp only [EachStep, BufferOp.fits, BufferOp.put.injEq, forall_eq', reduceCtorEq, false_implies,
    implies_true, and_true]
  decide +kernel

/-- One put too many: the next read returns the last character put, and the one behind it the
    second. -/
theorem key_buffer_overrun : ¬ ∀ (d : Devices) (ops : List BufferOp),
    ReturnsPuts ops (keyboardInit d).keyboard := by
  intro h
  have horder := (h Devices.loaded
    (List.replicate 256 (.put 0x61) ++ [.put 0x62, .getchar, .getchar])).inOrder
  exact absurd horder (by decide +kernel)

end Proof
end BumbelBee
