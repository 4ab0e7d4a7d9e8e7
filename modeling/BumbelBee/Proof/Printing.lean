import BumbelBee.Proof.Formatter

/-!
# What does the formatter print?

A format string that ends in no cut-off conversion is a row of pieces, and what comes out of
`fmt_vprintf` is what each piece stands for, one behind the other, the arguments taken in order
(`fmt_vprintf_prints`). Numbers come out as the numbers they are: a signed one of either width
with its sign, also the one whose negation is itself. Strings come out up to their terminator,
wherever in memory they lie, the last address included, behind which they go on at the first.

The arguments come as eight-byte words, of which a conversion takes one. A string argument is an
address, and what is printed is read from memory there; the loop goes up to the first zero and asks
for nothing else, so a string is taken to end somewhere: `VaList` has it that there is a zero in
memory.
-/

namespace BumbelBee
namespace Proof

open Lib Kernel

/-- The conversions that take an argument. -/
inductive Conversion
  | string | char | unsigned | signed | hex | longUnsigned | longSigned | longHex
deriving DecidableEq, Repr

/-- What a format string is made of. -/
inductive FormatPiece
  | text (c : UInt8)
  | convert (k : Conversion)
  | percent
  /-- `%` and a character that is no conversion -/
  | unknown (c : UInt8)
  /-- the same behind `%l` -/
  | unknownLong (c : UInt8)
deriving DecidableEq, Repr

namespace Conversion

def spec : Conversion → List UInt8
  | .string => [0x25, 0x73]
  | .char => [0x25, 0x63]
  | .unsigned => [0x25, 0x75]
  | .signed => [0x25, 0x64]
  | .hex => [0x25, 0x78]
  | .longUnsigned => [0x25, 0x6c, 0x75]
  | .longSigned => [0x25, 0x6c, 0x64]
  | .longHex => [0x25, 0x6c, 0x78]

/-- The characters in front of the first zero, from an address on. -/
def stringAt (mem : UInt64 → UInt8) (s : UInt64) : List UInt8 :=
  ((List.range addresses).map fun n => mem (s + UInt64.ofNat n)).takeWhile (· ≠ 0)

/-- A number with its sign. -/
def signedDecimal (n : Int) : List UInt8 :=
  if n < 0 then 0x2d :: decimal n.natAbs else decimal n.natAbs

/-- What an argument stands for. -/
def shows (va : VaList) (w : UInt64) : Conversion → List UInt8
  | .string => stringAt va.mem w
  | .char => [w.toUInt8]
  | .unsigned => decimal (w.toNat % 2 ^ 32)
  | .signed => signedDecimal w.toUInt32.toInt32.toInt
  | .hex => numeral 16 (w.toNat % 2 ^ 32)
  | .longUnsigned => decimal w.toNat
  | .longSigned => signedDecimal w.toInt64.toInt
  | .longHex => numeral 16 w.toNat

end Conversion

namespace FormatPiece

def spec : FormatPiece → List UInt8
  | .text c => [c]
  | .convert k => k.spec
  | .percent => [0x25, 0x25]
  | .unknown c => [0x25, c]
  | .unknownLong c => [0x25, 0x6c, c]

/-- The characters that begin a conversion behind `%`, and behind `%l`. -/
def shortLetters : List UInt8 := [0x73, 0x63, 0x75, 0x64, 0x78, 0x6c, 0x25]
def longLetters : List UInt8 := [0x75, 0x64, 0x78]

def Ok : FormatPiece → Prop
  | .text c => c ≠ 0 ∧ c ≠ 0x25
  | .convert _ => True
  | .percent => True
  | .unknown c => c ≠ 0 ∧ c ∉ shortLetters
  | .unknownLong c => c ≠ 0 ∧ c ∉ longLetters

/-- How many arguments it takes. -/
def takes : FormatPiece → Nat
  | .convert _ => 1
  | _ => 0

/-- What it stands for, where the next argument is `w`. -/
def shows (va : VaList) (w : UInt64) : FormatPiece → List UInt8
  | .text c => [c]
  | .convert k => k.shows va w
  | .percent => [0x25]
  | .unknown _ => [0x3f]
  | .unknownLong _ => []

end FormatPiece

/-- What a row of pieces stands for, behind `n` arguments taken. -/
def printed (va : VaList) : Nat → List FormatPiece → List UInt8
  | _, [] => []
  | n, p :: ps => p.shows va (va.word n) ++ printed va (n + p.takes) ps

/-! ## Strings -/

/-- The loop emits up to the first zero. -/
theorem emitString_eq (mem : UInt64 → UInt8) (fuel : Nat) (s : UInt64) : emitString mem fuel s =
    ((List.range fuel).map fun n => mem (s + UInt64.ofNat n)).takeWhile (· ≠ 0) := by
  induction fuel generalizing s with
  | zero => rfl
  | succ fuel ih =>
    have hnext : (fun n => mem (s + UInt64.ofNat n)) ∘ Nat.succ =
        fun n => mem (s + 1 + UInt64.ofNat n) := by
      funext n
      rw [Function.comp_apply, Nat.succ_eq_add_one, UInt64.ofNat_add, UInt64.add_comm (.ofNat n),
        UInt64.add_assoc]
      rfl
    have hfirst : s + UInt64.ofNat 0 = s := UInt64.add_zero s
    rw [emitString, ih, List.range_succ_eq_map, List.map_cons, List.map_map, hnext,
      List.takeWhile_cons, hfirst]
    by_cases hzero : mem s = 0 <;> simp [hzero]

/-- What is in front of the first zero is a string, if there is one. -/
theorem cString_takeWhile {mem : Nat → UInt8} : ∀ {room pos : Nat}, (∃ n < room, mem (pos + n) = 0) →
    CString mem pos (((List.range room).map fun n => mem (pos + n)).takeWhile (· ≠ 0)) := by
  intro room
  induction room with
  | zero =>
    rintro pos ⟨n, hn, -⟩
    exact absurd hn (Nat.not_lt_zero n)
  | succ room ih =>
    rintro pos ⟨n, hn, hend⟩
    rw [List.range_succ_eq_map, List.map_cons, List.map_map, List.takeWhile_cons, Nat.add_zero]
    by_cases hzero : mem pos = 0
    · rw [if_neg (by simp [hzero])]
      exact hzero
    · rw [if_pos (by simp [hzero])]
      have hnext : (fun n => mem (pos + n)) ∘ Nat.succ = fun n => mem (pos + 1 + n) :=
        funext fun n => congrArg mem (by omega)
      rw [hnext]
      refine ⟨hzero, rfl, ih ?_⟩
      cases n with
      | zero => exact absurd hend hzero
      | succ n => exact ⟨n, by omega, by rw [← hend]; congr 1; omega⟩

/-- **A string argument** stands for the string at its address. -/
theorem stringAt_cString (va : VaList) (s : UInt64) :
    CString (fun n => va.mem (s + UInt64.ofNat n)) 0 (Conversion.stringAt va.mem s) := by
  obtain ⟨a, ha⟩ := va.terminated
  have hend : va.mem (s + UInt64.ofNat (0 + (a - s).toNat)) = 0 := by
    rw [Nat.zero_add, UInt64.ofNat_toNat, UInt64.add_comm, UInt64.sub_add_cancel, ha]
  have hlt : (a - s).toNat < addresses := by
    rw [addresses]
    exact (a - s).toNat_lt
  have hstring : CString (fun n => va.mem (s + UInt64.ofNat n)) 0
      (((List.range addresses).map fun n => va.mem (s + UInt64.ofNat (0 + n))).takeWhile (· ≠ 0)) :=
    cString_takeWhile ⟨_, hlt, hend⟩
  simp only [Nat.zero_add] at hstring
  rw [Conversion.stringAt]
  exact hstring

/-! ## Numbers -/

theorem toInt_toInt64 (value : UInt64) : value.toInt64.toInt =
    if 2 * value.toNat < 2 ^ 64 then (value.toNat : Int) else (value.toNat : Int) - 2 ^ 64 :=
  BitVec.toInt_eq_toNat_cond value.toBitVec

/-- **A signed number** is printed as what it is. -/
theorem emitSigned_eq (value : UInt64) :
    emitSigned value = .ok (Conversion.signedDecimal value.toInt64.toInt) := by
  have hlt := value.toNat_lt
  have hint := toInt_toInt64 value
  have hneg : value.toInt64 < 0 ↔ value.toInt64.toInt < 0 := Int64.lt_iff_toInt_lt
  unfold emitSigned Conversion.signedDecimal
  by_cases h : value.toInt64 < 0
  · have hvalue := hneg.mp h
    rw [hint] at hvalue
    split at hvalue
    · omega
    rename_i hbig
    rw [if_neg hbig] at hint
    -- also of the least number, whose negation is itself
    have habs : (0 - value).toNat = value.toInt64.toInt.natAbs := by
      rw [UInt64.toNat_sub, hint]
      simp only [UInt64.toNat_zero]
      omega
    rw [if_pos h, if_pos (hneg.mp h), emitUnsigned_ten, numeral_ten, habs]
    rfl
  · have hvalue := fun h' => h (hneg.mpr h')
    have habs : value.toNat = value.toInt64.toInt.natAbs := by
      rw [hint] at hvalue ⊢
      split at hvalue
      · rename_i hsmall
        rw [if_pos hsmall]
        omega
      · exact absurd (by omega) hvalue
    rw [if_neg h, if_neg hvalue, emitUnsigned_ten, numeral_ten, ← habs]

/-! ## One piece -/

section
variable {mem : Nat → UInt8} {va : VaList} {s : FmtState}

/-- The conversions, as `fmt_vprintf` calls them. -/
def Conversion.emit (va : VaList) (w : UInt64) : Conversion → Except Overrun (List UInt8)
  | .string => .ok (emitString va.mem addresses w)
  | .char => .ok [w.toUInt8]
  | .unsigned => emitUnsigned w.toUInt32.toUInt64 10
  | .signed => emitSigned w.toUInt32.toInt32.toInt64.toUInt64
  | .hex => emitUnsigned w.toUInt32.toUInt64 16
  | .longUnsigned => emitUnsigned w 10
  | .longSigned => emitSigned w
  | .longHex => emitUnsigned w 16

theorem Conversion.emit_eq (va : VaList) (w : UInt64) (k : Conversion) :
    k.emit va w = .ok (k.shows va w) := by
  have hshort : w.toUInt32.toUInt64.toNat = w.toNat % 2 ^ 32 := by
    rw [UInt32.toNat_toUInt64, UInt64.toNat_toUInt32]
  cases k with
  | string => rw [emit, emitString_eq, shows, stringAt]
  | char => rfl
  | unsigned => simp only [emit, shows, emitUnsigned_ten, numeral_ten, hshort]
  | signed =>
    have hsame : w.toUInt32.toInt32.toInt64.toUInt64.toInt64 = w.toUInt32.toInt32.toInt64 := rfl
    simp only [emit, shows, emitSigned_eq, hsame, Int32.toInt_toInt64]
  | hex => simp only [emit, shows, emitUnsigned_sixteen, hshort]
  | longUnsigned => simp only [emit, shows, emitUnsigned_ten, numeral_ten]
  | longSigned => simp only [emit, shows, emitSigned_eq]
  | longHex => simp only [emit, shows, emitUnsigned_sixteen]

/-- A piece has been dealt with, up to a position. -/
def Behind (va : VaList) (p : FormatPiece) (pos : Nat) (s s' : FmtState) : Prop :=
  s'.pos = pos ∧ s'.taken = s.taken + p.takes ∧ s'.out = s.out ++ p.shows va (va.word s.taken)

theorem convert_shows (k : Conversion) (s : FmtState) :
    s.convert va (Conversion.emit va · k) =
      .ok { s with taken := s.taken + 1, out := s.out ++ k.shows va (va.word s.taken) } := by
  rw [FmtState.convert, k.emit_eq]
  rfl

theorem fmtBody_text (h : mem s.pos ≠ 0x25) : fmtBody mem va s = .ok (s.emit [mem s.pos]) :=
  if_pos h

theorem fmtBody_short (h : mem s.pos = 0x25) (h' : mem (s.pos + 1) ≠ 0x6c) :
    fmtBody mem va s = fmtShort va (mem (s.pos + 1)) s.next.look :=
  (if_neg (not_not.mpr h)).trans (if_neg h')

theorem fmtBody_long (h : mem s.pos = 0x25) (h' : mem (s.pos + 1) = 0x6c) :
    fmtBody mem va s = fmtLong va (mem (s.pos + 2)) s.next.look.next.look :=
  (if_neg (not_not.mpr h)).trans (if_pos h')

theorem fmtShort_unknown {c : UInt8} (h : c ∉ FormatPiece.shortLetters) (s : FmtState) :
    fmtShort va c s = .ok (s.emit [0x3f]) := by
  simp only [FormatPiece.shortLetters, List.mem_cons, not_or, List.not_mem_nil] at h
  obtain ⟨h₁, h₂, h₃, h₄, h₅, -, h₇, -⟩ := h
  simp only [fmtShort, h₁, h₂, h₃, h₄, h₅, h₇, if_false]

theorem fmtLong_unknown {c : UInt8} (h : c ∉ FormatPiece.longLetters) (s : FmtState) :
    fmtLong va c s = .ok s := by
  simp only [FormatPiece.longLetters, List.mem_cons, not_or, List.not_mem_nil] at h
  obtain ⟨h₁, h₂, h₃, -⟩ := h
  simp only [fmtLong, h₁, h₂, h₃, if_false]

/-- A conversion in the body of the loop: its argument is taken, and shown. -/
theorem fmtBody_convert (k : Conversion) {rest : List UInt8}
    (h : CString mem s.pos (k.spec ++ rest)) :
    ∃ s', fmtBody mem va s = .ok s' ∧ Behind va (.convert k) (s.pos + k.spec.length - 1) s s' := by
  have hpercent : mem s.pos = 0x25 := by cases k <;> exact h.2.1
  have hshort : ∀ {c : UInt8}, c ≠ 0x6c → mem (s.pos + 1) = c → k.spec.length = 2 →
      fmtShort va c s.next.look = s.next.look.convert va (Conversion.emit va · k) →
      ∃ s', fmtBody mem va s = .ok s' ∧
        Behind va (.convert k) (s.pos + k.spec.length - 1) s s' := by
    intro c hc hmem hlength hletter
    have hbody := (fmtBody_short hpercent (hmem ▸ hc)).trans
      ((hmem ▸ hletter).trans (convert_shows k _))
    exact ⟨_, hbody, by rw [hlength]; rfl, rfl, rfl⟩
  have hlong : ∀ {c : UInt8}, mem (s.pos + 1) = 0x6c → mem (s.pos + 2) = c → k.spec.length = 3 →
      fmtLong va c s.next.look.next.look =
        s.next.look.next.look.convert va (Conversion.emit va · k) →
      ∃ s', fmtBody mem va s = .ok s' ∧
        Behind va (.convert k) (s.pos + k.spec.length - 1) s s' := by
    intro c hmem hmem' hlength hletter
    have hbody := (fmtBody_long hpercent hmem).trans
      ((hmem' ▸ hletter).trans (convert_shows k _))
    exact ⟨_, hbody, by rw [hlength]; rfl, rfl, rfl⟩
  cases k with
  | string => exact hshort (by decide) h.2.2.2.1 rfl rfl
  | char => exact hshort (by decide) h.2.2.2.1 rfl rfl
  | unsigned => exact hshort (by decide) h.2.2.2.1 rfl rfl
  | signed => exact hshort (by decide) h.2.2.2.1 rfl rfl
  | hex => exact hshort (by decide) h.2.2.2.1 rfl rfl
  | longUnsigned => exact hlong h.2.2.2.1 h.2.2.2.2.2.1 rfl rfl
  | longSigned => exact hlong h.2.2.2.1 h.2.2.2.2.2.1 rfl rfl
  | longHex => exact hlong h.2.2.2.1 h.2.2.2.2.2.1 rfl rfl

/-- **One piece** in the body of the loop. -/
theorem fmtBody_piece (va : VaList) {p : FormatPiece} (hok : p.Ok) {rest : List UInt8}
    (h : CString mem s.pos (p.spec ++ rest)) :
    ∃ s', fmtBody mem va s = .ok s' ∧ Behind va p (s.pos + p.spec.length - 1) s s' := by
  cases p with
  | text c =>
    obtain ⟨-, hc, -⟩ := h
    have hbody : fmtBody mem va s = .ok (s.emit [c]) := by
      rw [fmtBody_text (hc ▸ hok.2), hc]
    exact ⟨_, hbody, rfl, rfl, rfl⟩
  | convert k => exact fmtBody_convert k h
  | percent =>
    obtain ⟨-, hpercent, -, hnext, -⟩ := h
    have hbody : fmtBody mem va s = .ok (s.next.look.emit [0x25]) := by
      rw [fmtBody_short hpercent (by rw [hnext]; decide), hnext]
      rfl
    exact ⟨_, hbody, rfl, rfl, rfl⟩
  | unknown c =>
    obtain ⟨-, hpercent, -, hnext, -⟩ := h
    have hbody : fmtBody mem va s = .ok (s.next.look.emit [0x3f]) := by
      rw [fmtBody_short hpercent (by rw [hnext]; rintro rfl; exact hok.2 (by decide)), hnext]
      exact fmtShort_unknown hok.2 _
    exact ⟨_, hbody, rfl, rfl, rfl⟩
  | unknownLong c =>
    obtain ⟨-, hpercent, -, hlong, -, hnext, -⟩ := h
    have hbody : fmtBody mem va s = .ok s.next.look.next.look := by
      rw [fmtBody_long hpercent hlong, hnext]
      exact fmtLong_unknown hok.2 _
    exact ⟨_, hbody, rfl, rfl, (List.append_nil _).symm⟩

theorem FormatPiece.spec_length_pos (p : FormatPiece) : 0 < p.spec.length := by
  cases p with
  | convert k => cases k <;> decide
  | _ => exact Nat.succ_pos _

/-- **One piece** is one round of the loop. -/
theorem fmtVprintf_piece (va : VaList) {p : FormatPiece} (hok : p.Ok) {rest : List UInt8}
    (h : CString mem s.pos (p.spec ++ rest)) (fuel : Nat) :
    ∃ s', fmtVprintf mem va (fuel + 1) s = fmtVprintf mem va fuel s' ∧
      Behind va p (s.pos + p.spec.length) s s' := by
  have hpos := p.spec_length_pos
  have hlook : CString mem s.look.pos (p.spec ++ rest) := h
  obtain ⟨s', hbody, hpos', htaken, hout⟩ := fmtBody_piece va hok hlook
  have hmem : mem s.look.pos ≠ 0 := by
    cases hspec : p.spec with
    | nil =>
      rw [hspec] at hpos
      cases hpos
    | cons c text =>
      rw [hspec] at hlook
      obtain ⟨hc, hfirst, -⟩ := hlook
      rw [hfirst]
      exact hc
  refine ⟨s'.next, ?_, ?_, htaken, hout⟩
  · rw [fmtVprintf, if_neg hmem, hbody]
    rfl
  · have hsame : s.look.pos = s.pos := rfl
    show s'.pos + 1 = _
    omega

/-- **All pieces.** -/
theorem fmtVprintf_pieces (va : VaList) : ∀ {ps : List FormatPiece} {s : FmtState},
    (∀ p ∈ ps, p.Ok) →
    CString mem s.pos (ps.flatMap FormatPiece.spec) →
    ∃ s', fmtVprintf mem va (ps.length + 1) s = .ok (some s') ∧
      s'.out = s.out ++ printed va s.taken ps ∧
      s'.taken = s.taken + (ps.map FormatPiece.takes).sum := by
  intro ps
  induction ps with
  | nil =>
    intro s _ hstring
    refine ⟨s.look, fmtVprintf_end 0 hstring, ?_, rfl⟩
    simp [printed, FmtState.look]
  | cons p ps ih =>
    intro s hok hstring
    have hp := hok p List.mem_cons_self
    obtain ⟨s₁, hround, hpos, htaken, hout⟩ := fmtVprintf_piece va hp hstring (ps.length + 1)
    have hrest : CString mem s₁.pos (ps.flatMap FormatPiece.spec) := by
      have hdrop := CString.drop (n := p.spec.length) hstring (by simp)
      rw [List.flatMap_cons, List.drop_left] at hdrop
      rw [hpos]
      exact hdrop
    obtain ⟨s', hrun, hout', htaken'⟩ := ih (fun q hq => hok q (List.mem_cons_of_mem _ hq)) hrest
    refine ⟨s', hround.trans hrun, ?_, ?_⟩
    · rw [hout', hout, htaken, printed, List.append_assoc]
    · rw [htaken', htaken, List.map_cons, List.sum_cons, Nat.add_assoc]

end

/-! ## The string as pieces -/

/-- The piece that begins behind `%`, of what follows there. -/
theorem piece_short {c : UInt8} (hc : c ≠ 0) (hlong : c ≠ 0x6c) :
    ∃ p : FormatPiece, p.Ok ∧ p.spec = [0x25, c] := by
  by_cases hletter : c ∈ FormatPiece.shortLetters
  · simp only [FormatPiece.shortLetters, List.mem_cons, List.not_mem_nil, or_false] at hletter
    rcases hletter with rfl | rfl | rfl | rfl | rfl | rfl | rfl
    · exact ⟨.convert .string, trivial, rfl⟩
    · exact ⟨.convert .char, trivial, rfl⟩
    · exact ⟨.convert .unsigned, trivial, rfl⟩
    · exact ⟨.convert .signed, trivial, rfl⟩
    · exact ⟨.convert .hex, trivial, rfl⟩
    · exact absurd rfl hlong
    · exact ⟨.percent, trivial, rfl⟩
  · exact ⟨.unknown c, ⟨hc, hletter⟩, rfl⟩

theorem piece_long {c : UInt8} (hc : c ≠ 0) :
    ∃ p : FormatPiece, p.Ok ∧ p.spec = [0x25, 0x6c, c] := by
  by_cases hletter : c ∈ FormatPiece.longLetters
  · simp only [FormatPiece.longLetters, List.mem_cons, List.not_mem_nil, or_false] at hletter
    rcases hletter with rfl | rfl | rfl
    · exact ⟨.convert .longUnsigned, trivial, rfl⟩
    · exact ⟨.convert .longSigned, trivial, rfl⟩
    · exact ⟨.convert .longHex, trivial, rfl⟩
  · exact ⟨.unknownLong c, ⟨hc, hletter⟩, rfl⟩

/-- A complete string begins with a piece, and goes on as a complete string. -/
theorem first_piece {mem : Nat → UInt8} {pos : Nat} {c : UInt8} {text : List UInt8}
    (hstring : CString mem pos (c :: text)) (h : Complete (c :: text)) :
    ∃ (p : FormatPiece) (rest : List UInt8), p.Ok ∧ c :: text = p.spec ++ rest ∧ Complete rest := by
  obtain ⟨hc, -, htext⟩ := hstring
  rw [Complete, List.foldl_cons, FmtPlace.next] at h
  split at h
  case isFalse hplain => exact ⟨.text c, text, ⟨hc, hplain⟩, rfl, h⟩
  case isTrue hpercent =>
    subst hpercent
    cases text with
    | nil => cases h
    | cons c' text =>
      obtain ⟨hc', -, htext⟩ := htext
      rw [List.foldl_cons, FmtPlace.next] at h
      split at h
      case isFalse hshort =>
        obtain ⟨p, hok, hspec⟩ := piece_short hc' hshort
        exact ⟨p, text, hok, by rw [hspec]; rfl, h⟩
      case isTrue hlong =>
        subst hlong
        cases text with
        | nil => cases h
        | cons c'' text =>
          obtain ⟨p, hok, hspec⟩ := piece_long htext.1
          exact ⟨p, text, hok, by rw [hspec]; rfl, h⟩

/-- **A complete string** is a row of pieces. -/
theorem exists_pieces {mem : Nat → UInt8} : ∀ (n : Nat) {text : List UInt8} {pos : Nat},
    text.length ≤ n → CString mem pos text → Complete text →
    ∃ ps : List FormatPiece, (∀ p ∈ ps, p.Ok) ∧ ps.flatMap FormatPiece.spec = text := by
  intro n
  induction n with
  | zero =>
    intro text pos hn _ _
    obtain rfl := List.eq_nil_of_length_eq_zero (Nat.le_zero.mp hn)
    exact ⟨[], by simp, rfl⟩
  | succ n ih =>
    intro text pos hn hstring h
    cases text with
    | nil => exact ⟨[], by simp, rfl⟩
    | cons c text =>
      obtain ⟨p, rest, hok, hsplit, hrest⟩ := first_piece hstring h
      have hpos := p.spec_length_pos
      have hlength := congrArg List.length hsplit
      rw [List.length_append] at hlength
      rw [hsplit] at hstring
      have hdrop := CString.drop (n := p.spec.length) hstring (by simp)
      rw [List.drop_left] at hdrop
      obtain ⟨ps, hall, hspec⟩ := ih (by omega) hdrop hrest
      refine ⟨p :: ps, List.forall_mem_cons.mpr ⟨hok, hall⟩, ?_⟩
      rw [List.flatMap_cons, hspec, hsplit]

/-- **What the formatter prints.** A format string whose last conversion is not cut off is a row
of pieces; and as whatever row of pieces a string is read, the formatter comes to its end, has
printed what the pieces stand for, and has taken an argument for each conversion. What `%s` stands
for is the string that memory has at the argument.

`hstring` says what the format string is; that it is in memory with anything behind it matters
where it ends in the middle of a conversion, and such a string is no row of pieces. -/
theorem fmt_vprintf_prints {mem : Nat → UInt8} {text : List UInt8} (hstring : CString mem 0 text)
    (va : VaList) :
    (∀ w, CString (fun n => va.mem (w + UInt64.ofNat n)) 0 (Conversion.string.shows va w)) ∧
    (Complete text →
      ∃ ps : List FormatPiece, (∀ p ∈ ps, p.Ok) ∧ ps.flatMap FormatPiece.spec = text) ∧
    ∀ ps : List FormatPiece, (∀ p ∈ ps, p.Ok) → ps.flatMap FormatPiece.spec = text →
      ∃ fuel s, fmtVprintf mem va fuel FmtState.start = .ok (some s) ∧
        s.out = printed va 0 ps ∧ s.taken = (ps.map FormatPiece.takes).sum := by
  refine ⟨stringAt_cString va, exists_pieces text.length le_rfl hstring, ?_⟩
  rintro ps hok rfl
  obtain ⟨s, hrun, hout, htaken⟩ := fmtVprintf_pieces va hok (s := FmtState.start) hstring
  exact ⟨ps.length + 1, s, hrun, hout, htaken.trans (Nat.zero_add _)⟩

/-- `n=%ld%%%s`, and zeros behind it. -/
def formatNumber (p : Nat) : UInt8 := (cstr "n=%ld%%%s").getD p 0

/-- The least number, and the string `ok` at `0x7000`. -/
def leastAndOk : VaList where
  word n := if n = 0 then 0x8000000000000000 else 0x7000
  mem a := (cstr "ok").getD (a - 0x7000).toNat 0
  terminated := ⟨0, rfl⟩

/-- `fmt_vprintf_prints` on `n=%ld%%%s`, of these. -/
theorem fmt_vprintf_prints_least :
    ∃ fuel s, fmtVprintf formatNumber leastAndOk fuel FmtState.start = .ok (some s) ∧
      s.out = cstr "n=-9223372036854775808%ok" ∧ s.taken = 2 := by
  have hstring : CString formatNumber 0 (cstr "n=%ld%%%s") := by
    repeat' constructor
    all_goals decide
  obtain ⟨-, -, hprints⟩ := fmt_vprintf_prints hstring leastAndOk
  obtain ⟨fuel, s, hrun, hout, htaken⟩ := hprints
    [.text 0x6e, .text 0x3d, .convert .longSigned, .percent, .convert .string]
    (by simp [FormatPiece.Ok]) (by decide)
  have hok : Conversion.stringAt leastAndOk.mem 0x7000 = cstr "ok" := by
    rw [Conversion.stringAt, ← emitString_eq, addresses]
    decide +kernel
  have hnumber : Conversion.signedDecimal (leastAndOk.word 0).toInt64.toInt =
      cstr "-9223372036854775808" := by
    decide +kernel
  refine ⟨fuel, s, hrun, ?_, htaken⟩
  rw [hout]
  simp only [printed, FormatPiece.shows, Conversion.shows, FormatPiece.takes, hnumber]
  rw [show leastAndOk.word (0 + 0 + 0 + 1 + 0) = 0x7000 from rfl, hok]
  rfl

end Proof
end BumbelBee
