import BumbelBee.Proof.Numerals

/-!
# Where does the formatter stop?

The loop of `fmt_vprintf` asks for the terminator before each round, but a round takes up to
three characters, and asks for it behind none of them. So the formatter stops at the terminator
exactly when no conversion is cut off by it (`stops_at_terminator_iff`): a string that ends in
the middle of one sends it into the memory behind.

Everything here is about positions of the format string, and the model logs each one that is read.
The arguments and what is printed do not matter to it, so the theorem is for all of them; `Complete`
reads the string as the loop does, by the place in a conversion at which it is.
-/

namespace BumbelBee
namespace Proof

open Lib Kernel

/-- The string that memory holds from a position on. -/
def CString (mem : Nat → UInt8) (pos : Nat) : List UInt8 → Prop
  | [] => mem pos = 0
  | c :: text => c ≠ 0 ∧ mem pos = c ∧ CString mem (pos + 1) text

/-- Where in a conversion a format string is read: in none, behind `%`, behind `%l`. -/
inductive FmtPlace
  | text
  | percent
  | long
deriving DecidableEq

def FmtPlace.next : FmtPlace → UInt8 → FmtPlace
  | .text, c => if c = 0x25 then .percent else .text
  | .percent, c => if c = 0x6c then .long else .text
  | .long, _ => .text

/-- The last conversion of a format string is not cut off. -/
def Complete (text : List UInt8) : Prop := text.foldl FmtPlace.next .text = .text

instance (text : List UInt8) : Decidable (Complete text) := inferInstanceAs (Decidable (_ = _))

/-- The formatter comes to its end, and no position behind the terminator was looked at. -/
def StopsAtTerminator (mem : Nat → UInt8) (text : List UInt8) (va : VaList) : Prop :=
  ∃ fuel s, fmtVprintf mem va fuel FmtState.start = .ok (some s) ∧ ∀ p ∈ s.reads, p ≤ text.length

variable {mem : Nat → UInt8} {va : VaList} {s : FmtState}

/-! ## One round

A round of the loop goes on by one, two or three characters, by the place in a conversion it comes
to. The count and the bytes emitted are of no account here.
-/

/-- A conversion goes through, and leaves the format string alone. -/
theorem convert_frame {f : UInt64 → Except Overrun (List UInt8)} (hf : ∀ w, ∃ out, f w = .ok out)
    (s : FmtState) : ∃ s', s.convert va f = .ok s' ∧ s'.pos = s.pos ∧ s'.reads = s.reads := by
  obtain ⟨out, hout⟩ := hf (va.word s.taken)
  rw [FmtState.convert, hout]
  exact ⟨_, rfl, rfl, rfl⟩

theorem fmtLong_frame (va : VaList) (c : UInt8) (s : FmtState) :
    ∃ s', fmtLong va c s = .ok s' ∧ s'.pos = s.pos ∧ s'.reads = s.reads := by
  unfold fmtLong
  split
  · exact convert_frame (fun w => ⟨_, emitUnsigned_ten w⟩) s
  split
  · exact convert_frame emitSigned_ok s
  split
  · exact convert_frame (fun w => ⟨_, emitUnsigned_sixteen w⟩) s
  · exact ⟨s, rfl, rfl, rfl⟩

theorem fmtShort_frame (va : VaList) (c : UInt8) (s : FmtState) :
    ∃ s', fmtShort va c s = .ok s' ∧ s'.pos = s.pos ∧ s'.reads = s.reads := by
  unfold fmtShort
  split
  · exact convert_frame (fun w => ⟨_, rfl⟩) s
  split
  · exact convert_frame (fun w => ⟨_, rfl⟩) s
  split
  · exact convert_frame (fun w => ⟨_, emitUnsigned_ten _⟩) s
  split
  · exact convert_frame (fun w => emitSigned_ok _) s
  split
  · exact convert_frame (fun w => ⟨_, emitUnsigned_sixteen _⟩) s
  split
  · exact ⟨_, rfl, rfl, rfl⟩
  · exact ⟨_, rfl, rfl, rfl⟩

/-- How many characters a round goes on behind its first. -/
def bodyWidth (mem : Nat → UInt8) (pos : Nat) : Nat :=
  if mem pos ≠ 0x25 then 0 else if mem (pos + 1) ≠ 0x6c then 1 else 2

/-- **What a round does to the format string.** -/
theorem fmtBody_frame (mem : Nat → UInt8) (va : VaList) (s : FmtState) :
    ∃ s', fmtBody mem va s = .ok s' ∧ s'.pos = s.pos + bodyWidth mem s.pos ∧
      s'.reads = s.reads ++ (List.range (bodyWidth mem s.pos)).map (s.pos + 1 + ·) := by
  unfold fmtBody bodyWidth
  split
  · exact ⟨_, rfl, rfl, (List.append_nil _).symm⟩
  by_cases hlong : mem (s.pos + 1) = 0x6c
  · have hmem : mem s.next.look.pos = 0x6c := hlong
    rw [if_pos hmem, if_neg (not_not.mpr hlong)]
    obtain ⟨s', hrun, hpos, hreads⟩ := fmtLong_frame va (mem s.next.look.next.look.pos)
      s.next.look.next.look
    exact ⟨s', hrun, hpos, hreads.trans (List.append_assoc _ _ _)⟩
  · have hmem : mem s.next.look.pos ≠ 0x6c := hlong
    rw [if_neg hmem, if_pos hlong]
    exact fmtShort_frame va (mem s.next.look.pos) s.next.look

/-- A round of the loop. -/
theorem fmtVprintf_round (va : VaList) (fuel : Nat) (hmem : mem s.pos ≠ 0) :
    ∃ s', fmtVprintf mem va (fuel + 1) s = fmtVprintf mem va fuel s' ∧
      s'.pos = s.pos + bodyWidth mem s.pos + 1 ∧
      s'.reads = s.reads ++ (List.range (bodyWidth mem s.pos + 1)).map (s.pos + ·) := by
  obtain ⟨s', hbody, hpos, hreads⟩ := fmtBody_frame mem va s.look
  have hlook : mem s.look.pos ≠ 0 := hmem
  refine ⟨s'.next, ?_, congrArg (· + 1) hpos, ?_⟩
  · rw [fmtVprintf, if_neg hlook, hbody]
    rfl
  · refine hreads.trans ?_
    rw [List.range_succ_eq_map, List.map_cons, List.map_map]
    refine (List.append_assoc _ _ _).trans (congrArg (s.reads ++ ·) ?_)
    refine congrArg (s.pos :: ·) (List.map_congr_left fun i _ => ?_)
    show s.pos + 1 + i = s.pos + (i + 1)
    omega

theorem fmtVprintf_end (fuel : Nat) (hmem : mem s.pos = 0) :
    fmtVprintf mem va (fuel + 1) s = .ok (some s.look) := if_pos hmem

/-! ## All rounds

A string with no cut-off conversion is behind each round one with none, and shorter; one with a
cut-off conversion keeps it until the round that steps over the terminator.
-/

theorem CString.drop : ∀ {n : Nat} {text : List UInt8} {pos : Nat}, CString mem pos text →
    n ≤ text.length → CString mem (pos + n) (text.drop n)
  | 0, _, _, h, _ => h
  | n + 1, c :: text, pos, h, hn => by
    have hrest := CString.drop (n := n) h.2.2 (Nat.le_of_succ_le_succ hn)
    rw [Nat.add_right_comm] at hrest
    exact hrest

/-- A string without a cut-off conversion goes on behind a round as such a string. -/
theorem complete_drop {c : UInt8} {text : List UInt8} {pos : Nat}
    (h : CString mem pos (c :: text)) :
    Complete (c :: text) ↔
      bodyWidth mem pos ≤ text.length ∧ Complete (text.drop (bodyWidth mem pos)) := by
  obtain ⟨-, rfl, htext⟩ := h
  unfold bodyWidth Complete
  rw [List.foldl_cons, FmtPlace.next]
  by_cases hplain : mem pos = 0x25
  · rw [if_pos hplain, if_neg (not_not.mpr hplain)]
    match text, htext with
    | [], hnext =>
      have hother : mem (pos + 1) ≠ 0x6c := by
        rw [hnext]
        decide
      simp [hother]
    | c' :: text, hnext =>
      obtain ⟨-, rfl, -⟩ := hnext
      rw [List.foldl_cons, FmtPlace.next]
      by_cases hlong : mem (pos + 1) = 0x6c
      · cases text <;> simp [hlong, FmtPlace.next]
      · simp [hlong]
  · rw [if_neg hplain, if_pos hplain]
    simp

/-- The positions that a run looks at stay looked at. -/
theorem reads_mono : ∀ (fuel : Nat) {s s' : FmtState}, fmtVprintf mem va fuel s = .ok (some s') →
    ∀ p ∈ s.reads, p ∈ s'.reads
  | 0, _, _, h, _, _ => by cases h
  | fuel + 1, s, s', h, p, hp => by
    by_cases hmem : mem s.pos = 0
    · rw [fmtVprintf_end fuel hmem] at h
      cases h
      exact List.mem_append_left _ hp
    · obtain ⟨s₁, hround, -, hreads⟩ := fmtVprintf_round va fuel hmem
      rw [hround] at h
      exact reads_mono fuel h p (by rw [hreads]; exact List.mem_append_left _ hp)

/-- Each round looks where it stands. -/
theorem pos_mem_reads : ∀ (fuel : Nat) {s s' : FmtState},
    fmtVprintf mem va fuel s = .ok (some s') → s.pos ∈ s'.reads
  | 0, _, _, h => by cases h
  | fuel + 1, s, s', h => by
    by_cases hmem : mem s.pos = 0
    · rw [fmtVprintf_end fuel hmem] at h
      cases h
      exact List.mem_append_right _ (List.mem_singleton_self _)
    · obtain ⟨s₁, hround, -, hreads⟩ := fmtVprintf_round va fuel hmem
      rw [hround] at h
      refine reads_mono fuel h s.pos ?_
      rw [hreads, List.range_succ_eq_map]
      exact List.mem_append_right _ List.mem_cons_self

/-- **A complete string** is left at its terminator. -/
theorem complete_stops (va : VaList) : ∀ (n : Nat) {text : List UInt8} {s : FmtState}, text.length ≤ n →
    CString mem s.pos text → Complete text →
    ∃ s', fmtVprintf mem va (n + 1) s = .ok (some s') ∧
      ∀ p ∈ s'.reads, p ∈ s.reads ∨ p ≤ s.pos + text.length := by
  intro n
  -- each round moves past one piece of the text, so its length bounds the rounds
  induction n with
  | zero =>
    intro text s hn hstring _
    obtain rfl : text = [] := List.eq_nil_of_length_eq_zero (by omega)
    refine ⟨s.look, fmtVprintf_end 0 hstring, fun p hp => ?_⟩
    rcases List.mem_append.mp hp with hp | hp
    · exact Or.inl hp
    · exact Or.inr (List.mem_singleton.mp hp).le
  | succ n ih =>
    intro text s hn hstring hcomplete
    cases text with
    | nil =>
      refine ⟨s.look, fmtVprintf_end (n + 1) hstring, fun p hp => ?_⟩
      rcases List.mem_append.mp hp with hp | hp
      · exact Or.inl hp
      · exact Or.inr (List.mem_singleton.mp hp).le
    | cons c text =>
      obtain ⟨hroom, hrest⟩ := (complete_drop hstring).mp hcomplete
      have hmem : mem s.pos ≠ 0 := by rw [hstring.2.1]; exact hstring.1
      obtain ⟨s₁, hround, hpos, hreads⟩ := fmtVprintf_round va (n + 1) hmem
      have hafter := CString.drop (n := bodyWidth mem s.pos) hstring.2.2 hroom
      rw [Nat.add_right_comm, ← hpos] at hafter
      rw [List.length_cons] at hn ⊢
      obtain ⟨s', hrun, hbound⟩ := ih (by rw [List.length_drop]; omega) hafter hrest
      refine ⟨s', hround.trans hrun, fun p hp => ?_⟩
      rcases hbound p hp with hp | hp
      · rw [hreads, List.mem_append, List.mem_map] at hp
        rcases hp with hp | ⟨i, hi, rfl⟩
        · exact Or.inl hp
        · have hlt := List.mem_range.mp hi
          exact Or.inr (by omega)
      · rw [hpos, List.length_drop] at hp
        exact Or.inr (by omega)

/-- **A string that is cut off** is left behind its terminator. -/
theorem incomplete_overruns : ∀ (fuel : Nat) {text : List UInt8} {s s' : FmtState},
    CString mem s.pos text → ¬ Complete text →
    fmtVprintf mem va fuel s = .ok (some s') → s.pos + text.length + 1 ∈ s'.reads := by
  intro fuel
  -- every round uses up one unit of fuel; a cut specifier is not the last character looked at
  induction fuel with
  | zero =>
    intro _ _ _ _ _ h
    cases h
  | succ fuel ih =>
    intro text s s' hstring hcut hrun
    cases text with
    | nil => exact absurd rfl hcut
    | cons c text =>
      have hmem : mem s.pos ≠ 0 := by rw [hstring.2.1]; exact hstring.1
      obtain ⟨s₁, hround, hpos, hreads⟩ := fmtVprintf_round va fuel hmem
      rw [hround] at hrun
      rw [List.length_cons]
      by_cases hroom : bodyWidth mem s.pos ≤ text.length
      · -- the cut is further on
        have hrest : ¬ Complete (text.drop (bodyWidth mem s.pos)) := fun h =>
          hcut ((complete_drop hstring).mpr ⟨hroom, h⟩)
        have hafter := CString.drop (n := bodyWidth mem s.pos) hstring.2.2 hroom
        rw [Nat.add_right_comm, ← hpos] at hafter
        have hlast := ih hafter hrest hrun
        rw [hpos, List.length_drop] at hlast
        have hsame : s.pos + bodyWidth mem s.pos + 1 + (text.length - bodyWidth mem s.pos) + 1 =
            s.pos + (text.length + 1) + 1 := by omega
        rwa [hsame] at hlast
      · -- this round goes past the terminator, and the next one looks behind it
        have hwidth : bodyWidth mem s.pos = text.length + 1 := by
          have htext := hstring.2.2
          unfold bodyWidth at hroom ⊢
          split at hroom
          · omega
          split at hroom
          · rename_i hpercent hother
            rw [if_neg hpercent, if_pos hother]
            omega
          · rename_i hpercent hlong
            have hone : text ≠ [] := by
              rintro rfl
              exact hlong (by rw [htext]; decide)
            have hpos := List.length_pos_of_ne_nil hone
            rw [if_neg hpercent, if_neg hlong]
            omega
        have hlast := pos_mem_reads fuel hrun
        rw [hpos, hwidth] at hlast
        exact hlast

/-- **The formatter stops at the terminator exactly when no conversion is cut off by it.**

    `hstring` says what the memory holds at the format string: the characters, none of them zero,
    and a terminator. Behind the terminator it holds anything. `va` are any arguments. -/
theorem stops_at_terminator_iff {text : List UInt8} (hstring : CString mem 0 text) (va : VaList) :
    StopsAtTerminator mem text va ↔ Complete text := by
  constructor
  · rintro ⟨fuel, s, hrun, hbound⟩
    by_contra hcut
    have hlast := hbound _ (incomplete_overruns fuel (s := FmtState.start) hstring hcut hrun)
    simp only [FmtState.start] at hlast
    omega
  · intro hcomplete
    obtain ⟨s, hrun, hbound⟩ :=
      complete_stops va text.length (s := FmtState.start) (Nat.le_refl _) hstring hcomplete
    refine ⟨text.length + 1, s, hrun, fun p hp => ?_⟩
    rcases hbound p hp with hp | hp
    · exact absurd hp List.not_mem_nil
    · simpa [FmtState.start] using hp

/-- `%u`, and zeros behind it. -/
def percentU (p : Nat) : UInt8 := if p = 0 then 0x25 else if p = 1 then 0x75 else 0

/-- `stops_at_terminator_iff` on `%u`. -/
theorem stops_at_terminator_iff_u :
    StopsAtTerminator percentU [0x25, 0x75] ⟨fun _ => 7, fun _ => 0, ⟨0, rfl⟩⟩ ↔ Complete [0x25, 0x75] :=
  have hstring : CString percentU 0 [0x25, 0x75] := ⟨by decide, rfl, by decide, rfl, rfl⟩
  stops_at_terminator_iff hstring ⟨fun _ => 7, fun _ => 0, ⟨0, rfl⟩⟩

/-- A string that ends in `%`. -/
theorem percent_overruns :
    ¬ ∀ (mem : Nat → UInt8) (text : List UInt8) (va : VaList), CString mem 0 text →
      StopsAtTerminator mem text va := by
  intro h
  have hstring : CString (fun p => if p = 0 then 0x25 else 0) 0 [0x25] := ⟨by decide, rfl, rfl⟩
  obtain ⟨fuel, s, hrun, hbound⟩ := h _ [0x25] ⟨fun _ => 0, fun _ => 0, ⟨0, rfl⟩⟩ hstring
  have hlast := hbound _
    (incomplete_overruns fuel (s := FmtState.start) hstring (by decide) hrun)
  exact absurd hlast (by decide)

end Proof
end BumbelBee
