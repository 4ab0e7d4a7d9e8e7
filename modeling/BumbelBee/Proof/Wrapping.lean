import BumbelBee.Proof.Scrollback

/-!
# Is a long line's text still there?

A line that is continued is to end in a backslash behind its text. But the backslash goes to
the column of the last character stored, not behind it, so each continued line has lost one.
What the lines of a string give back, without the backslashes, is the string exactly when it
fits on one line (`wrapping_keeps_text_iff`).

The slip is of one column, and it shows only where a line is continued. Everything else about the
wrapping is right: the number of lines, where each begins, and that the last one has no backslash.
-/

namespace BumbelBee
namespace Proof

open Lib Kernel

def Printable (c : UInt8) : Prop := 0x20 ≤ c ∧ c ≤ 0x7e

/-- The text of lines each of which but the last ends in a backslash. -/
def unwrap : List (List UInt8) → List UInt8
  | [] => []
  | [l] => l
  | l :: ls => l.dropLast ++ unwrap ls

/-- How often a text of `n` characters is continued on a line of its own. -/
def lineBreaks (width n : Nat) : Nat := (n - 1) / (width - 1)

/-- Characters written one by one, whatever the chrome shows meanwhile. -/
def putAll (text : List (Chrome × UInt8)) (k : Console) : Console :=
  runAll (fun e => consolePutc e.1 e.2) text k

variable {width : Nat} {k : Console} {h : History}

/-! ## In the history -/

theorem putc_printable {c : UInt8} (hc : Printable c) (h : History) :
    h.putc width c = h.put width c := by
  have hne : c ≠ 0x0a ∧ c ≠ 0x0d ∧ c ≠ 0x08 := by
    refine ⟨?_, ?_, ?_⟩ <;> rintro rfl <;> exact absurd hc.1 (by decide)
  rw [History.putc, if_neg hne.1, if_neg hne.2.1, if_neg hne.2.2]

/-- What a text from an empty line on makes of the history: full lines, and the last one. -/
structure Wrapped (width : Nat) (older : List (List UInt8)) (s : List UInt8)
    (full : List (List UInt8)) (h : History) : Prop where
  before : h.older = older ++ full
  closed : ∀ l ∈ full, l.length = width - 1
  short : h.current.length ≤ width - 1
  begun : full ≠ [] → h.current ≠ []
  length : s.length = full.length * (width - 1) + h.current.length
  whole : full = [] → h.current = s

/-- **One character more.** -/
theorem Wrapped.put (hwidth : 2 < width) {older full : List (List UInt8)} {s : List UInt8}
    (hw : Wrapped width older s full h) (c : UInt8) :
    ∃ full', Wrapped width older (s ++ [c]) full' (h.put width c) := by
  have hshort := hw.short
  have hlength := hw.length
  unfold History.put History.wrap
  rw [if_neg (by omega)]
  split
  · -- the line is full: its last character gives way
    rename_i hfull
    have htext : (h.current.take (width - 2) ++ [0x5c]).length = width - 1 := by
      rw [List.length_append, List.length_take, List.length_singleton]
      omega
    refine ⟨full ++ [h.current.take (width - 2) ++ [0x5c]], ?_, ?_, ?_, ?_, ?_, ?_⟩
    · rw [← List.append_assoc, ← hw.before]
      rfl
    · rw [List.forall_mem_append]
      exact ⟨hw.closed, List.forall_mem_singleton.mpr htext⟩
    · show 1 ≤ width - 1
      omega
    · exact fun _ => List.cons_ne_nil c []
    · show (s ++ [c]).length = _ * _ + 1
      rw [List.length_append, List.length_append, List.length_singleton, List.length_singleton,
        hlength, hfull, Nat.add_mul, Nat.one_mul]
    · exact fun hnil => absurd hnil (by simp)
  · refine ⟨full, hw.before, hw.closed, ?_, fun _ => by simp, ?_, ?_⟩
    · show (h.current ++ [c]).length ≤ width - 1
      rw [List.length_append, List.length_singleton]
      omega
    · show (s ++ [c]).length = _ + (h.current ++ [c]).length
      rw [List.length_append, List.length_append, hlength, Nat.add_assoc]
    · intro hnil
      rw [hw.whole hnil]

/-- The lines that a text takes. -/
theorem Wrapped.length_full {older full : List (List UInt8)} {s : List UInt8}
    (hw : Wrapped width older s full h) : full.length = lineBreaks width s.length := by
  have hshort := hw.short
  have hlength := hw.length
  rw [lineBreaks]
  by_cases hempty : h.current.length = 0
  · have hnone : full = [] := by
      by_contra hne
      exact hw.begun hne (List.eq_nil_of_length_eq_zero hempty)
    rw [hlength, hempty, hnone]
    simp
  · have hcount : s.length - 1 = h.current.length - 1 + full.length * (width - 1) := by omega
    rw [hcount, Nat.add_mul_div_right _ _ (by omega), Nat.div_eq_of_lt (by omega), Nat.zero_add]

/-- The text of the lines: a character is gone at each break. -/
theorem length_unwrap {full : List (List UInt8)} (hwidth : 2 < width)
    (hfull : ∀ l ∈ full, l.length = width - 1) (l : List UInt8) :
    (unwrap (full ++ [l])).length = full.length * (width - 2) + l.length := by
  induction full with
  | nil => simp [unwrap]
  | cons l' full ih =>
    have hcons : unwrap (l' :: (full ++ [l])) = l'.dropLast ++ unwrap (full ++ [l]) := by
      cases full <;> rfl
    have hlength := hfull l' List.mem_cons_self
    rw [List.cons_append, hcons, List.length_append,
      ih fun m hm => hfull m (List.mem_cons_of_mem _ hm), List.length_dropLast, hlength, List.length_cons, Nat.add_mul, Nat.one_mul]
    omega

/-- **The text comes back exactly when no line was continued.** -/
theorem Wrapped.unwrap_eq_iff (hwidth : 2 < width) {older full : List (List UInt8)}
    {s : List UInt8} (hw : Wrapped width older s full h) :
    unwrap (full ++ [h.current]) = s ↔ s.length < width := by
  have hshort := hw.short
  have hlength := hw.length
  constructor
  · intro heq
    have hsame := congrArg List.length heq
    rw [length_unwrap hwidth hw.closed, hlength] at hsame
    have hnone : full.length = 0 := by
      by_contra hne
      have hlost : full.length * (width - 1) = full.length * (width - 2) + full.length := by
        obtain ⟨w, rfl⟩ : ∃ w, width = w + 2 := ⟨width - 2, by omega⟩
        exact Nat.mul_succ _ _
      omega
    rw [hnone] at hlength
    omega
  · intro hfits
    have hnone : full = [] := by
      by_contra hne
      have hpos := List.length_pos_of_ne_nil hne
      have hbegun := List.length_pos_of_ne_nil (hw.begun hne)
      have hline : width - 1 ≤ full.length * (width - 1) := Nat.le_mul_of_pos_left _ hpos
      omega
    rw [hnone, List.nil_append, unwrap]
    exact hw.whole hnone

/-! ## In the log -/

/-- **A text written from an empty line on**, in the log and in the history. -/
theorem putAll_wrapped (hk : LogHolds k h) (hempty : h.current = []) (text : List (Chrome × UInt8))
    (hprint : ∀ e ∈ text, Printable e.2) :
    ∃ full h', LogHolds (putAll text k) h' ∧ (putAll text k).guiMode = k.guiMode ∧
      Wrapped (visibleWidth k.guiMode) h.older (text.map Prod.snd) full h' := by
  obtain ⟨hwide, -⟩ := visibleWidth_range k.guiMode
  induction text using List.reverseRecOn with
  | nil =>
    refine ⟨[], h, hk, rfl, (List.append_nil _).symm, fun l hl => absurd hl List.not_mem_nil, ?_,
      fun h0 => absurd rfl h0, ?_, fun _ => hempty⟩
    · rw [hempty]
      exact Nat.zero_le _
    · rw [hempty]
      simp
  | append_singleton text e ih =>
    rw [List.forall_mem_append] at hprint
    obtain ⟨full, h', hholds, hmode, hwrapped⟩ := ih hprint.1
    obtain ⟨hput, hsame⟩ := hholds.putc e.1 e.2
    obtain ⟨full', hnext⟩ := hwrapped.put (by omega) e.2
    have hchar : Printable e.2 := hprint.2 e (List.mem_singleton_self e)
    rw [hmode, putc_printable hchar] at hput
    rw [putAll, runAll_snoc, List.map_append, List.map_singleton]
    exact ⟨full', _, hput, hsame.trans hmode, hnext⟩

theorem newest_newest {α : Type} {a b : Nat} (hab : a ≤ b) (log : List α) :
    newest a (newest b log) = newest a log := by
  rw [newest, newest, newest, List.length_drop, List.drop_drop]
  congr 1
  omega

/-- The lines of the text are the log's last. -/
theorem Wrapped.logged {older full : List (List UInt8)} {s : List UInt8}
    (hw : Wrapped width older s full h) (hk : LogHolds k h) (hfits : full.length < 512) :
    newest (full.length + 1) (logged k) = full ++ [h.current] := by
  have hcap : logLines = 512 := rfl
  have hcount := hk.count
  have holder : h.older.length = older.length + full.length := by
    rw [hw.before, List.length_append]
  rw [hk.log.lines, newest_newest (by omega), History.lines, hw.before, List.append_assoc, newest]
  refine List.drop_left' ?_
  simp only [List.length_append, List.length_singleton]
  omega

theorem putAll_unwrap (hk : LogHolds k h) (hempty : h.current = []) (text : List (Chrome × UInt8))
    (hprint : ∀ e ∈ text, Printable e.2)
    (hfits : lineBreaks (visibleWidth k.guiMode) text.length + 1 ≤ 512) :
    unwrap (newest (lineBreaks (visibleWidth k.guiMode) text.length + 1) (logged (putAll text k))) =
      text.map Prod.snd ↔ text.length < visibleWidth k.guiMode := by
  obtain ⟨hwide, -⟩ := visibleWidth_range k.guiMode
  obtain ⟨full, h', hholds, -, hwrapped⟩ := putAll_wrapped hk hempty text hprint
  have hlength := hwrapped.length_full
  rw [List.length_map] at hlength
  have hlines := hwrapped.logged hholds (by omega)
  rw [hlength] at hlines
  rw [hlines, hwrapped.unwrap_eq_iff (by omega), List.length_map]

/-- **No text is lost exactly when the string is shorter than the window is wide**: written in
    any state behind `console_init` whose current line is empty, and not longer than the log.

    `hprint` is a string of printable characters, each written with any state of the rest of the
    screen. `hempty` says that the line it starts on is empty, and `hfits` that the log has room for
    all its lines, so that nothing is lost at the other end. `ops` is anything that was written
    before. -/
theorem wrapping_keeps_text_iff (k : Console) (ops : List (Chrome × ConsoleOp))
    (text : List (Chrome × UInt8)) (hprint : ∀ e ∈ text, Printable e.2)
    (hempty : (consoleAfter k ops).lens (consoleAfter k ops).currentLogIndex = 0)
    (hfits : lineBreaks (visibleWidth (consoleAfter k ops).guiMode) text.length + 1 ≤ 512) :
    unwrap (newest (lineBreaks (visibleWidth (consoleAfter k ops).guiMode) text.length + 1)
        (logged (putAll text (consoleAfter k ops)))) = text.map Prod.snd ↔
      text.length < visibleWidth (consoleAfter k ops).guiMode := by
  have hkeeps := (consoleAfter_keeps k ops).holds
  have hnone : (transcript k.guiMode ops).history.current = [] :=
    List.eq_nil_of_length_eq_zero ((lens_current hkeeps).symm.trans hempty)
  exact putAll_unwrap hkeeps hnone text hprint hfits

/-- A chrome of zeros. -/
def quiet : Chrome := ⟨0, 0, 0, 0, 0, 0, 0, 0, [], 0, 0, 0, 0, 0, 0, 0, false⟩

/-- As many characters as a line of the workstation's display takes. -/
def fullLine : List (Chrome × UInt8) :=
  (cstr "a line of the display takes seventy-two letters, and this one has those.").map (quiet, ·)

/-- `wrapping_keeps_text_iff` on these, written to an empty log. -/
theorem wrapping_keeps_text_iff_full :
    unwrap (newest 1 (logged (putAll fullLine (consoleAfter (Console.loaded (fun _ => 0) 0) [])))) =
      cstr "a line of the display takes seventy-two letters, and this one has those." := by
  let k := Console.loaded (fun _ => 0) 0
  have hprint : ∀ e ∈ fullLine, Printable e.2 := by
    unfold Printable
    decide +kernel
  have hbreaks :
      lineBreaks (visibleWidth (consoleAfter k []).guiMode) fullLine.length = 0 := by
    decide +kernel
  have hkeeps := wrapping_keeps_text_iff k [] fullLine hprint rfl (by rw [hbreaks]; decide)
  rw [hbreaks] at hkeeps
  have hshort : fullLine.length < visibleWidth (consoleAfter k []).guiMode := by decide +kernel
  exact (hkeeps.mpr hshort).trans (by decide +kernel)

/-- Of 73 letters, written to an empty log in the workstation's display, one is lost. -/
theorem wrapping_loses_text :
    ¬ ∀ (k : Console) (ops : List (Chrome × ConsoleOp)) (text : List (Chrome × UInt8)),
      (∀ e ∈ text, Printable e.2) →
      (consoleAfter k ops).lens (consoleAfter k ops).currentLogIndex = 0 →
      lineBreaks (visibleWidth (consoleAfter k ops).guiMode) text.length + 1 ≤ 512 →
      unwrap (newest (lineBreaks (visibleWidth (consoleAfter k ops).guiMode) text.length + 1)
        (logged (putAll text (consoleAfter k ops)))) = text.map Prod.snd := by
  intro hclaim
  let k := Console.loaded (fun _ => 0) 0
  let text : List (Chrome × UInt8) := List.replicate 73 (quiet, 0x61)
  have hprint : ∀ e ∈ text, Printable e.2 := fun e he => by
    rw [List.eq_of_mem_replicate he]
    exact ⟨by decide, by decide⟩
  have hall := hclaim k [] text hprint rfl (by decide)
  have hshort := (putAll_unwrap (consoleAfter_keeps k []).holds rfl text hprint (by decide)).mp hall
  exact absurd hshort (by decide)

end Proof
end BumbelBee
