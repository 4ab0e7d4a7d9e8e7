import BumbelBee.Kernel.Console
import BumbelBee.Lib.Ring
import BumbelBee.Lib.Run
import Mathlib.Data.List.GetD

/-!
# Does the console show the last lines written?

What was written is a history of lines without an end. The log is a ring of 512 fixed arrays,
each closed by a NUL, and holds the newest of them (`LogHolds`); every operation of the console
keeps it so. What is rendered is then the part of them that the viewport's offset says, and
nothing beside the screen is written to (`scrollback_invariant`).

The ring's head, the number of lines and the offset of the view move independently, and some of the
operations move two of them. The ghost is the history without an end; everything else is a window of
it. What is easy to get wrong, and is not here, is the offset while lines are pushed out at the
other end.
-/

namespace BumbelBee
namespace Proof

open Lib Kernel

/-! ## What was written

The history is what the operations would make of an endless log: the same wrapping, with no ring. It
is written to in the mode the screen is in, so a switch of the mode changes where the next line ends
and nothing that was written.
-/

/-- The lines that are done with, oldest first, and the one that is written to. -/
structure History where
  older : List (List UInt8)
  current : List UInt8
deriving DecidableEq

def History.empty : History := ⟨[], []⟩

def History.lines (h : History) : List (List UInt8) := h.older ++ [h.current]

def History.newline (h : History) : History := ⟨h.lines, []⟩

/-- A line that is full is continued: a backslash takes its last character's place. -/
def History.wrap (width : Nat) (h : History) : History :=
  if width ≤ h.current.length then h.newline
  else if h.current.length = width - 1 then
    History.newline ⟨h.older, h.current.take (width - 2) ++ [0x5c]⟩
  else h

def History.put (width : Nat) (c : UInt8) (h : History) : History :=
  ⟨(h.wrap width).older, (h.wrap width).current ++ [c]⟩

def History.putc (width : Nat) (c : UInt8) (h : History) : History :=
  if c = 0x0a then h.newline
  else if c = 0x0d then ⟨h.older, []⟩
  else if c = 0x08 then ⟨h.older, h.current.dropLast⟩
  else h.put width c

/-- The history, and the mode it is shown in. -/
structure Transcript where
  guiMode : Bool
  history : History

/-- An operation of the console; an `int` that is scrolled by is not `INT_MIN`. -/
inductive ConsoleOp
  | putc (c : UInt8)
  | clear
  | setGui (enabled : Int)
  | scroll (delta : Int) (range : -2 ^ 31 < delta ∧ delta < 2 ^ 31)
  | scrollTop
  | scrollBottom

/-- With what the rest of the kernel has for the chrome when it is made. -/
def ConsoleOp.run : Chrome × ConsoleOp → Console → Console
  | (x, .putc c), k => consolePutc x c k
  | (x, .clear), k => consoleClear x k
  | (x, .setGui enabled), k => consoleSetGui x enabled k
  | (x, .scroll delta _), k => consoleScroll x delta k
  | (x, .scrollTop), k => consoleScrollTop x k
  | (x, .scrollBottom), k => consoleScrollBottom x k

/-- What it adds to the transcript. -/
def ConsoleOp.write : Chrome × ConsoleOp → Transcript → Transcript
  | (_, .putc c), t => { t with history := t.history.putc (visibleWidth t.guiMode) c }
  | (_, .clear), t => { t with history := History.empty }
  | (_, .setGui enabled), t => { t with guiMode := enabled != 0 }
  | _, t => t

/-! ## Lines of the ring -/

variable {k : Console} {h : History}

/-- The characters of a line, up to its length. -/
def line (k : Console) (idx : Nat) : List UInt8 := (List.range (k.lens idx)).map (k.lines idx)

/-- The log holds the history's newest lines, and the viewport is inside it. -/
structure LogHolds (k : Console) (h : History) : Prop where
  start : k.logStart < logLines
  count : k.logCount = min (h.older.length + 1) logLines
  older : window logLines (line k) k.logStart (k.logCount - 1) = newest (logLines - 1) h.older
  current : line k k.currentLogIndex = h.current
  ends : ∀ idx, k.lens idx < logLineMax ∧ k.lines idx (k.lens idx) = 0
  viewport : k.viewportOffset ≤ k.maxViewportOffset

@[simp] theorem length_line (k : Console) (idx : Nat) : (line k idx).length = k.lens idx := by
  simp [line]

theorem lens_current (hk : LogHolds k h) : k.lens k.currentLogIndex = h.current.length := by
  rw [← length_line, hk.current]

theorem LogHolds.count_pos (hk : LogHolds k h) : 1 ≤ k.logCount ∧ k.logCount ≤ logLines := by
  have hcap : logLines = 512 := rfl
  have hcount := hk.count
  omega

/-- Where the current line is: behind the older ones. -/
theorem LogHolds.index (hk : LogHolds k h) :
    k.currentLogIndex = (k.logStart + (k.logCount - 1)) % logLines := by
  rw [Console.currentLogIndex, Nat.add_sub_assoc hk.count_pos.1]

theorem line_setLen (idx n : Nat) :
    line (k.setLen idx n) = Function.update (line k) idx ((List.range n).map (k.lines idx)) := by
  funext i
  by_cases hi : i = idx
  · subst hi
    rw [Function.update_self]
    simp only [line, Console.setLen, Console.setChar, Function.update_self]
    refine List.map_congr_left fun j hj => ?_
    exact Function.update_of_ne (Nat.ne_of_lt (List.mem_range.mp hj)) _ _
  · rw [Function.update_of_ne hi]
    simp only [line, Console.setLen, Console.setChar, Function.update_of_ne hi]

/-- A character at the end, or in place of the last ones. -/
theorem line_setChar_setLen (idx : Nat) {i : Nat} (hi : i ≤ k.lens idx) (c : UInt8) :
    line ((k.setChar idx i c).setLen idx (i + 1)) =
      Function.update (line k) idx ((line k idx).take i ++ [c]) := by
  have htake : (line k idx).take i = (List.range i).map (k.lines idx) := by
    rw [line, ← List.map_take, List.take_range, Nat.min_eq_left hi]
  have hsame : ∀ j, j ≠ idx → line (k.setChar idx i c) j = line k j := fun j hj => by
    simp only [line, Console.setChar, Function.update_of_ne hj]
  rw [line_setLen, htake]
  funext j
  by_cases hj : j = idx
  · subst hj
    rw [Function.update_self, Function.update_self, List.range_succ, List.map_append,
      List.map_singleton]
    simp only [Console.setChar, Function.update_self]
    congr 1
    refine List.map_congr_left fun j' hj' => ?_
    exact Function.update_of_ne (Nat.ne_of_lt (List.mem_range.mp hj')) _ _
  · rw [Function.update_of_ne hj, Function.update_of_ne hj, hsame j hj]

theorem ends_setLen {idx n : Nat} (hn : n < logLineMax)
    (hends : ∀ i, i ≠ idx → k.lens i < logLineMax ∧ k.lines i (k.lens i) = 0) :
    ∀ i, (k.setLen idx n).lens i < logLineMax ∧
      (k.setLen idx n).lines i ((k.setLen idx n).lens i) = 0 := by
  intro i
  by_cases hi : i = idx
  · subst hi
    simp only [Console.setLen, Console.setChar, Function.update_self]
    exact ⟨hn, trivial⟩
  · simp only [Console.setLen, Console.setChar, Function.update_of_ne hi]
    exact hends i hi

/-! ## What an operation does to the log -/

/-- The current line is written over. -/
theorem LogHolds.edit (hk : LogHolds k h) {k' : Console} (l : List UInt8)
    (hline : line k' = Function.update (line k) k.currentLogIndex l)
    (hstart : k'.logStart = k.logStart) (hcount : k'.logCount = k.logCount)
    (hmode : k'.guiMode = k.guiMode) (hoffset : k'.viewportOffset = k.viewportOffset)
    (hends : ∀ idx, k'.lens idx < logLineMax ∧ k'.lines idx (k'.lens idx) = 0) :
    LogHolds k' ⟨h.older, l⟩ := by
  have hindex : k'.currentLogIndex = k.currentLogIndex := by
    rw [Console.currentLogIndex, hstart, hcount, Console.currentLogIndex]
  refine ⟨hstart ▸ hk.start, hcount ▸ hk.count, ?_, ?_, hends, ?_⟩
  · -- the older lines stand in other slots
    rw [hline, hstart, hcount, ← hk.older, window, window]
    refine List.map_congr_left fun i hi => Function.update_of_ne ?_ _ _
    rw [hk.index]
    have hcap := hk.count_pos
    have hlt := List.mem_range.mp hi
    exact slot_ne hlt (by omega)
  · rw [hindex, hline, Function.update_self]
  · rw [hoffset, Console.maxViewportOffset, hcount, hmode]
    exact hk.viewport

/-- **A new line** pushes the oldest one out when the ring is full. -/
theorem LogHolds.newline (hk : LogHolds k h) : LogHolds (logNewline k) h.newline := by
  have hcap : logLines = 512 := rfl
  have hpos := hk.count_pos
  have hcount := hk.count
  have hindex := hk.index
  have hroom : 0 < logLineMax := by decide
  have hlength : h.newline.older.length = h.older.length + 1 := by
    simp [History.newline, History.lines]
  -- the line written to so far, behind the older ones
  have hall : window logLines (line k) k.logStart k.logCount =
      newest (logLines - 1) h.older ++ [h.current] := by
    obtain ⟨n, hn⟩ : ∃ n, k.logCount = n + 1 := ⟨k.logCount - 1, by omega⟩
    have hlast : line k ((k.logStart + n) % logLines) = h.current := by
      rw [← hk.current, hindex, hn, Nat.add_sub_cancel]
    rw [← hk.older, hn, Nat.add_sub_cancel, window, List.range_succ, List.map_append,
      List.map_singleton, hlast, window]
  have hpush : newest (logLines - 1) (h.older ++ [h.current]) =
      (if (newest (logLines - 1) h.older).length = logLines - 1 then
        (newest (logLines - 1) h.older).drop 1 else newest (logLines - 1) h.older) ++ [h.current] :=
    newest_append_singleton (by decide) h.older h.current
  unfold logNewline
  by_cases hfull : k.logCount < logLines
  · -- a slot that was not used yet
    simp only [if_pos hfull]
    set idx := (k.logStart + k.logCount) % logLines with hidx
    refine ⟨hk.start, ?_, ?_, ?_, ends_setLen hroom fun i _ => hk.ends i, Nat.zero_le _⟩
    · show k.logCount + 1 = _
      omega
    · rw [line_setLen]
      show window logLines _ k.logStart (k.logCount + 1 - 1) = _
      have hshort : (newest (logLines - 1) h.older).length ≠ logLines - 1 := by
        rw [length_newest]
        omega
      rw [Nat.add_sub_cancel, History.newline, History.lines, hpush, if_neg hshort, ← hall, window,
        window]
      refine List.map_congr_left fun i hi => Function.update_of_ne ?_ _ _
      exact slot_ne (List.mem_range.mp hi) hfull
    · rw [line_setLen]
      show Function.update _ idx _ ((k.logStart + (k.logCount + 1) - 1) % logLines) = _
      rw [← Nat.add_assoc, Nat.add_sub_cancel, ← hidx, Function.update_self]
      rfl
  · -- the oldest line's slot
    have heq : k.logCount = logLines := by omega
    simp only [if_neg hfull]
    set start := (k.logStart + 1) % logLines with hstart
    refine ⟨Nat.mod_lt _ (by decide), ?_, ?_, ?_, ends_setLen hroom fun i _ => hk.ends i,
      Nat.zero_le _⟩
    · show k.logCount = _
      omega
    · rw [line_setLen]
      show window logLines (Function.update (line k) ((start + k.logCount - 1) % logLines) _) start
        (k.logCount - 1) = _
      have hlong : (newest (logLines - 1) h.older).length = logLines - 1 := by
        rw [length_newest]
        omega
      have hdrop : (window logLines (line k) k.logStart k.logCount).drop 1 =
          window logLines (line k) start (k.logCount - 1) := by
        obtain ⟨n, hn⟩ : ∃ n, k.logCount = n + 1 := ⟨k.logCount - 1, by omega⟩
        rw [hn, window_succ, List.drop_one, List.tail_cons, Nat.add_sub_cancel]
      have htail : (newest (logLines - 1) h.older ++ [h.current]).drop 1 =
          (newest (logLines - 1) h.older).drop 1 ++ [h.current] :=
        List.drop_append_of_le_length (by rw [hlong]; decide)
      rw [History.newline, History.lines, hpush, if_pos hlong, ← htail, ← hall, hdrop, window, window]
      refine List.map_congr_left fun i hi => Function.update_of_ne ?_ _ _
      have hlt := List.mem_range.mp hi
      rw [Nat.add_sub_assoc hpos.1]
      exact slot_ne hlt (by omega)
    · rw [line_setLen]
      exact Function.update_self _ _ _

/-- A character behind the current line, or in place of its last ones. -/
theorem LogHolds.setChar (hk : LogHolds k h) {i : Nat} (hi : i ≤ h.current.length)
    (hroom : i + 1 < logLineMax) (c : UInt8) :
    LogHolds ((k.setChar k.currentLogIndex i c).setLen k.currentLogIndex (i + 1))
      ⟨h.older, h.current.take i ++ [c]⟩ := by
  have hlen := lens_current hk
  refine hk.edit _ ?_ rfl rfl rfl rfl (ends_setLen hroom fun j hj => ?_)
  · rw [line_setChar_setLen _ (by omega), hk.current]
  · simp only [Console.setChar, Function.update_of_ne hj]
    exact hk.ends j

/-- The current line is cut. -/
theorem LogHolds.truncate (hk : LogHolds k h) {n : Nat} (hn : n ≤ h.current.length) :
    LogHolds (k.setLen k.currentLogIndex n) ⟨h.older, h.current.take n⟩ := by
  have hlen := lens_current hk
  have hroom := (hk.ends k.currentLogIndex).1
  refine hk.edit _ ?_ rfl rfl rfl rfl (ends_setLen (by omega) fun j _ => hk.ends j)
  rw [line_setLen, ← hk.current, line, ← List.map_take, List.take_range, Nat.min_eq_left (by omega)]

theorem visibleWidth_range (guiMode : Bool) :
    3 < visibleWidth guiMode ∧ visibleWidth guiMode < logLineMax := by
  cases guiMode <;> decide

@[simp] theorem logNewline_guiMode (k : Console) : (logNewline k).guiMode = k.guiMode := by
  unfold logNewline
  simp only
  split <;> rfl

theorem LogHolds.wrap (hk : LogHolds k h) :
    LogHolds (logWrap k) (h.wrap (visibleWidth k.guiMode)) ∧ (logWrap k).guiMode = k.guiMode ∧
      (h.wrap (visibleWidth k.guiMode)).current.length < visibleWidth k.guiMode - 1 := by
  obtain ⟨hwide, hroom⟩ := visibleWidth_range k.guiMode
  have hempty : 0 < visibleWidth k.guiMode - 1 := by omega
  have hlen := lens_current hk
  simp only [logWrap, History.wrap, hlen, ge_iff_le]
  split
  · exact ⟨hk.newline, logNewline_guiMode k, hempty⟩
  split
  · rename_i hfull
    have hlast : visibleWidth k.guiMode - 1 = visibleWidth k.guiMode - 2 + 1 := by omega
    rw [hlast]
    exact ⟨(hk.setChar (by omega) (by omega) 0x5c).newline, logNewline_guiMode _, by
      rw [← hlast]; exact hempty⟩
  · exact ⟨hk, rfl, by omega⟩

theorem LogHolds.put (hk : LogHolds k h) (c : UInt8) :
    LogHolds (logPutChar c k) (h.put (visibleWidth k.guiMode) c) ∧
      (logPutChar c k).guiMode = k.guiMode := by
  obtain ⟨hwrap, hmode, hshort⟩ := hk.wrap
  have hroom := (visibleWidth_range k.guiMode).2
  have hlen := lens_current hwrap
  have hput := hwrap.setChar (Nat.le_refl _) (by omega) c
  rw [List.take_length] at hput
  simp only [logPutChar, hlen]
  rw [if_pos (by omega)]
  exact ⟨hput, hmode⟩

/-- Rendering leaves the log alone. -/
theorem LogHolds.render (hk : LogHolds k h) (x : Chrome) : LogHolds (renderOutput x k) h :=
  ⟨hk.start, hk.count, hk.older, hk.current, hk.ends, hk.viewport⟩

theorem LogHolds.putc (hk : LogHolds k h) (x : Chrome) (c : UInt8) :
    LogHolds (consolePutc x c k) (h.putc (visibleWidth k.guiMode) c) ∧
      (consolePutc x c k).guiMode = k.guiMode := by
  have hlen := lens_current hk
  unfold consolePutc History.putc
  split
  · exact ⟨hk.newline.render x, logNewline_guiMode k⟩
  split
  · exact ⟨(hk.truncate (Nat.zero_le _)).render x, rfl⟩
  split
  · rw [hlen, List.dropLast_eq_take]
    split
    · exact ⟨(hk.truncate (Nat.sub_le _ _)).render x, rfl⟩
    · rename_i hempty
      have hnil : h.current = [] := List.eq_nil_of_length_eq_zero (by omega)
      have hsame : (⟨h.older, h.current.take (h.current.length - 1)⟩ : History) = h := by
        rw [hnil, List.take_nil, ← hnil]
      rw [hsame]
      exact ⟨hk.render x, rfl⟩
  · exact ⟨(hk.put c).1.render x, (hk.put c).2⟩

theorem holds_reset (k : Console) : LogHolds (logReset k) History.empty where
  start := show 0 < logLines by decide
  count := rfl
  older := rfl
  current := rfl
  ends _ := ⟨show 0 < logLineMax by decide, rfl⟩
  viewport := Nat.zero_le _

/-- The viewport is moved inside the log. -/
theorem LogHolds.scrollTo (hk : LogHolds k h) (x : Chrome) {offset : Nat}
    (hoffset : offset ≤ k.maxViewportOffset) :
    LogHolds (renderOutput x { k with viewportOffset := offset }) h :=
  ⟨hk.start, hk.count, hk.older, hk.current, hk.ends, hoffset⟩

theorem LogHolds.scroll (hk : LogHolds k h) (x : Chrome) (delta : Int) :
    LogHolds (consoleScroll x delta k) h := by
  have hviewport := hk.viewport
  unfold consoleScroll
  simp only
  split
  · split
    · exact hk.scrollTo x (Nat.le_refl _)
    · exact hk.scrollTo x (by omega)
  split
  · split
    · exact hk.scrollTo x (Nat.zero_le _)
    · exact hk.scrollTo x (by omega)
  · exact hk.render x

/-- The transcript is what the console shows from. -/
structure Transcribed (k : Console) (t : Transcript) : Prop where
  holds : LogHolds k t.history
  guiMode : k.guiMode = t.guiMode

/-- **One operation.** -/
theorem Transcribed.step {t : Transcript} (hk : Transcribed k t) (op : Chrome × ConsoleOp) :
    Transcribed (ConsoleOp.run op k) (ConsoleOp.write op t) := by
  obtain ⟨x, op⟩ := op
  obtain ⟨hholds, hmode⟩ := hk
  cases op with
  | putc c =>
    obtain ⟨hput, hsame⟩ := hholds.putc x c
    rw [hmode] at hput hsame
    exact ⟨hput, hsame⟩
  | clear => exact ⟨(holds_reset k).render x, hmode⟩
  | setGui enabled =>
    have hclear : LogHolds { k with guiMode := enabled != 0, viewportOffset := 0 } t.history :=
      ⟨hholds.start, hholds.count, hholds.older, hholds.current, hholds.ends, Nat.zero_le _⟩
    exact ⟨hclear.render x, rfl⟩
  | scroll delta _ =>
    refine ⟨hholds.scroll x delta, ?_⟩
    simp only [ConsoleOp.run, ConsoleOp.write, consoleScroll]
    split
    · split <;> exact hmode
    split
    · split <;> exact hmode
    · exact hmode
  | scrollTop => exact ⟨hholds.scrollTo x (Nat.le_refl _), hmode⟩
  | scrollBottom => exact ⟨hholds.scrollTo x (Nat.zero_le _), hmode⟩

/-- What was written since `console_init`, in the mode the console was in. -/
def transcript (guiMode : Bool) (ops : List (Chrome × ConsoleOp)) : Transcript :=
  runAll ConsoleOp.write ops ⟨guiMode, History.empty⟩

/-- The console behind `console_init` and the operations. -/
def consoleAfter (k : Console) (ops : List (Chrome × ConsoleOp)) : Console :=
  runAll ConsoleOp.run ops (consoleInit k)

/-- **All of them.** -/
theorem consoleAfter_keeps (k : Console) (ops : List (Chrome × ConsoleOp)) :
    Transcribed (consoleAfter k ops) (transcript k.guiMode ops) := by
  refine runAll_invariant (fun done k' => Transcribed k' (transcript k.guiMode done))
    ⟨holds_reset { k with row := 0, col := 0 }, rfl⟩ ops fun done op hbefore => ?_
  rw [transcript, runAll_snoc]
  exact hbefore.step op

/-! ## What is rendered -/

def InScreen (p : Put) : Prop := p.row < screenH ∧ p.col < screenW

theorem writeAt_inScreen {r : Nat} (hr : r < screenH) (attr : UInt8) : ∀ (s : List UInt8) (c : Nat),
    ∀ p ∈ writeAt r c s attr, InScreen p
  | [], _, _, hp => absurd hp List.not_mem_nil
  | ch :: s, c, p, hp => by
    rw [writeAt] at hp
    split at hp
    · rename_i hc
      rcases List.mem_cons.mp hp with rfl | hp
      · exact ⟨hr, hc⟩
      · exact writeAt_inScreen hr attr s (c + 1) p hp
    · exact absurd hp List.not_mem_nil

/-- A zero is written without a look at the column. -/
theorem writeU64At_inScreen {r c : Nat} (hr : r < screenH) (hc : c < screenW) (value : UInt64)
    (attr : UInt8) : ∀ p ∈ writeU64At r c value attr, InScreen p := by
  unfold writeU64At
  split
  · exact List.forall_mem_singleton.mpr ⟨hr, hc⟩
  · exact writeAt_inScreen hr attr _ c

/-- What is written to a screen row from a column on. -/
def rowPuts (r c0 n : Nat) (f : Nat → UInt8) (attr : UInt8) : List Put :=
  (List.range n).map fun c => ⟨r, c0 + c, f c, attr⟩

theorem rowPuts_inScreen {r c0 n : Nat} (hr : r < screenH) (hn : c0 + n ≤ screenW)
    (f : Nat → UInt8) (attr : UInt8) : ∀ p ∈ rowPuts r c0 n f attr, InScreen p := by
  intro p hp
  obtain ⟨c, hc, rfl⟩ := List.mem_map.mp hp
  have hlt := List.mem_range.mp hc
  exact ⟨hr, show c0 + c < screenW by omega⟩

theorem refreshGuiChrome_inScreen (x : Chrome) (viewportOffset maxOffset : Nat) :
    ∀ p ∈ refreshGuiChrome x viewportOffset maxOffset, InScreen p := by
  have htext : ∀ {r : Nat} (_ : r < screenH) (c : Nat) (s : List UInt8) (attr : UInt8),
      ∀ p ∈ writeAt r c s attr, InScreen p := fun hr c s attr => writeAt_inScreen hr attr s c
  have hnumber : ∀ {r c : Nat} (_ : r < screenH) (_ : c < screenW) (v : UInt64) (attr : UInt8),
      ∀ p ∈ writeU64At r c v attr, InScreen p := fun hr hc v attr => writeU64At_inScreen hr hc v attr
  have hbars : ∀ p ∈ (List.range screenW).flatMap fun c =>
      [(⟨0, c, 0x20, 0x30⟩ : Put), ⟨1, c, 0x20, 0x17⟩, ⟨22, c, 0x20, 0x17⟩, ⟨24, c, 0x20, 0x10⟩],
      InScreen p := by
    intro p hp
    obtain ⟨c, hc, hp⟩ := List.mem_flatMap.mp hp
    have hcol := List.mem_range.mp hc
    simp only [List.mem_cons, List.not_mem_nil, or_false] at hp
    rcases hp with rfl | rfl | rfl | rfl <;> exact ⟨by simp [screenH], hcol⟩
  have hread : ∀ p ∈ (if viewportOffset ≠ 0 then
      writeAt 24 60 (cstr "READ ") 0x10 ++ writeU64At 24 65 (UInt64.ofNat viewportOffset) 0x10 ++
      writeAt 24 70 (cstr "/") 0x10 ++ writeU64At 24 71 (UInt64.ofNat maxOffset) 0x10
      else []), InScreen p := by
    split
    · simp only [List.forall_mem_append]
      exact ⟨⟨⟨htext (by decide) _ _ _, hnumber (by decide) (by decide) _ _⟩,
        htext (by decide) _ _ _⟩, hnumber (by decide) (by decide) _ _⟩
    · exact fun p hp => absurd hp List.not_mem_nil
  unfold refreshGuiChrome
  simp only [List.forall_mem_append]
  repeat' apply And.intro
  all_goals first
    | exact hbars
    | exact hread
    | exact htext (by decide) _ _ _
    | exact hnumber (by decide) (by decide) _ _

theorem drawFrame_inScreen (x : Chrome) (k : Console) : ∀ p ∈ drawFrame x k, InScreen p := by
  unfold drawFrame
  split
  · intro p hp
    obtain ⟨i, hi, rfl⟩ := List.mem_map.mp hp
    have hlt := List.mem_range.mp hi
    exact ⟨Nat.div_lt_of_lt_mul hlt, Nat.mod_lt _ (by decide)⟩
  · simp only [List.forall_mem_append]
    refine ⟨⟨⟨⟨?_, ?_⟩, ?_⟩, ?_⟩, refreshGuiChrome_inScreen x _ _⟩
    · intro p hp
      obtain ⟨r, hr, hp⟩ := List.mem_flatMap.mp hp
      obtain ⟨c, hc, rfl⟩ := List.mem_map.mp hp
      exact ⟨List.mem_range.mp hr, List.mem_range.mp hc⟩
    · intro p hp
      obtain ⟨r, hr, hp⟩ := List.mem_flatMap.mp hp
      have hrow : r < screenH := Nat.lt_of_lt_of_le (List.mem_range'_1.mp hr).2 (by decide)
      simp only [List.mem_cons, List.not_mem_nil, or_false] at hp
      rcases hp with rfl | rfl <;> exact ⟨hrow, by simp [screenW, guiLeft, guiRight]⟩
    · intro p hp
      obtain ⟨c, hc, hp⟩ := List.mem_flatMap.mp hp
      have hcol : c < screenW := Nat.lt_of_lt_of_le (List.mem_range'_1.mp hc).2 (by decide)
      simp only [List.mem_cons, List.not_mem_nil, or_false] at hp
      rcases hp with rfl | rfl <;> exact ⟨by simp [screenH, guiTop, guiBottom], hcol⟩
    · intro p hp
      obtain ⟨r, hr, hp⟩ := List.mem_flatMap.mp hp
      obtain ⟨c, hc, rfl⟩ := List.mem_map.mp hp
      have hrow : r < screenH := Nat.lt_of_lt_of_le (List.mem_range'_1.mp hr).2 (by decide)
      have hcol : c < screenW := Nat.lt_of_lt_of_le (List.mem_range'_1.mp hc).2 (by decide)
      exact ⟨hrow, hcol⟩

/-- The window lies on the screen. -/
theorem content_inScreen (guiMode : Bool) :
    contentRow0 guiMode + visibleHeight guiMode ≤ screenH ∧
      contentCol0 guiMode + visibleWidth guiMode ≤ screenW := by
  cases guiMode <;> decide

/-- A row of the window, blanked and then written. -/
theorem renderRow_eq (k : Console) (view : Nat) :
    k.renderRow view =
      rowPuts (contentRow0 k.guiMode + view) (contentCol0 k.guiMode) (visibleWidth k.guiMode)
        (fun _ => 0x20) (if k.guiMode then 0x1f else consoleColor) ++
      rowPuts (contentRow0 k.guiMode + view) (contentCol0 k.guiMode)
        (if k.startLine + view ≥ k.logCount then 0
          else min (k.lens ((k.logStart + (k.startLine + view)) % logLines))
            (visibleWidth k.guiMode))
        (k.lines ((k.logStart + (k.startLine + view)) % logLines))
        (if k.guiMode then 0x1f else consoleColor) := by
  rw [Console.renderRow]
  by_cases hend : k.startLine + view ≥ k.logCount
  · simp only [if_pos hend]
    rfl
  · simp only [if_neg hend]
    rfl

theorem renderRow_inScreen (k : Console) {view : Nat} (hview : view < visibleHeight k.guiMode) :
    ∀ p ∈ k.renderRow view, InScreen p := by
  obtain ⟨hrows, hcols⟩ := content_inScreen k.guiMode
  have hr : contentRow0 k.guiMode + view < screenH := by omega
  rw [renderRow_eq, List.forall_mem_append]
  refine ⟨rowPuts_inScreen hr hcols _ _, rowPuts_inScreen hr ?_ _ _⟩
  split <;> omega

/-- **Nothing beside the screen is written to.** -/
theorem renderPuts_inScreen (x : Chrome) (k : Console) : ∀ p ∈ k.renderPuts x, InScreen p := by
  rw [Console.renderPuts, List.forall_mem_append]
  refine ⟨drawFrame_inScreen x k, fun p hp => ?_⟩
  obtain ⟨view, hview, hp⟩ := List.mem_flatMap.mp hp
  exact renderRow_inScreen k (List.mem_range.mp hview) p hp

/-! ## Cell by cell -/

variable {vga : Nat → UInt16}

theorem foldl_putAt_of_ne {i : Nat} : ∀ {puts : List Put} {vga : Nat → UInt16},
    (∀ p ∈ puts, p.index ≠ i) → puts.foldl putAt vga i = vga i
  | [], _, _ => rfl
  | p :: puts, vga, h => by
    have hp : p.index ≠ i := h p List.mem_cons_self
    rw [List.foldl_cons, foldl_putAt_of_ne fun q hq => h q (List.mem_cons_of_mem p hq), putAt,
      Function.update_of_ne hp.symm]

theorem rowPuts_cell (r c0 c : Nat) (f : Nat → UInt8) (attr : UInt8) (vga : Nat → UInt16) :
    ∀ n, (rowPuts r c0 n f attr).foldl putAt vga (r * screenW + (c0 + c)) =
      if c < n then vgaCell (f c) attr else vga (r * screenW + (c0 + c)) := by
  intro n
  induction n with
  | zero => rfl
  | succ n ih =>
    have hsnoc : rowPuts r c0 (n + 1) f attr = rowPuts r c0 n f attr ++ [⟨r, c0 + n, f n, attr⟩] := by
      rw [rowPuts, List.range_succ, List.map_append, List.map_singleton, rowPuts]
    rw [hsnoc, List.foldl_append, List.foldl_cons, List.foldl_nil, putAt]
    by_cases hc : c = n
    · subst hc
      rw [if_pos (Nat.lt_succ_self c)]
      exact Function.update_self _ _ _
    · have hne : r * screenW + (c0 + c) ≠ (⟨r, c0 + n, f n, attr⟩ : Put).index := by
        simp only [Put.index]
        omega
      rw [Function.update_of_ne hne, ih]
      by_cases hlt : c < n
      · rw [if_pos hlt, if_pos (by omega)]
      · rw [if_neg hlt, if_neg (by omega)]

/-- The lines the log holds, oldest first. -/
def logged (k : Console) : List (List UInt8) := window logLines (line k) k.logStart k.logCount

/-- The character of the window: of the log's line, or blank. -/
def windowChar (k : Console) (view c : Nat) : UInt8 :=
  ((logged k).getD (k.startLine + view) []).getD c 0x20

/-- **A row of the window** shows its line. -/
theorem renderRow_cell (k : Console) (view : Nat) {c : Nat} (hc : c < visibleWidth k.guiMode)
    (vga : Nat → UInt16) :
    (k.renderRow view).foldl putAt vga
        ((contentRow0 k.guiMode + view) * screenW + (contentCol0 k.guiMode + c)) =
      vgaCell (windowChar k view c) (if k.guiMode then 0x1f else consoleColor) := by
  rw [renderRow_eq, List.foldl_append, rowPuts_cell, rowPuts_cell, if_pos hc, windowChar, logged]
  set logical := k.startLine + view
  by_cases hend : logical ≥ k.logCount
  · have hnone : (window logLines (line k) k.logStart k.logCount).getD logical [] = [] :=
      List.getD_eq_default _ _ (by rw [length_window]; exact hend)
    rw [if_pos hend, if_neg (Nat.not_lt_zero c), hnone]
    rfl
  · have hline : (window logLines (line k) k.logStart k.logCount).getD logical [] =
        line k ((k.logStart + logical) % logLines) := by
      rw [List.getD_eq_getElem _ _ (by rw [length_window]; omega)]
      simp [window]
    rw [if_neg hend, hline]
    set idx := (k.logStart + logical) % logLines
    by_cases hlen : c < k.lens idx
    · rw [if_pos (by omega), List.getD_eq_getElem _ _ (by rw [length_line]; exact hlen)]
      simp [line]
    · rw [if_neg (by omega), List.getD_eq_default _ _ (by rw [length_line]; omega)]

/-- Rows of the window do not touch each other. -/
theorem renderRows_cell (k : Console) {view c : Nat} (hc : c < visibleWidth k.guiMode)
    (vga : Nat → UInt16) : ∀ n, n ≤ visibleHeight k.guiMode → view < n →
    ((List.range n).flatMap k.renderRow).foldl putAt vga
        ((contentRow0 k.guiMode + view) * screenW + (contentCol0 k.guiMode + c)) =
      vgaCell (windowChar k view c) (if k.guiMode then 0x1f else consoleColor) := by
  intro n
  induction n with
  | zero => exact fun _ h => absurd h (Nat.not_lt_zero view)
  | succ n ih =>
    intro hn hview
    rw [List.range_succ, List.flatMap_append, List.flatMap_singleton, List.foldl_append]
    by_cases hlast : view = n
    · subst hlast
      exact renderRow_cell k view hc _
    · rw [foldl_putAt_of_ne ?_]
      · exact ih (by omega) (by omega)
      · -- another row, and its columns are of the screen
        intro p hp
        obtain ⟨-, hcols⟩ := content_inScreen k.guiMode
        have hcol := (renderRow_inScreen k (by omega) p hp).2
        have hrow : p.row = contentRow0 k.guiMode + n := by
          rw [renderRow_eq, List.mem_append] at hp
          rcases hp with hp | hp <;> (obtain ⟨_, _, rfl⟩ := List.mem_map.mp hp; rfl)
        have hwidth : screenW = 80 := rfl
        rw [hwidth] at hcols hcol
        rw [Put.index, hrow, hwidth]
        omega

theorem renderCursor_inScreen (k : Console) :
    k.renderCursor.1 < screenH ∧ k.renderCursor.2 < screenW := by
  obtain ⟨hrows, hcols⟩ := content_inScreen k.guiMode
  have hsize : 1 ≤ visibleHeight k.guiMode ∧ 1 ≤ visibleWidth k.guiMode := by
    cases k.guiMode <;> decide
  unfold Console.renderCursor
  simp only
  split
  · constructor
    · show contentRow0 k.guiMode + _ - 1 < screenH
      split <;> split at * <;> omega
    · show contentCol0 k.guiMode + _ < screenW
      split <;> omega
  · exact ⟨show contentRow0 k.guiMode + visibleHeight k.guiMode - 1 < screenH by omega,
      show contentCol0 k.guiMode < screenW by omega⟩

/-! ## Every state of every run

What the screen shows is a matter of the last operation, which renders everything anew. So the
invariant is about the log, and what is shown follows from it once for all operations.
-/

/-- The bounds of the log, and the lines it holds. -/
structure LogOk (k : Console) (h : History) : Prop where
  start : k.logStart < 512
  count : 1 ≤ k.logCount ∧ k.logCount ≤ 512
  ends : ∀ idx < 512, k.lens idx ≤ 159 ∧ k.lines idx (k.lens idx) = 0
  viewport : k.viewportOffset ≤ k.maxViewportOffset
  lines : logged k = newest k.logCount h.lines

/-- The window on the screen, line by line, and the cursor. -/
structure Shows (k : Console) (h : History) : Prop where
  cells : ∀ view < visibleHeight k.guiMode, ∀ c < visibleWidth k.guiMode,
    k.vga ((contentRow0 k.guiMode + view) * screenW + (contentCol0 k.guiMode + c)) =
      vgaCell (((newest k.logCount h.lines).getD
        (k.logCount - visibleHeight k.guiMode - k.viewportOffset + view) []).getD c 0x20)
        (if k.guiMode then 0x1f else consoleColor)
  cursor : k.row < 25 ∧ k.col < 80 ∧ k.cursor.toNat = k.row * 80 + k.col

theorem LogHolds.log (hk : LogHolds k h) : LogOk k h := by
  have hpos := hk.count_pos
  refine ⟨hk.start, hpos, fun idx _ => ⟨?_, (hk.ends idx).2⟩, hk.viewport, ?_⟩
  · exact Nat.le_of_lt_succ (hk.ends idx).1
  · obtain ⟨n, hn⟩ : ∃ n, k.logCount = n + 1 := ⟨k.logCount - 1, by omega⟩
    have hcap : logLines = 512 := rfl
    have hcount := hk.count
    have hlast : line k ((k.logStart + n) % logLines) = h.current := by
      rw [← hk.current, hk.index, hn, Nat.add_sub_cancel]
    have hold := hk.older
    rw [hn, Nat.add_sub_cancel] at hold
    have hgone : h.older.length + 1 - k.logCount = h.older.length - (logLines - 1) := by omega
    have hnewest : newest k.logCount h.lines = newest (logLines - 1) h.older ++ [h.current] := by
      rw [History.lines, newest, newest, List.length_append, List.length_singleton,
        List.drop_append_of_le_length (by omega), hgone]
    rw [hnewest, logged, hn, ← hold, window, List.range_succ, List.map_append, List.map_singleton,
      hlast, window]

/-- **What a rendering shows.** -/
theorem LogHolds.shows {x : Chrome} (hk : LogHolds (renderOutput x k) h) :
    Shows (renderOutput x k) h := by
  obtain ⟨hrow, hcol⟩ := renderCursor_inScreen k
  constructor
  · intro view hview c hc
    have hstart : k.startLine = k.logCount - visibleHeight k.guiMode - k.viewportOffset := by
      unfold Console.startLine
      split <;> omega
    have hlines : logged k = newest k.logCount h.lines := hk.log.lines
    show ((k.renderPuts x).foldl putAt k.vga) _ = _
    rw [Console.renderPuts, List.foldl_append]
    refine (renderRows_cell k hc _ _ (Nat.le_refl _) hview).trans ?_
    rw [windowChar, hlines, hstart]
    rfl
  · refine ⟨hrow, hcol, ?_⟩
    have hwidth : screenW = 80 := rfl
    have hheight : screenH = 25 := rfl
    have hcell : k.renderCursor.1 * screenW + k.renderCursor.2 < UInt16.size := by
      rw [hwidth, UInt16.size]
      omega
    exact UInt16.toNat_ofNat_of_lt' hcell

/-- Every operation ends with a rendering. -/
theorem ConsoleOp.run_rendered (op : Chrome × ConsoleOp) (k : Console) :
    ∃ x k₀, ConsoleOp.run op k = renderOutput x k₀ := by
  obtain ⟨x, op⟩ := op
  cases op <;> exact ⟨x, _, rfl⟩

/-- **The scrollback invariant**, in every state behind `console_init`: the log's bounds hold
    and it has the last lines written; a rendering writes to the screen only and shows the part
    of them that the viewport's offset says, as the last operation's has.

    There is no hypothesis: `k` is any state before `console_init`, `ops` any operations, each with
    any state of the rest of the screen. The last part needs an operation, since `console_init`
    renders nothing that was written. -/
theorem scrollback_invariant (k : Console) (ops : List (Chrome × ConsoleOp)) :
    LogOk (consoleAfter k ops) (transcript k.guiMode ops).history ∧
      (∀ x, (∀ p ∈ (consoleAfter k ops).renderPuts x, InScreen p) ∧
        Shows (renderOutput x (consoleAfter k ops)) (transcript k.guiMode ops).history) ∧
      (ops ≠ [] → Shows (consoleAfter k ops) (transcript k.guiMode ops).history) := by
  have hkeeps := (consoleAfter_keeps k ops).holds
  refine ⟨hkeeps.log, fun x => ⟨renderPuts_inScreen x _, (hkeeps.render x).shows⟩, fun hne => ?_⟩
  obtain ⟨done, op, rfl⟩ := List.eq_nil_or_concat' ops |>.resolve_left hne
  obtain ⟨x, k₀, hrun⟩ := ConsoleOp.run_rendered op (consoleAfter k done)
  have hlast : consoleAfter k (done ++ [op]) = renderOutput x k₀ :=
    (runAll_snoc done op (consoleInit k)).trans hrun
  rw [hlast] at hkeeps ⊢
  exact hkeeps.shows

end Proof
end BumbelBee
