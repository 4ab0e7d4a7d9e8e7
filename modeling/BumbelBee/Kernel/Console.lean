import BumbelBee.Kernel.Vfs

/-!
# The console (`kernel/console.c`)

A log of 512 lines, kept as a ring, of which a window is shown: on all of the screen, or inside
the frame of the workstation's display. Every operation renders the window anew.

The screen is written to through `put_at` and nothing else, so an operation is a list of `Put`s. The
picture of it that the display's own panels draw around the window is a parameter, `Chrome`: it is
put on the screen before the window is.
-/

namespace BumbelBee
namespace Kernel

open Lib

def screenW : Nat := 80
def screenH : Nat := 25
def guiLeft : Nat := 4
def guiTop : Nat := 3
def guiRight : Nat := 76
def guiBottom : Nat := 21
def logLines : Nat := 512
def logLineMax : Nat := 160

/-- `color`, which nothing changes. -/
def consoleColor : UInt8 := 0x0f

/-! ## Writing to the screen -/

/-- A call of `put_at`. -/
structure Put where
  row : Nat
  col : Nat
  ch : UInt8
  attr : UInt8
deriving DecidableEq

/-- The word of `VGA` it writes. -/
def Put.index (p : Put) : Nat := p.row * screenW + p.col

def vgaCell (ch attr : UInt8) : UInt16 := attr.toUInt16 <<< 8 ||| ch.toUInt16

def putAt (vga : Nat → UInt16) (p : Put) : Nat → UInt16 :=
  Function.update vga p.index (vgaCell p.ch p.attr)

def writeAt (r c : Nat) (s : List UInt8) (attr : UInt8) : List Put :=
  match s with
  | [] => []
  | ch :: s => if c < screenW then ⟨r, c, ch, attr⟩ :: writeAt r (c + 1) s attr else []

def writeU64At (r c : Nat) (value : UInt64) (attr : UInt8) : List Put :=
  if value = 0 then [⟨r, c, 0x30, attr⟩]
  else writeAt r c (decimalDigits 32 value).reverse attr

/-! ## The log -/

structure Console where
  /-- `gui_mode` -/
  guiMode : Bool
  /-- `log_lines[LOG_LINES][LOG_LINE_MAX]` -/
  lines : Nat → Nat → UInt8
  /-- `log_lens[LOG_LINES]` -/
  lens : Nat → Nat
  logStart : Nat
  logCount : Nat
  viewportOffset : Nat
  row : Nat
  col : Nat
  vga : Nat → UInt16
  /-- What `move_cursor` told the controller last. -/
  cursor : UInt16

/-- The statics as the kernel is loaded, over what the screen shows. -/
def Console.loaded (vga : Nat → UInt16) (cursor : UInt16) : Console :=
  ⟨true, fun _ _ => 0, fun _ => 0, 0, 0, 0, 0, 0, vga, cursor⟩

def visibleWidth (guiMode : Bool) : Nat := if guiMode then guiRight - guiLeft + 1 else screenW
def visibleHeight (guiMode : Bool) : Nat := if guiMode then guiBottom - guiTop + 1 else screenH
def contentRow0 (guiMode : Bool) : Nat := if guiMode then guiTop else 0
def contentCol0 (guiMode : Bool) : Nat := if guiMode then guiLeft else 0

namespace Console

/-- `current_log_index`, of a log that has a line. -/
def currentLogIndex (k : Console) : Nat := (k.logStart + k.logCount - 1) % Kernel.logLines

def maxViewportOffset (k : Console) : Nat :=
  if k.logCount > visibleHeight k.guiMode then k.logCount - visibleHeight k.guiMode else 0

/-- `log_lines[idx][i] = c` -/
def setChar (idx i : Nat) (c : UInt8) (k : Console) : Console :=
  { k with lines := Function.update k.lines idx (Function.update (k.lines idx) i c) }

/-- `log_lens[idx] = n`, and the terminator behind. -/
def setLen (idx n : Nat) (k : Console) : Console :=
  { k with lens := Function.update k.lens idx n }.setChar idx n 0

end Console

def logReset (k : Console) : Console :=
  { k with
    lines := fun _ _ => 0
    lens := fun _ => 0
    logStart := 0
    logCount := 1
    viewportOffset := 0 }

def logNewline (k : Console) : Console :=
  let k := { k with viewportOffset := 0 }
  if k.logCount < logLines then
    { k with logCount := k.logCount + 1 }.setLen ((k.logStart + k.logCount) % logLines) 0
  else
    let k := { k with logStart := (k.logStart + 1) % logLines }
    k.setLen k.currentLogIndex 0

/-- The line a character goes to: one that is full is continued on a new one. -/
def logWrap (k : Console) : Console :=
  let idx := k.currentLogIndex
  let width := visibleWidth k.guiMode
  if k.lens idx ≥ width then logNewline k
  else if k.lens idx = width - 1 then
    logNewline (if width > 3 then (k.setChar idx (width - 2) 0x5c).setLen idx (width - 1) else k)
  else k

def logPutChar (c : UInt8) (k : Console) : Console :=
  let k := logWrap k
  let idx := k.currentLogIndex
  if k.lens idx + 1 < logLineMax then
    (k.setChar idx (k.lens idx) c).setLen idx (k.lens idx + 1)
  else k

/-! ## Rendering -/

/-- What the rest of the kernel answers `refresh_gui_chrome`. -/
structure Chrome where
  ticks : UInt64
  usedBytes : UInt64
  taskCount : UInt32
  runnable : UInt32
  traceEvents : UInt64
  txPackets : UInt64
  rxPackets : UInt64
  queueDepth : UInt32
  powerModeName : List UInt8
  wakeups : UInt64
  currentPid : UInt32
  currentAspace : UInt32
  pageFaults : UInt64
  freeBytes : UInt64
  pendingKeys : UInt32
  pendingTxPackets : UInt32
  mousePresent : Bool

def refreshGuiChrome (x : Chrome) (viewportOffset maxOffset : Nat) : List Put :=
  ((List.range screenW).flatMap fun c =>
    [⟨0, c, 0x20, 0x30⟩, ⟨1, c, 0x20, 0x17⟩, ⟨22, c, 0x20, 0x17⟩, ⟨24, c, 0x20, 0x10⟩]) ++
  writeAt 0 2 (cstr " BB workstation ") 0x30 ++
  writeAt 0 27 (cstr "ticks=") 0x30 ++ writeU64At 0 33 x.ticks 0x30 ++
  writeAt 0 43 (cstr "mem=") 0x30 ++ writeU64At 0 47 (x.usedBytes / 1024) 0x30 ++
  writeAt 0 53 (cstr "K") 0x30 ++
  writeAt 0 57 (cstr "tasks=") 0x30 ++ writeU64At 0 63 x.taskCount.toUInt64 0x30 ++
  writeAt 0 66 (cstr "/") 0x30 ++ writeU64At 0 67 x.runnable.toUInt64 0x30 ++
  writeAt 1 2 (cstr "shell") 0x17 ++
  writeAt 1 10 (cstr "trace=") 0x17 ++ writeU64At 1 16 x.traceEvents 0x17 ++
  writeAt 1 26 (cstr "tx=") 0x17 ++ writeU64At 1 29 x.txPackets 0x17 ++
  writeAt 1 35 (cstr "rx=") 0x17 ++ writeU64At 1 38 x.rxPackets 0x17 ++
  writeAt 1 44 (cstr "q=") 0x17 ++ writeU64At 1 46 x.queueDepth.toUInt64 0x17 ++
  writeAt 1 50 (cstr "pwr=") 0x17 ++ writeAt 1 54 x.powerModeName 0x17 ++
  writeAt 1 66 (cstr "w=") 0x17 ++ writeU64At 1 68 x.wakeups 0x17 ++
  writeAt 22 2 (cstr "proc=") 0x17 ++ writeU64At 22 7 x.currentPid.toUInt64 0x17 ++
  writeAt 22 12 (cstr "aspace=") 0x17 ++ writeU64At 22 19 x.currentAspace.toUInt64 0x17 ++
  writeAt 22 24 (cstr "pf=") 0x17 ++ writeU64At 22 27 x.pageFaults 0x17 ++
  writeAt 22 34 (cstr "free=") 0x17 ++ writeU64At 22 39 (x.freeBytes / 1024) 0x17 ++
  writeAt 22 45 (cstr "K") 0x17 ++
  writeAt 22 48 (cstr "keys=") 0x17 ++ writeU64At 22 53 x.pendingKeys.toUInt64 0x17 ++
  writeAt 22 57 (cstr "txq=") 0x17 ++ writeU64At 22 61 x.pendingTxPackets.toUInt64 0x17 ++
  writeAt 22 65 (cstr "m=") 0x17 ++
  writeAt 22 67 (if x.mousePresent then cstr "on" else cstr "off") 0x17 ++
  (if viewportOffset ≠ 0 then
    writeAt 24 60 (cstr "READ ") 0x10 ++ writeU64At 24 65 (UInt64.ofNat viewportOffset) 0x10 ++
    writeAt 24 70 (cstr "/") 0x10 ++ writeU64At 24 71 (UInt64.ofNat maxOffset) 0x10
  else []) ++
  writeAt 24 2 (cstr "PgUp/PgDn scroll  Home/End jump  help, man, ping, ps, netstat") 0x10

def drawFrame (x : Chrome) (k : Console) : List Put :=
  if k.guiMode = false then
    (List.range (screenW * screenH)).map fun i => ⟨i / screenW, i % screenW, 0x20, consoleColor⟩
  else
    ((List.range screenH).flatMap fun r => (List.range screenW).map fun c => ⟨r, c, 0x20, 0x17⟩) ++
    ((List.range' (guiTop - 1) (guiBottom + 2 - (guiTop - 1))).flatMap fun r =>
      [⟨r, guiLeft - 2, 0x20, 0x70⟩, ⟨r, guiRight + 1, 0x20, 0x70⟩]) ++
    ((List.range' (guiLeft - 1) (guiRight + 1 - (guiLeft - 1))).flatMap fun c =>
      [⟨guiTop - 1, c, 0x20, 0x70⟩, ⟨guiBottom + 1, c, 0x20, 0x70⟩]) ++
    ((List.range' guiTop (guiBottom + 1 - guiTop)).flatMap fun r =>
      (List.range' guiLeft (guiRight + 1 - guiLeft)).map fun c => ⟨r, c, 0x20, 0x1f⟩) ++
    refreshGuiChrome x k.viewportOffset k.maxViewportOffset

namespace Console

/-- The line of the log in the window's first row. -/
def startLine (k : Console) : Nat :=
  if k.logCount > visibleHeight k.guiMode + k.viewportOffset then
    k.logCount - visibleHeight k.guiMode - k.viewportOffset
  else 0

/-- A row of the window. -/
def renderRow (k : Console) (view : Nat) : List Put :=
  let r := contentRow0 k.guiMode + view
  let c0 := contentCol0 k.guiMode
  let width := visibleWidth k.guiMode
  let attr := if k.guiMode then 0x1f else consoleColor
  let logical := k.startLine + view
  ((List.range width).map fun c => ⟨r, c0 + c, 0x20, attr⟩) ++
  if logical ≥ k.logCount then []
  else
    let idx := (k.logStart + logical) % Kernel.logLines
    (List.range (min (k.lens idx) width)).map fun c => ⟨r, c0 + c, k.lines idx c, attr⟩

/-- What `render_output` writes, in order. -/
def renderPuts (x : Chrome) (k : Console) : List Put :=
  drawFrame x k ++ (List.range (visibleHeight k.guiMode)).flatMap k.renderRow

/-- Where `render_output` leaves `row` and `col`. -/
def renderCursor (k : Console) : Nat × Nat :=
  let width := visibleWidth k.guiMode
  let height := visibleHeight k.guiMode
  if k.viewportOffset = 0 then
    let currentLen := k.lens k.currentLogIndex
    let usedLines := if k.logCount < height then k.logCount else height
    let usedLines := if usedLines = 0 then 1 else usedLines
    (contentRow0 k.guiMode + usedLines - 1,
      contentCol0 k.guiMode + if currentLen < width then currentLen else width - 1)
  else (contentRow0 k.guiMode + height - 1, contentCol0 k.guiMode)

end Console

def renderOutput (x : Chrome) (k : Console) : Console :=
  { k with
    vga := (k.renderPuts x).foldl putAt k.vga
    row := k.renderCursor.1
    col := k.renderCursor.2
    cursor := UInt16.ofNat (k.renderCursor.1 * screenW + k.renderCursor.2) }

/-! ## Operations -/

def consoleInit (k : Console) : Console := logReset { k with row := 0, col := 0 }

def consoleClear (x : Chrome) (k : Console) : Console := renderOutput x (logReset k)

def consolePutc (x : Chrome) (c : UInt8) (k : Console) : Console :=
  renderOutput x <|
    if c = 0x0a then logNewline k
    else if c = 0x0d then k.setLen k.currentLogIndex 0
    else if c = 0x08 then
      if k.lens k.currentLogIndex > 0 then
        k.setLen k.currentLogIndex (k.lens k.currentLogIndex - 1)
      else k
    else logPutChar c k

def consoleSetGui (x : Chrome) (enabled : Int) (k : Console) : Console :=
  renderOutput x { k with guiMode := enabled != 0, viewportOffset := 0 }

/-- `console_scroll`, of an `int`; the sum is a `u32`. -/
def consoleScroll (x : Chrome) (delta : Int) (k : Console) : Console :=
  let maxOffset := k.maxViewportOffset
  renderOutput x <|
    if delta < 0 then
      let amount := (-delta).toNat
      if (k.viewportOffset + amount) % 2 ^ 32 > maxOffset then { k with viewportOffset := maxOffset }
      else { k with viewportOffset := (k.viewportOffset + amount) % 2 ^ 32 }
    else if delta > 0 then
      if delta.toNat > k.viewportOffset then { k with viewportOffset := 0 }
      else { k with viewportOffset := k.viewportOffset - delta.toNat }
    else k

def consoleScrollTop (x : Chrome) (k : Console) : Console :=
  renderOutput x { k with viewportOffset := k.maxViewportOffset }

def consoleScrollBottom (x : Chrome) (k : Console) : Console :=
  renderOutput x { k with viewportOffset := 0 }

end Kernel
end BumbelBee
