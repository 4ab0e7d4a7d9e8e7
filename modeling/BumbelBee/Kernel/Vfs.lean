import BumbelBee.Kernel.Fs

/-!
# Trace files in the VFS (`kernel/vfs.c`)

`read_trace_file`, the part of `vfs_read` that goes to the trace store: a session's bytes or
the text of its metadata, by way of a scratch buffer on the stack. The text is put together
by `append_*`, which count every character but store only those that leave room for the
terminator.
-/

namespace BumbelBee
namespace Kernel

open Lib

def vfsScratchMax : Nat := 1024

/-- `u8 scratch[VFS_SCRATCH_MAX]`. -/
abbrev VfsScratch := Buffer vfsScratchMax

/-- The text in a buffer, and the position the next character goes to. -/
structure Rendered where
  stored : List UInt8
  pos : UInt32
deriving DecidableEq

def appendChar (cap : UInt32) (r : Rendered) (c : UInt8) : Rendered where
  stored := if r.pos + 1 < cap then r.stored ++ [c] else r.stored
  pos := r.pos + 1

def appendStr (cap : UInt32) (r : Rendered) (s : List UInt8) : Rendered :=
  s.foldl (appendChar cap) r

/-- The decimal digits `append_u64` collects, last first; `n` is the room left in `tmp`. -/
def decimalDigits : Nat → UInt64 → List UInt8
  | 0, _ => []
  | n + 1, value =>
    if value = 0 then []
    else (0x30 + (value % 10).toUInt8) :: decimalDigits n (value / 10)

def appendU64 (cap : UInt32) (r : Rendered) (value : UInt64) : Rendered :=
  if value = 0 then appendChar cap r 0x30
  else appendStr cap r (decimalDigits 32 value).reverse

/-- `append_u64_dec` of `kernel/netfs.c`. -/
def appendU64Dec (cap : UInt32) (r : Rendered) (value : UInt64) : Rendered := appendU64 cap r value

/-- `append_u64` of `kernel/builtin_exec.c`, which keeps the position behind a pointer. -/
def builtinAppendU64 (cap : UInt32) (r : Rendered) (value : UInt64) : Rendered :=
  appendU64 cap r value

/-- The bytes `[pos, pos + n)` of the buffer a text was rendered into: its terminator follows
    it, and the stack behind that is what it was. -/
def Rendered.slice (r : Rendered) (stack : Nat → UInt8) (pos n : Nat) : List UInt8 :=
  (List.range n).map fun i => (r.stored ++ [0]).getD (pos + i) (stack (pos + i))

/-- The digits a session id starts with, read into a `u32` that wraps. -/
def parseDigits (value : UInt32) : List UInt8 → UInt32
  | [] => value
  | c :: s =>
    if 0x30 ≤ c ∧ c ≤ 0x39 then parseDigits (value * 10 + (c - 0x30).toUInt32) s else value

def parseTraceSessionId (path : List UInt8) : Option UInt32 :=
  if path.take 15 ≠ cstr "/trace/session-" then none
  else
    let value := parseDigits 0 (path.drop 15)
    if value = 0 then none else some value

def traceMetaText (cap : UInt32) (info : TraceSessionInfo) : Rendered :=
  let r : Rendered := ⟨[], 0⟩
  let r := appendStr cap r (cstr "session=")
  let r := appendU64 cap r info.sessionId.toUInt64
  let r := appendStr cap r (cstr "\nbytes=")
  let r := appendU64 cap r info.sizeBytes.toUInt64
  let r := appendStr cap r (cstr "\nprofile=")
  let r := appendU64 cap r info.profileId.toUInt64
  let r := appendStr cap r (cstr "\nevents=")
  let r := appendU64 cap r info.eventCount.toUInt64
  let r := appendStr cap r (cstr "\nduration_ticks=")
  let r := appendU64 cap r info.durationTicks
  appendChar cap r 0x0a

/-- How much of `total` bytes a read of `bytes` from `pos` on hands over. -/
def readLength (bytes : UInt64) (total pos : UInt32) : UInt32 :=
  let remain := total - pos
  if bytes < remain.toUInt64 then bytes.toUInt32 else remain

/-- The bytes read (`none` for -1), the descriptor's new position, and the filesystem. -/
def readTraceFile (path : List UInt8) (pos : UInt32) (bytes : UInt64) (metadataOnly : Bool)
    (stack : Nat → UInt8) (fs : Fs) : Except Overrun (Option (List UInt8) × UInt32 × Fs) := do
  match parseTraceSessionId path with
  | none => .ok (none, pos, fs)
  | some sessionId =>
    match fsGetTraceSessionInfo sessionId fs with
    | none => .ok (none, pos, fs)
    | some info =>
      if metadataOnly then
        let text := traceMetaText (UInt32.ofNat vfsScratchMax) info
        if pos ≥ text.pos then .ok (some [], pos, fs)
        else
          let n := readLength bytes text.pos pos
          .ok (some (text.slice stack pos.toNat n.toNat), pos + n, fs)
      else if info.sizeBytes > UInt32.ofNat vfsScratchMax then .ok (none, pos, fs)
      else
        let (total, scratch, fs) ← fsReadTraceSession sessionId (⟨stack⟩ : VfsScratch) fs
        match total with
        | none => .ok (none, pos, fs)
        | some total =>
          if pos ≥ total then .ok (some [], pos, fs)
          else
            let n := readLength bytes total pos
            .ok (some (scratch.slice pos.toNat n.toNat), pos + n, fs)

end Kernel
end BumbelBee
