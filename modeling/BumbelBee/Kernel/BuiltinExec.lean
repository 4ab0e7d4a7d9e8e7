import BumbelBee.Kernel.Fs

/-!
# Executables read from disk (`kernel/builtin_exec.c`)

Both `builtin_exec_render_path` and `builtin_exec_run_sync` fetch the file they are about
into a 256-byte image on the stack; this is that part of them.

`ImageMem` is that image with the stack around it. The callers go on to read it at offsets the file
itself names, so what a read behind the image's end gives is part of what they do.
-/

namespace BumbelBee
namespace Kernel

open Lib

/-- `u8 image[256]`. -/
abbrev ImageBuffer := Buffer 256

/-- The paths of `programs`. -/
def programPaths : List (List UInt8) :=
  [cstr "/bin/ping", cstr "/bin/ring3demo", cstr "/bin/ps", cstr "/bin/netstat"]

/-- `fs_read_exec_file(path, image, &image_bytes)`: the image, if the file could be read. -/
def readImage (path : List UInt8) (stack : Nat → UInt8) (fs : Fs) :
    Except Overrun (Option (List UInt8) × Fs) := do
  let (bytes, image, fs) ← fsReadExecFile path (⟨stack⟩ : ImageBuffer) fs
  .ok (bytes.map fun n => image.contents n.toNat, fs)

/-- The image `builtin_exec_render_path` describes; the built-in one stands in for `none`. -/
def renderPathImage (path : List UInt8) (stack : Nat → UInt8) (fs : Fs) :
    Except Overrun (Option (List UInt8) × Fs) :=
  if path = cstr "/bin" ∨ path = cstr "/bin/" ∨ path = cstr "/bin/index" then .ok (none, fs)
  else if path ∈ programPaths then readImage path stack fs
  else .ok (none, fs)

/-- The image `builtin_exec_run_sync` loads; `none` makes it answer -1. -/
def runSyncImage (path : List UInt8) (stack : Nat → UInt8) (fs : Fs) :
    Except Overrun (Option (List UInt8) × Fs) :=
  if path ≠ cstr "/bin/ring3demo" then .ok (none, fs) else readImage path stack fs

end Kernel
end BumbelBee
