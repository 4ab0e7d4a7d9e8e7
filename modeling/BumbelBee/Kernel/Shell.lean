import BumbelBee.Kernel.Vfs

/-!
# Numbers typed at the shell (`kernel/shell.c`)
-/

namespace BumbelBee
namespace Kernel

/-- `parse_u32` of the shell: as far as the digits go, in a `u32` that wraps. -/
def shellParseU32 (s : List UInt8) : UInt32 := parseDigits 0 s

end Kernel
end BumbelBee
