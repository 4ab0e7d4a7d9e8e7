import BumbelBee.Kernel.Ata
import BumbelBee.Lib.AtaDrive

/-!
# The ATA driver, port by port (`kernel/ata.c`)

`Kernel/Ata.lean` has what the rest of the kernel relies on. Here are the driver's own loops, over
a drive that is seen through its ports.

A drive is a parameter to these loops only in what it answers: every read of a port gives a value
and may move the drive on, a status read included, since that is how its patience is counted. The
port numbers and the bits are the source's, and each loop has the source's bound on its polls.
-/

namespace BumbelBee
namespace Kernel
namespace Pio

open Lib

def ataRegData : UInt16 := 0x1f0
def ataRegSeccount0 : UInt16 := 0x1f2
def ataRegLba0 : UInt16 := 0x1f3
def ataRegLba1 : UInt16 := 0x1f4
def ataRegLba2 : UInt16 := 0x1f5
def ataRegHddevsel : UInt16 := 0x1f6
def ataRegCommand : UInt16 := 0x1f7
def ataRegStatus : UInt16 := 0x1f7
def ataRegControl : UInt16 := 0x3f6

def ataSrBsy : UInt8 := 0x80
def ataSrDrdy : UInt8 := 0x40
def ataSrDrq : UInt8 := 0x08
def ataSrErr : UInt8 := 0x01

/-! ## The drive's ports; its control register is left as it is -/

def inb (port : UInt16) (d : Drive) : UInt8 × Drive :=
  if port = ataRegStatus then d.inStatus else (0xff, d)

def outb (port : UInt16) (value : UInt8) (d : Drive) : Drive :=
  if port = ataRegSeccount0 then d.outCount value
  else if port = ataRegLba0 then d.outLba0 value
  else if port = ataRegLba1 then d.outLba1 value
  else if port = ataRegLba2 then d.outLba2 value
  else if port = ataRegHddevsel then d.outSelect value
  else if port = ataRegCommand then d.outCommand value
  else d

def inw (port : UInt16) (d : Drive) : UInt16 × Drive :=
  if port = ataRegData then d.inData else (0xffff, d)

def outw (port value : UInt16) (d : Drive) : Drive :=
  if port = ataRegData then d.outData value else d

/-! ## The driver -/

/-- The driver's static, and the drive. -/
structure Host where
  /-- `ata_ready` -/
  ready : Bool
  drive : Drive

def ataIoDelay (d : Drive) : Drive := (Drive.readTimes (inb ataRegStatus) 4 d).2

/-- What `ata_wait_clear_bsy` makes of a status. -/
def clearOfBsy (status : UInt8) : Option Bool :=
  if status &&& ataSrBsy = 0 then some (decide (status &&& ataSrErr = 0)) else none

/-- `true` for 0. -/
def ataWaitClearBsy (d : Drive) : Bool × Drive :=
  match Drive.pollFor (inb ataRegStatus) clearOfBsy 1000000 d with
  | (some ok, d) => (ok, d)
  | (none, d) => (false, d)

/-- What `ata_wait_drq` makes of a status; the error is looked at first. -/
def readyForData (status : UInt8) : Option Bool :=
  if status &&& ataSrErr ≠ 0 then some false
  else if status &&& ataSrBsy = 0 ∧ status &&& ataSrDrq ≠ 0 then some true
  else none

def ataWaitDrq (d : Drive) : Bool × Drive :=
  match Drive.pollFor (inb ataRegStatus) readyForData 1000000 d with
  | (some ok, d) => (ok, d)
  | (none, d) => (false, d)

def ataSelectLba28 (lba : UInt32) (count command : UInt8) (d : Drive) : Bool × Drive :=
  if lba > 0x0fffffff ∨ count = 0 then (false, d)
  else match ataWaitClearBsy d with
  | (false, d) => (false, d)
  | (true, d) =>
    let d := outb ataRegControl 0x00 d
    let d := outb ataRegHddevsel ((0xe0 : UInt8) ||| ((lba >>> 24) &&& 0x0f).toUInt8) d
    let d := ataIoDelay d
    let d := outb ataRegSeccount0 count d
    let d := outb ataRegLba0 (lba &&& 0xff).toUInt8 d
    let d := outb ataRegLba1 ((lba >>> 8) &&& 0xff).toUInt8 d
    let d := outb ataRegLba2 ((lba >>> 16) &&& 0xff).toUInt8 d
    (true, outb ataRegCommand command d)

def ataInit (h : Host) : Host :=
  let d := ataIoDelay (outb ataRegHddevsel 0xe0 h.drive)
  match ataWaitClearBsy d with
  | (false, d) => ⟨false, d⟩
  | (true, d) =>
    let (status, d) := inb ataRegStatus d
    ⟨decide (status ≠ 0 ∧ status &&& ataSrDrdy ≠ 0), d⟩

/-- The loop of `ata_read28`: the result, the words that reached the buffer, the drive. -/
def readSectors : Nat → Drive → Bool × List UInt16 × Drive
  | 0, d => (true, [], d)
  | todo + 1, d =>
    match ataWaitDrq d with
    | (false, d) => (false, [], d)
    | (true, d) =>
      let (words, d) := Drive.readTimes (inw ataRegData) 256 d
      let (ok, rest, d) := readSectors todo (ataIoDelay d)
      (ok, words ++ rest, d)

def ataRead28 (lba : UInt32) (count : UInt8) (h : Host) : Bool × List UInt16 × Host :=
  if h.ready = false then (false, [], h)
  else match ataSelectLba28 lba count 0x20 h.drive with
  | (false, d) => (false, [], { h with drive := d })
  | (true, d) =>
    let (ok, words, d) := readSectors count.toNat d
    (ok, words, { h with drive := d })

/-- The loop of `ata_write28`, from a sector on. -/
def writeSectors (src : List UInt16) (sector : Nat) : Nat → Drive → Bool × Drive
  | 0, d => (true, d)
  | todo + 1, d =>
    match ataWaitDrq d with
    | (false, d) => (false, d)
    | (true, d) =>
      let d := (List.range 256).foldl
        (fun d i => outw ataRegData (src.getD (sector * 256 + i) 0) d) d
      writeSectors src (sector + 1) todo (ataIoDelay d)

/-- `src` is the buffer, as the words that are read from it. -/
def ataWrite28 (lba : UInt32) (count : UInt8) (src : List UInt16) (h : Host) : Bool × Host :=
  if h.ready = false then (false, h)
  else match ataSelectLba28 lba count 0x30 h.drive with
  | (false, d) => (false, { h with drive := d })
  | (true, d) =>
    match writeSectors src 0 count.toNat d with
    | (false, d) => (false, { h with drive := d })
    | (true, d) =>
      let (ok, d) := ataWaitClearBsy (outb ataRegCommand 0xe7 d)
      (ok, { h with drive := d })

end Pio
end Kernel
end BumbelBee
