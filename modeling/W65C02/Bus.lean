import W65C02.Interrupt.Lines
import W65C02.Registers

/-!
# Buses

A bus answers reads and takes writes at sixteen-bit addresses. Either may change what is
attached to it, and devices may move the interrupt lines while they are accessed, so every
access goes through a port: the bus together with the request lines.
-/

namespace W65C02

/-- Everything that the processor reaches through its pins. -/
structure Port (β : Type) where
  /-- The bus. -/
  bus : β
  /-- The interrupt request lines. -/
  lines : Lines

/-- The operations of a bus. -/
class Bus (β : Type) where
  /-- Reads the byte at an address. -/
  read : UInt16 → Port β → UInt8 × Port β
  /-- Writes a byte to an address. -/
  write : UInt16 → UInt8 → Port β → Port β
  /-- Whether the processor is the master of the bus. -/
  cpuHasBus : β → Bool

namespace Port

variable {β : Type} [Bus β]

/-- Reads the byte at an address. -/
def read (port : Port β) (address : UInt16) : UInt8 × Port β := Bus.read address port

/-- Writes a byte to an address. -/
def write (port : Port β) (address : UInt16) (value : UInt8) : Port β :=
  Bus.write address value port

/-- Reads a word whose low byte is at the first address and whose high byte is at the
second; the low byte is read first. -/
def readPair (port : Port β) (low high : UInt16) : UInt16 × Port β :=
  let (lo, port) := port.read low
  let (hi, port) := port.read high
  (wordOfBytes lo hi, port)

/-- Reads a word from two consecutive addresses; the address after `$FFFF` is `$0000`. -/
def readPointer (port : Port β) (address : UInt16) : UInt16 × Port β :=
  port.readPair address (address + 1)

/-- Reads a word from page zero; the address after `$FF` is `$00`. -/
def readZeroPagePointer (port : Port β) (address : UInt8) : UInt16 × Port β :=
  port.readPair address.toUInt16 (address + 1).toUInt16

/-- Writes bytes to consecutive addresses, wrapping at the end of the address space. -/
def writeAll (port : Port β) (address : UInt16) : List UInt8 → Port β
  | [] => port
  | value :: rest => (port.write address value).writeAll (address + 1) rest

/-- Reads a number of bytes from consecutive addresses, wrapping at the end of the address
space. -/
def readAll (port : Port β) (address : UInt16) : Nat → List UInt8 × Port β
  | 0 => ([], port)
  | count + 1 =>
    let (value, port) := port.read address
    let (rest, port) := port.readAll (address + 1) count
    (value :: rest, port)

end Port

end W65C02
