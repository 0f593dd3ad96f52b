import W65C02.Interrupt.Lines
import W65C02.Word

/-!
# The DMA controller

Six registers describe a block transfer: the low and high byte of the source, those of the
destination, the length, and a control register that starts the transfer and is read as
status. The controller only asks for the transfer; the bus carries it out and reports its
completion.
-/

namespace W65C02

namespace Dma

/-- Control bit: start the transfer. -/
def start : UInt8 := 0x01

/-- Control bit: request an interrupt on completion. -/
def irqOnDone : UInt8 := 0x02

/-- Status bit: a transfer is wanted or under way. -/
def busyStatus : UInt8 := 0x80

/-- Status bit: a transfer has been completed. -/
def doneStatus : UInt8 := 0x01

end Dma

/-- A block of bytes to be copied. -/
structure BlockTransfer where
  /-- Where the first byte is read. -/
  source : UInt16
  /-- Where the first byte is written. -/
  destination : UInt16
  /-- How many bytes are copied. -/
  length : UInt16
  deriving DecidableEq

/-- The registers of a DMA controller. -/
structure DmaRegisters where
  /-- Where the first byte is read. -/
  source : UInt16 := 0
  /-- Where the first byte is written. -/
  destination : UInt16 := 0
  /-- How many bytes are copied; zero stands for 256. -/
  length : UInt8 := 0
  /-- Whether completion requests an interrupt. -/
  irqOnDone : Bool := false
  /-- Whether a transfer is wanted or under way. -/
  busy : Bool := false
  /-- Whether a transfer was completed since the last look at the status. -/
  done : Bool := false
  deriving DecidableEq

/-- A DMA controller that requests interrupts under a name. -/
structure DmaController extends DmaRegisters where
  /-- The name of the device and of its interrupt source. -/
  name : String
  deriving DecidableEq

namespace DmaController

/-- How many addresses the registers take. -/
def size : Nat := 6

/-- A controller at rest. -/
def create (name : String) : DmaController := { name }

/-- The number of bytes that the length register stands for. -/
def byteCount (d : DmaController) : UInt16 :=
  if d.length = 0 then 256 else d.length.toUInt16

/-- The transfer that the controller asks for. -/
def request (d : DmaController) : Option BlockTransfer :=
  if d.busy then some ⟨d.source, d.destination, d.byteCount⟩ else none

/-- The bus reports that the transfer is complete. -/
def complete (d : DmaController) (lines : Lines) : DmaController × Lines :=
  ({ d with busy := false, done := true },
    if d.irqOnDone then lines.request d.name .irq else lines)

/-- Drops any transfer and clears all registers. -/
def reset (d : DmaController) (lines : Lines) : DmaController × Lines :=
  (create d.name, lines.release d.name .irq)

/-- The status register. -/
def status (d : DmaController) : UInt8 :=
  (if d.busy then Dma.busyStatus else 0) ||| (if d.done then Dma.doneStatus else 0)

/-- Reads a register. Reading the status acknowledges a completion. -/
def read (d : DmaController) (lines : Lines) (offset : UInt16) :
    UInt8 × DmaController × Lines :=
  if offset = 0 then (lowByte d.source, d, lines)
  else if offset = 1 then (highByte d.source, d, lines)
  else if offset = 2 then (lowByte d.destination, d, lines)
  else if offset = 3 then (highByte d.destination, d, lines)
  else if offset = 4 then (d.length, d, lines)
  else if offset = 5 then (d.status, { d with done := false }, lines.release d.name .irq)
  else (0xFF, d, lines)

/-- Writes the control register. A start is ignored while a transfer is wanted. -/
def setControl (d : DmaController) (value : UInt8) : DmaController :=
  let d := { d with irqOnDone := value &&& Dma.irqOnDone != 0 }
  if value &&& Dma.start != 0 && !d.busy then { d with busy := true, done := false } else d

/-- Writes a register. -/
def write (d : DmaController) (offset : UInt16) (value : UInt8) : DmaController :=
  if offset = 0 then { d with source := setLowByte d.source value }
  else if offset = 1 then { d with source := setHighByte d.source value }
  else if offset = 2 then { d with destination := setLowByte d.destination value }
  else if offset = 3 then { d with destination := setHighByte d.destination value }
  else if offset = 4 then { d with length := value }
  else if offset = 5 then d.setControl value
  else d

end DmaController

end W65C02
