import W65C02.Bus.Memory
import W65C02.Cpu.Snapshot
import W65C02.Device.DmaController
import W65C02.Device.IntervalTimer
import W65C02.Device.MemoryBytes

/-!
# Devices

What can be placed on the address map: memory, an interval timer, a DMA controller, or
another processor with a memory of its own. All are accessed by offsets into their range;
the timer and the DMA controller may move the interrupt lines of the map they are on, while
a processor has lines of its own.
-/

namespace W65C02

/-- A device. -/
inductive Device where
  /-- Memory that can be written. -/
  | ram (bytes : Array UInt8)
  /-- Memory that ignores writes. -/
  | rom (bytes : Array UInt8)
  /-- An interval timer. -/
  | timer (timer : IntervalTimer)
  /-- A DMA controller. -/
  | dma (controller : DmaController)
  /-- A processor over a memory of its own. -/
  | cpu (cpu : Cpu Memory)

/-- The state of a device. -/
inductive DeviceSnapshot where
  /-- The contents of a memory. -/
  | memory (bytes : Array UInt8)
  /-- The registers of a timer. -/
  | timer (state : TimerRegisters)
  /-- The registers of a DMA controller. -/
  | dma (state : DmaRegisters)
  /-- The state of a processor. -/
  | cpu (state : CpuSnapshot)
  deriving DecidableEq

/-- Which kind of device a state belongs to. -/
def DeviceSnapshot.kind : DeviceSnapshot → String
  | .memory _ => "memory"
  | .timer _ => "timer"
  | .dma _ => "dma"
  | .cpu _ => "cpu"

/-- The name under which the processor competes for the bus. -/
def cpuName : String := "cpu"

namespace Device

/-- The name of a device. A timer and a DMA controller have names of their own. -/
def name : Device → String
  | ram _ => "ram"
  | rom _ => "rom"
  | timer t => t.name
  | dma d => d.name
  | cpu _ => "cpu"

/-- How many bytes a device offers. -/
def capacity : Device → Nat
  | ram bytes | rom bytes => bytes.size
  | timer _ => IntervalTimer.size
  | dma _ => DmaController.size
  | cpu _ => addressSpace

/-- The size that a device tells: the number of its bytes, kept in thirty-two bits. -/
def size (device : Device) : UInt32 := UInt32.ofNat device.capacity

/-- Returns a device to its initial state; memory keeps its contents. -/
def reset (lines : Lines) : Device → Device × Lines
  | ram bytes => (ram bytes, lines)
  | rom bytes => (rom bytes, lines)
  | timer t =>
    let (t, lines) := t.reset lines
    (timer t, lines)
  | dma d =>
    let (d, lines) := d.reset lines
    (dma d, lines)
  | cpu c => (cpu c.reset, lines)

/-- Gives a device a number of clocks. -/
def tick (lines : Lines) (clocks : Nat) : Device → Device × Lines
  | ram bytes => (ram bytes, lines)
  | rom bytes => (rom bytes, lines)
  | timer t =>
    let (t, lines) := t.tick lines clocks
    (timer t, lines)
  | dma d => (dma d, lines)
  | cpu c => (cpu (c.tick clocks), lines)

/-- Reads the byte at an offset. -/
def read (lines : Lines) (offset : UInt16) : Device → UInt8 × Device × Lines
  | ram bytes => (MemoryBytes.read bytes offset, ram bytes, lines)
  | rom bytes => (MemoryBytes.read bytes offset, rom bytes, lines)
  | timer t =>
    let (value, t, lines) := t.read lines offset
    (value, timer t, lines)
  | dma d =>
    let (value, d, lines) := d.read lines offset
    (value, dma d, lines)
  | cpu c =>
    let (value, c) := c.withPort (·.read offset)
    (value, cpu c, lines)

/-- Writes a byte at an offset. -/
def write (lines : Lines) (offset : UInt16) (value : UInt8) : Device → Device × Lines
  | ram bytes => (ram (MemoryBytes.write bytes offset value), lines)
  | rom bytes => (rom bytes, lines)
  | timer t =>
    let (t, lines) := t.write lines offset value
    (timer t, lines)
  | dma d => (dma (d.write offset value), lines)
  | cpu c => (cpu (c.mapPort (·.write offset value)), lines)

/-- The present state of a device. -/
def snapshot : Device → DeviceSnapshot
  | ram bytes | rom bytes => .memory bytes
  | timer t => .timer t.toTimerRegisters
  | dma d => .dma d.toDmaRegisters
  | cpu c => .cpu c.snapshot

/-- Checks whether a device could be in a state. -/
def validate (device : Device) (state : DeviceSnapshot) : Except SnapshotError Unit :=
  match device, state with
  | ram bytes, .memory saved | rom bytes, .memory saved =>
    if saved.size = bytes.size then .ok () else .error (.sizeMismatch bytes.size saved.size)
  | timer _, .timer saved =>
    SnapshotError.unless (saved.control &&& ~~~Timer.controlBits == 0) .timerControlBits
  | dma _, .dma saved => SnapshotError.unless (!(saved.busy && saved.done)) .busyAndDone
  | cpu c, .cpu saved => saved.validate c.settings
  | _, _ => .error (.deviceMismatch device.snapshot.kind state.kind)

/-- Gives a device a state of its own kind. Interrupt requests are left as they are. -/
def apply (device : Device) (state : DeviceSnapshot) : Device :=
  match device, state with
  | ram _, .memory saved => ram saved
  | rom _, .memory saved => rom saved
  | timer t, .timer saved => timer { t with toTimerRegisters := saved }
  | dma d, .dma saved => dma { d with toDmaRegisters := saved }
  | cpu c, .cpu saved => cpu (c.apply saved)
  | _, _ => device

/-- Gives a device a state, unless it could not be in it. -/
def restore (device : Device) (state : DeviceSnapshot) : Except SnapshotError Device :=
  match device.validate state with
  | .ok () => .ok (device.apply state)
  | .error e => .error e

/-- The transfer that a device asks the bus to carry out. -/
def transferRequest : Device → Option BlockTransfer
  | dma d => d.request
  | _ => none

/-- Reports to a device that its transfer is complete. -/
def completeTransfer (lines : Lines) : Device → Device × Lines
  | dma d =>
    let (d, lines) := d.complete lines
    (dma d, lines)
  | device => (device, lines)

end Device

end W65C02
