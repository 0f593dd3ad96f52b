import W65C02.Device

/-!
# The address map

Devices are placed on disjoint ranges of addresses; an access goes to the device whose range
holds the address, and nowhere if there is none. The map also keeps who is master of the bus
and which block transfer is under way.
-/

namespace W65C02

/-- A device in its place. -/
structure Mapping where
  /-- The first address. -/
  start : UInt16
  /-- The last address. -/
  finish : UInt16
  /-- The device. -/
  device : Device
  /-- How many machine clocks make one clock of the device. -/
  divider : UInt32 := 1
  /-- The machine clocks since the device's last clock. -/
  residue : UInt32 := 0

namespace Mapping

/-- Whether an address lies in the range of the device. -/
def contains (m : Mapping) (address : UInt16) : Bool :=
  decide (m.start ≤ address ∧ address ≤ m.finish)

/-- Whether the range of the device meets another range. -/
def meets (m : Mapping) (start finish : UInt16) : Bool :=
  decide (start ≤ m.finish ∧ m.start ≤ finish)

/-- Reads from the device; the address must lie in its range. -/
def read (m : Mapping) (lines : Lines) (address : UInt16) : UInt8 × Mapping × Lines :=
  match m with
  | ⟨start, finish, device, divider, residue⟩ =>
    let (value, device, lines) := device.read lines (address - start)
    (value, ⟨start, finish, device, divider, residue⟩, lines)

/-- Writes to the device; the address must lie in its range. -/
def write (m : Mapping) (lines : Lines) (address : UInt16) (value : UInt8) : Mapping × Lines :=
  match m with
  | ⟨start, finish, device, divider, residue⟩ =>
    let (device, lines) := device.write lines (address - start) value
    (⟨start, finish, device, divider, residue⟩, lines)

/-- The machine clocks that have come together, a count of thirty-two bits. -/
def total (m : Mapping) (cycles : Nat) : UInt32 := m.residue + UInt32.ofNat cycles

/-- How many clocks the device gets when machine clocks pass: one whenever as many as its divider
have come together. -/
def clocks (m : Mapping) (cycles : Nat) : UInt32 := m.total cycles / m.divider

/-- Lets machine clocks pass. If there are clocks for the device, it gets all of them at once. -/
def tick (m : Mapping) (lines : Lines) (cycles : Nat) : Mapping × Lines :=
  let clocks := m.clocks cycles
  let rest := m.total cycles % m.divider
  match m with
  | ⟨start, finish, device, divider, _⟩ =>
    let (device, lines) :=
      if clocks = 0 then (device, lines) else device.tick lines clocks.toNat
    (⟨start, finish, device, divider, rest⟩, lines)

/-- Returns the device to its initial state and starts its clock anew. -/
def reset (m : Mapping) (lines : Lines) : Mapping × Lines :=
  match m with
  | ⟨start, finish, device, divider, _⟩ =>
    let (device, lines) := device.reset lines
    (⟨start, finish, device, divider, 0⟩, lines)

/-- Reports to the device that its transfer is complete. -/
def completeTransfer (m : Mapping) (lines : Lines) : Mapping × Lines :=
  match m with
  | ⟨start, finish, device, divider, residue⟩ =>
    let (device, lines) := device.completeTransfer lines
    (⟨start, finish, device, divider, residue⟩, lines)

end Mapping

/-- A block transfer under way. -/
structure TransferProgress where
  /-- The place of the device that asked for it, counted from zero in mapping order. -/
  owner : UInt64
  /-- What is copied. -/
  block : BlockTransfer
  /-- How many bytes have been written. -/
  index : UInt16
  /-- A byte that was read and is yet to be written. -/
  latch : Option UInt8
  deriving DecidableEq

/-- A bus with an address map and several possible masters. -/
structure MappedBus where
  /-- The devices in the order in which they were mapped. -/
  mappings : List Mapping := []
  /-- The master of the bus, if it is not the processor. -/
  holder : Option String := none
  /-- The block transfer under way. -/
  transfer : Option TransferProgress := none

namespace MappedBus

/-- What is read where no device is mapped. -/
def unmapped : UInt8 := 0xFF

/-- Why a range is refused to a device that tells a size: the range must be in order and no
longer than the device, and it must not meet a range that is taken. -/
def refusal? (bus : MappedBus) (start finish : UInt16) (size : UInt32) : Option MappingError :=
  if finish < start ∨ size.toNat < finish.toNat - start.toNat + 1 then
    some (.invalidRange start finish size.toNat)
  else
    (bus.mappings.find? (·.meets start finish)).map fun other =>
      .overlap start finish other.start other.finish

/-- Places a device on a range, unless it is refused. A divider of zero counts as one. -/
def add (bus : MappedBus) (start finish : UInt16) (device : Device) (divider : UInt32) :
    Except MappingError MappedBus :=
  match bus.refusal? start finish device.size with
  | some e => .error e
  | none =>
    .ok { bus with
      mappings := bus.mappings ++ [{ start, finish, device, divider := max divider 1 }] }

/-- The first device with a name. -/
def device? (bus : MappedBus) (name : String) : Option Device :=
  (bus.mappings.find? (fun m => m.device.name == name)).map (·.device)

/-- Reads from the first mapping that holds an address. -/
def readFrom (address : UInt16) : List Mapping → Lines → UInt8 × List Mapping × Lines
  | [], lines => (unmapped, [], lines)
  | m :: rest, lines =>
    if m.contains address then
      let (value, m, lines) := m.read lines address
      (value, m :: rest, lines)
    else
      let (value, rest, lines) := readFrom address rest lines
      (value, m :: rest, lines)

/-- Writes to the first mapping that holds an address. -/
def writeTo (address : UInt16) (value : UInt8) : List Mapping → Lines → List Mapping × Lines
  | [], lines => ([], lines)
  | m :: rest, lines =>
    if m.contains address then
      let (m, lines) := m.write lines address value
      (m :: rest, lines)
    else
      let (rest, lines) := writeTo address value rest lines
      (m :: rest, lines)

/-- Reads the byte at an address. -/
def read (address : UInt16) : Port MappedBus → UInt8 × Port MappedBus
  | ⟨⟨mappings, holder, transfer⟩, lines⟩ =>
    let (value, mappings, lines) := readFrom address mappings lines
    (value, ⟨⟨mappings, holder, transfer⟩, lines⟩)

/-- Writes a byte to an address. -/
def write (address : UInt16) (value : UInt8) : Port MappedBus → Port MappedBus
  | ⟨⟨mappings, holder, transfer⟩, lines⟩ =>
    let (mappings, lines) := writeTo address value mappings lines
    ⟨⟨mappings, holder, transfer⟩, lines⟩

end MappedBus

/-- The processor has the bus as long as nobody else holds it. -/
instance : Bus MappedBus where
  read := MappedBus.read
  write := MappedBus.write
  cpuHasBus bus := bus.holder.isNone

end W65C02
