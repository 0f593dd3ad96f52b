import W65C02.Bus.Mapped.Arbitration

/-!
# Snapshots of the address map

The devices are recorded in mapping order, each with its name and range, beside the state of
the arbitration. A snapshot is taken over only by a map with the same devices in the same
places, and only as a whole.
-/

namespace W65C02

/-- The state of a device, with its name and place. -/
structure MappingSnapshot where
  /-- The name of the device. -/
  name : String
  /-- The first address. -/
  start : UInt16
  /-- The last address. -/
  finish : UInt16
  /-- The state. -/
  device : DeviceSnapshot
  deriving DecidableEq

/-- Who has the bus, and which transfer is under way. -/
structure Arbitration where
  /-- The master of the bus, if it is not the processor. -/
  holder : Option String := none
  /-- The transfer under way. -/
  transfer : Option TransferProgress := none
  deriving DecidableEq

/-- A device's name and range, as messages give them. -/
def placeLabel (name : String) (start finish : UInt16) : String :=
  name ++ " at " ++ Hexadecimal.addressRange start finish

namespace Mapping

/-- The state of the device, with its name and place. -/
def snapshot (m : Mapping) : MappingSnapshot :=
  ⟨m.device.name, m.start, m.finish, m.device.snapshot⟩

/-- Checks whether a recorded device is this one and could be in its recorded state. -/
def validate (m : Mapping) (saved : MappingSnapshot) : Except SnapshotError Unit :=
  if m.device.name = saved.name ∧ m.start = saved.start ∧ m.finish = saved.finish then
    m.device.validate saved.device
  else
    .error (.deviceMismatch (placeLabel m.device.name m.start m.finish)
      (placeLabel saved.name saved.start saved.finish))

/-- Gives the device a recorded state, unless it could not be in it; its clock starts anew. -/
def restore (m : Mapping) (saved : MappingSnapshot) : Except SnapshotError Mapping :=
  match m.device.restore saved.device with
  | .ok device => .ok { m with device, residue := 0 }
  | .error e => .error e

end Mapping

namespace MappedBus

/-- The states of all devices in mapping order. -/
def deviceSnapshots (bus : MappedBus) : List MappingSnapshot := bus.mappings.map (·.snapshot)

/-- The state of the arbitration. -/
def arbitration (bus : MappedBus) : Arbitration := ⟨bus.holder, bus.transfer⟩

/-- Checks recorded devices one after another. -/
def validateAll : List Mapping → List MappingSnapshot → Except SnapshotError Unit
  | m :: mappings, saved :: states =>
    match m.validate saved with
    | .ok () => validateAll mappings states
    | .error e => .error e
  | _, _ => .ok ()

/-- Checks the recorded transfer: its owner is mapped, and it is not past its end. -/
def validateTransfer (count : Nat) : Option TransferProgress → Except SnapshotError Unit
  | none => .ok ()
  | some transfer => do
    SnapshotError.unless (decide (transfer.owner.toNat < count)) .transferOwner
    SnapshotError.unless (decide (transfer.index ≤ transfer.block.length)) .transferIndex

/-- Checks a snapshot: the number of devices, then each device, then the transfer. -/
def validate (bus : MappedBus) (states : List MappingSnapshot) (state : Arbitration) :
    Except SnapshotError Unit := do
  if states.length ≠ bus.mappings.length then
    throw (.deviceCount bus.mappings.length states.length)
  validateAll bus.mappings states
  validateTransfer bus.mappings.length state.transfer

/-- Gives devices their recorded states one after another. A device that refuses its state ends
this; those before it keep their new states. -/
def writeAll : List Mapping → List MappingSnapshot → Except SnapshotError Unit × List Mapping
  | m :: mappings, saved :: states =>
    match m.restore saved with
    | .ok m =>
      let (outcome, mappings) := writeAll mappings states
      (outcome, m :: mappings)
    | .error e => (.error e, m :: mappings)
  | mappings, _ => (.ok (), mappings)

/-- Checks a snapshot, then writes the devices and last the arbitration. Tells how that went, and
what has become of the map in either case. -/
def takeOver (bus : MappedBus) (states : List MappingSnapshot) (state : Arbitration) :
    Except SnapshotError Unit × MappedBus :=
  match bus.validate states state with
  | .error e => (.error e, bus)
  | .ok () =>
    match writeAll bus.mappings states with
    | (.error e, mappings) => (.error e, { bus with mappings })
    | (.ok (), mappings) => (.ok (), ⟨mappings, state.holder, state.transfer⟩)

/-- Takes over a snapshot, unless it does not fit. -/
def restore (bus : MappedBus) (states : List MappingSnapshot) (state : Arbitration) :
    Except SnapshotError MappedBus :=
  match bus.takeOver states state with
  | (.ok (), bus) => .ok bus
  | (.error e, _) => .error e

end MappedBus

end W65C02
