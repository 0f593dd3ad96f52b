import W65C02.Bus.Mapped

/-!
# Bus mastership and block transfers

The bus has one master at a time. A master other than the processor keeps the bus until it
releases it, and the processor stalls meanwhile. A device that asks for a block transfer
becomes master for its duration; each byte takes one cycle to read and one to write.
-/

namespace W65C02.MappedBus

/-- The name of the present master. -/
def master (bus : MappedBus) : String := bus.holder.getD cpuName

/-- Asks for the bus. It is granted when nobody else holds it; the processor's own request
leaves it free. -/
def request (bus : MappedBus) (requestor : String) : Bool × MappedBus :=
  match bus.holder with
  | some holder => (holder == requestor, bus)
  | none =>
    if requestor = cpuName then (true, bus)
    else (true, { bus with holder := some requestor })

/-- Gives the bus back; only its holder can. -/
def release (bus : MappedBus) (requestor : String) : MappedBus :=
  if bus.holder = some requestor then { bus with holder := none } else bus

/-- The first device in mapping order that asks for a transfer, with its place. -/
def firstRequest (place : Nat) : List Mapping → Option (Nat × String × BlockTransfer)
  | [] => none
  | m :: rest =>
    match m.device.transferRequest with
    | some block => some (place, m.device.name, block)
    | none => firstRequest (place + 1) rest

/-- Starts the transfer of the first device that asks for one, if no transfer is under way
and that device is granted the bus. -/
def startTransfer (bus : MappedBus) : MappedBus :=
  match bus.transfer with
  | some _ => bus
  | none =>
    match firstRequest 0 bus.mappings with
    | none => bus
    | some (place, name, block) =>
      match bus.request name with
      | (true, bus) =>
        { bus with transfer := some ⟨UInt64.ofNat place, block, 0, none⟩ }
      | (false, bus) => bus

/-- Reports the end of a transfer to the device at a place. -/
def completeAt : Nat → List Mapping → Lines → List Mapping × Lines
  | _, [], lines => ([], lines)
  | 0, m :: rest, lines =>
    let (m, lines) := m.completeTransfer lines
    (m :: rest, lines)
  | place + 1, m :: rest, lines =>
    let (rest, lines) := completeAt place rest lines
    (m :: rest, lines)

/-- The name of the device at a place. -/
def nameAt? (bus : MappedBus) (place : Nat) : Option String :=
  bus.mappings[place]?.map (·.device.name)

/-- Ends a transfer: its device learns that it is complete and gives the bus back. -/
def finishTransfer (owner : Nat) : Port MappedBus → Port MappedBus
  | ⟨⟨mappings, holder, _⟩, lines⟩ =>
    let (mappings, lines) := completeAt owner mappings lines
    let bus : MappedBus := ⟨mappings, holder, none⟩
    match bus.nameAt? owner with
    | some name => ⟨bus.release name, lines⟩
    | none => ⟨bus, lines⟩

/-- Replaces the progress of the transfer under way. -/
def setTransfer (port : Port MappedBus) (transfer : TransferProgress) : Port MappedBus :=
  match port with
  | ⟨⟨mappings, holder, _⟩, lines⟩ => ⟨⟨mappings, holder, some transfer⟩, lines⟩

/-- One cycle of a transfer: a byte is read, or the byte that was read is written. The cycle
that writes the last byte ends the transfer. -/
def transferCycle (transfer : TransferProgress) (port : Port MappedBus) : Port MappedBus :=
  if transfer.index < transfer.block.length then
    match transfer.latch with
    | none =>
      let (value, port) := port.read (transfer.block.source + transfer.index)
      setTransfer port { transfer with latch := some value }
    | some value =>
      let port := port.write (transfer.block.destination + transfer.index) value
      let transfer := { transfer with index := transfer.index + 1, latch := none }
      if transfer.index < transfer.block.length then setTransfer port transfer
      else finishTransfer transfer.owner.toNat port
  else finishTransfer transfer.owner.toNat port

/-- Runs the transfer under way for a number of cycles or to its end. -/
def runTransfer (port : Port MappedBus) : Nat → Port MappedBus
  | 0 => port
  | cycles + 1 =>
    match port.bus.transfer with
    | none => port
    | some transfer => runTransfer (transferCycle transfer port) cycles

/-- Lets machine clocks pass for each device in turn. -/
def tickAll (cycles : Nat) : List Mapping → Lines → List Mapping × Lines
  | [], lines => ([], lines)
  | m :: rest, lines =>
    let (m, lines) := m.tick lines cycles
    let (rest, lines) := tickAll cycles rest lines
    (m :: rest, lines)

/-- Resets each device in turn. -/
def resetAll : List Mapping → Lines → List Mapping × Lines
  | [], lines => ([], lines)
  | m :: rest, lines =>
    let (m, lines) := m.reset lines
    let (rest, lines) := resetAll rest lines
    (m :: rest, lines)

/-- Lets machine clocks pass: first for the transfer under way, then for the devices; last,
a new transfer may start. -/
def tick (port : Port MappedBus) (cycles : Nat) : Port MappedBus :=
  match runTransfer port cycles with
  | ⟨⟨mappings, holder, transfer⟩, lines⟩ =>
    let (mappings, lines) := tickAll cycles mappings lines
    ⟨(MappedBus.mk mappings holder transfer).startTransfer, lines⟩

/-- Resets all devices, drops the transfer under way and frees the bus. -/
def reset : Port MappedBus → Port MappedBus
  | ⟨⟨mappings, _, _⟩, lines⟩ =>
    let (mappings, lines) := resetAll mappings lines
    ⟨⟨mappings, none, none⟩, lines⟩

end W65C02.MappedBus
