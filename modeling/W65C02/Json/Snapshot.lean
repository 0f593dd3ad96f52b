import W65C02.Json
import W65C02.Machine

/-!
# Snapshots and settings as JSON

For each type that is exchanged there is a function to JSON and one back. Structures are
objects with a field for each part; the states of devices carry a field that tells their kind.
Fields that older snapshots lack have defaults, and unknown fields are passed over. What is read
may also give a structure as an array of its parts, the kind of a device first.
-/

namespace W65C02

open Json

/-! ### The processor -/

/-- The registers as JSON. -/
def Registers.toJson (r : Registers) : Json :=
  object [("a", ofNat r.a.toNat), ("x", ofNat r.x.toNat), ("y", ofNat r.y.toNat),
    ("pc", ofNat r.pc.toNat), ("s", ofNat r.s.toNat), ("p", ofNat r.p.toNat)]

/-- Registers from JSON; every one must be given. -/
def Registers.ofJson? (j : Json) : Option Registers := do
  let fields ← j.record? ["a", "x", "y", "pc", "s", "p"] []
  let a ← required? fields "a" byte?
  let x ← required? fields "x" byte?
  let y ← required? fields "y" byte?
  let pc ← required? fields "pc" word?
  let s ← required? fields "s" byte?
  let p ← required? fields "p" byte?
  some { a, x, y, pc, s, p }

/-- What a label may stand beside when it is the name of an object's only field. -/
inductive LabelStyle where
  /-- Only null. -/
  | strict
  /-- Null, or an object without fields. -/
  | lax
  deriving DecidableEq

/-- The label in a value: a string, or the name of an object's only field. -/
def Json.label? (style : LabelStyle) : Json → Option String
  | .string text => some text
  | .object [(text, .null)] => some text
  | .object [(text, .object [])] => if style = .lax then some text else none
  | _ => none

/-- The value with a given label, among those that are listed. -/
def ofLabel? {α : Type} (label : α → String) (values : List α) (style : LabelStyle) (j : Json) :
    Option α :=
  (j.label? style).bind fun text => values.find? (fun value => label value == text)

/-- An addressing mode from JSON. -/
def AddressingMode.ofJson? : LabelStyle → Json → Option AddressingMode :=
  ofLabel? AddressingMode.label AddressingMode.all

/-- A run state from JSON. -/
def RunMode.ofJson? : LabelStyle → Json → Option RunMode :=
  ofLabel? RunMode.label [.running, .waiting, .stopped]

/-- An interrupt line from JSON. -/
def Line.ofJson? : LabelStyle → Json → Option Line :=
  ofLabel? Line.label [.reset, .nmi, .irq]

/-- How a phase is written. -/
def Phase.label : Phase → String
  | .fetch => "Fetch"
  | .decode => "Decode"
  | .resolveAddress => "ResolveAddress"
  | .operate => "Operate"
  | .updateFlags => "UpdateFlags"
  | .retire => "Retire"

/-- A phase from JSON. -/
def Phase.ofJson? : LabelStyle → Json → Option Phase :=
  ofLabel? Phase.label [.fetch, .decode, .resolveAddress, .operate, .updateFlags, .retire]

/-- An interrupt vector as JSON. -/
def InterruptVector.toJson (v : InterruptVector) : Json :=
  object [("address", ofNat v.address.toNat), ("line", string v.line.label)]

/-- An interrupt vector from JSON. -/
def InterruptVector.ofJson? (style : LabelStyle) (j : Json) : Option InterruptVector := do
  let fields ← j.record? ["address", "line"] []
  let address ← required? fields "address" word?
  let line ← required? fields "line" (Line.ofJson? style)
  some { address, line }

/-- What is in flight, as JSON: a bare word, or an object with a single field. -/
def Activity.toJson : Activity → Json
  | .instruction => string "Instruction"
  | .interrupt vector => object [("Interrupt", vector.toJson)]

/-- What is in flight, from JSON. -/
def Activity.ofJson? (style : LabelStyle) : Json → Option Activity
  | .object [("Interrupt", vector)] => (InterruptVector.ofJson? style vector).map .interrupt
  | j => if j.label? style = some "Instruction" then some .instruction else none

/-- Operand bytes as JSON. -/
def Operand.toJson (operand : Operand) : Json :=
  array [ofNat operand.first.toNat, ofNat operand.second.toNat]

/-- Operand bytes from JSON; there are always two. -/
def Operand.ofJson? : Json → Option Operand
  | .array [low, high] => do
    let low ← byte? low
    let high ← byte? high
    some #v[low, high]
  | _ => none

/-- What is under way as JSON. -/
def InFlight.toJson (flight : InFlight) : Json :=
  object [("kind", flight.activity.toJson), ("opcode", ofNat flight.opcode.toNat),
    ("phase", string flight.phase.label), ("operand", Operand.toJson flight.operand),
    ("fetched", ofNat flight.fetched.toNat),
    ("effective_address", ofNat flight.effectiveAddress.toNat),
    ("page_crossed", bool flight.pageCrossed), ("elapsed", ofNat flight.elapsed.toNat),
    ("total", ofNat flight.total.toNat), ("extra_cycles", ofNat flight.extraCycles.toNat),
    ("nz_result", ofOption (fun value => ofNat value.toNat) flight.nzResult)]

/-- What is under way, from JSON; only the pending result may be missing from an object. -/
def InFlight.ofJson? (style : LabelStyle) (j : Json) : Option InFlight := do
  let fields ← j.record?
    ["kind", "opcode", "phase", "operand", "fetched", "effective_address", "page_crossed",
      "elapsed", "total", "extra_cycles", "nz_result"] []
  let activity ← required? fields "kind" (Activity.ofJson? style)
  let opcode ← required? fields "opcode" byte?
  let phase ← required? fields "phase" (Phase.ofJson? style)
  let operand ← required? fields "operand" Operand.ofJson?
  let fetched ← required? fields "fetched" byte?
  let effectiveAddress ← required? fields "effective_address" word?
  let pageCrossed ← required? fields "page_crossed" bool?
  let elapsed ← required? fields "elapsed" byte?
  let total ← required? fields "total" byte?
  let extraCycles ← required? fields "extra_cycles" byte?
  let nzResult ← optional? fields "nz_result" byte?
  some { activity, opcode, phase, operand, fetched, effectiveAddress, pageCrossed, elapsed, total,
         extraCycles, nzResult }

/-- Interrupt lines as JSON. -/
def LinesSnapshot.toJson (p : LinesSnapshot) : Json :=
  object [("reset", bool p.reset), ("nmi", bool p.nmi), ("nmi_line", bool p.nmiLine),
    ("irq_sources", array (p.irqSources.map string))]

/-- Interrupt lines from JSON; all four must be given. -/
def LinesSnapshot.ofJson? (j : Json) : Option LinesSnapshot := do
  let fields ← j.record? ["reset", "nmi", "nmi_line", "irq_sources"] []
  let reset ← required? fields "reset" bool?
  let nmi ← required? fields "nmi" bool?
  let nmiLine ← required? fields "nmi_line" bool?
  let irqSources ← required? fields "irq_sources" (list? string?)
  some { reset, nmi, nmiLine, irqSources }

/-- The fields of a processor's state. -/
def CpuSnapshot.toFields (s : CpuSnapshot) : List (String × Json) :=
  [("registers", s.registers.toJson), ("run_state", string s.runMode.label),
    ("cycles", ofNat s.counters.cycles.toNat),
    ("instructions", ofNat s.counters.instructions.toNat),
    ("interrupts_serviced", ofNat s.counters.interruptsServiced.toNat),
    ("stall_cycles", ofNat s.counters.stallCycles.toNat), ("pending", s.pending.toJson),
    ("context", ofOption InFlight.toJson s.inFlight)]

/-- A processor's state as JSON. -/
def CpuSnapshot.toJson (s : CpuSnapshot) : Json := object s.toFields

/-- A processor's state from JSON. In an object, two of the counters and the lines have defaults;
an array has them all, since what is in flight comes last. -/
def CpuSnapshot.ofJson? (style : LabelStyle) (j : Json) : Option CpuSnapshot := do
  let fields ← j.record?
    ["registers", "run_state", "cycles", "instructions", "interrupts_serviced", "stall_cycles",
      "pending", "context"] []
  let registers ← required? fields "registers" Registers.ofJson?
  let runMode ← required? fields "run_state" (RunMode.ofJson? style)
  let cycles ← required? fields "cycles" uint64?
  let instructions ← required? fields "instructions" uint64?
  let interruptsServiced ← defaulted? fields "interrupts_serviced" 0 uint64?
  let stallCycles ← defaulted? fields "stall_cycles" 0 uint64?
  let pending ← defaulted? fields "pending" {} LinesSnapshot.ofJson?
  let inFlight ← optional? fields "context" (InFlight.ofJson? style)
  some
    { registers
      runMode
      counters := { cycles, instructions, interruptsServiced, stallCycles }
      pending
      inFlight }

/-! ### Devices -/

/-- The fields of a timer's state. -/
def TimerRegisters.toFields (s : TimerRegisters) : List (String × Json) :=
  [("latch", ofNat s.latch.toNat), ("counter", ofNat s.counter.toNat),
    ("control", ofNat s.control.toNat), ("underflow", bool s.underflow)]

/-- A timer's state from JSON. -/
def TimerRegisters.ofJson? (j : Json) : Option TimerRegisters := do
  let fields ← j.record? ["latch", "counter", "control", "underflow"] []
  let latch ← required? fields "latch" word?
  let counter ← required? fields "counter" word?
  let control ← required? fields "control" byte?
  let underflow ← required? fields "underflow" bool?
  some { latch, counter, control, underflow }

/-- The fields of a DMA controller's state. -/
def DmaRegisters.toFields (s : DmaRegisters) : List (String × Json) :=
  [("source", ofNat s.source.toNat), ("destination", ofNat s.destination.toNat),
    ("length", ofNat s.length.toNat), ("irq_on_done", bool s.irqOnDone), ("busy", bool s.busy),
    ("done", bool s.done)]

/-- A DMA controller's state from JSON. -/
def DmaRegisters.ofJson? (j : Json) : Option DmaRegisters := do
  let fields ← j.record? ["source", "destination", "length", "irq_on_done", "busy", "done"] []
  let source ← required? fields "source" word?
  let destination ← required? fields "destination" word?
  let length ← required? fields "length" byte?
  let irqOnDone ← required? fields "irq_on_done" bool?
  let busy ← required? fields "busy" bool?
  let done ← required? fields "done" bool?
  some { source, destination, length, irqOnDone, busy, done }

/-- The fields of a device's state, without its kind. -/
def DeviceSnapshot.toFields : DeviceSnapshot → List (String × Json)
  | .memory bytes => [("bytes", array (bytes.toList.map fun b => ofNat b.toNat))]
  | .timer state => state.toFields
  | .dma state => state.toFields
  | .cpu state => state.toFields

/-- A device's state as JSON: its fields behind one that tells the kind. -/
def DeviceSnapshot.toJson (s : DeviceSnapshot) : Json :=
  object (("kind", string s.kind) :: s.toFields)

/-- The kind of a device's state, and the value that holds the other fields: the object itself,
or the rest of the array. -/
def Json.kind? : Json → Option (String × Json)
  | .object fields => (required? fields "kind" string?).map (·, .object fields)
  | .array (kind :: rest) => kind.string?.map (·, .array rest)
  | _ => none

/-- Memory contents from JSON. -/
def MemoryBytes.ofJson? (j : Json) : Option (Array UInt8) := do
  let fields ← j.record? ["bytes"] []
  let bytes ← required? fields "bytes" (list? byte?)
  some bytes.toArray

/-- A device's state from JSON; the kind says how the other fields are read. Since the kind can
come last, everything is read before it is used, what is unknown too, so that nothing may be
unreadable; and labels are taken in the lax style. -/
def DeviceSnapshot.ofJson? (j : Json) : Option DeviceSnapshot := do
  guard j.isReadable
  let (kind, j) ← j.kind?
  match kind with
  | "memory" => (MemoryBytes.ofJson? j).map .memory
  | "timer" => (TimerRegisters.ofJson? j).map .timer
  | "dma" => (DmaRegisters.ofJson? j).map .dma
  | "cpu" => (CpuSnapshot.ofJson? .lax j).map .cpu
  | _ => none

/-- A recorded device as JSON. -/
def MappingSnapshot.toJson (s : MappingSnapshot) : Json :=
  object [("name", string s.name), ("start", ofNat s.start.toNat),
    ("end", ofNat s.finish.toNat), ("state", s.device.toJson)]

/-- A recorded device from JSON. -/
def MappingSnapshot.ofJson? (j : Json) : Option MappingSnapshot := do
  let fields ← j.record? ["name", "start", "end", "state"] []
  let name ← required? fields "name" string?
  let start ← required? fields "start" word?
  let finish ← required? fields "end" word?
  let device ← required? fields "state" DeviceSnapshot.ofJson?
  some { name, start, finish, device }

/-! ### The bus and the machine -/

/-- A block transfer as JSON. -/
def BlockTransfer.toJson (t : BlockTransfer) : Json :=
  object [("source", ofNat t.source.toNat), ("destination", ofNat t.destination.toNat),
    ("length", ofNat t.length.toNat)]

/-- A block transfer from JSON. -/
def BlockTransfer.ofJson? (j : Json) : Option BlockTransfer := do
  let fields ← j.record? ["source", "destination", "length"] []
  let source ← required? fields "source" word?
  let destination ← required? fields "destination" word?
  let length ← required? fields "length" word?
  some { source, destination, length }

/-- A transfer under way as JSON. -/
def TransferProgress.toJson (d : TransferProgress) : Json :=
  object [("owner", ofNat d.owner.toNat), ("transfer", d.block.toJson),
    ("index", ofNat d.index.toNat),
    ("latch", ofOption (fun value => ofNat value.toNat) d.latch)]

/-- A transfer under way from JSON. -/
def TransferProgress.ofJson? (j : Json) : Option TransferProgress := do
  let fields ← j.record? ["owner", "transfer", "index", "latch"] []
  let owner ← required? fields "owner" uint64?
  let block ← required? fields "transfer" BlockTransfer.ofJson?
  let index ← required? fields "index" word?
  let latch ← optional? fields "latch" byte?
  some { owner, block, index, latch }

/-- The arbitration state as JSON. -/
def Arbitration.toJson (s : Arbitration) : Json :=
  object [("holder", ofOption string s.holder),
    ("dma", ofOption TransferProgress.toJson s.transfer)]

/-- The arbitration state from JSON; both parts may be missing from an object. -/
def Arbitration.ofJson? (j : Json) : Option Arbitration := do
  let fields ← j.record? ["holder", "dma"] []
  let holder ← optional? fields "holder" string?
  let transfer ← optional? fields "dma" TransferProgress.ofJson?
  some { holder, transfer }

/-- A machine's state as JSON. -/
def MachineSnapshot.toJson (s : MachineSnapshot) : Json :=
  object [("cpu", s.cpu.toJson), ("devices", array (s.devices.map (·.toJson))),
    ("bus", s.bus.toJson)]

/-- A machine's state from JSON. Without arbitration state nobody else has the bus. -/
def MachineSnapshot.ofJson? (j : Json) : Option MachineSnapshot := do
  let fields ← j.record? ["cpu", "devices"] ["bus"]
  let cpu ← required? fields "cpu" (CpuSnapshot.ofJson? .strict)
  let devices ← required? fields "devices" (list? MappingSnapshot.ofJson?)
  let bus ← defaulted? fields "bus" {} Arbitration.ofJson?
  some { cpu, devices, bus }

/-! ### Settings -/

/-- A processor's settings as JSON. -/
def CpuSettings.toJson (c : CpuSettings) : Json :=
  object [("reset_vector", ofNat c.resetVector.toNat), ("irq_vector", ofNat c.irqVector.toNat),
    ("nmi_vector", ofNat c.nmiVector.toNat), ("initial_s", ofNat c.initialS.toNat),
    ("initial_p", ofNat c.initialP.toNat)]

/-- A processor's settings from JSON; each may be missing. -/
def CpuSettings.ofJson? (j : Json) : Option CpuSettings := do
  let fields ← j.record? []
    ["reset_vector", "irq_vector", "nmi_vector", "initial_s", "initial_p"]
  let customary : CpuSettings := {}
  let resetVector ← defaulted? fields "reset_vector" customary.resetVector word?
  let irqVector ← defaulted? fields "irq_vector" customary.irqVector word?
  let nmiVector ← defaulted? fields "nmi_vector" customary.nmiVector word?
  let initialS ← defaulted? fields "initial_s" customary.initialS byte?
  let initialP ← defaulted? fields "initial_p" customary.initialP byte?
  some { resetVector, irqVector, nmiVector, initialS, initialP }

/-- The clock's settings as JSON. -/
def ClockSettings.toJson (c : ClockSettings) : Json :=
  object [("quantum", ofNat c.quantum.toNat)]

/-- The clock's settings from JSON. -/
def ClockSettings.ofJson? (j : Json) : Option ClockSettings := do
  let fields ← j.record? [] ["quantum"]
  let quantum ← defaulted? fields "quantum" 1 uint32?
  some { quantum }

end W65C02
