import W65C02.Json.Snapshot
import W65C02.Json.Text
import W65C02.Rounding

/-!
# A ready-made machine

A machine whose whole address space is one RAM, with a host that can load and run programs,
move the interrupt lines, look at memory, and save and restore everything as text.
-/

namespace W65C02

/-- A processor with 64 KiB of memory. -/
structure Emulator where
  /-- The machine behind it. -/
  machine : Machine

/-- Why a saved text is refused. -/
inductive ImportError where
  /-- The text is not JSON, or does not describe a machine. -/
  | malformed
  /-- The described state does not fit the machine. -/
  | rejected (reason : SnapshotError)
  deriving DecidableEq

/-- The state that a text describes. -/
def MachineSnapshot.parse? (text : String) : Option MachineSnapshot :=
  (Json.parse? text).bind MachineSnapshot.ofJson?

namespace Emulator

/-- The address map: one RAM from the first address to the last. -/
def memoryMap : MappedBus :=
  { mappings :=
      [{ start := 0, finish := 0xFFFF, device := .ram (Array.replicate addressSpace 0) }] }

/-- A machine that has just been reset, with cleared memory. -/
def create : Emulator := ⟨(Machine.create.mapBus fun _ => memoryMap).reset⟩

/-- Changes the machine. -/
def mapMachine (e : Emulator) (f : Machine → Machine) : Emulator := ⟨f e.machine⟩

/-- The registers. -/
def regs (e : Emulator) : Registers := e.machine.cpu.regs

/-- The cycles run, to 53 significant bits. -/
def cycles (e : Emulator) : Nat := roundToDouble e.machine.cpu.counters.cycles

/-- The instructions retired, to 53 significant bits. -/
def instructions (e : Emulator) : Nat := roundToDouble e.machine.cpu.counters.instructions

/-- Runs one instruction or interrupt sequence. -/
def step (e : Emulator) : Nat × Emulator :=
  let (spent, machine) := e.machine.step
  (spent, ⟨machine⟩)

/-- Runs a budget of cycles. -/
def tick (e : Emulator) (budget : Nat) : Emulator := e.mapMachine (·.tick budget)

/-- Runs a number of cycles, quantum by quantum. -/
def run (e : Emulator) (cycles : Nat) : Emulator :=
  e.mapMachine (·.run cycles)

/-- Resets the machine. -/
def reset (e : Emulator) : Emulator := e.mapMachine (·.reset)

/-- Sets the program counter. -/
def jumpTo (e : Emulator) (address : UInt16) : Emulator :=
  e.mapMachine (·.mapCpu fun c => { c with regs.pc := address })

/-- The host holds the IRQ line. -/
def holdIrq (e : Emulator) : Emulator :=
  e.mapMachine (·.mapInterrupts (·.request hostSource .irq))

/-- The host releases the IRQ line. -/
def releaseIrq (e : Emulator) : Emulator :=
  e.mapMachine (·.mapInterrupts (·.release hostSource .irq))

/-- The host pulses the NMI line. -/
def nmiPulse (e : Emulator) : Emulator :=
  e.mapMachine (·.mapInterrupts (·.nmiPulse hostSource))

/-- Reads a byte of memory. -/
def peek (e : Emulator) (address : UInt16) : UInt8 × Emulator :=
  let (value, machine) := e.machine.withPort (·.read address)
  (value, ⟨machine⟩)

/-- Writes a byte of memory. -/
def poke (e : Emulator) (address : UInt16) (value : UInt8) : Emulator :=
  e.mapMachine (·.mapPort (·.write address value))

/-- Reads a page of memory. -/
def page (e : Emulator) (page : UInt8) : List UInt8 × Emulator :=
  let (bytes, machine) := e.machine.withPort (·.readAll (wordOfBytes 0 page) 256)
  (bytes, ⟨machine⟩)

/-- Stores a program, points the reset vector at its start, and sets the program counter
there. What is in flight stays in flight. -/
def install (e : Emulator) (program : List UInt8) (start : UInt16) : Emulator :=
  let resetVector := e.machine.cpu.settings.resetVector
  let e := e.mapMachine (·.mapPort (·.writeAll start program))
  let e := e.poke resetVector (lowByte start)
  let e := e.poke (resetVector + 1) (highByte start)
  e.jumpTo start

/-- The whole state as text. -/
def exportText (e : Emulator) : String := e.machine.snapshot.toJson.render

/-- Takes over a saved text as a whole, or leaves everything as it is. -/
def importText (e : Emulator) (text : String) : Except ImportError Emulator :=
  match MachineSnapshot.parse? text with
  | none => .error .malformed
  | some state =>
    match e.machine.restore state with
    | .ok machine => .ok ⟨machine⟩
    | .error reason => .error (.rejected reason)

end Emulator

end W65C02
