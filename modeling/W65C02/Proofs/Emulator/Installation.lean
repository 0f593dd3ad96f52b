import W65C02.Proofs.Bus.Loading
import W65C02.Proofs.Emulator.Reachable

/-!
# Installing a program

A program is stored byte by byte, and then the reset vector is pointed at its start. A program that
is longer than the address space overwrites itself, and one that meets the reset vector loses up to
two of its bytes to it. A reset keeps all of the memory, so it leads to the start of the program.
-/

namespace W65C02

namespace Memory

/-- Memory into which a program is stored, and whose reset vector is then pointed at its start. -/
def install (m : Memory) (resetVector : UInt16) (program : List UInt8) (start : UInt16) : Memory :=
  ((m.load start program).write resetVector (lowByte start)).write (resetVector + 1)
    (highByte start)

variable (m : Memory) (resetVector : UInt16) (program : List UInt8) (start : UInt16)

/-- After a program was loaded the reset vector has the low byte of its start, -/
theorem read_install_low :
    (m.install resetVector program start).read resetVector = lowByte start := by
  have hsucc : resetVector + 1 ≠ resetVector := by grind
  rw [install, read_write, if_neg hsucc, read_write, if_pos rfl]

/-- and the high byte. -/
theorem read_install_high :
    (m.install resetVector program start).read (resetVector + 1) = highByte start := by
  rw [install, read_write, if_pos rfl]

/-- Away from the vector all that counts is the program. -/
theorem read_install_of_ne {address : UInt16} (hlow : address ≠ resetVector)
    (hhigh : address ≠ resetVector + 1) :
    (m.install resetVector program start).read address = (m.load start program).read address := by
  rw [install, read_write, if_neg hhigh.symm, read_write, if_neg hlow.symm]

end Memory

namespace Emulator

variable {e : Emulator}

/-- The bytes that an emulator shows. -/
def memory (e : Emulator) : Memory := ⟨Vector.ofFn fun i => (e.peek (UInt16.ofNat i)).1⟩

/-- The memory of an emulator is what a host reads there. -/
theorem read_memory (e : Emulator) (address : UInt16) :
    e.memory.read address = (e.peek address).1 := by
  simp only [memory, Memory.read, Vector.getElem_ofFn, UInt16.ofNat_toNat]

/-- A host sees what the port shows. -/
theorem peek_of_shows {m : Memory} (h : e.machine.cpu.port.Shows m) (address : UInt16) :
    (e.peek address).1 = m.read address := by
  have hpeek : (e.peek address).1 = (e.machine.cpu.port.read address).1 := rfl
  rw [hpeek, h.read]

/-- It is the memory that shows at the port. -/
theorem memory_eq {m : Memory} (h : e.machine.cpu.port.Shows m) : e.memory = m :=
  Memory.ext_read fun address => by rw [read_memory, peek_of_shows h]

/-- In a reachable emulator the memory shows at the port. -/
theorem Reachable.shows (he : e.Reachable) : e.machine.cpu.port.Shows e.memory := by
  refine ⟨he.tiledByRam, fun address => ?_⟩
  have hpeek : (e.peek address).1 = (e.machine.cpu.port.read address).1 := rfl
  rw [read_memory, hpeek, he.tiledByRam.read]

/-- An installation is three steps on the memory. -/
theorem shows_install {m : Memory} (h : e.machine.cpu.port.Shows m) (program : List UInt8)
    (start : UInt16) :
    (e.install program start).machine.cpu.port.Shows
      (m.install e.machine.cpu.settings.resetVector program start) :=
  ((h.writeAll start program).write _ _).write _ _

/-- A reset does nothing to it, and takes the program counter from it. -/
theorem shows_reset {m : Memory} (h : e.machine.cpu.port.Shows m) :
    e.reset.machine.cpu.port.Shows m ∧
      e.reset.machine.cpu.regs =
        { Registers.powerOn e.machine.cpu.settings.initialS e.machine.cpu.settings.initialP with
          pc := wordOfBytes (m.read e.machine.cpu.settings.resetVector)
            (m.read (e.machine.cpu.settings.resetVector + 1)) } := by
  have hpointer := h.reset.readPointer e.machine.cpu.settings.resetVector
  constructor
  · have hport : e.reset.machine.cpu.port =
        { ((MappedBus.reset e.machine.cpu.port).readPointer
            e.machine.cpu.settings.resetVector).2 with lines := .idle } := rfl
    rw [hport, hpointer]
    exact ⟨h.reset.tiled, h.reset.bytes⟩
  · have hregs : e.reset.machine.cpu.regs =
        { Registers.powerOn e.machine.cpu.settings.initialS e.machine.cpu.settings.initialP with
          pc := ((MappedBus.reset e.machine.cpu.port).readPointer
            e.machine.cpu.settings.resetVector).1 } := rfl
    rw [hregs, hpointer]

/-- The memory after a program has been installed. -/
structure Installs (e : Emulator) (program : List UInt8) (start : UInt16) : Prop where
  /-- The reset vector has the low byte of the start. -/
  low : ((e.install program start).peek e.machine.cpu.settings.resetVector).1 = lowByte start
  /-- And the high byte. -/
  high :
    ((e.install program start).peek (e.machine.cpu.settings.resetVector + 1)).1 = highByte start
  /-- Elsewhere each address has the last byte that was meant for it. -/
  stored : ∀ address, address ≠ e.machine.cpu.settings.resetVector →
    address ≠ e.machine.cpu.settings.resetVector + 1 → ∀ (i : ℕ) (hi : i < program.length),
      start + UInt16.ofNat i = address →
      (∀ j < program.length, i < j → start + UInt16.ofNat j ≠ address) →
        ((e.install program start).peek address).1 = program[i]
  /-- If there was none then it keeps its own. -/
  kept : ∀ address, address ≠ e.machine.cpu.settings.resetVector →
    address ≠ e.machine.cpu.settings.resetVector + 1 →
      (∀ i < program.length, start + UInt16.ofNat i ≠ address) →
        ((e.install program start).peek address).1 = (e.peek address).1

/-- The emulator after a reset. -/
structure RestartsAt (e : Emulator) (start : UInt16) : Prop where
  /-- All of the memory is kept. -/
  memory : ∀ address, (e.reset.peek address).1 = (e.peek address).1
  /-- The processor is not halted. -/
  running : e.reset.machine.cpu.runMode = .running
  /-- Nothing is in flight. -/
  boundary : e.reset.machine.cpu.inFlight = none
  /-- The registers have their initial values, and the program counter is at the start. -/
  regs : e.reset.machine.cpu.regs =
    { a := 0
      x := 0
      y := 0
      pc := start
      s := e.machine.cpu.settings.initialS
      p := e.machine.cpu.settings.initialP }
  /-- All lines are at rest. -/
  lines : e.reset.machine.cpu.interrupts.lines = .idle
  /-- The counters start again. -/
  counters : e.reset.machine.cpu.counters = {}

/-- A program of any length can be installed anywhere, in any state that a host can bring about, and
a reset starts it. -/
theorem Reachable.installs_and_restartsAt (he : e.Reachable) (program : List UInt8)
    (start : UInt16) : e.Installs program start ∧ (e.install program start).RestartsAt start := by
  have hshows := shows_install he.shows program start
  have hpeek := peek_of_shows hshows
  obtain ⟨hreset, hregs⟩ := shows_reset hshows
  have hsettings : (e.install program start).machine.cpu.settings = e.machine.cpu.settings := rfl
  refine ⟨?installs, ?restarts⟩
  case installs =>
    constructor
    case low => rw [hpeek, Memory.read_install_low]
    case high => rw [hpeek, Memory.read_install_high]
    case stored =>
      rintro _ hlow hhigh i hi rfl hlast
      rw [hpeek, Memory.read_install_of_ne _ _ _ _ hlow hhigh]
      exact Memory.read_load_of_last _ hi hlast
    case kept =>
      intro address hlow hhigh hnone
      rw [hpeek, ← read_memory e, Memory.read_install_of_ne _ _ _ _ hlow hhigh,
        Memory.read_load_of_ne _ hnone]
  case restarts =>
    constructor
    case memory =>
      intro address
      rw [hpeek, peek_of_shows hreset]
    case running => rfl
    case boundary => rfl
    case regs =>
      rw [hregs, hsettings, Memory.read_install_low, Memory.read_install_high,
        wordOfBytes_lowByte_highByte, he.settings]
      rfl
    case lines => rfl
    case counters => rfl

/-- Eight bytes from 0xFFFA run over the reset vector and on to the first addresses. -/
def acrossVector : List UInt8 := [0xA9, 0x2A, 0x85, 0x10, 0xEA, 0xEA, 0xE8, 0xCA]

/-- They can be installed in a machine that stands in the middle of an instruction. -/
theorem installs_acrossVector :
    (Emulator.create.after (.tick 3)).Reachable ∧
      (Emulator.create.after (.tick 3)).Installs acrossVector 0xFFFA ∧
      ((Emulator.create.after (.tick 3)).install acrossVector 0xFFFA).RestartsAt 0xFFFA := by
  have he : (Emulator.create.after (.tick 3)).Reachable := .after (.tick 3) .create
  exact ⟨he, he.installs_and_restartsAt acrossVector 0xFFFA⟩

end Emulator

end W65C02
