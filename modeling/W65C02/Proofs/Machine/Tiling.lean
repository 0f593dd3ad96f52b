import W65C02.Proofs.Bus.Restore
import W65C02.Proofs.Bus.Tiling
import W65C02.Proofs.Bus.Transfer
import W65C02.Proofs.Machine.Stalls

/-!
# Time in slices on tiled memory

With nothing but RAM on the map and nobody else on the bus a machine is a processor over plain
memory. Neither the way in which the address space is cut into pieces nor the way in which time is
cut into slices makes a difference: the processor gets each cycle exactly once, whatever budgets,
quanta and dividers there are, and the lines move at the same cycles.

RAM asks for no transfer, but a state that comes from elsewhere may have one under way. In a machine
with such a state bytes change that the processor has not written.
-/

namespace W65C02

namespace Machine

/-- What a host does with a machine that it does not disturb otherwise. -/
inductive Turn where
  /-- It uses up a budget of cycles. -/
  | tick (budget : ℕ)
  /-- It runs a number of cycles, quantum by quantum. -/
  | run (cycles : ℕ)
  /-- It moves the interrupt lines. -/
  | lines (move : Lines → Lines)

/-- The machine after a turn. -/
def turn (s : Machine) : Turn → Machine
  | .tick budget => s.tick budget
  | .run cycles => s.run cycles
  | .lines move => s.mapPort fun port => { port with lines := move port.lines }

/-- The machine after a number of turns. -/
def turns (s : Machine) : List Turn → Machine
  | [] => s
  | first :: rest => (s.turn first).turns rest

/-- What a turn is for a processor by itself: single cycles, or a move of the lines. -/
def Turn.events {β : Type} : Turn → List (Cpu.Event β)
  | .tick cycles | .run cycles => List.replicate cycles .cycle
  | .lines move => [.world fun port => { port with lines := move port.lines }]

end Machine

namespace Machine

variable {s : Machine} {d : Cpu Memory}

/-- A budget is used up cycle by cycle. -/
theorem mirrors_tick (h : s.cpu.Matches Port.Mirrors d) (budget : ℕ) :
    (s.tick budget).cpu.Matches Port.Mirrors (d.tick budget) := by
  cases budget with
  | zero => exact h
  | succ cycles =>
    have hport : s.cpu.port.Mirrors d.port := h.port
    have hcpu := h.tick Port.Mirrors.simulation (cycles + 1)
    rw [tick_eq_advance hport.onlyMemory]
    exact ⟨hcpu.settings, hcpu.regs, hcpu.runMode, hcpu.inFlight, hcpu.counters,
      hcpu.port.tick (cycles + 1)⟩

/-- Several budgets are as many cycles as they add up to. -/
theorem mirrors_ticks (h : s.cpu.Matches Port.Mirrors d) (budgets : List ℕ) :
    (s.ticks budgets).cpu.Matches Port.Mirrors (d.tick budgets.sum) := by
  induction budgets generalizing s d with
  | nil => exact h
  | cons budget rest ih =>
    rw [List.sum_cons, Cpu.tick_add]
    exact ih (mirrors_tick h budget)

/-- A turn is the events that it stands for. -/
theorem mirrors_turn (h : s.cpu.Matches Port.Mirrors d) (turn : Turn) :
    (s.turn turn).cpu.Matches Port.Mirrors (d.afterAll turn.events) := by
  cases turn with
  | tick budget =>
    rw [Turn.events, Cpu.afterAll_replicate_cycle]
    exact mirrors_tick h budget
  | run cycles =>
    have hticks := mirrors_ticks h (s.runBudgets cycles)
    rw [sum_runBudgets, ← run_eq_ticks] at hticks
    rw [Turn.events, Cpu.afterAll_replicate_cycle]
    exact hticks
  | lines move =>
    have hport : s.cpu.port.Mirrors d.port := h.port
    have hmoved := Port.Mirrors.simulation.setLines (move d.port.lines) hport
    refine h.mapPort (f := fun port => { port with lines := move port.lines })
      (g := fun port => { port with lines := move port.lines }) ?_
    rw [hport.lines]
    exact hmoved

/-- However the turns are cut, the machine is where the processor is after the same cycles. -/
theorem mirrors_turns (h : s.cpu.Matches Port.Mirrors d) (turns : List Turn) :
    (s.turns turns).cpu.Matches Port.Mirrors (d.afterAll (turns.flatMap Turn.events)) := by
  induction turns generalizing s d with
  | nil => exact h
  | cons first rest ih =>
    rw [List.flatMap_cons, Cpu.afterAll_append]
    exact ih (mirrors_turn h first)

/-- A machine looks like a processor over plain memory. -/
structure LooksLike (s : Machine) (d : Cpu Memory) : Prop where
  /-- The state of the processor is the same. -/
  snapshot : s.cpu.snapshot = d.snapshot
  /-- The same is read at each address. -/
  memory : ∀ address, (s.cpu.port.read address).1 = d.bus.read address

/-- A machine whose address space is tiled with RAM, and whose bus nobody else holds, cannot be told
from a processor over plain memory that gets the same cycles and the same moves of the lines between
them. This holds where no transfer is under way, and so it does in each machine that was set up and
used by its host and has gone back to no states but those of such machines. -/
theorem looksLike_turns (htiled : TiledByRam s.layout) (hholder : s.bus.holder = none)
    (hstart : s.Starts) (hsettings : s.cpu.settings = d.settings) (h : s.LooksLike d)
    (turns : List Turn) :
    (s.turns turns).LooksLike (d.afterAll (turns.flatMap Turn.events)) := by
  have htransfer := (hstart.onlyMemory htiled.isMemory).transfer
  have hlines : s.cpu.port.lines = d.port.lines :=
    Lines.toSnapshot_inj (congrArg CpuSnapshot.pending h.snapshot)
  have htiled' : TiledByRam s.cpu.port.bus.layout := htiled
  have hbytes (address : UInt16) : (s.cpu.port.bus.cells address).value = d.bus.read address := by
    rw [← h.memory, htiled'.read]
  have hport : s.cpu.port.Mirrors d.port := ⟨hlines, htiled', hholder, htransfer, hbytes⟩
  have hturns := mirrors_turns (.of_snapshot_eq hsettings h.snapshot hport) turns
  refine ⟨hturns.snapshot_eq Port.Mirrors.simulation, fun address => ?_⟩
  rw [hturns.port.read]
  rfl

/-- A machine with two devices full of zeros. The upper half of the address space comes first, in a
device that is too large for it and has a slow clock. -/
def halves : Machine :=
  { cpu :=
      { settings := {}
        regs := { p := Status.unused }
        bus := { mappings := [
          { start := 0x8000, finish := 0xFFFF, device := .ram (.replicate 40000 0), divider := 3 },
          { start := 0x0000, finish := 0x7FFF, device := .ram (.replicate 32768 0) }] } }
    quantum := 7
    quantum_pos := by decide }

/-- The same processor over plain memory. -/
def whole : Cpu Memory :=
  { settings := {}, regs := { p := Status.unused }, bus := .zeros }

/-- The two devices stand side by side, -/
theorem layout_halves : halves.layout =
    [⟨"ram", 0x8000, 0xFFFF, .ram, 40000, 3⟩, ⟨"ram", 0x0000, 0x7FFF, .ram, 32768, 1⟩] := by
  simp only [layout, halves, bus, MappedBus.layout, List.map_cons, List.map_nil, Mapping.slot,
    Device.name, Device.kind, Device.capacity, Array.size_replicate]

/-- so they tile the address space. -/
theorem tiledByRam_halves : TiledByRam halves.layout := by
  rw [layout_halves]
  refine ⟨by decide, by decide, fun address => ?_⟩
  by_cases hlow : address < 0x8000
  · refine ⟨_, List.mem_cons_of_mem _ List.mem_cons_self, decide_eq_true ?_⟩
    constructor <;> grind
  · refine ⟨_, List.mem_cons_self, decide_eq_true ?_⟩
    constructor <;> grind

/-- At first both are full of zeros. -/
theorem looksLike_halves : halves.LooksLike whole := by
  have htiled : TiledByRam halves.cpu.port.bus.layout := tiledByRam_halves
  have hzero (size : ℕ) (offset : UInt16)
      (hinside : offset.toNat < (Device.ram (.replicate size 0)).capacity) :
      ((Device.ram (.replicate size 0)).cell offset).value = 0 := by
    rw [Device.capacity, Array.size_replicate] at hinside
    simp [Device.cell, MemoryBytes.read, hinside]
  refine ⟨rfl, fun address => ?_⟩
  rw [htiled.read, whole, Memory.read_zeros]
  exact MappedBus.cells_of_tiled (·.value = 0) htiled
    (List.forall_mem_cons.mpr ⟨hzero 40000, List.forall_mem_singleton.mpr (hzero 32768)⟩) address

/-- Three cycles into the second `BRK` a source asks for attention. -/
def twoQuanta : List Turn := [.tick 3, .run 7, .lines (·.request "uart" .irq), .run 15, .tick 0]

/-- The two halves look like a whole at all times. -/
theorem looksLike_halves_turns :
    TiledByRam halves.layout ∧ halves.bus.holder = none ∧ halves.Starts ∧
      halves.cpu.settings = whole.settings ∧ halves.LooksLike whole ∧
      (halves.turns twoQuanta).LooksLike (whole.afterAll (twoQuanta.flatMap Turn.events)) :=
  ⟨tiledByRam_halves, rfl, .inl rfl, rfl, looksLike_halves,
    looksLike_turns tiledByRam_halves rfl (.inl rfl) rfl looksLike_halves twoQuanta⟩

/-- With RAM everywhere, the byte that a transfer has ready is in its place after the next cycle. -/
theorem read_tick_of_latch (htiled : TiledByRam s.layout) {transfer : TransferProgress}
    (htransfer : s.bus.transfer = some transfer)
    (hunfinished : transfer.index < transfer.block.length) {value : UInt8}
    (hlatch : transfer.latch = some value) :
    ((s.tick 1).cpu.port.read (transfer.block.destination + transfer.index)).1 = value := by
  let address := transfer.block.destination + transfer.index
  let port := (s.cpu.tick 1).port
  let served := MappedBus.runTransfer port 1
  have harbitration := s.sameArbitration_tickCpu 1
  have hcpu : port.bus.transfer = some transfer := harbitration.transfer.trans htransfer
  have htiled' : TiledByRam port.bus.layout := harbitration.layout ▸ htiled
  have hwritten : served.bus.cells = port.bus.cells.put address value := by
    have hserved : served = MappedBus.transferCycle transfer port := by
      simp only [served, MappedBus.runTransfer, hcpu]
    rw [← MappedBus.cells_write, hserved]
    simp only [MappedBus.transferCycle, if_pos hunfinished, hlatch]
    split
    · rfl
    · exact MappedBus.cells_finishTransfer _ _
  have hmappings : (s.tick 1).bus.mappings =
      (MappedBus.tickAll 1 served.bus.mappings served.lines).1 := by
    rw [tick, htransfer, Option.isSome_some, if_pos rfl]
    exact MappedBus.mappings_startTransfer _
  have hcells : (s.tick 1).bus.cells = port.bus.cells.put address value := by
    rw [← hwritten, ← MappedBus.cells_tickAll served.bus 1 served.lines]
    unfold MappedBus.cells
    rw [hmappings]
  have hlayout : (s.tick 1).cpu.port.bus.layout = s.layout := (LeadsTo.tick s 1).build.layout
  have hread := TiledByRam.read (hlayout ▸ htiled) address
  rw [hread]
  change ((s.tick 1).bus.cells address).value = value
  rw [hcells, Cells.put, if_pos rfl, Cell.write, if_pos (MappedBus.writable_cells htiled' address)]

/-- A transfer for the device on the upper half, which has not asked for it. The byte 7 is ready. -/
def ready : TransferProgress := ⟨0, ⟨0x0000, 0x4000, 1⟩, 0, some 7⟩

/-- The two halves with that transfer under way. -/
def contested : Machine := halves.mapBus fun bus => { bus with transfer := some ready }

/-- The state is accepted although RAM has no transfers. -/
theorem restore_contested :
    halves.restore (halves.snapshot.withTransfer ready) = .ok contested := by
  have hsound : ∀ m ∈ halves.bus.mappings, m.Sound := by
    refine List.forall_mem_cons.mpr ⟨⟨trivial, ?_⟩, List.forall_mem_singleton.mpr ⟨trivial, ?_⟩⟩
    all_goals decide
  have hdevices := (MappingsTwin.refl halves.bus.mappings).validateAll hsound
  have hbus : halves.bus.validate halves.bus.deviceSnapshots
      { halves.bus.arbitration with transfer := some ready } = .ok () :=
    MappedBus.validate_eq_ok.mpr ⟨rfl, hdevices, rfl⟩
  exact restore_eq_ok.mpr ⟨validate_eq_ok.mpr ⟨rfl, hbus⟩, rfl⟩

/-- With the next cycle the byte is written, by nobody that plain memory knows of. -/
theorem not_looksLike_turns_of_restore :
    ∃ s, halves.restore (halves.snapshot.withTransfer ready) = .ok s ∧ TiledByRam s.layout ∧
      s.bus.holder = none ∧ s.cpu.settings = whole.settings ∧ s.LooksLike whole ∧
      ¬ (s.turns [.tick 1]).LooksLike (whole.afterAll ([Turn.tick 1].flatMap Turn.events)) := by
  have hsame : contested.LooksLike whole := ⟨rfl, looksLike_halves.memory⟩
  refine ⟨contested, restore_contested, tiledByRam_halves, rfl, rfl, hsame, fun hlooks => ?_⟩
  have htiled : TiledByRam contested.layout := tiledByRam_halves
  have htransfer : contested.bus.transfer = some ready := rfl
  have hmachine := read_tick_of_latch htiled htransfer (by decide) rfl
  have hplain : (whole.afterAll ([Turn.tick 1].flatMap Turn.events)).bus.read 0x4000 = 0 := by
    change whole.bus.read 0x4000 = 0
    exact Memory.read_zeros _
  have hbyte := hlooks.memory 0x4000
  rw [hplain] at hbyte
  exact absurd (hmachine.symm.trans hbyte) (by decide)

end Machine

end W65C02
