import W65C02.Proofs.Bus.OnlyMemory
import W65C02.Proofs.Cpu.Stalls
import W65C02.Proofs.Machine.Mastership

/-!
# Stalls are not noticed by the program

A host that takes the bus from a processor and gives it back between cycles does nothing but to
delay the program, if there is nothing but memory on the map. After any number of moves the machine
is where it would be after the cycles in which the processor had the bus, if nobody else had ever
held it. Only the count of cycles and the count of stalls tell the difference.

Memory asks for no transfer, so none is under way in a machine that only its host has acted on. A
state with one is accepted nevertheless if it comes from elsewhere, and then the transfer goes on
while the processor stands still.
-/

namespace W65C02

/-- A state in which a transfer is under way. -/
def MachineSnapshot.withTransfer (state : MachineSnapshot) (transfer : TransferProgress) :
    MachineSnapshot :=
  { state with bus := { state.bus with transfer := some transfer } }

namespace Machine

/-- What a host does that competes with the processor for the bus. -/
inductive HostMove where
  /-- It lets a single cycle pass. -/
  | cycle
  /-- It asks for the bus. -/
  | request (requestor : String)
  /-- It gives the bus back. -/
  | release (requestor : String)
  deriving DecidableEq

/-- The machine after a move. -/
def move (s : Machine) : HostMove → Machine
  | .cycle => s.tick 1
  | .request requestor => (s.requestBus requestor).2
  | .release requestor => s.releaseBus requestor

/-- The machine after a number of moves. -/
def moves (s : Machine) : List HostMove → Machine
  | [] => s
  | first :: rest => (s.move first).moves rest

/-- The cycles among a number of moves in which the processor has the bus. -/
def freeCycles (s : Machine) : List HostMove → ℕ
  | [] => 0
  | first :: rest =>
    (if first = .cycle ∧ s.bus.holder = none then 1 else 0) + (s.move first).freeCycles rest

/-- The machine with the bus given back to the processor. -/
def freed (s : Machine) : Machine := s.mapBus (·.freed)

variable {s : Machine} {d : Cpu MappedBus}

/-- As long as both processors have the bus they come equally far. -/
theorem inStep_tickCpu {c : Cpu MappedBus} (h : c.InStep Port.SameDevices d)
    (hc : c.bus.holder = none) (hd : d.bus.holder = none) (budget : ℕ) :
    (c.tick budget).InStep Port.SameDevices (d.tick budget) := by
  have hphases : c.InStep Port.SamePhases d :=
    h.of_port ((Port.SameDevices.samePhases_iff hc hd).mp h.port)
  have htick := hphases.tick Port.SamePhases.simulation budget
  exact htick.of_port (.of_samePhases htick.port)

/-- The processor alone hands nothing on. -/
theorem holder_tickCpu (c : Cpu MappedBus) (budget : ℕ) :
    (c.tick budget).bus.holder = c.bus.holder :=
  ((MappedBus.sameArbitrationInvariant c.bus).tick (c := c) (.refl c.bus) budget).holder

/-- Without a transfer a budget of cycles is used up at once. -/
theorem tick_eq_advance (h : s.bus.OnlyMemory) (cycles : ℕ) :
    s.tick (cycles + 1) = s.advance (cycles + 1) := by
  have hnone : s.bus.transfer.isSome = false := by rw [h.transfer, Option.isSome_none]
  rw [tick, hnone, if_neg Bool.false_ne_true]

/-- It leaves nothing but memory on the map. -/
theorem onlyMemory_tickCpu (h : s.bus.OnlyMemory) (budget : ℕ) :
    (s.cpu.tick budget).port.bus.OnlyMemory :=
  h.of_sameArbitration (s.sameArbitration_tickCpu budget)

/-- A budget of cycles leaves the arbitration alone, -/
theorem sameArbitration_tick (h : s.bus.OnlyMemory) (budget : ℕ) :
    s.bus.SameArbitration (s.tick budget).bus := by
  cases budget with
  | zero => exact .refl _
  | succ cycles =>
    have htick := (onlyMemory_tickCpu h (cycles + 1)).tick (cycles + 1)
    have hclocks : (s.cpu.tick (cycles + 1)).port.bus.SameArbitration
        (MappedBus.tick (s.cpu.tick (cycles + 1)).port (cycles + 1)).bus := by
      rw [htick]
      exact ⟨MappedBus.layout_passTime _ _, rfl, rfl⟩
    rw [tick_eq_advance h]
    exact (s.sameArbitration_tickCpu (cycles + 1)).trans hclocks

/-- and the processor comes as far as it does by itself. -/
theorem inStep_tick (h : s.bus.OnlyMemory) {budget : ℕ}
    (hd : (s.cpu.tick budget).InStep Port.SameDevices d) :
    (s.tick budget).cpu.InStep Port.SameDevices d := by
  cases budget with
  | zero => exact hd
  | succ cycles =>
    have honly := onlyMemory_tickCpu h (cycles + 1)
    rw [tick_eq_advance h]
    refine hd.mapPort_left (f := (MappedBus.tick · (cycles + 1))) ?_ ?_
    · rw [honly.tick]
    · exact (Port.SameDevices.tick honly _).trans hd.port

/-- No move of the host maps anything else or starts a transfer. -/
theorem onlyMemory_move (h : s.bus.OnlyMemory) (move : HostMove) :
    (s.move move).bus.OnlyMemory := by
  cases move with
  | cycle => exact h.of_sameArbitration (sameArbitration_tick h 1)
  | request requestor => exact h.of_freed_eq (s.bus.freed_request requestor)
  | release requestor => exact h.of_freed_eq (s.bus.freed_release requestor)

/-- Whoever is given the bus, the processor has come equally far. -/
theorem inStep_mapBus (hsame : s.cpu.InStep Port.SameDevices d) {f : MappedBus → MappedBus}
    (hfreed : (f s.bus).freed = s.bus.freed) : (s.mapBus f).cpu.InStep Port.SameDevices d := by
  have hport : ({ s.cpu.port with bus := f s.bus } : Port MappedBus).SameDevices s.cpu.port :=
    .of_freed_eq rfl hfreed
  exact hsame.mapPort_left (f := fun port => { port with bus := f port.bus }) rfl
    (hport.trans hsame.port)

/-- A machine whose host moves comes as far as a processor that runs for the cycles in which that of
the machine has the bus. -/
theorem inStep_moves (h : s.bus.OnlyMemory) (hd : d.bus.holder = none)
    (hsame : s.cpu.InStep Port.SameDevices d) (moves : List HostMove) :
    (s.moves moves).cpu.InStep Port.SameDevices (d.tick (s.freeCycles moves)) := by
  induction moves generalizing s d with
  | nil => exact hsame
  | cons first rest ih =>
    have honly := onlyMemory_move h first
    cases first with
    | cycle =>
      cases hholder : s.bus.holder with
      | some name =>
        have hstalled : Bus.cpuHasBus s.cpu.bus = false := congrArg Option.isNone hholder
        have hstall : (s.tick 1).cpu.InStep Port.SameDevices d :=
          inStep_tick h (hsame.stall hstalled)
        rw [freeCycles, hholder, if_neg (by simp), Nat.zero_add]
        exact ih honly hd hstall
      | none =>
        have hcycle : (s.tick 1).cpu.InStep Port.SameDevices (d.tick 1) :=
          inStep_tick h (inStep_tickCpu hsame hholder hd 1)
        rw [freeCycles, if_pos ⟨rfl, hholder⟩, Cpu.tick_add]
        exact ih honly ((holder_tickCpu d 1).trans hd) hcycle
    | request requestor =>
      rw [freeCycles, if_neg (by simp), Nat.zero_add]
      exact ih honly hd (inStep_mapBus (f := fun bus => (bus.request requestor).2) hsame
        (s.bus.freed_request requestor))
    | release requestor =>
      rw [freeCycles, if_neg (by simp), Nat.zero_add]
      exact ih honly hd (inStep_mapBus hsame (s.bus.freed_release requestor))

/-- A machine whose bus nobody else holds comes as far as a processor that runs for as many
cycles. -/
theorem inStep_ticks (h : s.bus.OnlyMemory) (hs : s.bus.holder = none) (hd : d.bus.holder = none)
    (hsame : s.cpu.InStep Port.SameDevices d) (budgets : List ℕ) :
    (s.ticks budgets).cpu.InStep Port.SameDevices (d.tick budgets.sum) := by
  induction budgets generalizing s d with
  | nil => exact hsame
  | cons budget rest ih =>
    have harbitration := sameArbitration_tick h budget
    have htick : (s.tick budget).cpu.InStep Port.SameDevices (d.tick budget) :=
      inStep_tick h (inStep_tickCpu hsame hs hd budget)
    rw [List.sum_cons, Cpu.tick_add]
    exact ih (h.of_sameArbitration harbitration) (harbitration.holder.trans hs)
      ((holder_tickCpu d budget).trans hd) htick

/-- The time that a budget of cycles takes is that of the processor. -/
theorem counters_tick (h : s.bus.OnlyMemory) (budget : ℕ) :
    (s.tick budget).cpu.counters = (s.cpu.tick budget).counters := by
  cases budget with
  | zero => rfl
  | succ cycles =>
    rw [tick_eq_advance h]
    rfl

/-- While nobody else holds the bus no cycle is a stall. -/
theorem spends_tickCpu {c : Cpu MappedBus} (hc : c.bus.holder = none) (budget : ℕ) :
    c.Spends (c.tick budget) budget 0 := by
  induction budget generalizing c with
  | zero => exact .of_counters_eq rfl
  | succ budget ih =>
    have hbus : Bus.cpuHasBus c.bus = true := congrArg Option.isNone hc
    have hcycle := c.spends_cycle
    rw [hbus, if_pos rfl] at hcycle
    have hrest := hcycle.trans (ih ((holder_tickCpu c 1).trans hc))
    rwa [Nat.add_comm] at hrest

/-- As long as nobody else holds the bus there are no stalls. -/
theorem spends_ticks (h : s.bus.OnlyMemory) (hs : s.bus.holder = none) (budgets : List ℕ) :
    s.cpu.Spends (s.ticks budgets).cpu budgets.sum 0 := by
  induction budgets generalizing s with
  | nil => exact .of_counters_eq rfl
  | cons budget rest ih =>
    have harbitration := sameArbitration_tick h budget
    have hfirst : s.cpu.Spends (s.tick budget).cpu budget 0 := by
      have htick := spends_tickCpu hs budget
      constructor
      · rw [counters_tick h, htick.cycles]
      · rw [counters_tick h, htick.stallCycles]
    rw [List.sum_cons]
    exact hfirst.trans (ih (h.of_sameArbitration harbitration) (harbitration.holder.trans hs))

/-- A cycle is counted, and it is a stall if the processor does not have the bus. -/
theorem spends_move (h : s.bus.OnlyMemory) (move : HostMove) :
    ∃ stalls, (if move = .cycle ∧ s.bus.holder = none then 1 else 0) + stalls =
        [move].count .cycle ∧
      s.cpu.Spends (s.move move).cpu ([move].count .cycle) stalls := by
  cases move with
  | cycle =>
    have hcounters : (s.tick 1).cpu.counters = s.cpu.cycle.2.counters := counters_tick h 1
    have hcycle := s.cpu.spends_cycle
    refine ⟨_, ?_, hcounters ▸ hcycle.cycles, hcounters ▸ hcycle.stallCycles⟩
    change _ + (if s.bus.holder.isNone = true then 0 else 1) = 1
    cases s.bus.holder <;> rfl
  | request requestor | release requestor => exact ⟨0, rfl, .of_counters_eq rfl⟩

/-- All cycles that the host lets pass are counted, and those that are not free are stalls. -/
theorem spends_moves (h : s.bus.OnlyMemory) (moves : List HostMove) :
    ∃ stalls, s.freeCycles moves + stalls = moves.count .cycle ∧
      s.cpu.Spends (s.moves moves).cpu (moves.count .cycle) stalls := by
  induction moves generalizing s with
  | nil => exact ⟨0, rfl, .of_counters_eq rfl⟩
  | cons first rest ih =>
    obtain ⟨stalls, hsum, hfirst⟩ := spends_move h first
    obtain ⟨restStalls, hrestSum, hrest⟩ := ih (onlyMemory_move h first)
    have hcount : (first :: rest).count .cycle = [first].count .cycle + rest.count .cycle := by
      rw [← List.singleton_append, List.count_append]
    refine ⟨stalls + restStalls, ?_, ?_⟩
    · rw [freeCycles, hcount]
      omega
    · rw [hcount]
      exact hfirst.trans hrest

/-- Nothing starts a transfer where there is nothing but memory. -/
theorem onlyMemory_invariant : MappedBus.Invariant MappedBus.OnlyMemory where
  devices h hsame := h.of_sameArbitration hsame
  tick port cycles h := by
    rw [h.tick]
    exact h.of_sameArbitration ⟨MappedBus.layout_passTime _ _, rfl, rfl⟩
  reset port h := ⟨(MappedBus.leadsTo_reset port).layout ▸ h.layout, rfl⟩
  request requestor h := h.of_freed_eq (MappedBus.freed_request _ requestor)
  release requestor h := h.of_freed_eq (MappedBus.freed_release _ requestor)

/-- In a machine that a host can come by, no transfer is under way if there is nothing but
memory. -/
theorem Reachable.onlyMemory (h : s.Reachable)
    (hlayout : ∀ slot ∈ s.layout, slot.kind.isMemory = true) : s.bus.OnlyMemory := by
  refine ⟨hlayout, ?_⟩
  induction h with
  | start h => rw [(ofSettings_eq h).2]
  | place _ _ h ih =>
    obtain ⟨-, -, -, rfl⟩ := place_eq_ok.mp h
    rw [layout_append] at hlayout
    exact ih (List.forall_mem_append.mp hlayout).1
  | execute command _ ih =>
    rw [(LeadsTo.execute _ command).build.layout] at hlayout
    exact (invariant_execute onlyMemory_invariant ⟨hlayout, ih hlayout⟩ command).transfer
  | restore _ ht h _ iht =>
    -- What was restored is the state of a machine with nothing but memory as well.
    have hsame := (leadsTo_restore ht.sound h).build.layout
    rw [hsame] at hlayout
    obtain ⟨hvalid, rfl⟩ := restore_eq_ok.mp h
    obtain ⟨-, hbus⟩ := validate_eq_ok.mp hvalid
    obtain ⟨hcount, hall, -⟩ := MappedBus.validate_eq_ok.mp hbus
    refine iht (List.forall_mem_map.mpr (MappedBus.isMemory_of_validateAll ?_ hall ?_))
    · simpa [snapshot, MappedBus.deviceSnapshots] using hcount
    · exact fun m hm => hlayout m.slot (List.mem_map_of_mem hm)

/-- No transfer is under way at the start, or the machine is one that a host can come by. -/
def Starts (s : Machine) : Prop := s.bus.transfer = none ∨ s.Reachable

/-- With nothing but memory the second is a case of the first. -/
theorem Starts.onlyMemory (h : s.Starts)
    (hlayout : ∀ slot ∈ s.layout, slot.kind.isMemory = true) : s.bus.OnlyMemory := by
  rcases h with htransfer | hreachable
  · exact ⟨hlayout, htransfer⟩
  · exact hreachable.onlyMemory hlayout

/-- The moves of a host are hidden from the program: the machine is where it would be after as many
cycles as the processor had the bus, in which nobody else holds it. -/
structure HidesStalls (s : Machine) (moves : List HostMove) (undisturbed : Machine) : Prop where
  /-- The program has come equally far. -/
  program : (s.moves moves).cpu.InStep Port.SameDevices undisturbed.cpu
  /-- All memory is the same. -/
  memory : (s.moves moves).bus.deviceSnapshots = undisturbed.bus.deviceSnapshots
  /-- All cycles are counted, and those without the bus are stalls. -/
  spent : s.cpu.Spends (s.moves moves).cpu (moves.count .cycle)
    (moves.count .cycle - s.freeCycles moves)
  /-- The undisturbed machine counts no stalls. -/
  undisturbed_spent : s.cpu.Spends undisturbed.cpu (s.freeCycles moves) 0

/-- With nothing but memory on the map, a host that takes the bus and gives it back between cycles
does nothing but to delay the program. -/
theorem hidesStalls_ticks (hlayout : ∀ slot ∈ s.layout, slot.kind.isMemory = true)
    (hstart : s.Starts) (moves : List HostMove) {budgets : List ℕ}
    (hbudgets : budgets.sum = s.freeCycles moves) :
    s.HidesStalls moves (s.freed.ticks budgets) := by
  have h := hstart.onlyMemory hlayout
  have hfreed : s.freed.bus.OnlyMemory := h.of_freed_eq rfl
  have hstart : s.cpu.InStep Port.SameDevices s.freed.cpu :=
    ⟨rfl, rfl, rfl, rfl, rfl, rfl, rfl, .of_freed_eq rfl rfl⟩
  have hsame : s.freed.cpu.InStep Port.SameDevices s.freed.cpu :=
    ⟨rfl, rfl, rfl, rfl, rfl, rfl, rfl, .refl _⟩
  have hmoves := inStep_moves h rfl hstart moves
  have hticks := inStep_ticks hfreed rfl rfl hsame budgets
  rw [hbudgets] at hticks
  have hport := hmoves.port.trans hticks.port.symm
  obtain ⟨stalls, hsum, hspent⟩ := spends_moves h moves
  have hundisturbed := spends_ticks hfreed rfl budgets
  constructor
  · exact hmoves.of_common hticks hport
  · exact hport.deviceSnapshots_eq
  · rwa [← hsum, Nat.add_sub_cancel_left, hsum]
  · rw [← hbudgets]
    exact ⟨hundisturbed.cycles, hundisturbed.stallCycles⟩

/-- A machine at the start of a program in its ROM that counts up in its RAM. -/
def counting : Machine :=
  { cpu :=
      { settings := {}
        regs := { pc := 0xFF00, p := Status.unused }
        bus := { mappings := [
          { start := 0x0000, finish := 0x0000, device := .ram #[7] },
          { start := 0xFF00, finish := 0xFF02, device := .rom #[0xE6, 0x00, 0xEA] }] } }
    quantum := 1
    quantum_pos := Nat.one_pos }

/-- A host takes the bus in the middle of the first instruction, and again before it is complete. -/
def interfere : List HostMove :=
  [.cycle, .request "host", .cycle, .cycle, .release "host", .cycle, .cycle, .request "host",
    .cycle, .release "cpu", .cycle, .release "host", .cycle, .cycle]

/-- Four cycles are stalls, and after five others the instruction is complete. -/
theorem hidesStalls_interfere :
    (∀ slot ∈ counting.layout, slot.kind.isMemory = true) ∧ counting.Starts ∧
      [2, 0, 3].sum = counting.freeCycles interfere ∧
      ((counting.freed.ticks [2, 0, 3]).bus.mappings.map (·.device.snapshot) =
        [.memory #[8], .memory #[0xE6, 0x00, 0xEA]]) ∧
      counting.HidesStalls interfere (counting.freed.ticks [2, 0, 3]) := by
  have hlayout : ∀ slot ∈ counting.layout, slot.kind.isMemory = true := by decide
  have hstart : counting.Starts := .inl rfl
  have hbudgets : [2, 0, 3].sum = counting.freeCycles interfere := by decide
  exact ⟨hlayout, hstart, hbudgets, by decide,
    hidesStalls_ticks hlayout hstart interfere hbudgets⟩

/-- A transfer for the RAM, which has not asked for it: the byte `0xE6` is to be copied there from
the ROM. -/
def unasked : TransferProgress := ⟨0, ⟨0xFF00, 0x0000, 1⟩, 0, none⟩

/-- The state with that transfer is accepted. Then the host takes the bus, and in two cycles, both
of them stalls, the byte in the RAM changes. -/
theorem not_hidesStalls_of_restore :
    ∃ t, counting.restore (counting.snapshot.withTransfer unasked) = .ok t ∧
      (∀ slot ∈ t.layout, slot.kind.isMemory = true) ∧
      t.freeCycles [.request "host", .cycle, .cycle] = 0 ∧
      ¬ t.HidesStalls [.request "host", .cycle, .cycle] (t.freed.ticks []) := by
  let t := counting.apply (counting.snapshot.withTransfer unasked)
  have hchanged : (t.moves [.request "host", .cycle, .cycle]).bus.deviceSnapshots ≠
      (t.freed.ticks []).bus.deviceSnapshots := by decide
  exact ⟨t, rfl, by decide, by decide, fun hhides => hchanged hhides.memory⟩

end Machine

end W65C02
