import W65C02.Proofs.Bus.Cells

/-!
# Maps with nothing but memory

Memory does not keep time, and it never asks for the bus. On a map with nothing else time leaves no
trace, and who holds the bus makes no difference to the devices.
-/

namespace W65C02

namespace Device

/-- Memory does not keep time, and it does not ask for transfers. -/
theorem idle_of_isMemory {device : Device} (h : device.kind.isMemory = true) :
    device.kind.keepsTime = false ∧ device.transferRequest = none := by
  cases device with
  | ram bytes | rom bytes => exact ⟨rfl, rfl⟩
  | timer timer | dma controller | cpu cpu => cases h

/-- A write to a memory does not move the lines. -/
theorem lines_write_of_isMemory {device : Device} (h : device.kind.isMemory = true)
    (lines : Lines) (offset : UInt16) (value : UInt8) :
    (device.write lines offset value).2 = lines := by
  cases device with
  | ram bytes | rom bytes => rfl
  | timer | dma | cpu => cases h

/-- Only memory has states that memory accepts. -/
theorem isMemory_of_validate {device other : Device}
    (h : device.validate other.snapshot = .ok ()) (hmemory : device.kind.isMemory = true) :
    other.kind.isMemory = true := by
  cases device with
  | ram bytes | rom bytes =>
    cases other with
    | ram saved | rom saved => rfl
    | timer timer | dma controller | cpu cpu => cases h
  | timer timer | dma controller | cpu cpu => cases hmemory

end Device

namespace Mapping

/-- The mapping after machine clocks that its device does not notice. -/
def passTime (cycles : ℕ) (m : Mapping) : Mapping :=
  { m with residue := m.total cycles % m.divider }

end Mapping

namespace MappedBus

/-- Nothing but memory is mapped, and nothing is transferred. -/
structure OnlyMemory (bus : MappedBus) : Prop where
  /-- All devices are memories. -/
  layout : ∀ slot ∈ bus.layout, slot.kind.isMemory = true
  /-- No transfer is under way. None of the devices asks for one. -/
  transfer : bus.transfer = none

/-- The map after machine clocks that its devices do not notice. -/
def passTime (cycles : ℕ) (bus : MappedBus) : MappedBus :=
  { bus with mappings := bus.mappings.map (·.passTime cycles) }

/-- The map with the bus given back to the processor. -/
def freed (bus : MappedBus) : MappedBus := { bus with holder := none }

/-- Where no device keeps time, machine clocks only move what is left over. -/
theorem tickAll_of_not_keepsTime (cycles : ℕ) {mappings : List Mapping}
    (h : ∀ m ∈ mappings, m.device.kind.keepsTime = false) (lines : Lines) :
    tickAll cycles mappings lines = (mappings.map (·.passTime cycles), lines) := by
  induction mappings with
  | nil => rfl
  | cons first rest ih =>
    obtain ⟨hfirst, hrest⟩ := List.forall_mem_cons.mp h
    simp only [tickAll, Mapping.tick_of_not_keepsTime hfirst, ih hrest]
    rfl

/-- Time that passes moves no device. -/
theorem layout_passTime (bus : MappedBus) (cycles : ℕ) :
    (bus.passTime cycles).layout = bus.layout := by
  unfold layout passTime
  rw [List.map_map]
  rfl

/-- Time that passes leaves the bytes as they are. -/
theorem cells_passTime (bus : MappedBus) (cycles : ℕ) :
    (bus.passTime cycles).cells = bus.cells := by
  have hmappings (address : UInt16) (mappings : List Mapping) :
      cellIn address (mappings.map (·.passTime cycles)) = cellIn address mappings := by
    induction mappings with
    | nil => rfl
    | cons m rest ih => exact cellIn_cons rfl rfl (fun _ => rfl) ih
  exact funext fun address => hmappings address bus.mappings

/-- A list of memories accepts the states of memories only. -/
theorem isMemory_of_validateAll {mappings others : List Mapping}
    (hlength : others.length = mappings.length)
    (h : validateAll mappings (others.map (·.snapshot)) = .ok ())
    (hmemory : ∀ m ∈ mappings, m.device.kind.isMemory = true) :
    ∀ m ∈ others, m.device.kind.isMemory = true := by
  induction mappings generalizing others with
  | nil =>
    obtain rfl := List.length_eq_zero_iff.mp hlength
    exact List.forall_mem_nil _
  | cons first rest ih =>
    cases others with
    | nil => exact List.forall_mem_nil _
    | cons other others =>
      obtain ⟨hfirst, hrest⟩ := validateAll_cons_eq_ok.mp h
      obtain ⟨hmemoryFirst, hmemoryRest⟩ := List.forall_mem_cons.mp hmemory
      have hdevice := (Mapping.validate_eq_ok.mp hfirst).2
      exact List.forall_mem_cons.mpr ⟨Device.isMemory_of_validate hdevice hmemoryFirst,
        ih (Nat.succ.inj hlength) hrest hmemoryRest⟩

namespace OnlyMemory

variable {bus bus' : MappedBus}

/-- Whether there is nothing but memory depends on the arbitration and the layout only. -/
theorem of_sameArbitration (h : bus.OnlyMemory) (hsame : bus.SameArbitration bus') :
    bus'.OnlyMemory := by
  constructor
  · rw [hsame.layout]
    exact h.layout
  · rw [hsame.transfer]
    exact h.transfer

/-- It does not matter who holds the bus. -/
theorem of_freed_eq (h : bus.OnlyMemory) (hfreed : bus'.freed = bus.freed) : bus'.OnlyMemory := by
  have hlayout : bus'.freed.layout = bus.freed.layout := by rw [hfreed]
  have htransfer : bus'.freed.transfer = bus.freed.transfer := by rw [hfreed]
  constructor
  · change ∀ slot ∈ bus'.freed.layout, _
    rw [hlayout]
    exact h.layout
  · exact htransfer.trans h.transfer

/-- A memory does not keep time and never asks for a transfer. -/
theorem device (h : bus.OnlyMemory) {m : Mapping} (hm : m ∈ bus.mappings) :
    m.device.kind.keepsTime = false ∧ m.device.transferRequest = none :=
  Device.idle_of_isMemory (h.layout m.slot (List.mem_map_of_mem hm))

/-- On a map with nothing but memory nothing happens while time passes. -/
theorem tick {port : Port MappedBus} (h : port.bus.OnlyMemory) (cycles : ℕ) :
    MappedBus.tick port cycles = { port with bus := port.bus.passTime cycles } := by
  have hidle : ∀ m ∈ port.bus.mappings, m.device.transferRequest = none := fun m hm =>
    (h.device hm).2
  have htick := tickAll_of_not_keepsTime cycles (fun m hm => (h.device hm).1) port.lines
  rw [tick_of_idle h.transfer hidle, htick]
  rfl

/-- A write to a memory moves no line. -/
theorem lines_write {port : Port MappedBus} (h : port.bus.OnlyMemory)
    (address : UInt16) (value : UInt8) : (port.write address value).lines = port.lines := by
  have hwrite (mappings : List Mapping) (h : ∀ m ∈ mappings, m.device.kind.isMemory = true) :
      (writeTo address value mappings port.lines).2 = port.lines := by
    induction mappings with
    | nil => rfl
    | cons m rest ih =>
      obtain ⟨hfirst, hrest⟩ := List.forall_mem_cons.mp h
      unfold writeTo
      split
      · exact Device.lines_write_of_isMemory hfirst port.lines (address - m.start) value
      · exact ih hrest
  exact hwrite port.bus.mappings (List.forall_mem_map.mp h.layout)

/-- Nor does the time that has passed make a difference. -/
theorem dropPhases_passTime (h : bus.OnlyMemory) (cycles : ℕ) :
    (bus.passTime cycles).dropPhases = bus.dropPhases := by
  have hmappings : (bus.mappings.map (·.passTime cycles)).map (·.dropPhase) =
      bus.mappings.map (·.dropPhase) := by
    rw [List.map_map]
    refine List.map_congr_left fun m hm => ?_
    have hkeeps := (h.device hm).1
    simp only [Function.comp_apply, Mapping.dropPhase, Mapping.passTime, hkeeps,
      Bool.false_eq_true, if_false]
  simp only [dropPhases, passTime, hmappings]

end OnlyMemory

/-- A request changes nothing but the holder. -/
theorem freed_request (bus : MappedBus) (requestor : String) :
    (bus.request requestor).2.freed = bus.freed := by
  unfold request
  cases bus.holder with
  | some holder => rfl
  | none =>
    simp only
    split <;> rfl

/-- Giving the bus back changes nothing but the holder. -/
theorem freed_release (bus : MappedBus) (requestor : String) :
    (bus.release requestor).freed = bus.freed := by
  unfold release
  split <;> rfl

end MappedBus

/-- Two worlds that differ in nothing but the holder of the bus and the phases of clocks that make
no difference. -/
def Port.SameDevices (p q : Port MappedBus) : Prop :=
  ({ p with bus := p.bus.freed } : Port MappedBus).SamePhases { q with bus := q.bus.freed }

namespace Port.SameDevices

variable {p q r : Port MappedBus}

/-- A port has the same devices as itself. -/
theorem refl (p : Port MappedBus) : p.SameDevices p := rfl

/-- The relation is symmetric. -/
theorem symm (h : p.SameDevices q) : q.SameDevices p := Eq.symm h

/-- The relation is transitive. -/
theorem trans (h : p.SameDevices q) (h' : q.SameDevices r) : p.SameDevices r := Eq.trans h h'

/-- Ports that agree but for what is left over have the same devices. -/
theorem of_samePhases (h : p.SamePhases q) : p.SameDevices q :=
  h.of_commute (f := fun port => { port with bus := port.bus.freed }) fun _ => rfl

/-- With the bus free on both sides only the phases may differ. -/
theorem samePhases_iff (hp : p.bus.holder = none) (hq : q.bus.holder = none) :
    p.SameDevices q ↔ p.SamePhases q := by
  have hfreed {bus : MappedBus} (h : bus.holder = none) : bus.freed = bus := by
    unfold MappedBus.freed
    rw [← h]
  rw [SameDevices, hfreed hp, hfreed hq]

/-- Whoever holds the bus, the devices are the same. -/
theorem of_freed_eq (hlines : p.lines = q.lines) (hbus : p.bus.freed = q.bus.freed) :
    p.SameDevices q := by
  unfold SameDevices
  rw [hlines, hbus]
  rfl

/-- Time that passes on a map with nothing but memory leaves no trace. -/
theorem tick (h : p.bus.OnlyMemory) (cycles : ℕ) : (MappedBus.tick p cycles).SameDevices p := by
  refine of_samePhases ?_
  rw [h.tick, SamePhases, dropPhases, h.dropPhases_passTime]
  rfl

/-- The contents of the memories are the same. -/
theorem deviceSnapshots_eq (h : p.SameDevices q) :
    p.bus.deviceSnapshots = q.bus.deviceSnapshots := by
  have hfreed := Port.SamePhases.deviceSnapshots_eq (p := ⟨p.bus.freed, p.lines⟩)
    (q := ⟨q.bus.freed, q.lines⟩) h
  exact hfreed

end Port.SameDevices

end W65C02
