import W65C02.Proofs.Machine.Commands

/-!
# A reset forgets the past

All that a reset leaves is what memory holds. Devices go back to their initial state, their clocks
start anew, the bus is free, and the processor starts from its settings and its reset vector. That
vector is read before the lines are put to rest, but what is read does not depend on them. So
machines of one build whose memories hold the same cannot be told apart after a reset, whatever has
happened to them before.
-/

namespace W65C02

/-- What a memory holds. Other devices hold nothing that a reset would keep. -/
def Device.memory? : Device → Option (Array UInt8)
  | ram bytes | rom bytes => some bytes
  | timer _ | dma _ | cpu _ => none

namespace Device

/-- What is read from a device, and what becomes of it, does not depend on the lines. -/
theorem read_of_lines (device : Device) (offset : UInt16) (lines other : Lines) :
    (device.read lines offset).1 = (device.read other offset).1 ∧
      (device.read lines offset).2.1 = (device.read other offset).2.1 := by
  cases device with
  | ram bytes | rom bytes | cpu c => exact ⟨rfl, rfl⟩
  | timer t =>
    unfold read IntervalTimer.read
    split_ifs <;> exact ⟨rfl, rfl⟩
  | dma d =>
    unfold read DmaController.read
    split_ifs <;> exact ⟨rfl, rfl⟩

/-- After a reset devices of one kind and name differ in nothing but what memory holds. -/
theorem reset_eq_of_memory {device other : Device} (hkind : device.kind = other.kind)
    (hname : device.name = other.name) (hmemory : device.memory? = other.memory?)
    (hplain : device.kind ≠ .cpu) (lines lines' : Lines) :
    (device.reset lines).1 = (other.reset lines').1 := by
  cases device with
  | ram bytes =>
    cases other with
    | ram bytes' => exact congrArg ram (Option.some.inj hmemory)
    | rom | timer | dma | cpu => cases hkind
  | rom bytes =>
    cases other with
    | rom bytes' => exact congrArg rom (Option.some.inj hmemory)
    | ram | timer | dma | cpu => cases hkind
  | timer t =>
    cases other with
    | timer t' =>
      have hsame : t.name = t'.name := hname
      simp only [reset, IntervalTimer.reset, IntervalTimer.acknowledge, hsame]
    | ram | rom | dma | cpu => cases hkind
  | dma d =>
    cases other with
    | dma d' => exact congrArg (fun name => dma (.create name)) hname
    | ram | rom | timer | cpu => cases hkind
  | cpu c => exact absurd rfl hplain

end Device

/-- The same holds of devices in their places. -/
theorem Mapping.reset_eq_of_memory {m n : Mapping} (hslot : m.slot = n.slot)
    (hmemory : m.device.memory? = n.device.memory?) (hplain : m.device.kind ≠ .cpu)
    (lines lines' : Lines) : (m.reset lines).1 = (n.reset lines').1 := by
  obtain ⟨start, finish, device, divider, residue⟩ := m
  obtain ⟨start', finish', device', divider', residue'⟩ := n
  simp only [Mapping.slot, Slot.mk.injEq] at hslot
  obtain ⟨hname, rfl, rfl, hkind, -, rfl⟩ := hslot
  have hdevice := Device.reset_eq_of_memory hkind hname hmemory hplain lines lines'
  exact congrArg (Mapping.mk start finish · divider 0) hdevice

namespace MappedBus

/-- What the memories hold, in mapping order. -/
def memories (bus : MappedBus) : List (Option (Array UInt8)) :=
  bus.mappings.map (·.device.memory?)

/-- After a reset, devices of the same layout with the same memories are the same. -/
theorem resetAll_eq_of_memories {mappings others : List Mapping}
    (hslots : mappings.map (·.slot) = others.map (·.slot))
    (hmemories : mappings.map (·.device.memory?) = others.map (·.device.memory?))
    (hplain : ∀ m ∈ mappings, m.device.kind ≠ .cpu) (lines lines' : Lines) :
    (resetAll mappings lines).1 = (resetAll others lines').1 := by
  induction mappings generalizing others lines lines' with
  | nil =>
    obtain rfl := List.map_eq_nil_iff.mp hslots.symm
    rfl
  | cons m rest ih =>
    cases others with
    | nil => cases hslots
    | cons n others =>
      obtain ⟨hslot, hslots⟩ := List.cons.inj hslots
      obtain ⟨hmemory, hmemories⟩ := List.cons.inj hmemories
      obtain ⟨hfirst, hrest⟩ := List.forall_mem_cons.mp hplain
      exact congrArg₂ List.cons (Mapping.reset_eq_of_memory hslot hmemory hfirst lines lines')
        (ih hslots hmemories hrest (m.reset lines).2 (n.reset lines').2)

/-- What is read from the devices does not depend on the lines, -/
theorem readFrom_of_lines (address : UInt16) (mappings : List Mapping) (lines other : Lines) :
    (readFrom address mappings lines).1 = (readFrom address mappings other).1 ∧
      (readFrom address mappings lines).2.1 = (readFrom address mappings other).2.1 := by
  induction mappings with
  | nil => exact ⟨rfl, rfl⟩
  | cons m rest ih =>
    unfold readFrom
    split
    · obtain ⟨hvalue, hdevice⟩ := m.device.read_of_lines (address - m.start) lines other
      exact ⟨hvalue, congrArg (fun device => { m with device } :: rest) hdevice⟩
    · exact ⟨ih.1, congrArg (m :: ·) ih.2⟩

end MappedBus

namespace Port

/-- What is read from the bus, and what becomes of the bus, does not depend on the lines. -/
theorem read_of_bus {p q : Port MappedBus} (h : p.bus = q.bus) (address : UInt16) :
    (p.read address).1 = (q.read address).1 ∧ (p.read address).2.bus = (q.read address).2.bus := by
  obtain ⟨bus, lines⟩ := p
  obtain ⟨_, other⟩ := q
  obtain rfl := h
  obtain ⟨hvalue, hmappings⟩ := MappedBus.readFrom_of_lines address bus.mappings lines other
  exact ⟨hvalue, congrArg (MappedBus.mk · bus.holder bus.transfer) hmappings⟩

/-- so a pointer is read alike from the same map. -/
theorem readPointer_of_bus {p q : Port MappedBus} (h : p.bus = q.bus) (address : UInt16) :
    (p.readPointer address).1 = (q.readPointer address).1 ∧
      (p.readPointer address).2.bus = (q.readPointer address).2.bus := by
  obtain ⟨hlow, hbus⟩ := read_of_bus h address
  obtain ⟨hhigh, hbus'⟩ := read_of_bus hbus (address + 1)
  exact ⟨congrArg₂ wordOfBytes hlow hhigh, hbus'⟩

end Port

/-- A reset of the processor leaves nothing but its settings and its bus. -/
theorem Cpu.reset_of_bus {c d : Cpu MappedBus} (hsettings : c.settings = d.settings)
    (hbus : c.bus = d.bus) : c.reset.Matches Eq d.reset := by
  obtain ⟨hpointer, hread⟩ := Port.readPointer_of_bus (p := c.port) (q := d.port) hbus
    d.settings.resetVector
  refine ⟨hsettings, ?_, rfl, rfl, rfl, ?_⟩
  · change { Registers.powerOn c.settings.initialS c.settings.initialP with
        pc := (c.port.readPointer c.settings.resetVector).1 } =
      { Registers.powerOn d.settings.initialS d.settings.initialP with
        pc := (d.port.readPointer d.settings.resetVector).1 }
    rw [hsettings, hpointer]
  · change Port.mk (c.port.readPointer c.settings.resetVector).2.bus Lines.idle =
      Port.mk (d.port.readPointer d.settings.resetVector).2.bus Lines.idle
    rw [hsettings, hread]

namespace Machine

variable {s t : Machine}

/-- Machines of one build agree after a reset, if their memories hold the same. -/
theorem agrees_reset (hbuild : s.SameBuild t) (hplain : ∀ slot ∈ s.layout, slot.kind ≠ .cpu)
    (hmemories : s.bus.memories = t.bus.memories) : s.reset.Agrees t.reset := by
  have hmappings := MappedBus.resetAll_eq_of_memories hbuild.layout hmemories
    (fun m hm => hplain m.slot (List.mem_map_of_mem hm)) s.cpu.port.lines t.cpu.port.lines
  have hbus : (s.mapPort MappedBus.reset).bus = (t.mapPort MappedBus.reset).bus :=
    congrArg (MappedBus.mk · none none) hmappings
  -- The lines may still differ here, and are put to rest only after the vector has been read.
  have hcpu := Cpu.reset_of_bus (c := (s.mapPort MappedBus.reset).cpu)
    (d := (t.mapPort MappedBus.reset).cpu) hbuild.settings hbus
  refine ⟨⟨hcpu.settings, hcpu.regs, hcpu.runMode, hcpu.inFlight, hcpu.counters, ?_⟩,
    hbuild.quantum⟩
  exact congrArg Port.dropPhases hcpu.port

/-- A reset erases the past. Machines of one build whose memories hold the same are in the same
state after a reset, whatever each of them did before, and they answer alike from then on. -/
theorem reset_erases_past (hbuild : s.SameBuild t)
    (hplain : ∀ slot ∈ s.layout, slot.kind ≠ .cpu) (hmemories : s.bus.memories = t.bus.memories) :
    s.reset.snapshot = t.reset.snapshot ∧
      ∀ commands, s.reset.execution commands = t.reset.execution commands := by
  have hagrees := agrees_reset hbuild hplain hmemories
  exact ⟨hagrees.snapshot_eq, hagrees.execution_eq⟩

/-- A machine with two bytes of memory, a timer with a slow clock, and a DMA controller. -/
def furnished : Machine :=
  create.mapBus fun bus =>
    { bus with
      mappings := [
        { start := 0x0000, finish := 0x0001, device := .ram #[0xEA, 0xCB] },
        { start := 0xD000, finish := 0xD003, device := .timer (.create "timer"), divider := 3 },
        { start := 0xD010, finish := 0xD015, device := .dma (.create "dma") }] }

/-- A timer is started, a source asks for attention, a transfer takes the bus in the middle of an
instruction. -/
def disturbed : Machine :=
  let s := (furnished.execute (.write 0xD002 0x07)).2
  let s := (s.execute (.request "host" .nmi)).2
  let s := (s.execute (.write 0xD015 0x03)).2
  (s.execute (.tick 2)).2

/-- The two machines are of the same build. -/
theorem sameBuild_disturbed : furnished.SameBuild disturbed := by
  have hwrite := LeadsTo.execute furnished (.write 0xD002 0x07)
  have hrequest := hwrite.trans (LeadsTo.execute _ (.request "host" .nmi))
  have hstart := hrequest.trans (LeadsTo.execute _ (.write 0xD015 0x03))
  exact (hstart.trans (LeadsTo.execute _ (.tick 2))).build.symm

/-- A reset in the middle of an instruction and of a transfer leaves nothing of either. -/
theorem reset_erases_transfer :
    furnished.SameBuild disturbed ∧ (∀ slot ∈ furnished.layout, slot.kind ≠ .cpu) ∧
      furnished.bus.memories = disturbed.bus.memories ∧
      disturbed.bus.transfer.isSome = true ∧ disturbed.cpu.atBoundary = false ∧
      furnished.reset.snapshot = disturbed.reset.snapshot ∧
      ∀ commands, furnished.reset.execution commands = disturbed.reset.execution commands := by
  have hplain : ∀ slot ∈ furnished.layout, slot.kind ≠ .cpu := by decide
  have hmemories : furnished.bus.memories = disturbed.bus.memories := by decide
  exact ⟨sameBuild_disturbed, hplain, hmemories, by decide, by decide,
    reset_erases_past sameBuild_disturbed hplain hmemories⟩

end Machine

end W65C02
