import W65C02.Proofs.Bus.OnlyMemory
import W65C02.Proofs.Cpu.Simulation

/-!
# Maps that are tiled with RAM

Where RAM is mapped at every address the bus finds the same as in plain memory, however the address
space is cut into pieces. An access goes to one device, at an offset that the device has, so a write
is never lost and shows up at its own address only.
-/

namespace W65C02

/-- The address space is cut into pieces of RAM, each of which has a device that is large enough.
The pieces may come in any order, and if they meet then the first one counts. -/
structure TiledByRam (layout : List Slot) : Prop where
  /-- All devices are RAM. -/
  kind : ∀ slot ∈ layout, slot.kind = .ram
  /-- No range is longer than its device. -/
  fits : ∀ slot ∈ layout, slot.finish.toNat - slot.start.toNat < slot.size
  /-- No address is left out. -/
  covers : ∀ address, ∃ slot ∈ layout, slot.contains address = true

/-- Inside a RAM all bytes can be written. -/
theorem Device.writable_cell {device : Device} (hkind : device.kind = .ram) {offset : UInt16}
    (hinside : offset.toNat < device.capacity) : (device.cell offset).writable = true := by
  cases device with
  | ram bytes => exact decide_eq_true hinside
  | rom | timer | dma | cpu => cases hkind

/-- An address in the range of a mapping has an offset inside it. -/
theorem Mapping.toNat_offset_le {m : Mapping} {address : UInt16}
    (h : m.contains address = true) :
    (address - m.start).toNat ≤ m.finish.toNat - m.start.toNat := by
  obtain ⟨hstart, hfinish⟩ := of_decide_eq_true h
  rw [UInt16.toNat_sub_of_le _ _ hstart]
  exact Nat.sub_le_sub_right (UInt16.le_iff_toNat_le.mp hfinish) _

namespace MappedBus

/-- What holds of all bytes that devices offer holds of what the bus finds, if an address is mapped
and no range is longer than its device. -/
theorem cellIn_of_fits {holds : Cell → Prop} {address : UInt16} {mappings : List Mapping}
    (hholds : ∀ m ∈ mappings, ∀ offset : UInt16, offset.toNat < m.device.capacity →
      holds (m.device.cell offset))
    (hfits : ∀ m ∈ mappings, m.finish.toNat - m.start.toNat < m.device.capacity)
    (hmapped : ∃ m ∈ mappings, m.contains address = true) : holds (cellIn address mappings) := by
  induction mappings with
  | nil =>
    obtain ⟨m, hm, -⟩ := hmapped
    cases hm
  | cons m rest ih =>
    obtain ⟨hfirst, hrest⟩ := List.forall_mem_cons.mp hholds
    obtain ⟨hfit, hfits⟩ := List.forall_mem_cons.mp hfits
    unfold cellIn
    by_cases hhere : m.contains address = true
    · rw [if_pos hhere]
      exact hfirst _ (Nat.lt_of_le_of_lt (Mapping.toNat_offset_le hhere) hfit)
    · rw [if_neg hhere]
      refine ih hrest hfits ?_
      obtain ⟨other, hother, hcontains⟩ := hmapped
      rcases List.mem_cons.mp hother with rfl | hlater
      · exact absurd hcontains hhere
      · exact ⟨other, hlater, hcontains⟩

/-- What holds of all cells of the devices holds at each address. -/
theorem cells_of_tiled (holds : Cell → Prop) {bus : MappedBus} (h : TiledByRam bus.layout)
    (hholds : ∀ m ∈ bus.mappings, ∀ offset : UInt16, offset.toNat < m.device.capacity →
      holds (m.device.cell offset)) (address : UInt16) : holds (bus.cells address) := by
  refine cellIn_of_fits hholds (List.forall_mem_map.mp h.fits) ?_
  obtain ⟨slot, hslot, hcontains⟩ := h.covers address
  obtain ⟨m, hm, rfl⟩ := List.mem_map.mp hslot
  exact ⟨m, hm, hcontains⟩

/-- All addresses of a tiled map can be written. -/
theorem writable_cells {bus : MappedBus} (h : TiledByRam bus.layout) (address : UInt16) :
    (bus.cells address).writable = true :=
  cells_of_tiled (·.writable = true) h
    (fun m hm _ => Device.writable_cell (h.kind m.slot (List.mem_map_of_mem hm))) address

end MappedBus

namespace TiledByRam

/-- A tiled address space has nothing but memory. -/
theorem isMemory {layout : List Slot} (h : TiledByRam layout) :
    ∀ slot ∈ layout, slot.kind.isMemory = true := by
  intro slot hslot
  rw [h.kind slot hslot]
  rfl

/-- A read shows the byte and does nothing else. -/
theorem read {port : Port MappedBus} (h : TiledByRam port.bus.layout) (address : UInt16) :
    port.read address = ((port.bus.cells address).value, port) :=
  MappedBus.read_of_offersMemory fun slot hslot _ => h.isMemory slot hslot

end TiledByRam

/-- A map that is tiled with RAM shows the bytes of a memory. -/
structure Port.Shows (port : Port MappedBus) (m : Memory) : Prop where
  /-- RAM is mapped everywhere. -/
  tiled : TiledByRam port.bus.layout
  /-- The bytes are the same. -/
  bytes : ∀ address, (port.bus.cells address).value = m.read address

namespace Port.Shows

variable {port : Port MappedBus} {m : Memory}

/-- A read finds the byte of the memory that shows, and does nothing else. -/
theorem read (h : port.Shows m) (address : UInt16) : port.read address = (m.read address, port) := by
  rw [h.tiled.read, h.bytes]

/-- A write shows up at its own address and nowhere else. -/
theorem write (h : port.Shows m) (address : UInt16) (value : UInt8) :
    (port.write address value).Shows (m.write address value) := by
  have hsame := MappedBus.sameArbitration_write address value port
  refine ⟨hsame.layout ▸ h.tiled, fun other => ?_⟩
  rw [MappedBus.cells_write, Memory.read_write]
  by_cases hhere : other = address
  · subst hhere
    rw [if_pos rfl, Cells.put, if_pos rfl, Cell.write, if_pos (MappedBus.writable_cells h.tiled _)]
  · rw [Cells.put, if_neg hhere, if_neg (Ne.symm hhere), h.bytes]

end Port.Shows

/-- A map that is tiled with RAM and that nobody else uses shows the same bytes as plain memory. -/
structure Port.Mirrors (p : Port MappedBus) (q : Port Memory) : Prop where
  /-- The lines are the same. -/
  lines : p.lines = q.lines
  /-- RAM is mapped everywhere. -/
  tiled : TiledByRam p.bus.layout
  /-- Nobody else holds the bus. -/
  holder : p.bus.holder = none
  /-- No transfer is under way. -/
  transfer : p.bus.transfer = none
  /-- The bytes are the same. -/
  bytes : ∀ address, (p.bus.cells address).value = q.bus.read address

namespace Port.Mirrors

variable {p : Port MappedBus} {q : Port Memory}

/-- A port that mirrors plain memory has nothing but memory on the map. -/
theorem onlyMemory (h : p.Mirrors q) : p.bus.OnlyMemory := ⟨h.tiled.isMemory, h.transfer⟩

/-- The memory that it mirrors shows at a port. -/
theorem shows (h : p.Mirrors q) : p.Shows q.bus := ⟨h.tiled, h.bytes⟩

/-- The same byte is read on both sides. -/
theorem read (h : p.Mirrors q) (address : UInt16) :
    p.read address = (q.bus.read address, p) :=
  h.shows.read address

/-- A write is seen on both sides. -/
theorem write (h : p.Mirrors q) (address : UInt16) (value : UInt8) :
    (p.write address value).Mirrors (q.write address value) := by
  have hsame := MappedBus.sameArbitration_write address value p
  have hlines := h.onlyMemory.lines_write address value
  have hwrite := h.shows.write address value
  exact ⟨hlines.trans h.lines, hwrite.tiled, hsame.holder.trans h.holder,
    hsame.transfer.trans h.transfer, hwrite.bytes⟩

/-- The devices get their clocks and do not notice. -/
theorem tick (h : p.Mirrors q) (cycles : ℕ) : (MappedBus.tick p cycles).Mirrors q := by
  rw [h.onlyMemory.tick]
  refine ⟨h.lines, ?_, h.holder, h.transfer, fun address => ?_⟩
  · rw [MappedBus.layout_passTime]
    exact h.tiled
  · rw [MappedBus.cells_passTime]
    exact h.bytes address

/-- A map of RAM and plain memory do the same at every access. -/
theorem simulation : Bus.Simulation Port.Mirrors where
  lines_eq h := h.lines
  cpuHasBus_eq h := congrArg Option.isNone h.holder
  read_fst h := by rw [h.read]; rfl
  read_snd h := by rw [h.read]; exact h
  write h := h.write _ _
  setLines lines h := ⟨rfl, h.tiled, h.holder, h.transfer, h.bytes⟩

end Port.Mirrors

end W65C02
