import W65C02.Proofs.Bus.Mastership
import W65C02.Proofs.Bus.Phases

/-!
# Memory as the bus sees it

At each address the bus finds a byte of some memory, or none. What is found at all addresses is
the view that a program or a transfer has of memory, whatever devices it is kept in. A write
replaces the byte at its own address if that lies in RAM, and nothing else moves a byte but the
devices that keep their own registers there.
-/

namespace W65C02

/-- What the bus finds of memory at an address. -/
structure Cell where
  /-- The byte that is read. -/
  value : UInt8
  /-- Whether a write replaces it. -/
  writable : Bool
  deriving DecidableEq

namespace Cell

/-- What is found where there is no memory. -/
def absent : Cell := ⟨MappedBus.unmapped, false⟩

/-- A byte is written; it is lost if the cell cannot be written. -/
def write (cell : Cell) (value : UInt8) : Cell :=
  if cell.writable then { cell with value } else cell

/-- A cell that cannot be written keeps its value. -/
theorem write_of_not_writable {cell : Cell} (h : cell.writable = false) (value : UInt8) :
    cell.write value = cell := by
  simp only [write, h, Bool.false_eq_true, if_false]

end Cell

/-- What the bus finds of memory at all addresses. -/
abbrev Cells := UInt16 → Cell

/-- A byte is written to an address. -/
def Cells.put (cells : Cells) (address : UInt16) (value : UInt8) : Cells := fun other =>
  if other = address then (cells other).write value else cells other

/-- Whether a device of this kind is a memory. -/
def DeviceKind.isMemory : DeviceKind → Bool
  | ram | rom => true
  | timer | dma | cpu => false

namespace Device

/-- What a device has of memory at an offset. The registers of a timer or a DMA controller are no
memory, and neither is what lies behind a processor of its own. -/
def cell (offset : UInt16) : Device → Cell
  | ram bytes => ⟨MemoryBytes.read bytes offset, offset.toNat < bytes.size⟩
  | rom bytes => ⟨MemoryBytes.read bytes offset, false⟩
  | timer _ | dma _ | cpu _ => .absent

variable (device : Device) (lines : Lines)

/-- Clocks change no byte that a program can see in a memory. -/
theorem cell_tick (clocks : ℕ) (other : UInt16) :
    (device.tick lines clocks).1.cell other = device.cell other := by
  cases device <;> rfl

/-- Neither does the end of a transfer. -/
theorem cell_completeTransfer (other : UInt16) :
    (device.completeTransfer lines).1.cell other = device.cell other := by
  cases device <;> rfl

/-- A write replaces the byte at its offset if that is inside a RAM. -/
theorem cell_write (offset : UInt16) (value : UInt8) (other : UInt16) :
    (device.write lines offset value).1.cell other =
      if other = offset then (device.cell other).write value else device.cell other := by
  cases device with
  | ram bytes =>
    by_cases hsame : other = offset
    · subst hsame
      by_cases hinside : other.toNat < bytes.size
      · simp [write, cell, Cell.write, MemoryBytes.write, MemoryBytes.read, hinside]
      · simp [write, cell, Cell.write, MemoryBytes.write, MemoryBytes.read, hinside]
    · have hother : offset.toNat ≠ other.toNat := fun h => hsame (UInt16.toNat_inj.mp h).symm
      simp [write, cell, MemoryBytes.write, MemoryBytes.read, hsame, hother]
  | rom | timer | dma | cpu =>
    rw [Cell.write_of_not_writable rfl, ite_self]
    rfl

/-- Reading a memory shows the byte and does nothing else. -/
theorem read_of_isMemory {device : Device} (h : device.kind.isMemory = true) (lines : Lines)
    (offset : UInt16) : device.read lines offset = ((device.cell offset).value, device, lines) := by
  cases device with
  | ram bytes | rom bytes => rfl
  | timer | dma | cpu => cases h

end Device

/-- Machine clocks leave the bytes of a memory as they are. -/
theorem Mapping.cell_tick (m : Mapping) (lines : Lines) (cycles : ℕ) (offset : UInt16) :
    (m.tick lines cycles).1.device.cell offset = m.device.cell offset := by
  unfold tick
  simp only
  split
  · rfl
  · exact m.device.cell_tick lines _ offset

/-- Whether an address lies in the range of a slot. -/
def Slot.contains (slot : Slot) (address : UInt16) : Bool :=
  decide (slot.start ≤ address ∧ address ≤ slot.finish)

/-- No device but memory is mapped at an address. -/
def OffersMemory (layout : List Slot) (address : UInt16) : Prop :=
  ∀ slot ∈ layout, slot.contains address = true → slot.kind.isMemory = true

instance (layout : List Slot) (address : UInt16) : Decidable (OffersMemory layout address) :=
  inferInstanceAs (Decidable (∀ slot ∈ layout, slot.contains address = true →
    slot.kind.isMemory = true))

namespace MappedBus

/-- What the first of some mappings that holds an address has of memory there. -/
def cellIn (address : UInt16) : List Mapping → Cell
  | [] => .absent
  | m :: rest =>
    if m.contains address then m.device.cell (address - m.start) else cellIn address rest

/-- What the bus finds of memory at all addresses. -/
def cells (bus : MappedBus) : Cells := fun address => cellIn address bus.mappings

/-- The cells stay if each mapping keeps its range and its bytes. -/
theorem cellIn_cons {m m' : Mapping} {mappings mappings' : List Mapping} {address : UInt16}
    (hcontains : m'.contains address = m.contains address) (hstart : m'.start = m.start)
    (hdevice : ∀ offset, m'.device.cell offset = m.device.cell offset)
    (hrest : cellIn address mappings' = cellIn address mappings) :
    cellIn address (m' :: mappings') = cellIn address (m :: mappings) := by
  simp only [cellIn, hcontains, hstart, hdevice, hrest]

/-- Machine clocks change no cell of the map. -/
theorem cellIn_tickAll (cycles : ℕ) (other : UInt16) (mappings : List Mapping) (lines : Lines) :
    cellIn other (tickAll cycles mappings lines).1 = cellIn other mappings := by
  induction mappings generalizing lines with
  | nil => rfl
  | cons m rest ih => exact cellIn_cons rfl rfl (m.cell_tick lines cycles) (ih _)

/-- The end of a transfer changes no cell of the map. -/
theorem cellIn_completeAt (place : ℕ) (other : UInt16) (mappings : List Mapping) (lines : Lines) :
    cellIn other (completeAt place mappings lines).1 = cellIn other mappings := by
  induction mappings generalizing place with
  | nil => cases place <;> rfl
  | cons m rest ih =>
    cases place with
    | zero => exact cellIn_cons rfl rfl (m.device.cell_completeTransfer lines) rfl
    | succ place => exact cellIn_cons rfl rfl (fun _ => rfl) (ih place)

/-- A write is lost where there is no RAM. Else it replaces the byte at its address, and no other:
two addresses of one mapping have different offsets. -/
theorem cellIn_writeTo (address : UInt16) (value : UInt8) (mappings : List Mapping)
    (lines : Lines) (other : UInt16) :
    cellIn other (writeTo address value mappings lines).1 =
      Cells.put (cellIn · mappings) address value other := by
  have hput (cells : Cells) (hne : other ≠ address) :
      cells.put address value other = cells other := if_neg hne
  induction mappings with
  | nil => exact (ite_self _).symm
  | cons m rest ih =>
    have hoffset : other - m.start = address - m.start ↔ other = address := UInt16.sub_left_inj _
    unfold writeTo
    by_cases hhere : m.contains address = true
    · by_cases hother : m.contains other = true
      · have hwrite := m.device.cell_write lines (address - m.start) value (other - m.start)
        simp only [hoffset] at hwrite
        simp only [if_pos hhere, Cells.put, cellIn, if_pos hother]
        exact (if_pos hother).trans hwrite
      · rw [hput _ fun h => hother (h ▸ hhere)]
        simp only [if_pos hhere, cellIn, if_neg hother]
        exact if_neg hother
    · by_cases hother : m.contains other = true
      · rw [hput _ fun h => hhere (h ▸ hother)]
        simp only [if_neg hhere, cellIn, if_pos hother]
      · simp only [if_neg hhere, Cells.put, cellIn, if_neg hother]
        exact ih

variable {port : Port MappedBus}

/-- On the map a write puts a byte into one cell, if that can be written. -/
theorem cells_write (port : Port MappedBus) (address : UInt16) (value : UInt8) :
    (port.write address value).bus.cells = port.bus.cells.put address value :=
  funext fun other => cellIn_writeTo address value port.bus.mappings port.lines other

/-- Where nothing but memory is mapped a read shows the byte and does nothing else. -/
theorem read_of_offersMemory {address : UInt16} (h : OffersMemory port.bus.layout address) :
    port.read address = ((port.bus.cells address).value, port) := by
  have hread (mappings : List Mapping) (h : OffersMemory (mappings.map (·.slot)) address) :
      readFrom address mappings port.lines =
        ((cellIn address mappings).value, mappings, port.lines) := by
    induction mappings with
    | nil => rfl
    | cons m rest ih =>
      obtain ⟨hfirst, hrest⟩ := List.forall_mem_cons.mp h
      unfold readFrom cellIn
      by_cases hhere : m.contains address = true
      · have hmemory := Device.read_of_isMemory (hfirst hhere) port.lines (address - m.start)
        simp only [if_pos hhere, Mapping.read, hmemory]
      · simp only [if_neg hhere, ih hrest]
  have hport : port.read address =
      ((readFrom address port.bus.mappings port.lines).1,
        ⟨⟨(readFrom address port.bus.mappings port.lines).2.1, port.bus.holder,
          port.bus.transfer⟩, (readFrom address port.bus.mappings port.lines).2.2⟩) := rfl
  rw [hport, hread port.bus.mappings h]
  rfl

/-- Where nothing but memory is mapped a write leaves all other devices alone. -/
theorem getElem?_write {address : UInt16} (h : OffersMemory port.bus.layout address)
    (value : UInt8) {place : ℕ} {m : Mapping} (hm : port.bus.mappings[place]? = some m)
    (hkind : m.device.kind.isMemory = false) :
    (port.write address value).bus.mappings[place]? = some m := by
  have hwrite (mappings : List Mapping) (h : OffersMemory (mappings.map (·.slot)) address)
      (place : ℕ) (hm : mappings[place]? = some m) :
      (writeTo address value mappings port.lines).1[place]? = some m := by
    induction mappings generalizing place with
    | nil => cases hm
    | cons first rest ih =>
      obtain ⟨hfirst, hrest⟩ := List.forall_mem_cons.mp h
      unfold writeTo
      by_cases hhere : first.contains address = true
      · cases place with
        | zero =>
          obtain rfl := Option.some.inj hm
          cases (hfirst hhere).symm.trans hkind
        | succ place =>
          rw [if_pos hhere]
          exact hm
      · rw [if_neg hhere]
        cases place with
        | zero => exact hm
        | succ place => exact ih hrest place hm
  exact hwrite port.bus.mappings h place hm

end MappedBus

end W65C02
