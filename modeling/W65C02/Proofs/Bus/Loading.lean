import W65C02.Proofs.Bus.Tiling

/-!
# Storing bytes in a row

Bytes that are stored at consecutive addresses may be more than there are addresses, and they wrap
around at the end. Then a cell is written several times, and the last byte that was meant for it
stays. A map that is tiled with RAM takes them like plain memory does.
-/

namespace W65C02

/-- Counting from the next address is counting one further. -/
theorem offset_succ (address : UInt16) (i : ℕ) :
    address + 1 + UInt16.ofNat i = address + UInt16.ofNat (i + 1) := by
  rw [UInt16.ofNat_add, UInt16.add_assoc, UInt16.add_comm 1]
  rfl

namespace Memory

variable {address : UInt16} {values : List UInt8}

/-- A cell for which no byte was meant keeps its own. -/
theorem read_load_of_ne (m : Memory) {other : UInt16}
    (h : ∀ i < values.length, address + UInt16.ofNat i ≠ other) :
    (m.load address values).read other = m.read other := by
  induction values generalizing m address with
  | nil => rfl
  | cons value rest ih =>
    have hfirst : address ≠ other := by simpa using h 0 (Nat.succ_pos _)
    have hrest : ∀ i < rest.length, address + 1 + UInt16.ofNat i ≠ other := fun i hi => by
      rw [offset_succ]
      exact h (i + 1) (Nat.succ_lt_succ hi)
    rw [load, ih _ hrest, read_write, if_neg hfirst]

/-- A cell holds the last byte that was meant for it. -/
theorem read_load_of_last (m : Memory) {i : ℕ} (hi : i < values.length)
    (hlast : ∀ j < values.length, i < j → address + UInt16.ofNat j ≠ address + UInt16.ofNat i) :
    (m.load address values).read (address + UInt16.ofNat i) = values[i] := by
  induction values generalizing m address i with
  | nil => cases hi
  | cons value rest ih =>
    cases i with
    | zero =>
      have hrest : ∀ j < rest.length,
          address + 1 + UInt16.ofNat j ≠ address + UInt16.ofNat 0 := fun j hj => by
        rw [offset_succ]
        exact hlast (j + 1) (Nat.succ_lt_succ hj) (Nat.succ_pos j)
      have hhere : address = address + UInt16.ofNat 0 := (UInt16.add_zero address).symm
      rw [load, read_load_of_ne _ hrest, read_write, if_pos hhere]
      rfl
    | succ i =>
      have hi : i < rest.length := Nat.lt_of_succ_lt_succ hi
      rw [← offset_succ, load]
      refine ih _ hi fun j hj hij => ?_
      rw [offset_succ, offset_succ]
      exact hlast (j + 1) (Nat.succ_lt_succ hj) (Nat.succ_lt_succ hij)

end Memory

namespace Port.Shows

variable {port : Port MappedBus} {m : Memory}

/-- Where a memory shows, its pointers are read. -/
theorem readPointer (h : port.Shows m) (address : UInt16) :
    port.readPointer address =
      (wordOfBytes (m.read address) (m.read (address + 1)), port) := by
  simp only [Port.readPointer, Port.readPair, h.read]

/-- Bytes that are written through a port are loaded into the memory that shows there. -/
theorem writeAll (h : port.Shows m) (address : UInt16) (values : List UInt8) :
    (port.writeAll address values).Shows (m.load address values) := by
  induction values generalizing port m address with
  | nil => exact h
  | cons value rest ih => exact ih (h.write address value) (address + 1)

end Port.Shows

/-- Bytes that are written through a port are loaded into the memory that it mirrors. -/
theorem Port.Mirrors.writeAll {port : Port MappedBus} {m : Memory} {lines : Lines}
    (h : port.Mirrors ⟨m, lines⟩) (address : UInt16) (values : List UInt8) :
    (port.writeAll address values).Mirrors ⟨m.load address values, lines⟩ := by
  induction values generalizing port m address with
  | nil => exact h
  | cons value rest ih => exact ih (h.write address value) (address + 1)

/-- A reset keeps all bytes of a memory. -/
theorem Device.cell_reset (device : Device) (lines : Lines) (other : UInt16) :
    (device.reset lines).1.cell other = device.cell other := by
  cases device <;> rfl

namespace MappedBus

/-- A reset of all devices keeps all cells of the map. -/
theorem cellIn_resetAll (other : UInt16) (mappings : List Mapping) (lines : Lines) :
    cellIn other (resetAll mappings lines).1 = cellIn other mappings := by
  induction mappings generalizing lines with
  | nil => rfl
  | cons m rest ih => exact cellIn_cons rfl rfl (m.device.cell_reset lines) (ih _)

/-- A reset leaves the bytes of all memories as they are. -/
theorem cells_reset (port : Port MappedBus) : (reset port).bus.cells = port.bus.cells :=
  funext fun other => cellIn_resetAll other port.bus.mappings port.lines

end MappedBus

/-- So the memory that is shown survives it. -/
theorem Port.Shows.reset {port : Port MappedBus} {m : Memory} (h : port.Shows m) :
    (MappedBus.reset port).Shows m := by
  refine ⟨(MappedBus.leadsTo_reset port).layout ▸ h.tiled, fun address => ?_⟩
  rw [MappedBus.cells_reset]
  exact h.bytes address

end W65C02
