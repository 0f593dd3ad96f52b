import W65C02.Bus

/-!
# Memory

The simplest bus: 65536 bytes that can all be read and written, and no other master.
-/

namespace W65C02

/-- The number of addresses. -/
abbrev addressSpace : Nat := 65536

/-- A byte for each address. -/
structure Memory where
  /-- The bytes in the order of their addresses. -/
  cells : Vector UInt8 addressSpace
  deriving DecidableEq

namespace Memory

/-- Memory filled with zeros. -/
def zeros : Memory := ⟨Vector.replicate addressSpace 0⟩

instance : Inhabited Memory := ⟨zeros⟩

/-- The byte at an address. -/
def read (m : Memory) (address : UInt16) : UInt8 :=
  have : address.toNat < addressSpace := UInt16.toNat_lt address
  m.cells[address.toNat]

/-- Replaces the byte at an address. -/
def write (m : Memory) (address : UInt16) (value : UInt8) : Memory :=
  ⟨m.cells.set address.toNat value (UInt16.toNat_lt address)⟩

/-- Stores bytes at consecutive addresses, wrapping at the end of the address space. -/
def load (m : Memory) (address : UInt16) : List UInt8 → Memory
  | [] => m
  | value :: rest => (m.write address value).load (address + 1) rest

/-- A cell holds what was written to it, and a write leaves all other cells alone. -/
theorem read_write (m : Memory) (a b : UInt16) (v : UInt8) :
    (m.write a v).read b = if a = b then v else m.read b := by
  simp only [read, write, Vector.getElem_set, UInt16.toNat_inj]

/-- Cleared memory is zero everywhere. -/
@[simp] theorem read_zeros (a : UInt16) : zeros.read a = 0 := by
  simp [read, zeros]

/-- Two memories with the same readings are equal. -/
theorem ext_read {m n : Memory} (h : ∀ a, m.read a = n.read a) : m = n := by
  have hcells : m.cells = n.cells := Vector.ext fun i hi => by
    have hi' := h (UInt16.ofNat i)
    simpa [read, Nat.mod_eq_of_lt hi] using hi'
  cases m
  cases n
  exact congrArg Memory.mk hcells

end Memory

instance : Bus Memory where
  read address port := (port.bus.read address, port)
  write address value port := ⟨port.bus.write address value, port.lines⟩
  cpuHasBus _ := true

end W65C02
