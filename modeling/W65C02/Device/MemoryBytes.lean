import W65C02.Word

/-!
# Memory devices

The contents of a RAM or ROM are an array of bytes of any size. Offsets outside it read as
`$FF` and ignore writes.
-/

namespace W65C02.MemoryBytes

/-- The byte at an offset. -/
def read (bytes : Array UInt8) (offset : UInt16) : UInt8 := bytes.getD offset.toNat 0xFF

/-- Replaces the byte at an offset. -/
def write (bytes : Array UInt8) (offset : UInt16) (value : UInt8) : Array UInt8 :=
  bytes.setIfInBounds offset.toNat value

/-- Replaces bytes from an offset on; what does not fit is left out. -/
def load (bytes : Array UInt8) (offset : Nat) : List UInt8 → Array UInt8
  | [] => bytes
  | value :: rest => load (bytes.setIfInBounds offset value) (offset + 1) rest

end W65C02.MemoryBytes
