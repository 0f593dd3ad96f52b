import W65C02.Bus

/-!
# Recording accesses

A traced bus passes every access on to another bus and, while recording is switched on,
writes down the kind of access, the address and the byte.
-/

namespace W65C02

/-- The direction of an access. -/
inductive Direction where
  | read
  | write
  deriving DecidableEq

/-- One access to a bus. -/
structure Access where
  /-- Whether the byte was read or written. -/
  direction : Direction
  /-- Where. -/
  address : UInt16
  /-- The byte that was read or written. -/
  value : UInt8
  deriving DecidableEq

/-- A bus with a record of the accesses to it. -/
structure Traced (β : Type) where
  /-- The bus that answers. -/
  inner : β
  /-- The recorded accesses, oldest first. -/
  log : Array Access := #[]
  /-- Whether accesses are recorded. -/
  recording : Bool := true

namespace Traced

variable {β : Type}

/-- Switches recording on or off. -/
def setRecording (t : Traced β) (recording : Bool) : Traced β := { t with recording }

/-- Forgets what was recorded. -/
def clear (t : Traced β) : Traced β := { t with log := #[] }

/-- The record with one more access, if recording is on. -/
def note (log : Array Access) (recording : Bool) (access : Access) : Array Access :=
  if recording then log.push access else log

/-- How many recorded accesses have a given kind and address. -/
def count (t : Traced β) (direction : Direction) (address : UInt16) : Nat :=
  t.log.foldl (fun n a => if a.direction = direction ∧ a.address = address then n + 1 else n) 0

/-- Reads through to the inner bus, then records. -/
def readThrough [Bus β] (address : UInt16) : Port (Traced β) → UInt8 × Port (Traced β)
  | ⟨⟨inner, log, recording⟩, lines⟩ =>
    let (value, ⟨inner, lines⟩) := (Port.mk inner lines).read address
    (value, ⟨⟨inner, note log recording ⟨.read, address, value⟩, recording⟩, lines⟩)

/-- Writes through to the inner bus, then records. -/
def writeThrough [Bus β] (address : UInt16) (value : UInt8) :
    Port (Traced β) → Port (Traced β)
  | ⟨⟨inner, log, recording⟩, lines⟩ =>
    let ⟨inner, lines⟩ := (Port.mk inner lines).write address value
    ⟨⟨inner, note log recording ⟨.write, address, value⟩, recording⟩, lines⟩

end Traced

instance {β : Type} [Bus β] : Bus (Traced β) where
  read := Traced.readThrough
  write := Traced.writeThrough
  cpuHasBus t := Bus.cpuHasBus t.inner

end W65C02
