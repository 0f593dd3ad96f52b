import W65C02.Hexadecimal

/-!
# Reasons for refusing

Three kinds of request can be refused: writing a value that does not fit, mapping a
device where it does not belong, and taking over a snapshot that no machine of this
layout could hold. Each cause is a constructor of its own, and its wording is one
function beside the type.
-/

namespace W65C02

/-- A value lies outside the inclusive range that its target accepts. -/
structure OutOfRange where
  /-- What was to be set. -/
  target : String
  /-- The value that was offered. -/
  value : Nat
  /-- The smallest accepted value. -/
  min : Nat
  /-- The largest accepted value. -/
  max : Nat
  deriving DecidableEq

/-- The wording of a range error, with all three numbers in base sixteen. -/
def OutOfRange.message (e : OutOfRange) : String :=
  e.target ++ " value 0x" ++ Hexadecimal.numeral e.value ++ " is outside 0x" ++
    Hexadecimal.numeral e.min ++ "..=0x" ++ Hexadecimal.numeral e.max

/-- Why a device cannot be placed on the address map. -/
inductive MappingError where
  /-- The new range meets one that is already taken. -/
  | overlap (newStart newEnd existingStart existingEnd : UInt16)
  /-- The range is reversed, or longer than the device. -/
  | invalidRange (start finish : UInt16) (deviceSize : Nat)
  deriving DecidableEq

/-- The wording of a mapping error. -/
def MappingError.message : MappingError → String
  | .overlap newStart newEnd existingStart existingEnd =>
    "Device address range overlap: " ++ Hexadecimal.addressRange newStart newEnd ++
      " overlaps existing " ++ Hexadecimal.addressRange existingStart existingEnd
  | .invalidRange start finish deviceSize =>
    "Invalid device range " ++ Hexadecimal.addressRange start finish ++
      " for a device of " ++ toString deviceSize ++ " bytes"

/-- What can be wrong with a single field of a snapshot. -/
inductive FieldFlaw where
  /-- The status byte lacks the bit that is always set. -/
  | statusBitClear
  /-- An instruction is in flight although it has used no cycle. -/
  | nothingElapsed
  /-- More cycles have elapsed than the instruction takes. -/
  | elapsedPastTotal
  /-- An instruction waits to retire, but its length is not known. -/
  | retiringWithoutTotal
  /-- More operand bytes were fetched than the opcode has. -/
  | fetchedPastOperand
  /-- An interrupt sequence uses another vector than that of its line. -/
  | foreignVector
  /-- A timer's control register has bits that no timer stores. -/
  | timerControlBits
  /-- A transfer is under way and finished at once. -/
  | busyAndDone
  /-- The running transfer belongs to no mapped device. -/
  | transferOwner
  /-- The running transfer is past its own end. -/
  | transferIndex
  deriving DecidableEq

/-- The path of the field that a flaw concerns. -/
def FieldFlaw.field : FieldFlaw → String
  | .statusBitClear => "registers.p"
  | .nothingElapsed => "context.elapsed"
  | .elapsedPastTotal => "context.elapsed"
  | .retiringWithoutTotal => "context.total"
  | .fetchedPastOperand => "context.fetched"
  | .foreignVector => "context.kind"
  | .timerControlBits => "timer.control"
  | .busyAndDone => "dma.done"
  | .transferOwner => "bus.dma.owner"
  | .transferIndex => "bus.dma.index"

/-- The rule that a flaw breaks. -/
def FieldFlaw.reason : FieldFlaw → String
  | .statusBitClear => "bit 5 must be set"
  | .nothingElapsed => "an in-flight context has spent at least one cycle"
  | .elapsedPastTotal => "exceeds the instruction's total cycles"
  | .retiringWithoutTotal => "a retiring context must know its cycle count"
  | .fetchedPastOperand => "more operand bytes than the opcode's addressing mode takes"
  | .foreignVector => "vector address does not match the configured vector"
  | .timerControlBits => "undefined control bits set"
  | .busyAndDone => "a transfer cannot be busy and done at once"
  | .transferOwner => "no device at that index"
  | .transferIndex => "past the end of the transfer"

/-- Why a snapshot cannot be taken over. -/
inductive SnapshotError where
  /-- The snapshot describes another device than the one that is to take it. -/
  | deviceMismatch (expected found : String)
  /-- The snapshot holds another number of bytes than the memory. -/
  | sizeMismatch (expected found : Nat)
  /-- One field has a value that no running machine produces. -/
  | invalidField (flaw : FieldFlaw)
  /-- The snapshot lists another number of devices than are mapped. -/
  | deviceCount (expected found : Nat)
  deriving DecidableEq

/-- The wording of a refused snapshot. -/
def SnapshotError.message : SnapshotError → String
  | .deviceMismatch expected found => "State is for " ++ found ++ ", expected " ++ expected
  | .sizeMismatch expected found =>
    "State holds " ++ toString found ++ " bytes, device has " ++ toString expected
  | .invalidField flaw => "Invalid state field " ++ flaw.field ++ ": " ++ flaw.reason
  | .deviceCount expected found =>
    "State has " ++ toString found ++ " devices, system has " ++ toString expected

end W65C02
