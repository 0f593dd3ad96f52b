import W65C02.Error
import W65C02.Interrupt.Lines

/-!
# Settings

Where the processor finds its vectors, how its registers start, and how finely the
clock is divided. Every field has a customary default.
-/

namespace W65C02

/-- The settings of one processor. -/
structure CpuSettings where
  /-- Where the address of the reset routine is stored. -/
  resetVector : UInt16 := 0xFFFC
  /-- Where the address of the routine for IRQ and `BRK` is stored. -/
  irqVector : UInt16 := 0xFFFE
  /-- Where the address of the NMI routine is stored. -/
  nmiVector : UInt16 := 0xFFFA
  /-- The stack pointer at power-on. -/
  initialS : UInt8 := 0xFD
  /-- The status byte at power-on. -/
  initialP : UInt8 := 0x34
  deriving DecidableEq

namespace CpuSettings

/-- The vector that belongs to a line. -/
def vectorOf (settings : CpuSettings) : Line → UInt16
  | .reset => settings.resetVector
  | .nmi => settings.nmiVector
  | .irq => settings.irqVector

/-- A vector takes two bytes, so it cannot start at the last address. -/
def checkVector (target : String) (address : UInt16) : Except OutOfRange Unit :=
  if address = 0xFFFF then .error ⟨target, address.toNat, 0, 0xFFFE⟩ else .ok ()

/-- Checks the three vectors, the reset vector first. -/
def validate (settings : CpuSettings) : Except OutOfRange Unit := do
  checkVector "reset_vector" settings.resetVector
  checkVector "irq_vector" settings.irqVector
  checkVector "nmi_vector" settings.nmiVector

end CpuSettings

/-- The settings of the clock. -/
structure ClockSettings where
  /-- The largest number of cycles between two visits to the devices. -/
  quantum : UInt32 := 1
  deriving DecidableEq

/-- A quantum has at least one cycle. -/
def ClockSettings.validate (settings : ClockSettings) : Except OutOfRange Unit :=
  if settings.quantum = 0 then .error ⟨"quantum", 0, 1, 0xFFFFFFFF⟩ else .ok ()

/-- Settings that pass the check have a quantum of one cycle at least. -/
theorem ClockSettings.quantum_pos (settings : ClockSettings) (h : settings.validate = .ok ()) :
    0 < settings.quantum.toNat := by
  apply Nat.pos_of_ne_zero
  intro hzero
  have : settings.quantum = 0 := UInt32.toNat_inj.mp hzero
  simp [validate, this] at h

end W65C02
