import W65C02.Interrupt.Lines
import W65C02.Word

/-!
# The interval timer

A sixteen-bit counter that runs down once per device clock and starts again from a latch. An
underflow raises a flag and, if that is enabled, requests an interrupt; in one-shot mode it
also stops the counter. Four registers give access to it: the low and high byte of the
counter (written: of the latch), the control register, and the status.
-/

namespace W65C02

namespace Timer

/-- Control bit: the counter runs. -/
def run : UInt8 := 0x01

/-- Control bit: an underflow requests an interrupt. -/
def irqEnable : UInt8 := 0x02

/-- Control bit: the counter goes on after an underflow. -/
def continuous : UInt8 := 0x04

/-- Status bit: there has been an underflow. -/
def underflowStatus : UInt8 := 0x80

/-- The control bits that exist. -/
def controlBits : UInt8 := run ||| irqEnable ||| continuous

end Timer

/-- The registers of a timer. -/
structure TimerRegisters where
  /-- Where the counter starts again. -/
  latch : UInt16 := 0xFFFF
  /-- The clocks until the next underflow. -/
  counter : UInt16 := 0xFFFF
  /-- The control register. -/
  control : UInt8 := 0
  /-- Whether there has been an underflow that is not acknowledged. -/
  underflow : Bool := false
  deriving DecidableEq

/-- A timer that requests interrupts under a name. -/
structure IntervalTimer extends TimerRegisters where
  /-- The name of the device and of its interrupt source. -/
  name : String
  deriving DecidableEq

namespace IntervalTimer

/-- How many addresses the registers take. -/
def size : Nat := 4

/-- A stopped timer. -/
def create (name : String) : IntervalTimer := { name }

/-- Whether the counter runs. -/
def isRunning (t : IntervalTimer) : Bool := t.control &&& Timer.run != 0

/-- Lowers the flag and releases the interrupt request. -/
def acknowledge (t : IntervalTimer) (lines : Lines) : IntervalTimer × Lines :=
  ({ t with underflow := false }, lines.release t.name .irq)

/-- One clock of the device. -/
def countDown (t : IntervalTimer) (lines : Lines) : IntervalTimer × Lines :=
  if !t.isRunning then (t, lines)
  else if t.counter > 0 then ({ t with counter := t.counter - 1 }, lines)
  else
    ({ t with
        underflow := true
        counter := t.latch
        control :=
          if t.control &&& Timer.continuous == 0 then t.control &&& ~~~Timer.run
          else t.control },
      if t.control &&& Timer.irqEnable != 0 then lines.request t.name .irq else lines)

/-- A number of clocks. -/
def tick (t : IntervalTimer) (lines : Lines) : Nat → IntervalTimer × Lines
  | 0 => (t, lines)
  | clocks + 1 =>
    let (t, lines) := t.countDown lines
    t.tick lines clocks

/-- It makes no difference how a number of clocks is split. -/
theorem tick_add (t : IntervalTimer) (lines : Lines) (m n : Nat) :
    t.tick lines (m + n) = (t.tick lines m).1.tick (t.tick lines m).2 n := by
  induction m generalizing t lines with
  | zero => rw [Nat.zero_add]; rfl
  | succ m ih => rw [Nat.succ_add]; exact ih (t.countDown lines).1 (t.countDown lines).2

/-- Stops the timer and gives its registers their initial values. -/
def reset (t : IntervalTimer) (lines : Lines) : IntervalTimer × Lines :=
  { t with latch := 0xFFFF, counter := 0xFFFF, control := 0 }.acknowledge lines

/-- Reads a register. Reading the status acknowledges the underflow that it reports. -/
def read (t : IntervalTimer) (lines : Lines) (offset : UInt16) :
    UInt8 × IntervalTimer × Lines :=
  if offset = 0 then (lowByte t.counter, t, lines)
  else if offset = 1 then (highByte t.counter, t, lines)
  else if offset = 2 then (t.control, t, lines)
  else if offset = 3 then
    (if t.underflow then Timer.underflowStatus else 0, t.acknowledge lines)
  else (0xFF, t, lines)

/-- Writes the control register. Starting a stopped timer loads the counter. -/
def setControl (t : IntervalTimer) (value : UInt8) : IntervalTimer :=
  { t with
    control := value &&& Timer.controlBits
    counter := if value &&& Timer.run != 0 && !t.isRunning then t.latch else t.counter }

/-- Writes a register. Writing the status acknowledges an underflow. -/
def write (t : IntervalTimer) (lines : Lines) (offset : UInt16) (value : UInt8) :
    IntervalTimer × Lines :=
  if offset = 0 then ({ t with latch := setLowByte t.latch value }, lines)
  else if offset = 1 then ({ t with latch := setHighByte t.latch value }, lines)
  else if offset = 2 then (t.setControl value, lines)
  else if offset = 3 then t.acknowledge lines
  else (t, lines)

end IntervalTimer

end W65C02
