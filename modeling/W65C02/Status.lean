/-!
# The status byte

The processor keeps six flags in the status byte `P`. Bit 4 tells a pushed copy made
by software from one made by an interrupt, and bit 5 is set at all times.
-/

namespace W65C02.Status

/-- Carry out of an addition; absence of borrow after a subtraction or comparison. -/
def carry : UInt8 := 0x01

/-- The last result was zero. -/
def zero : UInt8 := 0x02

/-- Maskable interrupt requests are held off. -/
def irqDisable : UInt8 := 0x04

/-- Additions and subtractions work on packed decimal digits. -/
def decimal : UInt8 := 0x08

/-- Marks a status byte that was pushed by software. -/
def brk : UInt8 := 0x10

/-- The bit without a meaning; it is always set. -/
def unused : UInt8 := 0x20

/-- Signed overflow of the last addition or subtraction. -/
def overflow : UInt8 := 0x40

/-- Bit 7 of the last result. -/
def negative : UInt8 := 0x80

end W65C02.Status
