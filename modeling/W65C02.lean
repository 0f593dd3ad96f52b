import W65C02.Proofs.Bus.Acceptance
import W65C02.Proofs.Bus.AddressMap
import W65C02.Proofs.Cpu.Acceptance
import W65C02.Proofs.Cpu.Atomic
import W65C02.Proofs.Cpu.BinaryNumbers
import W65C02.Proofs.Cpu.CycleTotals
import W65C02.Proofs.Cpu.DecimalNumbers
import W65C02.Proofs.Cpu.Halting
import W65C02.Proofs.Cpu.Masking
import W65C02.Proofs.Cpu.Reachable
import W65C02.Proofs.Cpu.ReadModifyWrite
import W65C02.Proofs.Cpu.ResetSequence
import W65C02.Proofs.Cpu.StatusBits
import W65C02.Proofs.Cpu.Termination
import W65C02.Proofs.Cpu.Traffic
import W65C02.Proofs.Cpu.Transparency
import W65C02.Proofs.Device.TimerRequests
import W65C02.Proofs.Device.TransferRequests
import W65C02.Proofs.Emulator.ProgramStart
import W65C02.Proofs.Instruction.AddressArithmetic
import W65C02.Proofs.Instruction.Stack
import W65C02.Proofs.Interrupt.History
import W65C02.Proofs.Json.Snapshot
import W65C02.Proofs.Machine.ClockPhase
import W65C02.Proofs.Machine.DeviceClocks
import W65C02.Proofs.Machine.Overflow
import W65C02.Proofs.Machine.Reset
import W65C02.Proofs.Machine.StepTermination
import W65C02.Proofs.Machine.Tiling
import W65C02.Proofs.Machine.Transfer
