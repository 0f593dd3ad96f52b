import W65C02.Registers

/-!
# Operations

What an instruction does, apart from where it finds its operand. Branches carry their
condition, and the single-bit instructions the number of their bit.
-/

namespace W65C02

/-- What a conditional branch tests. -/
inductive Condition where
  | plus
  | minus
  | overflowClear
  | overflowSet
  | carryClear
  | carrySet
  | notEqual
  | equal
  deriving DecidableEq

/-- Whether a condition holds of the status byte. -/
def Registers.meets (r : Registers) : Condition → Bool
  | .plus => !r.flag Status.negative
  | .minus => r.flag Status.negative
  | .overflowClear => !r.flag Status.overflow
  | .overflowSet => r.flag Status.overflow
  | .carryClear => !r.flag Status.carry
  | .carrySet => r.flag Status.carry
  | .notEqual => !r.flag Status.zero
  | .equal => r.flag Status.zero

/-- The condition that the opcode of a conditional branch tests. -/
def Condition.ofOpcode? (opcode : UInt8) : Option Condition :=
  if opcode = 0x10 then some .plus
  else if opcode = 0x30 then some .minus
  else if opcode = 0x50 then some .overflowClear
  else if opcode = 0x70 then some .overflowSet
  else if opcode = 0x90 then some .carryClear
  else if opcode = 0xB0 then some .carrySet
  else if opcode = 0xD0 then some .notEqual
  else if opcode = 0xF0 then some .equal
  else none

/-- Whether an opcode is a conditional branch that would be taken. -/
def Registers.takesBranch (r : Registers) (opcode : UInt8) : Bool :=
  match Condition.ofOpcode? opcode with
  | some condition => r.meets condition
  | none => false

/-- What an instruction does. -/
inductive Operation where
  /-- Add with carry. -/
  | adc
  /-- Bitwise and. -/
  | and
  /-- Shift left. -/
  | asl
  /-- Branch if a bit of a cell is clear. -/
  | bbr (n : Fin 8)
  /-- Branch if a bit of a cell is set. -/
  | bbs (n : Fin 8)
  /-- Test bits against the accumulator. -/
  | bit
  /-- Branch always. -/
  | bra
  /-- Branch if a condition holds. -/
  | branch (condition : Condition)
  /-- Interrupt by software. -/
  | brk
  /-- Clear carry. -/
  | clc
  /-- Clear decimal mode. -/
  | cld
  /-- Clear the interrupt mask. -/
  | cli
  /-- Clear overflow. -/
  | clv
  /-- Compare with the accumulator. -/
  | cmp
  /-- Compare with `X`. -/
  | cpx
  /-- Compare with `Y`. -/
  | cpy
  /-- Decrement. -/
  | dec
  /-- Decrement `X`. -/
  | dex
  /-- Decrement `Y`. -/
  | dey
  /-- Bitwise exclusive or. -/
  | eor
  /-- Increment. -/
  | inc
  /-- Increment `X`. -/
  | inx
  /-- Increment `Y`. -/
  | iny
  /-- Jump. -/
  | jmp
  /-- Call a subroutine. -/
  | jsr
  /-- Load the accumulator. -/
  | lda
  /-- Load `X`. -/
  | ldx
  /-- Load `Y`. -/
  | ldy
  /-- Shift right. -/
  | lsr
  /-- Do nothing. -/
  | nop
  /-- Bitwise or. -/
  | ora
  /-- Push the accumulator. -/
  | pha
  /-- Push the status byte. -/
  | php
  /-- Push `X`. -/
  | phx
  /-- Push `Y`. -/
  | phy
  /-- Pull the accumulator. -/
  | pla
  /-- Pull the status byte. -/
  | plp
  /-- Pull `X`. -/
  | plx
  /-- Pull `Y`. -/
  | ply
  /-- Clear a bit of a cell. -/
  | rmb (n : Fin 8)
  /-- Rotate left through carry. -/
  | rol
  /-- Rotate right through carry. -/
  | ror
  /-- Return from an interrupt. -/
  | rti
  /-- Return from a subroutine. -/
  | rts
  /-- Subtract with borrow. -/
  | sbc
  /-- Set carry. -/
  | sec
  /-- Set decimal mode. -/
  | sed
  /-- Set the interrupt mask. -/
  | sei
  /-- Set a bit of a cell. -/
  | smb (n : Fin 8)
  /-- Store the accumulator. -/
  | sta
  /-- Stop until reset. -/
  | stp
  /-- Store `X`. -/
  | stx
  /-- Store `Y`. -/
  | sty
  /-- Store zero. -/
  | stz
  /-- Copy the accumulator to `X`. -/
  | tax
  /-- Copy the accumulator to `Y`. -/
  | tay
  /-- Clear the accumulator's bits in a cell. -/
  | trb
  /-- Set the accumulator's bits in a cell. -/
  | tsb
  /-- Copy the stack pointer to `X`. -/
  | tsx
  /-- Copy `X` to the accumulator. -/
  | txa
  /-- Copy `X` to the stack pointer. -/
  | txs
  /-- Copy `Y` to the accumulator. -/
  | tya
  /-- Wait for an interrupt. -/
  | wai
  /-- Fetch the operand and do nothing; the opcode has no documented meaning. -/
  | reserved
  deriving DecidableEq

/-- How a conditional branch is written in assembly language. -/
def Condition.mnemonic : Condition → String
  | .plus => "BPL"
  | .minus => "BMI"
  | .overflowClear => "BVC"
  | .overflowSet => "BVS"
  | .carryClear => "BCC"
  | .carrySet => "BCS"
  | .notEqual => "BNE"
  | .equal => "BEQ"

/-- How an operation is written in assembly language. Reserved opcodes count as `NOP`. -/
def Operation.mnemonic : Operation → String
  | adc => "ADC"
  | and => "AND"
  | asl => "ASL"
  | bbr n => "BBR" ++ toString n.val
  | bbs n => "BBS" ++ toString n.val
  | bit => "BIT"
  | bra => "BRA"
  | branch condition => condition.mnemonic
  | brk => "BRK"
  | clc => "CLC"
  | cld => "CLD"
  | cli => "CLI"
  | clv => "CLV"
  | cmp => "CMP"
  | cpx => "CPX"
  | cpy => "CPY"
  | dec => "DEC"
  | dex => "DEX"
  | dey => "DEY"
  | eor => "EOR"
  | inc => "INC"
  | inx => "INX"
  | iny => "INY"
  | jmp => "JMP"
  | jsr => "JSR"
  | lda => "LDA"
  | ldx => "LDX"
  | ldy => "LDY"
  | lsr => "LSR"
  | nop => "NOP"
  | ora => "ORA"
  | pha => "PHA"
  | php => "PHP"
  | phx => "PHX"
  | phy => "PHY"
  | pla => "PLA"
  | plp => "PLP"
  | plx => "PLX"
  | ply => "PLY"
  | rmb n => "RMB" ++ toString n.val
  | rol => "ROL"
  | ror => "ROR"
  | rti => "RTI"
  | rts => "RTS"
  | sbc => "SBC"
  | sec => "SEC"
  | sed => "SED"
  | sei => "SEI"
  | smb n => "SMB" ++ toString n.val
  | sta => "STA"
  | stp => "STP"
  | stx => "STX"
  | sty => "STY"
  | stz => "STZ"
  | tax => "TAX"
  | tay => "TAY"
  | trb => "TRB"
  | tsb => "TSB"
  | tsx => "TSX"
  | txa => "TXA"
  | txs => "TXS"
  | tya => "TYA"
  | wai => "WAI"
  | reserved => "NOP"

end W65C02
