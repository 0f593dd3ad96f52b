import W65C02.AddressingMode
import W65C02.Instruction.Operation

/-!
# The opcode table

Every byte is an opcode. The table gives for each of them the operation, the addressing
mode, the number of cycles, and the penalties that can come on top. The 44 reserved opcodes
take their bytes and cycles and have no other effect.
-/

namespace W65C02

/-- What an opcode stands for. -/
structure Descriptor where
  /-- What the instruction does. -/
  operation : Operation
  /-- Where it finds its operand. -/
  mode : AddressingMode
  /-- Its cycles without penalties. -/
  baseCycles : UInt8
  /-- Whether a displacement into another page takes one more cycle. -/
  pageCrossPenalty : Bool := false
  /-- Whether decimal mode takes one more cycle. -/
  decimalPenalty : Bool := false
  deriving DecidableEq

namespace Descriptor

/-- An instruction of constant length. -/
def plain (operation : Operation) (mode : AddressingMode) (baseCycles : UInt8) : Descriptor :=
  { operation, mode, baseCycles }

/-- An instruction that takes one more cycle when its displacement crosses a page. -/
def crossing (operation : Operation) (mode : AddressingMode) (baseCycles : UInt8) :
    Descriptor :=
  { operation, mode, baseCycles, pageCrossPenalty := true }

/-- An instruction that takes one more cycle in decimal mode. -/
def decimal (operation : Operation) (mode : AddressingMode) (baseCycles : UInt8) :
    Descriptor :=
  { operation, mode, baseCycles, decimalPenalty := true }

/-- An instruction with both penalties. -/
def crossingDecimal (operation : Operation) (mode : AddressingMode) (baseCycles : UInt8) :
    Descriptor :=
  { operation, mode, baseCycles, pageCrossPenalty := true, decimalPenalty := true }

/-- How many bytes the instruction takes, the opcode included. -/
def length (d : Descriptor) : Nat := 1 + d.mode.operandSize

/-- Whether the opcode has a documented meaning. -/
def documented (d : Descriptor) : Bool := d.operation != .reserved

end Descriptor

set_option maxRecDepth 4000 in
open Descriptor in
/-- The descriptors of all opcodes, in the order of the opcodes. -/
def opcodeTable : Vector Descriptor 256 := #v[
  -- $00
  plain .brk .immediate 7,
  plain .ora .indexedIndirect 6,
  plain .reserved .immediate 2,
  plain .reserved .implied 1,
  plain .tsb .zeroPage 5,
  plain .ora .zeroPage 3,
  plain .asl .zeroPage 5,
  plain (.rmb 0) .zeroPage 5,
  plain .php .implied 3,
  plain .ora .immediate 2,
  plain .asl .accumulator 2,
  plain .reserved .implied 1,
  plain .tsb .absolute 6,
  plain .ora .absolute 4,
  plain .asl .absolute 6,
  plain (.bbr 0) .zeroPageRelative 5,
  -- $10
  plain (.branch .plus) .relative 2,
  crossing .ora .indirectIndexed 5,
  plain .ora .zeroPageIndirect 5,
  plain .reserved .implied 1,
  plain .trb .zeroPage 5,
  plain .ora .zeroPageX 4,
  plain .asl .zeroPageX 6,
  plain (.rmb 1) .zeroPage 5,
  plain .clc .implied 2,
  crossing .ora .absoluteY 4,
  plain .inc .accumulator 2,
  plain .reserved .implied 1,
  plain .trb .absolute 6,
  crossing .ora .absoluteX 4,
  crossing .asl .absoluteX 6,
  plain (.bbr 1) .zeroPageRelative 5,
  -- $20
  plain .jsr .absolute 6,
  plain .and .indexedIndirect 6,
  plain .reserved .immediate 2,
  plain .reserved .implied 1,
  plain .bit .zeroPage 3,
  plain .and .zeroPage 3,
  plain .rol .zeroPage 5,
  plain (.rmb 2) .zeroPage 5,
  plain .plp .implied 4,
  plain .and .immediate 2,
  plain .rol .accumulator 2,
  plain .reserved .implied 1,
  plain .bit .absolute 4,
  plain .and .absolute 4,
  plain .rol .absolute 6,
  plain (.bbr 2) .zeroPageRelative 5,
  -- $30
  plain (.branch .minus) .relative 2,
  crossing .and .indirectIndexed 5,
  plain .and .zeroPageIndirect 5,
  plain .reserved .implied 1,
  plain .bit .zeroPageX 4,
  plain .and .zeroPageX 4,
  plain .rol .zeroPageX 6,
  plain (.rmb 3) .zeroPage 5,
  plain .sec .implied 2,
  crossing .and .absoluteY 4,
  plain .dec .accumulator 2,
  plain .reserved .implied 1,
  crossing .bit .absoluteX 4,
  crossing .and .absoluteX 4,
  crossing .rol .absoluteX 6,
  plain (.bbr 3) .zeroPageRelative 5,
  -- $40
  plain .rti .implied 6,
  plain .eor .indexedIndirect 6,
  plain .reserved .immediate 2,
  plain .reserved .implied 1,
  plain .reserved .zeroPage 3,
  plain .eor .zeroPage 3,
  plain .lsr .zeroPage 5,
  plain (.rmb 4) .zeroPage 5,
  plain .pha .implied 3,
  plain .eor .immediate 2,
  plain .lsr .accumulator 2,
  plain .reserved .implied 1,
  plain .jmp .absolute 3,
  plain .eor .absolute 4,
  plain .lsr .absolute 6,
  plain (.bbr 4) .zeroPageRelative 5,
  -- $50
  plain (.branch .overflowClear) .relative 2,
  crossing .eor .indirectIndexed 5,
  plain .eor .zeroPageIndirect 5,
  plain .reserved .implied 1,
  plain .reserved .zeroPageX 4,
  plain .eor .zeroPageX 4,
  plain .lsr .zeroPageX 6,
  plain (.rmb 5) .zeroPage 5,
  plain .cli .implied 2,
  crossing .eor .absoluteY 4,
  plain .phy .implied 3,
  plain .reserved .implied 1,
  plain .reserved .absolute 8,
  crossing .eor .absoluteX 4,
  crossing .lsr .absoluteX 6,
  plain (.bbr 5) .zeroPageRelative 5,
  -- $60
  plain .rts .implied 6,
  decimal .adc .indexedIndirect 6,
  plain .reserved .immediate 2,
  plain .reserved .implied 1,
  plain .stz .zeroPage 3,
  decimal .adc .zeroPage 3,
  plain .ror .zeroPage 5,
  plain (.rmb 6) .zeroPage 5,
  plain .pla .implied 4,
  decimal .adc .immediate 2,
  plain .ror .accumulator 2,
  plain .reserved .implied 1,
  plain .jmp .indirect 6,
  decimal .adc .absolute 4,
  plain .ror .absolute 6,
  plain (.bbr 6) .zeroPageRelative 5,
  -- $70
  plain (.branch .overflowSet) .relative 2,
  crossingDecimal .adc .indirectIndexed 5,
  decimal .adc .zeroPageIndirect 5,
  plain .reserved .implied 1,
  plain .stz .zeroPageX 4,
  decimal .adc .zeroPageX 4,
  plain .ror .zeroPageX 6,
  plain (.rmb 7) .zeroPage 5,
  plain .sei .implied 2,
  crossingDecimal .adc .absoluteY 4,
  plain .ply .implied 4,
  plain .reserved .implied 1,
  plain .jmp .absoluteIndexedIndirect 6,
  crossingDecimal .adc .absoluteX 4,
  crossing .ror .absoluteX 6,
  plain (.bbr 7) .zeroPageRelative 5,
  -- $80
  plain .bra .relative 3,
  plain .sta .indexedIndirect 6,
  plain .reserved .immediate 2,
  plain .reserved .implied 1,
  plain .sty .zeroPage 3,
  plain .sta .zeroPage 3,
  plain .stx .zeroPage 3,
  plain (.smb 0) .zeroPage 5,
  plain .dey .implied 2,
  plain .bit .immediate 2,
  plain .txa .implied 2,
  plain .reserved .implied 1,
  plain .sty .absolute 4,
  plain .sta .absolute 4,
  plain .stx .absolute 4,
  plain (.bbs 0) .zeroPageRelative 5,
  -- $90
  plain (.branch .carryClear) .relative 2,
  plain .sta .indirectIndexed 6,
  plain .sta .zeroPageIndirect 5,
  plain .reserved .implied 1,
  plain .sty .zeroPageX 4,
  plain .sta .zeroPageX 4,
  plain .stx .zeroPageY 4,
  plain (.smb 1) .zeroPage 5,
  plain .tya .implied 2,
  plain .sta .absoluteY 5,
  plain .txs .implied 2,
  plain .reserved .implied 1,
  plain .stz .absolute 4,
  plain .sta .absoluteX 5,
  plain .stz .absoluteX 5,
  plain (.bbs 1) .zeroPageRelative 5,
  -- $A0
  plain .ldy .immediate 2,
  plain .lda .indexedIndirect 6,
  plain .ldx .immediate 2,
  plain .reserved .implied 1,
  plain .ldy .zeroPage 3,
  plain .lda .zeroPage 3,
  plain .ldx .zeroPage 3,
  plain (.smb 2) .zeroPage 5,
  plain .tay .implied 2,
  plain .lda .immediate 2,
  plain .tax .implied 2,
  plain .reserved .implied 1,
  plain .ldy .absolute 4,
  plain .lda .absolute 4,
  plain .ldx .absolute 4,
  plain (.bbs 2) .zeroPageRelative 5,
  -- $B0
  plain (.branch .carrySet) .relative 2,
  crossing .lda .indirectIndexed 5,
  plain .lda .zeroPageIndirect 5,
  plain .reserved .implied 1,
  plain .ldy .zeroPageX 4,
  plain .lda .zeroPageX 4,
  plain .ldx .zeroPageY 4,
  plain (.smb 3) .zeroPage 5,
  plain .clv .implied 2,
  crossing .lda .absoluteY 4,
  plain .tsx .implied 2,
  plain .reserved .implied 1,
  crossing .ldy .absoluteX 4,
  crossing .lda .absoluteX 4,
  crossing .ldx .absoluteY 4,
  plain (.bbs 3) .zeroPageRelative 5,
  -- $C0
  plain .cpy .immediate 2,
  plain .cmp .indexedIndirect 6,
  plain .reserved .immediate 2,
  plain .reserved .implied 1,
  plain .cpy .zeroPage 3,
  plain .cmp .zeroPage 3,
  plain .dec .zeroPage 5,
  plain (.smb 4) .zeroPage 5,
  plain .iny .implied 2,
  plain .cmp .immediate 2,
  plain .dex .implied 2,
  plain .wai .implied 3,
  plain .cpy .absolute 4,
  plain .cmp .absolute 4,
  plain .dec .absolute 6,
  plain (.bbs 4) .zeroPageRelative 5,
  -- $D0
  plain (.branch .notEqual) .relative 2,
  crossing .cmp .indirectIndexed 5,
  plain .cmp .zeroPageIndirect 5,
  plain .reserved .implied 1,
  plain .reserved .zeroPageX 4,
  plain .cmp .zeroPageX 4,
  plain .dec .zeroPageX 6,
  plain (.smb 5) .zeroPage 5,
  plain .cld .implied 2,
  crossing .cmp .absoluteY 4,
  plain .phx .implied 3,
  plain .stp .implied 3,
  plain .reserved .absolute 4,
  crossing .cmp .absoluteX 4,
  plain .dec .absoluteX 7,
  plain (.bbs 5) .zeroPageRelative 5,
  -- $E0
  plain .cpx .immediate 2,
  decimal .sbc .indexedIndirect 6,
  plain .reserved .immediate 2,
  plain .reserved .implied 1,
  plain .cpx .zeroPage 3,
  decimal .sbc .zeroPage 3,
  plain .inc .zeroPage 5,
  plain (.smb 6) .zeroPage 5,
  plain .inx .implied 2,
  decimal .sbc .immediate 2,
  plain .nop .implied 2,
  plain .reserved .implied 1,
  plain .cpx .absolute 4,
  decimal .sbc .absolute 4,
  plain .inc .absolute 6,
  plain (.bbs 6) .zeroPageRelative 5,
  -- $F0
  plain (.branch .equal) .relative 2,
  crossingDecimal .sbc .indirectIndexed 5,
  decimal .sbc .zeroPageIndirect 5,
  plain .reserved .implied 1,
  plain .reserved .zeroPageX 4,
  decimal .sbc .zeroPageX 4,
  plain .inc .zeroPageX 6,
  plain (.smb 7) .zeroPage 5,
  plain .sed .implied 2,
  crossingDecimal .sbc .absoluteY 4,
  plain .plx .implied 4,
  plain .reserved .implied 1,
  plain .reserved .absolute 4,
  crossingDecimal .sbc .absoluteX 4,
  plain .inc .absoluteX 7,
  plain (.bbs 7) .zeroPageRelative 5]

/-- The descriptor of an opcode. -/
def Descriptor.ofOpcode (opcode : UInt8) : Descriptor := opcodeTable.get opcode.toFin

/-- The number of operand bytes after an opcode. -/
def operandSize (opcode : UInt8) : Nat := (Descriptor.ofOpcode opcode).mode.operandSize

/-- A one-line account of an opcode and its descriptor. -/
def Descriptor.describe (opcode : UInt8) (d : Descriptor) : String :=
  "InstructionDescriptor \x7b opcode: $" ++ Hexadecimal.padded 2 opcode.toNat ++
    ", mnemonic: \"" ++ d.operation.mnemonic ++ "\", mode: " ++ d.mode.label ++
    ", length: " ++ toString d.length ++
    ", base_cycles: " ++ toString d.baseCycles.toNat ++
    ", page_cross_penalty: " ++ toString d.pageCrossPenalty ++
    ", decimal_penalty: " ++ toString d.decimalPenalty ++
    ", documented: " ++ toString d.documented ++ " \x7d"

end W65C02
