import W65C02.Cpu

/-!
# Timing facts of the opcode table

The table leaves every instruction enough cycles to fetch its operand, and no instruction takes
more than eight. Both facts are read off the 256 descriptors once and used for every opcode.
-/

namespace W65C02

/-- The cycles that an operation can add by branching: one for a taken branch, one for a target
in another page. -/
def Operation.branchCycles : Operation → Nat
  | branch _ | bbr _ | bbs _ => 2
  | bra => 1
  | _ => 0

/-- Branching adds two cycles at most. -/
theorem Operation.branchCycles_le_two (operation : Operation) : operation.branchCycles ≤ 2 := by
  unfold branchCycles
  split <;> decide

namespace Descriptor

/-- The cycles of an instruction in exact arithmetic. -/
def exactCycles (d : Descriptor) (extra : Nat) (pageCrossed decimalMode : Bool) : Nat :=
  d.baseCycles.toNat + extra
    + (if d.pageCrossPenalty && pageCrossed && d.mode != .relative then 1 else 0)
    + (if d.decimalPenalty && decimalMode then 1 else 0)

set_option maxRecDepth 4000 in
/-- In the whole table instructions take a cycle for each byte at least and eight at most, and
decimal mode slows down additions and subtractions only. -/
private theorem table_timing : ∀ d ∈ opcodeTable.toList,
    d.mode.operandSize < d.baseCycles.toNat ∧
      d.exactCycles d.operation.branchCycles true true ≤ 8 ∧
      (d.decimalPenalty = true → d.operation = .adc ∨ d.operation = .sbc) := by
  decide

/-- Each descriptor is in the table. -/
private theorem ofOpcode_mem (opcode : UInt8) : ofOpcode opcode ∈ opcodeTable.toList := by
  have hmem : opcodeTable.get opcode.toFin ∈ opcodeTable := Vector.getElem_mem _
  exact Vector.mem_toList_iff.mpr hmem

/-- The opcode and its operand bytes are fetched before the last cycle of the constant part. -/
theorem operandSize_lt_baseCycles (opcode : UInt8) :
    operandSize opcode < (ofOpcode opcode).baseCycles.toNat :=
  (table_timing _ (ofOpcode_mem opcode)).1

/-- Only additions and subtractions pay for decimal mode. -/
theorem operation_of_decimalPenalty {opcode : UInt8}
    (h : (ofOpcode opcode).decimalPenalty = true) :
    (ofOpcode opcode).operation = .adc ∨ (ofOpcode opcode).operation = .sbc :=
  (table_timing _ (ofOpcode_mem opcode)).2.2 h

/-- With all its penalties no instruction takes more than eight cycles. -/
theorem exactCycles_le_eight (opcode : UInt8) {extra : Nat}
    (hextra : extra ≤ (ofOpcode opcode).operation.branchCycles) (pageCrossed decimalMode : Bool) :
    (ofOpcode opcode).exactCycles extra pageCrossed decimalMode ≤ 8 := by
  have hmax := (table_timing _ (ofOpcode_mem opcode)).2.1
  unfold exactCycles at hmax ⊢
  cases pageCrossed <;> cases decimalMode <;> simp only [Bool.and_true, Bool.and_false,
    Bool.false_and, Bool.false_eq_true, if_false] at hmax ⊢ <;> omega

/-- An instruction is not over before its operand has been fetched. -/
theorem operandSize_lt_exactCycles (opcode : UInt8) (extra : Nat) (pageCrossed decimalMode : Bool) :
    operandSize opcode < (ofOpcode opcode).exactCycles extra pageCrossed decimalMode := by
  have hbase := operandSize_lt_baseCycles opcode
  unfold exactCycles
  omega

/-- The count of cycles is kept in a byte, and no byte overflows. -/
theorem cycles_toNat (opcode : UInt8) {extra : UInt8}
    (hextra : extra.toNat ≤ (ofOpcode opcode).operation.branchCycles)
    (pageCrossed decimalMode : Bool) :
    ((ofOpcode opcode).cycles extra pageCrossed decimalMode).toNat =
      (ofOpcode opcode).exactCycles extra.toNat pageCrossed decimalMode := by
  have hmax := exactCycles_le_eight opcode hextra pageCrossed decimalMode
  unfold exactCycles at hmax ⊢
  unfold cycles
  generalize ((ofOpcode opcode).pageCrossPenalty && pageCrossed &&
    (ofOpcode opcode).mode != .relative) = crosses at hmax ⊢
  generalize ((ofOpcode opcode).decimalPenalty && decimalMode) = pays at hmax ⊢
  cases crosses <;> cases pays <;>
    simp only [Bool.false_eq_true, if_true, if_false, UInt8.toNat_add, UInt8.reduceToNat] at hmax ⊢ <;>
    omega

end Descriptor

end W65C02
