import W65C02.Proofs.Instruction.Traffic

/-!
# Operations that replace their operand

Shifts and rotations, counting up and down, and setting and clearing bits replace a byte by a
function of it. The function is told here in arithmetic, apart from how the operations compute it:
the accumulator and carry enter as they are before the operation. In the opcode table such an
operation has the accumulator, page zero or an absolute address for its operand, and no pointer.
-/

namespace W65C02

namespace Operation

/-- The byte that an operation puts in place of another one, given the registers before it. -/
def replacement? : Operation → Option (Registers → UInt8 → UInt8)
  | asl => some fun _ value => value + value
  | lsr => some fun _ value => value / 2
  | rol => some fun regs value => value + value + UInt8.ofNat regs.carryIn
  | ror => some fun regs value => value / 2 + 128 * UInt8.ofNat regs.carryIn
  | inc => some fun _ value => value + 1
  | dec => some fun _ value => value - 1
  | trb => some fun regs value => value &&& ~~~regs.a
  | tsb => some fun regs value => value ||| regs.a
  | rmb n => some fun _ value =>
    if value.toNat.testBit n.val then value - UInt8.ofNat (2 ^ n.val) else value
  | smb n => some fun _ value =>
    if value.toNat.testBit n.val then value else value + UInt8.ofNat (2 ^ n.val)
  | _ => none

/-- Shifting to the left doubles, -/
theorem shift_left_eq : ∀ value : UInt8, value <<< 1 = value + value :=
  forall_byte (by decide +kernel)

/-- and shifting to the right halves. -/
theorem shift_right_eq : ∀ value : UInt8, value >>> 1 = value / 2 :=
  forall_byte (by decide +kernel)

/-- A carry that is rotated in from the right counts for one, -/
theorem rotate_left_eq : ∀ value : UInt8, value <<< 1 ||| 0x01 = value + value + 1 :=
  forall_byte (by decide +kernel)

/-- and from the left for 128. -/
theorem rotate_right_eq : ∀ value : UInt8, value >>> 1 ||| 0x80 = value / 2 + 128 :=
  forall_byte (by decide +kernel)

/-- Clearing a bit subtracts its value, if it was set. -/
theorem clear_bit_eq : ∀ value : UInt8, ∀ n : Fin 8,
    value &&& ~~~((1 : UInt8) <<< UInt8.ofNat n.val) =
      if value.toNat.testBit n.val then value - UInt8.ofNat (2 ^ n.val) else value :=
  forall_byte (by decide +kernel)

/-- Setting a bit adds its value, if it was clear. -/
theorem set_bit_eq : ∀ value : UInt8, ∀ n : Fin 8,
    value ||| (1 : UInt8) <<< UInt8.ofNat n.val =
      if value.toNat.testBit n.val then value else value + UInt8.ofNat (2 ^ n.val) :=
  forall_byte (by decide +kernel)

variable {operation : Operation} {f : Registers → UInt8 → UInt8}

/-- Where the instruction is plays no part. -/
theorem replacement_pc (hf : operation.replacement? = some f) (regs : Registers) (pc : UInt16)
    (value : UInt8) : f { regs with pc } value = f regs value := by
  cases operation with
  | asl | lsr | rol | ror | inc | dec | trb | tsb | rmb | smb =>
    obtain rfl := Option.some.inj hf
    rfl
  | _ => exact absurd hf nofun

/-- An operation carries out a replacement: its function gives the new byte and touches no register
but the status byte. -/
structure CarriesOut (operation : Operation) (f : Registers → UInt8 → UInt8)
    (g : Registers → UInt8 → UInt8 × Registers) : Prop where
  /-- The function gives the new byte. -/
  value : ∀ regs value, (g regs value).1 = f regs value
  /-- It touches the status byte only. -/
  regs : ∀ regs value, ∃ p, (g regs value).2 = { regs with p }
  /-- The operand is replaced on the bus. -/
  transactions : ∀ mode irqVector regs address value,
    operation.transactions mode irqVector regs address value =
      mode.replaces address (g regs value).1
  /-- The registers are those after replacing the operand. -/
  perform : ∀ {β : Type} [Bus β] mode irqVector (e : Execution β),
    (operation.perform mode irqVector e).regs = (e.replaceOperand mode g).2.regs

/-- Each operation with a replacement carries it out. -/
theorem exists_carriesOut (hf : operation.replacement? = some f) :
    ∃ g, operation.CarriesOut f g := by
  cases operation with
  | asl =>
    obtain rfl := Option.some.inj hf
    exact ⟨Registers.shiftLeft, fun _ => shift_left_eq, fun _ _ => ⟨_, rfl⟩, fun _ _ _ _ _ => rfl,
      fun _ _ _ => rfl⟩
  | lsr =>
    obtain rfl := Option.some.inj hf
    exact ⟨Registers.shiftRight, fun _ => shift_right_eq, fun _ _ => ⟨_, rfl⟩, fun _ _ _ _ _ => rfl,
      fun _ _ _ => rfl⟩
  | rol =>
    obtain rfl := Option.some.inj hf
    refine ⟨Registers.rotateLeft, fun regs value => ?_, fun _ _ => ⟨_, rfl⟩, fun _ _ _ _ _ => rfl,
      fun _ _ _ => rfl⟩
    simp only [Registers.rotateLeft, Registers.carryIn]
    split
    · exact rotate_left_eq value
    · simp [shift_left_eq]
  | ror =>
    obtain rfl := Option.some.inj hf
    refine ⟨Registers.rotateRight, fun regs value => ?_, fun _ _ => ⟨_, rfl⟩, fun _ _ _ _ _ => rfl,
      fun _ _ _ => rfl⟩
    simp only [Registers.rotateRight, Registers.carryIn]
    split
    · exact rotate_right_eq value
    · simp [shift_right_eq]
  | inc =>
    obtain rfl := Option.some.inj hf
    exact ⟨fun regs value => (value + 1, regs), fun _ _ => rfl, fun _ _ => ⟨_, rfl⟩,
      fun _ _ _ _ _ => rfl, fun _ _ _ => rfl⟩
  | dec =>
    obtain rfl := Option.some.inj hf
    exact ⟨fun regs value => (value - 1, regs), fun _ _ => rfl, fun _ _ => ⟨_, rfl⟩,
      fun _ _ _ _ _ => rfl, fun _ _ _ => rfl⟩
  | trb =>
    obtain rfl := Option.some.inj hf
    exact ⟨fun regs value => (value &&& ~~~regs.a, regs.testBits value), fun _ _ => rfl,
      fun _ _ => ⟨_, rfl⟩, fun _ _ _ _ _ => rfl, fun _ _ _ => rfl⟩
  | tsb =>
    obtain rfl := Option.some.inj hf
    exact ⟨fun regs value => (value ||| regs.a, regs.testBits value), fun _ _ => rfl,
      fun _ _ => ⟨_, rfl⟩, fun _ _ _ _ _ => rfl, fun _ _ _ => rfl⟩
  | rmb n =>
    obtain rfl := Option.some.inj hf
    exact ⟨fun regs value => (value &&& ~~~((1 : UInt8) <<< UInt8.ofNat n.val), regs),
      fun _ value => clear_bit_eq value n, fun _ _ => ⟨_, rfl⟩, fun _ _ _ _ _ => rfl,
      fun _ _ _ => rfl⟩
  | smb n =>
    obtain rfl := Option.some.inj hf
    exact ⟨fun regs value => (value ||| (1 : UInt8) <<< UInt8.ofNat n.val, regs),
      fun _ value => set_bit_eq value n, fun _ _ => ⟨_, rfl⟩, fun _ _ _ _ _ => rfl,
      fun _ _ _ => rfl⟩
  | _ => exact absurd hf nofun

/-- An operation that replaces its operand reads a cell twice and then writes the new byte. -/
theorem transactions_of_replacement (hf : operation.replacement? = some f) (mode : AddressingMode)
    (irqVector : UInt16) (regs : Registers) (address : UInt16) (value : UInt8) :
    operation.transactions mode irqVector regs address value =
      mode.replaces address (f regs value) := by
  obtain ⟨g, hg⟩ := exists_carriesOut hf
  rw [hg.transactions, hg.value]

/-- It changes no register but the status byte, and the accumulator where that is its operand. -/
theorem regs_perform_of_replacement {β : Type} [Bus β] (hf : operation.replacement? = some f)
    (mode : AddressingMode) (irqVector : UInt16) (e : Execution β) :
    ∃ p, (operation.perform mode irqVector e).regs =
      { e.regs with a := if mode = .accumulator then f e.regs e.regs.a else e.regs.a, p } := by
  obtain ⟨g, hg⟩ := exists_carriesOut hf
  rw [hg.perform]
  unfold Execution.replaceOperand
  by_cases hmode : mode = .accumulator
  · obtain ⟨p, hp⟩ := hg.regs e.regs e.regs.a
    refine ⟨p, ?_⟩
    rw [if_pos hmode, if_pos hmode, ← hg.value]
    simp only [hp]
  · rw [if_neg hmode, if_neg hmode]
    exact hg.regs e.regs _

end Operation

namespace Descriptor

/-- In all of the table the operand of such an operation is the accumulator, in page zero or at an
absolute address. -/
private theorem table_replacement : ∀ opcode : Fin 256,
    (opcodeTable.get opcode).operation.replacement?.isSome →
      (opcodeTable.get opcode).mode ∈
        [.accumulator, .zeroPage, .zeroPageX, .absolute, .absoluteX] := by
  decide +kernel

/-- Operands are replaced in these modes only. -/
theorem mode_of_replacement {opcode : UInt8} {f : Registers → UInt8 → UInt8}
    (hf : (ofOpcode opcode).operation.replacement? = some f) :
    (ofOpcode opcode).mode ∈
      [AddressingMode.accumulator, .zeroPage, .zeroPageX, .absolute, .absoluteX] :=
  table_replacement opcode.toFin (Option.isSome_of_eq_some hf)

/-- Of these opcodes 44 have their operand in a cell and six in the accumulator. -/
example : (((opcodeTable.toList.filter (·.operation.replacement?.isSome)).partition
    (·.mode ≠ .accumulator)).map List.length List.length) = (44, 6) := by
  decide +kernel

end Descriptor

end W65C02
