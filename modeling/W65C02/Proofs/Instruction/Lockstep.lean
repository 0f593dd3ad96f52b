import W65C02.Instruction.Effect
import W65C02.Proofs.Instruction.Timing
import W65C02.Proofs.Registers

/-!
# Operations in lockstep

All operations are put together from a few elementary steps: reading and writing the bus,
replacing registers, leaving a result for the flags, and adding a cycle. A relation between two
executions that survives each elementary step survives every operation. This is the one place
where the operations are gone through; frame conditions, invariants and simulations between
buses are obtained by choosing the relation.
-/

namespace W65C02

variable {β γ : Type} [Bus β] [Bus γ]

/-- A family of relations between executions that no elementary step leaves. The index counts
the cycles that have been added. -/
structure Lockstep (R : Nat → Execution β → Execution γ → Prop) : Prop where
  /-- Related executions have the same registers. -/
  regs_eq {k e f} : R k e f → e.regs = f.regs
  /-- Related executions have the same operand bytes. -/
  operand_eq {k e f} : R k e f → e.inFlight.operand = f.inFlight.operand
  /-- Related executions have the same effective address. -/
  effectiveAddress_eq {k e f} :
    R k e f → e.inFlight.effectiveAddress = f.inFlight.effectiveAddress
  /-- Registers may be replaced as long as the fixed bits of the status byte stay. -/
  setRegs {k e f r} :
    R k e f → e.regs.KeepsFixedBits r → R k { e with regs := r } { f with regs := r }
  /-- The run mode may change. -/
  setRunMode {k e f m} : R k e f → R k { e with runMode := m } { f with runMode := m }
  /-- A result may be left for the flags. -/
  deferNZ {k e f v} : R k e f → R k (e.deferNZ v) (f.deferNZ v)
  /-- A cycle may be added. -/
  addCycle {k e f} : R k e f → R (k + 1) e.addCycle f.addCycle
  /-- Reading gives the same byte. -/
  read_fst {k e f a} : R k e f → (e.read a).1 = (f.read a).1
  /-- The bus may be read. -/
  read_snd {k e f a} : R k e f → R k (e.read a).2 (f.read a).2
  /-- The bus may be written. -/
  write {k e f a v} : R k e f → R k (e.write a v) (f.write a v)

namespace Lockstep

open Registers

variable {R : Nat → Execution β → Execution γ → Prop} {e : Execution β} {f : Execution γ}
  {k : Nat} {mode : AddressingMode}

/-- Changing registers in the same way on both sides. -/
theorem mapRegs (h : Lockstep R) {g : Registers → Registers}
    (hg : ∀ r : Registers, r.KeepsFixedBits (g r)) (hef : R k e f) :
    R k (e.mapRegs g) (f.mapRegs g) := by
  have hset := h.setRegs hef (hg e.regs)
  unfold Execution.mapRegs
  rwa [← h.regs_eq hef]

/-- Both sides have the same operand, -/
theorem operandValue_fst (h : Lockstep R) (mode : AddressingMode) (hef : R k e f) :
    (e.operandValue mode).1 = (f.operandValue mode).1 := by
  cases mode with
  | accumulator => exact congrArg Registers.a (h.regs_eq hef)
  | immediate => exact congrArg Operand.first (h.operand_eq hef)
  | _ =>
    simp only [Execution.operandValue, h.effectiveAddress_eq hef]
    exact h.read_fst hef

/-- and reading it keeps them together. -/
theorem operandValue_snd (h : Lockstep R) (mode : AddressingMode) (hef : R k e f) :
    R k (e.operandValue mode).2 (f.operandValue mode).2 := by
  cases mode with
  | accumulator => exact hef
  | immediate => exact hef
  | _ =>
    simp only [Execution.operandValue, h.effectiveAddress_eq hef]
    exact h.read_snd hef

/-- The same byte is stored on both sides. -/
theorem store (h : Lockstep R) (value : UInt8) (hef : R k e f) :
    R k (e.store value) (f.store value) := by
  unfold Execution.store
  rw [h.effectiveAddress_eq hef]
  exact h.write hef

/-- Replacing the operand gives the same value on both sides. -/
theorem replaceOperand_fst (h : Lockstep R) (g : Registers → UInt8 → UInt8 × Registers)
    (hef : R k e f) : (e.replaceOperand mode g).1 = (f.replaceOperand mode g).1 := by
  unfold Execution.replaceOperand
  by_cases hmode : mode = .accumulator
  · simp only [if_pos hmode, h.regs_eq hef]
  · have hread := h.read_snd (a := f.inFlight.effectiveAddress) hef
    have hread' := h.read_snd (a := (f.read f.inFlight.effectiveAddress).2.inFlight.effectiveAddress)
      hread
    simp only [if_neg hmode, h.effectiveAddress_eq hef, h.effectiveAddress_eq hread,
      h.read_fst hef, h.regs_eq hread']

/-- Replacing the operand keeps both sides together, -/
theorem replaceOperand_snd (h : Lockstep R) {g : Registers → UInt8 → UInt8 × Registers}
    (hg : ∀ (r : Registers) v, r.KeepsFixedBits (g r v).2) (hef : R k e f) :
    R k (e.replaceOperand mode g).2 (f.replaceOperand mode g).2 := by
  unfold Execution.replaceOperand
  by_cases hmode : mode = .accumulator
  · simp only [if_pos hmode, ← h.regs_eq hef]
    exact h.setRegs hef ((hg _ _).trans (.of_p_eq rfl))
  · have hread := h.read_snd (a := f.inFlight.effectiveAddress) hef
    have hread' := h.read_snd (a := (f.read f.inFlight.effectiveAddress).2.inFlight.effectiveAddress)
      hread
    simp only [if_neg hmode, h.effectiveAddress_eq hef, h.effectiveAddress_eq hread,
      h.read_fst hef, ← h.regs_eq hread']
    exact h.store _ (h.setRegs hread' (hg _ _))

/-- and so does replacing it with the flags set. -/
theorem replaceOperandNZ (h : Lockstep R) {g : Registers → UInt8 → UInt8 × Registers}
    (hg : ∀ (r : Registers) v, r.KeepsFixedBits (g r v).2) (hef : R k e f) :
    R k (e.replaceOperandNZ mode g) (f.replaceOperandNZ mode g) := by
  simp only [Execution.replaceOperandNZ, h.replaceOperand_fst g hef]
  exact h.deferNZ (h.replaceOperand_snd hg hef)

/-- The same byte is pushed on both sides. -/
theorem push (h : Lockstep R) (value : UInt8) (hef : R k e f) :
    R k (e.push value) (f.push value) := by
  simp only [Execution.push, ← h.regs_eq hef]
  exact h.write (h.setRegs hef (.of_p_eq rfl))

/-- Both sides pull the same byte, -/
theorem pull_fst (h : Lockstep R) (hef : R k e f) : e.pull.1 = f.pull.1 := by
  simp only [Execution.pull, ← h.regs_eq hef]
  exact h.read_fst (h.setRegs hef (.of_p_eq rfl))

/-- and stay together. -/
theorem pull_snd (h : Lockstep R) (hef : R k e f) : R k e.pull.2 f.pull.2 := by
  simp only [Execution.pull, ← h.regs_eq hef]
  exact h.read_snd (h.setRegs hef (.of_p_eq rfl))

/-- The same word is pushed on both sides. -/
theorem pushWord (h : Lockstep R) (value : UInt16) (hef : R k e f) :
    R k (e.pushWord value) (f.pushWord value) :=
  h.push _ (h.push _ hef)

/-- Both sides pull the same word, -/
theorem pullWord_fst (h : Lockstep R) (hef : R k e f) : e.pullWord.1 = f.pullWord.1 := by
  simp only [Execution.pullWord, h.pull_fst hef, h.pull_fst (h.pull_snd hef)]

/-- and stay together. -/
theorem pullWord_snd (h : Lockstep R) (hef : R k e f) : R k e.pullWord.2 f.pullWord.2 :=
  h.pull_snd (h.pull_snd hef)

/-- Both sides go to the same target. -/
theorem jump (h : Lockstep R) (target : UInt16) (hef : R k e f) :
    R k (e.jump target) (f.jump target) := by
  simp only [Execution.jump, ← h.regs_eq hef]
  exact h.setRegs hef (.of_p_eq rfl)

/-- Both sides go where the same vector points. -/
theorem loadVector (h : Lockstep R) (address : UInt16) (hef : R k e f) :
    R k (e.loadVector address) (f.loadVector address) := by
  have hlow := h.read_snd (a := address) hef
  have hhigh := h.read_snd (a := address + 1) hlow
  change R k
    (((e.read address).2.read (address + 1)).2.jump
      (wordOfBytes (e.read address).1 ((e.read address).2.read (address + 1)).1))
    (((f.read address).2.read (address + 1)).2.jump
      (wordOfBytes (f.read address).1 ((f.read address).2.read (address + 1)).1))
  rw [h.read_fst hef, h.read_fst hlow]
  exact h.jump _ hhigh

/-- The look at the page of the target adds at most one cycle. -/
theorem addCycleAcrossPages (h : Lockstep R) (target : UInt16) (hef : R k e f) :
    ∃ j ≤ 1, R (k + j) (e.addCycleAcrossPages target) (f.addCycleAcrossPages target) := by
  unfold Execution.addCycleAcrossPages
  rw [h.regs_eq hef]
  split
  · exact ⟨1, Nat.le_refl 1, h.addCycle hef⟩
  · exact ⟨0, Nat.zero_le 1, hef⟩

/-- A branch adds at most two cycles. -/
theorem branchIf (h : Lockstep R) (taken : Bool) (target : UInt16) (hef : R k e f) :
    ∃ j ≤ 2, R (k + j) (e.branchIf taken target) (f.branchIf taken target) := by
  unfold Execution.branchIf
  cases taken with
  | false => exact ⟨0, Nat.zero_le 2, hef⟩
  | true =>
    obtain ⟨j, hj, hcross⟩ := h.addCycleAcrossPages target hef
    exact ⟨j + 1, by omega, h.jump target (h.addCycle hcross)⟩

/-- Calculating in the accumulator keeps both sides together, -/
theorem accumulate (h : Lockstep R) {g : Registers → UInt8 → UInt8 × Registers}
    (hg : ∀ (r : Registers) v, r.KeepsFixedBits (g r v).2) (hef : R k e f) :
    R k (e.accumulate mode g) (f.accumulate mode g) := by
  have hvalue := h.operandValue_snd mode hef
  simp only [Execution.accumulate, h.operandValue_fst mode hef, ← h.regs_eq hvalue]
  exact h.deferNZ (h.setRegs hvalue ((hg _ _).trans (.of_p_eq rfl)))

/-- comparing a register does, -/
theorem compareWith (h : Lockstep R) (register : UInt8) (hef : R k e f) :
    R k (e.compareWith mode register) (f.compareWith mode register) := by
  have hvalue := h.operandValue_snd mode hef
  simp only [Execution.compareWith, h.operandValue_fst mode hef, ← h.regs_eq hvalue]
  exact h.deferNZ (h.setRegs hvalue (KeepsControlBits.compare _ _).toKeepsFixedBits)

/-- so does testing the operand, -/
theorem testOperand (h : Lockstep R) (hef : R k e f) :
    R k (e.testOperand mode) (f.testOperand mode) := by
  have hvalue := h.operandValue_snd mode hef
  simp only [Execution.testOperand, h.operandValue_fst mode hef, ← h.regs_eq hvalue]
  split
  · exact h.setRegs hvalue (KeepsControlBits.testBits _).toKeepsFixedBits
  · exact h.setRegs hvalue
      (((KeepsControlBits.testBits _).trans (.withFlag _ (by decide))).trans
        (.withFlag _ (by decide))).toKeepsFixedBits

/-- putting a value into a register, -/
theorem replace (h : Lockstep R) {put : Registers → UInt8 → Registers}
    (hput : ∀ (r : Registers) v, r.KeepsFixedBits (put r v)) (value : UInt8) (hef : R k e f) :
    R k (e.replace put value) (f.replace put value) :=
  h.deferNZ (h.mapRegs (hput · value) hef)

/-- loading one, -/
theorem loadInto (h : Lockstep R) {put : Registers → UInt8 → Registers}
    (hput : ∀ (r : Registers) v, r.KeepsFixedBits (put r v)) (hef : R k e f) :
    R k (e.loadInto mode put) (f.loadInto mode put) := by
  simp only [Execution.loadInto, h.operandValue_fst mode hef]
  exact h.replace hput _ (h.operandValue_snd mode hef)

/-- or pulling one. -/
theorem pullInto (h : Lockstep R) {put : Registers → UInt8 → Registers}
    (hput : ∀ (r : Registers) v, r.KeepsFixedBits (put r v)) (hef : R k e f) :
    R k (e.pullInto put) (f.pullInto put) := by
  simp only [Execution.pullInto, h.pull_fst hef]
  exact h.replace hput _ (h.pull_snd hef)

/-- Both sides take the same branch, which may add cycles. -/
theorem branchOnBit (h : Lockstep R) (n : Fin 8) (wanted : Bool) (hef : R k e f) :
    ∃ j ≤ 2, R (k + j) (e.branchOnBit mode n wanted) (f.branchOnBit mode n wanted) := by
  have hvalue := h.operandValue_snd mode hef
  simp only [Execution.branchOnBit, h.operandValue_fst mode hef, ← h.regs_eq hvalue,
    ← h.operand_eq hvalue]
  exact h.branchIf _ _ hvalue

/-- Changing a bit of the operand keeps both sides together. -/
theorem changeBit (h : Lockstep R) (n : Fin 8) (on : Bool) (hef : R k e f) :
    R k (e.changeBit mode n on) (f.changeBit mode n on) :=
  h.replaceOperand_snd (fun _ _ => .of_p_eq rfl) hef

/-- Masking interrupts and leaving decimal mode keeps the fixed bits. -/
theorem keepsFixedBits_enterRoutine (r : Registers) :
    r.KeepsFixedBits ((r.withFlag Status.irqDisable true).withFlag Status.decimal false) :=
  (KeepsFixedBits.withFlag _ (by decide)).trans (.withFlag _ (by decide))

/-- The way into a routine is the same on both sides, -/
theorem interruptTo (h : Lockstep R) (software : Bool) (vector : UInt16) (hef : R k e f) :
    R k (e.interruptTo software vector) (f.interruptTo software vector) := by
  have hpc := h.pushWord e.regs.pc hef
  have hstatus := h.push ((e.pushWord e.regs.pc).regs.statusToPush software) hpc
  have hmask := h.mapRegs keepsFixedBits_enterRoutine hstatus
  simp only [Execution.interruptTo, ← h.regs_eq hef, ← h.regs_eq hpc]
  exact h.loadVector vector hmask

/-- and so is the way back from an interrupt, -/
theorem returnFromInterrupt (h : Lockstep R) (hef : R k e f) :
    R k e.returnFromInterrupt f.returnFromInterrupt := by
  have hstatus := h.mapRegs (fun _ => KeepsFixedBits.pullStatus f.pull.1) (h.pull_snd hef)
  simp only [Execution.returnFromInterrupt, h.pull_fst hef, h.pullWord_fst hstatus]
  exact h.jump _ (h.pullWord_snd hstatus)

/-- or from a subroutine. -/
theorem returnFromSubroutine (h : Lockstep R) (hef : R k e f) :
    R k e.returnFromSubroutine f.returnFromSubroutine := by
  simp only [Execution.returnFromSubroutine, h.pullWord_fst hef]
  exact h.jump _ (h.pullWord_snd hef)

/-- An operation that cannot branch adds no cycle. -/
theorem perform_of_branchCycles_eq_zero (h : Lockstep R) {operation : Operation}
    (hop : operation.branchCycles = 0) (mode : AddressingMode) (irqVector : UInt16)
    (hef : R k e f) :
    R k (operation.perform mode irqVector e) (operation.perform mode irqVector f) := by
  have hregs := h.regs_eq hef
  have hea := h.effectiveAddress_eq hef
  cases operation with
  | branch | bbr | bbs | bra => simp [Operation.branchCycles] at hop
  | adc => exact h.accumulate (fun _ v => (KeepsControlBits.add v).toKeepsFixedBits) hef
  | sbc => exact h.accumulate (fun _ v => (KeepsControlBits.subtract v).toKeepsFixedBits) hef
  | and | ora | eor =>
    simp only [Operation.perform]
    refine h.accumulate (fun _ _ => ?_) hef
    exact .of_p_eq rfl
  | cmp | cpx | cpy =>
    simp only [Operation.perform, hregs]
    exact h.compareWith _ hef
  | bit => exact h.testOperand hef
  | asl =>
    exact h.replaceOperandNZ (fun _ v => (KeepsControlBits.shiftLeft v).toKeepsFixedBits) hef
  | lsr =>
    exact h.replaceOperandNZ (fun _ v => (KeepsControlBits.shiftRight v).toKeepsFixedBits) hef
  | rol =>
    exact h.replaceOperandNZ (fun _ v => (KeepsControlBits.rotateLeft v).toKeepsFixedBits) hef
  | ror =>
    exact h.replaceOperandNZ (fun _ v => (KeepsControlBits.rotateRight v).toKeepsFixedBits) hef
  | inc | dec =>
    simp only [Operation.perform]
    refine h.replaceOperandNZ (fun _ _ => ?_) hef
    exact .of_p_eq rfl
  | inx | iny | dex | dey | tax | tay | txa | tya | tsx =>
    simp only [Operation.perform, hregs]
    refine h.replace (fun _ _ => ?_) _ hef
    exact .of_p_eq rfl
  | trb | tsb =>
    simp only [Operation.perform]
    exact h.replaceOperand_snd (fun _ v => (KeepsControlBits.testBits v).toKeepsFixedBits) hef
  | rmb n => exact h.changeBit n false hef
  | smb n => exact h.changeBit n true hef
  | jmp =>
    simp only [Operation.perform, hea]
    exact h.jump _ hef
  | jsr =>
    simp only [Operation.perform, hregs, hea]
    exact h.jump _ (h.pushWord _ hef)
  | rts => exact h.returnFromSubroutine hef
  | rti => exact h.returnFromInterrupt hef
  | brk => exact h.interruptTo true irqVector hef
  | lda | ldx | ldy =>
    simp only [Operation.perform]
    refine h.loadInto (fun _ _ => ?_) hef
    exact .of_p_eq rfl
  | sta | stx | sty =>
    simp only [Operation.perform, hregs]
    exact h.store _ hef
  | stz => exact h.store 0 hef
  | txs =>
    simp only [Operation.perform]
    refine h.mapRegs (fun _ => ?_) hef
    exact .of_p_eq rfl
  | pha | phx | phy | php =>
    simp only [Operation.perform, hregs]
    exact h.push _ hef
  | pla | plx | ply =>
    simp only [Operation.perform]
    refine h.pullInto (fun _ _ => ?_) hef
    exact .of_p_eq rfl
  | plp =>
    simp only [Operation.perform, h.pull_fst hef]
    exact h.mapRegs (fun _ => .pullStatus _) (h.pull_snd hef)
  | clc | sec | cli | sei | cld | sed | clv =>
    simp only [Operation.perform]
    exact h.mapRegs (fun _ => .withFlag _ (by decide)) hef
  | wai | stp => exact h.setRunMode hef
  | nop | reserved => exact hef

/-- Related executions stay related through every operation, and no operation adds more cycles
than branching can. -/
theorem perform (h : Lockstep R) (operation : Operation) (mode : AddressingMode)
    (irqVector : UInt16) (hef : R k e f) :
    ∃ j ≤ operation.branchCycles,
      R (k + j) (operation.perform mode irqVector e) (operation.perform mode irqVector f) := by
  have hregs := h.regs_eq hef
  have hea := h.effectiveAddress_eq hef
  cases operation with
  | branch condition =>
    simp only [Operation.perform, hregs, hea]
    exact h.branchIf _ _ hef
  | bbr n => exact h.branchOnBit n false hef
  | bbs n => exact h.branchOnBit n true hef
  | bra =>
    obtain ⟨j, hj, hcross⟩ := h.addCycleAcrossPages f.inFlight.effectiveAddress hef
    simp only [Operation.perform, hea]
    exact ⟨j, hj, h.jump _ hcross⟩
  | _ => exact ⟨0, Nat.zero_le _, h.perform_of_branchCycles_eq_zero rfl mode irqVector hef⟩

end Lockstep

/-- A family of properties of executions that no elementary step leaves; the index counts the
cycles that have been added. -/
structure Invariant (P : Nat → Execution β → Prop) : Prop where
  /-- Registers may be replaced as long as the fixed bits of the status byte stay. -/
  setRegs {k e r} : P k e → e.regs.KeepsFixedBits r → P k { e with regs := r }
  /-- The run mode may change. -/
  setRunMode {k e m} : P k e → P k { e with runMode := m }
  /-- A result may be left for the flags. -/
  deferNZ {k e v} : P k e → P k (e.deferNZ v)
  /-- A cycle may be added. -/
  addCycle {k e} : P k e → P (k + 1) e.addCycle
  /-- The bus may be read. -/
  read {k e a} : P k e → P k (e.read a).2
  /-- The bus may be written. -/
  write {k e a v} : P k e → P k (e.write a v)

namespace Invariant

variable {P : Nat → Execution β → Prop}

/-- An invariant is a relation between an execution and itself. -/
theorem lockstep (h : Invariant P) : Lockstep fun k (e f : Execution β) => e = f ∧ P k e := by
  constructor
  case setRegs =>
    rintro k e _ r ⟨rfl, hP⟩ hr
    exact ⟨rfl, h.setRegs hP hr⟩
  case setRunMode =>
    rintro k e _ m ⟨rfl, hP⟩
    exact ⟨rfl, h.setRunMode hP⟩
  case deferNZ =>
    rintro k e _ v ⟨rfl, hP⟩
    exact ⟨rfl, h.deferNZ hP⟩
  case addCycle =>
    rintro k e _ ⟨rfl, hP⟩
    exact ⟨rfl, h.addCycle hP⟩
  case read_snd =>
    rintro k e _ a ⟨rfl, hP⟩
    exact ⟨rfl, h.read hP⟩
  case write =>
    rintro k e _ a v ⟨rfl, hP⟩
    exact ⟨rfl, h.write hP⟩
  -- What is left compares the two executions, which are the same one.
  all_goals
    intros
    simp only [*]

/-- Every operation keeps an invariant of the elementary steps. -/
theorem perform (h : Invariant P) {k : Nat} {e : Execution β} (operation : Operation)
    (mode : AddressingMode) (irqVector : UInt16) (he : P k e) :
    ∃ j ≤ operation.branchCycles, P (k + j) (operation.perform mode irqVector e) := by
  obtain ⟨j, hj, -, hP⟩ := h.lockstep.perform operation mode irqVector ⟨rfl, he⟩
  exact ⟨j, hj, hP⟩

end Invariant

/-- Replaces what an operation never looks at: the phase and the counts of bytes and cycles. -/
def Execution.withProgress (e : Execution β) (phase : Phase) (fetched elapsed total : UInt8) :
    Execution β :=
  { e with inFlight := { e.inFlight with phase, fetched, elapsed, total } }

/-- An operation neither reads nor changes the progress of its instruction. -/
theorem Operation.perform_withProgress (operation : Operation) (mode : AddressingMode)
    (irqVector : UInt16) (e : Execution β) (phase : Phase) (fetched elapsed total : UInt8) :
    operation.perform mode irqVector (e.withProgress phase fetched elapsed total) =
      (operation.perform mode irqVector e).withProgress phase fetched elapsed total := by
  have hlockstep : Lockstep fun (_ : Nat) (e f : Execution β) =>
      f = e.withProgress phase fetched elapsed total := by
    constructor <;> intros <;> subst_vars <;> rfl
  obtain ⟨_, _, heq⟩ := hlockstep.perform (k := 0) operation mode irqVector rfl
  exact heq

/-- Of what is in flight an operation changes the count of added cycles and the result for the
flags, and nothing else. It adds no more cycles than branching can. -/
theorem Operation.perform_inFlight (operation : Operation) (mode : AddressingMode)
    (irqVector : UInt16) (e : Execution β) :
    ∃ added ≤ operation.branchCycles, ∃ result,
      (operation.perform mode irqVector e).inFlight =
        { e.inFlight with
          extraCycles := e.inFlight.extraCycles + UInt8.ofNat added, nzResult := result } := by
  have hinvariant : Invariant fun (k : Nat) (f : Execution β) => ∃ result,
      f.inFlight =
        { e.inFlight with
          extraCycles := e.inFlight.extraCycles + UInt8.ofNat k, nzResult := result } := by
    constructor
    case deferNZ =>
      rintro k f v ⟨_, hf⟩
      exact ⟨some v, by simp only [Execution.deferNZ, hf]⟩
    case addCycle =>
      rintro k f ⟨result, hf⟩
      refine ⟨result, ?_⟩
      have hsucc : e.inFlight.extraCycles + UInt8.ofNat k + 1 =
          e.inFlight.extraCycles + UInt8.ofNat (k + 1) := by
        rw [UInt8.add_assoc, UInt8.ofNat_add]
        rfl
      simp only [Execution.addCycle, hf, hsucc]
    all_goals
      intros
      assumption
  have hstart : e.inFlight =
      { e.inFlight with
        extraCycles := e.inFlight.extraCycles + UInt8.ofNat 0
        nzResult := e.inFlight.nzResult } := by
    have hzero : e.inFlight.extraCycles + UInt8.ofNat 0 = e.inFlight.extraCycles :=
      UInt8.add_zero _
    rw [hzero]
  obtain ⟨added, hadded, result, hflight⟩ :=
    hinvariant.perform (k := 0) operation mode irqVector ⟨_, hstart⟩
  refine ⟨added, hadded, result, ?_⟩
  rw [hflight, Nat.zero_add]

end W65C02
