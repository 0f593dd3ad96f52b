import W65C02.Cpu.Snapshot
import W65C02.Proofs.Instruction.Timing

/-!
# What can be in flight

Between two cycles an instruction is either being fetched or waiting for its last cycle, and an
interrupt sequence is either acknowledged or served. Each of the four comes with its own counts
of bytes and cycles, and all of them pass the checks that a snapshot has to pass.
-/

namespace W65C02

namespace SnapshotError

/-- A check passes exactly if its condition holds, -/
theorem unless_eq_ok {holds : Bool} {flaw : FieldFlaw} :
    SnapshotError.unless holds flaw = .ok () ↔ holds = true := by
  cases holds <;> simp [SnapshotError.unless]

/-- and what follows it is checked only then. -/
theorem unless_bind_eq_ok {holds : Bool} {flaw : FieldFlaw}
    {rest : Unit → Except SnapshotError Unit} :
    (SnapshotError.unless holds flaw >>= rest) = .ok () ↔ holds = true ∧ rest () = .ok () := by
  cases holds <;> simp [SnapshotError.unless, Bind.bind, Except.bind]

end SnapshotError

namespace InFlight

/-- An instruction whose work has not begun, with some or all of its operand bytes fetched. -/
structure HasFetched (flight : InFlight) : Prop where
  /-- An instruction is in flight. -/
  activity : flight.activity = .instruction
  /-- Its opcode has been fetched. -/
  phase : flight.phase = .decode
  /-- There are no more operand bytes than the opcode takes. -/
  fetched : flight.fetched.toNat ≤ operandSize flight.opcode
  /-- Each byte has taken a cycle. -/
  elapsed : flight.elapsed.toNat = 1 + flight.fetched.toNat
  /-- The number of cycles is not known yet. -/
  total : flight.total = 0
  /-- No cycle has been added. -/
  extraCycles : flight.extraCycles = 0
  /-- There is no result yet. -/
  nzResult : flight.nzResult = none
  /-- The missing bytes are zero. -/
  operand : ∀ i (hi : i < 2), flight.fetched.toNat ≤ i → flight.operand[i] = 0

/-- An instruction with operand bytes still missing. -/
structure IsFetching (flight : InFlight) : Prop extends HasFetched flight where
  /-- Operand bytes are missing. -/
  missing : flight.fetched.toNat < operandSize flight.opcode

/-- An instruction whose work is done and that waits for its last cycle. -/
structure IsWaiting (flight : InFlight) : Prop where
  /-- An instruction is in flight. -/
  activity : flight.activity = .instruction
  /-- Its work is done. -/
  phase : flight.phase = .retire
  /-- All operand bytes have been fetched. -/
  fetched : flight.fetched.toNat = operandSize flight.opcode
  /-- Each byte has taken a cycle. -/
  elapsed : 1 + flight.fetched.toNat ≤ flight.elapsed.toNat
  /-- Some cycles are left. -/
  unfinished : flight.elapsed.toNat < flight.total.toNat
  /-- Only branches have added cycles. -/
  extraCycles :
    flight.extraCycles.toNat ≤ (Descriptor.ofOpcode flight.opcode).operation.branchCycles
  /-- The number of cycles is the one of the table with its penalties. -/
  total : ∃ decimalMode, flight.total.toNat =
    (Descriptor.ofOpcode flight.opcode).exactCycles flight.extraCycles.toNat flight.pageCrossed
      decimalMode

/-- An interrupt sequence right after its first cycle. -/
structure IsAcknowledged (settings : CpuSettings) (flight : InFlight) : Prop where
  /-- An interrupt is in flight, and its vector is that of its line. -/
  activity : ∃ line, flight.activity = .interrupt ⟨settings.vectorOf line, line⟩
  /-- It has not been served. -/
  phase : flight.phase = .operate
  /-- One cycle has passed. -/
  elapsed : flight.elapsed.toNat = 1
  /-- The sequence has its fixed length. -/
  total : flight.total.toNat = 7

/-- An interrupt sequence that has saved the status and loaded its vector. -/
structure IsServed (settings : CpuSettings) (flight : InFlight) : Prop where
  /-- An interrupt is in flight, and its vector is that of its line. -/
  activity : ∃ line, flight.activity = .interrupt ⟨settings.vectorOf line, line⟩
  /-- It has been served. -/
  phase : flight.phase = .retire
  /-- It has been served in its second cycle. -/
  started : 2 ≤ flight.elapsed.toNat
  /-- Some cycles are left. -/
  unfinished : flight.elapsed.toNat < 7
  /-- The sequence has its fixed length. -/
  total : flight.total.toNat = 7

/-- What can be in flight in a processor with given settings. -/
inductive Consistent (settings : CpuSettings) (flight : InFlight) : Prop where
  | fetching (h : flight.IsFetching)
  | waiting (h : flight.IsWaiting)
  | acknowledged (h : flight.IsAcknowledged settings)
  | served (h : flight.IsServed settings)

/-- One more cycle has been spent, as long as the count has room. -/
theorem toNat_spendCycle {flight : InFlight} (h : flight.elapsed.toNat < 255) :
    flight.spendCycle.elapsed.toNat = flight.elapsed.toNat + 1 := by
  have hne : flight.elapsed ≠ 0xFF := by
    intro heq
    rw [heq] at h
    exact Nat.lt_irrefl _ h
  simp only [spendCycle, if_neg hne, UInt8.toNat_add, UInt8.reduceToNat]
  omega

/-- One more cycle is at least two cycles. -/
theorem serviceCycle_le_spendCycle {flight : InFlight} (h : flight.elapsed ≠ 0) :
    serviceCycle ≤ flight.spendCycle.elapsed := by
  have hpos : flight.elapsed.toNat ≠ 0 := fun hzero => h (UInt8.toNat_inj.mp hzero)
  by_cases hmax : flight.elapsed = 0xFF
  · simp only [spendCycle, if_pos hmax]
    decide
  · have hlt : flight.elapsed.toNat < 255 := by
      have hbyte := flight.elapsed.toNat_lt
      have hne : flight.elapsed.toNat ≠ 255 := fun heq => hmax (UInt8.toNat_inj.mp heq)
      omega
    rw [UInt8.le_iff_toNat_le, toNat_spendCycle hlt]
    change 2 ≤ _
    omega

/-- What has done its work is complete when its cycles are spent. -/
theorem isDone_eq_false {flight : InFlight} (hphase : flight.phase = .retire) :
    flight.isDone = false ↔ flight.elapsed.toNat < flight.total.toNat := by
  simp only [isDone, hphase, decide_true, Bool.true_and, decide_eq_false_iff_not, UInt8.not_le,
    UInt8.lt_iff_toNat_lt]

/-- What the check of snapshots asks of what is in flight. -/
theorem validate_eq_ok {flight : InFlight} {settings : CpuSettings} :
    flight.validate settings = .ok () ↔
      flight.elapsed ≠ 0 ∧ (flight.total = 0 ∨ flight.elapsed ≤ flight.total) ∧
        (flight.phase = .retire → flight.total ≠ 0) ∧
        match flight.activity with
        | .instruction => flight.fetched.toNat ≤ operandSize flight.opcode
        | .interrupt vector => vector.address = settings.vectorOf vector.line := by
  unfold validate
  simp only [SnapshotError.unless_bind_eq_ok]
  cases flight.activity with
  | instruction =>
    simp only [SnapshotError.unless_eq_ok]
    grind
  | interrupt vector =>
    simp only [SnapshotError.unless_eq_ok]
    grind

/-- A byte with a positive value is not zero. -/
private theorem ne_zero_of_pos {x : UInt8} (h : 0 < x.toNat) : x ≠ 0 := by
  rintro rfl
  exact Nat.lt_irrefl 0 h

/-- All that can be in flight passes the check of snapshots. -/
theorem Consistent.validate {settings : CpuSettings} {flight : InFlight}
    (h : flight.Consistent settings) : flight.validate settings = .ok () := by
  rw [validate_eq_ok]
  cases h with
  | fetching h =>
    have helapsed := h.elapsed
    refine ⟨ne_zero_of_pos (by omega), .inl h.total, ?_, ?_⟩
    · intro hretire
      rw [h.phase] at hretire
      cases hretire
    · rw [h.activity]
      exact Nat.le_of_lt h.missing
  | waiting h =>
    have helapsed := h.elapsed
    have hunfinished := h.unfinished
    refine ⟨ne_zero_of_pos (by omega), .inr (UInt8.le_iff_toNat_le.mpr (by omega)),
      fun _ => ne_zero_of_pos (by omega), ?_⟩
    rw [h.activity]
    exact Nat.le_of_eq h.fetched
  | acknowledged h =>
    have helapsed := h.elapsed
    have htotal := h.total
    obtain ⟨line, hactivity⟩ := h.activity
    refine ⟨ne_zero_of_pos (by omega), .inr (UInt8.le_iff_toNat_le.mpr (by omega)),
      fun _ => ne_zero_of_pos (by omega), ?_⟩
    rw [hactivity]
  | served h =>
    have hstarted := h.started
    have hunfinished := h.unfinished
    have htotal := h.total
    obtain ⟨line, hactivity⟩ := h.activity
    refine ⟨ne_zero_of_pos (by omega), .inr (UInt8.le_iff_toNat_le.mpr (by omega)),
      fun _ => ne_zero_of_pos (by omega), ?_⟩
    rw [hactivity]

/-- A processor with other settings can take over what is in flight if the check of snapshots
finds the vectors right. -/
theorem Consistent.of_validate {settings other : CpuSettings} {flight : InFlight}
    (h : flight.Consistent other) (hvalid : flight.validate settings = .ok ()) :
    flight.Consistent settings := by
  obtain ⟨-, -, -, hvector⟩ := validate_eq_ok.mp hvalid
  have hactivity {line : Line} (hline : flight.activity = .interrupt ⟨other.vectorOf line, line⟩) :
      flight.activity = .interrupt ⟨settings.vectorOf line, line⟩ := by
    rw [hline] at hvector
    have haddress : other.vectorOf line = settings.vectorOf line := hvector
    rw [hline, haddress]
  cases h with
  | fetching h => exact .fetching h
  | waiting h => exact .waiting h
  | acknowledged h =>
    obtain ⟨line, hline⟩ := h.activity
    exact .acknowledged { h with activity := ⟨line, hactivity hline⟩ }
  | served h =>
    obtain ⟨line, hline⟩ := h.activity
    exact .served { h with activity := ⟨line, hactivity hline⟩ }

/-- The next operand byte arrives one cycle later. -/
theorem IsFetching.hasFetched_storeOperand {flight : InFlight} (h : flight.IsFetching)
    (value : UInt8) :
    (flight.spendCycle.storeOperand value).HasFetched := by
  have hsize := (Descriptor.ofOpcode flight.opcode).mode.operandSize_le_two
  have hcount : flight.fetched.toNat < 2 := Nat.lt_of_lt_of_le h.missing hsize
  have hmissing := h.missing
  have helapsed := h.elapsed
  have hspend := toNat_spendCycle (show flight.elapsed.toNat < 255 by omega)
  have hnext : (flight.fetched + 1).toNat = flight.fetched.toNat + 1 := by
    rw [UInt8.toNat_add, show (1 : UInt8).toNat = 1 from rfl]
    omega
  refine
    { activity := h.activity
      phase := h.phase
      fetched := ?_
      elapsed := ?_
      total := h.total
      extraCycles := h.extraCycles
      nzResult := h.nzResult
      operand := ?_ }
  · change (flight.fetched + 1).toNat ≤ operandSize flight.opcode
    omega
  · change flight.spendCycle.elapsed.toNat = 1 + (flight.fetched + 1).toNat
    omega
  · intro i hi hpast
    change (flight.fetched + 1).toNat ≤ i at hpast
    change (flight.operand.setIfInBounds flight.fetched.toNat value)[i] = 0
    rw [Vector.getElem_setIfInBounds_ne _ (by omega)]
    exact h.operand i hi (by omega)

end InFlight

end W65C02
