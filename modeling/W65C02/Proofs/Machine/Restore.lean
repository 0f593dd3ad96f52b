import W65C02.Machine
import W65C02.Proofs.Bus.Snapshot

/-!
# Taking over the state of a machine

A machine checks a snapshot before it writes any of it. The parts check theirs again while they
are written, but none of them can refuse what has passed the first check, so no refusal comes
when part of the snapshot has been written. What was written is what is recorded afterwards.
-/

namespace W65C02

/-- The snapshot with all lists of sources sorted and without repetition. -/
def MachineSnapshot.sortSources (state : MachineSnapshot) : MachineSnapshot where
  cpu := state.cpu.sortSources
  devices := state.devices.map (·.sortSources)
  bus := state.bus

namespace Machine

/-- Takes over a snapshot without looking at it. -/
def apply (s : Machine) (state : MachineSnapshot) : Machine :=
  (s.mapBus (·.apply state.devices state.bus)).mapCpu (·.apply state.cpu)

/-- A machine accepts what its processor and its address map accept. -/
theorem validate_eq_ok {s : Machine} {state : MachineSnapshot} :
    s.validate state = .ok () ↔
      state.cpu.validate s.cpu.settings = .ok () ∧
        s.bus.validate state.devices state.bus = .ok () := by
  unfold validate
  cases state.cpu.validate s.cpu.settings with
  | ok => simp
  | error e => simp

/-- A snapshot is written as a whole or not at all. -/
theorem takeOver_eq (s : Machine) (state : MachineSnapshot) :
    s.takeOver state =
      match s.validate state with
      | .ok () => (.ok (), s.apply state)
      | .error e => (.error e, s) := by
  unfold takeOver
  cases hvalid : s.validate state with
  | error e => rfl
  | ok =>
    obtain ⟨hcpu, hbus⟩ := validate_eq_ok.mp hvalid
    have hrestore : (s.mapBus fun _ => s.bus.apply state.devices state.bus).cpu.restore state.cpu =
        .ok ((s.mapBus fun _ => s.bus.apply state.devices state.bus).cpu.apply state.cpu) := by
      simp only [Cpu.restore]
      change (match state.cpu.validate s.cpu.settings with
        | .ok () => _
        | .error e => _) = _
      rw [hcpu]
    simp only [MappedBus.takeOver_eq, hbus, hrestore]
    rfl

/-- A state is checked first, and only then taken over. -/
theorem restore_eq (s : Machine) (state : MachineSnapshot) :
    s.restore state =
      match s.validate state with
      | .ok () => .ok (s.apply state)
      | .error e => .error e := by
  unfold restore
  rw [takeOver_eq]
  cases s.validate state with
  | ok => rfl
  | error e => rfl

/-- A state is taken over exactly if it passes the check. -/
theorem restore_eq_ok {s t : Machine} {state : MachineSnapshot} :
    s.restore state = .ok t ↔ s.validate state = .ok () ∧ t = s.apply state := by
  rw [restore_eq]
  cases s.validate state with
  | ok => simp [eq_comm]
  | error e => simp

/-- A machine records the state that it was given if it could be in it. -/
theorem snapshot_apply {s : Machine} {state : MachineSnapshot} (h : s.validate state = .ok ()) :
    (s.apply state).snapshot = state.sortSources := by
  obtain ⟨-, hbus⟩ := validate_eq_ok.mp h
  obtain ⟨hlength, hall, -⟩ := MappedBus.validate_eq_ok.mp hbus
  have hcpu := Cpu.snapshot_apply (s.mapBus (·.apply state.devices state.bus)).cpu state.cpu
  have hdevices := MappedBus.map_snapshot_zipWith hlength hall
  change MachineSnapshot.mk _ (List.map _ (List.zipWith _ s.bus.mappings state.devices)) state.bus =
    _
  rw [hdevices]
  exact congrArg (MachineSnapshot.mk · _ _) hcpu

/-- Taking over a snapshot is all or nothing, and faithful. It succeeds if the processor and the
address map accept their parts. Then the machine records that snapshot, with the sources of
interrupts sorted and without repetition. If it fails, nothing at all has changed. -/
theorem takeOver_all_or_nothing (s : Machine) (state : MachineSnapshot) :
    ((s.takeOver state).1 = .ok () ↔
      state.cpu.validate s.cpu.settings = .ok () ∧
        s.bus.validate state.devices state.bus = .ok ()) ∧
      ((s.takeOver state).1 = .ok () → (s.takeOver state).2.snapshot = state.sortSources) ∧
      ((s.takeOver state).1 ≠ .ok () → (s.takeOver state).2 = s) := by
  rw [takeOver_eq, ← validate_eq_ok]
  cases hvalid : s.validate state with
  | ok => exact ⟨by simp, fun _ => snapshot_apply hvalid, fun hne => absurd rfl hne⟩
  | error e =>
    refine ⟨by simp, fun hok => ?_, fun _ => rfl⟩
    cases hok

end Machine

end W65C02
