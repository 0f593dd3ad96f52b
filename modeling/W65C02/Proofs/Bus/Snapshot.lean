import W65C02.Bus.Mapped.Snapshot
import W65C02.Proofs.Interrupt.SourceSet

/-!
# Taking over the state of the address map

A snapshot is written device by device, and each device looks at its part once more. Once the
snapshot as a whole has been checked none of them refuses, so the stages come to one operation
that changes everything at once. What is then recorded is what was written, with the sources of
interrupts sorted.
-/

namespace W65C02

/-- The snapshot with its list of sources sorted and without repetition. -/
def LinesSnapshot.sortSources (p : LinesSnapshot) : LinesSnapshot :=
  { p with irqSources := sortedNames p.irqSources }

/-- The snapshot with its list of sources sorted and without repetition. -/
def CpuSnapshot.sortSources (state : CpuSnapshot) : CpuSnapshot :=
  { state with pending := state.pending.sortSources }

/-- The snapshot with all lists of sources sorted and without repetition. Only a processor has
such a list. -/
def DeviceSnapshot.sortSources : DeviceSnapshot → DeviceSnapshot
  | .cpu state => .cpu state.sortSources
  | state => state

/-- The snapshot with all lists of sources sorted and without repetition. -/
def MappingSnapshot.sortSources (saved : MappingSnapshot) : MappingSnapshot :=
  { saved with device := saved.device.sortSources }

/-- Lines that were restored have the same snapshot again, with the sources in order. -/
theorem Lines.toSnapshot_ofSnapshot (p : LinesSnapshot) :
    (Lines.ofSnapshot p).toSnapshot = p.sortSources := by
  simp only [toSnapshot, ofSnapshot, SourceSet.names_ofList, LinesSnapshot.sortSources]

/-- A processor records the state that it was given. -/
theorem Cpu.snapshot_apply {β : Type} (c : Cpu β) (state : CpuSnapshot) :
    (c.apply state).snapshot = state.sortSources := by
  simp only [snapshot, apply, InterruptController.restore, Lines.toSnapshot_ofSnapshot,
    CpuSnapshot.sortSources]

/-- A device records the state that it was given if it was one of its own. -/
theorem Device.snapshot_apply {device : Device} {state : DeviceSnapshot}
    (h : device.validate state = .ok ()) : (device.apply state).snapshot = state.sortSources := by
  cases device with
  | cpu c =>
    cases state with
    | cpu saved => exact congrArg DeviceSnapshot.cpu (c.snapshot_apply saved)
    | _ => cases h
  | _ =>
    cases state with
    | _ => first | rfl | cases h

/-- A device keeps its name whatever state it is given. -/
theorem Device.name_apply (device : Device) (state : DeviceSnapshot) :
    (device.apply state).name = device.name := by
  cases device <;> cases state <;> rfl

namespace Mapping

/-- Gives the device a recorded state without looking at it; its clock starts anew. -/
def apply (m : Mapping) (saved : MappingSnapshot) : Mapping :=
  { m with device := m.device.apply saved.device, residue := 0 }

/-- A mapping accepts what was saved under its name and range, if its device does. -/
theorem validate_eq_ok {m : Mapping} {saved : MappingSnapshot} :
    m.validate saved = .ok () ↔
      (m.device.name = saved.name ∧ m.start = saved.start ∧ m.finish = saved.finish) ∧
        m.device.validate saved.device = .ok () := by
  unfold validate
  split
  · simp [*]
  · simp [*]

/-- What has been checked is written without a refusal. -/
theorem restore_eq {m : Mapping} {saved : MappingSnapshot} (h : m.validate saved = .ok ()) :
    m.restore saved = .ok (m.apply saved) := by
  obtain ⟨-, hdevice⟩ := validate_eq_ok.mp h
  simp only [restore, Device.restore, hdevice, apply]

/-- A mapping records the state that it was given. -/
theorem snapshot_apply {m : Mapping} {saved : MappingSnapshot} (h : m.validate saved = .ok ()) :
    (m.apply saved).snapshot = saved.sortSources := by
  obtain ⟨⟨hname, hstart, hfinish⟩, hdevice⟩ := validate_eq_ok.mp h
  simp only [snapshot, apply, Device.name_apply, hname, hstart, hfinish,
    Device.snapshot_apply hdevice, MappingSnapshot.sortSources]

end Mapping

namespace MappedBus

/-- Mappings accept what was saved if the first one does, and the others do. -/
theorem validateAll_cons_eq_ok {m : Mapping} {mappings : List Mapping} {saved : MappingSnapshot}
    {states : List MappingSnapshot} :
    validateAll (m :: mappings) (saved :: states) = .ok () ↔
      m.validate saved = .ok () ∧ validateAll mappings states = .ok () := by
  simp only [validateAll]
  cases m.validate saved with
  | ok => simp
  | error e => simp

/-- What has been checked is written to all devices without a refusal. -/
theorem writeAll_eq {mappings : List Mapping} {states : List MappingSnapshot}
    (hlength : states.length = mappings.length) (h : validateAll mappings states = .ok ()) :
    writeAll mappings states = (.ok (), List.zipWith Mapping.apply mappings states) := by
  induction mappings generalizing states with
  | nil =>
    obtain rfl := List.length_eq_zero_iff.mp hlength
    rfl
  | cons m mappings ih =>
    cases states with
    | nil => cases hlength
    | cons saved states =>
      obtain ⟨hfirst, hrest⟩ := validateAll_cons_eq_ok.mp h
      have hlength' : states.length = mappings.length := Nat.succ.inj hlength
      simp only [writeAll, Mapping.restore_eq hfirst, ih hlength' hrest, List.zipWith_cons_cons]

/-- All devices record the states that they were given. -/
theorem map_snapshot_zipWith {mappings : List Mapping} {states : List MappingSnapshot}
    (hlength : states.length = mappings.length) (h : validateAll mappings states = .ok ()) :
    (List.zipWith Mapping.apply mappings states).map (·.snapshot) =
      states.map (·.sortSources) := by
  induction mappings generalizing states with
  | nil =>
    obtain rfl := List.length_eq_zero_iff.mp hlength
    rfl
  | cons m mappings ih =>
    cases states with
    | nil => cases hlength
    | cons saved states =>
      obtain ⟨hfirst, hrest⟩ := validateAll_cons_eq_ok.mp h
      have hlength' : states.length = mappings.length := Nat.succ.inj hlength
      simp only [List.zipWith_cons_cons, List.map_cons, Mapping.snapshot_apply hfirst,
        ih hlength' hrest]

/-- Takes over a snapshot without looking at it. -/
def apply (bus : MappedBus) (states : List MappingSnapshot) (state : Arbitration) : MappedBus :=
  ⟨List.zipWith Mapping.apply bus.mappings states, state.holder, state.transfer⟩

/-- What the check of a snapshot asks. -/
theorem validate_eq_ok {bus : MappedBus} {states : List MappingSnapshot} {state : Arbitration} :
    bus.validate states state = .ok () ↔
      states.length = bus.mappings.length ∧ validateAll bus.mappings states = .ok () ∧
        validateTransfer bus.mappings.length state.transfer = .ok () := by
  unfold validate
  by_cases hlength : states.length = bus.mappings.length
  · cases validateAll bus.mappings states with
    | ok => simp [hlength, Bind.bind, Except.bind]
    | error e => simp [hlength, Bind.bind, Except.bind]
  · simp [hlength, Bind.bind, Except.bind, throw, throwThe, MonadExceptOf.throw]

/-- A snapshot is written as a whole or not at all. -/
theorem takeOver_eq (bus : MappedBus) (states : List MappingSnapshot) (state : Arbitration) :
    bus.takeOver states state =
      match bus.validate states state with
      | .ok () => (.ok (), bus.apply states state)
      | .error e => (.error e, bus) := by
  unfold takeOver
  cases hvalid : bus.validate states state with
  | error e => rfl
  | ok =>
    obtain ⟨hlength, hall, -⟩ := validate_eq_ok.mp hvalid
    simp only [writeAll_eq hlength hall, apply]

end MappedBus

end W65C02
