import W65C02.Proofs.Bus.Mastership
import W65C02.Proofs.Bus.Restore

/-!
# The arbitration that a map accepts

The check of a snapshot compares the recorded transfer with the devices that are mapped, but it does
not look at the recorded holder. So a map accepts the processor as holder, and a transfer whose
owner does not hold the bus. The arbitration is coherent afterwards exactly if it was recorded so,
and this is what it takes for the processor to be kept from the bus during a transfer and to get it
back in the end.
-/

namespace W65C02

namespace MappedBus

variable {bus bus' : MappedBus} {states : List MappingSnapshot} {state : Arbitration}

/-- A snapshot is taken over if it passes the check. -/
theorem restore_eq_ok :
    bus.restore states state = .ok bus' ↔
      bus.validate states state = .ok () ∧ bus' = bus.apply states state := by
  unfold restore
  rw [takeOver_eq]
  cases bus.validate states state with
  | ok => simp [eq_comm]
  | error e => simp

/-- The names of the devices stay, whatever states they are given. -/
theorem nameAt?_apply (hlength : states.length = bus.mappings.length) (place : ℕ) :
    (bus.apply states state).nameAt? place = bus.nameAt? place := by
  unfold nameAt? apply
  simp only [List.getElem?_zipWith]
  cases hm : bus.mappings[place]? with
  | none => rfl
  | some m =>
    have hplace : place < states.length := by
      rw [hlength]
      exact (List.getElem?_eq_some_iff.mp hm).1
    simp only [List.getElem?_eq_getElem hplace, Mapping.apply, Option.map_some, Device.name_apply]

/-- The map with a recorded arbitration. -/
def arbitrate (bus : MappedBus) (state : Arbitration) : MappedBus :=
  { bus with holder := state.holder, transfer := state.transfer }

/-- Whether a snapshot passes the check does not depend on the holder. -/
theorem validate_holder (holder : Option String) :
    bus.validate states { state with holder } = bus.validate states state := rfl

/-- A map accepts a recorded arbitration whoever the holder is. Afterwards the arbitration is
coherent exactly if it was recorded so, and that is to say that the processor is not the holder and
gets the bus back when a transfer under way is complete, but not before. -/
theorem coherent_of_restore_iff (h : bus.restore states state = .ok bus') :
    (bus'.Coherent ↔ (bus.arbitrate state).Coherent) ∧
      (bus'.Coherent ↔
        bus'.holder ≠ some cpuName ∧
          (bus'.transfer.isSome → ∀ lines cycles,
            Bus.cpuHasBus (runTransfer ⟨bus', lines⟩ cycles).bus = true ↔
              (runTransfer ⟨bus', lines⟩ cycles).bus.transfer = none)) ∧
      ∀ holder, ∃ other,
        bus.restore states { state with holder } = .ok other ∧ other.holder = holder := by
  obtain ⟨hvalid, rfl⟩ := restore_eq_ok.mp h
  obtain ⟨hlength, -, -⟩ := validate_eq_ok.mp hvalid
  have hnames (place : ℕ) :
      (bus.apply states state).nameAt? place = (bus.arbitrate state).nameAt? place :=
    nameAt?_apply hlength place
  refine ⟨⟨?_, ?_⟩, coherent_iff _, fun holder => ?_⟩
  · exact fun hcoherent => hcoherent.of_names rfl rfl fun place => (hnames place).symm
  · exact fun hcoherent => hcoherent.of_names rfl rfl hnames
  · refine ⟨_, restore_eq_ok.mpr ⟨?_, rfl⟩, rfl⟩
    rw [validate_holder]
    exact hvalid

/-- A map with a DMA controller and nothing else. -/
def controller : MappedBus :=
  { mappings := [{ start := 0xFF00, finish := 0xFF05, device := .dma (.create "dma") }] }

/-- The transfer of a byte that has just started. -/
def firstByte : TransferProgress := ⟨0, ⟨0, 0x80, 1⟩, 0, none⟩

/-- A transfer whose owner is recorded as the holder is accepted, and the processor is kept from the
bus until it is complete. -/
theorem coherent_restore_controller :
    ∃ bus', controller.restore controller.deviceSnapshots ⟨some "dma", some firstByte⟩ = .ok bus' ∧
      bus'.Coherent ∧ ∀ lines cycles,
        Bus.cpuHasBus (runTransfer ⟨bus', lines⟩ cycles).bus = true ↔
          (runTransfer ⟨bus', lines⟩ cycles).bus.transfer = none := by
  have hrestore : controller.restore controller.deviceSnapshots ⟨some "dma", some firstByte⟩ =
      .ok ⟨controller.mappings, some "dma", some firstByte⟩ := rfl
  obtain ⟨hrecorded, hshares, -⟩ := coherent_of_restore_iff hrestore
  have hcoherent : (controller.arbitrate ⟨some "dma", some firstByte⟩).Coherent := by
    refine ⟨by decide, fun transfer hsome => ?_⟩
    cases hsome
    exact ⟨"dma", rfl, rfl⟩
  have hafter := hrecorded.mpr hcoherent
  exact ⟨_, hrestore, hafter, (hshares.mp hafter).2 rfl⟩

/-- But the processor is accepted as holder, and so is a transfer without one. -/
theorem not_coherent_of_restore :
    (¬ ∀ (bus bus' : MappedBus) states state, (∀ slot ∈ bus.layout, slot.name ≠ cpuName) →
        bus.restore states state = .ok bus' → bus'.holder ≠ some cpuName) ∧
      ¬ ∀ (bus bus' : MappedBus) states state, (∀ slot ∈ bus.layout, slot.name ≠ cpuName) →
        bus.restore states state = .ok bus' → ∀ transfer, bus'.transfer = some transfer →
          ∃ name, bus'.nameAt? transfer.owner.toNat = some name ∧ bus'.holder = some name := by
  have hnames : ∀ slot ∈ controller.layout, slot.name ≠ cpuName := by decide
  constructor
  · intro hclaim
    exact hclaim controller _ controller.deviceSnapshots ⟨some cpuName, none⟩ hnames rfl rfl
  · intro hclaim
    obtain ⟨name, -, hholder⟩ :=
      hclaim controller _ controller.deviceSnapshots ⟨none, some firstByte⟩ hnames rfl _ rfl
    cases hholder

end MappedBus

end W65C02
