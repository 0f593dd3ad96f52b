import Mathlib.Data.List.Forall2
import W65C02.Proofs.Bus.Layout

/-!
# Snapshots between address maps of one layout

A map accepts the snapshot of a sound one with the same layout, and then it is that one with all
device clocks started anew. A snapshot that is accepted keeps the layout in any case.
-/

namespace W65C02

namespace Mapping

/-- The clock of the device started anew. -/
def restartClock (m : Mapping) : Mapping := { m with residue := 0 }

/-- A mapping that takes over the snapshot of a sound one keeps its slot and stays sound. -/
theorem leadsTo_apply {m other : Mapping} (hother : other.Sound)
    (h : m.validate other.snapshot = .ok ()) : m.LeadsTo (m.apply other.snapshot) := by
  obtain ⟨-, hdevice⟩ := validate_eq_ok.mp h
  obtain ⟨hname, hkind, hsize⟩ := Device.apply_keeps hdevice
  constructor
  · simp only [slot, apply, hname, hkind, hsize]
  · intro hm
    exact ⟨Device.sound_apply hother.device hdevice, hm.divider_pos⟩

/-- A mapping with the same slot, and the same processor if it is one. Another processor may have
other settings and another memory. -/
structure Twin (m other : Mapping) : Prop where
  /-- The slot is the same. -/
  slot : m.slot = other.slot
  /-- A processor is the same. -/
  cpu : m = other ∨ m.slot.kind ≠ .cpu

/-- A mapping accepts the snapshot of a sound twin. -/
theorem Twin.validate {m other : Mapping} (h : m.Twin other) (hsound : other.Sound) :
    m.validate other.snapshot = .ok () := by
  have hslot := h.slot
  have hkind : m.device.kind = other.device.kind := congrArg Slot.kind hslot
  have hsize : m.device.capacity = other.device.capacity := congrArg Slot.size hslot
  rw [validate_eq_ok]
  constructor
  · exact ⟨congrArg Slot.name hslot, congrArg Slot.start hslot, congrArg Slot.finish hslot⟩
  · exact Device.validate_snapshot hsound.device hkind hsize
      (h.cpu.imp_left (congrArg Mapping.device))

/-- A mapping that takes over the snapshot of a twin becomes that one, but its clock starts
anew. -/
theorem Twin.apply {m other : Mapping} (h : m.Twin other) :
    m.apply other.snapshot = other.restartClock := by
  have hslot := h.slot
  have hdevice : m.device.apply other.device.snapshot = other.device :=
    Device.apply_snapshot (congrArg Slot.name hslot) (congrArg Slot.kind hslot)
      (h.cpu.imp_left (congrArg Mapping.device))
  have hstart : m.start = other.start := congrArg Slot.start hslot
  have hfinish : m.finish = other.finish := congrArg Slot.finish hslot
  have hdivider : m.divider = other.divider := congrArg Slot.divider hslot
  simp only [Mapping.apply, snapshot, hdevice, hstart, hfinish, hdivider, restartClock]

end Mapping

/-- Address maps whose mappings are twins, one by one. -/
abbrev MappingsTwin (mappings others : List Mapping) : Prop :=
  List.Forall₂ Mapping.Twin mappings others

namespace MappingsTwin

/-- Each mapping is its own twin. -/
theorem refl (mappings : List Mapping) : MappingsTwin mappings mappings :=
  List.forall₂_same.mpr fun _ _ => ⟨rfl, .inl rfl⟩

/-- Mappings of one layout are twins if there is no processor among them. -/
theorem of_slots {mappings others : List Mapping}
    (hslots : mappings.map (·.slot) = others.map (·.slot))
    (hcpu : ∀ slot ∈ mappings.map (·.slot), slot.kind ≠ .cpu) : MappingsTwin mappings others := by
  induction mappings generalizing others with
  | nil =>
    obtain rfl := List.map_eq_nil_iff.mp hslots.symm
    exact .nil
  | cons m mappings ih =>
    cases others with
    | nil => cases hslots
    | cons other others =>
      obtain ⟨hfirst, hrest⟩ := List.cons.inj hslots
      obtain ⟨hne, hneRest⟩ := List.forall_mem_cons.mp hcpu
      exact .cons ⟨hfirst, .inr hne⟩ (ih hrest hneRest)

/-- The snapshots of sound twins are accepted. -/
theorem validateAll {mappings others : List Mapping} (h : MappingsTwin mappings others)
    (hsound : ∀ m ∈ others, m.Sound) :
    MappedBus.validateAll mappings (others.map (·.snapshot)) = .ok () := by
  induction h with
  | nil => rfl
  | cons hfirst _ ih =>
    obtain ⟨hsoundFirst, hsoundRest⟩ := List.forall_mem_cons.mp hsound
    exact MappedBus.validateAll_cons_eq_ok.mpr ⟨hfirst.validate hsoundFirst, ih hsoundRest⟩

/-- Taking over the snapshots of the twins makes the mappings equal to them, with their clocks
restarted. -/
theorem zipWith_apply {mappings others : List Mapping} (h : MappingsTwin mappings others) :
    List.zipWith Mapping.apply mappings (others.map (·.snapshot)) =
      others.map (·.restartClock) := by
  induction h with
  | nil => rfl
  | cons hfirst _ ih => simp only [List.map_cons, List.zipWith_cons_cons, hfirst.apply, ih]

end MappingsTwin

namespace MappedBus

/-- All device clocks started anew. -/
def restartClocks (bus : MappedBus) : MappedBus :=
  { bus with mappings := bus.mappings.map (·.restartClock) }

/-- The check of a transfer asks that it belongs to a device and is not past its end. -/
theorem validateTransfer_eq_ok {count : Nat} {transfer : Option TransferProgress} :
    validateTransfer count transfer = .ok () ↔
      ∀ progress, transfer = some progress → progress.Fits count := by
  cases transfer with
  | none =>
    constructor
    · intro _ progress hnone
      cases hnone
    · intro _
      rfl
  | some progress =>
    unfold validateTransfer
    simp only [SnapshotError.unless_bind_eq_ok, SnapshotError.unless_eq_ok, decide_eq_true_eq,
      Option.some.injEq]
    constructor
    · rintro ⟨howner, hindex⟩ _ rfl
      exact ⟨howner, hindex⟩
    · intro h
      have hfits := h progress rfl
      exact ⟨hfits.owner, hfits.index⟩

/-- A map accepts the snapshot of a sound one with the same layout. -/
theorem validate_snapshots {bus other : MappedBus} (hsound : other.Sound)
    (h : MappingsTwin bus.mappings other.mappings) :
    bus.validate other.deviceSnapshots other.arbitration = .ok () := by
  have hlength := h.length_eq
  refine validate_eq_ok.mpr ⟨?_, h.validateAll hsound.mappings, ?_⟩
  · simp only [deviceSnapshots, List.length_map, hlength]
  · rw [validateTransfer_eq_ok, hlength]
    exact hsound.transfer

/-- A map that takes over the snapshot of one with the same layout becomes that one, but the
clocks of its devices start anew. -/
theorem apply_snapshots {bus other : MappedBus} (h : MappingsTwin bus.mappings other.mappings) :
    bus.apply other.deviceSnapshots other.arbitration = other.restartClocks := by
  simp only [apply, deviceSnapshots, h.zipWith_apply, arbitration, restartClocks]

/-- Mappings that take over the snapshots of sound ones keep their slots and stay sound. -/
theorem leadTo_zipWith_apply {mappings others : List Mapping} (hsound : ∀ m ∈ others, m.Sound)
    (hlength : others.length = mappings.length)
    (h : validateAll mappings (others.map (·.snapshot)) = .ok ()) :
    MappingsLeadTo mappings (List.zipWith Mapping.apply mappings (others.map (·.snapshot))) := by
  induction mappings generalizing others with
  | nil => exact .refl []
  | cons m mappings ih =>
    cases others with
    | nil => cases hlength
    | cons other others =>
      obtain ⟨hsoundFirst, hsoundRest⟩ := List.forall_mem_cons.mp hsound
      obtain ⟨hfirst, hrest⟩ := validateAll_cons_eq_ok.mp h
      exact .cons (Mapping.leadsTo_apply hsoundFirst hfirst)
        (ih hsoundRest (Nat.succ.inj hlength) hrest)

/-- A map that takes over the snapshot of a sound one keeps its layout and stays sound. -/
theorem leadsTo_apply {bus other : MappedBus} (hother : other.Sound)
    (h : bus.validate other.deviceSnapshots other.arbitration = .ok ()) :
    bus.LeadsTo (bus.apply other.deviceSnapshots other.arbitration) := by
  obtain ⟨hcount, hall, htransfer⟩ := validate_eq_ok.mp h
  have hlength : other.mappings.length = bus.mappings.length := by
    simpa [deviceSnapshots] using hcount
  have hmappings := leadTo_zipWith_apply hother.mappings hlength hall
  have hfits := validateTransfer_eq_ok.mp htransfer
  rw [← hmappings.length_eq] at hfits
  constructor
  · exact hmappings.slots
  · intro hsound
    exact ⟨hmappings.sound hsound.mappings, hfits⟩

end MappedBus

end W65C02
