import W65C02.Proofs.Bus.Snapshot
import W65C02.Proofs.Device.Soundness

/-!
# The layout of the address map

Once devices have been placed, their names, ranges, kinds, sizes and dividers stay as they are.
Together they are the layout. Whatever happens on the map keeps the layout, the soundness of the
devices, and a transfer that belongs to a mapped device and is not past its end.
-/

namespace W65C02

/-- What is fixed about a mapping. -/
structure Slot where
  /-- The name of the device. -/
  name : String
  /-- The first address. -/
  start : UInt16
  /-- The last address. -/
  finish : UInt16
  /-- The kind of the device. -/
  kind : DeviceKind
  /-- How many bytes the device offers. -/
  size : Nat
  /-- How many machine clocks make one clock of the device. -/
  divider : UInt32
  deriving DecidableEq

/-- Whether a mapping has an address in common with a range. -/
def Slot.meets (slot : Slot) (start finish : UInt16) : Bool :=
  decide (start ≤ slot.finish ∧ slot.start ≤ finish)

namespace Mapping

/-- What is fixed about a mapping. -/
def slot (m : Mapping) : Slot :=
  ⟨m.device.name, m.start, m.finish, m.device.kind, m.device.capacity, m.divider⟩

/-- The device is sound, and its next clock is not overdue. -/
structure Sound (m : Mapping) : Prop where
  /-- The device is sound. -/
  device : m.device.Sound
  /-- Fewer machine clocks have come together than make a clock of the device. -/
  residue : m.residue < m.divider

/-- A clock of a sound mapping takes a machine clock at least. -/
theorem Sound.divider_pos {m : Mapping} (h : m.Sound) : 0 < m.divider :=
  UInt32.lt_of_le_of_lt UInt32.zero_le h.residue

/-- A divider counts as one at least. -/
theorem max_one_pos (divider : UInt32) : 0 < max divider 1 := by
  change 0 < if divider ≤ 1 then 1 else divider
  split
  · decide
  · next hlarge => exact UInt32.lt_trans (by decide) (UInt32.not_le.mp hlarge)

/-- What comes together is counted exactly if it fits in thirty-two bits. -/
theorem toNat_total_of_lt (m : Mapping) {cycles : ℕ} (h : m.residue.toNat + cycles < 2 ^ 32) :
    (m.total cycles).toNat = m.residue.toNat + cycles := by
  rw [total, UInt32.toNat_add, UInt32.toNat_ofNat', Nat.add_mod_mod, Nat.mod_eq_of_lt h]

/-- What a mapping can become: it keeps its slot, and it stays sound. -/
structure LeadsTo (m m' : Mapping) : Prop where
  /-- The slot stays. -/
  slot : m'.slot = m.slot
  /-- Soundness stays. -/
  sound : m.Sound → m'.Sound

/-- A mapping can stay what it is. -/
theorem LeadsTo.refl (m : Mapping) : m.LeadsTo m := ⟨rfl, id⟩

/-- A change of the device alone. -/
theorem LeadsTo.ofDevice (m : Mapping) {device : Device} (h : m.device.LeadsTo device) :
    m.LeadsTo { m with device } := by
  constructor
  · simp only [Mapping.slot, h.name, h.kind, h.capacity]
  · intro hsound
    exact ⟨h.sound hsound.device, hsound.residue⟩

variable (m : Mapping) (lines : Lines)

/-- A read keeps the slot and the soundness of a mapping, -/
theorem leadsTo_read (address : UInt16) : m.LeadsTo (m.read lines address).2.1 :=
  .ofDevice m (m.device.leadsTo_read lines _)

/-- a write does, -/
theorem leadsTo_write (address : UInt16) (value : UInt8) :
    m.LeadsTo (m.write lines address value).1 :=
  .ofDevice m (m.device.leadsTo_write lines _ value)

/-- and so does the end of a transfer. -/
theorem leadsTo_completeTransfer : m.LeadsTo (m.completeTransfer lines).1 :=
  .ofDevice m (m.device.leadsTo_completeTransfer lines)

/-- After a reset no machine clock is left over. -/
theorem leadsTo_reset : m.LeadsTo (m.reset lines).1 := by
  have h := LeadsTo.ofDevice m (m.device.leadsTo_reset lines)
  constructor
  · exact h.slot
  · intro hsound
    exact ⟨(h.sound hsound).device, hsound.divider_pos⟩

/-- What is left over of the machine clocks makes less than one clock of the device. -/
theorem leadsTo_tick (cycles : Nat) : m.LeadsTo (m.tick lines cycles).1 := by
  have h : m.LeadsTo { m with
      device := (if m.clocks cycles = 0 then (m.device, lines)
        else m.device.tick lines (m.clocks cycles).toNat).1 } := by
    split
    · exact .ofDevice m (.refl _)
    · exact .ofDevice m (m.device.leadsTo_tick lines _)
  constructor
  · exact h.slot
  · intro hsound
    exact ⟨(h.sound hsound).device, UInt32.mod_lt _ hsound.divider_pos⟩

end Mapping

/-- What a list of mappings can become, each of them by itself. -/
structure MappingsLeadTo (mappings mappings' : List Mapping) : Prop where
  /-- The slots stay. -/
  slots : mappings'.map (·.slot) = mappings.map (·.slot)
  /-- Soundness stays. -/
  sound : (∀ m ∈ mappings, m.Sound) → ∀ m ∈ mappings', m.Sound

namespace MappingsLeadTo

/-- Mappings can stay what they are. -/
theorem refl (mappings : List Mapping) : MappingsLeadTo mappings mappings := ⟨rfl, id⟩

/-- The first mapping changes by itself, and so do those behind it. -/
theorem cons {m m' : Mapping} {mappings mappings' : List Mapping} (hm : m.LeadsTo m')
    (h : MappingsLeadTo mappings mappings') : MappingsLeadTo (m :: mappings) (m' :: mappings') := by
  constructor
  · simp only [List.map_cons, hm.slot, h.slots]
  · intro hsound
    obtain ⟨hfirst, hrest⟩ := List.forall_mem_cons.mp hsound
    exact List.forall_mem_cons.mpr ⟨hm.sound hfirst, h.sound hrest⟩

/-- No mapping is added or removed. -/
theorem length_eq {mappings mappings' : List Mapping} (h : MappingsLeadTo mappings mappings') :
    mappings'.length = mappings.length := by
  have hlength := congrArg List.length h.slots
  simpa only [List.length_map] using hlength

end MappingsLeadTo

namespace MappedBus

/-- A read changes mappings in no other way, -/
theorem leadTo_readFrom (address : UInt16) (mappings : List Mapping) (lines : Lines) :
    MappingsLeadTo mappings (readFrom address mappings lines).2.1 := by
  induction mappings with
  | nil => exact .refl []
  | cons m rest ih =>
    unfold readFrom
    split
    · exact .cons (m.leadsTo_read lines address) (.refl rest)
    · exact .cons (.refl m) ih

/-- nor does a write, -/
theorem leadTo_writeTo (address : UInt16) (value : UInt8) (mappings : List Mapping)
    (lines : Lines) : MappingsLeadTo mappings (writeTo address value mappings lines).1 := by
  induction mappings with
  | nil => exact .refl []
  | cons m rest ih =>
    unfold writeTo
    split
    · exact .cons (m.leadsTo_write lines address value) (.refl rest)
    · exact .cons (.refl m) ih

/-- the end of a transfer, -/
theorem leadTo_completeAt (place : Nat) (mappings : List Mapping) (lines : Lines) :
    MappingsLeadTo mappings (completeAt place mappings lines).1 := by
  induction mappings generalizing place with
  | nil => cases place <;> exact .refl []
  | cons m rest ih =>
    cases place with
    | zero => exact .cons (m.leadsTo_completeTransfer lines) (.refl rest)
    | succ place => exact .cons (.refl m) (ih place)

/-- the passing of machine clocks, -/
theorem leadTo_tickAll (cycles : Nat) (mappings : List Mapping) (lines : Lines) :
    MappingsLeadTo mappings (tickAll cycles mappings lines).1 := by
  induction mappings generalizing lines with
  | nil => exact .refl []
  | cons m rest ih => exact .cons (m.leadsTo_tick lines cycles) (ih _)

/-- or a reset. -/
theorem leadTo_resetAll (mappings : List Mapping) (lines : Lines) :
    MappingsLeadTo mappings (resetAll mappings lines).1 := by
  induction mappings generalizing lines with
  | nil => exact .refl []
  | cons m rest ih => exact .cons (m.leadsTo_reset lines) (ih _)

/-- What is fixed about the devices, in mapping order. -/
def layout (bus : MappedBus) : List Slot := bus.mappings.map (·.slot)

/-- A device finds its place if the range is in order, no longer than the device, and free. It
comes last, and its clock takes one machine clock at least. -/
theorem add_eq_ok {bus bus' : MappedBus} {start finish : UInt16} {device : Device}
    {divider : UInt32} :
    bus.add start finish device divider = .ok bus' ↔
      ¬ finish < start ∧ finish.toNat - start.toNat + 1 ≤ device.size.toNat ∧
        (∀ slot ∈ bus.layout, slot.meets start finish = false) ∧
        bus' = { bus with
          mappings := bus.mappings ++ [{ start, finish, device, divider := max divider 1 }] } := by
  have hfree : (∀ slot ∈ bus.layout, slot.meets start finish = false) ↔
      bus.mappings.find? (·.meets start finish) = none := by
    simp only [layout, List.forall_mem_map, List.find?_eq_none, Bool.not_eq_true]
    rfl
  rw [hfree]
  unfold add refusal?
  by_cases hrange : finish < start ∨ device.size.toNat < finish.toNat - start.toNat + 1
  · rw [if_pos hrange]
    constructor
    · intro h
      cases h
    · rintro ⟨horder, hsize, -⟩
      exact absurd hrange (not_or.mpr ⟨horder, Nat.not_lt.mpr hsize⟩)
  · rw [if_neg hrange]
    obtain ⟨horder, hsize⟩ := not_or.mp hrange
    cases bus.mappings.find? (·.meets start finish) with
    | some other =>
      constructor
      · intro h
        cases h
      · rintro ⟨-, -, hnone, -⟩
        cases hnone
    | none =>
      constructor
      · intro h
        exact ⟨horder, Nat.not_lt.mp hsize, rfl, (Except.ok.inj h).symm⟩
      · rintro ⟨-, -, -, rfl⟩
        rfl

end MappedBus

/-- A transfer belongs to one of a number of devices and is not past its end. -/
structure TransferProgress.Fits (transfer : TransferProgress) (count : Nat) : Prop where
  /-- The transfer belongs to a device. -/
  owner : transfer.owner.toNat < count
  /-- The transfer is not past its end. -/
  index : transfer.index ≤ transfer.block.length

namespace MappedBus

/-- All devices are sound, and so is the transfer under way. -/
structure Sound (bus : MappedBus) : Prop where
  /-- All devices are sound. -/
  mappings : ∀ m ∈ bus.mappings, m.Sound
  /-- The transfer under way is sound. -/
  transfer : ∀ transfer, bus.transfer = some transfer → transfer.Fits bus.mappings.length

/-- What an address map can become: it keeps its layout, and it stays sound. -/
structure LeadsTo (bus bus' : MappedBus) : Prop where
  /-- The layout stays. -/
  layout : bus'.layout = bus.layout
  /-- Soundness stays. -/
  sound : bus.Sound → bus'.Sound

namespace LeadsTo

variable {bus bus' bus'' : MappedBus}

/-- A map can stay what it is. -/
theorem refl (bus : MappedBus) : bus.LeadsTo bus := ⟨rfl, id⟩

/-- One change of a map after another. -/
theorem trans (h : bus.LeadsTo bus') (h' : bus'.LeadsTo bus'') : bus.LeadsTo bus'' := by
  constructor
  · exact h'.layout.trans h.layout
  · intro hsound
    exact h'.sound (h.sound hsound)

/-- The devices change, and the transfer under way goes on or ends. -/
theorem ofMappings (bus : MappedBus) {mappings : List Mapping}
    (h : MappingsLeadTo bus.mappings mappings) (holder : Option String)
    {transfer : Option TransferProgress} (htransfer : transfer = bus.transfer ∨ transfer = none) :
    bus.LeadsTo ⟨mappings, holder, transfer⟩ := by
  constructor
  · exact h.slots
  · intro hsound
    constructor
    · exact h.sound hsound.mappings
    · intro progress hsome
      change transfer = some progress at hsome
      rcases htransfer with rfl | rfl
      · have hfits := hsound.transfer progress hsome
        rw [← h.length_eq] at hfits
        exact hfits
      · cases hsome

end LeadsTo

/-- A read keeps the layout and the soundness of a map. -/
theorem leadsTo_read (address : UInt16) (port : Port MappedBus) :
    port.bus.LeadsTo (port.read address).2.bus :=
  .ofMappings port.bus (leadTo_readFrom address port.bus.mappings port.lines) _ (.inl rfl)

/-- A write keeps the layout and the soundness of a map. -/
theorem leadsTo_write (address : UInt16) (value : UInt8) (port : Port MappedBus) :
    port.bus.LeadsTo (port.write address value).bus :=
  .ofMappings port.bus (leadTo_writeTo address value port.bus.mappings port.lines) _ (.inl rfl)

/-- Giving the bus back touches no device. -/
theorem leadsTo_release (bus : MappedBus) (requestor : String) :
    bus.LeadsTo (bus.release requestor) := by
  unfold release
  split
  · exact .ofMappings bus (.refl _) _ (.inl rfl)
  · exact .refl bus

/-- Asking for the bus touches no device. -/
theorem leadsTo_request (bus : MappedBus) (requestor : String) :
    bus.LeadsTo (bus.request requestor).2 := by
  unfold request
  split
  · exact .refl bus
  · split
    · exact .refl bus
    · exact .ofMappings bus (.refl _) _ (.inl rfl)

/-- A reset moves no device, and no transfer is left that could be out of bounds. -/
theorem leadsTo_reset (port : Port MappedBus) : port.bus.LeadsTo (reset port).bus :=
  .ofMappings port.bus (leadTo_resetAll port.bus.mappings port.lines) _ (.inr rfl)

/-- A device that asks for a transfer is mapped. -/
theorem firstRequest_lt {first place : Nat} {name : String} {block : BlockTransfer}
    {mappings : List Mapping} (h : firstRequest first mappings = some (place, name, block)) :
    place < first + mappings.length := by
  induction mappings generalizing first with
  | nil => cases h
  | cons m rest ih =>
    unfold firstRequest at h
    split at h
    · cases h
      simp only [List.length_cons]
      omega
    · have hrest := ih h
      simp only [List.length_cons]
      omega

/-- A transfer that is started belongs to one of the devices, and nothing of it is done. -/
theorem leadsTo_startTransfer (bus : MappedBus) : bus.LeadsTo bus.startTransfer := by
  unfold startTransfer
  split
  · exact .refl bus
  · split
    · exact .refl bus
    · next place name block hrequest =>
      have hmaster := bus.leadsTo_request name
      have hplace := firstRequest_lt hrequest
      have hlength : (bus.request name).2.mappings.length = bus.mappings.length := by
        simpa only [layout, List.length_map] using congrArg List.length hmaster.layout
      split
      · next bus' hgranted =>
        rw [hgranted] at hmaster hlength
        have howner : (UInt64.ofNat place).toNat < bus'.mappings.length := by
          have hmod := Nat.mod_le place (2 ^ 64)
          rw [UInt64.toNat_ofNat']
          simp only at hlength
          omega
        constructor
        · exact hmaster.layout
        · intro hsound
          constructor
          · exact (hmaster.sound hsound).mappings
          · intro transfer hsome
            cases hsome
            exact ⟨howner, UInt16.zero_le⟩
      · next bus' hrefused =>
        rw [hrefused] at hmaster
        exact hmaster

/-- The owner of a transfer learns that it is complete, and gives the bus back. -/
theorem finishTransfer_eq (owner : Nat) (port : Port MappedBus) :
    finishTransfer owner port =
      let completed : MappedBus :=
        ⟨(completeAt owner port.bus.mappings port.lines).1, port.bus.holder, none⟩
      ⟨(completed.nameAt? owner).elim completed completed.release,
        (completeAt owner port.bus.mappings port.lines).2⟩ := by
  unfold finishTransfer
  simp only
  split
  · next hname => rw [hname, Option.elim_some]
  · next hname => rw [hname, Option.elim_none]

/-- Of the devices only the owner learns about it. -/
theorem mappings_finishTransfer (owner : Nat) (port : Port MappedBus) :
    (finishTransfer owner port).bus.mappings =
      (completeAt owner port.bus.mappings port.lines).1 := by
  rw [finishTransfer_eq]
  simp only
  cases nameAt? _ owner with
  | none => rfl
  | some name =>
    simp only [Option.elim_some, release]
    split <;> rfl

/-- A transfer that has ended is under way no more. -/
theorem leadsTo_finishTransfer (owner : Nat) (port : Port MappedBus) :
    port.bus.LeadsTo (finishTransfer owner port).bus := by
  have hcomplete : port.bus.LeadsTo
      ⟨(completeAt owner port.bus.mappings port.lines).1, port.bus.holder, none⟩ :=
    .ofMappings port.bus (leadTo_completeAt owner port.bus.mappings port.lines) _ (.inr rfl)
  rw [finishTransfer_eq]
  simp only
  cases nameAt? _ owner with
  | some name => exact hcomplete.trans (leadsTo_release _ _)
  | none => exact hcomplete

/-- A transfer that fits the map may take the place of the one under way. -/
theorem leadsTo_setTransfer (port : Port MappedBus) {transfer : TransferProgress}
    (h : port.bus.Sound → transfer.Fits port.bus.mappings.length) :
    port.bus.LeadsTo (setTransfer port transfer).bus := by
  constructor
  · rfl
  · intro hsound
    constructor
    · exact hsound.mappings
    · intro progress hsome
      cases hsome
      exact h hsound

/-- A cycle of a transfer goes one byte further at most. -/
theorem leadsTo_transferCycle {transfer : TransferProgress} {port : Port MappedBus}
    (h : port.bus.transfer = some transfer) :
    port.bus.LeadsTo (transferCycle transfer port).bus := by
  unfold transferCycle
  split
  · next hindex =>
    split
    · have hread := leadsTo_read (transfer.block.source + transfer.index) port
      refine hread.trans (leadsTo_setTransfer _ ?_)
      intro hsound
      have hfits := hsound.transfer transfer h
      exact ⟨hfits.owner, hfits.index⟩
    · next value hlatch =>
      have hwrite := leadsTo_write (transfer.block.destination + transfer.index) value port
      simp only
      split
      · next hnext =>
        refine hwrite.trans (leadsTo_setTransfer _ ?_)
        intro hsound
        have hfits := hsound.transfer transfer h
        exact ⟨hfits.owner, UInt16.le_of_lt hnext⟩
      · exact hwrite.trans (leadsTo_finishTransfer _ _)
  · exact leadsTo_finishTransfer _ port

/-- Where no transfer is under way there is nothing to run. -/
theorem runTransfer_of_idle {port : Port MappedBus} (h : port.bus.transfer = none)
    (cycles : Nat) : runTransfer port cycles = port := by
  cases cycles with
  | zero => rfl
  | succ cycles => simp only [runTransfer, h]

/-- The cycles of a transfer keep the layout and the soundness of a map. -/
theorem leadsTo_runTransfer (port : Port MappedBus) (cycles : Nat) :
    port.bus.LeadsTo (runTransfer port cycles).bus := by
  induction cycles generalizing port with
  | zero => exact .refl _
  | succ cycles ih =>
    unfold runTransfer
    split
    · exact .refl _
    · next transfer h => exact (leadsTo_transferCycle h).trans (ih _)

/-- So do machine clocks, with the cycles of a transfer among them. -/
theorem leadsTo_tick (port : Port MappedBus) (cycles : Nat) :
    port.bus.LeadsTo (tick port cycles).bus := by
  have hdevices : (runTransfer port cycles).bus.LeadsTo
      ⟨(tickAll cycles (runTransfer port cycles).bus.mappings (runTransfer port cycles).lines).1,
        (runTransfer port cycles).bus.holder, (runTransfer port cycles).bus.transfer⟩ :=
    .ofMappings _ (leadTo_tickAll cycles _ _) _ (.inl rfl)
  exact ((leadsTo_runTransfer port cycles).trans hdevices).trans (leadsTo_startTransfer _)

end MappedBus

end W65C02
