import Mathlib.Data.Fintype.Card
import W65C02.Proofs.Bus.Layout

/-!
# Who holds the bus

The holder of the bus and the transfer under way are two pieces of state, and several operations
change one of them or both. On a map where no device has the name of the processor they stay in
step: the processor is never the holder, and a transfer under way belongs to a device that holds the
bus. Whoever holds it keeps it until its transfer is complete, it gives the bus back, or the map is
reset.
-/

namespace W65C02

/-- The ranges are in order, and no two of them start together. -/
structure Spaced (layout : List Slot) : Prop where
  /-- No range ends before it starts. -/
  ranges : ∀ slot ∈ layout, slot.start ≤ slot.finish
  /-- No two ranges start together. -/
  starts : (layout.map (·.start)).Nodup

namespace Spaced

variable {layout : List Slot}

/-- An empty layout is spaced. -/
theorem nil : Spaced [] := ⟨nofun, List.nodup_nil⟩

/-- One more device is mapped on a range that is free. -/
theorem append (h : Spaced layout) {slot : Slot} (hrange : slot.start ≤ slot.finish)
    (hfree : ∀ other ∈ layout, other.meets slot.start slot.finish = false) :
    Spaced (layout ++ [slot]) := by
  refine ⟨List.forall_mem_append.mpr ⟨h.ranges, List.forall_mem_singleton.mpr hrange⟩, ?_⟩
  rw [List.map_append]
  refine List.nodup_append.mpr ⟨h.starts, List.nodup_singleton _, ?_⟩
  rintro _ hold _ hnew rfl
  obtain ⟨other, hother, hstart⟩ := List.mem_map.mp hold
  have hsame : other.start = slot.start := hstart.trans (List.mem_singleton.mp hnew)
  have hmeets : other.meets slot.start slot.finish = true := by
    refine decide_eq_true ⟨?_, ?_⟩
    · rw [← hsame]
      exact h.ranges other hother
    · rw [hsame]
      exact hrange
  rw [hfree other hother] at hmeets
  cases hmeets

/-- There are no more devices than addresses. -/
theorem length_le (h : Spaced layout) : layout.length ≤ addressSpace := by
  have hinjective : Function.Injective UInt16.toFin := fun _ _ => UInt16.toFin_inj.mp
  have hcount := (h.starts.map hinjective).length_le_card
  rw [List.length_map, List.length_map, Fintype.card_fin] at hcount
  exact hcount

/-- The place of a device fits into a machine word. -/
theorem toNat_place (h : Spaced layout) {place : ℕ} (hplace : place < layout.length) :
    (UInt64.ofNat place).toNat = place := by
  have hbound : layout.length ≤ 65536 := h.length_le
  rw [UInt64.toNat_ofNat']
  exact Nat.mod_eq_of_lt (by omega)

end Spaced

/-- No device has the name of the processor, the ranges are in order, and no two of them start
together. -/
structure Tidy (layout : List Slot) : Prop extends Spaced layout where
  /-- No device has the name of the processor. -/
  names : ∀ slot ∈ layout, slot.name ≠ cpuName

namespace Tidy

variable {layout : List Slot}

/-- An empty layout is tidy. -/
theorem nil : Tidy [] := ⟨.nil, nofun⟩

/-- One more device is mapped on a range that is free. -/
theorem append (h : Tidy layout) {slot : Slot} (hname : slot.name ≠ cpuName)
    (hrange : slot.start ≤ slot.finish)
    (hfree : ∀ other ∈ layout, other.meets slot.start slot.finish = false) :
    Tidy (layout ++ [slot]) :=
  ⟨h.toSpaced.append hrange hfree,
    List.forall_mem_append.mpr ⟨h.names, List.forall_mem_singleton.mpr hname⟩⟩

end Tidy

/-- A device does not ask for the transfer of nothing. -/
theorem Device.length_pos_of_transferRequest {device : Device} {block : BlockTransfer}
    (h : device.transferRequest = some block) : 0 < block.length := by
  cases device with
  | dma d =>
    have hlength : 0 < d.byteCount := by
      unfold DmaController.byteCount
      split
      · decide
      · next hne =>
        rw [UInt16.lt_iff_toNat_lt, UInt8.toNat_toUInt16]
        exact Nat.pos_of_ne_zero fun hzero => hne (UInt8.toNat_inj.mp hzero)
    simp only [transferRequest, DmaController.request] at h
    split at h
    · cases h
      exact hlength
    · cases h
  | _ => cases h

/-- How many more cycles a transfer takes at most. Each byte takes two of them, and one is enough
for a byte that has been read. -/
def TransferProgress.cyclesLeft (transfer : TransferProgress) : ℕ :=
  2 * (transfer.block.length.toNat - transfer.index.toNat) +
    if transfer.latch.isSome then 1 else 2

/-- A transfer under way has a cycle left, if only the one that ends it. -/
theorem TransferProgress.cyclesLeft_pos (transfer : TransferProgress) :
    0 < transfer.cyclesLeft := by
  unfold cyclesLeft
  split <;> omega

/-- With the byte that was read written, fewer cycles are left. -/
theorem TransferProgress.cyclesLeft_written {transfer : TransferProgress} {value : UInt8}
    (hlatch : transfer.latch = some value) (hindex : transfer.index < transfer.block.length) :
    { transfer with index := transfer.index + 1, latch := none }.cyclesLeft <
      transfer.cyclesLeft := by
  have hlength := transfer.block.length.toNat_lt
  have hlt := UInt16.lt_iff_toNat_lt.mp hindex
  have hnext : (transfer.index + 1).toNat = transfer.index.toNat + 1 := by
    rw [UInt16.toNat_add, show (1 : UInt16).toNat = 1 from rfl]
    omega
  simp only [cyclesLeft, hlatch, hnext, Option.isSome_some, Option.isSome_none,
    Bool.false_eq_true, if_true, if_false]
  omega

namespace MappedBus

/-- The processor is not the holder, and a transfer under way belongs to a device that is. -/
structure Coherent (bus : MappedBus) : Prop where
  /-- The processor is not the holder. -/
  holder : bus.holder ≠ some cpuName
  /-- A transfer under way belongs to a mapped device that holds the bus. -/
  owner : ∀ transfer, bus.transfer = some transfer →
    ∃ name, bus.nameAt? transfer.owner.toNat = some name ∧ bus.holder = some name

/-- The map is tidy, its arbitration is coherent, and a transfer under way has bytes left. -/
structure Orderly (bus : MappedBus) : Prop extends Coherent bus where
  /-- The layout is tidy. -/
  tidy : Tidy bus.layout
  /-- A transfer under way has bytes left. -/
  unfinished : ∀ transfer, bus.transfer = some transfer → transfer.index < transfer.block.length

/-- Nothing but the devices has changed, and these have kept their places. -/
structure SameArbitration (bus bus' : MappedBus) : Prop where
  /-- The layout is the same. -/
  layout : bus'.layout = bus.layout
  /-- The holder is the same. -/
  holder : bus'.holder = bus.holder
  /-- The transfer under way is the same. -/
  transfer : bus'.transfer = bus.transfer

variable {bus bus' bus'' : MappedBus}

/-- The arbitration is the same as it was. -/
theorem SameArbitration.refl (bus : MappedBus) : bus.SameArbitration bus := ⟨rfl, rfl, rfl⟩

/-- If it stays the same twice then it stays the same. -/
theorem SameArbitration.trans (h : bus.SameArbitration bus') (h' : bus'.SameArbitration bus'') :
    bus.SameArbitration bus'' :=
  ⟨h'.layout.trans h.layout, h'.holder.trans h.holder, h'.transfer.trans h.transfer⟩

/-- The name of the device at a place is told by the layout. -/
theorem nameAt?_eq (bus : MappedBus) (place : ℕ) :
    bus.nameAt? place = bus.layout[place]?.map (·.name) := by
  simp only [nameAt?, layout, List.getElem?_map, Option.map_map]
  rfl

/-- The names belong to the layout. -/
theorem nameAt?_of_layout (h : bus'.layout = bus.layout) (place : ℕ) :
    bus'.nameAt? place = bus.nameAt? place := by
  rw [nameAt?_eq, nameAt?_eq, h]

/-- A device that is mapped is in the layout. -/
theorem exists_slot_of_nameAt? {place : ℕ} {name : String} (h : bus.nameAt? place = some name) :
    ∃ slot ∈ bus.layout, slot.name = name := by
  rw [nameAt?_eq] at h
  obtain ⟨slot, hslot, hname⟩ := Option.map_eq_some_iff.mp h
  exact ⟨slot, List.mem_of_getElem? hslot, hname⟩

/-- If no mapped device holds the bus no transfer is under way. -/
theorem Coherent.transfer_eq_none (h : bus.Coherent)
    (hhost : ∀ slot ∈ bus.layout, bus.holder ≠ some slot.name) : bus.transfer = none := by
  cases htransfer : bus.transfer with
  | none => rfl
  | some transfer =>
    obtain ⟨name, hname, hholder⟩ := h.owner transfer htransfer
    obtain ⟨slot, hslot, rfl⟩ := exists_slot_of_nameAt? hname
    exact absurd hholder (hhost slot hslot)

/-- Only the names of the devices play a part in it. -/
theorem Coherent.of_names (h : bus.Coherent) (hholder : bus'.holder = bus.holder)
    (htransfer : bus'.transfer = bus.transfer)
    (hnames : ∀ place, bus'.nameAt? place = bus.nameAt? place) : bus'.Coherent := by
  constructor
  · rw [hholder]
    exact h.holder
  · intro transfer hsome
    rw [hnames, hholder]
    exact h.owner transfer (htransfer ▸ hsome)

namespace Orderly

/-- Without a transfer under way it is enough that the processor is not the holder. -/
theorem of_idle (tidy : Tidy bus.layout) (holder : bus.holder ≠ some cpuName)
    (htransfer : bus.transfer = none) : bus.Orderly := by
  have hnone {P : TransferProgress → Prop} :
      ∀ transfer, bus.transfer = some transfer → P transfer := by
    intro transfer hsome
    rw [htransfer] at hsome
    cases hsome
  exact ⟨⟨holder, hnone⟩, tidy, hnone⟩

/-- The device that a transfer under way belongs to is not the processor. -/
theorem name_ne_cpuName (h : bus.Orderly) {place : ℕ} {name : String}
    (hname : bus.nameAt? place = some name) : name ≠ cpuName := by
  obtain ⟨slot, hslot, rfl⟩ := exists_slot_of_nameAt? hname
  exact h.tidy.names slot hslot

/-- Whether a map is orderly depends on its arbitration and layout only. -/
theorem of_sameArbitration (h : bus.Orderly) (hsame : bus.SameArbitration bus') :
    bus'.Orderly := by
  refine ⟨h.toCoherent.of_names hsame.holder hsame.transfer (nameAt?_of_layout hsame.layout),
    hsame.layout ▸ h.tidy, fun transfer hsome => ?_⟩
  exact h.unfinished transfer (hsame.transfer ▸ hsome)

/-- A transfer goes on. -/
theorem setTransfer (h : bus.Orderly) {transfer next : TransferProgress}
    (htransfer : bus.transfer = some transfer) (howner : next.owner = transfer.owner)
    (hindex : next.index < next.block.length) :
    ({ bus with transfer := some next } : MappedBus).Orderly := by
  refine ⟨⟨h.holder, fun progress hsome => ?_⟩, h.tidy, fun progress hsome => ?_⟩
  · cases hsome
    rw [howner]
    exact h.owner transfer htransfer
  · cases hsome
    exact hindex

/-- One more device is mapped on a range that is free. -/
theorem append (h : bus.Orderly) {m : Mapping} (hname : m.device.name ≠ cpuName)
    (hrange : m.start ≤ m.finish)
    (hfree : ∀ slot ∈ bus.layout, slot.meets m.start m.finish = false) :
    ({ bus with mappings := bus.mappings ++ [m] } : MappedBus).Orderly := by
  have hlayout : ({ bus with mappings := bus.mappings ++ [m] } : MappedBus).layout =
      bus.layout ++ [m.slot] := List.map_append
  refine ⟨⟨h.holder, fun transfer hsome => ?_⟩, ?_, h.unfinished⟩
  · obtain ⟨name, hplace, hholder⟩ := h.owner transfer hsome
    refine ⟨name, ?_, hholder⟩
    rw [nameAt?_eq] at hplace ⊢
    obtain ⟨slot, hslot, rfl⟩ := Option.map_eq_some_iff.mp hplace
    rw [hlayout, List.getElem?_append_left (List.getElem?_eq_some_iff.mp hslot).1, hslot]
    rfl
  · rw [hlayout]
    exact h.tidy.append hname hrange hfree

end Orderly

/-- What an orderly map can become: it keeps its layout and stays orderly, and the holder stays
unless something ends its hold. -/
structure HandsOn (bus bus' : MappedBus) (ends : String → Prop) : Prop where
  /-- The layout stays. -/
  layout : bus'.layout = bus.layout
  /-- Order stays. -/
  orderly : bus.Orderly → bus'.Orderly
  /-- The holder stays unless something ends its hold. -/
  holder : bus.Orderly → ∀ name, bus.holder = some name → ¬ ends name → bus'.holder = some name

namespace HandsOn

variable {ends ends' : String → Prop}

/-- The more names the bus may be taken from, the less is said. -/
theorem mono (h : bus.HandsOn bus' ends) (hends : ∀ name, ends name → ends' name) :
    bus.HandsOn bus' ends' :=
  ⟨h.layout, h.orderly, fun horderly name hholder hkeeps =>
    h.holder horderly name hholder fun hend => hkeeps (hends name hend)⟩

/-- The bus is handed on twice. -/
theorem trans (h : bus.HandsOn bus' ends) (h' : bus'.HandsOn bus'' ends') :
    bus.HandsOn bus'' fun name => ends name ∨ ends' name := by
  refine ⟨h'.layout.trans h.layout, fun horderly => h'.orderly (h.orderly horderly), ?_⟩
  intro horderly name hholder hkeeps
  obtain ⟨hfirst, hthen⟩ := not_or.mp hkeeps
  exact h'.holder (h.orderly horderly) name (h.holder horderly name hholder hfirst) hthen

/-- Where the arbitration stays the same the bus is not handed on. -/
theorem of_sameArbitration (h : bus.SameArbitration bus') : bus.HandsOn bus' ends :=
  ⟨h.layout, fun horderly => horderly.of_sameArbitration h,
    fun _ _ hsome _ => h.holder.trans hsome⟩

/-- Nothing is handed on where nothing happens. -/
theorem refl (bus : MappedBus) : bus.HandsOn bus ends := of_sameArbitration (.refl bus)

end HandsOn

section

variable {ends : String → Prop}

/-- A read leaves the arbitration alone. -/
theorem sameArbitration_read (address : UInt16) (port : Port MappedBus) :
    port.bus.SameArbitration (port.read address).2.bus :=
  ⟨(leadsTo_read address port).layout, rfl, rfl⟩

/-- A write leaves the arbitration alone; a controller that it starts asks for the bus later. -/
theorem sameArbitration_write (address : UInt16) (value : UInt8) (port : Port MappedBus) :
    port.bus.SameArbitration (port.write address value).bus :=
  ⟨(leadsTo_write address value port).layout, rfl, rfl⟩

/-- A request is granted exactly when nobody else holds the bus. -/
theorem request_fst (bus : MappedBus) (requestor : String) :
    (bus.request requestor).1 = true ↔ ∀ holder, bus.holder = some holder → holder = requestor := by
  unfold request
  cases hholder : bus.holder with
  | some holder => simp
  | none =>
    simp only
    split <;> simp

/-- A request changes nothing but the holder, and it makes nobody the holder but the one that it
comes from. -/
theorem request_snd (bus : MappedBus) (requestor : String) :
    (bus.request requestor).2 = bus ∨
      bus.holder = none ∧ requestor ≠ cpuName ∧
        (bus.request requestor).2 = { bus with holder := some requestor } := by
  unfold request
  cases bus.holder with
  | some holder => exact .inl rfl
  | none =>
    by_cases hcpu : requestor = cpuName
    · exact .inl (by simp only [if_pos hcpu])
    · exact .inr ⟨rfl, hcpu, by simp only [if_neg hcpu]⟩

/-- After a grant to anyone but the processor the bus is held by the one that it was granted to. -/
theorem holder_request (bus : MappedBus) {requestor : String} (hcpu : requestor ≠ cpuName)
    (hgranted : (bus.request requestor).1 = true) :
    (bus.request requestor).2.holder = some requestor := by
  unfold request at hgranted ⊢
  cases hholder : bus.holder with
  | some holder =>
    rw [hholder] at hgranted
    have hsame : holder = requestor := by simpa using hgranted
    simp only [hholder, hsame]
  | none => simp only [if_neg hcpu]

/-- A request takes the bus from nobody. -/
theorem handsOn_request (bus : MappedBus) (requestor : String) :
    bus.HandsOn (bus.request requestor).2 ends := by
  rcases bus.request_snd requestor with hsame | ⟨hfree, hcpu, hgranted⟩
  · rw [hsame]
    exact .refl bus
  · rw [hgranted]
    refine ⟨rfl, fun horderly => .of_idle horderly.tidy ?_ ?_, fun _ name hholder => ?_⟩
    · exact fun hsome => hcpu (Option.some.inj hsome)
    · refine horderly.transfer_eq_none fun slot _ => ?_
      rw [hfree]
      exact nofun
    · rw [hfree] at hholder
      cases hholder

/-- If the bus is given back by nobody who is mapped, no transfer loses it. -/
theorem handsOn_release (bus : MappedBus) {requestor : String}
    (hhost : ∀ slot ∈ bus.layout, slot.name ≠ requestor) :
    bus.HandsOn (bus.release requestor) (requestor = ·) := by
  unfold release
  split
  · next hheld =>
    refine ⟨rfl, fun horderly => .of_idle horderly.tidy nofun ?_, fun _ name hholder hother => ?_⟩
    · refine horderly.transfer_eq_none fun slot hslot hname => ?_
      rw [hheld] at hname
      exact hhost slot hslot (Option.some.inj hname).symm
    · rw [hheld] at hholder
      exact absurd (Option.some.inj hholder) hother
  · exact .refl bus

/-- A reset may take the bus from anybody. -/
theorem handsOn_reset (port : Port MappedBus) :
    port.bus.HandsOn (reset port).bus fun _ => True :=
  ⟨(leadsTo_reset port).layout,
    fun horderly => .of_idle ((leadsTo_reset port).layout ▸ horderly.tidy) nofun rfl,
    fun _ _ _ hkeeps => absurd trivial hkeeps⟩

end

/-- The first device that asks for a transfer is at the place that is found. -/
theorem exists_mapping_of_firstRequest {first place : ℕ} {name : String} {block : BlockTransfer}
    {mappings : List Mapping} (h : firstRequest first mappings = some (place, name, block)) :
    ∃ i m, place = first + i ∧ mappings[i]? = some m ∧ m.device.name = name ∧
      m.device.transferRequest = some block := by
  induction mappings generalizing first with
  | nil => cases h
  | cons m rest ih =>
    unfold firstRequest at h
    split at h
    · next hrequest =>
      cases h
      exact ⟨0, m, rfl, rfl, rfl, hrequest⟩
    · obtain ⟨i, other, hplace, hother, hname, hrequest⟩ := ih h
      exact ⟨i + 1, other, by omega, hother, hname, hrequest⟩

/-- The first device that asks for a transfer is granted the bus and its transfer starts, or nothing
changes. -/
theorem startTransfer_cases (bus : MappedBus) :
    bus.startTransfer = bus ∨
      ∃ place name block, firstRequest 0 bus.mappings = some (place, name, block) ∧
        (bus.request name).1 = true ∧
        bus.startTransfer =
          { (bus.request name).2 with transfer := some ⟨UInt64.ofNat place, block, 0, none⟩ } := by
  unfold startTransfer
  split
  · exact .inl rfl
  · split
    · exact .inl rfl
    · next place name block hfound =>
      split
      · next bus' hgranted =>
        refine .inr ⟨place, name, block, hfound, ?_, ?_⟩
        · rw [hgranted]
        · rw [hgranted]
      · next bus' hrefused =>
        left
        rcases bus.request_snd name with hsame | ⟨hfree, -, -⟩
        · rwa [hrefused] at hsame
        · have hgranted := (bus.request_fst name).mpr fun holder hheld => by
            rw [hfree] at hheld
            cases hheld
          rw [hrefused] at hgranted
          cases hgranted

/-- A request touches no device, -/
theorem mappings_request (bus : MappedBus) (requestor : String) :
    (bus.request requestor).2.mappings = bus.mappings := by
  rcases bus.request_snd requestor with hsame | ⟨-, -, hgranted⟩
  · rw [hsame]
  · rw [hgranted]

/-- giving the bus back does not, -/
theorem mappings_release (bus : MappedBus) (requestor : String) :
    (bus.release requestor).mappings = bus.mappings := by
  unfold release
  split <;> rfl

/-- and neither does the start of a transfer. -/
theorem mappings_startTransfer (bus : MappedBus) : bus.startTransfer.mappings = bus.mappings := by
  rcases bus.startTransfer_cases with hsame | ⟨_, name, _, -, -, hstarted⟩
  · rw [hsame]
  · rw [hstarted]
    exact bus.mappings_request name

/-- A transfer that starts belongs to the device that asked for it, and that device is granted the
bus. -/
theorem handsOn_startTransfer (bus : MappedBus) {ends : String → Prop} :
    bus.HandsOn bus.startTransfer ends := by
  rcases bus.startTransfer_cases with hsame | ⟨place, name, block, hfound, hgranted, hstarted⟩
  · rw [hsame]
    exact .refl bus
  · have hrequest : bus.HandsOn _ ends := bus.handsOn_request name
    rw [hstarted]
    refine ⟨hrequest.layout, fun horderly => ?_, hrequest.holder⟩
    obtain ⟨i, m, hi, hm, hname, hwants⟩ := exists_mapping_of_firstRequest hfound
    obtain rfl : place = i := by omega
    have hplace : bus.nameAt? place = some name := by
      rw [nameAt?, hm, ← hname]
      rfl
    have hmapped : place < bus.layout.length := by
      rw [layout, List.length_map]
      exact (List.getElem?_eq_some_iff.mp hm).1
    have hholder := bus.holder_request (horderly.name_ne_cpuName hplace) hgranted
    have hnext := hrequest.orderly horderly
    refine ⟨⟨hnext.holder, fun transfer hsome => ?_⟩, hnext.tidy, fun transfer hsome => ?_⟩
    · cases hsome
      refine ⟨name, ?_, hholder⟩
      rw [horderly.tidy.toNat_place hmapped]
      exact (nameAt?_of_layout hrequest.layout place).trans hplace
    · cases hsome
      exact Device.length_pos_of_transferRequest hwants

/-- The end of a transfer leaves none under way. -/
theorem transfer_finishTransfer (owner : ℕ) (port : Port MappedBus) :
    (finishTransfer owner port).bus.transfer = none := by
  rw [finishTransfer_eq]
  simp only
  cases nameAt? _ owner with
  | some name =>
    simp only [Option.elim_some, release]
    split <;> rfl
  | none => rfl

/-- At its end the bus is free if the owner held it. -/
theorem holder_finishTransfer (owner : ℕ) (port : Port MappedBus) :
    (finishTransfer owner port).bus.holder =
      if port.bus.holder = port.bus.nameAt? owner then none else port.bus.holder := by
  let completed : MappedBus :=
    ⟨(completeAt owner port.bus.mappings port.lines).1, port.bus.holder, none⟩
  have hlayout : completed.layout = port.bus.layout :=
    (leadTo_completeAt owner port.bus.mappings port.lines).slots
  have hname : completed.nameAt? owner = port.bus.nameAt? owner := nameAt?_of_layout hlayout owner
  have hholder : (finishTransfer owner port).bus.holder =
      ((completed.nameAt? owner).elim completed completed.release).holder := by
    rw [finishTransfer_eq]
  rw [hholder, hname]
  cases port.bus.nameAt? owner with
  | some name =>
    rw [Option.elim_some, release]
    split <;> rfl
  | none =>
    rw [Option.elim_none]
    split
    · next hfree => exact hfree
    · rfl

/-- In a cycle of a transfer a device may be accessed, and then the transfer comes closer to its end
or ends. -/
theorem transferCycle_cases (transfer : TransferProgress) (port : Port MappedBus) :
    ∃ served : Port MappedBus, port.bus.SameArbitration served.bus ∧
      ((∃ next : TransferProgress, next.owner = transfer.owner ∧ next.index < next.block.length ∧
          next.cyclesLeft < transfer.cyclesLeft ∧
          transferCycle transfer port = setTransfer served next) ∨
        transferCycle transfer port = finishTransfer transfer.owner.toNat served) := by
  unfold transferCycle
  split
  · next hindex =>
    split
    · next hlatch =>
      let address := transfer.block.source + transfer.index
      let latched := { transfer with latch := some (port.read address).1 }
      have hfewer : latched.cyclesLeft < transfer.cyclesLeft := by
        simp only [latched, TransferProgress.cyclesLeft, hlatch, Option.isSome_some,
          Option.isSome_none, Bool.false_eq_true, if_true, if_false]
        omega
      exact ⟨_, sameArbitration_read address port, .inl ⟨latched, rfl, hindex, hfewer, rfl⟩⟩
    · next value hlatch =>
      let written := { transfer with index := transfer.index + 1, latch := none }
      have hfewer := TransferProgress.cyclesLeft_written hlatch hindex
      refine ⟨_, sameArbitration_write (transfer.block.destination + transfer.index) value port, ?_⟩
      simp only
      split
      · next hmore => exact .inl ⟨written, rfl, hmore, hfewer, rfl⟩
      · exact .inr rfl
  · exact ⟨port, .refl _, .inr rfl⟩

section

variable {port : Port MappedBus} {transfer : TransferProgress}

/-- A cycle of a transfer leaves the map orderly. -/
theorem orderly_transferCycle (h : port.bus.Orderly)
    (htransfer : port.bus.transfer = some transfer) :
    (transferCycle transfer port).bus.Orderly := by
  obtain ⟨served, hsame, hcases⟩ := transferCycle_cases transfer port
  have hserved := h.of_sameArbitration hsame
  rcases hcases with ⟨next, howner, hindex, -, hnext⟩ | hfinish
  · rw [hnext]
    exact hserved.setTransfer (hsame.transfer.trans htransfer) howner hindex
  · rw [hfinish]
    refine .of_idle ((leadsTo_finishTransfer _ served).layout ▸ hserved.tidy) ?_
      (transfer_finishTransfer _ served)
    rw [holder_finishTransfer]
    split
    · exact nofun
    · exact hserved.holder

/-- As long as a transfer goes on the holder stays. -/
theorem holder_transferCycle (hgoes : (transferCycle transfer port).bus.transfer ≠ none) :
    (transferCycle transfer port).bus.holder = port.bus.holder := by
  obtain ⟨served, hsame, ⟨next, -, -, -, hnext⟩ | hfinish⟩ := transferCycle_cases transfer port
  · rw [hnext]
    exact hsame.holder
  · rw [hfinish] at hgoes
    exact absurd (transfer_finishTransfer _ served) hgoes

end

/-- The first of several cycles of a transfer, and then the others. -/
theorem runTransfer_succ {port : Port MappedBus} {transfer : TransferProgress}
    (h : port.bus.transfer = some transfer) (cycles : ℕ) :
    runTransfer port (cycles + 1) = runTransfer (transferCycle transfer port) cycles := by
  simp only [runTransfer, h]

/-- A transfer of a device with the given name is under way, and it is complete after a number of
cycles. -/
def Completes (port : Port MappedBus) (cycles : ℕ) (name : String) : Prop :=
  (∃ transfer, port.bus.transfer = some transfer ∧
    port.bus.nameAt? transfer.owner.toNat = some name) ∧
  (runTransfer port cycles).bus.transfer = none

/-- Several cycles of a transfer leave the map orderly. -/
theorem orderly_runTransfer {port : Port MappedBus} (h : port.bus.Orderly) (cycles : ℕ) :
    (runTransfer port cycles).bus.Orderly := by
  induction cycles generalizing port with
  | zero => exact h
  | succ cycles ih =>
    cases htransfer : port.bus.transfer with
    | none =>
      rw [runTransfer_of_idle htransfer]
      exact h
    | some transfer =>
      rw [runTransfer_succ htransfer]
      exact ih (orderly_transferCycle h htransfer)

/-- As long as a transfer goes on the holder stays. -/
theorem holder_runTransfer {port : Port MappedBus} {cycles : ℕ}
    (hgoes : (runTransfer port cycles).bus.transfer ≠ none) :
    (runTransfer port cycles).bus.holder = port.bus.holder := by
  induction cycles generalizing port with
  | zero => rfl
  | succ cycles ih =>
    cases htransfer : port.bus.transfer with
    | none =>
      rw [runTransfer_of_idle htransfer] at hgoes
      exact absurd htransfer hgoes
    | some transfer =>
      rw [runTransfer_succ htransfer] at hgoes ⊢
      refine (ih hgoes).trans (holder_transferCycle fun hdone => ?_)
      rw [runTransfer_of_idle hdone] at hgoes
      exact hgoes hdone

/-- A transfer is complete after the cycles that it takes. -/
theorem transfer_runTransfer {port : Port MappedBus} {transfer : TransferProgress}
    (h : port.bus.transfer = some transfer) {cycles : ℕ} (hcycles : transfer.cyclesLeft ≤ cycles) :
    (runTransfer port cycles).bus.transfer = none := by
  induction cycles generalizing port transfer with
  | zero => exact absurd hcycles (Nat.not_le.mpr transfer.cyclesLeft_pos)
  | succ cycles ih =>
    rw [runTransfer_succ h]
    obtain ⟨served, -, ⟨next, -, -, hfewer, hnext⟩ | hfinish⟩ := transferCycle_cases transfer port
    · have hstill : (transferCycle transfer port).bus.transfer = some next := by
        rw [hnext]
        rfl
      exact ih hstill (by omega)
    · have hdone : (transferCycle transfer port).bus.transfer = none := by
        rw [hfinish]
        exact transfer_finishTransfer _ served
      rw [runTransfer_of_idle hdone]
      exact hdone

/-- When a transfer is complete the bus is free if its owner held it. -/
theorem holder_runTransfer_of_done {port : Port MappedBus} {transfer : TransferProgress}
    (h : port.bus.transfer = some transfer) {cycles : ℕ}
    (hdone : (runTransfer port cycles).bus.transfer = none) :
    (runTransfer port cycles).bus.holder =
      if port.bus.holder = port.bus.nameAt? transfer.owner.toNat then none
      else port.bus.holder := by
  induction cycles generalizing port transfer with
  | zero =>
    have hnone : port.bus.transfer = none := hdone
    rw [hnone] at h
    cases h
  | succ cycles ih =>
    rw [runTransfer_succ h] at hdone ⊢
    obtain ⟨served, hsame, hcases⟩ := transferCycle_cases transfer port
    have hname := nameAt?_of_layout hsame.layout transfer.owner.toNat
    rcases hcases with ⟨next, howner, -, -, hnext⟩ | hfinish
    · rw [hnext] at hdone ⊢
      have hset : (setTransfer served next).bus.transfer = some next := rfl
      have hrest := ih hset hdone
      rw [howner] at hrest
      rw [← hsame.holder, ← hname]
      exact hrest
    · have hover := transfer_finishTransfer transfer.owner.toNat served
      rw [hfinish, runTransfer_of_idle hover, holder_finishTransfer, hsame.holder, hname]

/-- The arbitration is coherent exactly if the processor is not the holder and gets the bus back
when a transfer under way is complete, but not before. -/
theorem coherent_iff (bus : MappedBus) :
    bus.Coherent ↔
      bus.holder ≠ some cpuName ∧
        (bus.transfer.isSome → ∀ lines cycles,
          Bus.cpuHasBus (runTransfer ⟨bus, lines⟩ cycles).bus = true ↔
            (runTransfer ⟨bus, lines⟩ cycles).bus.transfer = none) := by
  constructor
  · intro h
    refine ⟨h.holder, fun hbusy lines cycles => ?_⟩
    obtain ⟨transfer, htransfer⟩ := Option.isSome_iff_exists.mp hbusy
    obtain ⟨name, hname, hholder⟩ := h.owner transfer htransfer
    let port : Port MappedBus := ⟨bus, lines⟩
    have hstart : port.bus.transfer = some transfer := htransfer
    change (runTransfer port cycles).bus.holder.isNone = true ↔ _
    by_cases hdone : (runTransfer port cycles).bus.transfer = none
    · have howned : port.bus.holder = port.bus.nameAt? transfer.owner.toNat :=
        hholder.trans hname.symm
      rw [holder_runTransfer_of_done hstart hdone, if_pos howned]
      exact iff_of_true rfl hdone
    · have hheld : port.bus.holder = some name := hholder
      rw [holder_runTransfer hdone, hheld]
      exact iff_of_false nofun hdone
  · rintro ⟨hcpu, hstalls⟩
    refine ⟨hcpu, fun transfer htransfer => ?_⟩
    let port : Port MappedBus := ⟨bus, .idle⟩
    have hstart : port.bus.transfer = some transfer := htransfer
    have hhas := hstalls (Option.isSome_of_eq_some htransfer) .idle
    -- Before the first cycle somebody holds the bus, and after the last one nobody does. Only the
    -- end of the transfer can have freed it, and that frees what the owner holds.
    have hdone := transfer_runTransfer hstart (Nat.le_refl transfer.cyclesLeft)
    have hfree : (runTransfer port transfer.cyclesLeft).bus.holder = none :=
      Option.isNone_iff_eq_none.mp ((hhas transfer.cyclesLeft).mpr hdone)
    rw [holder_runTransfer_of_done hstart hdone] at hfree
    cases hholder : bus.holder with
    | none =>
      have hover : bus.transfer = none := (hhas 0).mp (Option.isNone_iff_eq_none.mpr hholder)
      rw [htransfer] at hover
      cases hover
    | some name =>
      by_cases howned : port.bus.holder = port.bus.nameAt? transfer.owner.toNat
      · exact ⟨name, howned.symm.trans hholder, rfl⟩
      · rw [if_neg howned] at hfree
        exact absurd (hfree.symm.trans hholder) nofun

/-- The hold of the bus ends with the transfer of its holder. -/
theorem handsOn_runTransfer (port : Port MappedBus) (cycles : ℕ) :
    port.bus.HandsOn (runTransfer port cycles).bus (Completes port cycles) := by
  refine ⟨(leadsTo_runTransfer port cycles).layout, fun horderly =>
    orderly_runTransfer horderly cycles, fun horderly name hholder hkeeps => ?_⟩
  cases htransfer : port.bus.transfer with
  | none =>
    rw [runTransfer_of_idle htransfer]
    exact hholder
  | some transfer =>
    -- The holder owns the transfer, so the end of the transfer is the end of its hold.
    obtain ⟨owner, hname, hheld⟩ := horderly.owner transfer htransfer
    rw [hholder] at hheld
    obtain rfl := Option.some.inj hheld
    have hgoes : (runTransfer port cycles).bus.transfer ≠ none :=
      fun hdone => hkeeps ⟨⟨transfer, htransfer, hname⟩, hdone⟩
    exact (holder_runTransfer hgoes).trans hholder

/-- The map after the devices have got their clocks. -/
def clocksPassed (cycles : ℕ) (port : Port MappedBus) : MappedBus :=
  { port.bus with mappings := (tickAll cycles port.bus.mappings port.lines).1 }

/-- The clocks of the devices leave the arbitration alone. -/
theorem sameArbitration_clocksPassed (cycles : ℕ) (port : Port MappedBus) :
    port.bus.SameArbitration (clocksPassed cycles port) :=
  ⟨(leadTo_tickAll cycles _ _).slots, rfl, rfl⟩

/-- In a number of machine clocks the transfer goes on, then the devices get their clocks, and at
last a transfer may start. -/
theorem bus_tick (port : Port MappedBus) (cycles : ℕ) :
    (tick port cycles).bus = (clocksPassed cycles (runTransfer port cycles)).startTransfer := rfl

/-- The clocks of the devices end no hold, and neither does the start of a transfer. -/
theorem handsOn_tick (port : Port MappedBus) (cycles : ℕ) :
    port.bus.HandsOn (tick port cycles).bus (Completes port cycles) := by
  have hdevices : (runTransfer port cycles).bus.HandsOn _ fun _ => False :=
    .of_sameArbitration (sameArbitration_clocksPassed cycles (runTransfer port cycles))
  have hstart : HandsOn _ (tick port cycles).bus fun _ => False := handsOn_startTransfer _
  refine (((handsOn_runTransfer port cycles).trans hdevices).trans hstart).mono ?_
  rintro name ((hdone | hnever) | hnever)
  · exact hdone
  · exact hnever.elim
  · exact hnever.elim

end MappedBus

end W65C02
