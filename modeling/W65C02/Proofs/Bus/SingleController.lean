import W65C02.Proofs.Bus.Transfer

/-!
# A single controller

Whatever a host does with the bus, a transfer under way belongs to a DMA controller. Where there is
no other one and nobody but the owner of a transfer holds the bus, the processor gets the bus back:
with each machine clock that it has to wait the transfer comes closer to its end, and when it is
over no other one starts at once.
-/

namespace W65C02

/-- There is no more than one DMA controller. -/
def OneController (layout : List Slot) : Prop :=
  layout.Pairwise fun slot other => ¬ (slot.kind = .dma ∧ other.kind = .dma)

instance (layout : List Slot) : Decidable (OneController layout) :=
  inferInstanceAs (Decidable (layout.Pairwise _))

/-- Elsewhere there is none. -/
theorem OneController.alone {layout : List Slot} (h : OneController layout) {place : ℕ}
    {slot : Slot} (hslot : layout[place]? = some slot) (hkind : slot.kind = .dma) :
    ∀ other ∈ layout.eraseIdx place, other.kind ≠ .dma := by
  intro other hmem hother
  obtain ⟨elsewhere, hne, hat⟩ := List.mem_eraseIdx_iff_getElem?.mp hmem
  obtain ⟨hplace, rfl⟩ := List.getElem?_eq_some_iff.mp hslot
  obtain ⟨helsewhere, rfl⟩ := List.getElem?_eq_some_iff.mp hat
  rcases Nat.lt_or_gt_of_ne hne with hbefore | hafter
  · exact List.pairwise_iff_getElem.mp h elsewhere place helsewhere hplace hbefore ⟨hother, hkind⟩
  · exact List.pairwise_iff_getElem.mp h place elsewhere hplace helsewhere hafter ⟨hkind, hother⟩

/-- A transfer has no more cycles left than the longest one takes. -/
theorem TransferProgress.cyclesLeft_le (transfer : TransferProgress) :
    transfer.cyclesLeft ≤ 131072 := by
  have hlength := transfer.block.length.toNat_lt
  unfold cyclesLeft
  split <;> omega

namespace MappedBus

/-- The ranges are in order and do not start together, and a transfer under way belongs to a DMA
controller. -/
structure Owned (bus : MappedBus) : Prop where
  /-- The ranges are in order and do not start together. -/
  spaced : Spaced bus.layout
  /-- A transfer under way belongs to a DMA controller. -/
  owner : ∀ transfer, bus.transfer = some transfer →
    ∃ slot, bus.layout[transfer.owner.toNat]? = some slot ∧ slot.kind = .dma

/-- Nobody but the processor or the owner of a transfer under way is master of the bus. -/
def HeldForTransfer (bus : MappedBus) : Prop :=
  ∀ name, bus.holder = some name →
    ∃ transfer, bus.transfer = some transfer ∧ bus.nameAt? transfer.owner.toNat = some name

/-- How many more cycles the transfer under way takes at most. -/
def cyclesLeft (bus : MappedBus) : ℕ := bus.transfer.elim 0 (·.cyclesLeft)

variable {bus bus' : MappedBus} {port : Port MappedBus} {transfer : TransferProgress}

/-- No transfer takes longer than one of all addresses, with two cycles for each byte. -/
theorem cyclesLeft_le (bus : MappedBus) : bus.cyclesLeft ≤ 131072 := by
  unfold cyclesLeft
  cases bus.transfer with
  | none => exact Nat.zero_le _
  | some transfer => exact transfer.cyclesLeft_le

namespace Owned

/-- It is enough that a transfer under way belongs to the owner of one that was under way before. -/
theorem of_owner (h : bus.Owned) (hlayout : bus'.layout = bus.layout)
    (howner : ∀ next, bus'.transfer = some next →
      ∃ transfer, bus.transfer = some transfer ∧ next.owner = transfer.owner) : bus'.Owned := by
  refine ⟨hlayout ▸ h.spaced, fun next hnext => ?_⟩
  obtain ⟨transfer, htransfer, hsame⟩ := howner next hnext
  rw [hsame, hlayout]
  exact h.owner transfer htransfer

/-- Whether a transfer is owned depends on the layout and on the transfer. -/
theorem of_transfer_eq (h : bus.Owned) (hlayout : bus'.layout = bus.layout)
    (htransfer : bus'.transfer = bus.transfer) : bus'.Owned :=
  h.of_owner hlayout fun next hnext => ⟨next, htransfer ▸ hnext, rfl⟩

/-- Where no transfer is under way there is nothing to own. -/
theorem of_idle (h : bus.Owned) (hlayout : bus'.layout = bus.layout)
    (hidle : bus'.transfer = none) : bus'.Owned := by
  refine h.of_owner hlayout fun next hnext => ?_
  rw [hidle] at hnext
  cases hnext

/-- One more device is mapped on a range that is free. -/
theorem append (h : bus.Owned) {m : Mapping} (hrange : m.start ≤ m.finish)
    (hfree : ∀ slot ∈ bus.layout, slot.meets m.start m.finish = false) :
    ({ bus with mappings := bus.mappings ++ [m] } : MappedBus).Owned := by
  have hlayout : ({ bus with mappings := bus.mappings ++ [m] } : MappedBus).layout =
      bus.layout ++ [m.slot] := List.map_append
  refine ⟨hlayout ▸ h.spaced.append hrange hfree, fun transfer hsome => ?_⟩
  obtain ⟨slot, hslot, hkind⟩ := h.owner transfer hsome
  refine ⟨slot, ?_, hkind⟩
  rw [hlayout, List.getElem?_append_left (List.getElem?_eq_some_iff.mp hslot).1]
  exact hslot

end Owned

/-- A request for the bus leaves the transfer alone, -/
theorem transfer_request (bus : MappedBus) (requestor : String) :
    (bus.request requestor).2.transfer = bus.transfer := by
  rcases bus.request_snd requestor with hsame | ⟨-, -, hgranted⟩
  · rw [hsame]
  · rw [hgranted]

/-- and so does giving the bus back. -/
theorem transfer_release (bus : MappedBus) (requestor : String) :
    (bus.release requestor).transfer = bus.transfer := by
  unfold release
  split <;> rfl

/-- A transfer that starts belongs to a DMA controller, and nobody else holds the bus then. -/
theorem startTransfer_owner (h : Spaced bus.layout) :
    bus.startTransfer = bus ∨
      ∃ transfer m, bus.startTransfer.transfer = some transfer ∧
        bus.mappings[transfer.owner.toNat]? = some m ∧ m.device.kind = .dma ∧
        ∀ name, bus.startTransfer.holder = some name → name = m.device.name := by
  rcases bus.startTransfer_cases with hsame | ⟨place, name, block, hfound, hgranted, hstarted⟩
  · exact .inl hsame
  · obtain ⟨i, m, hi, hm, hname, hwants⟩ := exists_mapping_of_firstRequest hfound
    obtain rfl : place = i := by omega
    have hmapped : place < bus.layout.length := by
      rw [layout, List.length_map]
      exact (List.getElem?_eq_some_iff.mp hm).1
    refine .inr ⟨⟨UInt64.ofNat place, block, 0, none⟩, m, by rw [hstarted], ?_, ?_, ?_⟩
    · rw [h.toNat_place hmapped]
      exact hm
    · by_contra hkind
      rw [Device.transferRequest_of_kind hkind] at hwants
      cases hwants
    · intro holder hholder
      rw [hstarted] at hholder
      rw [hname]
      rcases bus.request_snd name with hsame | ⟨-, -, hheld⟩
      · rw [hsame] at hholder
        exact (bus.request_fst name).mp hgranted holder hholder
      · rw [hheld] at hholder
        exact (Option.some.inj hholder).symm

/-- A transfer that is started is owned by the controller that asked for it. -/
theorem owned_startTransfer (h : bus.Owned) : bus.startTransfer.Owned := by
  have hlayout := (leadsTo_startTransfer bus).layout
  rcases startTransfer_owner h.spaced with hsame | ⟨transfer, m, hstarted, hm, hkind, -⟩
  · rwa [hsame]
  · refine ⟨hlayout ▸ h.spaced, fun next hnext => ?_⟩
    rw [hstarted] at hnext
    obtain rfl := Option.some.inj hnext
    refine ⟨m.slot, ?_, hkind⟩
    rw [hlayout, layout, List.getElem?_map, hm]
    rfl

/-- By a start nobody but the owner of the transfer becomes master of the bus. -/
theorem heldForTransfer_startTransfer (hspaced : Spaced bus.layout) (h : bus.HeldForTransfer) :
    bus.startTransfer.HeldForTransfer := by
  rcases startTransfer_owner hspaced with hsame | ⟨transfer, m, hstarted, hm, -, hholder⟩
  · rwa [hsame]
  · intro name hheld
    refine ⟨transfer, hstarted, ?_⟩
    rw [nameAt?_of_layout (leadsTo_startTransfer bus).layout, nameAt?, hm, hholder name hheld]
    rfl

/-- A cycle of a transfer leaves it with its owner. -/
theorem owned_transferCycle (h : port.bus.Owned) (htransfer : port.bus.transfer = some transfer) :
    (transferCycle transfer port).bus.Owned := by
  have hlayout := (leadsTo_transferCycle htransfer).layout
  obtain ⟨served, -, ⟨next, howner, -, -, hnext⟩ | hfinish⟩ := transferCycle_cases transfer port
  · refine h.of_owner hlayout fun later hlater => ⟨transfer, htransfer, ?_⟩
    rw [hnext] at hlater
    obtain rfl := Option.some.inj hlater
    exact howner
  · refine h.of_idle hlayout ?_
    rw [hfinish]
    exact transfer_finishTransfer _ served

/-- In a cycle of a transfer nobody else becomes master of the bus, -/
theorem heldForTransfer_transferCycle (h : port.bus.HeldForTransfer)
    (htransfer : port.bus.transfer = some transfer) :
    (transferCycle transfer port).bus.HeldForTransfer := by
  have hheld : port.bus.holder = none ∨
      port.bus.holder = port.bus.nameAt? transfer.owner.toNat := by
    cases hholder : port.bus.holder with
    | none => exact .inl rfl
    | some name =>
      obtain ⟨owned, howned, hname⟩ := h name hholder
      rw [htransfer] at howned
      obtain rfl := Option.some.inj howned
      exact .inr hname.symm
  obtain ⟨served, hsame, ⟨next, howner, -, -, hnext⟩ | hfinish⟩ := transferCycle_cases transfer port
  · rw [hnext]
    intro name hholder
    have hbefore : port.bus.holder = some name := hsame.holder.symm.trans hholder
    rcases hheld with hfree | howned
    · rw [hfree] at hbefore
      cases hbefore
    · have hlayout : (setTransfer served next).bus.layout = port.bus.layout := hsame.layout
      refine ⟨next, rfl, ?_⟩
      rw [howner, nameAt?_of_layout hlayout, ← howned, hbefore]
  · -- The owner gives the bus back, so nobody holds it.
    have hfree : (transferCycle transfer port).bus.holder = none := by
      rw [hfinish, holder_finishTransfer, hsame.holder, nameAt?_of_layout hsame.layout]
      split
      · rfl
      · next hother => exact hheld.resolve_right hother
    intro name hholder
    rw [hfree] at hholder
    cases hholder

/-- Several cycles of a transfer leave it with its owner. -/
theorem owned_runTransfer (h : port.bus.Owned) (cycles : ℕ) :
    (runTransfer port cycles).bus.Owned := by
  induction cycles generalizing port with
  | zero => exact h
  | succ cycles ih =>
    cases htransfer : port.bus.transfer with
    | none => rwa [runTransfer_of_idle htransfer]
    | some transfer =>
      rw [runTransfer_succ htransfer]
      exact ih (owned_transferCycle h htransfer)

/-- nor in several of them. -/
theorem heldForTransfer_runTransfer (h : port.bus.HeldForTransfer) (cycles : ℕ) :
    (runTransfer port cycles).bus.HeldForTransfer := by
  induction cycles generalizing port with
  | zero => exact h
  | succ cycles ih =>
    cases htransfer : port.bus.transfer with
    | none => rwa [runTransfer_of_idle htransfer]
    | some transfer =>
      rw [runTransfer_succ htransfer]
      exact ih (heldForTransfer_transferCycle h htransfer)

/-- Who has the bus for a transfer is a matter of the arbitration. -/
theorem HeldForTransfer.of_sameArbitration (h : bus.HeldForTransfer)
    (hsame : bus.SameArbitration bus') : bus'.HeldForTransfer := by
  intro name hholder
  rw [hsame.transfer, funext (nameAt?_of_layout hsame.layout)]
  exact h name (hsame.holder ▸ hholder)

/-- After machine clocks the transfer under way is owned, -/
theorem owned_tick (h : port.bus.Owned) (cycles : ℕ) : (tick port cycles).bus.Owned := by
  have hsame := sameArbitration_clocksPassed cycles (runTransfer port cycles)
  rw [bus_tick]
  exact owned_startTransfer
    ((owned_runTransfer h cycles).of_transfer_eq hsame.layout hsame.transfer)

/-- and nobody else has become master of the bus. -/
theorem heldForTransfer_tick (howned : port.bus.Owned) (h : port.bus.HeldForTransfer)
    (cycles : ℕ) : (tick port cycles).bus.HeldForTransfer := by
  have hsame := sameArbitration_clocksPassed cycles (runTransfer port cycles)
  have hspaced : Spaced (clocksPassed cycles (runTransfer port cycles)).layout := by
    rw [hsame.layout]
    exact (owned_runTransfer howned cycles).spaced
  rw [bus_tick]
  exact heldForTransfer_startTransfer hspaced
    ((heldForTransfer_runTransfer h cycles).of_sameArbitration hsame)

/-- When its transfer is complete the one controller asks for no other. -/
theorem idle_finishTransfer (hone : OneController port.bus.layout) {owner : ℕ} {slot : Slot}
    (hslot : port.bus.layout[owner]? = some slot) (hkind : slot.kind = .dma) :
    ∀ m ∈ (finishTransfer owner port).bus.mappings, m.device.transferRequest = none := by
  have hlayout := (leadsTo_finishTransfer owner port).layout
  obtain ⟨mapping, hmapping, -⟩ := Option.map_eq_some_iff.mp (List.getElem?_map ▸ hslot)
  have hplace := (List.getElem?_eq_some_iff.mp hmapping).1
  refine idle_of_alone owner (hlayout ▸ hone.alone hslot hkind) fun m hm => ?_
  rw [mappings_finishTransfer, completeAt_eq hmapping, List.getElem?_set_self hplace] at hm
  obtain rfl := Option.some.inj hm
  exact mapping.device.transferRequest_completeTransfer port.lines

/-- There is no more than one DMA controller, and nobody but the processor or the owner of a
transfer under way is master of the bus. -/
structure SoleMaster (bus : MappedBus) : Prop extends Owned bus where
  /-- There is no more than one DMA controller. -/
  one : OneController bus.layout
  /-- Nobody else is master of the bus. -/
  held : bus.HeldForTransfer

namespace SoleMaster

/-- Whether there is another master depends on the arbitration and the layout only. -/
theorem of_sameArbitration (h : bus.SoleMaster) (hsame : bus.SameArbitration bus') :
    bus'.SoleMaster :=
  ⟨h.toOwned.of_transfer_eq hsame.layout hsame.transfer, hsame.layout ▸ h.one,
    h.held.of_sameArbitration hsame⟩

/-- Machine clocks let in no other master. -/
theorem tick (port : Port MappedBus) (h : port.bus.SoleMaster) (cycles : ℕ) :
    (MappedBus.tick port cycles).bus.SoleMaster :=
  ⟨owned_tick h.toOwned cycles, (leadsTo_tick port cycles).layout ▸ h.one,
    heldForTransfer_tick h.toOwned h.held cycles⟩

/-- With each machine clock in which the processor does not have the bus the transfer comes closer
to its end, or it is over and no other one starts. -/
theorem cyclesLeft_tick (port : Port MappedBus) (h : port.bus.SoleMaster)
    (hstalled : Bus.cpuHasBus port.bus = false) :
    (MappedBus.tick port 1).bus.cyclesLeft < port.bus.cyclesLeft := by
  obtain ⟨name, hname⟩ := Option.isSome_iff_exists.mp (Option.isNone_eq_false_iff.mp hstalled)
  obtain ⟨transfer, htransfer, -⟩ := h.held name hname
  obtain ⟨slot, hslot, hkind⟩ := h.owner transfer htransfer
  have hrun : runTransfer port 1 = transferCycle transfer port := runTransfer_succ htransfer 0
  have hbefore : port.bus.cyclesLeft = transfer.cyclesLeft := by
    rw [cyclesLeft, htransfer]
    rfl
  rw [bus_tick, hrun, hbefore]
  obtain ⟨served, hsame, ⟨next, -, -, hfewer, hnext⟩ | hfinish⟩ := transferCycle_cases transfer port
  · have hgoes : (clocksPassed 1 (transferCycle transfer port)).startTransfer.transfer =
        some next := by
      rw [hnext]
      rfl
    rw [cyclesLeft, hgoes]
    exact hfewer
  · have hidle := idle_finishTransfer (hsame.layout ▸ h.one) (hsame.layout ▸ hslot) hkind
    have hnone : (clocksPassed 1 (finishTransfer transfer.owner.toNat served)).transfer = none :=
      transfer_finishTransfer _ served
    have hover : (clocksPassed 1 (transferCycle transfer port)).startTransfer.transfer = none := by
      rw [hfinish, startTransfer_of_idle hnone (idle_tickAll 1 hidle _)]
      exact hnone
    rw [cyclesLeft, hover]
    exact transfer.cyclesLeft_pos

end SoleMaster

end MappedBus

end W65C02
