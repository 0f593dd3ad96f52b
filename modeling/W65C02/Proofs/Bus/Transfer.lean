import W65C02.Proofs.Bus.Cells
import W65C02.Proofs.Device.IntervalTimer

/-!
# Block transfers

A transfer copies bytes in increasing order, one at a time, so each byte is read after all earlier
ones have been written. The ranges may overlap and may wrap at the end of the address space. On the
bus a byte takes a cycle to read and one to write. The copy and its duration are defined here
without reference to cycles, and a cycle of a transfer takes both one step closer to their end.
-/

namespace W65C02

/-- Copies the byte at a place of a block. -/
def BlockTransfer.copyByte (block : BlockTransfer) (cells : Cells) (place : ℕ) : Cells :=
  cells.put (block.destination + UInt16.ofNat place)
    (cells (block.source + UInt16.ofNat place)).value

namespace TransferProgress

/-- The cycles that a transfer still takes: two for each byte, less the one in which the present
byte was read. -/
def duration (transfer : TransferProgress) : ℕ :=
  2 * (transfer.block.length.toNat - transfer.index.toNat) -
    if transfer.latch.isSome then 1 else 0

/-- Memory after the rest of a transfer: a byte that was read is written, and then byte after byte
is copied to the end of the block. -/
def copied (transfer : TransferProgress) (cells : Cells) : Cells :=
  let first := transfer.index.toNat
  let count := transfer.block.length.toNat - first
  match transfer.latch with
  | none => (List.range' first count).foldl transfer.block.copyByte cells
  | some value =>
    (List.range' (first + 1) (count - 1)).foldl transfer.block.copyByte
      (cells.put (transfer.block.destination + transfer.index) value)

/-- The transfer with the present byte read. -/
def withLatch (transfer : TransferProgress) (value : UInt8) : TransferProgress :=
  { transfer with latch := some value }

/-- The transfer with the present byte written. -/
def next (transfer : TransferProgress) : TransferProgress :=
  { transfer with index := transfer.index + 1, latch := none }

variable {transfer : TransferProgress}

/-- There is one byte less to copy. -/
theorem toNat_index_next (h : transfer.index < transfer.block.length) :
    transfer.next.index.toNat = transfer.index.toNat + 1 := by
  have hlength := transfer.block.length.toNat_lt
  have hlt := UInt16.lt_iff_toNat_lt.mp h
  simp only [next]
  rw [UInt16.toNat_add, show (1 : UInt16).toNat = 1 from rfl]
  omega

/-- Reading a byte takes a cycle off the transfer, -/
theorem duration_withLatch (h : transfer.index < transfer.block.length)
    (hlatch : transfer.latch = none) (value : UInt8) :
    (transfer.withLatch value).duration + 1 = transfer.duration := by
  have hlt := UInt16.lt_iff_toNat_lt.mp h
  simp only [duration, withLatch, hlatch, Option.isSome_some, Option.isSome_none, if_true,
    Bool.false_eq_true, if_false]
  omega

/-- and so does writing it. -/
theorem duration_next (h : transfer.index < transfer.block.length) {value : UInt8}
    (hlatch : transfer.latch = some value) : transfer.next.duration + 1 = transfer.duration := by
  have hlt := UInt16.lt_iff_toNat_lt.mp h
  have hnext := toNat_index_next h
  have hblock : transfer.next.block = transfer.block := rfl
  have hnone : transfer.next.latch = none := rfl
  simp only [duration, hnext, hblock, hnone, hlatch, Option.isSome_some, Option.isSome_none,
    if_true, Bool.false_eq_true, if_false]
  omega

/-- The present byte has the value that memory has before it is written. -/
theorem copied_withLatch (h : transfer.index < transfer.block.length)
    (hlatch : transfer.latch = none) (cells : Cells) :
    (transfer.withLatch (cells (transfer.block.source + transfer.index)).value).copied cells =
      transfer.copied cells := by
  have hlt := UInt16.lt_iff_toNat_lt.mp h
  obtain ⟨more, hmore⟩ : ∃ more, transfer.block.length.toNat - transfer.index.toNat = more + 1 :=
    ⟨transfer.block.length.toNat - transfer.index.toNat - 1, by omega⟩
  simp only [copied, withLatch, hlatch, hmore, List.range'_succ, List.foldl_cons,
    Nat.add_sub_cancel, BlockTransfer.copyByte, UInt16.ofNat_toNat]

/-- Once a byte has been copied, the rest is what remains to be copied. -/
theorem copied_next (h : transfer.index < transfer.block.length) {value : UInt8}
    (hlatch : transfer.latch = some value) (cells : Cells) :
    transfer.next.copied (cells.put (transfer.block.destination + transfer.index) value) =
      transfer.copied cells := by
  have hnext := toNat_index_next h
  have hblock : transfer.next.block = transfer.block := rfl
  have hnone : transfer.next.latch = none := rfl
  simp only [copied, hnext, hblock, hnone, hlatch, Nat.sub_sub]

/-- An unfinished transfer has a cycle left. -/
theorem duration_pos (h : transfer.index < transfer.block.length) : 0 < transfer.duration := by
  have hlt := UInt16.lt_iff_toNat_lt.mp h
  unfold duration
  split <;> omega

/-- The last byte is written in the last cycle. -/
theorem duration_of_last (h : transfer.index < transfer.block.length) {value : UInt8}
    (hlatch : transfer.latch = some value)
    (hlast : ¬ transfer.next.index < transfer.next.block.length) : transfer.duration = 1 := by
  have hduration := duration_next h hlatch
  have hnext := Nat.not_lt.mp (mt UInt16.lt_iff_toNat_lt.mpr hlast)
  have hzero : transfer.next.duration = 0 := by
    simp only [duration, Nat.sub_eq_zero_of_le hnext, Nat.mul_zero, Nat.zero_sub]
  omega

/-- With the last byte written the copy is complete. -/
theorem copied_of_last (h : transfer.index < transfer.block.length) {value : UInt8}
    (hlatch : transfer.latch = some value)
    (hlast : ¬ transfer.next.index < transfer.next.block.length) (cells : Cells) :
    transfer.copied cells = cells.put (transfer.block.destination + transfer.index) value := by
  have hnext := Nat.not_lt.mp (mt UInt16.lt_iff_toNat_lt.mpr hlast)
  have hnone : transfer.next.latch = none := rfl
  rw [← copied_next h hlatch]
  simp only [copied, hnone, Nat.sub_eq_zero_of_le hnext, List.range'_zero, List.foldl_nil]

end TransferProgress

/-- A further request releases no interrupt request. -/
theorem Lines.holdsIrq_request {lines : Lines} {source : String} (h : lines.holdsIrq source = true)
    (other : String) : (lines.request other .irq).holdsIrq source = true := by
  have hmem : source ∈ lines.irqSources.names := of_decide_eq_true h
  exact decide_eq_true (SourceSet.mem_names_insert.mpr (.inr hmem))

namespace IntervalTimer

variable (t : IntervalTimer) {lines : Lines} {source : String}

/-- A timer does not withdraw a request by counting. -/
theorem holdsIrq_countDown (h : lines.holdsIrq source = true) :
    (t.countDown lines).2.holdsIrq source = true := by
  rcases t.lines_countDown lines with hlines | hlines
  · rw [hlines]
    exact h
  · rw [hlines, notify]
    split
    · exact Lines.holdsIrq_request h t.name
    · exact h

/-- A timer releases no interrupt request by counting. -/
theorem holdsIrq_tick (h : lines.holdsIrq source = true) (clocks : ℕ) :
    (t.tick lines clocks).2.holdsIrq source = true := by
  induction clocks generalizing t lines with
  | zero => exact h
  | succ clocks ih => exact ih _ (t.holdsIrq_countDown h)

end IntervalTimer

/-- No device but a DMA controller asks for a transfer. -/
theorem Device.transferRequest_of_kind {device : Device} (h : device.kind ≠ .dma) :
    device.transferRequest = none := by
  cases device with
  | dma d => exact absurd rfl h
  | ram | rom | timer | cpu => rfl

/-- When its transfer is complete a device asks for none. -/
theorem Device.transferRequest_completeTransfer (device : Device) (lines : Lines) :
    (device.completeTransfer lines).1.transferRequest = none := by
  cases device <;> rfl

/-- Machine clocks make no device release an interrupt request. -/
theorem Mapping.holdsIrq_tick (m : Mapping) {lines : Lines} {source : String}
    (h : lines.holdsIrq source = true) (cycles : ℕ) :
    (m.tick lines cycles).2.holdsIrq source = true := by
  unfold tick
  simp only
  split
  · exact h
  · cases m.device with
    | timer t => exact t.holdsIrq_tick h _
    | ram | rom | dma | cpu => exact h

namespace MappedBus

/-- Machine clocks release no interrupt request. -/
theorem holdsIrq_tickAll (cycles : ℕ) (mappings : List Mapping) {lines : Lines} {source : String}
    (h : lines.holdsIrq source = true) :
    (tickAll cycles mappings lines).2.holdsIrq source = true := by
  induction mappings generalizing lines with
  | nil => exact h
  | cons m rest ih => exact ih (m.holdsIrq_tick h cycles)

/-- The device at a place learns that its transfer is complete, and no other does. -/
theorem completeAt_eq {place : ℕ} {mappings : List Mapping} {m : Mapping}
    (h : mappings[place]? = some m) (lines : Lines) :
    completeAt place mappings lines =
      (mappings.set place (m.completeTransfer lines).1, (m.completeTransfer lines).2) := by
  induction mappings generalizing place with
  | nil => cases h
  | cons first rest ih =>
    cases place with
    | zero =>
      obtain rfl := Option.some.inj h
      rfl
    | succ place => simp only [completeAt, ih h, List.set_cons_succ]

/-- If no DMA controller is mapped elsewhere, it depends on the device at one place alone whether
any device asks for a transfer. -/
theorem idle_of_alone {bus : MappedBus} (place : ℕ)
    (halone : ∀ slot ∈ bus.layout.eraseIdx place, slot.kind ≠ .dma)
    (hplace : ∀ m, bus.mappings[place]? = some m → m.device.transferRequest = none) :
    ∀ m ∈ bus.mappings, m.device.transferRequest = none := by
  intro m hm
  obtain ⟨other, hat⟩ := List.mem_iff_getElem?.mp hm
  by_cases hsame : other = place
  · exact hplace m (hsame ▸ hat)
  · have hslot : bus.layout[other]? = some m.slot := by
      rw [layout, List.getElem?_map, hat]
      rfl
    have hmem := List.mem_eraseIdx_iff_getElem?.mpr ⟨other, hsame, hslot⟩
    exact Device.transferRequest_of_kind (halone m.slot hmem)

/-- The one DMA controller carries out a transfer that has bytes left. It holds the bus, and nothing
but memory is mapped where bytes are read or written. -/
structure Copies (bus : MappedBus) (transfer : TransferProgress) (controller : DmaController) :
    Prop where
  /-- The transfer is under way. -/
  underWay : bus.transfer = some transfer
  /-- Bytes are left. -/
  unfinished : transfer.index < transfer.block.length
  /-- The controller is the owner. -/
  owner : ∃ m, bus.mappings[transfer.owner.toNat]? = some m ∧ m.device = .dma controller
  /-- There is no other DMA controller. -/
  alone : ∀ slot ∈ bus.layout.eraseIdx transfer.owner.toNat, slot.kind ≠ .dma
  /-- The controller holds the bus. -/
  holder : bus.holder = some controller.name
  /-- Nothing but memory is mapped where bytes are read or written. -/
  memory : ∀ place < transfer.block.length.toNat,
    OffersMemory bus.layout (transfer.block.source + UInt16.ofNat place) ∧
      OffersMemory bus.layout (transfer.block.destination + UInt16.ofNat place)

/-- A number of cycles later the transfer is still under way. It is as much closer to its end, and
what is left of the copy leads to the same memory. -/
structure Continues (bus bus' : MappedBus) (transfer next : TransferProgress)
    (controller : DmaController) (cycles : ℕ) : Prop where
  /-- The controller still carries it out. -/
  copies : bus'.Copies next controller
  /-- The owner is at the same place. -/
  owner : next.owner = transfer.owner
  /-- The cycles have been spent on it. -/
  duration : next.duration + cycles = transfer.duration
  /-- What is left of the copy leads to the same memory. -/
  copied : next.copied bus'.cells = transfer.copied bus.cells
  /-- The layout stays. -/
  layout : bus'.layout = bus.layout

/-- The transfer is over: the bus is free, the controller is done and has requested its interrupt
if it was told to, and memory is what the copy makes of it. -/
structure Completed (bus : MappedBus) (port : Port MappedBus) (transfer : TransferProgress)
    (controller : DmaController) : Prop where
  /-- No transfer is under way. -/
  ended : port.bus.transfer = none
  /-- The processor has the bus. -/
  free : port.bus.holder = none
  /-- Of the registers of the controller only the status has changed. -/
  device : ∃ m, port.bus.mappings[transfer.owner.toNat]? = some m ∧
    m.device = .dma { controller with busy := false, done := true }
  /-- The interrupt is requested. -/
  irq : controller.irqOnDone = true → port.lines.holdsIrq controller.name = true
  /-- Memory is what the copy makes of it. -/
  cells : port.bus.cells = transfer.copied bus.cells
  /-- No device asks for another transfer. -/
  idle : ∀ m ∈ port.bus.mappings, m.device.transferRequest = none
  /-- The layout stays. -/
  layout : port.bus.layout = bus.layout

section

variable {bus bus' : MappedBus} {port : Port MappedBus} {transfer next : TransferProgress}
  {controller : DmaController}

/-- In no cycles a transfer goes on as it is. -/
theorem Copies.continues (h : bus.Copies transfer controller) :
    bus.Continues bus transfer transfer controller 0 :=
  ⟨h, rfl, rfl, rfl, rfl⟩

/-- A transfer goes on for some cycles and then for others. -/
theorem Continues.trans {bus'' : MappedBus} {next' : TransferProgress} {m n : ℕ}
    (h : bus.Continues bus' transfer next controller m)
    (h' : bus'.Continues bus'' next next' controller n) :
    bus.Continues bus'' transfer next' controller (m + n) where
  copies := h'.copies
  owner := h'.owner.trans h.owner
  duration := by
    have hfirst := h.duration
    have hthen := h'.duration
    omega
  copied := h'.copied.trans h.copied
  layout := h'.layout.trans h.layout

/-- Where a transfer that goes on ends, it has come to the same as the whole of it. -/
theorem Continues.completed {cycles : ℕ} (h : bus.Continues bus' transfer next controller cycles)
    (h' : bus'.Completed port next controller) : bus.Completed port transfer controller where
  ended := h'.ended
  free := h'.free
  device := h.owner ▸ h'.device
  irq := h'.irq
  cells := h'.cells.trans h.copied
  idle := h'.idle
  layout := h'.layout.trans h.layout

/-- Without a change of the layout the controller goes on with the next step of its transfer. -/
theorem Copies.goOn (h : bus.Copies transfer controller) (hlayout : bus'.layout = bus.layout)
    (hholder : bus'.holder = bus.holder) (htransfer : bus'.transfer = some next)
    (howner : next.owner = transfer.owner) (hblock : next.block = transfer.block)
    (hindex : next.index < next.block.length)
    (hdevice : ∃ m, bus'.mappings[transfer.owner.toNat]? = some m ∧ m.device = .dma controller) :
    bus'.Copies next controller where
  underWay := htransfer
  unfinished := hindex
  owner := by rwa [howner]
  alone := by
    rw [hlayout, howner]
    exact h.alone
  holder := hholder.trans h.holder
  memory := by
    rw [hlayout, hblock]
    exact h.memory

/-- The present byte is read from memory and written to memory. -/
theorem Copies.memory_at_index (h : bus.Copies transfer controller) :
    OffersMemory bus.layout (transfer.block.source + transfer.index) ∧
      OffersMemory bus.layout (transfer.block.destination + transfer.index) := by
  have hmemory := h.memory transfer.index.toNat (UInt16.lt_iff_toNat_lt.mp h.unfinished)
  rwa [UInt16.ofNat_toNat] at hmemory

/-- A cycle reads the present byte. -/
theorem Copies.read (h : port.bus.Copies transfer controller) (hlatch : transfer.latch = none) :
    ∃ next, port.bus.Continues (transferCycle transfer port).bus transfer next controller 1 := by
  let value := (port.bus.cells (transfer.block.source + transfer.index)).value
  have hread := read_of_offersMemory h.memory_at_index.1
  have hcycle : transferCycle transfer port = setTransfer port (transfer.withLatch value) := by
    simp only [transferCycle, if_pos h.unfinished, hlatch, hread]
    rfl
  rw [hcycle]
  refine ⟨transfer.withLatch value, ?_, rfl, ?_, ?_, rfl⟩
  · exact h.goOn rfl rfl rfl rfl rfl h.unfinished h.owner
  · exact TransferProgress.duration_withLatch h.unfinished hlatch value
  · exact TransferProgress.copied_withLatch h.unfinished hlatch port.bus.cells

/-- Memory is written, and the controller stays as it is. -/
theorem Copies.owner_write (h : port.bus.Copies transfer controller) (value : UInt8) :
    ∃ m, (port.write (transfer.block.destination + transfer.index) value).bus.mappings[
      transfer.owner.toNat]? = some m ∧ m.device = .dma controller := by
  obtain ⟨m, hm, hdevice⟩ := h.owner
  have hkind : m.device.kind.isMemory = false := by
    rw [hdevice]
    rfl
  exact ⟨m, getElem?_write h.memory_at_index.2 value hm hkind, hdevice⟩

/-- A cycle writes the present byte, and more are left. -/
theorem Copies.write (h : port.bus.Copies transfer controller) {value : UInt8}
    (hlatch : transfer.latch = some value)
    (hmore : transfer.next.index < transfer.next.block.length) :
    ∃ next, port.bus.Continues (transferCycle transfer port).bus transfer next controller 1 := by
  let address := transfer.block.destination + transfer.index
  have hcycle : transferCycle transfer port =
      setTransfer (port.write address value) transfer.next := by
    simp only [transferCycle, if_pos h.unfinished, hlatch]
    exact if_pos hmore
  have hsame := sameArbitration_write address value port
  rw [hcycle]
  refine ⟨transfer.next, ?_, rfl, ?_, ?_, hsame.layout⟩
  · exact h.goOn hsame.layout hsame.holder rfl rfl rfl hmore (h.owner_write value)
  · exact TransferProgress.duration_next h.unfinished hlatch
  · have hcells : (setTransfer (port.write address value) transfer.next).bus.cells =
        port.bus.cells.put address value := cells_write port address value
    rw [hcells]
    exact TransferProgress.copied_next h.unfinished hlatch port.bus.cells

/-- The controller gives the bus back when it learns that its transfer is complete. -/
theorem finishTransfer_of_owner {owner : ℕ} {m : Mapping}
    (hm : port.bus.mappings[owner]? = some m) (hdevice : m.device = .dma controller)
    (hholder : port.bus.holder = some controller.name) :
    finishTransfer owner port =
      ⟨⟨port.bus.mappings.set owner
          { m with device := .dma { controller with busy := false, done := true } }, none, none⟩,
        (controller.complete port.lines).2⟩ := by
  let m' : Mapping := { m with device := .dma { controller with busy := false, done := true } }
  have hcomplete : completeAt owner port.bus.mappings port.lines =
      (port.bus.mappings.set owner m', (controller.complete port.lines).2) := by
    rw [completeAt_eq hm]
    simp only [Mapping.completeTransfer, hdevice]
    rfl
  have hplace : owner < port.bus.mappings.length := (List.getElem?_eq_some_iff.mp hm).1
  have hname : nameAt? ⟨port.bus.mappings.set owner m', some controller.name, none⟩ owner =
      some controller.name := by
    simp only [nameAt?, List.getElem?_set_self hplace]
    rfl
  rw [finishTransfer_eq, hcomplete, hholder]
  simp only [hname, Option.elim_some, release, if_true]
  rfl

/-- The end of a transfer changes no cell. -/
theorem cells_finishTransfer (owner : ℕ) (port : Port MappedBus) :
    (finishTransfer owner port).bus.cells = port.bus.cells := by
  unfold cells
  rw [mappings_finishTransfer]
  exact funext fun address => cellIn_completeAt owner address port.bus.mappings port.lines

/-- A cycle writes the last byte, and the transfer is over. -/
theorem Copies.finish (h : port.bus.Copies transfer controller) {value : UInt8}
    (hlatch : transfer.latch = some value)
    (hlast : ¬ transfer.next.index < transfer.next.block.length) :
    port.bus.Completed (transferCycle transfer port) transfer controller := by
  let address := transfer.block.destination + transfer.index
  let written := port.write address value
  let owner := transfer.owner.toNat
  have hcycle : transferCycle transfer port = finishTransfer owner written := by
    simp only [transferCycle, if_pos h.unfinished, hlatch]
    exact if_neg hlast
  have hsame : port.bus.SameArbitration written.bus := sameArbitration_write address value port
  obtain ⟨m, hm, hdevice⟩ := h.owner_write value
  have hplace : owner < written.bus.mappings.length := (List.getElem?_eq_some_iff.mp hm).1
  have hlayout : (finishTransfer owner written).bus.layout = port.bus.layout :=
    (leadsTo_finishTransfer owner written).layout.trans hsame.layout
  have hcells : (finishTransfer owner written).bus.cells = transfer.copied port.bus.cells := by
    rw [cells_finishTransfer, TransferProgress.copied_of_last h.unfinished hlatch hlast]
    exact cells_write port address value
  have hfinish := finishTransfer_of_owner hm hdevice (hsame.holder.trans h.holder)
  rw [hcycle]
  refine ⟨?_, ?_, ?_, ?_, hcells, ?_, hlayout⟩
  · rw [hfinish]
  · rw [hfinish]
  · rw [hfinish]
    exact ⟨_, List.getElem?_set_self hplace, rfl⟩
  · intro hwanted
    rw [hfinish]
    simp only [DmaController.complete, if_pos hwanted]
    exact decide_eq_true (SourceSet.mem_names_insert.mpr (.inl rfl))
  · refine idle_of_alone owner (hlayout.symm ▸ h.alone) fun m hat => ?_
    rw [hfinish, List.getElem?_set_self hplace] at hat
    obtain rfl := Option.some.inj hat
    rfl

/-- A cycle brings a transfer closer to its end, and the last one ends it. -/
theorem Copies.transferCycle_cases (h : port.bus.Copies transfer controller) :
    (∃ next, port.bus.Continues (transferCycle transfer port).bus transfer next controller 1) ∨
      transfer.duration = 1 ∧
        port.bus.Completed (transferCycle transfer port) transfer controller := by
  cases hlatch : transfer.latch with
  | none => exact .inl (h.read hlatch)
  | some value =>
    by_cases hmore : transfer.next.index < transfer.next.block.length
    · exact .inl (h.write hlatch hmore)
    · exact .inr ⟨TransferProgress.duration_of_last h.unfinished hlatch hmore,
        h.finish hlatch hmore⟩

/-- The clocks of the devices change no cell. -/
theorem cells_tickAll (bus : MappedBus) (clocks : ℕ) (lines : Lines) :
    cells { bus with mappings := (tickAll clocks bus.mappings lines).1 } = bus.cells :=
  funext fun address => cellIn_tickAll clocks address bus.mappings lines

/-- The registers of a DMA controller do not depend on the clock. -/
theorem exists_dma_tickAll {mappings : List Mapping} {place : ℕ}
    (h : ∃ m, mappings[place]? = some m ∧ m.device = .dma controller) (clocks : ℕ)
    (lines : Lines) :
    ∃ m, (tickAll clocks mappings lines).1[place]? = some m ∧ m.device = .dma controller := by
  obtain ⟨m, hm, hdevice⟩ := h
  obtain ⟨before, htick⟩ := getElem?_tickAll clocks hm lines
  have hkind : m.device.kind.keepsTime = false := by
    rw [hdevice]
    rfl
  rw [Mapping.tick_of_not_keepsTime hkind] at htick
  exact ⟨_, htick, hdevice⟩

/-- The clocks of the devices do not touch a transfer under way. -/
theorem Continues.afterClocks {cycles : ℕ}
    (h : bus.Continues bus' transfer next controller cycles) (clocks : ℕ) (lines : Lines) :
    bus.Continues { bus' with mappings := (tickAll clocks bus'.mappings lines).1 } transfer next
      controller cycles := by
  have hlayout := (leadTo_tickAll clocks bus'.mappings lines).slots
  have howner := exists_dma_tickAll h.copies.owner clocks lines
  refine ⟨?_, h.owner, h.duration, ?_, hlayout.trans h.layout⟩
  · exact h.copies.goOn hlayout rfl h.copies.underWay rfl rfl h.copies.unfinished howner
  · rw [cells_tickAll]
    exact h.copied

/-- Neither do they undo what a transfer has come to. -/
theorem Completed.afterClocks (h : bus.Completed port transfer controller) (clocks : ℕ) :
    bus.Completed ⟨{ port.bus with mappings := (tickAll clocks port.bus.mappings port.lines).1 },
      (tickAll clocks port.bus.mappings port.lines).2⟩ transfer controller where
  ended := h.ended
  free := h.free
  device := exists_dma_tickAll h.device clocks port.lines
  irq hwanted := holdsIrq_tickAll clocks port.bus.mappings (h.irq hwanted)
  cells := (cells_tickAll port.bus clocks port.lines).trans h.cells
  idle := idle_tickAll clocks h.idle port.lines
  layout := (leadTo_tickAll clocks port.bus.mappings port.lines).slots.trans h.layout

/-- The transfer goes on with the next machine clock or is over, and no other one starts. -/
theorem Copies.tick (h : port.bus.Copies transfer controller) :
    (∃ next, port.bus.Continues (tick port 1).bus transfer next controller 1) ∨
      transfer.duration = 1 ∧ port.bus.Completed (tick port 1) transfer controller := by
  let served := MappedBus.transferCycle transfer port
  let clocked : Port MappedBus :=
    ⟨{ served.bus with mappings := (tickAll 1 served.bus.mappings served.lines).1 },
      (tickAll 1 served.bus.mappings served.lines).2⟩
  have hrun : runTransfer port 1 = served := runTransfer_succ h.underWay 0
  have htick : MappedBus.tick port 1 = ⟨clocked.bus.startTransfer, clocked.lines⟩ := by
    unfold MappedBus.tick
    rw [hrun]
  rcases h.transferCycle_cases with ⟨next, hnext⟩ | ⟨hlast, hdone⟩
  · have hnext : port.bus.Continues clocked.bus transfer next controller 1 :=
      hnext.afterClocks 1 served.lines
    have hstart : clocked.bus.startTransfer = clocked.bus := by
      simp only [startTransfer, hnext.copies.underWay]
    rw [htick, hstart]
    exact .inl ⟨next, hnext⟩
  · have hdone : port.bus.Completed clocked transfer controller := hdone.afterClocks 1
    rw [htick, startTransfer_of_idle hdone.ended hdone.idle]
    exact .inr ⟨hlast, hdone⟩

end

end MappedBus

end W65C02
