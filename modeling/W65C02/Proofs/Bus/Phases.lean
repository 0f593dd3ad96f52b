import W65C02.Proofs.Bus.Layout
import W65C02.Proofs.Cpu.Simulation

/-!
# Clocks that make no difference

Memory and DMA controllers do nothing when they get a clock, so it makes no difference how many
machine clocks have come together for the next one. Address maps that differ in nothing else
answer alike and stay alike. Nor does any clock make a device ask for a transfer.
-/

namespace W65C02

namespace Device

/-- A clock makes no difference to a device that does not keep time. -/
theorem tick_of_not_keepsTime {device : Device} (h : device.kind.keepsTime = false)
    (lines : Lines) (clocks : Nat) : device.tick lines clocks = (device, lines) := by
  cases device with
  | timer t | cpu c => cases h
  | _ => rfl

/-- A clock does not make a device ask for a transfer. -/
theorem transferRequest_tick (device : Device) (lines : Lines) (clocks : Nat) :
    (device.tick lines clocks).1.transferRequest = device.transferRequest := by
  cases device <;> rfl

end Device

namespace Mapping

/-- The mapping without the phase of its clock, if that makes no difference to its device. -/
def dropPhase (m : Mapping) : Mapping :=
  { m with residue := if m.device.kind.keepsTime then m.residue else 0 }

/-- The device stays. -/
@[simp] theorem dropPhase_device (m : Mapping) : m.dropPhase.device = m.device := rfl

/-- The range stays. -/
@[simp] theorem dropPhase_contains (m : Mapping) (address : UInt16) :
    m.dropPhase.contains address = m.contains address := rfl

variable (m : Mapping) (lines : Lines)

/-- Reading does not depend on the phase. -/
theorem read_dropPhase (address : UInt16) :
    m.dropPhase.read lines address =
      ((m.read lines address).1, (m.read lines address).2.1.dropPhase,
        (m.read lines address).2.2) := by
  have hkind : (m.read lines address).2.1.device.kind = m.device.kind :=
    congrArg Slot.kind (m.leadsTo_read lines address).slot
  rw [dropPhase, dropPhase, hkind]
  rfl

/-- Writing does not depend on the phase. -/
theorem write_dropPhase (address : UInt16) (value : UInt8) :
    m.dropPhase.write lines address value =
      ((m.write lines address value).1.dropPhase, (m.write lines address value).2) := by
  have hkind : (m.write lines address value).1.device.kind = m.device.kind :=
    congrArg Slot.kind (m.leadsTo_write lines address value).slot
  rw [dropPhase, dropPhase, hkind]
  rfl

/-- The end of a transfer does not depend on the phase. -/
theorem completeTransfer_dropPhase :
    m.dropPhase.completeTransfer lines =
      ((m.completeTransfer lines).1.dropPhase, (m.completeTransfer lines).2) := by
  have hkind : (m.completeTransfer lines).1.device.kind = m.device.kind :=
    congrArg Slot.kind (m.leadsTo_completeTransfer lines).slot
  rw [dropPhase, dropPhase, hkind]
  rfl

/-- A reset starts the clock anew, whatever its phase. -/
theorem reset_dropPhase :
    m.dropPhase.reset lines = ((m.reset lines).1.dropPhase, (m.reset lines).2) := by
  have hfresh : (m.reset lines).1.dropPhase = (m.reset lines).1 := by
    rw [dropPhase, show (m.reset lines).1.residue = 0 from rfl, ite_self]
    rfl
  rw [hfresh]
  rfl

/-- A device that does not keep time is not changed by machine clocks. -/
theorem tick_of_not_keepsTime {m : Mapping} (h : m.device.kind.keepsTime = false) (lines : Lines)
    (cycles : Nat) :
    m.tick lines cycles = ({ m with residue := m.total cycles % m.divider }, lines) := by
  unfold tick
  simp only [Device.tick_of_not_keepsTime h, ite_self]

/-- Machine clocks move the phase, but where that makes no difference they do nothing else. -/
theorem tick_dropPhase (cycles : Nat) :
    (m.dropPhase.tick lines cycles).1.dropPhase = (m.tick lines cycles).1.dropPhase ∧
      (m.dropPhase.tick lines cycles).2 = (m.tick lines cycles).2 := by
  cases hkeeps : m.device.kind.keepsTime with
  | true =>
    have hsame : m.dropPhase = m := by
      rw [dropPhase, hkeeps, if_pos rfl]
    rw [hsame]
    exact ⟨rfl, rfl⟩
  | false =>
    have hdropped : m.dropPhase.device.kind.keepsTime = false := hkeeps
    rw [tick_of_not_keepsTime hdropped, tick_of_not_keepsTime hkeeps]
    simp only [dropPhase, hkeeps, Bool.false_eq_true, if_false, and_self]

/-- Clocks neither raise nor withdraw a request for a transfer. -/
theorem transferRequest_tick (cycles : Nat) :
    (m.tick lines cycles).1.device.transferRequest = m.device.transferRequest := by
  unfold tick
  simp only
  split
  · rfl
  · exact m.device.transferRequest_tick lines _

end Mapping

namespace MappedBus

/-- Each mapping gets its machine clocks, in some state of the lines. -/
theorem getElem?_tickAll (cycles : Nat) {mappings : List Mapping} {place : Nat} {m : Mapping}
    (h : mappings[place]? = some m) (lines : Lines) :
    ∃ before, (tickAll cycles mappings lines).1[place]? = some (m.tick before cycles).1 := by
  induction mappings generalizing place lines with
  | nil => cases h
  | cons first rest ih =>
    cases place with
    | zero =>
      obtain rfl := Option.some.inj h
      exact ⟨lines, rfl⟩
    | succ place => exact ih h _

/-- Machine clocks do not make a device ask for a transfer. -/
theorem idle_tickAll (cycles : Nat) {mappings : List Mapping}
    (h : ∀ m ∈ mappings, m.device.transferRequest = none) (lines : Lines) :
    ∀ m ∈ (tickAll cycles mappings lines).1, m.device.transferRequest = none := by
  induction mappings generalizing lines with
  | nil => exact h
  | cons first rest ih =>
    obtain ⟨hfirst, hrest⟩ := List.forall_mem_cons.mp h
    have htick := first.transferRequest_tick lines cycles
    exact List.forall_mem_cons.mpr ⟨htick.trans hfirst, ih hrest _⟩

/-- Where no device asks for a transfer there is no first one that does. -/
theorem firstRequest_eq_none {mappings : List Mapping}
    (h : ∀ m ∈ mappings, m.device.transferRequest = none) (place : Nat) :
    firstRequest place mappings = none := by
  induction mappings generalizing place with
  | nil => rfl
  | cons first rest ih =>
    obtain ⟨hfirst, hrest⟩ := List.forall_mem_cons.mp h
    simp only [firstRequest, hfirst, ih hrest]

/-- Where no device asks for a transfer none is started. -/
theorem startTransfer_of_idle {bus : MappedBus} (htransfer : bus.transfer = none)
    (hidle : ∀ m ∈ bus.mappings, m.device.transferRequest = none) : bus.startTransfer = bus := by
  simp only [startTransfer, htransfer, firstRequest_eq_none hidle 0]

/-- Where no device asks for a transfer and none is under way, machine clocks pass for the devices
alone. -/
theorem tick_of_idle {port : Port MappedBus} (htransfer : port.bus.transfer = none)
    (hidle : ∀ m ∈ port.bus.mappings, m.device.transferRequest = none) (cycles : Nat) :
    tick port cycles =
      { bus := { port.bus with mappings := (tickAll cycles port.bus.mappings port.lines).1 }
        lines := (tickAll cycles port.bus.mappings port.lines).2 } := by
  have hticked := idle_tickAll cycles hidle port.lines
  unfold tick
  rw [runTransfer_of_idle htransfer]
  exact congrArg (Port.mk · _) (startTransfer_of_idle htransfer hticked)

/-- For a list of mappings, too, reading does not depend on the phases, -/
theorem readFrom_dropPhase (address : UInt16) (mappings : List Mapping) (lines : Lines) :
    readFrom address (mappings.map (·.dropPhase)) lines =
      ((readFrom address mappings lines).1,
        (readFrom address mappings lines).2.1.map (·.dropPhase),
        (readFrom address mappings lines).2.2) := by
  induction mappings with
  | nil => rfl
  | cons m rest ih =>
    simp only [List.map_cons, readFrom, Mapping.dropPhase_contains, Mapping.read_dropPhase, ih]
    split <;> rfl

/-- nor does writing, -/
theorem writeTo_dropPhase (address : UInt16) (value : UInt8) (mappings : List Mapping)
    (lines : Lines) :
    writeTo address value (mappings.map (·.dropPhase)) lines =
      ((writeTo address value mappings lines).1.map (·.dropPhase),
        (writeTo address value mappings lines).2) := by
  induction mappings with
  | nil => rfl
  | cons m rest ih =>
    simp only [List.map_cons, writeTo, Mapping.dropPhase_contains, Mapping.write_dropPhase, ih]
    split <;> rfl

/-- the end of a transfer, -/
theorem completeAt_dropPhase (place : Nat) (mappings : List Mapping) (lines : Lines) :
    completeAt place (mappings.map (·.dropPhase)) lines =
      ((completeAt place mappings lines).1.map (·.dropPhase),
        (completeAt place mappings lines).2) := by
  induction mappings generalizing place with
  | nil => cases place <;> rfl
  | cons m rest ih =>
    cases place with
    | zero => simp only [List.map_cons, completeAt, Mapping.completeTransfer_dropPhase]
    | succ place => simp only [List.map_cons, completeAt, ih]

/-- a reset, -/
theorem resetAll_dropPhase (mappings : List Mapping) (lines : Lines) :
    resetAll (mappings.map (·.dropPhase)) lines =
      ((resetAll mappings lines).1.map (·.dropPhase), (resetAll mappings lines).2) := by
  induction mappings generalizing lines with
  | nil => rfl
  | cons m rest ih => simp only [List.map_cons, resetAll, Mapping.reset_dropPhase, ih]

/-- the passing of machine clocks, -/
theorem tickAll_dropPhase (cycles : Nat) (mappings : List Mapping) (lines : Lines) :
    (tickAll cycles (mappings.map (·.dropPhase)) lines).1.map (·.dropPhase) =
        (tickAll cycles mappings lines).1.map (·.dropPhase) ∧
      (tickAll cycles (mappings.map (·.dropPhase)) lines).2 =
        (tickAll cycles mappings lines).2 := by
  induction mappings generalizing lines with
  | nil => exact ⟨rfl, rfl⟩
  | cons m rest ih =>
    obtain ⟨hfirst, hlines⟩ := m.tick_dropPhase lines cycles
    obtain ⟨hrest, hrestLines⟩ := ih (m.tick lines cycles).2
    simp only [List.map_cons, tickAll, hfirst, hlines, hrest, hrestLines, and_self]

/-- or the first request for a transfer. -/
theorem firstRequest_dropPhase (place : Nat) (mappings : List Mapping) :
    firstRequest place (mappings.map (·.dropPhase)) = firstRequest place mappings := by
  induction mappings generalizing place with
  | nil => rfl
  | cons m rest ih => simp only [List.map_cons, firstRequest, Mapping.dropPhase_device, ih]

/-- The map without the phases of clocks that make no difference. -/
def dropPhases (bus : MappedBus) : MappedBus :=
  { bus with mappings := bus.mappings.map (·.dropPhase) }

end MappedBus

/-- The world without the phases of clocks that make no difference. -/
def Port.dropPhases (port : Port MappedBus) : Port MappedBus :=
  { port with bus := port.bus.dropPhases }

namespace MappedBus

variable (port : Port MappedBus)

/-- On a map reading does not depend on the phases, -/
theorem read_dropPhases (address : UInt16) :
    port.dropPhases.read address =
      ((port.read address).1, (port.read address).2.dropPhases) := by
  have hread := readFrom_dropPhase address port.bus.mappings port.lines
  have hport : port.dropPhases.read address = (_, ⟨⟨_, port.bus.holder, port.bus.transfer⟩, _⟩) :=
    rfl
  rw [hport, hread]
  rfl

/-- nor does writing, -/
theorem write_dropPhases (address : UInt16) (value : UInt8) :
    port.dropPhases.write address value = (port.write address value).dropPhases := by
  have hwrite := writeTo_dropPhase address value port.bus.mappings port.lines
  have hport : port.dropPhases.write address value =
      ⟨⟨_, port.bus.holder, port.bus.transfer⟩, _⟩ := rfl
  rw [hport, hwrite]
  rfl

/-- giving the bus back, -/
theorem release_dropPhases (bus : MappedBus) (requestor : String) :
    bus.dropPhases.release requestor = (bus.release requestor).dropPhases := by
  unfold release
  rw [apply_ite dropPhases]
  rfl

/-- asking for it, -/
theorem request_dropPhases (bus : MappedBus) (requestor : String) :
    bus.dropPhases.request requestor =
      ((bus.request requestor).1, (bus.request requestor).2.dropPhases) := by
  have hholder : bus.dropPhases.holder = bus.holder := rfl
  unfold request
  rw [hholder]
  cases bus.holder with
  | some holder => rfl
  | none =>
    simp only
    split <;> rfl

/-- the name of a device, -/
theorem nameAt?_dropPhases (bus : MappedBus) (place : Nat) :
    bus.dropPhases.nameAt? place = bus.nameAt? place := by
  simp only [nameAt?, dropPhases, List.getElem?_map, Option.map_map]
  rfl

/-- the end of a transfer, -/
theorem finishTransfer_dropPhases (owner : Nat) :
    finishTransfer owner port.dropPhases = (finishTransfer owner port).dropPhases := by
  let completed : MappedBus :=
    ⟨(completeAt owner port.bus.mappings port.lines).1, port.bus.holder, none⟩
  have hcomplete := completeAt_dropPhase owner port.bus.mappings port.lines
  have hport : finishTransfer owner port.dropPhases =
      ⟨(completed.dropPhases.nameAt? owner).elim completed.dropPhases completed.dropPhases.release,
        (completeAt owner port.bus.mappings port.lines).2⟩ := by
    rw [finishTransfer_eq]
    unfold Port.dropPhases
    simp only [dropPhases, hcomplete]
    rfl
  rw [hport, finishTransfer_eq, nameAt?_dropPhases]
  simp only
  cases completed.nameAt? owner with
  | some name => exact congrArg (Port.mk · _) (release_dropPhases completed name)
  | none => rfl

/-- one of its cycles, -/
theorem transferCycle_dropPhases (transfer : TransferProgress) :
    transferCycle transfer port.dropPhases = (transferCycle transfer port).dropPhases := by
  unfold transferCycle
  simp only [read_dropPhases, write_dropPhases, finishTransfer_dropPhases]
  split
  · split
    · rfl
    · split <;> rfl
  · rfl

/-- several of them, -/
theorem runTransfer_dropPhases (cycles : Nat) :
    runTransfer port.dropPhases cycles = (runTransfer port cycles).dropPhases := by
  induction cycles generalizing port with
  | zero => rfl
  | succ cycles ih =>
    have htransfer : port.dropPhases.bus.transfer = port.bus.transfer := rfl
    unfold runTransfer
    rw [htransfer]
    split
    · rfl
    · rw [transferCycle_dropPhases, ih]

/-- its start, -/
theorem startTransfer_dropPhases (bus : MappedBus) :
    bus.dropPhases.startTransfer = bus.startTransfer.dropPhases := by
  have htransfer : bus.dropPhases.transfer = bus.transfer := rfl
  have hfirst : firstRequest 0 bus.dropPhases.mappings = firstRequest 0 bus.mappings :=
    firstRequest_dropPhase 0 bus.mappings
  unfold startTransfer
  rw [htransfer, hfirst]
  split
  · rfl
  · split
    · rfl
    · next place name block _ =>
      rw [request_dropPhases]
      cases hgranted : bus.request name with
      | mk granted bus' => cases granted <;> rfl

/-- or a reset. -/
theorem reset_dropPhases : reset port.dropPhases = (reset port).dropPhases := by
  have hreset := resetAll_dropPhase port.bus.mappings port.lines
  have hport : reset port.dropPhases = ⟨⟨_, none, none⟩, _⟩ := rfl
  rw [hport, hreset]
  rfl

/-- Machine clocks move the phases, but where these make no difference nothing else depends on
them. -/
theorem tick_dropPhases (cycles : Nat) :
    (tick port.dropPhases cycles).dropPhases = (tick port cycles).dropPhases := by
  let p := runTransfer port cycles
  obtain ⟨hmappings, hlines⟩ := tickAll_dropPhase cycles p.bus.mappings p.lines
  have hbus : (MappedBus.mk (tickAll cycles (p.bus.mappings.map (·.dropPhase)) p.lines).1
      p.bus.holder p.bus.transfer).dropPhases =
      (MappedBus.mk (tickAll cycles p.bus.mappings p.lines).1 p.bus.holder
        p.bus.transfer).dropPhases := by
    simp only [dropPhases, hmappings]
  unfold tick
  rw [runTransfer_dropPhases]
  change Port.mk (startTransfer _).dropPhases _ = Port.mk (startTransfer _).dropPhases _
  rw [← startTransfer_dropPhases, ← startTransfer_dropPhases]
  exact congrArg₂ (fun bus lines => Port.mk (startTransfer bus) lines) hbus hlines

end MappedBus

/-- Two worlds that differ in nothing but the phases of clocks that make no difference. -/
def Port.SamePhases (p q : Port MappedBus) : Prop := p.dropPhases = q.dropPhases

namespace Port.SamePhases

variable {p q : Port MappedBus}

/-- Ports that differ in the phases only have the same bus without them, -/
theorem bus_eq (h : p.SamePhases q) : p.bus.dropPhases = q.bus.dropPhases :=
  congrArg Port.bus h

/-- the same holder, -/
theorem holder_eq (h : p.SamePhases q) : p.bus.holder = q.bus.holder := by
  have hholder := congrArg (fun port : Port MappedBus => port.bus.holder) h
  exact hholder

/-- the same transfer under way, -/
theorem transfer_eq (h : p.SamePhases q) : p.bus.transfer = q.bus.transfer := by
  have htransfer := congrArg (fun port : Port MappedBus => port.bus.transfer) h
  exact htransfer

/-- and the same lines. -/
theorem lines_eq (h : p.SamePhases q) : p.lines = q.lines := by
  have hlines := congrArg (fun port : Port MappedBus => port.lines) h
  exact hlines

/-- The phases play no part in the snapshots of the devices. -/
theorem deviceSnapshots_eq (h : p.SamePhases q) :
    p.bus.deviceSnapshots = q.bus.deviceSnapshots := by
  have hdrop (bus : MappedBus) : bus.dropPhases.deviceSnapshots = bus.deviceSnapshots := by
    simp only [MappedBus.deviceSnapshots, MappedBus.dropPhases, List.map_map]
    rfl
  rw [← hdrop p.bus, h.bus_eq, hdrop q.bus]

/-- What commutes with dropping the phases keeps two such worlds alike. -/
theorem of_commute {f : Port MappedBus → Port MappedBus}
    (hf : ∀ port, f port.dropPhases = (f port).dropPhases) (h : p.SamePhases q) :
    (f p).SamePhases (f q) := by
  unfold SamePhases at h ⊢
  rw [← hf p, h, hf q]

/-- Machine clocks keep the two in agreement. -/
theorem tick (h : p.SamePhases q) (cycles : Nat) :
    (MappedBus.tick p cycles).SamePhases (MappedBus.tick q cycles) := by
  unfold SamePhases at h ⊢
  rw [← MappedBus.tick_dropPhases p, h, MappedBus.tick_dropPhases q]

/-- The answer to a read does not depend on the phases. -/
theorem read (h : p.SamePhases q) (address : UInt16) :
    (p.read address).1 = (q.read address).1 ∧
      (p.read address).2.SamePhases (q.read address).2 := by
  have hp := MappedBus.read_dropPhases p address
  have hq := MappedBus.read_dropPhases q address
  have hsame : p.dropPhases = q.dropPhases := h
  rw [hsame, hq] at hp
  exact ⟨(congrArg Prod.fst hp).symm, (congrArg Prod.snd hp).symm⟩

/-- No access of the processor depends on the phases. -/
theorem simulation : Bus.Simulation Port.SamePhases where
  lines_eq h := h.lines_eq
  cpuHasBus_eq h := congrArg Option.isNone h.holder_eq
  read_fst h := (h.read _).1
  read_snd h := (h.read _).2
  write {_ _ address value} h :=
    h.of_commute (f := (·.write address value)) (MappedBus.write_dropPhases · address value)
  setLines lines h := congrArg (Port.mk · lines) h.bus_eq

end Port.SamePhases

end W65C02
