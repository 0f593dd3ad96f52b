import W65C02.Proofs.Bus.Phases
import W65C02.Proofs.Bus.Restore
import W65C02.Proofs.Machine.Restore

/-!
# What a host does with a machine

A host runs a machine, accesses its bus, writes its registers, moves its interrupt lines and
competes for its bus. It may also place devices and take over snapshots. The machines that it can
come by are all sound, and so they accept their own snapshots.
-/

namespace W65C02

namespace Machine

/-- What a host can ask of a machine once its devices are in their places. -/
inductive Command where
  /-- Uses up a budget of cycles. -/
  | tick (budget : Nat)
  /-- Runs a number of cycles, quantum by quantum. -/
  | run (cycles : Nat)
  /-- Runs to the end of an instruction or interrupt sequence. -/
  | step
  /-- Resets the devices and the processor. -/
  | reset
  /-- Runs the processor alone. -/
  | tickCpu (budget : Nat)
  /-- Runs the processor alone to the end of an instruction or interrupt sequence. -/
  | stepCpu
  /-- Resets the processor alone. -/
  | resetCpu
  /-- Lets cycles pass on the address map alone. -/
  | tickBus (cycles : Nat)
  /-- Resets the address map alone. -/
  | resetBus
  /-- Reads a byte from the bus. -/
  | read (address : UInt16)
  /-- Writes a byte to the bus. -/
  | write (address : UInt16) (value : UInt8)
  /-- Writes a register of the processor. -/
  | set (register : Register) (value : Nat)
  /-- Asks for attention on a line. -/
  | request (source : String) (line : Line)
  /-- Gives up a request on a line. -/
  | release (source : String) (line : Line)
  /-- Raises and lowers the NMI level. -/
  | pulseNmi (source : String)
  /-- Puts all lines to rest. -/
  | releaseAll
  /-- Acknowledges a request in place of the processor. -/
  | acknowledge (irqDisabled : Bool)
  /-- Gives the lines a recorded state. -/
  | restoreLines (state : LinesSnapshot)
  /-- Asks for the bus. -/
  | requestBus (requestor : String)
  /-- Gives the bus back. -/
  | releaseBus (requestor : String)

/-- What a machine answers. -/
inductive Reply where
  /-- Nothing. -/
  | done
  /-- The cycles that were run. -/
  | spent (cycles : Nat)
  /-- The byte that was read. -/
  | byte (value : UInt8)
  /-- Whether the bus is granted. -/
  | granted (answer : Bool)
  /-- Why a value does not fit into a register. -/
  | refused (reason : OutOfRange)
  /-- What was acknowledged. -/
  | acknowledged (vector : Option InterruptVector)

/-- Carries out a command. -/
def execute (s : Machine) : Command → Reply × Machine
  | .tick budget => (.done, s.tick budget)
  | .run cycles => (.done, s.run cycles)
  | .step =>
    let (cycles, s) := s.step
    (.spent cycles, s)
  | .reset => (.done, s.reset)
  | .tickCpu budget => (.done, s.mapCpu (·.tick budget))
  | .stepCpu => (.spent s.cpu.step.1, s.mapCpu (·.step.2))
  | .resetCpu => (.done, s.mapCpu (·.reset))
  | .tickBus cycles => (.done, s.mapPort (MappedBus.tick · cycles))
  | .resetBus => (.done, s.mapPort MappedBus.reset)
  | .read address =>
    let (value, s) := s.withPort (·.read address)
    (.byte value, s)
  | .write address value => (.done, s.mapPort (·.write address value))
  | .set register value =>
    match s.cpu.set register value with
    | .ok cpu => (.done, s.mapCpu fun _ => cpu)
    | .error reason => (.refused reason, s)
  | .request source line => (.done, s.mapInterrupts (·.request source line))
  | .release source line => (.done, s.mapInterrupts (·.release source line))
  | .pulseNmi source => (.done, s.mapInterrupts (·.nmiPulse source))
  | .releaseAll => (.done, s.mapInterrupts (·.releaseAll))
  | .acknowledge irqDisabled =>
    (.acknowledged (s.cpu.interrupts.acknowledge s.cpu.settings irqDisabled).1,
      s.mapInterrupts fun c => (c.acknowledge s.cpu.settings irqDisabled).2)
  | .restoreLines state => (.done, s.mapInterrupts (·.restore state))
  | .requestBus requestor =>
    let (answer, s) := s.requestBus requestor
    (.granted answer, s)
  | .releaseBus requestor => (.done, s.releaseBus requestor)

/-- Carries out commands one after another, and records each answer together with the state that
follows it. -/
def execution (s : Machine) : List Command → List (Reply × MachineSnapshot)
  | [] => []
  | first :: rest =>
    let (reply, s) := s.execute first
    (reply, s.snapshot) :: s.execution rest

/-- The machines that a host can come by: it makes one, places devices, gives commands, and goes
back to snapshots that it has taken of such machines. -/
inductive Reachable : Machine → Prop where
  | start {cpu : CpuSettings} {clock : ClockSettings} {s : Machine} :
    ofSettings cpu clock = .ok s → Reachable s
  | place {s t : Machine} {start finish : UInt16} {device : Device} {divider : UInt32} :
    Reachable s → device.Reachable → s.place start finish device divider = .ok t → Reachable t
  | execute {s : Machine} (command : Command) : Reachable s → Reachable (s.execute command).2
  | restore {s t u : Machine} :
    Reachable s → Reachable t → s.restore t.snapshot = .ok u → Reachable u

/-- What is fixed about the devices, in mapping order. -/
def layout (s : Machine) : List Slot := s.bus.layout

/-- Two machines with the same settings, the same quantum and the same layout. -/
structure SameBuild (s t : Machine) : Prop where
  /-- The settings are the same. -/
  settings : s.cpu.settings = t.cpu.settings
  /-- The quantum is the same. -/
  quantum : s.quantum = t.quantum
  /-- The layout is the same. -/
  layout : s.layout = t.layout

namespace SameBuild

variable {s t u : Machine}

/-- A machine has its own build. -/
theorem refl (s : Machine) : s.SameBuild s := ⟨rfl, rfl, rfl⟩

/-- The relation is symmetric. -/
theorem symm (h : s.SameBuild t) : t.SameBuild s :=
  ⟨h.settings.symm, h.quantum.symm, h.layout.symm⟩

/-- The relation is transitive. -/
theorem trans (h : s.SameBuild t) (h' : t.SameBuild u) : s.SameBuild u :=
  ⟨h.settings.trans h'.settings, h.quantum.trans h'.quantum, h.layout.trans h'.layout⟩

end SameBuild

/-- The processor is consistent, and so is all that is on the address map. -/
structure Sound (s : Machine) : Prop where
  /-- The processor is consistent. -/
  cpu : s.cpu.Consistent
  /-- The address map is sound. -/
  bus : s.bus.Sound

/-- What a machine can become while no device is placed: its settings, its quantum and its layout
stay, and it stays sound. -/
structure LeadsTo (s t : Machine) : Prop where
  /-- The settings stay. -/
  settings : t.cpu.settings = s.cpu.settings
  /-- The quantum stays. -/
  quantum : t.quantum = s.quantum
  /-- The address map keeps its layout and stays sound. -/
  bus : s.bus.LeadsTo t.bus
  /-- The processor stays consistent. -/
  cpu : s.cpu.Consistent → t.cpu.Consistent

namespace LeadsTo

variable {s t u : Machine}

/-- A machine can stay what it is. -/
theorem refl (s : Machine) : s.LeadsTo s := ⟨rfl, rfl, .refl _, id⟩

/-- One change after another. -/
theorem trans (h : s.LeadsTo t) (h' : t.LeadsTo u) : s.LeadsTo u := by
  constructor
  · exact h'.settings.trans h.settings
  · exact h'.quantum.trans h.quantum
  · exact h.bus.trans h'.bus
  · intro hs
    exact h'.cpu (h.cpu hs)

/-- What a machine becomes has the same build, -/
theorem build (h : s.LeadsTo t) : t.SameBuild s := ⟨h.settings, h.quantum, h.bus.layout⟩

/-- and it is sound if the machine was. -/
theorem sound (h : s.LeadsTo t) (hs : s.Sound) : t.Sound := ⟨h.cpu hs.cpu, h.bus.sound hs.bus⟩

/-- Changes behind the pins are of this kind if those of the map are, -/
theorem mapPort (s : Machine) {f : Port MappedBus → Port MappedBus}
    (hf : ∀ port : Port MappedBus, port.bus.LeadsTo (f port).bus) : s.LeadsTo (s.mapPort f) :=
  ⟨rfl, rfl, hf s.cpu.port, fun h => h.setPort _⟩

/-- and changes of the interrupt controller always. -/
theorem mapInterrupts (s : Machine) (f : InterruptController → InterruptController) :
    s.LeadsTo (s.mapInterrupts f) :=
  ⟨rfl, rfl, .refl _, fun h => h.mapInterrupts f⟩

/-- No access leads out of what an address map can become. -/
theorem busInvariant (bus : MappedBus) :
    Bus.Invariant fun port : Port MappedBus => bus.LeadsTo port.bus where
  read h := h.trans (MappedBus.leadsTo_read _ _)
  write h := h.trans (MappedBus.leadsTo_write _ _ _)
  setLines _ h := h

/-- The cycles of the processor are of this kind, -/
theorem tickCpu (s : Machine) (budget : Nat) : s.LeadsTo (s.mapCpu (·.tick budget)) := by
  have hbus := (busInvariant s.bus).tick (c := s.cpu) (.refl s.bus) budget
  constructor
  · exact s.cpu.settings_tick budget
  · rfl
  · exact hbus
  · intro h
    exact h.tick budget

/-- its steps are, -/
theorem stepCpu (s : Machine) : s.LeadsTo (s.mapCpu (·.step.2)) := by
  have hbus := (busInvariant s.bus).stepWithin (c := s.cpu) (.refl s.bus) Cpu.stepLimit
  constructor
  · exact s.cpu.settings_stepWithin Cpu.stepLimit
  · rfl
  · exact hbus
  · intro h
    exact h.stepWithin Cpu.stepLimit

/-- and so is its reset. -/
theorem resetCpu (s : Machine) : s.LeadsTo (s.mapCpu (·.reset)) := by
  have hbus := (busInvariant s.bus).reset (c := s.cpu) (.refl s.bus)
  constructor
  · rfl
  · rfl
  · exact hbus
  · intro _
    exact .reset s.cpu

/-- A machine stays of its kind when its clock advances, -/
theorem advance (s : Machine) (cycles : Nat) : s.LeadsTo (s.advance cycles) :=
  (tickCpu s cycles).trans (mapPort _ (MappedBus.leadsTo_tick · cycles))

/-- when it uses up a budget, -/
theorem tick (s : Machine) (budget : Nat) : s.LeadsTo (s.tick budget) := by
  induction budget generalizing s with
  | zero => exact .refl s
  | succ budget ih =>
    unfold Machine.tick
    split
    · exact (advance s 1).trans (ih _)
    · exact advance s (budget + 1)

/-- when it runs, -/
theorem run (s : Machine) (cycles : Nat) : s.LeadsTo (s.run cycles) := by
  have hrepeat (n : Nat) : s.LeadsTo (Nat.repeat (·.tick s.quantum) n s) := by
    induction n with
    | zero => exact .refl s
    | succ n ih => exact ih.trans (tick _ _)
  exact (hrepeat _).trans (tick _ _)

/-- and when it steps. -/
theorem stepWithin (s : Machine) (limit : Nat) : s.LeadsTo (s.stepWithin limit).2 := by
  induction limit generalizing s with
  | zero => exact .refl s
  | succ limit ih =>
    have htick := tick s 1
    unfold Machine.stepWithin
    simp only
    split
    · exact htick
    · split
      · exact htick
      · exact htick.trans (ih _)

/-- No command changes the settings, the quantum or the layout, and none leads out of the sound
machines. -/
theorem execute (s : Machine) (command : Command) : s.LeadsTo (s.execute command).2 := by
  cases command with
  | tick budget => exact tick s budget
  | run cycles => exact run s cycles
  | step => exact stepWithin s stepLimit
  | reset => exact (mapPort s MappedBus.leadsTo_reset).trans (resetCpu _)
  | tickCpu budget => exact tickCpu s budget
  | stepCpu => exact stepCpu s
  | resetCpu => exact resetCpu s
  | tickBus cycles => exact mapPort s (MappedBus.leadsTo_tick · cycles)
  | resetBus => exact mapPort s MappedBus.leadsTo_reset
  | read address => exact mapPort s (MappedBus.leadsTo_read address)
  | write address value => exact mapPort s (MappedBus.leadsTo_write address value)
  | set register value =>
    simp only [Machine.execute]
    split
    · next cpu hset =>
      obtain ⟨regs, -, rfl⟩ := Cpu.set_eq hset
      exact ⟨rfl, rfl, .refl _, fun h => h.set hset⟩
    · exact .refl s
  | request source line => exact mapInterrupts s _
  | release source line => exact mapInterrupts s _
  | pulseNmi source => exact mapInterrupts s _
  | releaseAll => exact mapInterrupts s _
  | acknowledge irqDisabled => exact mapInterrupts s _
  | restoreLines state => exact mapInterrupts s _
  | requestBus requestor =>
    exact mapPort s (f := fun port => { port with bus := (port.bus.request requestor).2 })
      fun port => port.bus.leadsTo_request requestor
  | releaseBus requestor => exact mapPort s fun port => port.bus.leadsTo_release requestor

end LeadsTo

/-- Nothing is read or written where no device is mapped. -/
theorem emptyInvariant : Bus.Invariant fun port : Port MappedBus => port.bus = {} where
  read {port _} h := by
    obtain ⟨bus, lines⟩ := port
    obtain rfl := h
    rfl
  write {port _ _} h := by
    obtain ⟨bus, lines⟩ := port
    obtain rfl := h
    rfl
  setLines _ h := h

/-- A machine that has just been made has a processor at power-on and an empty address map. -/
theorem ofSettings_eq {cpu : CpuSettings} {clock : ClockSettings} {s : Machine}
    (h : ofSettings cpu clock = .ok s) : s.cpu = Cpu.create cpu {} ∧ s.bus = {} := by
  unfold ofSettings Cpu.ofSettings at h
  split at h
  · cases h
  · split at h
    · next c hc =>
      have hs := Except.ok.inj h
      have hcpu : s.cpu = c := by rw [← hs]
      split at hc
      · have hcreate := Except.ok.inj hc
        refine ⟨hcpu.trans hcreate.symm, ?_⟩
        rw [bus, hcpu, ← hcreate]
        exact emptyInvariant.create cpu rfl
      · cases hc
    · cases h

/-- A machine that has just been made is sound. -/
theorem sound_ofSettings {cpu : CpuSettings} {clock : ClockSettings} {s : Machine}
    (h : ofSettings cpu clock = .ok s) : s.Sound := by
  obtain ⟨hcpu, hbus⟩ := ofSettings_eq h
  constructor
  · rw [hcpu]
    exact Cpu.Consistent.create cpu _
  · rw [hbus]
    constructor
    · intro m hm
      cases hm
    · intro transfer hnone
      cases hnone

/-- The machine with one more mapping. -/
def append (s : Machine) (m : Mapping) : Machine :=
  s.mapBus fun bus => { bus with mappings := bus.mappings ++ [m] }

/-- The new mapping comes last, -/
theorem mappings_append (s : Machine) (m : Mapping) :
    (s.append m).bus.mappings = s.bus.mappings ++ [m] := rfl

/-- and so does its slot. -/
theorem layout_append (s : Machine) (m : Mapping) :
    (s.append m).layout = s.layout ++ [m.slot] :=
  List.map_append

/-- A device finds its place if the range is in order, no longer than the device, and free. It
comes last, and its clock takes one machine clock at least. -/
theorem place_eq_ok {s t : Machine} {start finish : UInt16} {device : Device} {divider : UInt32} :
    s.place start finish device divider = .ok t ↔
      ¬ finish < start ∧ finish.toNat - start.toNat + 1 ≤ device.size.toNat ∧
        (∀ slot ∈ s.layout, slot.meets start finish = false) ∧
        t = s.append { start, finish, device, divider := max divider 1 } := by
  unfold place
  cases hadd : s.bus.add start finish device divider with
  | error e =>
    constructor
    · intro h
      cases h
    · rintro ⟨horder, hsize, hfree, -⟩
      have hok : s.bus.add start finish device divider = .ok _ :=
        MappedBus.add_eq_ok.mpr ⟨horder, hsize, hfree, rfl⟩
      cases hadd.symm.trans hok
  | ok bus =>
    obtain ⟨horder, hsize, hfree, rfl⟩ := MappedBus.add_eq_ok.mp hadd
    constructor
    · intro h
      exact ⟨horder, hsize, hfree, (Except.ok.inj h).symm⟩
    · rintro ⟨-, -, -, rfl⟩
      rfl

/-- Placing a sound device leads to a sound machine. -/
theorem sound_place {s t : Machine} {start finish : UInt16} {device : Device} {divider : UInt32}
    (hs : s.Sound) (hdevice : device.Sound) (h : s.place start finish device divider = .ok t) :
    t.Sound := by
  obtain ⟨-, -, -, rfl⟩ := place_eq_ok.mp h
  have hbus : (s.append { start, finish, device, divider := max divider 1 }).bus.Sound := by
    constructor
    · intro m hm
      rcases List.mem_append.mp hm with hold | hnew
      · exact hs.bus.mappings m hold
      · obtain rfl := List.mem_singleton.mp hnew
        exact ⟨hdevice, Mapping.max_one_pos divider⟩
    · intro transfer hsome
      obtain ⟨howner, hindex⟩ := hs.bus.transfer transfer hsome
      rw [mappings_append, List.length_append]
      exact ⟨Nat.lt_add_right _ howner, hindex⟩
  exact ⟨hs.cpu.setPort _, hbus⟩

/-- Taking over the snapshot of a sound machine leads to a sound machine of the same layout. -/
theorem leadsTo_restore {s t u : Machine} (ht : t.Sound) (h : s.restore t.snapshot = .ok u) :
    s.LeadsTo u := by
  obtain ⟨hvalid, rfl⟩ := restore_eq_ok.mp h
  obtain ⟨hcpu, hbus⟩ := validate_eq_ok.mp hvalid
  exact ⟨rfl, rfl, MappedBus.leadsTo_apply ht.bus hbus, fun _ => ht.cpu.apply hcpu⟩

/-- Every machine that a host can come by is sound. -/
theorem Reachable.sound {s : Machine} (h : s.Reachable) : s.Sound := by
  induction h with
  | start h => exact sound_ofSettings h
  | place _ hdevice h ih => exact sound_place ih hdevice.sound h
  | execute command _ ih => exact (LeadsTo.execute _ command).sound ih
  | restore _ _ h ihs iht => exact (leadsTo_restore iht h).sound ihs

/-- Two machines that differ in nothing but their logs of acknowledgements and the phases of
clocks that make no difference. -/
structure Agrees (s t : Machine) : Prop where
  /-- The processors and what is behind their pins agree. -/
  cpu : s.cpu.Matches Port.SamePhases t.cpu
  /-- The quantum is the same. -/
  quantum : s.quantum = t.quantum

namespace Agrees

variable {s t : Machine}

/-- Machines that agree have the same snapshot. -/
theorem snapshot_eq (h : s.Agrees t) : s.snapshot = t.snapshot := by
  have hport : s.cpu.port.SamePhases t.cpu.port := h.cpu.port
  have hdevices : s.bus.deviceSnapshots = t.bus.deviceSnapshots := hport.deviceSnapshots_eq
  have hholder : s.bus.holder = t.bus.holder := hport.holder_eq
  have htransfer : s.bus.transfer = t.bus.transfer := hport.transfer_eq
  simp only [snapshot, h.cpu.snapshot_eq Port.SamePhases.simulation, hdevices,
    MappedBus.arbitration, hholder, htransfer]

/-- Machines agree after changes that match. -/
theorem mapCpu (h : s.Agrees t) {f g : Cpu MappedBus → Cpu MappedBus}
    (hfg : (f s.cpu).Matches Port.SamePhases (g t.cpu)) : (s.mapCpu f).Agrees (t.mapCpu g) :=
  ⟨hfg, h.quantum⟩

/-- They agree after the same change behind the pins, -/
theorem mapPort (h : s.Agrees t) {f : Port MappedBus → Port MappedBus}
    (hf : ∀ {p q : Port MappedBus}, p.SamePhases q → (f p).SamePhases (f q)) :
    (s.mapPort f).Agrees (t.mapPort f) :=
  h.mapCpu (h.cpu.mapPort (hf h.cpu.port))

/-- and after the same move of the lines. -/
theorem mapLines (h : s.Agrees t) {f : InterruptController → InterruptController}
    (move : Lines → Lines) (hf : ∀ interrupts, (f interrupts).lines = move interrupts.lines) :
    (s.mapInterrupts f).Agrees (t.mapInterrupts f) :=
  h.mapCpu (h.cpu.mapLines Port.SamePhases.simulation move hf)

/-- They agree when their clocks advance, -/
theorem advance (h : s.Agrees t) (cycles : Nat) : (s.advance cycles).Agrees (t.advance cycles) :=
  (h.mapCpu (h.cpu.tick Port.SamePhases.simulation cycles)).mapPort fun hport => hport.tick cycles

/-- when they use up a budget, -/
theorem tick (h : s.Agrees t) (budget : Nat) : (s.tick budget).Agrees (t.tick budget) := by
  induction budget generalizing s t with
  | zero => exact h
  | succ budget ih =>
    have hport : s.cpu.port.SamePhases t.cpu.port := h.cpu.port
    have htransfer : s.bus.transfer = t.bus.transfer := hport.transfer_eq
    unfold Machine.tick
    rw [htransfer]
    split
    · exact ih (h.advance 1)
    · exact h.advance (budget + 1)

/-- and when they run. -/
theorem run (h : s.Agrees t) (cycles : Nat) : (s.run cycles).Agrees (t.run cycles) := by
  have hrepeat (n : Nat) : (Nat.repeat (·.tick s.quantum) n s).Agrees
      (Nat.repeat (·.tick s.quantum) n t) := by
    induction n with
    | zero => exact h
    | succ n ih => exact ih.tick s.quantum
  unfold Machine.run
  rw [← h.quantum]
  exact (hrepeat _).tick _

/-- A step takes the same number of cycles on both sides. -/
theorem stepWithin (h : s.Agrees t) (limit : Nat) :
    (s.stepWithin limit).1 = (t.stepWithin limit).1 ∧
      (s.stepWithin limit).2.Agrees (t.stepWithin limit).2 := by
  induction limit generalizing s t with
  | zero => exact ⟨rfl, h⟩
  | succ limit ih =>
    have htick := h.tick 1
    obtain ⟨hspent, hrest⟩ := ih htick
    have hboundary : (s.tick 1).cpu.atBoundary = (t.tick 1).cpu.atBoundary := by
      simp only [Cpu.atBoundary, htick.cpu.inFlight]
    unfold Machine.stepWithin
    simp only [htick.cpu.counters, h.cpu.counters, htick.cpu.runMode, hboundary]
    split
    · exact ⟨rfl, htick⟩
    · split
      · exact ⟨rfl, htick⟩
      · exact ⟨congrArg (· + 1) hspent, hrest⟩

/-- A request for the bus has the same answer, and they still agree, -/
theorem requestBus (h : s.Agrees t) (requestor : String) :
    (s.requestBus requestor).1 = (t.requestBus requestor).1 ∧
      (s.requestBus requestor).2.Agrees (t.requestBus requestor).2 := by
  have hport : s.cpu.port.SamePhases t.cpu.port := h.cpu.port
  have hs := s.bus.request_dropPhases requestor
  have ht := t.bus.request_dropPhases requestor
  have hbus : s.bus.dropPhases = t.bus.dropPhases := hport.bus_eq
  rw [hbus, ht] at hs
  let request (port : Port MappedBus) : Port MappedBus :=
    { port with bus := (port.bus.request requestor).2 }
  have hcommute (port : Port MappedBus) : request port.dropPhases = (request port).dropPhases :=
    congrArg (fun answer => Port.mk answer.2 port.lines) (port.bus.request_dropPhases requestor)
  exact ⟨(congrArg Prod.fst hs).symm, h.mapPort (f := request) (·.of_commute hcommute)⟩

/-- as they do when the bus is given back. -/
theorem releaseBus (h : s.Agrees t) (requestor : String) :
    (s.releaseBus requestor).Agrees (t.releaseBus requestor) := by
  let release (port : Port MappedBus) : Port MappedBus :=
    { port with bus := port.bus.release requestor }
  have hcommute (port : Port MappedBus) : release port.dropPhases = (release port).dropPhases :=
    congrArg (Port.mk · port.lines) (port.bus.release_dropPhases requestor)
  exact h.mapPort (f := release) (·.of_commute hcommute)

/-- What is acknowledged depends on the lines and the settings alone. -/
theorem acknowledge (h : s.Agrees t) (irqDisabled : Bool) :
    (s.cpu.interrupts.acknowledge s.cpu.settings irqDisabled).1 =
        (t.cpu.interrupts.acknowledge t.cpu.settings irqDisabled).1 ∧
      (s.mapInterrupts fun c => (c.acknowledge s.cpu.settings irqDisabled).2).Agrees
        (t.mapInterrupts fun c => (c.acknowledge t.cpu.settings irqDisabled).2) := by
  let serve (lines : Lines) : Lines := (lines.next irqDisabled).elim lines lines.serve
  have hserve (interrupts : InterruptController) :
      (interrupts.acknowledge t.cpu.settings irqDisabled).2.lines = serve interrupts.lines := by
    unfold InterruptController.acknowledge
    cases hnext : interrupts.lines.next irqDisabled with
    | none => simp only [serve, hnext, Option.elim_none]
    | some line => simp only [serve, hnext, Option.elim_some, InterruptController.enter]
  rw [h.cpu.settings]
  refine ⟨?_, h.mapLines serve hserve⟩
  simp only [InterruptController.acknowledge, h.cpu.lines_eq Port.SamePhases.simulation]
  cases t.cpu.interrupts.lines.next irqDisabled with
  | none => rfl
  | some line => rfl

/-- Machines that agree give the same answer to a command, and they agree afterwards. -/
theorem execute (h : s.Agrees t) (command : Command) :
    (s.execute command).1 = (t.execute command).1 ∧
      (s.execute command).2.Agrees (t.execute command).2 := by
  cases command with
  | tick budget => exact ⟨rfl, h.tick budget⟩
  | run cycles => exact ⟨rfl, h.run cycles⟩
  | step =>
    obtain ⟨hspent, hagrees⟩ := h.stepWithin stepLimit
    exact ⟨congrArg Reply.spent hspent, hagrees⟩
  | reset =>
    have hdevices := h.mapPort fun hport => hport.of_commute MappedBus.reset_dropPhases
    exact ⟨rfl, hdevices.cpu.reset Port.SamePhases.simulation, hdevices.quantum⟩
  | tickCpu budget =>
    exact ⟨rfl, h.cpu.tick Port.SamePhases.simulation budget, h.quantum⟩
  | stepCpu =>
    obtain ⟨hspent, hmatches⟩ := h.cpu.stepWithin Port.SamePhases.simulation Cpu.stepLimit
    exact ⟨congrArg Reply.spent hspent, hmatches, h.quantum⟩
  | resetCpu => exact ⟨rfl, h.cpu.reset Port.SamePhases.simulation, h.quantum⟩
  | tickBus cycles => exact ⟨rfl, h.mapPort fun hport => hport.tick cycles⟩
  | resetBus =>
    exact ⟨rfl, h.mapPort fun hport => hport.of_commute MappedBus.reset_dropPhases⟩
  | read address =>
    obtain ⟨hvalue, hport⟩ := Port.SamePhases.read h.cpu.port address
    exact ⟨congrArg Reply.byte hvalue, h.cpu.withPort hport, h.quantum⟩
  | write address value =>
    exact ⟨rfl, h.mapPort fun hport =>
      hport.of_commute (MappedBus.write_dropPhases · address value)⟩
  | set register value =>
    simp only [Machine.execute, Cpu.set, h.cpu.regs]
    cases t.cpu.regs.set register value with
    | error reason => exact ⟨rfl, h⟩
    | ok regs =>
      have hcpu : ({ s.cpu with regs } : Cpu MappedBus).Matches Port.SamePhases
          { t.cpu with regs } :=
        ⟨h.cpu.settings, rfl, h.cpu.runMode, h.cpu.inFlight, h.cpu.counters, h.cpu.port⟩
      exact ⟨rfl, hcpu, h.quantum⟩
  | request source line => exact ⟨rfl, h.mapLines (·.request source line) fun _ => rfl⟩
  | release source line => exact ⟨rfl, h.mapLines (·.release source line) fun _ => rfl⟩
  | pulseNmi source => exact ⟨rfl, h.mapLines (·.nmiPulse source) fun _ => rfl⟩
  | releaseAll => exact ⟨rfl, h.mapLines (fun _ => .idle) fun _ => rfl⟩
  | acknowledge irqDisabled =>
    obtain ⟨hvector, hagrees⟩ := h.acknowledge irqDisabled
    exact ⟨congrArg Reply.acknowledged hvector, hagrees⟩
  | restoreLines state => exact ⟨rfl, h.mapLines (fun _ => .ofSnapshot state) fun _ => rfl⟩
  | requestBus requestor =>
    obtain ⟨hgranted, hagrees⟩ := h.requestBus requestor
    exact ⟨congrArg Reply.granted hgranted, hagrees⟩
  | releaseBus requestor => exact ⟨rfl, h.releaseBus requestor⟩

/-- Machines that agree answer alike for ever, and go through the same states. -/
theorem execution_eq (h : s.Agrees t) (commands : List Command) :
    s.execution commands = t.execution commands := by
  induction commands generalizing s t with
  | nil => rfl
  | cons first rest ih =>
    obtain ⟨hreply, hagrees⟩ := h.execute first
    simp only [execution, hreply, hagrees.snapshot_eq, ih hagrees]

end Agrees

end Machine

end W65C02
