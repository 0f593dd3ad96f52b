import W65C02.Proofs.Device.IntervalTimer
import W65C02.Proofs.Machine.Replay

/-!
# The phases of the device clocks

A device clock takes a number of machine clocks, and those left over count towards the next one.
A snapshot does not record how many are left over, and whoever takes it over starts again with
none. So a machine that goes back to its own snapshot may fall behind. This cannot happen if no
phase makes a difference. If one does, it happens to some machine of that build: a device that
shows every clock is placed there, the host keeps the bus, and a machine clock is left over.
-/

namespace W65C02

namespace IntervalTimer

/-- A timer that has just been started. -/
def started (name : String) : IntervalTimer := { name, control := Timer.run }

/-- The run bit starts a new timer. -/
theorem setControl_create (name : String) : (create name).setControl Timer.run = started name := by
  have hcontrol : Timer.run &&& Timer.controlBits = Timer.run := by decide
  unfold setControl
  rw [hcontrol]
  split <;> rfl

/-- With its first clock the timer counts down. -/
theorem counter_tick_started (name : String) (lines : Lines) :
    ((started name).tick lines 1).1.counter = (started name).counter - 1 := by
  have hrun : (Timer.run &&& Timer.run != 0) = true := by decide
  have hcounter : (0xFFFF : UInt16) > 0 := by decide
  change ((started name).countDown lines).1.counter = _
  rw [(started name).countDown_of_isRunning lines hrun hcounter]

end IntervalTimer

namespace Device

/-- The device asks for no transfer, and it shows every clock if clocks make a difference to its
kind. -/
structure ShowsClock (device : Device) : Prop where
  /-- There is no request for a transfer. -/
  idle : device.transferRequest = none
  /-- A clock can be seen. -/
  clock : device.kind.keepsTime = true →
    ∀ lines, (device.tick lines 1).1.snapshot ≠ device.snapshot

/-- A device of the same name, kind and size that shows every clock: timers are started, and DMA
controllers are at rest. -/
def started : Device → Device
  | timer t => timer (.started t.name)
  | dma d => dma (.create d.name)
  | device => device

/-- A device can become such a device. -/
theorem leadsTo_started (device : Device) : device.LeadsTo device.started := by
  cases device with
  | ram | rom | cpu => exact .refl _
  | timer t =>
    have hcreate : (IntervalTimer.create t.name).Sound := UInt8.zero_and
    have hsound := ((IntervalTimer.create t.name).leadsTo_write {} 2 Timer.run).sound hcreate
    change ((IntervalTimer.create t.name).setControl Timer.run).Sound at hsound
    rw [IntervalTimer.setControl_create] at hsound
    exact ⟨rfl, rfl, rfl, fun _ => hsound⟩
  | dma d =>
    have hsound : (DmaController.create d.name).Sound := Bool.and_self false
    exact ⟨rfl, rfl, rfl, fun _ => hsound⟩

/-- If a device is reachable then so is the one that shows every clock. -/
theorem Reachable.started {device : Device} (h : device.Reachable) : device.started.Reachable := by
  cases device with
  | ram | rom | cpu => exact h
  | timer t =>
    have hwrite := (Reachable.timer t.name).write {} 2 Timer.run
    change (Device.timer ((IntervalTimer.create t.name).setControl Timer.run)).Reachable at hwrite
    rw [IntervalTimer.setControl_create] at hwrite
    exact hwrite
  | dma d => exact .dma d.name

/-- It shows every clock. -/
theorem showsClock_started (device : Device) : device.started.ShowsClock := by
  cases device with
  | ram | rom | dma =>
    constructor
    · rfl
    · intro hkeeps
      cases hkeeps
  | timer t =>
    constructor
    · rfl
    · intro _ lines hsame
      have hregs := DeviceSnapshot.timer.inj hsame
      have hcounter : ((IntervalTimer.started t.name).tick lines 1).1.counter =
          (IntervalTimer.started t.name).counter :=
        congrArg TimerRegisters.counter hregs
      rw [IntervalTimer.counter_tick_started] at hcounter
      change (0xFFFF : UInt16) - 1 = 0xFFFF at hcounter
      exact absurd hcounter (by decide)
  | cpu c =>
    constructor
    · rfl
    · intro _ lines hsame
      have hstate := DeviceSnapshot.cpu.inj hsame
      have hcycles : c.cycle.2.counters.cycles = c.counters.cycles :=
        congrArg (fun state : CpuSnapshot => state.counters.cycles) hstate
      rw [Cpu.cycle_cycles, UInt64.add_eq_left] at hcycles
      exact absurd hcycles (by decide)

end Device

namespace Mapping

/-- Too few machine clocks for a clock of the device are kept for later. -/
theorem tick_of_lt {m : Mapping} {cycles : Nat} (h : m.residue.toNat + cycles < m.divider.toNat)
    (lines : Lines) :
    m.tick lines cycles = ({ m with residue := m.total cycles }, lines) := by
  have htotal := m.toNat_total_of_lt (Nat.lt_trans h m.divider.toNat_lt)
  have hclocks : m.clocks cycles = 0 := by
    rw [clocks, ← UInt32.toNat_inj, UInt32.toNat_div, htotal, Nat.div_eq_of_lt h]
    rfl
  have hrest : m.total cycles % m.divider = m.total cycles := by
    rw [← UInt32.toNat_inj, UInt32.toNat_mod, htotal, Nat.mod_eq_of_lt h]
  simp only [tick, hclocks, hrest, if_true]

/-- The last machine clock that is missing makes a clock of the device. -/
theorem device_tick_of_eq {m : Mapping} {cycles : Nat} (hpos : 0 < m.divider)
    (h : m.residue.toNat + cycles = m.divider.toNat) (lines : Lines) :
    (m.tick lines cycles).1.device = (m.device.tick lines 1).1 := by
  have htotal := m.toNat_total_of_lt (h.trans_lt m.divider.toNat_lt)
  have hclocks : m.clocks cycles = 1 := by
    rw [clocks, ← UInt32.toNat_inj, UInt32.toNat_div, htotal, h,
      Nat.div_self (UInt32.lt_iff_toNat_lt.mp hpos)]
    rfl
  have hsome : (1 : UInt32) ≠ 0 := by decide
  simp only [tick, hclocks, if_neg hsome]
  rfl

/-- A mapping that is due for a clock shows it, but not if the machine clocks that were left over
are forgotten. -/
theorem snapshot_tick_restartClock_ne {m : Mapping} {cycles : Nat} (hleft : 0 < m.residue)
    (hdue : m.residue.toNat + cycles = m.divider.toNat)
    (hclock : ∀ lines, (m.device.tick lines 1).1.snapshot ≠ m.device.snapshot)
    (lines lines' : Lines) :
    (m.restartClock.tick lines cycles).1.snapshot ≠ (m.tick lines' cycles).1.snapshot := by
  intro hsame
  have hdevice : (m.restartClock.tick lines cycles).1.device.snapshot =
      (m.tick lines' cycles).1.device.snapshot :=
    congrArg MappingSnapshot.device hsame
  have hpositive : 0 < m.residue.toNat := UInt32.lt_iff_toNat_lt.mp hleft
  have hearly : m.restartClock.residue.toNat + cycles < m.restartClock.divider.toNat := by
    change 0 + cycles < m.divider.toNat
    omega
  have hdivider : 0 < m.divider := by
    rw [UInt32.lt_iff_toNat_lt, ← hdue]
    exact Nat.add_pos_left hpositive cycles
  rw [tick_of_lt hearly, device_tick_of_eq hdivider hdue] at hdevice
  exact hclock lines' hdevice.symm

end Mapping

namespace MappedBus

/-- A master other than the processor holds the bus, and nothing is transferred. -/
structure Held (bus : MappedBus) : Prop where
  /-- The processor does not have the bus. -/
  holder : bus.holder.isNone = false
  /-- No transfer is under way. -/
  transfer : bus.transfer = none
  /-- No device asks for a transfer. -/
  idle : ∀ m ∈ bus.mappings, m.device.transferRequest = none

namespace Held

/-- The bus stays held, and the devices do nothing but to keep time. -/
theorem tick {port : Port MappedBus} (h : port.bus.Held) (cycles : Nat) :
    (MappedBus.tick port cycles).bus =
      { port.bus with mappings := (tickAll cycles port.bus.mappings port.lines).1 } := by
  rw [tick_of_idle h.transfer h.idle]

/-- Starting the clocks anew changes nothing of that. -/
theorem restartClocks {bus : MappedBus} (h : bus.Held) : bus.restartClocks.Held :=
  ⟨h.holder, h.transfer, List.forall_mem_map.mpr h.idle⟩

end Held

end MappedBus

namespace Machine

variable {r s t : Machine}

/-- As long as the bus is held, the devices get all machine clocks at once. -/
theorem bus_tick_of_held (h : s.bus.Held) (cycles : Nat) :
    (s.tick (cycles + 1)).bus =
      { s.bus with
        mappings := (MappedBus.tickAll (cycles + 1) s.bus.mappings s.cpu.port.lines).1 } := by
  have hport : (s.cpu.tick (cycles + 1)).port = s.cpu.port :=
    Cpu.port_tick_of_stalled h.holder (cycles + 1)
  have hnone : s.bus.transfer.isSome = false := by rw [h.transfer, Option.isSome_none]
  unfold Machine.tick
  rw [hnone, if_neg Bool.false_ne_true]
  change (MappedBus.tick (s.cpu.tick (cycles + 1)).port (cycles + 1)).bus = _
  rw [hport]
  exact MappedBus.Held.tick h _

/-- So each device shows what comes of its machine clocks. -/
theorem snapshot_tick_of_held (h : s.bus.Held) {place : Nat} {m : Mapping}
    (hm : s.bus.mappings[place]? = some m) (cycles : Nat) :
    ∃ lines, (s.tick (cycles + 1)).bus.deviceSnapshots[place]? =
      some (m.tick lines (cycles + 1)).1.snapshot := by
  obtain ⟨lines, hself⟩ := MappedBus.getElem?_tickAll (cycles + 1) hm s.cpu.port.lines
  refine ⟨lines, ?_⟩
  rw [bus_tick_of_held h]
  simp only [MappedBus.deviceSnapshots, List.getElem?_map, hself, Option.map_some]

/-- A bus that is held stays held as time passes. -/
theorem held_tick (h : s.bus.Held) (cycles : Nat) : (s.tick (cycles + 1)).bus.Held := by
  rw [bus_tick_of_held h]
  exact ⟨h.holder, h.transfer, MappedBus.idle_tickAll _ h.idle _⟩

/-- A machine that goes back to its own snapshot goes through the same states as one that does
not, however much time they are given and in whatever budgets. -/
def RestoresUnnoticed (s : Machine) : Prop :=
  ∃ u, s.restore s.snapshot = .ok u ∧
    ∀ budgets : List Nat, u.execution (budgets.map .tick) = s.execution (budgets.map .tick)

/-- A sound machine accepts its own snapshot. -/
theorem restore_self (h : s.Sound) : s.restore s.snapshot = .ok (s.apply s.snapshot) :=
  restore_snapshot h (.refl s) (.refl s.bus.mappings)

/-- A machine that goes back to its own snapshot starts its device clocks anew. -/
theorem bus_apply_snapshot (s : Machine) : (s.apply s.snapshot).bus = s.bus.restartClocks :=
  MappedBus.apply_snapshots (.refl s.bus.mappings)

/-- The snapshot does not show that. -/
theorem snapshot_apply_snapshot (s : Machine) : (s.apply s.snapshot).snapshot = s.snapshot := by
  have hbus := bus_apply_snapshot s
  have hdevices : s.bus.restartClocks.deviceSnapshots = s.bus.deviceSnapshots := by
    simp only [MappedBus.deviceSnapshots, MappedBus.restartClocks, List.map_map]
    rfl
  have hcpu : (s.apply s.snapshot).cpu =
      (s.mapBus (·.apply s.snapshot.devices s.snapshot.bus)).cpu :=
    Cpu.apply_snapshot _
  have hsnapshot : (s.apply s.snapshot).cpu.snapshot = s.cpu.snapshot := by
    rw [hcpu]
    rfl
  rw [snapshot, hsnapshot, hbus, hdevices]
  rfl

/-- It is not noticed if no machine clock is left over. -/
theorem restoresUnnoticed_of_inPhase (h : s.Sound) (hphase : s.bus.InPhase) :
    s.RestoresUnnoticed := by
  have hagrees := agrees_apply hphase (.refl s) (.refl s.bus.mappings)
  exact ⟨_, restore_self h, fun budgets => hagrees.execution_eq (budgets.map .tick)⟩

/-- It is noticed where a machine clock is left over and the device shows its next clock. -/
theorem not_restoresUnnoticed_of_held (h : s.bus.Held) {place : Nat} {m : Mapping}
    (hm : s.bus.mappings[place]? = some m) (hleft : 0 < m.residue) (hlate : m.residue < m.divider)
    (hclock : ∀ lines, (m.device.tick lines 1).1.snapshot ≠ m.device.snapshot) :
    ¬ s.RestoresUnnoticed := by
  rintro ⟨u, hu, hsame⟩
  obtain ⟨-, rfl⟩ := restore_eq_ok.mp hu
  have hbus := bus_apply_snapshot s
  have hanew : (s.apply s.snapshot).bus.mappings[place]? = some m.restartClock := by
    rw [hbus]
    simp only [MappedBus.restartClocks, List.getElem?_map, hm, Option.map_some]
  have hheld : (s.apply s.snapshot).bus.Held := by
    rw [hbus]
    exact h.restartClocks
  -- The machine clocks that are missing for the next clock of the device.
  obtain ⟨missing, hdue⟩ := Nat.exists_eq_add_of_lt (UInt32.lt_iff_toNat_lt.mp hlate)
  rw [Nat.add_assoc, eq_comm] at hdue
  obtain ⟨lines, hself⟩ := snapshot_tick_of_held h hm missing
  obtain ⟨lines', hother⟩ := snapshot_tick_of_held hheld hanew missing
  have hdevices : ((s.apply s.snapshot).tick (missing + 1)).bus.deviceSnapshots =
      (s.tick (missing + 1)).bus.deviceSnapshots := by
    have hrecord := List.cons.inj (hsame [missing + 1])
    exact congrArg (fun record => record.2.devices) hrecord.1
  rw [hdevices, hself] at hother
  have hplace := Option.some.inj hother
  exact Mapping.snapshot_tick_restartClock_ne hleft hdue hclock lines' lines hplace.symm

/-- The bus is free and at rest, no machine clock is left over, and all devices show every
clock. -/
structure Fresh (s : Machine) : Prop where
  /-- The processor has the bus. -/
  holder : s.bus.holder = none
  /-- No transfer is under way. -/
  transfer : s.bus.transfer = none
  /-- No machine clock is left over. -/
  residue : ∀ m ∈ s.bus.mappings, m.residue = 0
  /-- All devices show every clock. -/
  devices : ∀ m ∈ s.bus.mappings, m.device.ShowsClock

/-- Where a device finds a place, a started one finds it in any machine of the same build, and it
leaves a fresh one fresh. -/
theorem Fresh.place {r r' s : Machine} (hfresh : s.Fresh) (hbuild : s.SameBuild r)
    {start finish : UInt16} {device : Device} {divider : UInt32}
    (h : r.place start finish device divider = .ok r') :
    ∃ s', s.place start finish device.started divider = .ok s' ∧ s'.SameBuild r' ∧ s'.Fresh := by
  obtain ⟨horder, hsize, hfree, rfl⟩ := place_eq_ok.mp h
  have hstarted := device.leadsTo_started
  let m : Mapping := { start, finish, device, divider := max divider 1 }
  let m' : Mapping := { m with device := device.started }
  have hslot : m'.slot = m.slot := (Mapping.LeadsTo.ofDevice m hstarted).slot
  refine ⟨s.append m', place_eq_ok.mpr ⟨horder, ?_, ?_, rfl⟩, ?_, ?_⟩
  · rw [Device.size, hstarted.capacity]
    exact hsize
  · rw [hbuild.layout]
    exact hfree
  · refine ⟨hbuild.settings, hbuild.quantum, ?_⟩
    rw [layout_append, layout_append, hbuild.layout, hslot]
  · constructor
    · exact hfresh.holder
    · exact hfresh.transfer
    · rw [mappings_append, List.forall_mem_append, List.forall_mem_singleton]
      exact ⟨hfresh.residue, rfl⟩
    · rw [mappings_append, List.forall_mem_append, List.forall_mem_singleton]
      exact ⟨hfresh.devices, device.showsClock_started⟩

/-- To every machine there is a fresh one of the same build. -/
theorem exists_fresh (hr : r.Reachable) :
    ∃ s : Machine, s.Reachable ∧ s.SameBuild r ∧ s.Fresh := by
  induction hr with
  | @start cpu clock r h =>
    obtain ⟨-, hbus⟩ := ofSettings_eq h
    refine ⟨r, .start h, .refl r, ?_⟩
    constructor <;> rw [hbus]
    all_goals
      intro m hm
      cases hm
  | place _ hdevice h ih =>
    obtain ⟨s, hs, hbuild, hfresh⟩ := ih
    obtain ⟨s', hplace, hbuild', hfresh'⟩ := hfresh.place hbuild h
    exact ⟨s', hs.place hdevice.started hplace, hbuild', hfresh'⟩
  | execute command _ ih =>
    obtain ⟨s, hs, hbuild, hfresh⟩ := ih
    exact ⟨s, hs, hbuild.trans (LeadsTo.execute _ command).build.symm, hfresh⟩
  | restore _ ht h ih _ =>
    obtain ⟨s, hs, hbuild, hfresh⟩ := ih
    exact ⟨s, hs, hbuild.trans (leadsTo_restore ht.sound h).build.symm, hfresh⟩

/-- A host that asks for a free bus gets it. -/
theorem bus_requestBus (h : s.bus.holder = none) {requestor : String}
    (hrequestor : requestor ≠ cpuName) :
    (s.requestBus requestor).2.bus = { s.bus with holder := some requestor } := by
  change (s.bus.request requestor).2 = _
  simp only [MappedBus.request, h, if_neg hrequestor]

/-- If a device of a fresh machine has a clock that takes more than one machine clock, the host
takes the bus and a single machine clock passes. That one is left over, and it is noticed if it is
forgotten. -/
theorem Fresh.not_restoresUnnoticed (h : s.Fresh) {m : Mapping} (hm : m ∈ s.bus.mappings)
    (hkeeps : m.device.kind.keepsTime = true) (hdivider : 1 < m.divider) :
    ¬ ((s.requestBus hostSource).2.tick 1).RestoresUnnoticed := by
  have hhost : hostSource ≠ cpuName := by decide
  have hrequest := bus_requestBus h.holder hhost
  have hheld : (s.requestBus hostSource).2.bus.Held := by
    rw [hrequest]
    exact ⟨rfl, h.transfer, fun m hm => (h.devices m hm).idle⟩
  obtain ⟨place, hplace⟩ := List.mem_iff_getElem?.mp hm
  have hmapped : (s.requestBus hostSource).2.bus.mappings[place]? = some m := by
    rw [hrequest]
    exact hplace
  obtain ⟨lines, hticked⟩ := MappedBus.getElem?_tickAll 1 hmapped
    (s.requestBus hostSource).2.cpu.port.lines
  have hearly : m.residue.toNat + 1 < m.divider.toNat := by
    rw [h.residue m hm]
    exact UInt32.lt_iff_toNat_lt.mp hdivider
  rw [Mapping.tick_of_lt hearly] at hticked
  have hlate : ((s.requestBus hostSource).2.tick 1).bus.mappings[place]? =
      some { m with residue := m.total 1 } := by
    rw [bus_tick_of_held hheld]
    exact hticked
  have hone : m.total 1 = 1 := by
    rw [Mapping.total, h.residue m hm]
    rfl
  rw [hone] at hlate
  have hleft : (0 : UInt32) < 1 := by decide
  exact not_restoresUnnoticed_of_held (held_tick hheld 0) hlate hleft hdivider
    ((h.devices m hm).clock hkeeps)

/-- A machine accepts its own snapshot at any time, and it is in that state afterwards. That it goes
back to it remains unnoticed if no machine clock is left over for a device that keeps time. In all
machines of one build it remains unnoticed exactly if no phase of a device clock makes a difference
there. -/
theorem restoresUnnoticed_iff (hr : r.Reachable) :
    (∃ u, r.restore r.snapshot = .ok u ∧ u.snapshot = r.snapshot) ∧
      (r.bus.InPhase → r.RestoresUnnoticed) ∧
      ((∀ s : Machine, s.Reachable → s.SameBuild r → s.RestoresUnnoticed) ↔
        ∀ slot ∈ r.layout, slot.PhaseFree) := by
  refine ⟨⟨_, restore_self hr.sound, snapshot_apply_snapshot r⟩,
    restoresUnnoticed_of_inPhase hr.sound, ?_, ?_⟩
  · intro hunnoticed slot hslot hkeeps
    obtain ⟨s, hs, hbuild, hfresh⟩ := exists_fresh hr
    rw [← hbuild.layout] at hslot
    obtain ⟨m, hm, rfl⟩ := List.mem_map.mp hslot
    have hpositive := (hs.sound.bus.mappings m hm).residue
    by_contra hne
    have hdivider : 1 < m.divider := by
      have hnat : m.divider.toNat ≠ 1 := fun hone => hne (UInt32.toNat_inj.mp hone)
      have hlate := UInt32.lt_iff_toNat_lt.mp hpositive
      rw [UInt32.lt_iff_toNat_lt, UInt32.toNat_one]
      omega
    have hrequested := hs.execute (.requestBus hostSource)
    have hbuild' := (LeadsTo.execute s (.requestBus hostSource)).trans (.tick _ 1)
    exact hfresh.not_restoresUnnoticed hm hkeeps hdivider
      (hunnoticed _ (hrequested.execute (.tick 1)) (hbuild'.build.trans hbuild))
  · intro hfree s hs hbuild
    rw [← hbuild.layout] at hfree
    exact restoresUnnoticed_of_inPhase hs.sound (hs.sound.bus.inPhase hfree)

/-- It remains unnoticed where each machine clock is a clock of the timer, but not where four of
them are. -/
theorem restoresUnnoticed_timed :
    (∀ s : Machine, s.Reachable → s.SameBuild (timed 1) → s.RestoresUnnoticed) ∧
      ¬ ∀ s : Machine, s.Reachable → s.SameBuild (timed 4) → s.RestoresUnnoticed := by
  have hfree : ∀ slot ∈ (timed 1).layout, slot.PhaseFree := by decide
  have hphase : ¬ ∀ slot ∈ (timed 4).layout, slot.PhaseFree := by decide
  obtain ⟨-, -, hone⟩ := restoresUnnoticed_iff (reachable_timed 1)
  obtain ⟨-, -, hfour⟩ := restoresUnnoticed_iff (reachable_timed 4)
  exact ⟨hone.mpr hfree, fun hunnoticed => hphase (hfour.mp hunnoticed)⟩

/-- A timer that takes four machine clocks is started, and three of them pass. With the next one it
counts down, but not if the machine has gone back to its own snapshot in between. -/
theorem not_restoresUnnoticed_timed_four :
    let s := (((timed 4).execute (.write 0xD002 Timer.run)).2.execute (.tick 3)).2
    s.Reachable ∧ (∀ slot ∈ s.layout, slot.kind ≠ .cpu) ∧ ¬ s.RestoresUnnoticed := by
  intro s
  have hlate : ((s.apply s.snapshot).tick 1).bus.deviceSnapshots ≠
      (s.tick 1).bus.deviceSnapshots := by
    decide
  refine ⟨.execute _ (.execute _ (reachable_timed 4)), by decide, ?_⟩
  rintro ⟨u, hu, hsame⟩
  obtain ⟨-, rfl⟩ := restore_eq_ok.mp hu
  have hrecord := List.cons.inj (hsame [1])
  exact hlate (congrArg (fun record => record.2.devices) hrecord.1)

end Machine

end W65C02
