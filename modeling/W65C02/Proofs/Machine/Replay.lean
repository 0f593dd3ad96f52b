import W65C02.Proofs.Machine.Commands

/-!
# Replaying a run from a snapshot

A snapshot has all there is to know about a machine, but for the log of acknowledgements and the
phases of the device clocks. If no machine clock is left over for a device that keeps time, a
machine that takes over the snapshot of another one answers like that one from then on.
-/

namespace W65C02

/-- The phase of the clock makes no difference: the device does not keep time, or each machine
clock is a clock of the device, so that none are ever left over. -/
def Slot.PhaseFree (slot : Slot) : Prop := slot.kind.keepsTime = true → slot.divider = 1

instance (slot : Slot) : Decidable slot.PhaseFree :=
  inferInstanceAs (Decidable (slot.kind.keepsTime = true → slot.divider = 1))

/-- Starting the clock of a device anew makes no difference if no machine clock is left over. -/
theorem Mapping.dropPhase_restartClock {m : Mapping}
    (h : m.device.kind.keepsTime = true → m.residue = 0) :
    m.restartClock.dropPhase = m.dropPhase := by
  cases hkeeps : m.device.kind.keepsTime with
  | true =>
    rw [dropPhase, dropPhase, h hkeeps]
    rfl
  | false => simp only [dropPhase, restartClock, hkeeps, Bool.false_eq_true, if_false]

namespace MappedBus

/-- No machine clock is left over for a device that keeps time. -/
def InPhase (bus : MappedBus) : Prop :=
  ∀ m ∈ bus.mappings, m.device.kind.keepsTime = true → m.residue = 0

/-- Where no phase makes a difference, no machine clock is ever left over. -/
theorem Sound.inPhase {bus : MappedBus} (hbus : bus.Sound)
    (hfree : ∀ slot ∈ bus.layout, slot.PhaseFree) : bus.InPhase := by
  intro m hm hkeeps
  have hdivider : m.divider = 1 := hfree m.slot (List.mem_map_of_mem hm) hkeeps
  have hresidue := (hbus.mappings m hm).residue
  rw [hdivider] at hresidue
  exact UInt32.lt_one_iff.mp hresidue

/-- Then starting all clocks anew makes no difference either. -/
theorem InPhase.dropPhases_restartClocks {bus : MappedBus} (h : bus.InPhase) :
    bus.restartClocks.dropPhases = bus.dropPhases := by
  have hmappings : (bus.mappings.map (·.restartClock)).map (·.dropPhase) =
      bus.mappings.map (·.dropPhase) := by
    rw [List.map_map]
    exact List.map_congr_left fun m hm => Mapping.dropPhase_restartClock (h m hm)
  simp only [dropPhases, restartClocks, hmappings]

end MappedBus

namespace Machine

variable {s t : Machine}

/-- A machine accepts the snapshot of a sound one with the same settings and twin devices. -/
theorem restore_snapshot (hs : s.Sound) (hbuild : t.SameBuild s)
    (htwin : MappingsTwin t.bus.mappings s.bus.mappings) :
    t.restore s.snapshot = .ok (t.apply s.snapshot) := by
  have hcpu : s.cpu.snapshot.validate t.cpu.settings = .ok () := by
    rw [hbuild.settings]
    exact hs.cpu.validate
  have hbus := MappedBus.validate_snapshots hs.bus htwin
  exact restore_eq_ok.mpr ⟨validate_eq_ok.mpr ⟨hcpu, hbus⟩, rfl⟩

/-- It agrees with that one afterwards if no machine clock was left over. -/
theorem agrees_apply (hphase : s.bus.InPhase) (hbuild : t.SameBuild s)
    (htwin : MappingsTwin t.bus.mappings s.bus.mappings) : (t.apply s.snapshot).Agrees s := by
  have hbus : t.bus.apply s.bus.deviceSnapshots s.bus.arbitration = s.bus.restartClocks :=
    MappedBus.apply_snapshots htwin
  have hlines : Lines.ofSnapshot s.cpu.interrupts.lines.toSnapshot = s.cpu.interrupts.lines :=
    Lines.ofSnapshot_toSnapshot _
  have hport : (t.apply s.snapshot).cpu.port = ⟨s.bus.restartClocks, s.cpu.port.lines⟩ :=
    congrArg₂ Port.mk hbus hlines
  refine ⟨⟨hbuild.settings, rfl, rfl, rfl, rfl, ?_⟩, hbuild.quantum⟩
  rw [hport]
  exact congrArg (Port.mk · s.cpu.port.lines) hphase.dropPhases_restartClocks

/-- A machine with a timer at 0xD000 and nothing else. -/
def timed (divider : UInt32) : Machine :=
  create.mapBus fun bus =>
    { bus with
      mappings := [{
        start := 0xD000
        finish := 0xD003
        device := .timer (.create "timer")
        divider := max divider 1 }] }

/-- A host can build that machine. -/
theorem reachable_timed (divider : UInt32) : (timed divider).Reachable := by
  have hcreate : ofSettings {} {} = .ok create := rfl
  have hplace : create.place 0xD000 0xD003 (.timer (.create "timer")) divider =
      .ok (timed divider) := rfl
  exact .place (.start hcreate) (.timer "timer") hplace

/-- Snapshots are complete. A machine with the settings, the quantum and the layout of another one
takes over its snapshot, whatever each of them did before, and from then on it gives the same
answers and goes through the same states. All devices get every machine clock, and none of them is
a processor. -/
theorem replays (hs : s.Reachable) (hbuild : t.SameBuild s)
    (hplain : ∀ slot ∈ s.layout, slot.kind ≠ .cpu ∧ slot.divider = 1) :
    ∃ u, t.restore s.snapshot = .ok u ∧ u.snapshot = s.snapshot ∧
      ∀ commands, u.execution commands = s.execution commands := by
  have htwin : MappingsTwin t.bus.mappings s.bus.mappings := by
    refine .of_slots hbuild.layout fun slot hslot => ?_
    have hmem : slot ∈ s.layout := hbuild.layout ▸ hslot
    exact (hplain slot hmem).1
  have hphase := hs.sound.bus.inPhase fun slot hslot _ => (hplain slot hslot).2
  have hagrees := agrees_apply hphase hbuild htwin
  exact ⟨t.apply s.snapshot, restore_snapshot hs.sound hbuild htwin, hagrees.snapshot_eq,
    hagrees.execution_eq⟩

/-- Two machine clocks lead into the first instruction. A machine that has just been made goes on
from there if it takes over the snapshot. -/
theorem replays_from_mid_instruction :
    ∃ s t u : Machine, s.Reachable ∧ s.cpu.atBoundary = false ∧ t.cpu.atBoundary = true ∧
      s.layout = [⟨"timer", 0xD000, 0xD003, .timer, 4, 1⟩] ∧
      t.restore s.snapshot = .ok u ∧ u.snapshot = s.snapshot ∧
      ∀ commands, u.execution commands = s.execution commands := by
  let t := timed 1
  let s := (t.execute (.tick 2)).2
  have hleads : t.LeadsTo s := .execute t (.tick 2)
  have hs : s.Reachable := .execute (.tick 2) (reachable_timed 1)
  have hslot : s.layout = [⟨"timer", 0xD000, 0xD003, .timer, 4, 1⟩] := hleads.bus.layout
  have hplain : ∀ slot ∈ s.layout, slot.kind ≠ .cpu ∧ slot.divider = 1 := by
    rw [hslot]
    decide
  obtain ⟨u, hu, hsnapshot, hreplay⟩ := replays hs hleads.build.symm hplain
  exact ⟨s, t, u, hs, by decide, by decide, hslot, hu, hsnapshot, hreplay⟩

end Machine

end W65C02
