import W65C02.Proofs.Cpu.Atomic
import W65C02.Proofs.Cpu.Redirection
import W65C02.Proofs.Emulator.Installation
import W65C02.Proofs.Machine.StepTermination
import W65C02.Proofs.Machine.Tiling

/-!
# Starting a program without a reset

An installation also sets the program counter to the start of the program. At an instruction
boundary the next step carries out the first instruction of the program. But an installation leaves
what is in flight alone. Then the next step completes that, with bytes of the program in place of the
operand bytes that it lacks, and there are programs that are not started.
-/

namespace W65C02

namespace Cpu

/-- The push of the accumulator. -/
theorem regs_atOnce_of_pha {c : Cpu Memory} (hopcode : c.opcode = 0x48) :
    c.atOnce.regs.s = c.regs.s - 1 ∧ c.atOnce.regs.pc = c.regs.pc + 1 := by
  have hdescriptor : Descriptor.ofOpcode c.opcode = .plain .pha .implied 3 := by
    rw [hopcode]
    rfl
  have hsize : operandSize c.opcode = 0 := by
    rw [hopcode]
    rfl
  have hpc : c.regsAfterFetch.pc = c.regs.pc + 1 := by
    simp only [regsAfterFetch, hsize]
    exact UInt16.add_zero _
  unfold atOnce
  rw [hdescriptor, ← hpc]
  exact ⟨rfl, rfl⟩

end Cpu

namespace Machine

variable {s : Machine} {d : Cpu Memory}

/-- A cycle in the middle of the instruction comes one further on both sides. -/
theorem matches_cycle (hnext : d.FetchesNext) {k : ℕ} (hk : k < d.cyclesAtOnce)
    (h : s.cpu.Matches Port.Mirrors (d.during k)) :
    s.cpu.cycle.2.Matches Port.Mirrors (d.during (k + 1)) := by
  have hcycle := (h.cycle Port.Mirrors.simulation).2
  rw [Cpu.cycle_during hnext hk] at hcycle
  exact hcycle

/-- A cycle in the course of an instruction completes it, or leaves it in flight. -/
theorem cycle_cases_of_during (hnext : d.FetchesNext) {k : ℕ} (hk : k < d.cyclesAtOnce)
    (h : s.cpu.Matches Port.Mirrors (d.during k)) :
    s.cpu.Finishes s.cpu.cycle.2 ∨ ∃ next, s.cpu.Continues s.cpu.cycle.2 next := by
  refine Cpu.cycle_cases (congrArg Option.isNone h.port.holder) ?_
  rw [h.inFlight, h.runMode]
  rcases Nat.eq_zero_or_pos k with rfl | hpos
  · exact .inr hnext.running
  · exact .inl (Cpu.during_inFlight hpos hk).1

/-- On tiled memory a step ends where the instruction of the processor over plain memory ends. -/
theorem stepTakes_of_during (hnext : d.FetchesNext) {k n : ℕ} (hk : k + (n + 1) = d.cyclesAtOnce)
    (h : s.cpu.Matches Port.Mirrors (d.during k)) : s.StepTakes (n + 1) 1 := by
  -- By induction on the cycles that come before the last one.
  induction n generalizing s k with
  | zero =>
    have hcycle := matches_cycle hnext (by omega) h
    have hnone : s.cpu.cycle.2.inFlight = none := by
      rw [hcycle.inFlight, hk, Cpu.during_cyclesAtOnce]
      rfl
    refine .of_finishes ((cycle_cases_of_during hnext (by omega) h).resolve_right ?_)
    rintro ⟨next, hcontinues⟩
    rw [hcontinues.inFlight] at hnone
    cases hnone
  | succ n ih =>
    have hcycle := matches_cycle hnext (by omega) h
    have hsome : s.cpu.cycle.2.inFlight.isSome = true := by
      rw [hcycle.inFlight]
      exact (Cpu.during_inFlight (Nat.succ_pos k) (by omega)).1
    have hrest : (s.tick 1).StepTakes (n + 1) 1 := by
      have htick := mirrors_tick h 1
      rw [Cpu.tick, Cpu.tick, Cpu.cycle_during hnext (by omega)] at htick
      exact ih (k := k + 1) (by omega) htick
    rcases cycle_cases_of_during hnext (by omega) h with hfinishes | ⟨next, hcontinues⟩
    · rw [hfinishes.boundary] at hsome
      cases hsome
    · exact hrest.tick_one_of_continues hcontinues

/-- From the boundary the step carries out the instruction. -/
theorem step_of_mirrors (hnext : d.FetchesNext) (h : s.cpu.Matches Port.Mirrors d) :
    s.step.2.cpu.regs = d.atOnce.regs ∧ s.step.2.cpu.port.Shows d.atOnce.port.bus := by
  obtain ⟨n, hn⟩ := Nat.exists_eq_succ_of_ne_zero
    (Nat.ne_of_gt (Nat.zero_lt_of_lt d.operandSize_lt_cyclesAtOnce))
  have htakes : s.StepTakes (n + 1) 1 := stepTakes_of_during (k := 0) hnext (by omega) h
  have hlimit : n + 1 ≤ stepLimit := by
    have hbound := d.cyclesAtOnce_le_eight
    unfold stepLimit
    omega
  have hticks := mirrors_ticks h (List.replicate (n + 1) 1)
  rw [List.sum_replicate_nat, Nat.mul_one, ← Nat.succ_eq_add_one n, ← hn,
    Cpu.tick_eq_during hnext (Nat.le_refl _), Cpu.during_cyclesAtOnce, hn] at hticks
  rw [step, htakes.returns stepLimit hlimit]
  exact ⟨hticks.regs, hticks.port.shows⟩

/-- What was in flight when the program counter was moved does not push a byte at the new place. -/
theorem redirected_stepWithin {sp : UInt8} {start : UInt16} {flight : InFlight}
    (hflight : s.cpu.inFlight = some flight)
    (h : Redirected sp start s.cpu.regs s.cpu.inFlight) (limit : ℕ) :
    (s.stepWithin limit).2.cpu.regs.s = sp - 1 → (s.stepWithin limit).2.cpu.regs.pc = start := by
  induction limit generalizing s flight with
  | zero => exact h.unpushed
  | succ limit ih =>
    obtain ⟨hcycle, hcases⟩ := h.cycle hflight
    rw [← regs_tick_one, ← inFlight_tick_one] at hcycle
    simp only [stepWithin]
    split
    · exact hcycle.unpushed
    · next hsame =>
      split
      · exact hcycle.unpushed
      · -- A cycle that finishes ends the step, so something is still in flight.
        have hnext : ∃ next, s.cpu.cycle.2.inFlight = some next := by
          refine hcases.resolve_left fun hfinishes => hsame ?_
          rw [completed_tick_one hfinishes]
          simp
        obtain ⟨next, hnext⟩ := hnext
        exact ih ((inFlight_tick_one s).trans hnext) hcycle

/-- A step that begins in the middle of something pushes no byte from where it begins. -/
theorem step_of_inFlight {flight : InFlight} (hflight : s.cpu.inFlight = some flight) :
    s.step.2.cpu.regs.s = s.cpu.regs.s - 1 → s.step.2.cpu.regs.pc = s.cpu.regs.pc :=
  redirected_stepWithin hflight (.of_moved s.cpu.regs s.cpu.inFlight) stepLimit

/-- A step that begins at an instruction boundary without the bus leaves the registers alone. -/
theorem step_of_stalled (hboundary : s.cpu.inFlight = none)
    (hbus : Bus.cpuHasBus s.cpu.bus = false) : s.step.2.cpu.regs = s.cpu.regs := by
  have hrests : s.Rests := by
    refine ⟨hboundary, fun hwakes => ?_⟩
    have hfree := (Cpu.wakes_iff.mp hwakes).1
    rw [hbus] at hfree
    cases hfree
  have htakes := StepTakes.of_rests hrests
  have hregs : (s.tick 1).cpu.regs = s.cpu.regs := by
    rw [regs_tick_one, Cpu.cycle_of_stalled hbus]
    rfl
  rw [step, htakes.returns stepLimit (by unfold stepLimit; omega)]
  exact hregs

end Machine

namespace Emulator

variable {e : Emulator}

/-- The emulator's processor at an instruction boundary, over the bytes that the emulator shows. -/
def atBoundary (e : Emulator) : Cpu Memory :=
  { e.machine.cpu with inFlight := none, bus := e.memory }

/-- After a program has been installed the next step carries out its first instruction: the
registers and the memory are those after the instruction at the start. -/
structure StartsProgram (e : Emulator) (program : List UInt8) (start : UInt16) : Prop where
  /-- The registers are those after the instruction. -/
  regs : (e.install program start).step.2.regs = (e.install program start).atBoundary.atOnce.regs
  /-- The memory is that after the instruction. -/
  memory : (e.install program start).step.2.memory =
    (e.install program start).atBoundary.atOnce.port.bus

/-- An emulator whose processor has the bus to itself is a processor over plain memory. -/
theorem Reachable.mirrors (he : e.Reachable) (hholder : e.machine.bus.holder = none)
    (htransfer : e.machine.bus.transfer = none) :
    e.machine.cpu.port.Mirrors ⟨e.memory, e.machine.cpu.interrupts.lines⟩ :=
  ⟨rfl, he.tiledByRam, hholder, htransfer, he.shows.bytes⟩

/-- An installation is seen on both sides, and it moves no line. -/
theorem mirrors_install {m : Memory} {lines : Lines}
    (h : e.machine.cpu.port.Mirrors ⟨m, lines⟩) (program : List UInt8) (start : UInt16) :
    (e.install program start).machine.cpu.port.Mirrors
      ⟨m.install e.machine.cpu.settings.resetVector program start, lines⟩ :=
  ((h.writeAll start program).write _ _).write _ _

/-- An emulator at an instruction boundary mirrors the same memory. -/
theorem mirrors_atBoundary {m : Memory} {lines : Lines}
    (h : e.machine.cpu.port.Mirrors ⟨m, lines⟩) :
    e.machine.cpu.port.Mirrors e.atBoundary.port := by
  have hport : e.atBoundary.port = ⟨m, lines⟩ := congrArg₂ Port.mk (memory_eq h.shows) h.lines
  rw [hport]
  exact h

/-- The processor is at an instruction boundary, and there is nothing for it to do but to fetch. -/
structure Ready (e : Emulator) : Prop where
  /-- A host can come by it. -/
  reachable : e.Reachable
  /-- It is not halted. -/
  running : e.machine.cpu.runMode = .running
  /-- No line is active. -/
  lines : e.machine.cpu.interrupts.lines.anyActive = false
  /-- No transfer is under way. -/
  transfer : e.machine.bus.transfer = none
  /-- Nothing is in flight. -/
  boundary : e.machine.cpu.inFlight = none
  /-- It has the bus. -/
  holder : e.machine.bus.holder = none

/-- Then a processor over plain memory is about to fetch the first instruction of the program. -/
theorem Ready.matches_install (h : e.Ready) (program : List UInt8) (start : UInt16) :
    (e.install program start).atBoundary.FetchesNext ∧
      (e.install program start).machine.cpu.Matches Port.Mirrors
        (e.install program start).atBoundary := by
  have hinstalled := mirrors_install (h.reachable.mirrors h.holder h.transfer) program start
  have hsame : (e.install program start).atBoundary.interrupts.lines =
      e.machine.cpu.interrupts.lines := hinstalled.lines
  refine ⟨⟨rfl, h.running, ?_⟩, ⟨rfl, rfl, rfl, h.boundary, rfl, mirrors_atBoundary hinstalled⟩⟩
  by_contra hpending
  have hactive := Lines.anyActive_of_pending (eq_true_of_ne_false hpending)
  rw [hsame, h.lines] at hactive
  exact Bool.false_ne_true hactive

/-- So the program is started. -/
theorem Ready.startsProgram (h : e.Ready) (program : List UInt8) (start : UInt16) :
    e.StartsProgram program start := by
  obtain ⟨hnext, hmatches⟩ := h.matches_install program start
  obtain ⟨hregs, hshows⟩ := Machine.step_of_mirrors hnext hmatches
  rw [← machine_step] at hregs hshows
  exact ⟨hregs, memory_eq hshows⟩

/-- A byte that is installed away from the reset vector is the next opcode. -/
theorem opcode_install (he : e.Reachable) (opcode : UInt8) :
    (e.install [opcode] 0x0200).atBoundary.opcode = opcode := by
  have hlow : (0x0200 : UInt16) ≠ e.machine.cpu.settings.resetVector := by
    rw [he.settings]
    decide
  have hhigh : (0x0200 : UInt16) ≠ e.machine.cpu.settings.resetVector + 1 := by
    rw [he.settings]
    decide
  change (e.install [opcode] 0x0200).memory.read 0x0200 = opcode
  rw [memory_eq (shows_install he.shows [opcode] 0x0200),
    Memory.read_install_of_ne _ _ _ _ hlow hhigh, Memory.load, Memory.load, Memory.read_write,
    if_pos rfl]

/-- A program that pushes the accumulator. -/
def pushing : List UInt8 := [0x48]

/-- At a boundary the accumulator is pushed. -/
theorem regs_pushing (he : e.Reachable) :
    (e.install pushing 0x0200).atBoundary.atOnce.regs.s = e.machine.cpu.regs.s - 1 ∧
      (e.install pushing 0x0200).atBoundary.atOnce.regs.pc = 0x0201 := by
  have hopcode : (e.install pushing 0x0200).atBoundary.opcode = 0x48 := by
    rw [pushing, opcode_install he]
  obtain ⟨hs, hpc⟩ := Cpu.regs_atOnce_of_pha hopcode
  exact ⟨hs, hpc⟩

/-- What is in flight is completed in place of the push. -/
theorem not_startsProgram_of_inFlight (he : e.Reachable) {flight : InFlight}
    (hflight : e.machine.cpu.inFlight = some flight) : ¬ e.StartsProgram pushing 0x0200 := by
  intro hstarts
  obtain ⟨hs, hpc⟩ := regs_pushing he
  have hregs := hstarts.regs
  rw [Emulator.regs, machine_step] at hregs
  rw [← hregs] at hs hpc
  have hstays : (e.install pushing 0x0200).machine.step.2.cpu.regs.pc = 0x0200 :=
    Machine.step_of_inFlight (s := (e.install pushing 0x0200).machine) hflight hs
  rw [hstays] at hpc
  exact absurd hpc (by decide)

/-- Without the bus nothing is pushed. -/
theorem not_startsProgram_of_holder (he : e.Reachable) (hboundary : e.machine.cpu.inFlight = none)
    (hholder : e.machine.bus.holder ≠ none) : ¬ e.StartsProgram pushing 0x0200 := by
  intro hstarts
  obtain ⟨hs, -⟩ := regs_pushing he
  have hregs := hstarts.regs
  have hsame := invariant_install (MappedBus.sameArbitrationInvariant e.machine.bus)
    (.refl e.machine.bus) pushing 0x0200
  have hbus : Bus.cpuHasBus (e.install pushing 0x0200).machine.cpu.bus = false := by
    change (e.install pushing 0x0200).machine.cpu.port.bus.holder.isNone = false
    rw [hsame.holder]
    exact Option.isNone_eq_false_iff.mpr (Option.ne_none_iff_isSome.mp hholder)
  have hstays : (e.install pushing 0x0200).machine.step.2.cpu.regs =
      (e.install pushing 0x0200).machine.cpu.regs := Machine.step_of_stalled hboundary hbus
  rw [Emulator.regs, machine_step, hstays] at hregs
  rw [← hregs] at hs
  exact absurd hs (ne_sub_one e.machine.cpu.regs.s)

/-- Each program is started at an instruction boundary, if the processor has the bus. Anywhere else
some are not. No transfer is under way unless a text has brought one. -/
theorem Reachable.startsPrograms_iff (he : e.Reachable)
    (hrunning : e.machine.cpu.runMode = .running)
    (hlines : e.machine.cpu.interrupts.lines.anyActive = false)
    (htransfer : e.machine.bus.transfer = none) :
    (∀ program start, e.StartsProgram program start) ↔
      e.machine.cpu.inFlight = none ∧ e.machine.bus.holder = none := by
  constructor
  · intro hstarts
    have hboundary : e.machine.cpu.inFlight = none := by
      by_contra hflight
      obtain ⟨flight, hflight⟩ := Option.ne_none_iff_exists'.mp hflight
      exact not_startsProgram_of_inFlight he hflight (hstarts pushing 0x0200)
    refine ⟨hboundary, ?_⟩
    by_contra hholder
    exact not_startsProgram_of_holder he hboundary hholder (hstarts pushing 0x0200)
  · rintro ⟨hboundary, hholder⟩ program start
    have hready : e.Ready := ⟨he, hrunning, hlines, htransfer, hboundary, hholder⟩
    exact hready.startsProgram program start

/-- A new emulator starts each program. -/
theorem startsPrograms_create :
    Emulator.create.Reachable ∧ Emulator.create.machine.cpu.runMode = .running ∧
      Emulator.create.machine.cpu.interrupts.lines.anyActive = false ∧
      Emulator.create.machine.bus.transfer = none ∧
      ∀ program start, Emulator.create.StartsProgram program start :=
  ⟨.create, rfl, rfl, rfl, (Reachable.startsPrograms_iff .create rfl rfl rfl).mpr ⟨rfl, rfl⟩⟩

/-- A cycle into an instruction with operand bytes the processor still runs, and something is in
flight. -/
theorem midway_of_matches {c : Cpu Memory} (hnext : c.FetchesNext)
    (hlines : c.interrupts.lines.anyActive = false) (hsize : 0 < operandSize c.opcode)
    (h : e.machine.cpu.Matches Port.Mirrors c) :
    (e.tick 1).machine.cpu.runMode = .running ∧
      (e.tick 1).machine.cpu.interrupts.lines.anyActive = false ∧
      (e.tick 1).machine.bus.transfer = none ∧
      (e.tick 1).machine.cpu.inFlight = some (c.fetching 0).inFlight := by
  have htick : (e.tick 1).machine.cpu.Matches Port.Mirrors (c.tick 1) := Machine.mirrors_tick h 1
  have hfetching : c.tick 1 = c.whileFetching 0 := by
    rw [Cpu.tick, Cpu.tick, Cpu.cycle_of_fetchesNext hnext, Cpu.during, if_neg Nat.one_ne_zero,
      if_pos (Nat.succ_le_of_lt hsize)]
  rw [hfetching] at htick
  have hsame : (e.tick 1).machine.cpu.interrupts.lines = c.interrupts.lines := htick.port.lines
  exact ⟨htick.runMode.trans hnext.running, by rw [hsame, hlines], htick.port.transfer,
    htick.inFlight⟩

/-- A new emulator in the middle of a load whose address is yet to be fetched. -/
def loading : Emulator := (Emulator.create.install [0xAD] 0x0200).tick 1

/-- It takes the push for the low byte of the address, and does not push anything. -/
theorem not_startsProgram_loading :
    loading.Reachable ∧ loading.machine.cpu.runMode = .running ∧
      loading.machine.cpu.interrupts.lines.anyActive = false ∧
      loading.machine.bus.transfer = none ∧ ¬ loading.StartsProgram pushing 0x0200 := by
  have hloading : loading.Reachable := .after (.tick 1) (.after (.install [0xAD] 0x0200) .create)
  have hready : Emulator.create.Ready := ⟨.create, rfl, rfl, rfl, rfl, rfl⟩
  obtain ⟨hnext, hmatches⟩ := hready.matches_install [0xAD] 0x0200
  have hsize : 0 < operandSize (Emulator.create.install [0xAD] 0x0200).atBoundary.opcode := by
    rw [opcode_install .create 0xAD]
    decide
  obtain ⟨hrunning, hlines, htransfer, hflight⟩ := midway_of_matches hnext rfl hsize hmatches
  exact ⟨hloading, hrunning, hlines, htransfer, not_startsProgram_of_inFlight hloading hflight⟩

end Emulator

end W65C02
