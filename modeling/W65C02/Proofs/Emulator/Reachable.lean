import W65C02.Emulator
import W65C02.Proofs.Bus.Tiling
import W65C02.Proofs.Machine.Commands

/-!
# What a host does with an emulator

A host runs the emulator, looks at its memory and changes it, moves the interrupt lines, installs
programs, and takes over texts. No text is too strange to try: whatever is accepted may be the state
from now on. But nothing of this changes how the emulator was built. Its settings are the customary
ones, and all of its address space is RAM.
-/

namespace W65C02

namespace Mapping

/-- A mapping that takes over a state which its device could be in keeps its slot. -/
theorem slot_apply {m : Mapping} {saved : MappingSnapshot} (h : m.validate saved = .ok ()) :
    (m.apply saved).slot = m.slot := by
  obtain ⟨hname, hkind, hsize⟩ := Device.apply_keeps (validate_eq_ok.mp h).2
  simp only [slot, apply, hname, hkind, hsize]

end Mapping

/-- A map that takes over a snapshot which it accepts keeps its layout. -/
theorem MappedBus.layout_apply {bus : MappedBus} {states : List MappingSnapshot}
    {state : Arbitration} (h : bus.validate states state = .ok ()) :
    (bus.apply states state).layout = bus.layout := by
  have hmappings {mappings : List Mapping} {states : List MappingSnapshot}
      (hlength : states.length = mappings.length) (h : validateAll mappings states = .ok ()) :
      (List.zipWith Mapping.apply mappings states).map (·.slot) = mappings.map (·.slot) := by
    induction mappings generalizing states with
    | nil => rfl
    | cons m mappings ih =>
      cases states with
      | nil => cases hlength
      | cons saved states =>
        obtain ⟨hfirst, hrest⟩ := validateAll_cons_eq_ok.mp h
        rw [List.zipWith_cons_cons, List.map_cons, List.map_cons, Mapping.slot_apply hfirst,
          ih (Nat.succ.inj hlength) hrest]
  obtain ⟨hlength, hall, -⟩ := validate_eq_ok.mp h
  exact hmappings hlength hall

namespace Machine

/-- A snapshot that is accepted does not change how the machine is built. -/
theorem sameBuild_restore {s t : Machine} {state : MachineSnapshot} (h : s.restore state = .ok t) :
    t.SameBuild s := by
  obtain ⟨hvalid, rfl⟩ := restore_eq_ok.mp h
  exact ⟨rfl, rfl, MappedBus.layout_apply (validate_eq_ok.mp hvalid).2⟩

/-- Nor do any accesses to the bus. -/
theorem sameBuild_mapPort (s : Machine) {f : Port MappedBus → Port MappedBus}
    (hf : ∀ {P : Port MappedBus → Prop}, Bus.Invariant P → ∀ {port}, P port → P (f port)) :
    (s.mapPort f).SameBuild s :=
  ⟨rfl, rfl, (hf (LeadsTo.busInvariant s.bus) (.refl s.bus)).layout⟩

end Machine

/-- What every access keeps is kept when bytes are written, -/
theorem Bus.Invariant.writeAll {β : Type} [Bus β] {P : Port β → Prop} (h : Bus.Invariant P)
    {port : Port β} (hport : P port) (address : UInt16) (values : List UInt8) :
    P (port.writeAll address values) :=
  (h.simulation.writeAll address values ⟨rfl, hport⟩).2

/-- and when they are read. -/
theorem Bus.Invariant.readAll {β : Type} [Bus β] {P : Port β → Prop} (h : Bus.Invariant P)
    {port : Port β} (hport : P port) (address : UInt16) (count : ℕ) :
    P (port.readAll address count).2 :=
  (h.simulation.readAll address count ⟨rfl, hport⟩).2.2

namespace Emulator

/-- What a host can ask of an emulator, apart from taking over a text. -/
inductive Call where
  /-- Runs one instruction or interrupt sequence. -/
  | step
  /-- Runs a budget of cycles. -/
  | tick (budget : ℕ)
  /-- Runs a number of cycles, quantum by quantum. -/
  | run (cycles : ℕ)
  /-- Resets the machine. -/
  | reset
  /-- Sets the program counter. -/
  | jumpTo (address : UInt16)
  /-- Holds the IRQ line. -/
  | holdIrq
  /-- Releases the IRQ line. -/
  | releaseIrq
  /-- Pulses the NMI line. -/
  | nmiPulse
  /-- Reads a byte of memory. -/
  | peek (address : UInt16)
  /-- Writes a byte of memory. -/
  | poke (address : UInt16) (value : UInt8)
  /-- Reads a page of memory. -/
  | page (page : UInt8)
  /-- Stores a program and goes to its start. -/
  | install (program : List UInt8) (start : UInt16)

/-- The emulator after a call. -/
def after (e : Emulator) : Call → Emulator
  | .step => e.step.2
  | .tick budget => e.tick budget
  | .run cycles => e.run cycles
  | .reset => e.reset
  | .jumpTo address => e.jumpTo address
  | .holdIrq => e.holdIrq
  | .releaseIrq => e.releaseIrq
  | .nmiPulse => e.nmiPulse
  | .peek address => (e.peek address).2
  | .poke address value => e.poke address value
  | .page page => (e.page page).2
  | .install program start => e.install program start

/-- The emulators that a host can come by: it makes one, calls it, and lets it take over any text
that it accepts. -/
inductive Reachable : Emulator → Prop where
  | create : Reachable .create
  | after {e : Emulator} (call : Call) : Reachable e → Reachable (e.after call)
  | importText {e e' : Emulator} {text : String} :
    Reachable e → e.importText text = .ok e' → Reachable e'

/-- A step of an emulator is one of its machine. -/
theorem machine_step (e : Emulator) : e.step.2.machine = e.machine.step.2 := by
  unfold step
  generalize e.machine.step = answer
  rfl

/-- A page is read from the machine, byte by byte. -/
theorem machine_page (e : Emulator) (page : UInt8) :
    (e.page page).2.machine =
      (e.machine.withPort (·.readAll (wordOfBytes 0 page) 256)).2 := by
  unfold Emulator.page
  generalize e.machine.withPort (·.readAll (wordOfBytes 0 page) 256) = answer
  rfl

/-- Reading leaves the build of a machine alone. -/
theorem sameBuild_readAll (s : Machine) (address : UInt16) (count : ℕ) :
    (s.withPort (·.readAll address count)).2.SameBuild s :=
  s.sameBuild_mapPort (f := fun port => (port.readAll address count).2)
    fun h _ hport => h.readAll hport address count

/-- Writing a byte leaves it alone too, -/
theorem sameBuild_poke (e : Emulator) (address : UInt16) (value : UInt8) :
    (e.poke address value).machine.SameBuild e.machine :=
  e.machine.sameBuild_mapPort fun h _ hport => h.write hport

/-- An installation is a number of writes. -/
theorem invariant_install {P : Port MappedBus → Prop} (hP : Bus.Invariant P) {e : Emulator}
    (h : P e.machine.cpu.port) (program : List UInt8) (start : UInt16) :
    P (e.install program start).machine.cpu.port :=
  hP.write (hP.write (hP.writeAll h start program))

/-- and so does loading a program. -/
theorem sameBuild_install (e : Emulator) (program : List UInt8) (start : UInt16) :
    (e.install program start).machine.SameBuild e.machine := by
  have hbus := invariant_install (Machine.LeadsTo.busInvariant e.machine.bus) (.refl e.machine.bus)
    program start
  exact ⟨rfl, rfl, hbus.layout⟩

/-- No call changes how the emulator is built. -/
theorem sameBuild_after (e : Emulator) (call : Call) :
    (e.after call).machine.SameBuild e.machine := by
  cases call with
  | step =>
    rw [after, machine_step]
    exact (Machine.LeadsTo.stepWithin e.machine Machine.stepLimit).build
  | tick budget => exact (Machine.LeadsTo.tick e.machine budget).build
  | run cycles => exact (Machine.LeadsTo.run e.machine cycles).build
  | reset => exact (Machine.LeadsTo.execute e.machine .reset).build
  | jumpTo | holdIrq | releaseIrq | nmiPulse => exact ⟨rfl, rfl, rfl⟩
  | peek address => exact (Machine.LeadsTo.execute e.machine (.read address)).build
  | poke address value => exact e.sameBuild_poke address value
  | page page =>
    rw [after, machine_page]
    exact sameBuild_readAll e.machine (wordOfBytes 0 page) 256
  | install program start =>
    rw [after]
    exact e.sameBuild_install program start

/-- Nor does a text that is taken over. -/
theorem sameBuild_importText {e e' : Emulator} {text : String} (h : e.importText text = .ok e') :
    e'.machine.SameBuild e.machine := by
  unfold importText at h
  split at h
  · cases h
  · split at h
    · next machine hrestore =>
      cases h
      exact Machine.sameBuild_restore hrestore
    · cases h

/-- There is one RAM with all addresses. -/
theorem layout_memoryMap : memoryMap.layout = [⟨"ram", 0x0000, 0xFFFF, .ram, 0x10000, 1⟩] := by
  simp only [memoryMap, MappedBus.layout, List.map_cons, List.map_nil, Mapping.slot, Device.name,
    Device.kind, Device.capacity, Array.size_replicate]

/-- It tiles the address space. -/
theorem tiledByRam_memoryMap : TiledByRam memoryMap.layout := by
  rw [layout_memoryMap]
  refine ⟨by decide, by decide, fun address => ?_⟩
  refine ⟨_, List.mem_singleton_self _, decide_eq_true ⟨?_, ?_⟩⟩
  · exact UInt16.zero_le
  · exact UInt16.le_iff_toNat_le.mpr (Nat.le_of_lt_succ address.toNat_lt)

namespace Reachable

variable {e : Emulator}

/-- However an emulator has come about, it is built like a new one. -/
theorem sameBuild (h : e.Reachable) : e.machine.SameBuild Emulator.create.machine := by
  induction h with
  | create => exact .refl _
  | after call _ ih => exact (sameBuild_after _ call).trans ih
  | importText _ h ih => exact (sameBuild_importText h).trans ih

/-- A new emulator has that map. -/
theorem layout_create : Emulator.create.machine.layout = memoryMap.layout := by
  have hreset := (Machine.LeadsTo.execute (Machine.create.mapBus fun _ => memoryMap) .reset).build
  exact hreset.layout

/-- The settings are the customary ones. -/
theorem settings (h : e.Reachable) : e.machine.cpu.settings = {} := h.sameBuild.settings

/-- All of the address space is RAM. -/
theorem tiledByRam (h : e.Reachable) : TiledByRam e.machine.cpu.port.bus.layout := by
  have hlayout : e.machine.cpu.port.bus.layout = memoryMap.layout :=
    h.sameBuild.layout.trans layout_create
  rw [hlayout]
  exact tiledByRam_memoryMap

end Reachable

end Emulator

end W65C02
