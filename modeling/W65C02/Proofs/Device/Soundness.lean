import W65C02.Device
import W65C02.Proofs.Cpu.Consistency

/-!
# Soundness of devices

What is done to a device never changes its name, its kind or its size, and it never leads out of
the states that the check of snapshots lets pass. So every device that has been made and used in
the ordinary way accepts its own snapshot.
-/

namespace W65C02

/-- A timer has no control bits but those that exist. -/
def IntervalTimer.Sound (t : IntervalTimer) : Prop := t.control &&& ~~~Timer.controlBits = 0

/-- What a timer can become: it keeps its name, and it stays sound. -/
structure IntervalTimer.LeadsTo (t t' : IntervalTimer) : Prop where
  /-- The name stays. -/
  name : t'.name = t.name
  /-- Soundness stays. -/
  sound : t.Sound → t'.Sound

namespace IntervalTimer

variable (t : IntervalTimer) (lines : Lines)

/-- An underflow clears a control bit in one-shot mode, and it never sets one. -/
theorem leadsTo_countDown : t.LeadsTo (t.countDown lines).1 := by
  have hstop (h : t.Sound) : (t.control &&& ~~~Timer.run) &&& ~~~Timer.controlBits = 0 := by
    unfold Sound at h
    rw [UInt8.and_assoc, UInt8.and_comm (~~~Timer.run), ← UInt8.and_assoc, h, UInt8.zero_and]
  unfold countDown
  split
  · exact ⟨rfl, id⟩
  · split
    · exact ⟨rfl, id⟩
    · constructor
      · rfl
      · intro h
        unfold Sound
        simp only
        split
        · exact hstop h
        · exact h

/-- Clocks keep the control bits of a timer in bounds, -/
theorem leadsTo_tick (clocks : Nat) : t.LeadsTo (t.tick lines clocks).1 := by
  induction clocks generalizing t lines with
  | zero => exact ⟨rfl, id⟩
  | succ clocks ih =>
    have hfirst := t.leadsTo_countDown lines
    have hrest := ih (t.countDown lines).1 (t.countDown lines).2
    constructor
    · exact hrest.name.trans hfirst.name
    · intro h
      exact hrest.sound (hfirst.sound h)

/-- a reset does, -/
theorem leadsTo_reset : t.LeadsTo (t.reset lines).1 := by
  constructor
  · rfl
  · intro _
    exact UInt8.zero_and

/-- and so does a read. -/
theorem leadsTo_read (offset : UInt16) : t.LeadsTo (t.read lines offset).2.1 := by
  unfold read
  repeat' split
  all_goals exact ⟨rfl, id⟩

/-- Control bits that do not exist are not stored. -/
theorem leadsTo_write (offset : UInt16) (value : UInt8) :
    t.LeadsTo (t.write lines offset value).1 := by
  have hcontrol : (value &&& Timer.controlBits) &&& ~~~Timer.controlBits = 0 := by
    rw [UInt8.and_assoc, show Timer.controlBits &&& ~~~Timer.controlBits = 0 from by decide,
      UInt8.and_zero]
  unfold write
  split
  · exact ⟨rfl, id⟩
  split
  · exact ⟨rfl, id⟩
  split
  · exact ⟨rfl, fun _ => hcontrol⟩
  split
  · exact ⟨rfl, id⟩
  · exact ⟨rfl, id⟩

end IntervalTimer

/-- A DMA controller is not busy and done at once. -/
def DmaController.Sound (d : DmaController) : Prop := (d.busy && d.done) = false

/-- What a DMA controller can become: it keeps its name, and it stays sound. -/
structure DmaController.LeadsTo (d d' : DmaController) : Prop where
  /-- The name stays. -/
  name : d'.name = d.name
  /-- Soundness stays. -/
  sound : d.Sound → d'.Sound

namespace DmaController

variable (d : DmaController) (lines : Lines)

/-- A controller that is done is not busy. -/
theorem leadsTo_complete : d.LeadsTo (d.complete lines).1 := by
  constructor
  · rfl
  · intro _
    exact Bool.false_and true

/-- A reset keeps the registers of a controller in bounds, -/
theorem leadsTo_reset : d.LeadsTo (d.reset lines).1 := by
  constructor
  · rfl
  · intro _
    exact Bool.and_self false

/-- Reading the status lowers the done flag, and reading any other register changes nothing. -/
theorem leadsTo_read (offset : UInt16) : d.LeadsTo (d.read lines offset).2.1 := by
  by_cases hstatus : offset = 5
  · subst hstatus
    constructor
    · rfl
    · intro _
      exact Bool.and_false d.busy
  · unfold read
    simp only [if_neg hstatus]
    repeat' split
    all_goals exact ⟨rfl, id⟩

/-- A start lowers the done flag. -/
theorem leadsTo_setControl (value : UInt8) : d.LeadsTo (d.setControl value) := by
  unfold setControl
  simp only
  split
  · constructor
    · rfl
    · intro _
      exact Bool.and_false true
  · exact ⟨rfl, id⟩

/-- and so does a write. -/
theorem leadsTo_write (offset : UInt16) (value : UInt8) : d.LeadsTo (d.write offset value) := by
  by_cases hcontrol : offset = 5
  · subst hcontrol
    exact d.leadsTo_setControl value
  · unfold write
    simp only [if_neg hcontrol]
    repeat' split
    all_goals exact ⟨rfl, id⟩

end DmaController

/-- The kinds of devices. -/
inductive DeviceKind where
  | ram
  | rom
  | timer
  | dma
  | cpu
  deriving DecidableEq

/-- Whether clocks make a difference to devices of this kind. -/
def DeviceKind.keepsTime : DeviceKind → Bool
  | timer | cpu => true
  | ram | rom | dma => false

namespace Device

/-- The kind of a device. -/
def kind : Device → DeviceKind
  | ram _ => .ram
  | rom _ => .rom
  | timer _ => .timer
  | dma _ => .dma
  | cpu _ => .cpu

/-- A device is in a state that the check of snapshots lets pass. -/
def Sound : Device → Prop
  | ram _ | rom _ => True
  | timer t => t.Sound
  | dma d => d.Sound
  | cpu c => c.Consistent

/-- What a device can become: it keeps its name, its kind and its size, and it stays sound. -/
structure LeadsTo (device device' : Device) : Prop where
  /-- The name stays. -/
  name : device'.name = device.name
  /-- The kind stays. -/
  kind : device'.kind = device.kind
  /-- It offers as many bytes. -/
  capacity : device'.capacity = device.capacity
  /-- Soundness stays. -/
  sound : device.Sound → device'.Sound

namespace LeadsTo

variable {device : Device}

/-- A device can stay what it is. -/
theorem refl (device : Device) : device.LeadsTo device := ⟨rfl, rfl, rfl, id⟩

/-- What a timer can become the device can. -/
theorem ofTimer {t t' : IntervalTimer} (h : t.LeadsTo t') : (timer t).LeadsTo (timer t') :=
  ⟨h.name, rfl, rfl, h.sound⟩

/-- What a controller can become the device can. -/
theorem ofDma {d d' : DmaController} (h : d.LeadsTo d') : (dma d).LeadsTo (dma d') :=
  ⟨h.name, rfl, rfl, h.sound⟩

/-- What a processor can become the device can, if it stays consistent. -/
theorem ofCpu {c c' : Cpu Memory} (h : c.Consistent → c'.Consistent) :
    (cpu c).LeadsTo (cpu c') :=
  ⟨rfl, rfl, rfl, h⟩

end LeadsTo

section

variable (device : Device) (lines : Lines)

/-- A reset keeps a device sound, -/
theorem leadsTo_reset : device.LeadsTo (device.reset lines).1 := by
  cases device with
  | ram | rom => exact .refl _
  | timer t => exact .ofTimer (t.leadsTo_reset lines)
  | dma d => exact .ofDma (d.leadsTo_reset lines)
  | cpu c => exact .ofCpu fun _ => .reset c

/-- clocks do, -/
theorem leadsTo_tick (clocks : Nat) : device.LeadsTo (device.tick lines clocks).1 := by
  cases device with
  | ram | rom | dma => exact .refl _
  | timer t => exact .ofTimer (t.leadsTo_tick lines clocks)
  | cpu c => exact .ofCpu fun h => h.tick clocks

/-- so does a read, -/
theorem leadsTo_read (offset : UInt16) : device.LeadsTo (device.read lines offset).2.1 := by
  cases device with
  | ram | rom => exact .refl _
  | timer t => exact .ofTimer (t.leadsTo_read lines offset)
  | dma d => exact .ofDma (d.leadsTo_read lines offset)
  | cpu c => exact .ofCpu fun h => h.setPort _

/-- a write, -/
theorem leadsTo_write (offset : UInt16) (value : UInt8) :
    device.LeadsTo (device.write lines offset value).1 := by
  cases device with
  | ram bytes =>
    have hsize : (MemoryBytes.write bytes offset value).size = bytes.size := by
      simp only [MemoryBytes.write, Array.size_setIfInBounds]
    exact ⟨rfl, rfl, hsize, id⟩
  | rom => exact .refl _
  | timer t => exact .ofTimer (t.leadsTo_write lines offset value)
  | dma d => exact .ofDma (d.leadsTo_write offset value)
  | cpu c => exact .ofCpu fun h => h.setPort _

/-- and the end of a transfer. -/
theorem leadsTo_completeTransfer : device.LeadsTo (device.completeTransfer lines).1 := by
  cases device with
  | dma d => exact .ofDma (d.leadsTo_complete lines)
  | _ => exact .refl _

end

/-- The devices that a host can come by: it makes them and uses them. -/
inductive Reachable : Device → Prop where
  | ram (bytes : Array UInt8) : Reachable (.ram bytes)
  | rom (bytes : Array UInt8) : Reachable (.rom bytes)
  | timer (name : String) : Reachable (.timer (.create name))
  | dma (name : String) : Reachable (.dma (.create name))
  | cpu (settings : CpuSettings) (memory : Memory) : Reachable (.cpu (.create settings memory))
  | reset {device} (lines : Lines) : Reachable device → Reachable (device.reset lines).1
  | tick {device} (lines : Lines) (clocks : Nat) :
    Reachable device → Reachable (device.tick lines clocks).1
  | read {device} (lines : Lines) (offset : UInt16) :
    Reachable device → Reachable (device.read lines offset).2.1
  | write {device} (lines : Lines) (offset : UInt16) (value : UInt8) :
    Reachable device → Reachable (device.write lines offset value).1

/-- A device that has been made and used in the ordinary way is sound. -/
theorem Reachable.sound {device : Device} (h : device.Reachable) : device.Sound := by
  induction h with
  | ram | rom => trivial
  | timer name => exact UInt8.zero_and
  | dma name => exact Bool.and_self false
  | cpu settings memory => exact .create settings memory
  | reset lines _ ih => exact (leadsTo_reset _ lines).sound ih
  | tick lines clocks _ ih => exact (leadsTo_tick _ lines clocks).sound ih
  | read lines offset _ ih => exact (leadsTo_read _ lines offset).sound ih
  | write lines offset value _ ih => exact (leadsTo_write _ lines offset value).sound ih

/-- A device accepts the snapshot of a sound one of its kind and size. Of a processor this is
asked only where it is the device itself, since another one may have other settings. -/
theorem validate_snapshot {device other : Device} (hsound : other.Sound)
    (hkind : device.kind = other.kind) (hsize : device.capacity = other.capacity)
    (hcpu : device = other ∨ device.kind ≠ .cpu) : device.validate other.snapshot = .ok () := by
  cases device with
  | ram bytes =>
    cases other with
    | ram saved => exact if_pos hsize.symm
    | _ => cases hkind
  | rom bytes =>
    cases other with
    | rom saved => exact if_pos hsize.symm
    | _ => cases hkind
  | timer t =>
    cases other with
    | timer saved => exact SnapshotError.unless_eq_ok.mpr (beq_iff_eq.mpr hsound)
    | _ => cases hkind
  | dma d =>
    cases other with
    | dma saved => exact SnapshotError.unless_eq_ok.mpr (congrArg not hsound)
    | _ => cases hkind
  | cpu c =>
    rcases hcpu with rfl | hne
    · exact Cpu.Consistent.validate hsound
    · exact absurd rfl hne

/-- A device that takes over the snapshot of one of its name and kind becomes that one. Of a
processor this is asked only where it is the device itself, since another one may have another
memory. -/
theorem apply_snapshot {device other : Device} (hname : device.name = other.name)
    (hkind : device.kind = other.kind) (hcpu : device = other ∨ device.kind ≠ .cpu) :
    device.apply other.snapshot = other := by
  cases device with
  | ram bytes | rom bytes =>
    cases other with
    | ram saved | rom saved => first | rfl | cases hkind
    | _ => cases hkind
  | timer t =>
    cases other with
    | timer saved =>
      have hsame : t.name = saved.name := hname
      simp only [apply, snapshot, hsame]
    | _ => cases hkind
  | dma d =>
    cases other with
    | dma saved =>
      have hsame : d.name = saved.name := hname
      simp only [apply, snapshot, hsame]
    | _ => cases hkind
  | cpu c =>
    rcases hcpu with rfl | hne
    · exact congrArg cpu c.apply_snapshot
    · exact absurd rfl hne

/-- A device that takes over a state of its own keeps its name, its kind and its size. -/
theorem apply_keeps {device : Device} {state : DeviceSnapshot}
    (h : device.validate state = .ok ()) :
    (device.apply state).name = device.name ∧ (device.apply state).kind = device.kind ∧
      (device.apply state).capacity = device.capacity := by
  cases device with
  | ram bytes | rom bytes =>
    cases state with
    | memory saved =>
      refine ⟨rfl, rfl, ?_⟩
      change saved.size = bytes.size
      by_cases hsize : saved.size = bytes.size
      · exact hsize
      · rw [validate, if_neg hsize] at h
        cases h
    | _ => cases h
  | timer t | dma d | cpu c => cases state <;> exact ⟨rfl, rfl, rfl⟩

/-- A device that takes over the state of a sound one is sound. -/
theorem sound_apply {device other : Device} (hother : other.Sound)
    (h : device.validate other.snapshot = .ok ()) : (device.apply other.snapshot).Sound := by
  cases device with
  | ram bytes | rom bytes =>
    cases other with
    | ram saved | rom saved => trivial
    | _ => cases h
  | timer t =>
    cases other with
    | timer saved => exact hother
    | _ => cases h
  | dma d =>
    cases other with
    | dma saved => exact hother
    | _ => cases h
  | cpu c =>
    cases other with
    | cpu saved => exact Cpu.Consistent.apply hother h
    | _ => cases h

end Device

end W65C02
