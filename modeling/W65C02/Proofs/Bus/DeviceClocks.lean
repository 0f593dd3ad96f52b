import W65C02.Proofs.Bus.Mastership
import W65C02.Proofs.Bus.Phases

/-!
# The clocks that devices are given

A device gets a clock for as many machine clocks as its divider tells, and machine clocks that do
not make up a clock are kept for the next time. So at any moment the time that has passed is
accounted for: the clocks that the device was given, each worth its divider, what is left over, and
what was lost because too many machine clocks came together to be counted. Accesses and transfers
give no clocks and keep what is left over.
-/

namespace W65C02

/-- The device after it was given a number of clocks at once. To give it none is to leave it
alone. -/
def Device.giveClocks (device : Device) (lines : Lines) (clocks : ℕ) : Device :=
  if clocks = 0 then device else (device.tick lines clocks).1

/-- What becomes of a device that is accessed and given no clocks. -/
inductive Device.Accessed (device : Device) : Device → Prop where
  | rest : Accessed device device
  | read {device' : Device} (lines : Lines) (offset : UInt16) :
    Accessed device device' → Accessed device (device'.read lines offset).2.1
  | write {device' : Device} (lines : Lines) (offset : UInt16) (value : UInt8) :
    Accessed device device' → Accessed device (device'.write lines offset value).1
  | completeTransfer {device' : Device} (lines : Lines) :
    Accessed device device' → Accessed device (device'.completeTransfer lines).1

/-- Some accesses after others. -/
theorem Device.Accessed.trans {device device' device'' : Device} (h : device.Accessed device')
    (h' : device'.Accessed device'') : device.Accessed device'' := by
  induction h' with
  | rest => exact h
  | read lines offset _ ih => exact ih.read lines offset
  | write lines offset value _ ih => exact ih.write lines offset value
  | completeTransfer lines _ ih => exact ih.completeTransfer lines

namespace Mapping

/-- The machine clocks that have come together can be counted in thirty-two bits. -/
def TotalFits (m : Mapping) (cycles : ℕ) : Prop := m.residue.toNat + cycles < 2 ^ 32

instance (m : Mapping) (cycles : ℕ) : Decidable (m.TotalFits cycles) :=
  inferInstanceAs (Decidable (m.residue.toNat + cycles < 2 ^ 32))

/-- How many times the count of machine clocks that have come together starts again from zero. -/
def overruns (m : Mapping) (cycles : ℕ) : ℕ := (m.residue.toNat + cycles) / 2 ^ 32

/-- The count starts again from zero only if it does not fit. -/
theorem overruns_eq_zero {m : Mapping} {cycles : ℕ} :
    m.overruns cycles = 0 ↔ m.TotalFits cycles :=
  Nat.div_eq_zero_iff_lt (Nat.two_pow_pos 32)

/-- What has come together is counted, but for what was lost by starting again. -/
theorem toNat_total (m : Mapping) (cycles : ℕ) :
    (m.total cycles).toNat + 2 ^ 32 * m.overruns cycles = m.residue.toNat + cycles := by
  rw [total, UInt32.toNat_add, UInt32.toNat_ofNat', Nat.add_mod_mod]
  exact Nat.mod_add_div (m.residue.toNat + cycles) (2 ^ 32)

/-- In some time a device is given a number of clocks at once. There is one such number: the clocks
and what is left over make up what has come together. -/
structure Gives (m : Mapping) (time clocks : ℕ) (m' : Mapping) : Prop where
  /-- The device is given the clocks. -/
  device : ∃ lines, m'.device = m.device.giveClocks lines clocks
  /-- The divider stays. -/
  divider : m'.divider = m.divider
  /-- What has come together is used for the clocks, or it is left over. -/
  total : m'.divider.toNat * clocks + m'.residue.toNat = (m.total time).toNat
  /-- The next clock of the device is not overdue. -/
  due : 0 < m.divider → m'.residue < m'.divider

/-- When machine clocks pass the device gets those clocks that it is due. -/
theorem gives_tick (m : Mapping) (lines : Lines) (cycles : ℕ) :
    m.Gives cycles (m.clocks cycles).toNat (m.tick lines cycles).1 where
  device := by
    refine ⟨lines, ?_⟩
    have hnone : m.clocks cycles = 0 ↔ (m.clocks cycles).toNat = 0 := UInt32.toNat_inj.symm
    simp only [tick, Device.giveClocks, hnone]
    split <;> rfl
  divider := rfl
  total := by
    change m.divider.toNat * (m.total cycles / m.divider).toNat +
      (m.total cycles % m.divider).toNat = _
    rw [UInt32.toNat_div, UInt32.toNat_mod]
    exact Nat.div_add_mod _ _
  due := UInt32.mod_lt _

/-- What becomes of a mapping whose device is accessed and given no clocks: what is left over of
the machine clocks is kept. -/
structure Rests (m m' : Mapping) : Prop where
  /-- The divider stays. -/
  divider : m'.divider = m.divider
  /-- What is left over stays. -/
  residue : m'.residue = m.residue
  /-- The device is accessed. -/
  device : m.device.Accessed m'.device

/-- A mapping that nothing happens to. -/
theorem Rests.refl (m : Mapping) : m.Rests m := ⟨rfl, rfl, .rest⟩

/-- One rest after another. -/
theorem Rests.trans {m m' m'' : Mapping} (h : m.Rests m') (h' : m'.Rests m'') : m.Rests m'' where
  divider := h'.divider.trans h.divider
  residue := h'.residue.trans h.residue
  device := h.device.trans h'.device

/-- Where the machine clocks of some time have gone: into the clocks of the device, each worth its
divider, or they are left over, or they were lost when the count started again from zero. -/
structure Accounts (m : Mapping) (time overruns clocks : ℕ) (m' : Mapping) : Prop where
  /-- The divider stays. -/
  divider : m'.divider = m.divider
  /-- All machine clocks are accounted for. -/
  residue : m'.divider.toNat * clocks + m'.residue.toNat + 2 ^ 32 * overruns =
    m.residue.toNat + time
  /-- The next clock of the device is not overdue. -/
  due : m.residue < m.divider → m'.residue < m'.divider

/-- One period of time after another. -/
theorem Accounts.trans {m m' m'' : Mapping} {time overruns clocks time' overruns' clocks' : ℕ}
    (h : m.Accounts time overruns clocks m') (h' : m'.Accounts time' overruns' clocks' m'') :
    m.Accounts (time + time') (overruns + overruns') (clocks + clocks') m'' where
  divider := h'.divider.trans h.divider
  residue := by
    have hfirst := h.residue
    have hsecond := h'.residue
    rw [← h'.divider] at hfirst
    rw [Nat.mul_add]
    omega
  due hdue := h'.due (h.due hdue)

/-- Accesses take no time. -/
theorem Rests.accounts {m m' : Mapping} (h : m.Rests m') : m.Accounts 0 0 0 m' where
  divider := h.divider
  residue := by rw [h.residue, Nat.mul_zero, Nat.zero_add, Nat.mul_zero]
  due hdue := by rwa [h.residue, h.divider]

/-- What the device is given goes off the machine clocks that have come together. -/
theorem Gives.accounts {m m' : Mapping} {time clocks : ℕ} (h : m.Gives time clocks m') :
    m.Accounts time (m.overruns time) clocks m' where
  divider := h.divider
  residue := by
    rw [h.total]
    exact m.toNat_total time
  due hdue := h.due (UInt32.lt_of_le_of_lt UInt32.zero_le hdue)

/-- From a clock that starts anew, the clocks and what is left over are the quotient and the
remainder of the time by the divider, exactly if no machine clock was lost. -/
theorem Accounts.eq_div_mod_iff {m m' : Mapping} {time overruns clocks : ℕ}
    (h : m.Accounts time overruns clocks m') (hfresh : m.residue = 0) (hpos : 0 < m.divider) :
    clocks = time / m.divider.toNat ∧ m'.residue.toNat = time % m.divider.toNat ↔
      overruns = 0 := by
  have hdue := UInt32.lt_iff_toNat_lt.mp (h.due (by rw [hfresh]; exact hpos))
  have htime := h.residue
  rw [h.divider] at hdue htime
  rw [hfresh, UInt32.toNat_zero, Nat.zero_add] at htime
  constructor
  · rintro ⟨hclocks, hresidue⟩
    rw [hclocks, hresidue, Nat.div_add_mod] at htime
    omega
  · rintro rfl
    rw [Nat.mul_zero, Nat.add_zero, Nat.add_comm] at htime
    obtain ⟨hclocks, hresidue⟩ :=
      (Nat.div_mod_unique (UInt32.lt_iff_toNat_lt.mp hpos)).mpr ⟨htime, hdue⟩
    exact ⟨hclocks.symm, hresidue.symm⟩

end Mapping

/-- What becomes of a list of mappings whose devices are accessed and given no clocks. -/
def MappingsRest (mappings mappings' : List Mapping) : Prop :=
  ∀ (place : ℕ) (m : Mapping), mappings[place]? = some m →
    ∃ m', mappings'[place]? = some m' ∧ m.Rests m'

namespace MappingsRest

variable {mappings mappings' mappings'' : List Mapping}

/-- Mappings that nothing happens to. -/
theorem refl (mappings : List Mapping) : MappingsRest mappings mappings :=
  fun _ m hm => ⟨m, hm, .refl m⟩

/-- One rest after another. -/
theorem trans (h : MappingsRest mappings mappings') (h' : MappingsRest mappings' mappings'') :
    MappingsRest mappings mappings'' := by
  intro place m hm
  obtain ⟨m', hm', hrests⟩ := h place m hm
  obtain ⟨m'', hm'', hrests'⟩ := h' place m' hm'
  exact ⟨m'', hm'', hrests.trans hrests'⟩

/-- The first mapping, and those behind it. -/
theorem cons {m m' : Mapping} (hm : m.Rests m') (h : MappingsRest mappings mappings') :
    MappingsRest (m :: mappings) (m' :: mappings') := by
  intro place other hother
  cases place with
  | zero =>
    obtain rfl := Option.some.inj hother
    exact ⟨m', rfl, hm⟩
  | succ place => exact h place other hother

end MappingsRest

namespace MappedBus

/-- A read accesses one device at most. -/
theorem rest_readFrom (address : UInt16) (mappings : List Mapping) (lines : Lines) :
    MappingsRest mappings (readFrom address mappings lines).2.1 := by
  induction mappings with
  | nil => exact .refl []
  | cons m rest ih =>
    unfold readFrom
    split
    · exact .cons ⟨rfl, rfl, .read lines _ .rest⟩ (.refl rest)
    · exact .cons (.refl m) ih

/-- A write accesses one device at most. -/
theorem rest_writeTo (address : UInt16) (value : UInt8) (mappings : List Mapping) (lines : Lines) :
    MappingsRest mappings (writeTo address value mappings lines).1 := by
  induction mappings with
  | nil => exact .refl []
  | cons m rest ih =>
    unfold writeTo
    split
    · exact .cons ⟨rfl, rfl, .write lines _ value .rest⟩ (.refl rest)
    · exact .cons (.refl m) ih

/-- The end of a transfer is told to one device at most. -/
theorem rest_completeAt (place : ℕ) (mappings : List Mapping) (lines : Lines) :
    MappingsRest mappings (completeAt place mappings lines).1 := by
  induction mappings generalizing place with
  | nil => cases place <;> exact .refl []
  | cons m rest ih =>
    cases place with
    | zero => exact .cons ⟨rfl, rfl, .completeTransfer lines .rest⟩ (.refl rest)
    | succ place => exact .cons (.refl m) (ih place)

/-- No access takes time. -/
theorem restInvariant (mappings : List Mapping) :
    Bus.Invariant fun port : Port MappedBus =>
      MappingsRest mappings port.bus.mappings where
  read h := h.trans (rest_readFrom _ _ _)
  write h := h.trans (rest_writeTo _ _ _ _)
  setLines _ h := h

/-- The end of a transfer gives no clocks. -/
theorem rest_finishTransfer (owner : ℕ) (port : Port MappedBus) :
    MappingsRest port.bus.mappings (finishTransfer owner port).bus.mappings := by
  rw [mappings_finishTransfer]
  exact rest_completeAt owner port.bus.mappings port.lines

/-- A cycle of a transfer reads a byte, writes one, or ends the transfer. -/
theorem rest_transferCycle (transfer : TransferProgress) (port : Port MappedBus) :
    MappingsRest port.bus.mappings (transferCycle transfer port).bus.mappings := by
  have hinvariant := restInvariant port.bus.mappings
  have hstart := MappingsRest.refl port.bus.mappings
  unfold transferCycle
  split
  · split
    · exact hinvariant.read (a := transfer.block.source + transfer.index) hstart
    · next value _ =>
      have hwrite := hinvariant.write
        (a := transfer.block.destination + transfer.index) (v := value) hstart
      simp only
      split
      · exact hwrite
      · exact hwrite.trans (rest_finishTransfer _ _)
  · exact rest_finishTransfer _ port

/-- The cycles of a transfer give no clocks to the devices. -/
theorem rest_runTransfer (port : Port MappedBus) (cycles : ℕ) :
    MappingsRest port.bus.mappings (runTransfer port cycles).bus.mappings := by
  induction cycles generalizing port with
  | zero => exact .refl _
  | succ cycles ih =>
    unfold runTransfer
    split
    · exact .refl _
    · exact (rest_transferCycle _ port).trans (ih _)

/-- The mapping at a place as it is when its device gets its clocks: the transfer under way has had
its cycles by then. -/
def due? (port : Port MappedBus) (cycles place : ℕ) : Option Mapping :=
  (runTransfer port cycles).bus.mappings[place]?

/-- When machine clocks pass on the map, the device at a place is given the clocks that it is
due. -/
theorem gives_tick {port : Port MappedBus} {cycles place : ℕ} {m : Mapping}
    (hm : due? port cycles place = some m) :
    ∃ m', (tick port cycles).bus.mappings[place]? = some m' ∧
      m.Gives cycles (m.clocks cycles).toNat m' := by
  obtain ⟨lines, htick⟩ := getElem?_tickAll cycles hm (runTransfer port cycles).lines
  have hmappings : (tick port cycles).bus.mappings =
      (tickAll cycles (runTransfer port cycles).bus.mappings (runTransfer port cycles).lines).1 :=
    mappings_startTransfer _
  rw [hmappings]
  exact ⟨_, htick, m.gives_tick lines cycles⟩

end MappedBus

end W65C02
