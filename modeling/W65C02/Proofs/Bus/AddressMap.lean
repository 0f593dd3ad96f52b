import Mathlib.Data.Set.Lattice
import Mathlib.Order.CompletePartialOrder
import W65C02.Proofs.Bus.Tiling

/-!
# The address map as a memory

Devices are offered to an empty map one after another, and some of them find their place. What is
mapped then are the accepted placements, whose ranges are disjoint sets of addresses, each no longer
than its device. So an address belongs to one device at most, and it makes no difference in which
order the devices were mapped. A map of RAM and ROM obeys the law of a memory: a write shows up at
its own address if there is RAM, and nowhere else.

A device is asked for its size, which it tells in thirty-two bits. One that offers more bytes than
can be told there may be refused for its size although it is large enough.
-/

namespace W65C02

/-- The addresses of a range. -/
def addresses (start finish : UInt16) : Set UInt16 := {a | start ≤ a ∧ a ≤ finish}

/-- The addresses of a slot. -/
def Slot.range (slot : Slot) : Set UInt16 := addresses slot.start slot.finish

/-- The range of a slot are the addresses that it contains. -/
theorem Slot.mem_range {slot : Slot} {address : UInt16} :
    address ∈ slot.range ↔ slot.contains address = true := by
  rw [contains, decide_eq_true_iff]
  rfl

/-- Two ranges that are in order meet exactly if they have an address in common: if they meet then
the later one of the first addresses belongs to both. -/
theorem Slot.meets_eq_false_iff {slot : Slot} {start finish : UInt16}
    (hslot : slot.start ≤ slot.finish) (horder : start ≤ finish) :
    slot.meets start finish = false ↔ Disjoint (addresses start finish) slot.range := by
  rw [Set.disjoint_left, meets, decide_eq_false_iff_not]
  constructor
  · rintro hapart address ⟨hstart, hfinish⟩ ⟨hfirst, hlast⟩
    exact hapart ⟨UInt16.le_trans hstart hlast, UInt16.le_trans hfirst hfinish⟩
  · rintro hdisjoint ⟨hstart, hfirst⟩
    rcases UInt16.le_total start slot.start with hle | hle
    · exact hdisjoint ⟨hle, hfirst⟩ ⟨UInt16.le_refl _, hslot⟩
    · exact hdisjoint ⟨UInt16.le_refl _, horder⟩ ⟨hle, hstart⟩

namespace Device

/-- No device tells more than the number of its bytes, -/
theorem toNat_size_le (device : Device) : device.size.toNat ≤ device.capacity := by
  rw [size, UInt32.toNat_ofNat']
  exact Nat.mod_le _ _

/-- and one whose number of bytes can be told tells that number. -/
theorem toNat_size_of_lt {device : Device} (h : device.capacity < 2 ^ 32) :
    device.size.toNat = device.capacity := by
  rw [size, UInt32.toNat_ofNat', Nat.mod_eq_of_lt h]

end Device

/-- A device that is offered to a map, with the range and the divider that are asked for. -/
structure Placement where
  /-- The first address. -/
  start : UInt16
  /-- The last address. -/
  finish : UInt16
  /-- The device. -/
  device : Device
  /-- How many machine clocks make one clock of the device. -/
  divider : UInt32

namespace Placement

/-- The mapping that is asked for. -/
def mapping (p : Placement) : Mapping :=
  { start := p.start, finish := p.finish, device := p.device, divider := max p.divider 1 }

/-- The addresses that are asked for. -/
def range (p : Placement) : Set UInt16 := addresses p.start p.finish

/-- The number of addresses that are asked for, if they are in order. -/
def length (p : Placement) : ℕ := p.finish.toNat - p.start.toNat + 1

/-- The range is in order and no longer than the device tells. -/
structure Fits (p : Placement) : Prop where
  /-- The range is in order. -/
  order : p.start ≤ p.finish
  /-- The device tells a byte for each address. -/
  size : p.length ≤ p.device.size.toNat

/-- Some placements are compatible: each of them fits, and no address is asked for twice. -/
structure Compatible (placements : List Placement) : Prop where
  /-- Each of them fits. -/
  fits : ∀ p ∈ placements, p.Fits
  /-- No address is asked for twice. -/
  disjoint : placements.Pairwise fun p q => Disjoint p.range q.range

variable {placements others : List Placement}

/-- An empty list of placements is compatible. -/
theorem Compatible.nil : Compatible [] := ⟨List.forall_mem_nil _, List.Pairwise.nil⟩

/-- The order makes no difference. -/
theorem Compatible.perm (h : Compatible placements) (hperm : others.Perm placements) :
    Compatible others := by
  constructor
  · intro p hp
    exact h.fits p (hperm.subset hp)
  · exact (hperm.pairwise_iff fun hdisjoint => hdisjoint.symm).mpr h.disjoint

/-- One more placement stays compatible with the others if it fits and has no address in common with
any of them. -/
theorem compatible_concat {p : Placement} :
    Compatible (placements ++ [p]) ↔
      Compatible placements ∧ p.Fits ∧ ∀ other ∈ placements, Disjoint p.range other.range := by
  constructor
  · intro h
    obtain ⟨hold, hnew⟩ := List.forall_mem_append.mp h.fits
    obtain ⟨hapart, -, hacross⟩ := List.pairwise_append.mp h.disjoint
    refine ⟨⟨hold, hapart⟩, hnew p (List.mem_singleton_self p), fun other hother => ?_⟩
    exact (hacross other hother p (List.mem_singleton_self p)).symm
  · rintro ⟨hold, hfits, hfree⟩
    constructor
    · exact List.forall_mem_append.mpr ⟨hold.fits, List.forall_mem_singleton.mpr hfits⟩
    · refine List.pairwise_append.mpr ⟨hold.disjoint, List.pairwise_singleton _ _, ?_⟩
      intro other hother q hq
      obtain rfl := List.mem_singleton.mp hq
      exact (hfree other hother).symm

/-- There is RAM at an address. -/
def InRam (placements : List Placement) (address : UInt16) : Prop :=
  ∃ p ∈ placements, address ∈ p.range ∧ p.device.kind = .ram

end Placement

namespace MappedBus

/-- A map with nothing but some placements. -/
def mapped (placements : List Placement) : MappedBus := { mappings := placements.map (·.mapping) }

/-- The layout tells for each placement where its device is. -/
theorem layout_mapped (placements : List Placement) :
    (mapped placements).layout = placements.map (·.mapping.slot) :=
  List.map_map

/-- The map after devices have been offered to it. One that is not accepted changes nothing. -/
def offered (bus : MappedBus) : List Placement → MappedBus
  | [] => bus
  | p :: rest =>
    match bus.add p.start p.finish p.device p.divider with
    | .ok bus => bus.offered rest
    | .error _ => bus.offered rest

/-- Those placements that are accepted when they are offered one after another. -/
def accepted (bus : MappedBus) : List Placement → List Placement
  | [] => []
  | p :: rest =>
    match bus.add p.start p.finish p.device p.divider with
    | .ok bus => p :: bus.accepted rest
    | .error _ => bus.accepted rest

variable {placements : List Placement}

/-- To a map of compatible placements one more is added exactly if they are still compatible. -/
theorem add_mapped_eq_ok (h : Placement.Compatible placements) {p : Placement} {bus : MappedBus} :
    (mapped placements).add p.start p.finish p.device p.divider = .ok bus ↔
      p.Fits ∧ (∀ other ∈ placements, Disjoint p.range other.range) ∧
        bus = mapped (placements ++ [p]) := by
  have hbus : mapped (placements ++ [p]) = { mapped placements with
      mappings := (mapped placements).mappings ++ [p.mapping] } := by
    rw [mapped, List.map_append]
    rfl
  have hfree (horder : p.start ≤ p.finish) :
      (∀ slot ∈ (mapped placements).layout, slot.meets p.start p.finish = false) ↔
        ∀ other ∈ placements, Disjoint p.range other.range := by
    simp only [layout_mapped, List.forall_mem_map]
    refine forall₂_congr fun other hother => ?_
    exact Slot.meets_eq_false_iff (h.fits other hother).order horder
  rw [add_eq_ok, hbus]
  constructor
  · rintro ⟨horder, hsize, hmeets, rfl⟩
    have horder := UInt16.not_lt.mp horder
    exact ⟨⟨horder, hsize⟩, (hfree horder).mp hmeets, rfl⟩
  · rintro ⟨hfits, hdisjoint, rfl⟩
    exact ⟨UInt16.not_lt.mpr hfits.order, hfits.size, (hfree hfits.order).mpr hdisjoint, rfl⟩

/-- What is mapped are the accepted placements, and they are compatible. -/
theorem offered_mapped (h : Placement.Compatible placements) (offers : List Placement) :
    (mapped placements).offered offers =
        mapped (placements ++ (mapped placements).accepted offers) ∧
      Placement.Compatible (placements ++ (mapped placements).accepted offers) := by
  -- Each placement that is accepted joins those that are compatible so far.
  induction offers generalizing placements with
  | nil =>
    rw [accepted, List.append_nil]
    exact ⟨rfl, h⟩
  | cons p rest ih =>
    unfold offered accepted
    cases hadd : (mapped placements).add p.start p.finish p.device p.divider with
    | error e => exact ih h
    | ok bus =>
      obtain ⟨hfits, hfree, rfl⟩ := (add_mapped_eq_ok h).mp hadd
      have hrest := ih (Placement.compatible_concat.mpr ⟨h, hfits, hfree⟩)
      rwa [List.append_assoc] at hrest

/-- Compatible placements are all accepted. -/
theorem accepted_of_compatible {offers : List Placement}
    (h : Placement.Compatible (placements ++ offers)) :
    (mapped placements).accepted offers = offers := by
  induction offers generalizing placements with
  | nil => rfl
  | cons p rest ih =>
    rw [List.append_cons] at h
    have hnext : Placement.Compatible (placements ++ [p]) := by
      constructor
      · exact fun q hq => h.fits q (List.mem_append_left _ hq)
      · exact (List.pairwise_append.mp h.disjoint).1
    obtain ⟨hold, hfits, hfree⟩ := Placement.compatible_concat.mp hnext
    have hadd := (add_mapped_eq_ok hold).mpr ⟨hfits, hfree, rfl⟩
    unfold accepted
    rw [hadd]
    exact congrArg (p :: ·) (ih h)

/-- On an empty map all placements that are accepted are compatible, and they are what is mapped. -/
theorem offered_empty (offers : List Placement) :
    offered {} offers = mapped (accepted {} offers) ∧
      Placement.Compatible (accepted {} offers) :=
  offered_mapped .nil offers

/-- Where ranges are disjoint an address is looked up in the only mapping that holds it. -/
theorem cellIn_of_mem {address : UInt16} {mappings : List Mapping}
    (hdisjoint : (mappings.map (·.slot)).Pairwise fun s t => Disjoint s.range t.range)
    {m : Mapping} (hm : m ∈ mappings) (hhere : m.contains address = true) :
    cellIn address mappings = m.device.cell (address - m.start) := by
  induction mappings with
  | nil => cases hm
  | cons first rest ih =>
    rw [List.map_cons, List.pairwise_cons] at hdisjoint
    unfold cellIn
    rcases List.mem_cons.mp hm with rfl | hlater
    · rw [if_pos hhere]
    · have hapart := hdisjoint.1 m.slot (List.mem_map_of_mem hlater)
      have hfirst : ¬ first.contains address = true := fun hfirst =>
        Set.disjoint_left.mp hapart (Slot.mem_range.mpr hfirst) (Slot.mem_range.mpr hhere)
      rw [if_neg hfirst]
      exact ih hdisjoint.2 hlater

/-- Where no mapping contains an address there is no cell. -/
theorem cellIn_of_unmapped {address : UInt16} {mappings : List Mapping}
    (h : ∀ m ∈ mappings, m.contains address = false) : cellIn address mappings = .absent := by
  induction mappings with
  | nil => rfl
  | cons first rest ih =>
    obtain ⟨hfirst, hrest⟩ := List.forall_mem_cons.mp h
    unfold cellIn
    rw [hfirst]
    exact ih hrest

/-- Where no device is mapped a read finds nothing and does nothing. -/
theorem read_of_unmapped {port : Port MappedBus} {address : UInt16}
    (h : ∀ slot ∈ port.bus.layout, slot.contains address = false) :
    port.read address = (unmapped, port) := by
  have hmemory : OffersMemory port.bus.layout address := by
    intro slot hslot hcontains
    rw [h slot hslot] at hcontains
    cases hcontains
  have hcell : port.bus.cells address = .absent := cellIn_of_unmapped (List.forall_mem_map.mp h)
  rw [read_of_offersMemory hmemory, hcell]
  rfl

end MappedBus

namespace Port

/-- Writes bytes to addresses one after another. -/
def writeEach {β : Type} [Bus β] (port : Port β) : List (UInt16 × UInt8) → Port β
  | [] => port
  | (address, value) :: rest => (port.write address value).writeEach rest

end Port

namespace MappedBus

/-- Writing does not move any device. -/
theorem layout_writeEach (port : Port MappedBus) (writes : List (UInt16 × UInt8)) :
    (port.writeEach writes).bus.layout = port.bus.layout := by
  induction writes generalizing port with
  | nil => rfl
  | cons first rest ih => exact (ih _).trans (leadsTo_write first.1 first.2 port).layout

/-- The cells after some writes depend on the cells before them only. -/
theorem cells_writeEach {p q : Port MappedBus} (h : p.bus.cells = q.bus.cells)
    (writes : List (UInt16 × UInt8)) :
    (p.writeEach writes).bus.cells = (q.writeEach writes).bus.cells := by
  induction writes generalizing p q with
  | nil => exact h
  | cons first rest ih =>
    refine ih ?_
    rw [cells_write, cells_write, h]

end MappedBus

namespace Placement.Compatible

variable {placements : List Placement} {bus : MappedBus} {address : UInt16}

/-- As long as the layout stays, the ranges of the slots are disjoint. -/
theorem disjoint_layout (h : Compatible placements)
    (hlayout : bus.layout = (MappedBus.mapped placements).layout) :
    bus.layout.Pairwise fun s t => Disjoint s.range t.range := by
  rw [hlayout, MappedBus.layout_mapped]
  exact List.pairwise_map.mpr h.disjoint

/-- An address belongs to one mapping at most. -/
theorem place_unique (h : Compatible placements)
    (hlayout : bus.layout = (MappedBus.mapped placements).layout) {place place' : ℕ}
    {m m' : Mapping} (hm : bus.mappings[place]? = some m) (hm' : bus.mappings[place']? = some m')
    (hhere : m.contains address = true) (hhere' : m'.contains address = true) :
    place = place' := by
  have hapart {i j : ℕ} {n n' : Mapping} (hn : bus.mappings[i]? = some n)
      (hn' : bus.mappings[j]? = some n') (hlt : i < j) : Disjoint n.slot.range n'.slot.range := by
    obtain ⟨hi, rfl⟩ := List.getElem?_eq_some_iff.mp hn
    obtain ⟨hj, rfl⟩ := List.getElem?_eq_some_iff.mp hn'
    exact List.pairwise_iff_getElem.mp (List.pairwise_map.mp (h.disjoint_layout hlayout)) i j hi hj
      hlt
  have hrange : address ∈ m.slot.range := Slot.mem_range.mpr hhere
  have hrange' : address ∈ m'.slot.range := Slot.mem_range.mpr hhere'
  rcases Nat.lt_trichotomy place place' with hlt | heq | hlt
  · exact absurd hrange' (Set.disjoint_left.mp (hapart hm hm' hlt) hrange)
  · exact heq
  · exact absurd hrange (Set.disjoint_left.mp (hapart hm' hm hlt) hrange')

/-- The offset of an address in the range of a device is inside the device. -/
theorem toNat_offset_lt (h : Compatible placements)
    (hlayout : bus.layout = (MappedBus.mapped placements).layout) {m : Mapping}
    (hm : m ∈ bus.mappings) (hhere : m.contains address = true) :
    (address - m.start).toNat < m.device.capacity := by
  have hslot : m.slot ∈ (MappedBus.mapped placements).layout := by
    rw [← hlayout]
    exact List.mem_map_of_mem hm
  rw [MappedBus.layout_mapped] at hslot
  obtain ⟨p, hp, hsame⟩ := List.mem_map.mp hslot
  have hstart : p.start = m.start := congrArg Slot.start hsame
  have hfinish : p.finish = m.finish := congrArg Slot.finish hsame
  have hdevice : p.device.capacity = m.device.capacity := congrArg Slot.size hsame
  have hsize := Nat.le_trans (h.fits p hp).size p.device.toNat_size_le
  have hoffset := Mapping.toNat_offset_le hhere
  rw [Placement.length, hstart, hfinish, hdevice] at hsize
  omega

/-- An address that is asked for is looked up in the device of its placement. -/
theorem exists_mapping (h : Compatible placements)
    (hlayout : bus.layout = (MappedBus.mapped placements).layout) {p : Placement}
    (hp : p ∈ placements) (haddress : address ∈ p.range) :
    ∃ m ∈ bus.mappings, m.slot = p.mapping.slot ∧ m.contains address = true ∧
      bus.cells address = m.device.cell (address - m.start) := by
  have hslot : p.mapping.slot ∈ bus.layout := by
    rw [hlayout, MappedBus.layout_mapped]
    exact List.mem_map_of_mem hp
  obtain ⟨m, hm, hsame⟩ := List.mem_map.mp hslot
  have hrange : address ∈ m.slot.range := by
    rw [hsame]
    exact haddress
  have hhere : m.contains address = true := Slot.mem_range.mp hrange
  exact ⟨m, hm, hsame, hhere, MappedBus.cellIn_of_mem (h.disjoint_layout hlayout) hm hhere⟩

/-- Where no device was placed there is none. -/
theorem unmapped (hlayout : bus.layout = (MappedBus.mapped placements).layout)
    (haddress : ∀ p ∈ placements, address ∉ p.range) :
    ∀ slot ∈ bus.layout, slot.contains address = false := by
  rw [hlayout, MappedBus.layout_mapped]
  refine List.forall_mem_map.mpr fun p hp => ?_
  exact Bool.eq_false_iff.mpr fun hcontains => haddress p hp (Slot.mem_range.mpr hcontains)

/-- Outside all placements there is no cell. -/
theorem cells_of_unmapped (hlayout : bus.layout = (MappedBus.mapped placements).layout)
    (haddress : ∀ p ∈ placements, address ∉ p.range) : bus.cells address = .absent :=
  MappedBus.cellIn_of_unmapped (List.forall_mem_map.mp (unmapped hlayout haddress))

/-- A byte can be written exactly where there is RAM. -/
theorem writable_cells (h : Compatible placements)
    (hlayout : bus.layout = (MappedBus.mapped placements).layout) :
    (bus.cells address).writable = true ↔ InRam placements address := by
  constructor
  · intro hwritable
    by_cases hmapped : ∃ p ∈ placements, address ∈ p.range
    · obtain ⟨p, hp, haddress⟩ := hmapped
      obtain ⟨m, -, hslot, -, hcell⟩ := h.exists_mapping hlayout hp haddress
      have hkind : m.device.kind = p.device.kind := congrArg Slot.kind hslot
      refine ⟨p, hp, haddress, ?_⟩
      rw [hcell] at hwritable
      rw [← hkind]
      cases hdevice : m.device with
      | ram bytes => rfl
      | rom | timer | dma | cpu =>
        rw [hdevice] at hwritable
        cases hwritable
    · rw [cells_of_unmapped hlayout fun p hp haddress => hmapped ⟨p, hp, haddress⟩] at hwritable
      cases hwritable
  · rintro ⟨p, hp, haddress, hram⟩
    obtain ⟨m, hm, hslot, hhere, hcell⟩ := h.exists_mapping hlayout hp haddress
    have hkind : m.device.kind = p.device.kind := congrArg Slot.kind hslot
    rw [hcell]
    exact Device.writable_cell (hkind.trans hram) (h.toNat_offset_lt hlayout hm hhere)

/-- The order in which compatible placements were mapped makes no difference to the cells. -/
theorem cells_mapped (h : Compatible placements) {others : List Placement}
    (hperm : others.Perm placements) :
    (MappedBus.mapped others).cells = (MappedBus.mapped placements).cells := by
  have hcell {list : List Placement} (hlist : Compatible list) {p : Placement} (hp : p ∈ list)
      {address : UInt16} (haddress : address ∈ p.range) :
      (MappedBus.mapped list).cells address = p.device.cell (address - p.start) := by
    have hmem : p.mapping ∈ (MappedBus.mapped list).mappings := List.mem_map_of_mem hp
    have hrange : address ∈ p.mapping.slot.range := haddress
    have hhere : p.mapping.contains address = true := Slot.mem_range.mp hrange
    exact MappedBus.cellIn_of_mem (hlist.disjoint_layout rfl) hmem hhere
  funext address
  by_cases hmapped : ∃ p ∈ placements, address ∈ p.range
  · obtain ⟨p, hp, haddress⟩ := hmapped
    rw [hcell h hp haddress, hcell (h.perm hperm) (hperm.symm.subset hp) haddress]
  · have hnone : ∀ p ∈ placements, address ∉ p.range := fun p hp haddress =>
      hmapped ⟨p, hp, haddress⟩
    rw [cells_of_unmapped rfl hnone, cells_of_unmapped rfl fun p hp => hnone p (hperm.subset hp)]

end Placement.Compatible

namespace MappedBus

/-- A map is a memory of RAM and ROM, and so are all its later states. -/
structure IsMemory (made : MappedBus) (accepted : List Placement) : Prop where
  /-- A read does nothing else. -/
  read : ∀ port : Port MappedBus, port.bus.layout = made.layout → ∀ address,
    (port.read address).2 = port
  /-- A byte that is written to RAM is read at its address. At all other addresses, and everywhere
  if there is no RAM, the same is read as before. -/
  write : ∀ port : Port MappedBus, port.bus.layout = made.layout → ∀ address value,
    (port.write address value).bus.layout = made.layout ∧
      (Placement.InRam accepted address → ((port.write address value).read address).1 = value) ∧
      ∀ other, ¬ (other = address ∧ Placement.InRam accepted address) →
        ((port.write address value).read other).1 = (port.read other).1
  /-- In any other order the devices are accepted too, and then the same is read after the same
  writes. -/
  reorder : ∀ others : List Placement, others.Perm accepted →
    MappedBus.accepted {} others = others ∧ ∀ lines writes address,
      (((Port.mk (offered {} others) lines).writeEach writes).read address).1 =
        (((Port.mk made lines).writeEach writes).read address).1

/-- A map was made by mapping devices in disjoint ranges, one after another. -/
structure MadeOf (made : MappedBus) (accepted : List Placement) : Prop where
  /-- What is mapped are the accepted placements; others have left no trace. -/
  mapped : made = mapped accepted
  /-- One more is accepted exactly if its range is in order and no longer than the device tells, and
  has no address in common with a range that was accepted before. -/
  accepts : ∀ p : Placement,
    (∃ bus, made.add p.start p.finish p.device p.divider = .ok bus) ↔
      p.start ≤ p.finish ∧ p.length ≤ p.device.size.toNat ∧
        ∀ other ∈ accepted, Disjoint p.range other.range
  /-- That is to say no longer than the device, if the number of its bytes can be told. -/
  accepts_of_lt : ∀ p : Placement, p.device.capacity < 2 ^ 32 →
    ((∃ bus, made.add p.start p.finish p.device p.divider = .ok bus) ↔
      p.start ≤ p.finish ∧ p.length ≤ p.device.capacity ∧
        ∀ other ∈ accepted, Disjoint p.range other.range)
  /-- An address belongs to one mapping at most, -/
  single : ∀ bus : MappedBus, bus.layout = made.layout → ∀ (place place' : ℕ) (m m' : Mapping),
    bus.mappings[place]? = some m → bus.mappings[place']? = some m' →
      ∀ address, m.contains address = true → m'.contains address = true → place = place'
  /-- and its offset is inside the device. -/
  inside : ∀ bus : MappedBus, bus.layout = made.layout → ∀ m ∈ bus.mappings, ∀ address,
    m.contains address = true → (address - m.start).toNat < m.device.capacity
  /-- Nothing is found where no device is mapped. -/
  absent : ∀ port : Port MappedBus, port.bus.layout = made.layout → ∀ address,
    (∀ p ∈ accepted, address ∉ p.range) → port.read address = (0xFF, port)
  /-- If all devices are memories, then so is the map. -/
  memory : (∀ p ∈ accepted, p.device.kind.isMemory = true) → made.IsMemory accepted

variable {placements : List Placement}

/-- A map of RAM and ROM with disjoint ranges obeys the law of a memory. -/
theorem isMemory_mapped (h : Placement.Compatible placements)
    (hmemory : ∀ p ∈ placements, p.device.kind.isMemory = true) :
    (mapped placements).IsMemory placements := by
  have hread {list : List Placement} (hlist : ∀ p ∈ list, p.device.kind.isMemory = true)
      {port : Port MappedBus} (hlayout : port.bus.layout = (mapped list).layout)
      (address : UInt16) : port.read address = ((port.bus.cells address).value, port) := by
    refine read_of_offersMemory fun slot hslot _ => ?_
    rw [hlayout, layout_mapped] at hslot
    obtain ⟨p, hp, rfl⟩ := List.mem_map.mp hslot
    exact hlist p hp
  refine ⟨?_, ?_, ?_⟩
  · intro port hlayout address
    rw [hread hmemory hlayout]
  · intro port hlayout address value
    have hlayout' := (leadsTo_write address value port).layout.trans hlayout
    have hcell (other : UInt16) : ((port.write address value).read other).1 =
        (port.bus.cells.put address value other).value := by
      rw [hread hmemory hlayout', cells_write]
    refine ⟨hlayout', fun hram => ?_, fun other hother => ?_⟩
    · rw [hcell, Cells.put, if_pos rfl, Cell.write, if_pos ((h.writable_cells hlayout).mpr hram)]
    · rw [hcell, hread hmemory hlayout, Cells.put]
      by_cases hsame : other = address
      · subst hsame
        have hreadOnly : (port.bus.cells other).writable = false :=
          Bool.eq_false_iff.mpr fun hwritable =>
            hother ⟨rfl, (h.writable_cells hlayout).mp hwritable⟩
        rw [if_pos rfl, Cell.write_of_not_writable hreadOnly]
      · rw [if_neg hsame]
  · intro others hperm
    have hothers : Placement.Compatible ([] ++ others) := h.perm hperm
    have haccepted : accepted {} others = others := accepted_of_compatible hothers
    have hoffered := (offered_empty others).1
    rw [haccepted] at hoffered
    refine ⟨haccepted, fun lines writes address => ?_⟩
    have hcells := cells_writeEach (p := ⟨mapped others, lines⟩) (q := ⟨mapped placements, lines⟩)
      (h.cells_mapped hperm) writes
    rw [hoffered, hread (fun p hp => hmemory p (hperm.subset hp)) (layout_writeEach _ _),
      hread hmemory (layout_writeEach _ _), hcells]

/-- To a map of compatible placements one more is added exactly if its range is in order, no longer
than the device tells, and free. -/
theorem exists_add_mapped (h : Placement.Compatible placements) (p : Placement) :
    (∃ bus, (mapped placements).add p.start p.finish p.device p.divider = .ok bus) ↔
      p.start ≤ p.finish ∧ p.length ≤ p.device.size.toNat ∧
        ∀ other ∈ placements, Disjoint p.range other.range := by
  constructor
  · rintro ⟨bus, hadd⟩
    obtain ⟨hfits, hfree, -⟩ := (add_mapped_eq_ok h).mp hadd
    exact ⟨hfits.order, hfits.size, hfree⟩
  · rintro ⟨horder, hsize, hfree⟩
    exact ⟨_, (add_mapped_eq_ok h).mpr ⟨⟨horder, hsize⟩, hfree, rfl⟩⟩

/-- Whatever devices are offered to an empty map, it is made of those whose ranges are in order, no
longer than the device tells, and free. A device tells the number of its bytes, unless there are
2 ^ 32 or more. -/
theorem madeOf_accepted (offers : List Placement) :
    (offered {} offers).MadeOf (accepted {} offers) := by
  obtain ⟨hmade, hcompatible⟩ := offered_empty offers
  rw [hmade]
  refine ⟨rfl, exists_add_mapped hcompatible, ?_, ?_, ?_, ?_, isMemory_mapped hcompatible⟩
  · intro p hcapacity
    have haccepts := exists_add_mapped hcompatible p
    rwa [Device.toNat_size_of_lt hcapacity] at haccepts
  · intro bus hlayout place place' m m' hm hm' address hhere hhere'
    exact hcompatible.place_unique hlayout hm hm' hhere hhere'
  · intro bus hlayout m hm address hhere
    exact hcompatible.toNat_offset_lt hlayout hm hhere
  · intro port hlayout address hnone
    exact read_of_unmapped (Placement.Compatible.unmapped hlayout hnone)

/-- Not every device that is large enough is accepted: one with 2 ^ 32 bytes of RAM tells that it
has none. -/
theorem not_acceptsByCapacity :
    ¬ ∀ p : Placement, p.start ≤ p.finish → p.length ≤ p.device.capacity →
      ∃ bus, add {} p.start p.finish p.device p.divider = .ok bus := by
  intro haccepts
  have hcapacity : (Device.ram (.replicate (2 ^ 32) 0)).capacity = 2 ^ 32 := Array.size_replicate
  have hsize : (Device.ram (.replicate (2 ^ 32) 0)).size.toNat = 0 := by
    rw [Device.size, hcapacity]
    rfl
  have hshort : 1 ≤ (Device.ram (.replicate (2 ^ 32) 0)).capacity := by
    rw [hcapacity]
    exact Nat.one_le_two_pow
  obtain ⟨bus, hadd⟩ := haccepts ⟨0, 0, .ram (.replicate (2 ^ 32) 0), 1⟩ (UInt16.le_refl 0) hshort
  obtain ⟨-, hlarge, -⟩ := add_eq_ok.mp hadd
  rw [hsize] at hlarge
  exact absurd hlarge (by decide)

/-- The second device meets the first one and is refused. The others stand side by side, and one has
the last address to itself. -/
example :
    (accepted {} [⟨0, 1, .ram #[0, 0], 1⟩, ⟨1, 2, .ram #[0, 0], 1⟩, ⟨2, 2, .rom #[7], 1⟩,
      ⟨0xFFFF, 0xFFFF, .ram #[0], 0⟩]).map (·.start) = [0, 2, 0xFFFF] := by
  decide

end MappedBus

end W65C02
