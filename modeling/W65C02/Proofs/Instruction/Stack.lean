import W65C02.Proofs.Bus.Stack
import W65C02.Proofs.Instruction.Traffic

/-!
# Pushing and pulling

What is pushed comes back, the newest first, and the stack pointer is then where it was. The stack
is only a page that wraps around, so this holds as long as no more than 256 bytes are on it at a
time, but wherever it begins, and however pushes and pulls of bytes and words are nested. No cell is
written but those from the stack pointer downwards.
-/

namespace W65C02

open Memory Transaction

namespace Transaction

/-- Pushed bytes are written to the cells from the stack pointer downwards. -/
theorem written_pushes (s : UInt8) (values : List UInt8) :
    (pushes s values).filterMap written? = (List.range values.length).map (frameCell s) := by
  induction values generalizing s with
  | nil => rfl
  | cons value rest ih =>
    have hrest : (List.range rest.length).map (frameCell (s - 1)) =
        (List.range rest.length).map (frameCell s ∘ Nat.succ) :=
      List.map_congr_left fun i _ => (frameCell_succ s i).symm
    rw [List.length_cons, List.range_succ_eq_map, List.map_cons, List.map_map, frameCell_zero,
      ← hrest, ← ih]
    rfl

/-- Pulling writes nothing. -/
theorem written_pulls (s : UInt8) (count : ℕ) : (pulls s count).filterMap written? = [] := by
  induction count generalizing s with
  | zero => rfl
  | succ count ih => exact ih (s + 1)

end Transaction

namespace Execution

section

variable {β : Type} [Bus β] (e : Execution β)

/-- Bytes are pushed, one after another. -/
def pushAll (e : Execution β) (values : List UInt8) : Execution β := values.foldl push e

/-- A number of bytes are pulled. The first to be pulled is the first in the list. -/
def pullAll (e : Execution β) : ℕ → List UInt8 × Execution β
  | 0 => ([], e)
  | count + 1 =>
    let (value, e) := e.pull
    let (rest, e) := e.pullAll count
    (value :: rest, e)

/-- The last byte can be pulled apart from those before it. -/
theorem pullAll_succ (count : ℕ) :
    e.pullAll (count + 1) =
      ((e.pullAll count).1 ++ [(e.pullAll count).2.pull.1], (e.pullAll count).2.pull.2) := by
  induction count generalizing e with
  | zero => rfl
  | succ count ih =>
    change (e.pull.1 :: (e.pull.2.pullAll (count + 1)).1, (e.pull.2.pullAll (count + 1)).2) = _
    rw [ih]
    rfl

/-- On any bus pushing asks for the writes of the pushed bytes. -/
theorem pushAll_port (values : List UInt8) :
    (e.pushAll values).port = e.port.transactAll (pushes e.regs.s values) := by
  induction values generalizing e with
  | nil => rfl
  | cons value rest ih => exact ih (e.push value)

/-- On any bus pulling asks for the reads of the pulled bytes. -/
theorem pullAll_port (count : ℕ) :
    (e.pullAll count).2.port = e.port.transactAll (pulls e.regs.s count) := by
  induction count generalizing e with
  | zero => rfl
  | succ count ih => exact ih e.pull.2

end

/-- In memory the pushed bytes are in their cells. -/
theorem pushAll_memory (e : Execution Memory) (values : List UInt8) :
    (e.pushAll values).port.bus = e.port.bus.pushAll e.regs.s values := by
  induction values generalizing e with
  | nil => rfl
  | cons value rest ih => exact ih (e.push value)

/-- Pulling leaves memory and the lines alone. -/
theorem pullAll_port_of_memory (e : Execution Memory) (count : ℕ) :
    (e.pullAll count).2.port = e.port := by
  induction count generalizing e with
  | zero => rfl
  | succ count ih => exact ih e.pull.2

/-- An execution over a memory whose accesses are recorded from now on. -/
def recorded (e : Execution Memory) : Execution (Traced Memory) :=
  ⟨e.regs, e.runMode, e.inFlight, e.port.recorded #[]⟩

/-- A use of the stack has been undone: nothing has changed but so many cells from the stack pointer
downwards. -/
structure IsUndone (e : Execution Memory) (depth : ℕ) (after : Execution Memory) : Prop where
  /-- The registers with the stack pointer, and everything else but memory, are as before. -/
  unchanged : ∃ memory, after = { e with port.bus := memory }
  /-- All cells but the given number from the stack pointer downwards keep their bytes. -/
  others : ∀ address, (∀ i < depth, address ≠ frameCell e.regs.s i) →
    after.port.bus.read address = e.port.bus.read address

namespace IsUndone

variable {e after later : Execution Memory} {depth depth' : ℕ}

/-- What was not done is undone. -/
theorem refl (e : Execution Memory) : e.IsUndone 0 e := ⟨⟨e.port.bus, rfl⟩, fun _ _ => rfl⟩

/-- One use after another takes up as many cells as the deeper one. -/
theorem trans (h : e.IsUndone depth after) (h' : after.IsUndone depth' later) :
    e.IsUndone (max depth depth') later := by
  obtain ⟨memory, rfl⟩ := h.unchanged
  obtain ⟨memory', rfl⟩ := h'.unchanged
  refine ⟨⟨memory', rfl⟩, fun address haddress => ?_⟩
  have hlater := h'.others address fun i hi =>
    haddress i (Nat.lt_of_lt_of_le hi (Nat.le_max_right _ _))
  exact hlater.trans (h.others address fun i hi =>
    haddress i (Nat.lt_of_lt_of_le hi (Nat.le_max_left _ _)))

/-- A pushed byte comes back if what has been on top of it left its cell alone. -/
theorem pull {value : UInt8} (h : (e.push value).IsUndone depth after) (hdepth : depth < 256) :
    after.pull.1 = value ∧ e.IsUndone (depth + 1) after.pull.2 := by
  have hback : e.regs.s - 1 + 1 = e.regs.s := by grind
  have hothers (address : UInt16) (haddress : ∀ i < depth, address ≠ frameCell (e.regs.s - 1) i) :
      after.port.bus.read address = (e.port.bus.write (stackAddress e.regs.s) value).read address :=
    h.others address haddress
  obtain ⟨memory, rfl⟩ := h.unchanged
  constructor
  · have hcell := hothers (stackAddress e.regs.s) fun i hi => (frameCell_ne (by omega)).symm
    rw [read_write, if_pos rfl] at hcell
    change memory.read (stackAddress (e.regs.s - 1 + 1)) = value
    rw [hback]
    exact hcell
  · constructor
    · refine ⟨memory, ?_⟩
      change (⟨{ e.regs with s := e.regs.s - 1 + 1 }, _, _, _⟩ : Execution Memory) = _
      rw [hback]
      rfl
    · intro address haddress
      have hfirst : address ≠ stackAddress e.regs.s := by
        rw [← frameCell_zero]
        exact haddress 0 (Nat.succ_pos depth)
      have hrest := hothers address fun i hi => by
        rw [← frameCell_succ]
        exact haddress (i + 1) (Nat.succ_lt_succ hi)
      rw [read_write, if_neg hfirst.symm] at hrest
      exact hrest

/-- A pushed word comes back if what has been on top of it left both its cells alone. -/
theorem pullWord {word : UInt16} (h : (e.pushWord word).IsUndone depth after)
    (hdepth : depth + 2 ≤ 256) :
    after.pullWord.1 = word ∧ e.IsUndone (depth + 2) after.pullWord.2 := by
  obtain ⟨hlow, hundone⟩ := h.pull (by omega)
  obtain ⟨hhigh, hundone⟩ := hundone.pull (by omega)
  refine ⟨?_, hundone⟩
  change wordOfBytes after.pull.1 after.pull.2.pull.1 = word
  rw [hlow, hhigh, wordOfBytes_lowByte_highByte]

end IsUndone

end Execution

/-- Pushes and pulls that are nested: each byte and each word that is pushed is pulled later, after
everything that was pushed on top of it. So `byte 1 (word 2 nothing nothing) nothing` is to push a
byte and a word, and then to pull the word and the byte. -/
inductive StackUse where
  /-- Nothing is pushed. -/
  | nothing
  /-- A byte is pushed, and pulled after what is done with the stack within. -/
  | byte (value : UInt8) (within next : StackUse)
  /-- A word is pushed, and pulled after what is done with the stack within. -/
  | word (value : UInt16) (within next : StackUse)

namespace StackUse

/-- How many bytes are on the stack at most. -/
def depth : StackUse → ℕ
  | nothing => 0
  | byte _ within next => max (within.depth + 1) next.depth
  | word _ within next => max (within.depth + 2) next.depth

/-- The bytes and words that are pushed, in the order in which they are to come back. -/
def items : StackUse → List (UInt8 ⊕ UInt16)
  | nothing => []
  | byte value within next => within.items ++ .inl value :: next.items
  | word value within next => within.items ++ .inr value :: next.items

/-- The stack is used. What is pulled is told in the order in which it is pulled. -/
def run {β : Type} [Bus β] : StackUse → Execution β → List (UInt8 ⊕ UInt16) × Execution β
  | nothing, e => ([], e)
  | byte value within next, e =>
    let (inner, e) := within.run (e.push value)
    let (pulled, e) := e.pull
    let (later, e) := next.run e
    (inner ++ .inl pulled :: later, e)
  | word value within next, e =>
    let (inner, e) := within.run (e.pushWord value)
    let (pulled, e) := e.pullWord
    let (later, e) := next.run e
    (inner ++ .inr pulled :: later, e)

/-- Bytes are pushed, and pulled after what is done with the stack in between. -/
def around (use : StackUse) : List UInt8 → StackUse
  | [] => use
  | value :: rest => byte value (use.around rest) nothing

/-- Pushing bytes around a use of the stack makes it that much deeper. -/
theorem depth_around (use : StackUse) (values : List UInt8) :
    (use.around values).depth = values.length + use.depth := by
  induction values with
  | nil => exact (Nat.zero_add _).symm
  | cons value rest ih =>
    rw [around, depth, ih, depth, Nat.max_zero, List.length_cons, Nat.add_right_comm]

/-- The bytes come back last, in reverse order. -/
theorem items_around (use : StackUse) (values : List UInt8) :
    (use.around values).items = use.items ++ values.reverse.map .inl := by
  induction values with
  | nil => exact (List.append_nil _).symm
  | cons value rest ih =>
    rw [around, items, ih, items, List.reverse_cons, List.map_append, List.append_assoc]
    rfl

/-- The use runs between pushing the bytes and pulling them. -/
theorem run_around {β : Type} [Bus β] (use : StackUse) (values : List UInt8) (e : Execution β) :
    (use.around values).run e =
      ((use.run (e.pushAll values)).1 ++
          ((use.run (e.pushAll values)).2.pullAll values.length).1.map .inl,
        ((use.run (e.pushAll values)).2.pullAll values.length).2) := by
  induction values generalizing e with
  | nil => exact Prod.ext (List.append_nil _).symm rfl
  | cons value rest ih =>
    rw [List.length_cons, Execution.pullAll_succ, List.map_append, around, run, ih,
      ← List.append_assoc]
    rfl

/-- However deep the nesting, everything that is pushed comes back as long as it all fits into the
page. -/
theorem items_run_and_isUndone (use : StackUse) (e : Execution Memory) (h : use.depth ≤ 256) :
    (use.run e).1 = use.items ∧ e.IsUndone use.depth (use.run e).2 := by
  -- What is done within a push happens one or two cells further down, and what comes next begins
  -- where the whole began.
  induction use generalizing e with
  | nothing => exact ⟨rfl, .refl e⟩
  | byte value within next ihwithin ihnext =>
    let inner := within.run (e.push value)
    obtain ⟨hdeep, hnext⟩ := Nat.max_le.mp h
    obtain ⟨hinner, hundone⟩ := ihwithin (e.push value) (by omega)
    obtain ⟨hvalue, hundone⟩ := hundone.pull hdeep
    obtain ⟨hlater, hundone'⟩ := ihnext inner.2.pull.2 hnext
    refine ⟨?_, hundone.trans hundone'⟩
    change inner.1 ++ .inl inner.2.pull.1 :: (next.run inner.2.pull.2).1 = _
    rw [hinner, hvalue, hlater, items]
  | word value within next ihwithin ihnext =>
    let inner := within.run (e.pushWord value)
    obtain ⟨hdeep, hnext⟩ := Nat.max_le.mp h
    obtain ⟨hinner, hundone⟩ := ihwithin (e.pushWord value) (by omega)
    obtain ⟨hvalue, hundone⟩ := hundone.pullWord hdeep
    obtain ⟨hlater, hundone'⟩ := ihnext inner.2.pullWord.2 hnext
    refine ⟨?_, hundone.trans hundone'⟩
    change inner.1 ++ .inr inner.2.pullWord.1 :: (next.run inner.2.pullWord.2).1 = _
    rw [hinner, hvalue, hlater, items]

end StackUse

namespace Execution

variable (e : Execution Memory) {values : List UInt8}

/-- Bytes that were pushed before the stack was used come back after that. -/
theorem pullAll_run_pushAll (use : StackUse) (h : values.length + use.depth ≤ 256) :
    (use.run (e.pushAll values)).1 = use.items ∧
      ((use.run (e.pushAll values)).2.pullAll values.length).1 = values.reverse ∧
      e.IsUndone (values.length + use.depth)
        ((use.run (e.pushAll values)).2.pullAll values.length).2 := by
  rw [← StackUse.depth_around] at h ⊢
  obtain ⟨hitems, hundone⟩ := (use.around values).items_run_and_isUndone e h
  rw [StackUse.run_around] at hundone
  rw [StackUse.run_around, StackUse.items_around] at hitems
  have hdepth : use.depth ≤ 256 := by
    rw [StackUse.depth_around] at h
    omega
  have hinside := (use.items_run_and_isUndone (e.pushAll values) hdepth).1
  rw [hinside] at hitems
  have hpulled := List.append_cancel_left hitems
  exact ⟨hinside, (List.map_inj_right fun _ _ => Sum.inl.inj).mp hpulled, hundone⟩

/-- The bytes come back in reverse order, and memory is as the pushes have left it. -/
theorem pullAll_pushAll (h : values.length ≤ 256) :
    (e.pushAll values).pullAll values.length =
      (values.reverse, { e with port := (e.pushAll values).port }) := by
  obtain ⟨-, hpulled, ⟨memory, hmemory⟩, -⟩ := e.pullAll_run_pushAll .nothing h
  have hport := (e.pushAll values).pullAll_port_of_memory values.length
  change ((e.pushAll values).pullAll values.length).2 = _ at hmemory
  refine Prod.ext hpulled ?_
  rw [← hport, hmemory]

/-- A record of pushing and pulling shows the writes of the pushes, and no others. -/
theorem written_pullAll_pushAll (values : List UInt8) (count : ℕ) :
    ((((e.recorded.pushAll values).pullAll count).2.port.bus.log.toList.filter
      (·.direction = .write)).map (·.address)) =
        (List.range values.length).map (frameCell e.regs.s) := by
  have hport : e.recorded.port = ⟨⟨e.port.bus, #[], true⟩, e.port.lines⟩ := rfl
  rw [pullAll_port, pushAll_port, ← Port.transactAll_append, hport, Traced.transactAll_eq,
    Array.empty_append, written_accesses, List.filterMap_append, written_pulls, List.append_nil]
  exact written_pushes e.regs.s values

/-- Bytes that are pushed come back. -/
structure GivesBack (e : Execution Memory) (values : List UInt8) : Prop where
  /-- They come back in reverse order, and then the stack pointer and all other registers are as
  before. The world behind the pins is as the pushes have left it. -/
  pulled : (e.pushAll values).pullAll values.length =
    (values.reverse, { e with port := (e.pushAll values).port })
  /-- They come back also after nested uses of the stack for which there is room, and before them
  comes back what is pushed there. -/
  inside : ∀ use : StackUse, values.length + use.depth ≤ 256 →
    (use.run (e.pushAll values)).1 = use.items ∧
      ((use.run (e.pushAll values)).2.pullAll values.length).1 = values.reverse ∧
      ((use.run (e.pushAll values)).2.pullAll values.length).2.regs = e.regs
  /-- Each of them is in a cell of its own. -/
  cells : ∀ (i : ℕ) (hi : i < values.length),
    (e.pushAll values).port.bus.read (frameCell e.regs.s i) = values[i]
  /-- All other cells keep their bytes. -/
  others : ∀ address, (∀ i < values.length, address ≠ frameCell e.regs.s i) →
    (e.pushAll values).port.bus.read address = e.port.bus.read address
  /-- These cells are in page one, from the stack pointer downwards, and wrap around there. -/
  pageOne : ∀ i < values.length,
    ((frameCell e.regs.s i).toNat : ℤ) = 0x0100 + (e.regs.s.toNat - i : ℤ) % 256
  /-- They are written in this order, and no others are. -/
  written :
    ((((e.recorded.pushAll values).pullAll values.length).2.port.bus.log.toList.filter
      (·.direction = .write)).map (·.address)) = (List.range values.length).map (frameCell e.regs.s)

/-- Nested uses of the stack give back what they put there. -/
structure GivesBackNested (e : Execution Memory) (use : StackUse) : Prop where
  /-- Every byte and every word comes back. -/
  items : (use.run e).1 = use.items
  /-- After that everything but memory is as before, the stack pointer included. -/
  restored : ∃ memory, (use.run e).2 = { e with port.bus := memory }
  /-- All cells but those that were used keep their bytes. -/
  others : ∀ address, (∀ i < use.depth, address ≠ frameCell e.regs.s i) →
    (use.run e).2.port.bus.read address = e.port.bus.read address

/-- Whatever the registers and the memory hold, the stack gives back what is put there, as long as
no more than 256 bytes are on it at a time. -/
theorem givesBack_of_length_le {use : StackUse} (hvalues : values.length ≤ 256)
    (huse : use.depth ≤ 256) : e.GivesBack values ∧ e.GivesBackNested use := by
  obtain ⟨hitems, hundone⟩ := use.items_run_and_isUndone e huse
  refine ⟨?_, hitems, hundone.unchanged, hundone.others⟩
  constructor
  case pulled => exact e.pullAll_pushAll hvalues
  case inside =>
    intro use huse
    obtain ⟨hitems, hpulled, hundone⟩ := e.pullAll_run_pushAll use huse
    obtain ⟨memory, hmemory⟩ := hundone.unchanged
    refine ⟨hitems, hpulled, ?_⟩
    rw [hmemory]
  case cells =>
    intro i hi
    rw [pushAll_memory]
    exact e.port.bus.read_pushAll e.regs.s hvalues hi
  case others =>
    intro address haddress
    rw [pushAll_memory]
    exact e.port.bus.read_pushAll_of_ne e.regs.s haddress
  case pageOne => exact fun i _ => toNat_frameCell e.regs.s i
  case written => exact e.written_pullAll_pushAll values values.length

/-- A full page that begins two cells above the bottom of page one, and a word across the bottom
with a byte on top of it. -/
theorem givesBack_full_page :
    ∃ (e : Execution Memory) (values : List UInt8) (use : StackUse),
      values = (List.range 256).map UInt8.ofNat ∧
      use = .word 0xBEEF (.byte 0x42 .nothing .nothing) .nothing ∧
      frameCell e.regs.s 1 = 0x0100 ∧ frameCell e.regs.s 2 = 0x01FF ∧
      values.length ≤ 256 ∧ use.depth ≤ 256 ∧ e.GivesBack values ∧ e.GivesBackNested use := by
  let e : Execution Memory :=
    { regs := { s := 0x01 }, runMode := .running, inFlight := .ofOpcode 0xEA, port := ⟨.zeros, {}⟩ }
  let use : StackUse := .word 0xBEEF (.byte 0x42 .nothing .nothing) .nothing
  have hvalues : ((List.range 256).map UInt8.ofNat).length ≤ 256 := by simp
  have huse : use.depth ≤ 256 := by decide
  exact ⟨e, _, use, rfl, rfl, by decide, by decide, hvalues, huse,
    e.givesBack_of_length_le hvalues huse⟩

end Execution

end W65C02
