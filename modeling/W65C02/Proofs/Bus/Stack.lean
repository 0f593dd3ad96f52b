import W65C02.Bus.Memory
import W65C02.Registers

/-!
# The stack in memory

The stack lies in page one and wraps around within it. What is pushed stands in the cells from the
stack pointer downwards, and all other cells keep their bytes, as long as no more is pushed than the
page can hold.
-/

namespace W65C02

/-- The stack is in the second page. -/
theorem toNat_stackAddress (s : UInt8) : (stackAddress s).toNat = 256 + s.toNat := by
  have hword : stackAddress s = wordOfBytes s 1 := rfl
  rw [hword, wordOfBytes_toNat]
  rfl

/-- Different stack pointers point to different cells. -/
theorem stackAddress_inj {s t : UInt8} : stackAddress s = stackAddress t ↔ s = t := by
  rw [← UInt16.toNat_inj, toNat_stackAddress, toNat_stackAddress, Nat.add_left_cancel_iff,
    UInt8.toNat_inj]

namespace Memory

/-- The word at an address, the low byte first. -/
def word (m : Memory) (address : UInt16) : UInt16 :=
  wordOfBytes (m.read address) (m.read (address + 1))

/-- Memory after bytes were pushed with the stack pointer at its place before. -/
def pushAll (m : Memory) (s : UInt8) : List UInt8 → Memory
  | [] => m
  | value :: rest => (m.write (stackAddress s) value).pushAll (s - 1) rest

/-- The cell of a pushed byte, given how many bytes were pushed before it. -/
def frameCell (s : UInt8) (i : Nat) : UInt16 := stackAddress (s - UInt8.ofNat i)

/-- The first cell of a frame is that of the stack pointer. -/
@[simp] theorem frameCell_zero (s : UInt8) : frameCell s 0 = stackAddress s :=
  congrArg stackAddress (UInt8.sub_zero s)

/-- The cells behind it are those of the next stack pointer. -/
theorem frameCell_succ (s : UInt8) (i : Nat) : frameCell s (i + 1) = frameCell (s - 1) i := by
  have hbelow : s - UInt8.ofNat (i + 1) = s - 1 - UInt8.ofNat i := by
    rw [UInt8.ofNat_add]
    grind
  rw [frameCell, frameCell, hbelow]

/-- Counted in integers, the cells go down from the stack pointer and wrap around within page
one. -/
theorem toNat_frameCell (s : UInt8) (i : Nat) :
    ((frameCell s i).toNat : Int) = 0x0100 + (s.toNat - i : Int) % 256 := by
  have hs := s.toNat_lt
  rw [frameCell, toNat_stackAddress, UInt8.toNat_sub, UInt8.toNat_ofNat']
  omega

/-- A page holds 256 bytes. -/
theorem frameCell_ne {s : UInt8} {i : Nat} (hi : i < 255) :
    frameCell (s - 1) i ≠ stackAddress s := by
  intro heq
  have hsame := stackAddress_inj.mp heq
  have hnat := congrArg UInt8.toNat hsame
  have hs := s.toNat_lt
  simp only [UInt8.toNat_sub, UInt8.toNat_ofNat', UInt8.reduceToNat] at hnat
  omega

/-- Nothing but the cells of the pushed bytes changes. -/
theorem read_pushAll_of_ne (m : Memory) (s : UInt8) {values : List UInt8} {address : UInt16}
    (haddress : ∀ i < values.length, address ≠ frameCell s i) :
    (m.pushAll s values).read address = m.read address := by
  induction values generalizing m s with
  | nil => rfl
  | cons value rest ih =>
    have hfirst : address ≠ stackAddress s := by
      rw [← frameCell_zero]
      exact haddress 0 (Nat.zero_lt_succ _)
    have hrest : ∀ i < rest.length, address ≠ frameCell (s - 1) i := fun i hi => by
      rw [← frameCell_succ]
      exact haddress (i + 1) (Nat.succ_lt_succ hi)
    rw [pushAll, ih _ _ hrest, read_write, if_neg hfirst.symm]

/-- Every pushed byte stands in its cell. -/
theorem read_pushAll (m : Memory) (s : UInt8) {values : List UInt8} (hlength : values.length ≤ 256)
    {i : Nat} (hi : i < values.length) : (m.pushAll s values).read (frameCell s i) = values[i] := by
  induction values generalizing m s i with
  | nil => cases hi
  | cons value rest ih =>
    have hfits : rest.length ≤ 255 := Nat.le_of_succ_le_succ hlength
    cases i with
    | zero =>
      have hrest : ∀ j < rest.length, stackAddress s ≠ frameCell (s - 1) j := fun j hj =>
        (frameCell_ne (Nat.lt_of_lt_of_le hj hfits)).symm
      rw [frameCell_zero, pushAll, read_pushAll_of_ne _ _ hrest, read_write, if_pos rfl]
      rfl
    | succ i =>
      rw [frameCell_succ]
      exact ih _ _ (Nat.le_succ_of_le hfits) (Nat.lt_of_succ_lt_succ hi)

end Memory

end W65C02
