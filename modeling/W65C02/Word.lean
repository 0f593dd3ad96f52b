/-!
# Bytes and words

Words are made of two bytes, and bytes are widened to words with or without their sign.
-/

namespace W65C02

/-- The word with the given low and high bytes. -/
def wordOfBytes (low high : UInt8) : UInt16 := high.toUInt16 <<< 8 ||| low.toUInt16

/-- The low byte of a word. -/
def lowByte (w : UInt16) : UInt8 := w.toUInt8

/-- The high byte of a word. -/
def highByte (w : UInt16) : UInt8 := (w >>> 8).toUInt8

/-- A byte read as a two's-complement displacement and widened to a word. -/
def signExtend (b : UInt8) : UInt16 :=
  if b &&& 0x80 = 0 then b.toUInt16 else 0xFF00 ||| b.toUInt16

/-- Replaces the low byte of a word. -/
def setLowByte (w : UInt16) (b : UInt8) : UInt16 := (w &&& 0xFF00) ||| b.toUInt16

/-- Replaces the high byte of a word. -/
def setHighByte (w : UInt16) (b : UInt8) : UInt16 := b.toUInt16 <<< 8 ||| (w &&& 0x00FF)

/-- A statement about bytes is settled byte by byte. -/
theorem forall_byte {p : UInt8 → Prop} (h : ∀ n : Fin 256, p (UInt8.ofNat n.val)) :
    ∀ b, p b := by
  intro b
  have hb := h b.toFin
  rwa [show UInt8.ofNat b.toFin.val = b from UInt8.ofNat_toNat] at hb

/-- A word is 256 times its high byte plus its low byte. -/
theorem wordOfBytes_toNat (low high : UInt8) :
    (wordOfBytes low high).toNat = 256 * high.toNat + low.toNat := by
  have hlow := low.toNat_lt
  have hhigh := high.toNat_lt
  have hor := Nat.shiftLeft_add_eq_or_of_lt (show low.toNat < 2 ^ 8 from hlow) high.toNat
  rw [Nat.shiftLeft_eq, show 2 ^ 8 = 256 from rfl] at hor
  have hmod : high.toNat * 256 % 65536 = high.toNat * 256 := Nat.mod_eq_of_lt (by omega)
  simp only [wordOfBytes, UInt16.toNat_or, UInt16.toNat_shiftLeft, UInt8.toNat_toUInt16,
    UInt16.reduceToNat, Nat.shiftLeft_eq, Nat.reduceMod, Nat.reducePow, hmod]
  omega

/-- Taking a word apart and putting it together again changes nothing. -/
theorem wordOfBytes_lowByte_highByte (w : UInt16) : wordOfBytes (lowByte w) (highByte w) = w := by
  apply UInt16.toNat_inj.mp
  have hw := w.toNat_lt
  simp [wordOfBytes_toNat, lowByte, highByte, Nat.shiftRight_eq_div_pow]
  omega

end W65C02
