/-!
# Hexadecimal numerals

Addresses and register values are reported in base sixteen with upper-case digits,
either as short as possible or padded with zeros to a fixed width.
-/

namespace W65C02.Hexadecimal

/-- The digits of a number in lower case, with zeros in front up to the given width. -/
def digits (width n : Nat) : List Char :=
  let shortest := Nat.toDigits 16 n
  List.replicate (width - shortest.length) '0' ++ shortest

/-- The upper-case numeral of a number, with zeros in front up to the given width. -/
def padded (width n : Nat) : String := String.ofList ((digits width n).map Char.toUpper)

/-- The shortest upper-case numeral of a number; zero is the single digit `0`. -/
def numeral (n : Nat) : String := padded 0 n

/-- An address in the customary notation: a dollar sign and four digits. -/
def address (a : UInt16) : String := "$" ++ padded 4 a.toNat

/-- An inclusive range of addresses. -/
def addressRange (first last : UInt16) : String := address first ++ "-" ++ address last

end W65C02.Hexadecimal
