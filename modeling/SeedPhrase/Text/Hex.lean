/-!
# Bytes in hexadecimal

Every byte is written with two digits, the lowercase letters serving as the
digits above nine.
-/

namespace SeedPhrase.Text

/-- The sixteen digits. -/
def hexDigit (n : Fin 16) : Char :=
  #v['0', '1', '2', '3', '4', '5', '6', '7', '8', '9', 'a', 'b', 'c', 'd', 'e', 'f'].get n

/-- The two digits of a byte. -/
def hexByte (byte : UInt8) : List Char :=
  [hexDigit (Fin.ofNat 16 (byte.toNat / 16)), hexDigit (Fin.ofNat 16 byte.toNat)]

/-- Bytes in hexadecimal, in their order and with nothing between them. -/
def hex (bytes : List UInt8) : String :=
  String.ofList (bytes.flatMap hexByte)

end SeedPhrase.Text
