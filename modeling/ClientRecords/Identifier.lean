import ClientRecords.Arithmetic
/-!
Identifiers of random numbers: 32 hexadecimal digits in five groups. Of the 128 bits, 122 are those
of the number; the others tell that it is random.
-/

namespace ClientRecords.Identifier

/-- The last digits of a number in hexadecimal. -/
def hex : Nat → Nat → List Char
  | 0, _ => []
  | n + 1, k => hex n (k / 16) ++ [Nat.digitChar (k % 16)]

/-- The identifier of a number; numbers that differ below the bit 122 have different ones. -/
def ofNumber (n : Nat) : String :=
  let low := hex 16 (pow2 63 + n % pow2 62)
  String.ofList (hex 8 (n / pow2 90) ++ '-' :: hex 4 (n / pow2 74)
    ++ '-' :: '4' :: hex 3 (n / pow2 62) ++ '-' :: low.take 4 ++ '-' :: low.drop 4)

end ClientRecords.Identifier
