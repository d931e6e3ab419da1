import Thur.Lib.Bytes
/-!
# Text — key=value text and the values in it

Login and text PDUs carry `key=value` pairs separated by zero bytes, decoded leniently (`from_utf8_lossy`, a parameter).
Numbers and hex strings are parsed as the source's library does: an unsigned number may carry a plus sign, a hex string
is of even length in either case.
-/
namespace Thur.Iscsi

abbrev TextKeys := List (String × String)

def parsePair (lossy : Bytes → String) (part : Bytes) : Option (String × String) :=
  match part.dropWhile (· ≠ 61) with
  | [] => none
  | _ :: value => some (lossy (part.takeWhile (· ≠ 61)), lossy value)

def parseTextKv (lossy : Bytes → String) (buf : Bytes) : TextKeys :=
  ((buf.splitOn 0).filterMap (parsePair lossy)).reverse

/-! ## Values -/

def digitValue (c : Char) : Option Nat := if '0' ≤ c ∧ c ≤ '9' then some (c.toNat - 48) else none

def parseDigits : Nat → List Char → Option Nat
  | n, [] => some n
  | n, c :: cs => (digitValue c).bind fun d => parseDigits (10 * n + d) cs

def parseUnsigned (max : Nat) (s : String) : Option Nat :=
  let digits := match s.toList with
    | '+' :: cs => cs
    | cs => cs
  if digits.isEmpty then none else (parseDigits 0 digits).filter (· ≤ max)

def parseU8 (s : String) : Option UInt8 := (parseUnsigned 255 s).map UInt8.ofNat

def parseU32 (s : String) : Option Nat := parseUnsigned 4294967295 s

def eqIgnoreAsciiCase (s t : String) : Bool := s.toList.map Char.toLower == t.toList.map Char.toLower

def hexDigitValue (c : Char) : Option Nat :=
  if '0' ≤ c ∧ c ≤ '9' then some (c.toNat - 48)
  else if 'a' ≤ c ∧ c ≤ 'f' then some (c.toNat - 87)
  else if 'A' ≤ c ∧ c ≤ 'F' then some (c.toNat - 55)
  else none

def hexDecode : List Char → Option Bytes
  | [] => some []
  | [_] => none
  | hi :: lo :: cs => do
    let h ← hexDigitValue hi
    let l ← hexDigitValue lo
    let rest ← hexDecode cs
    return UInt8.ofNat (16 * h + l) :: rest

def hexDigit (n : Nat) : Char := if n < 10 then Char.ofNat (48 + n) else Char.ofNat (87 + n)

def hexEncode (b : Bytes) : List Char := b.flatMap fun x => [hexDigit (x.toNat / 16), hexDigit (x.toNat % 16)]

def trimHexMark : List Char → List Char
  | '0' :: 'x' :: cs => trimHexMark cs
  | cs => cs

def parseHexValue (s : String) : Option Bytes := hexDecode (trimHexMark s.toList)

def hexValue (b : Bytes) : String := String.ofList ('0' :: 'x' :: hexEncode b)

def utf8 (s : String) : Bytes := s.toUTF8.data.toList

end Thur.Iscsi
