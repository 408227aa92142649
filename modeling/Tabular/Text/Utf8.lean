/-!
Bytes and text. Decoding reads one byte at a time. Where bytes are ill-formed, each maximal start of
a character that could not go on counts as one fault; a lenient reader shows U+FFFD for it.
-/
namespace Tabular.Text.Utf8

/-- Between characters, or inside one: bytes still owed, the range of the next one, and the bits
read so far. -/
inductive State where
  | boundary
  | owing (count low high bits : Nat)
  deriving DecidableEq

/-- The first byte of a character. What is read is `none` for a fault. -/
def lead (b : Nat) : List (Option Char) × State :=
  if b < 0x80 then ([some (Char.ofNat b)], .boundary)
  else if 0xC2 ≤ b ∧ b ≤ 0xDF then ([], .owing 1 0x80 0xBF (b - 0xC0))
  else if 0xE0 ≤ b ∧ b ≤ 0xEF then
    ([], .owing 2 (if b = 0xE0 then 0xA0 else 0x80) (if b = 0xED then 0x9F else 0xBF) (b - 0xE0))
  else if 0xF0 ≤ b ∧ b ≤ 0xF4 then
    ([], .owing 3 (if b = 0xF0 then 0x90 else 0x80) (if b = 0xF4 then 0x8F else 0xBF) (b - 0xF0))
  else ([none], .boundary)

/-- A byte that cannot go on with the character begun is read again as a first byte. -/
def advance : State → Nat → List (Option Char) × State
  | .boundary, b => lead b
  | .owing count low high bits, b =>
    if low ≤ b ∧ b ≤ high then
      let bits := bits * 64 + (b - 0x80)
      if count = 1 then ([some (Char.ofNat bits)], .boundary)
      else ([], .owing (count - 1) 0x80 0xBF bits)
    else
      let (out, state) := lead b
      (none :: out, state)

def decodeFrom : State → List UInt8 → List (Option Char)
  | .boundary, [] => []
  | .owing .., [] => [none]
  | state, b :: bs =>
    let (out, state) := advance state b.toNat
    out ++ decodeFrom state bs

def decode (bytes : List UInt8) : List (Option Char) := decodeFrom .boundary bytes

def decode? (bytes : List UInt8) : Option (List Char) := (decode bytes).mapM id

def decodeLossy (bytes : List UInt8) : String :=
  String.ofList ((decode bytes).map (·.getD '\ufffd'))

def encodeChars (cs : List Char) : List UInt8 := cs.flatMap String.utf8EncodeChar

end Tabular.Text.Utf8
