namespace EndpointCatalog.Text

abbrev Bytes := List UInt8

namespace Bytes

/-- How many bytes a leading byte asks for, and the bounds of the first of them. -/
def follow? (b : UInt8) : Option (Nat × UInt8 × UInt8) :=
  if b < 0x80 then some (0, 0x80, 0xBF)
  else if 0xC2 ≤ b && b ≤ 0xDF then some (1, 0x80, 0xBF)
  else if b == 0xE0 then some (2, 0xA0, 0xBF)
  else if b == 0xED then some (2, 0x80, 0x9F)
  else if 0xE1 ≤ b && b ≤ 0xEF then some (2, 0x80, 0xBF)
  else if b == 0xF0 then some (3, 0x90, 0xBF)
  else if 0xF1 ≤ b && b ≤ 0xF3 then some (3, 0x80, 0xBF)
  else if b == 0xF4 then some (3, 0x80, 0x8F)
  else none

def isTail (b : UInt8) : Bool := 0x80 ≤ b && b ≤ 0xBF

def leadBits (b : UInt8) (n : Nat) : Nat :=
  match n with
  | 0 => b.toNat
  | 1 => b.toNat % 0x20
  | 2 => b.toNat % 0x10
  | _ => b.toNat % 0x08

def tails (n : Nat) (lo hi : UInt8) : Bytes → Bytes
  | [] => []
  | b :: bs => if 0 < n && lo ≤ b && b ≤ hi then b :: (bs.take (n - 1)).takeWhile isTail else []

/-- The first piece of `b :: bs`, and how many bytes of `bs` belong to it. -/
def piece (b : UInt8) (bs : Bytes) : Option Char × Nat :=
  match follow? b with
  | none => (none, 0)
  | some (n, lo, hi) =>
    let ts := tails n lo hi bs
    if ts.length = n then
      (some (Char.ofNat (ts.foldl (fun v t => v * 0x40 + t.toNat % 0x40) (leadBits b n))), n)
    else (none, ts.length)

def pieces : Bytes → List (Option Char)
  | [] => []
  | b :: bs => (piece b bs).1 :: pieces (bs.drop (piece b bs).2)
termination_by bs => bs.length
decreasing_by simp only [List.length_cons, List.length_drop]; omega

def decode? (bs : Bytes) : Option String := ((pieces bs).mapM id).map String.ofList

/-- The text that the bytes spell, with U+FFFD for each fault. -/
def decodeLossy (bs : Bytes) : String := String.ofList ((pieces bs).map (·.getD '\uFFFD'))

def encode (s : String) : Bytes := s.toList.flatMap String.utf8EncodeChar

end Bytes

end EndpointCatalog.Text
