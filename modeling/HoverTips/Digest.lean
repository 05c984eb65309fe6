import HoverTips.Json

/-!
# Digests

Records are identified by a 64-bit FNV-1a digest of what they are about. The bytes under the digest
are a text with a mark behind it that no text contains, and offsets of eight bytes each, the least
significant first, so different tuples have different bytes.
-/

namespace HoverTips.Digest

def basis : UInt64 := 0xcbf29ce484222325

def prime : UInt64 := 0x100000001b3

def step (digest : UInt64) (byte : UInt8) : UInt64 := (digest ^^^ byte.toUInt64) * prime

def ofBytes (bytes : List UInt8) : UInt64 := bytes.foldl step basis

/-- The bytes that stand for a text: its UTF-8 form and a byte that UTF-8 does not use. -/
def textBytes (s : String) : List UInt8 := s.toUTF8.toList ++ [0xFF]

/-- The bytes that stand for an offset, modulo 2^64. -/
def offsetBytes (n : Nat) : List UInt8 :=
  (List.range 8).map fun i => UInt8.ofNat (n / Nat.pow 256 i % 256)

/-- The sixteen digits of a digest. -/
def hex (digest : UInt64) : String :=
  String.ofList ((List.range 16).map fun i => Json.hexDigit (digest.toNat / Nat.pow 16 (15 - i) % 16))

def ofSpan (block : String) (start stop : Nat) : UInt64 :=
  ofBytes (textBytes block ++ offsetBytes start ++ offsetBytes stop)

def ofMessage (block : String) (start stop : Nat) (message : String) : UInt64 :=
  ofBytes (textBytes block ++ offsetBytes start ++ offsetBytes stop ++ textBytes message)

end HoverTips.Digest
