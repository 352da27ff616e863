import Interpose.Text.Escape

set_option autoImplicit false

namespace Interpose

namespace Hash

def offsetBasis : UInt64 := 14695981039346656037

/-- An odd number, so that no step loses anything: `2 ^ 44 + 435`. -/
def multiplier : UInt64 := 0x1000000001b3

def step (hash : UInt64) (byte : UInt8) : UInt64 := (hash ^^^ byte.toUInt64) * multiplier

def ofBytes (bytes : List UInt8) : UInt64 := bytes.foldl step offsetBasis

end Hash

def version : String := "0.1.0"

def fingerprint (source : String) : String :=
  let bytes := source.toUTF8.toList ++ version.toUTF8.toList
  .ofList (Text.paddedHex 16 (Hash.ofBytes bytes).toNat)

end Interpose
