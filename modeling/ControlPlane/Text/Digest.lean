import ControlPlane.Text.Quoted

/-!
# Digests of texts

The 64-bit Fowler–Noll–Vo digest (variant 1a): each byte is mixed in by exclusive or, then the state is
multiplied by a fixed prime modulo 2^64.
-/
namespace ControlPlane.Text

/-- The state before the first byte. -/
def digestStart : UInt64 := 0xcbf29ce484222325

/-- The multiplier. -/
def digestPrime : UInt64 := 0x100000001b3

def digestByte (state : UInt64) (byte : UInt8) : UInt64 :=
  (state ^^^ byte.toUInt64) * digestPrime

def digest (s : String) : UInt64 :=
  s.toUTF8.foldl digestByte digestStart

def digestLines (lines : List String) : String :=
  hex 16 (digest ("\n".intercalate lines)).toNat

end ControlPlane.Text
