import Inlay.Text.Utf8

namespace Inlay

structure Capture where
  bytes : List UInt8 := []
deriving DecidableEq, Repr

namespace Capture

def write (c : Capture) (bytes : List UInt8) : Nat × Capture :=
  (bytes.length, ⟨c.bytes ++ bytes⟩)

def contents (c : Capture) : Text := Text.Utf8.lossy c.bytes

def size (c : Capture) : Nat := c.bytes.length

def isEmpty (c : Capture) : Bool := c.bytes.isEmpty

/-- The contents, after which nothing is left. -/
def take (c : Capture) : Text × Capture := (c.contents, {})

end Capture

end Inlay
