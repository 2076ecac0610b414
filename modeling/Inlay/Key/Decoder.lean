import Inlay.Key
/-!
Keys from the bytes of a terminal. A chunk may end inside a key, so what is incomplete waits for
more bytes; only a pause in the input decides that a lone ESC was the Escape key.
-/

namespace Inlay.Key

/-- What the bytes at hand begin with: a key or nothing of use, of so many bytes, or the start of
something longer. -/
inductive Reading where
  | key (key : Key) (used : Nat)
  | skip (used : Nat)
  | incomplete
deriving DecidableEq, Repr

namespace Reading

def ofKey? (key? : Option Key) (used : Nat) : Reading :=
  match key? with
  | some k => .key k used
  | none => .skip used

/-- The reading of the bytes after an ESC, with the ESC counted in: the Alt modifier is dropped. -/
def afterEscape : Reading → Reading
  | .key k used => .key k (used + 1)
  | .skip used => .skip (used + 1)
  | .incomplete => .incomplete

end Reading

namespace Decoder

/-- A control sequence's key by its last byte and the parameters before. -/
def controlKey? (parameters : List UInt8) (final : UInt8) : Option Key :=
  if final = 0x41 then some .up
  else if final = 0x42 then some .down
  else if final = 0x43 then some .right
  else if final = 0x44 then some .left
  else if final = 0x48 then some .home
  else if final = 0x46 then some .end
  else if final = 0x7e then
    if parameters = [0x31] ∨ parameters = [0x37] then some .home
    else if parameters = [0x34] ∨ parameters = [0x38] then some .end
    else if parameters = [0x33] then some .delete
    else none
  else none

def applicationKey? (b : UInt8) : Option Key :=
  if b = 0x4d then some .enter
  else if b = 0x7e then none
  else controlKey? [] b

def isFinal (b : UInt8) : Bool := 0x40 ≤ b && b ≤ 0x7e

/-- Reads what follows `ESC [`. -/
def readControl (body : List UInt8) : Reading :=
  let parameters := body.takeWhile fun b => !isFinal b
  match body.drop parameters.length with
  | final :: _ => .ofKey? (controlKey? parameters final) (parameters.length + 3)
  | [] => .incomplete

def readChar (bytes : List UInt8) : Reading :=
  match (bytes.head?).bind Text.Utf8.announced? with
  | none => .skip 1
  | some length =>
      let own := bytes.take length
      if own.length < length then .incomplete
      else match Text.Utf8.char? own with
        | some c => .key (.char c) length
        | none => .skip 1

def read : List UInt8 → Reading
  | [] => .incomplete
  | b :: rest =>
      if b = 0x1b then
        match rest with
        | [] => .incomplete
        | next :: body =>
            if next = 0x5b then readControl body
            else if next = 0x4f then
              match body with
              | [] => .incomplete
              | final :: _ => .ofKey? (applicationKey? final) 3
            else if next = 0x1b then .key .escape 1
            else (read (next :: body)).afterEscape
      else if b = 0x0d ∨ b = 0x0a then .key .enter 1
      else if b = 0x7f ∨ b = 0x08 then .key .backspace 1
      else if b = 0x09 then .key .tab 1
      else if b = 0x03 ∨ b = 0x18 then .key .interrupt 1
      else if b < 0x20 then .skip 1
      else readChar (b :: rest)

/-- The keys that a byte string holds in full and the bytes left over. The first argument counts
the bytes of the key before that are still to be passed over. -/
def decodeFrom : Nat → List UInt8 → List Key × List UInt8
  | _, [] => ([], [])
  | skip + 1, _ :: rest => decodeFrom skip rest
  | 0, b :: rest =>
      match read (b :: rest) with
      | .key k used =>
          let (keys, pending) := decodeFrom (used - 1) rest
          (k :: keys, pending)
      | .skip used => decodeFrom (used - 1) rest
      | .incomplete => ([], b :: rest)

/-- The keys of bytes after which nothing follows: an ESC stands for itself, and a truncated
character is dropped. -/
def flushFrom : Nat → List UInt8 → List Key
  | _, [] => []
  | skip + 1, _ :: rest => flushFrom skip rest
  | 0, b :: rest =>
      if b = 0x1b then .escape :: flushFrom 0 rest
      else match read (b :: rest) with
        | .key k used => k :: flushFrom (used - 1) rest
        | .skip used => flushFrom (used - 1) rest
        | .incomplete => []

end Decoder

/-- Bytes that have arrived and are not yet a key. -/
structure Decoder where
  pending : List UInt8 := []
deriving DecidableEq, Repr

namespace Decoder

def process (decoder : Decoder) (bytes : List UInt8) : List Key × Decoder :=
  let (keys, pending) := decodeFrom 0 (decoder.pending ++ bytes)
  (keys, ⟨pending⟩)

def flush (decoder : Decoder) : List Key × Decoder := (flushFrom 0 decoder.pending, {})

def hasPending (decoder : Decoder) : Bool := !decoder.pending.isEmpty

end Decoder

end Inlay.Key
