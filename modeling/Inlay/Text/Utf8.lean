import Inlay.Text

namespace Inlay.Text.Utf8

def encode (text : Text) : List UInt8 := text.flatMap String.utf8EncodeChar

def byteLength : Text → Nat
  | [] => 0
  | c :: rest => c.utf8Size + byteLength rest

theorem encode_cons (c : Char) (rest : Text) :
    encode (c :: rest) = String.utf8EncodeChar c ++ encode rest := rfl

theorem encode_append (a b : Text) : encode (a ++ b) = encode a ++ encode b := by
  simp [encode]

theorem infix_encode {a b : Text} (h : a <:+: b) : encode a <:+: encode b := by
  obtain ⟨before, after, rfl⟩ := h
  rw [encode_append, encode_append]
  exact ⟨_, _, rfl⟩

theorem length_encode (text : Text) : (encode text).length = byteLength text := by
  induction text with
  | nil => rfl
  | cons c rest ih => simp [encode_cons, ih, byteLength]

/-- Splits a text after `n` bytes, if a character ends there. -/
def splitAtByte? : Nat → Text → Option (Text × Text)
  | 0, text => some ([], text)
  | _, [] => none
  | n, c :: rest =>
      if c.utf8Size ≤ n then
        (splitAtByte? (n - c.utf8Size) rest).map fun (a, b) => (c :: a, b)
      else none

def isContinuation (b : UInt8) : Bool := 0x80 ≤ b && b < 0xc0

/-- How many bytes a lead byte announces; none for a byte that leads nothing. -/
def announced? (b : UInt8) : Option Nat :=
  if b < 0x80 then some 1
  else if b < 0xc0 then none
  else if b < 0xe0 then some 2
  else if b < 0xf0 then some 3
  else if b < 0xf8 then some 4
  else none

/-- The scalar value that a lead byte and its continuation bytes spell. -/
def scalar (lead : Nat) (continuations : List UInt8) : Nat :=
  continuations.foldl (fun n b => 64 * n + (b.toNat - 0x80)) lead

/-- The character whose UTF-8 form the bytes are. -/
def char? : List UInt8 → Option Char
  | [] => none
  | [b] => if b < 0x80 then some (Char.ofNat b.toNat) else none
  | b :: more =>
      let (lead, least) := match more.length with
        | 1 => (b.toNat - 0xc0, 0x80)
        | 2 => (b.toNat - 0xe0, 0x800)
        | _ => (b.toNat - 0xf0, 0x10000)
      let n := scalar lead more
      if announced? b = some (more.length + 1) ∧ more.all isContinuation ∧ least ≤ n ∧ n.isValidChar
      then some (Char.ofNat n) else none

def replacement : Char := '\uFFFD'

/-- The continuation bytes that may stand right after a lead byte. -/
def mayFollow (lead next : UInt8) : Bool :=
  if lead = 0xe0 then 0xa0 ≤ next && next < 0xc0
  else if lead = 0xed then 0x80 ≤ next && next < 0xa0
  else if lead = 0xf0 then 0x90 ≤ next && next < 0xc0
  else if lead = 0xf4 then 0x80 ≤ next && next < 0x90
  else isContinuation next

/-- The length of the longest start of the bytes that some well-formed character begins with. -/
def wellFormedStart : List UInt8 → Nat
  | [] => 0
  | lead :: more =>
      if lead < 0xc2 || 0xf5 ≤ lead then 1
      else match more with
        | next :: later =>
            if mayFollow lead next then
              2 + ((later.take ((announced? lead).getD 0 - 2)).takeWhile isContinuation).length
            else 1
        | [] => 1

/-- Reads bytes as UTF-8; each longest ill-formed part becomes one replacement character. The
first argument counts the bytes of the part before that are still to be passed over. -/
def lossyFrom : Nat → List UInt8 → Text
  | _, [] => []
  | skip + 1, _ :: rest => lossyFrom skip rest
  | 0, b :: rest =>
      let used := wellFormedStart (b :: rest)
      (char? ((b :: rest).take used)).getD replacement :: lossyFrom (used - 1) rest

def lossy (bytes : List UInt8) : Text := lossyFrom 0 bytes

end Inlay.Text.Utf8
