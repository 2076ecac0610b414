/-!
Text is a list of characters. A text has a first line and one more after each line feed, so it
is never without a line.
-/

namespace Inlay

abbrev Text := List Char

instance : Coe String Text := ⟨String.toList⟩

namespace Text

/-- The first line of a text and the lines that follow a line feed. -/
def lines : Text → Text × List Text
  | [] => ([], [])
  | c :: rest =>
      let (first, others) := lines rest
      if c = '\n' then ([], first :: others) else (c :: first, others)

theorem lines_nil : lines [] = ([], []) := rfl

theorem lines_lineFeed (rest : Text) :
    lines ('\n' :: rest) = ([], (lines rest).1 :: (lines rest).2) := by
  simp [lines]

theorem lines_cons {c : Char} (rest : Text) (h : c ≠ '\n') :
    lines (c :: rest) = (c :: (lines rest).1, (lines rest).2) := by
  simp [lines, h]

def allLines (text : Text) : List Text :=
  (lines text).1 :: (lines text).2

def join (separator : Text) : List Text → Text
  | [] => []
  | [part] => part
  | part :: rest => part ++ separator ++ join separator rest

def decimal (n : Nat) : Text := Nat.toDigits 10 n

/-- The number in decimal, padded on the left with blanks to at least `width` characters. -/
def paddedDecimal (width n : Nat) : Text :=
  List.replicate (width - (decimal n).length) ' ' ++ decimal n

/-- Whether `part` occurs in `text` without a gap. -/
def includes (text part : Text) : Bool :=
  part.isPrefixOf text ||
    match text with
    | [] => false
    | _ :: rest => includes rest part

def before? (part : Text) : Text → Option Text
  | [] => if part.isEmpty then some [] else none
  | c :: rest =>
      if part.isPrefixOf (c :: rest) then some [] else (before? part rest).map (c :: ·)

/-- The natural number below `2 ^ 64` that a text spells: decimal digits after an optional plus
sign. -/
def word? (text : Text) : Option Nat :=
  let digits := match text with
    | '+' :: rest => rest
    | _ => text
  if digits.isEmpty || !digits.all Char.isDigit then none
  else
    let n := digits.foldl (fun n c => 10 * n + (c.toNat - '0'.toNat)) 0
    if n < UInt64.size then some n else none

/-- Capital letters of ASCII become small ones; every other character stays. -/
def asciiLowercase (text : Text) : Text := text.map Char.toLower

end Text

end Inlay
