/-!
Numbers of the format binary64 that are not negative. A finite one is a whole multiple of the
smallest, `2 ^ -1074`, and is kept as that multiple.
-/

namespace Inlay

inductive Binary64 where
  | finite (units : Nat)
  | infinite
deriving DecidableEq, Repr

namespace Binary64

def one : Nat := 1 <<< 1074

/-- The quotient rounded to a number of at most 53 significant bits, the nearest one and of two
equally near ones the even one. -/
def roundQuotient (dividend divisor : Nat) : Nat :=
  let shift := (dividend / divisor).log2 + 1 - 53
  let place := divisor <<< shift
  let whole := dividend / place
  let twice := 2 * (dividend % place)
  let up := place < twice ∨ (twice = place ∧ whole % 2 = 1)
  (if up then whole + 1 else whole) <<< shift

def ofUnits (units : Nat) : Binary64 :=
  if units < one <<< 1024 then .finite units else .infinite

/-- The number nearest to a decimal fraction with `places` digits after the point. -/
def ofDecimal (digits places : Nat) : Binary64 :=
  ofUnits (roundQuotient (digits * one) (Nat.pow 10 places))

def scale (factor : Nat) : Binary64 → Binary64
  | finite units => ofUnits (roundQuotient (units * factor) 1)
  | infinite => .infinite

def add : Binary64 → Binary64 → Binary64
  | finite a, finite b => ofUnits (roundQuotient (a + b) 1)
  | _, _ => .infinite

/-- The nearest whole number, a half going up, if it is below `limit`. -/
def roundBelow? (limit : Nat) : Binary64 → Option Nat
  | finite units =>
      if units < limit * one then some ((2 * units + one) / (2 * one)) else none
  | infinite => none

def digitsValue (text : List Char) : Nat :=
  text.foldl (fun n c => 10 * n + (c.toNat - '0'.toNat)) 0

/-- Reads decimal digits with at most one point among them. -/
def parse? (text : List Char) : Option Binary64 :=
  let whole := text.takeWhile Char.isDigit
  let fraction := text.drop (whole.length + 1)
  if whole.isEmpty && fraction.isEmpty then none
  else match text.drop whole.length with
    | [] => some (ofDecimal (digitsValue whole) 0)
    | point :: _ =>
        if point = '.' ∧ fraction.all Char.isDigit then
          some (ofDecimal (digitsValue (whole ++ fraction)) fraction.length)
        else none

end Binary64

end Inlay
