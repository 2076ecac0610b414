import Inlay.Text
import Inlay.Text.ClusterTable
/-!
Extended grapheme clusters: what a reader takes for one character, and so what one stroke of the
backspace key removes. Their borders follow the rules GB3 to GB13 of Unicode 17, the one for Indic
conjuncts (GB9c) included; the tables give the classes that the rules speak of. Whether a cluster
ends between two characters hangs on the text before them, which is read backwards.
-/

namespace Inlay.Text.Cluster

open ClusterTable

inductive Break where
  | carriageReturn
  | lineFeed
  | control
  | extend
  | joiner
  | spacingMark
  | prepend
  | regionalIndicator
  | leadingJamo
  | vowelJamo
  | trailingJamo
  | openSyllable
  | closedSyllable
  | other
deriving DecidableEq, Repr

def inRanges (ranges : List (Nat × Nat)) (c : Char) : Bool :=
  ranges.any fun (a, b) => a ≤ c.toNat && c.toNat ≤ b

def breakOf (c : Char) : Break :=
  let n := c.toNat
  if n = 0x0d then .carriageReturn
  else if n = 0x0a then .lineFeed
  else if 0x20 ≤ n ∧ n < 0x7f then .other
  else if n = 0x200d then .joiner
  else if inRanges controlRanges c then .control
  else if inRanges extendRanges c then .extend
  else if inRanges spacingMarkRanges c then .spacingMark
  else if inRanges prependRanges c then .prepend
  else if 0x1f1e6 ≤ n ∧ n ≤ 0x1f1ff then .regionalIndicator
  else if inRanges leadingJamoRanges c then .leadingJamo
  else if inRanges vowelJamoRanges c then .vowelJamo
  else if inRanges trailingJamoRanges c then .trailingJamo
  else if 0xac00 ≤ n ∧ n ≤ 0xd7a3 then
    if (n - 0xac00) % 28 = 0 then .openSyllable else .closedSyllable
  else .other

def isPictograph (c : Char) : Bool := inRanges pictographRanges c

def isConjunctConsonant (c : Char) : Bool := inRanges conjunctConsonantRanges c

def isConjunctLinker (c : Char) : Bool := conjunctLinkers.contains c.toNat

/-- Marks that may stand between the consonants of a conjunct. -/
def isConjunctMark (c : Char) : Bool :=
  (breakOf c == .extend || breakOf c == .joiner) && c.toNat != 0x200c

/-- What GB9c asks for before a consonant: a consonant and after it marks with a linker among
them. The text is read backwards. -/
def endsInLinkedConsonant (linked : Bool) : Text → Bool
  | [] => false
  | c :: before =>
      if isConjunctLinker c then endsInLinkedConsonant true before
      else if isConjunctMark c then endsInLinkedConsonant linked before
      else linked && isConjunctConsonant c

/-- What GB11 asks for before a joiner: a pictograph and marks that extend it. The text is read
backwards. -/
def endsInPictograph : Text → Bool
  | [] => false
  | c :: before => if breakOf c = .extend then endsInPictograph before else isPictograph c

/-- Whether a cluster ends before `c` in a text that, read backwards, starts with `previous`. -/
def endsBetween (previous : Char) (before : Text) (c : Char) : Bool :=
  match breakOf previous, breakOf c with
  -- GB3 to GB5
  | .carriageReturn, .lineFeed => false
  | .carriageReturn, _ | .lineFeed, _ | .control, _ => true
  | _, .carriageReturn | _, .lineFeed | _, .control => true
  -- GB6 to GB8
  | .leadingJamo, .leadingJamo | .leadingJamo, .vowelJamo | .leadingJamo, .openSyllable
  | .leadingJamo, .closedSyllable => false
  | .openSyllable, .vowelJamo | .openSyllable, .trailingJamo | .vowelJamo, .vowelJamo
  | .vowelJamo, .trailingJamo => false
  | .closedSyllable, .trailingJamo | .trailingJamo, .trailingJamo => false
  -- GB9, GB9a and GB9b
  | _, .extend | _, .joiner | _, .spacingMark => false
  | .prepend, _ => false
  -- GB12 and GB13
  | .regionalIndicator, .regionalIndicator =>
      (before.takeWhile fun b => breakOf b = .regionalIndicator).length % 2 = 1
  -- GB9c and GB11
  | previousBreak, _ =>
      !(isConjunctConsonant c && endsInLinkedConsonant false (previous :: before)) &&
        !(previousBreak == .joiner && isPictograph c && endsInPictograph before)

/-- A text read backwards without its last cluster. -/
def dropFirstBackwards : Text → Text
  | [] => []
  | [_] => []
  | c :: previous :: before =>
      if endsBetween previous before c then previous :: before
      else dropFirstBackwards (previous :: before)

def dropLast (text : Text) : Text := (dropFirstBackwards text.reverse).reverse

end Inlay.Text.Cluster
