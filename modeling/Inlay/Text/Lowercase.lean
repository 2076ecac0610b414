import Inlay.Text
import Inlay.Text.CaseTable
/-!
The small form of a text. Two characters are not replaced one by one: capital I with a dot above
becomes two characters, and capital sigma has a form of its own at the end of a word.
-/

namespace Inlay.Text.Lowercase

open CaseTable

/-- Whether the next character that is not passed over has a letter case. -/
def meetsCased (text : Text) : Bool :=
  match text.dropWhile fun c => isCaseIgnorable c.toNat with
  | c :: _ => isCased c.toNat
  | [] => false

/-- Small forms of one character, given the text before it, read backwards, and after it. -/
def smallForms (before : Text) (c : Char) (after : Text) : Text :=
  if c = 'Σ' then [if meetsCased before && !meetsCased after then 'ς' else 'σ']
  else if c = 'İ' then ['i', '\u0307']
  else if c.toNat < 0x80 then [c.toLower]
  else match small? c.toNat with
    | some n => [Char.ofNat n]
    | none => [c]

def lowercaseFrom (before : Text) : Text → Text
  | [] => []
  | c :: after => smallForms before c after ++ lowercaseFrom (c :: before) after

def lowercase (text : Text) : Text := lowercaseFrom [] text

end Inlay.Text.Lowercase
