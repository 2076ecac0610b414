import Inlay.Text

namespace Inlay.Cursor

inductive Command where
  | up (n : Nat)
  | down (n : Nat)
  | left (n : Nat)
  | right (n : Nat)
  | startOfLine
  | clearLine
  | hide
  | show
deriving DecidableEq, Repr

def hideSequence : Text := "\x1b[?25l"

def showSequence : Text := "\x1b[?25h"

/-- A move by nothing is no sequence: terminals read a count of zero as one. -/
def move (n : Nat) (direction : Char) : Text :=
  if n = 0 then [] else "\x1b[" ++ Text.decimal n ++ [direction]

def Command.sequence : Command → Text
  | .up n => move n 'A'
  | .down n => move n 'B'
  | .right n => move n 'C'
  | .left n => move n 'D'
  | .startOfLine => "\r"
  | .clearLine => "\x1b[2K\r"
  | .hide => hideSequence
  | .show => showSequence

def sequences (commands : List Command) : Text := commands.flatMap Command.sequence

end Inlay.Cursor
