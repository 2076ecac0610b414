import Inlay.Painting

namespace Inlay.Prompt

inductive Phase where
  | pending
  | interacting
  | complete
  | cancelled
  | timedOut
deriving DecidableEq, Repr

namespace Phase

def isFinished : Phase → Bool
  | complete | cancelled | timedOut => true
  | pending | interacting => false

end Phase

def defaultHint : Text := "[Type ? for hint]"

def cancelledNote : Text := "(Cancelled)"

def timedOutNote : Text := "(Timed out)"

/-- Strokes that print a text and a line feed in one piece. -/
def printWhole (text : Text) : Stroke := .print (text ++ "\n")

def paintQuestion (style : Style) (message : Text) : Painting :=
  [.print (style.highlight "? "), .print (style.bold (message ++ ": "))]

/-- The hint, unless there is no help to give. -/
def paintHelp (style : Style) (help : Text) : Painting :=
  if help.isEmpty then []
  else [.printLine [], printWhole (style.hint (style.bold "  Hint:") ++ " " ++ style.hint help)]

/-- A rule as wide as the widest line, and the lines under it. -/
def paintFooter (style : Style) (lines : List Text) : Painting :=
  let width := (lines.map List.length).foldl max 0
  .printLine [] :: .printLine (style.gray (List.replicate width '─')) ::
    lines.map fun line => .printLine (style.gray line)

/-- What stands after the question once a prompt was called off. -/
def calledOffNote? : Phase → Option Text
  | .cancelled => some cancelledNote
  | .timedOut => some timedOutNote
  | _ => none

/-- The call for the hint, where there is help to be had. -/
def paintHintCall (style : Style) (help hint : Text) : Painting :=
  if help.isEmpty || hint.isEmpty then [] else [.print (style.gray (hint ++ " "))]

end Inlay.Prompt
