import Inlay.Text.Escape
/-!
The room a text takes on screen. Escape sequences take none and every other character one cell;
a width of zero stands for a terminal of unknown width, on which nothing wraps.
-/

namespace Inlay.Text.Measure

/-- Cells taken by the characters outside escape sequences, `skip` characters of one being still
ahead. -/
def visibleFrom : Nat → Text → Nat
  | _, [] => 0
  | skip + 1, _ :: rest => visibleFrom skip rest
  | 0, c :: rest =>
      match Escape.covered (c :: rest) with
      | 0 => visibleFrom 0 rest + 1
      | n + 1 => visibleFrom n rest

def visibleLength (text : Text) : Nat := visibleFrom 0 text

/-- Rows that a line of `visible` cells takes beyond its first. -/
def wrapRows (visible width : Nat) : Nat :=
  if width = 0 ∨ visible = 0 then 0 else (visible + width - 1) / width - 1

def countLineBreaks (text : Text) (width : Nat) : Nat :=
  (allLines text).foldl (fun rows line => rows + wrapRows (visibleLength line) width) 0

end Inlay.Text.Measure
