import Inlay.Painting
import Inlay.Text.Lowercase
import Inlay.Text.Utf8

namespace Inlay.Prompt

open Text

structure Choice where
  value : Text
  label : Text
deriving DecidableEq, Repr

structure Choices where
  entries : List Choice
  /-- Indexes of the entries that match the filter. -/
  filtered : List Nat
  /-- Place of the highlighted row among the filtered ones. -/
  current : Option Nat := none
  filter : Text := []
  displayCount : Nat
  displayNumbers : Bool
deriving DecidableEq, Repr

namespace Choices

def ofEntries (entries : List Choice) (displayCount : Nat) (displayNumbers : Bool) : Choices where
  entries := entries
  filtered := List.range entries.length
  displayCount := max displayCount 1
  displayNumbers := displayNumbers

def isEmpty (cs : Choices) : Bool := cs.filtered.isEmpty

/-- Highlights the entry with an index, if it is in the list, and otherwise none. -/
def highlight (cs : Choices) (index : Nat) : Choices :=
  { cs with current := cs.filtered.idxOf? index }

def highlighted? (cs : Choices) : Option Nat := cs.current.bind fun place => cs.filtered[place]?

def moveUp (cs : Choices) : Choices :=
  let count := cs.filtered.length
  if count = 0 then cs
  else { cs with current := some ((cs.current.getD 0 + count - 1) % count) }

def moveDown (cs : Choices) : Choices :=
  let count := cs.filtered.length
  if count = 0 then cs
  else
    { cs with
      current := some (match cs.current with
        | some place => (place + 1) % count
        | none => 0) }

/-- Whether an entry contains the filter in its value or label, case aside. With numbers shown, a
filter that spells the entry's number matches too. -/
def isMatch (displayNumbers : Bool) (filter : Text) (index : Nat) (entry : Choice) : Bool :=
  let needle := Lowercase.lowercase filter
  needle.isEmpty || (displayNumbers && word? filter = some (index + 1)) ||
    includes (Lowercase.lowercase entry.value) needle ||
    includes (Lowercase.lowercase entry.label) needle

def matching (displayNumbers : Bool) (filter : Text) (index : Nat) : List Choice → List Nat
  | [] => []
  | entry :: rest =>
      let later := matching displayNumbers filter (index + 1) rest
      if isMatch displayNumbers filter index entry then index :: later else later

/-- Narrows the list. The highlight keeps its place if there is still a row, and otherwise goes to
the first. -/
def setFilter (cs : Choices) (filter : Text) : Choices :=
  if filter = cs.filter then cs
  else
    let filtered := matching cs.displayNumbers filter 0 cs.entries
    let current :=
      if filtered.isEmpty then none
      else match cs.current with
        | some place => if place < filtered.length then some place else some 0
        | none => some 0
    { cs with filter := filter, filtered := filtered, current := current }

/-- The rows from the first to the second number, so that `selected` is near their middle. -/
def window (selected display total : Nat) : Nat × Nat :=
  let half := display / 2
  if selected < half then (0, min total display)
  else
    let start := selected - half
    if total < start + display then (total - display, total) else (start, start + display)

/-- A label with the first occurrence of the filter underlined, case aside. Where small letters
take other bytes than the label's own, the place cannot be told and the label stays. -/
def underlineMatch (style : Style) (label filter : Text) : Text :=
  if filter.isEmpty then label
  else
    let lower := Lowercase.lowercase label
    let needle := Lowercase.lowercase filter
    if Utf8.byteLength lower ≠ Utf8.byteLength label then label
    else match before? needle lower with
      | none => label
      | some before =>
          match Utf8.splitAtByte? (Utf8.byteLength before) label with
          | none => label
          | some (first, rest) =>
              match Utf8.splitAtByte? (Utf8.byteLength needle) rest with
              | none => label
              | some (found, last) => first ++ style.underline found ++ last

structure Row where
  index : Nat
  label : Text
  number : Text
  isHighlighted : Bool
deriving DecidableEq, Repr

def rowsFrom (cs : Choices) (style : Style) (place : Nat) : List Nat → List Row
  | [] => []
  | index :: rest =>
      let digits := (decimal cs.entries.length).length
      let label := (cs.entries[index]?.map Choice.label).getD []
      let row : Row :=
        { index := index
          label := underlineMatch style label cs.filter
          number := if cs.displayNumbers then paddedDecimal digits (index + 1) ++ ". " else []
          isHighlighted := cs.current = some place }
      row :: rowsFrom cs style (place + 1) rest

def shownWindow (cs : Choices) : Nat × Nat :=
  window (cs.current.getD 0) cs.displayCount cs.filtered.length

def rows (cs : Choices) (style : Style) : List Row :=
  let (start, stop) := cs.shownWindow
  cs.rowsFrom style start ((cs.filtered.take stop).drop start)

/-- The window with an ellipsis above and below where rows are hidden. -/
def painting (cs : Choices) (style : Style) (paintRow : Row → Painting) : Painting :=
  let (start, stop) := cs.shownWindow
  (if 0 < start then [.print "    ...\n"] else []) ++
    (cs.rows style).flatMap paintRow ++
    (if stop < cs.filtered.length then
      [.print ((if 10 ≤ stop then "   ...\n" else "    ...\n"))] else [])

end Choices

end Inlay.Prompt
