import Inlay.Text

namespace Inlay

structure Style where
  color : Bool
deriving DecidableEq, Repr

namespace Style

def plain : Style := ⟨false⟩

def colored : Style := ⟨true⟩

inductive Tone where
  | highlight
  | error
  | warning
  | success
  | gray
  | hint
  | bold
deriving DecidableEq, Repr

def Tone.code : Tone → Text
  | .highlight => "36"
  | .error => "31"
  | .warning => "33"
  | .success => "32"
  | .gray => "90"
  | .hint => "35"
  | .bold => "1"

/-- Text in a tone. Without colour, and for no text at all, nothing is added. -/
def tint (style : Style) (tone : Tone) (text : Text) : Text :=
  if style.color && !text.isEmpty then
    "\x1b[" ++ tone.code ++ "m" ++ text ++ "\x1b[0m"
  else text

def highlight (style : Style) (text : Text) : Text := style.tint .highlight text

def error (style : Style) (text : Text) : Text := style.tint .error text

def warning (style : Style) (text : Text) : Text := style.tint .warning text

def success (style : Style) (text : Text) : Text := style.tint .success text

def gray (style : Style) (text : Text) : Text := style.tint .gray text

def hint (style : Style) (text : Text) : Text := style.tint .hint text

def bold (style : Style) (text : Text) : Text := style.tint .bold text

def underline (style : Style) (text : Text) : Text :=
  if style.color && !text.isEmpty then "\x1b[4m" ++ text ++ "\x1b[24m" else text

/-- Text that leads to an address; without colour the address stands beside the text. -/
def hyperlink (style : Style) (url text : Text) : Text :=
  if style.color then
    "\x1b]8;;" ++ url ++ "\x1b\\" ++ text ++ "\x1b]8;;\x1b\\"
  else if text.isEmpty || text = url then url
  else text ++ " (" ++ url ++ ")"

/-- Text with its styling not yet decided. -/
inductive Marked where
  | text (text : Text)
  | tint (tone : Tone) (inner : Marked)
  | underline (inner : Marked)
  | hyperlink (url : Text) (inner : Marked)
  | append (first second : Marked)
deriving DecidableEq, Repr

def render (style : Style) : Marked → Text
  | .text text => text
  | .tint tone inner => style.tint tone (render style inner)
  | .underline inner => style.underline (render style inner)
  | .hyperlink url inner => style.hyperlink url (render style inner)
  | .append first second => render style first ++ render style second

end Style

end Inlay
