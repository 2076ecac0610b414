import Inlay.Text.Utf8

namespace Inlay

inductive Key where
  | char (c : Char)
  | enter
  | backspace
  | delete
  | tab
  | escape
  | up
  | down
  | left
  | right
  | home
  | «end»
  | interrupt
deriving DecidableEq, Repr

namespace Key

def encode : Key → List UInt8
  | char c => String.utf8EncodeChar c
  | enter => [0x0d]
  | backspace => [0x7f]
  | delete => [0x1b, 0x5b, 0x33, 0x7e]
  | tab => [0x09]
  | escape => [0x1b]
  | up => [0x1b, 0x5b, 0x41]
  | down => [0x1b, 0x5b, 0x42]
  | right => [0x1b, 0x5b, 0x43]
  | left => [0x1b, 0x5b, 0x44]
  | home => [0x1b, 0x5b, 0x48]
  | «end» => [0x1b, 0x5b, 0x46]
  | interrupt => [0x03]

def isPrintable : Key → Bool
  | char _ => true
  | _ => false

end Key

end Inlay
