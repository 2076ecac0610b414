import Inlay.Text.Utf8
/-!
Escape sequences in text. The recogniser reads any units with a numeric code, so that bytes and
characters share one definition: every unit it tests for is below 0x80, where the two agree.
-/

namespace Inlay.Text.Escape

inductive Kind where
  | csi
  | osc
  | apc
  | dcs
  | ss3
deriving DecidableEq, Repr

/-- A recognised sequence at the head of a list, `length` units long. -/
structure Sequence where
  length : Nat
  kind : Kind
deriving DecidableEq, Repr

/-- The kind that the unit after ESC announces. -/
def Kind.ofOpener? (code : Nat) : Option Kind :=
  if code = '['.toNat then some .csi
  else if code = ']'.toNat then some .osc
  else if code = '_'.toNat then some .apc
  else if code = 'P'.toNat then some .dcs
  else if code = 'O'.toNat then some .ss3
  else none

/-- The units up to and including the first one that ends a control sequence. -/
def finalLength? {α : Type} (code : α → Nat) : List α → Option Nat
  | [] => none
  | a :: rest =>
      if 0x40 ≤ code a ∧ code a ≤ 0x7e then some 1 else (finalLength? code rest).map (· + 1)

/-- The units up to and including the first BEL or ESC backslash. -/
def terminatedLength? {α : Type} (code : α → Nat) : List α → Option Nat
  | [] => none
  | a :: rest =>
      if code a = 0x07 then some 1
      else if code a = 0x1b ∧ rest.head?.map code = some '\\'.toNat then some 2
      else (terminatedLength? code rest).map (· + 1)

def bodyLength? {α : Type} (code : α → Nat) (body : List α) : Kind → Option Nat
  | .csi => finalLength? code body
  | .ss3 => if (body.head?.map code).any (· < 0x80) then some 1 else none
  | _ => terminatedLength? code body

/-- The escape sequence at the head of a list. One that is not terminated is none. -/
def sequence? {α : Type} (code : α → Nat) : List α → Option Sequence
  | escape :: opener :: body =>
      if code escape = 0x1b then do
        let kind ← Kind.ofOpener? (code opener)
        let length ← bodyLength? code body kind
        return ⟨length + 2, kind⟩
      else none
  | _ => none

def atByte? (text : Text) (offset : Nat) : Option Sequence :=
  sequence? UInt8.toNat ((Utf8.encode text).drop offset)

/-- Every byte offset at which a sequence starts, overlaps included. -/
def scanFrom (offset : Nat) : List UInt8 → List (Nat × Sequence)
  | [] => []
  | b :: rest =>
      let later := scanFrom (offset + 1) rest
      match sequence? UInt8.toNat (b :: rest) with
      | some found => (offset, found) :: later
      | none => later

def scan (text : Text) : List (Nat × Sequence) := scanFrom 0 (Utf8.encode text)

/-- How many characters after the first belong to the sequence at the head of a text. -/
def covered (text : Text) : Nat :=
  match sequence? Char.toNat text with
  | some found => found.length
  | none => 0

/-- Drops every sequence, after passing over `skip` characters of the one before. -/
def stripFrom : Nat → Text → Text
  | _, [] => []
  | skip + 1, _ :: rest => stripFrom skip rest
  | 0, c :: rest =>
      match covered (c :: rest) with
      | 0 => c :: stripFrom 0 rest
      | n + 1 => stripFrom n rest

def strip (text : Text) : Text :=
  if text.contains '\x1b' then stripFrom 0 text else text

end Inlay.Text.Escape
