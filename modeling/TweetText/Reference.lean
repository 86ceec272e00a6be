import TweetText.Reference.Table
import TweetText.Text

/-!
# Character references

What may stand between an ampersand and a semicolon: a name of the table, or a number sign and the
number of a code point. A number may be of any length, but has to fit into 32 bits and to be that of
a Unicode scalar value.
-/

namespace TweetText

namespace Reference

/-- The character of a code point, unless it is a surrogate or above U+10FFFF. -/
def scalar? (n : Nat) : Option Char := if n.isValidChar then some (Char.ofNat n) else none

def numbered? (radix : Nat) (digits : List Char) : Option Char :=
  (Digits.readWord? 32 radix digits).bind fun n => scalar? n.toNat

/-- The character of a number: hexadecimal after one `x` of either case, decimal otherwise. -/
def numeric? : List Char → Option Char
  | 'x' :: digits => numbered? 16 digits
  | 'X' :: digits => numbered? 16 digits
  | digits => numbered? 10 digits

/-- The character of a name, which is one or more ASCII letters and digits. -/
def named? (name : List Char) : Option Char :=
  if name.isEmpty || !name.all Char.isAlphanum then none
  else
    let name := String.ofList name
    (Table.all.find? (·.1 == name)).map (Char.ofNat ·.2)

/-- The character that a reference stands for, given what is between its ampersand and its
semicolon. -/
def value? : List Char → Option Char
  | '#' :: number => numeric? number
  | name => named? name

/-- What stands before the first semicolon, if there is one and no ampersand comes before it. -/
def name? (s : List Char) : Option (List Char) :=
  let name := s.takeWhile fun c => c != ';' && c != '&'
  if s[name.length]? = some ';' then some name else none

/-- The name and the character of the reference whose ampersand was just passed. -/
def leading? (s : List Char) : Option (List Char × Char) :=
  (name? s).bind fun name => (value? name).map fun value => (name, value)

example : leading? ['#', 'x', '2', '6', ';', 'a', ';'] = some (['#', 'x', '2', '6'], '&') := by
  decide

example : leading? ['a', '&', 'b', ';'] = none := by decide

end Reference

/-! ## Texts with references

A text is cut from left to right into *pieces*, each a character that stands for itself or a whole
reference. The cut gives at once what the text says, with each reference replaced by its character,
and the *escapes*: where the references stood and how many UTF-16 units each lost. -/

/-- A character that stands for itself, or a reference by its name and its character. -/
inductive Piece where
  | plain (c : Char)
  | reference (name : List Char) (value : Char)
deriving DecidableEq, Repr

/-- A reference in a text: the position of its ampersand, the position of its semicolon, and how
many units longer it is than its character. Positions and lengths are in UTF-16 units. -/
structure Escape where
  first : Nat
  last : Nat
  removed : Nat
deriving DecidableEq, Repr

namespace Piece

def value : Piece → Char
  | plain c => c
  | reference _ value => value

def source : Piece → List Char
  | plain c => [c]
  | reference name _ => '&' :: name ++ [';']

/-- Cuts a text after skipping as many characters as are left of the last reference. -/
def scan : Nat → List Char → List Piece
  | _, [] => []
  | skip + 1, _ :: rest => scan skip rest
  | 0, c :: rest =>
    if c = '&' then
      match Reference.leading? rest with
      | some (name, value) => reference name value :: scan (name.length + 1) rest
      | none => plain c :: scan 0 rest
    else plain c :: scan 0 rest

/-- The pieces of a text. An ampersand that begins no reference stands for itself. -/
def ofText (s : List Char) : List Piece := scan 0 s

def text (pieces : List Piece) : List Char := pieces.map value

/-- The escapes of a list of pieces whose first unit stands at `position`. -/
def escapesFrom (position : Nat) : List Piece → List Escape
  | [] => []
  | plain c :: rest => escapesFrom (position + Utf16.width c) rest
  | reference name value :: rest =>
    let width := name.length + 2
    ⟨position, position + width - 1, width - Utf16.width value⟩ ::
      escapesFrom (position + width) rest

def escapes (pieces : List Piece) : List Escape := escapesFrom 0 pieces

end Piece

/-- A text without its references, and where they stood in the text that had them. -/
structure Decoded where
  text : String
  escapes : List Escape
deriving DecidableEq, Repr

/-- Replaces each reference of a text by its character. What comes out is not looked at again. -/
def Decoded.ofText (s : String) : Decoded :=
  let pieces := Piece.ofText s.toList
  ⟨String.ofList (Piece.text pieces), Piece.escapes pieces⟩

example : Piece.ofText ['&', '#', '3', '8', ';', 'l', 't', ';'] =
    [.reference ['#', '3', '8'] '&', .plain 'l', .plain 't', .plain ';'] := by decide

end TweetText
