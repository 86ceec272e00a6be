/-!
# Texts

Texts are lists of characters and are rendered as lists of UTF-16 units. What is read from the
outside also takes digits and the blanks that stand around a value.
-/

namespace TweetText

/-! ## UTF-16 code units

Offsets into the text of a Tweet count UTF-16 units, so texts are rendered as lists of units. A
character of the basic plane is one unit and any other a *surrogate pair*, a lead followed by a
trail. Decoding never fails: a surrogate outside of a pair is read as U+FFFD. -/

namespace Utf16

/-- The first code point that needs two units. -/
def supplementary : Nat := 0x10000

def width (c : Char) : Nat := if c.toNat < supplementary then 1 else 2

def length : List Char → Nat
  | [] => 0
  | c :: rest => width c + length rest

/-- The units of a character. A pair carries the code point less 0x10000, the upper ten bits in its
lead and the lower ten in its trail. -/
def ofChar (c : Char) : List UInt16 :=
  if c.toNat < supplementary then [c.toNat.toUInt16]
  else
    let n := c.toNat - supplementary
    [(0xD800 + n / 0x400).toUInt16, (0xDC00 + n % 0x400).toUInt16]

def ofChars (s : List Char) : List UInt16 := s.flatMap ofChar

def ofString (s : String) : List UInt16 := ofChars s.toList

def isLead (u : UInt16) : Bool := 0xD800 ≤ u && u < 0xDC00

def isTrail (u : UInt16) : Bool := 0xDC00 ≤ u && u < 0xE000

def ofPair (lead trail : UInt16) : Char :=
  Char.ofNat (supplementary + (lead.toNat - 0xD800) * 0x400 + (trail.toNat - 0xDC00))

/-- The character that a unit outside of a pair stands for. -/
def ofSingle (u : UInt16) : Char :=
  if isLead u || isTrail u then '\uFFFD' else Char.ofNat u.toNat

/-- The characters of a list of units, each unpaired surrogate read as U+FFFD. -/
def chars : List UInt16 → List Char
  | [] => []
  | [u] => [ofSingle u]
  | u :: v :: rest =>
    if isLead u && isTrail v then ofPair u v :: chars rest
    else ofSingle u :: chars (v :: rest)

def toString (units : List UInt16) : String := String.ofList (chars units)

/-- The positions of the surrogate pairs of a text whose first unit stands at `position`. -/
def pairsFrom (position : Nat) : List Char → List Nat
  | [] => []
  | c :: rest =>
    if c.toNat < supplementary then pairsFrom (position + 1) rest
    else position :: pairsFrom (position + 2) rest

def pairs (s : List Char) : List Nat := pairsFrom 0 s

theorem length_ofChar (c : Char) : (ofChar c).length = width c := by
  unfold ofChar width
  split <;> rfl

@[simp] theorem length_nil : length [] = 0 := rfl

@[simp] theorem length_cons (c : Char) (s : List Char) : length (c :: s) = width c + length s := rfl

@[simp] theorem length_append (s t : List Char) : length (s ++ t) = length s + length t := by
  induction s with
  | nil => simp
  | cons c s ih => rw [List.cons_append, length_cons, length_cons, ih, Nat.add_assoc]

theorem length_ofChars (s : List Char) : (ofChars s).length = length s := by
  induction s with
  | nil => rfl
  | cons c s ih => simp_all [ofChars, length_ofChar]

end Utf16

/-! ## Digits

ASCII digits of a radix up to sixteen, in either case, and the numbers that they spell. A number of
a fixed width is put together digit by digit, and no step may go beyond the width. -/

namespace Digits

/-- The value of an ASCII digit, where the letters `a` to `f` of either case stand for ten to
fifteen. -/
def value? (c : Char) : Option Nat :=
  let n := c.toNat
  if 0x30 ≤ n ∧ n ≤ 0x39 then some (n - 0x30)
  else if 0x61 ≤ n ∧ n ≤ 0x66 then some (n - 0x61 + 10)
  else if 0x41 ≤ n ∧ n ≤ 0x46 then some (n - 0x41 + 10)
  else none

def ofRadix? (radix : Nat) (c : Char) : Option Nat := (value? c).filter (· < radix)

def toNat (radix : Nat) (digits : List Nat) : Nat := digits.foldl (fun n d => n * radix + d) 0

/-- The number that a text spells: one or more digits of the radix and nothing else. -/
def read? (radix : Nat) (s : List Char) : Option Nat :=
  if s.isEmpty then none else (s.mapM (ofRadix? radix)).map (toNat radix)

/-- A number of a fixed width and one more digit behind it, unless the product or the sum takes more
bits. -/
def shiftIn? {width : Nat} (radix : Nat) (n : BitVec width) (d : Nat) : Option (BitVec width) :=
  let shifted := n * .ofNat width radix
  if n.umulOverflow (.ofNat width radix) || shifted.uaddOverflow (.ofNat width d) then none
  else some (shifted + .ofNat width d)

def toWord? (width radix : Nat) (digits : List Nat) : Option (BitVec width) :=
  digits.foldlM (shiftIn? radix) 0

def readWord? (width radix : Nat) (s : List Char) : Option (BitVec width) :=
  if s.isEmpty then none else (s.mapM (ofRadix? radix)).bind (toWord? width radix)

def upper (n : Nat) : Char := Char.ofNat (if n < 10 then 0x30 + n else 0x41 + (n - 10))

/-- The last `count` hexadecimal digits of a number, in upper case. -/
def upperHex : Nat → Nat → List Char
  | 0, _ => []
  | count + 1, n => upperHex count (n / 16) ++ [upper (n % 16)]

theorem value?_upper {n : Nat} (h : n < 16) : value? (upper n) = some n := by
  have : ∀ m : Fin 16, value? (upper m.val) = some m.val := by decide
  exact this ⟨n, h⟩

theorem length_upperHex (count n : Nat) : (upperHex count n).length = count := by
  induction count generalizing n with
  | zero => rfl
  | succ count ih => simp [upperHex, ih]

example : upperHex 8 0xFF1DA1F2 = ['F', 'F', '1', 'D', 'A', '1', 'F', '2'] := by decide

end Digits

/-! ## Blanks at the ends of texts

Two classes of characters are dropped from the ends of texts. A setting stands between *blanks*, the
characters with the Unicode property White_Space. A rendered text never ends in a character up to
U+0020, that is, in a control character of ASCII or a space; wider blanks, such as the no-break
space, stay there. That rule is stated for characters and for UTF-16 units. -/

/-- The characters with the Unicode property White_Space. -/
def isBlank (c : Char) : Bool :=
  let n := c.toNat
  (0x9 ≤ n && n ≤ 0xD) || n == 0x20 || n == 0x85 || n == 0xA0 || n == 0x1680 ||
    (0x2000 ≤ n && n ≤ 0x200A) || n == 0x2028 || n == 0x2029 || n == 0x202F || n == 0x205F ||
    n == 0x3000

/-- The list without its longest tail of elements that satisfy `p`. -/
def dropLastWhile {α : Type} (p : α → Bool) (l : List α) : List α :=
  (l.reverse.dropWhile p).reverse

def stripBlanks (s : List Char) : List Char := dropLastWhile isBlank (s.dropWhile isBlank)

/-- The text without its longest tail of characters up to U+0020. -/
def trimRight (s : List Char) : List Char := dropLastWhile (· ≤ ' ') s

def Utf16.trimRight (units : List UInt16) : List UInt16 := dropLastWhile (· ≤ 0x20) units

@[simp] theorem dropLastWhile_nil {α : Type} (p : α → Bool) : dropLastWhile p [] = [] := rfl

theorem dropLastWhile_concat {α : Type} (p : α → Bool) (l : List α) (a : α) :
    dropLastWhile p (l ++ [a]) = if p a then dropLastWhile p l else l ++ [a] := by
  by_cases h : p a <;> simp [dropLastWhile, h]

example : TweetText.trimRight ['a', ' ', '\u00A0', '\n', '\t'] = ['a', ' ', '\u00A0'] := by decide

end TweetText
