import TweetText.Mark

/-!
# Settings

How texts are rendered: which trailing links are left out and how links look. Settings are read from
the environment, where a variable that is not UTF-8 counts as not set and one that is malformed is
an error. Where no highlight color is set, it is the link color laid thinly on the background.
-/

/-! ## Colors

A color is four channels of eight bits: alpha, red, green and blue. It is written as a number sign
and eight hexadecimal digits, and read from six or eight, where six stand for an opaque color. -/

namespace TweetText

/-- A color as a word 0xAARRGGBB. -/
structure Color where
  argb : UInt32
deriving DecidableEq, Repr

namespace Color

def solid (red green blue : UInt8) : Color :=
  ⟨(0xFF000000 : UInt32) ||| (red.toUInt32 <<< 16) ||| (green.toUInt32 <<< 8) ||| blue.toUInt32⟩

def black : Color := solid 0 0 0

def white : Color := solid 255 255 255

def alpha (c : Color) : UInt8 := (c.argb >>> 24).toUInt8

def red (c : Color) : UInt8 := (c.argb >>> 16).toUInt8

def green (c : Color) : UInt8 := (c.argb >>> 8).toUInt8

def blue (c : Color) : UInt8 := c.argb.toUInt8

/-- Whether dark text reads well on the color: its luma is above the middle of the scale. -/
def isBright (c : Color) : Bool :=
  let luma := 0.21 * c.red.toFloat + 0.72 * c.green.toFloat + 0.07 * c.blue.toFloat
  luma > 128.0

/-- One channel of a color seen through another, cut to a whole number within the channel. -/
def blendChannel (opacity : Float) (front back : UInt8) : UInt8 :=
  ((1.0 - opacity) * back.toFloat + opacity * front.toFloat).toUInt8

/-- The opaque color that `front` has when laid on `back` with the given opacity. -/
def blend (opacity : Float) (front back : Color) : Color :=
  solid (blendChannel opacity front.red back.red) (blendChannel opacity front.green back.green)
    (blendChannel opacity front.blue back.blue)

/-! ### Writing and reading -/

/-- The written form: a number sign and eight digits in upper case. -/
def toChars (c : Color) : List Char := '#' :: Digits.upperHex 8 c.argb.toNat

instance : ToString Color := ⟨fun c => String.ofList c.toChars⟩

inductive ParseError where
  | notHex
  | noDigits
  | tooLarge
  | digitCount (count : Nat)
deriving DecidableEq, Repr

/-- The color of a text of digits. They are judged first by kind, then by value and last by
number. -/
def ofDigits (s : List Char) : Except ParseError Color :=
  match s.mapM (Digits.ofRadix? 16) with
  | none => .error .notHex
  | some values =>
    if values.isEmpty then .error .noDigits
    else match Digits.toWord? 32 16 values with
      | none => .error .tooLarge
      | some word =>
        if values.length = 6 then .ok ⟨0xFF000000 ||| UInt32.ofBitVec word⟩
        else if values.length = 8 then .ok ⟨.ofBitVec word⟩
        else .error (.digitCount values.length)

def dropSign : List Char → List Char
  | '#' :: rest => rest
  | s => s

/-- Reads a color between blanks, with or without the number sign. -/
def parse (s : String) : Except ParseError Color := ofDigits (dropSign (stripBlanks s.toList))

def ParseError.message (e : ParseError) (text : String) : String :=
  let cause := match e with
    | notHex => "not a hex value"
    | noDigits => "cannot parse integer from empty string"
    | tooLarge => "number too large to fit in target type"
    | digitCount count => s!"expected 6 or 8 hex digits, got {count}"
  s!"Invalid color '{text}': {cause}"

end Color

/-! ## Links -/

/-- How links look, and whether anyone listens to clicks on them. Links are never underlined. -/
structure LinkStyle where
  color : Color := .black
  highlight : Color := .white
  listening : Bool := false
deriving DecidableEq, Repr

/-! ## Settings -/

/-- Variables and their values as bytes. -/
structure Environment where
  entries : List (String × ByteArray) := []

def Environment.get? (env : Environment) (name : String) : Option String :=
  (env.entries.lookup name).bind String.fromUTF8?

/-- How texts are rendered. -/
structure Settings where
  elision : Elision
  linkColor : Color
  highlightColor : Color
deriving DecidableEq, Repr

namespace Settings

def standardLinkColor : Color := ⟨0xFF1DA1F2⟩

def highlightShare : Float := 0.15

/-- The highlight color of links of a color on a background. -/
def highlightOf (linkColor background : Color) : Color :=
  Color.blend highlightShare linkColor background

def default : Settings := ⟨{}, standardLinkColor, highlightOf standardLinkColor .white⟩

/-- The style of links that nobody listens to. -/
def style (s : Settings) : LinkStyle := ⟨s.linkColor, s.highlightColor, false⟩

/-! ### Reading the environment -/

/-- Why an environment gives no settings. -/
inductive Error where
  | flag (name value : String)
  | color (name value : String) (cause : Color.ParseError)
deriving DecidableEq, Repr

def Error.message : Error → String
  | flag name value => s!"Invalid boolean value for {name}: {value}"
  | color name value cause => s!"Invalid color for {name}: {cause.message value}"

/-- A flag between blanks, in letters of either case. -/
def flagOf? (value : String) : Option Bool :=
  let word := String.ofList ((stripBlanks value.toList).map Char.toLower)
  if word ∈ ["true", "1", "yes"] then some true
  else if word ∈ ["false", "0", "no"] then some false
  else none

def flag (env : Environment) (name : String) : Except Error Bool :=
  match env.get? name with
  | none => .ok true
  | some value => match flagOf? value with
    | some flag => .ok flag
    | none => .error (.flag name value)

def color? (env : Environment) (name : String) : Except Error (Option Color) :=
  match env.get? name with
  | none => .ok none
  | some value => match Color.parse value with
    | .ok color => .ok (some color)
    | .error cause => .error (.color name value cause)

/-- Reads the settings of an environment. The first malformed variable, in the order here, is the
error; the background is read only where it is needed. -/
def ofEnvironment (env : Environment) : Except Error Settings := do
  let quotes ← flag env "LINKIFY_STRIP_QUOTE_TWEET"
  let vines ← flag env "LINKIFY_STRIP_VINE_CARD"
  let linkColor := (← color? env "LINKIFY_LINK_COLOR").getD standardLinkColor
  match ← color? env "LINKIFY_LINK_HIGHLIGHT_COLOR" with
  | some highlight => return ⟨⟨quotes, vines⟩, linkColor, highlight⟩
  | none =>
    let background := (← color? env "LINKIFY_BACKGROUND_COLOR").getD .white
    return ⟨⟨quotes, vines⟩, linkColor, highlightOf linkColor background⟩

end Settings

/-! ### Where the service listens -/

def standardEndpoint : Nat := 3000

/-- An endpoint number: digits, maybe after one plus sign, for a number below 65536. -/
def endpointOf? (value : String) : Option Nat :=
  let digits := match value.toList with
    | '+' :: rest => rest
    | rest => rest
  (Digits.readWord? 16 10 digits).map BitVec.toNat

def Environment.endpoint (env : Environment) : Nat :=
  ((env.get? "PORT").bind endpointOf?).getD standardEndpoint

end TweetText
