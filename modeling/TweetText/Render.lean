import TweetText.Settings

/-!
# Rendering

A marked text is rendered by applying all of its marks in order, less a trailing link that is left
out, and trimming the end.
-/

/-! ## Spans

A span is a part of a rendered text that leads to an address when it is clicked. -/

namespace TweetText

/-- The range from unit `start` up to unit `stop` of a text, and the address behind it. -/
structure Span where
  start : Nat
  stop : Nat
  url : String
  style : LinkStyle
  underlined : Bool := false
deriving DecidableEq, Repr

namespace Span

def click (s : Span) : Option String := if s.style.listening then some s.url else none

def meets (s : Span) (start stop : Nat) : Bool := start < s.stop && s.start < stop

/-- The span within a text cut to `length` units, unless nothing of it is left. -/
def cut? (length : Nat) (s : Span) : Option Span :=
  let s := { s with stop := min s.stop length }
  if s.start < s.stop then some s else none

/-! ### A description for developers -/

def describeControl (c : Char) : List Char :=
  "\\u\x7b".toList ++ Nat.toDigits 16 c.toNat ++ ['\x7d']

def describeChar (c : Char) : List Char :=
  if c = '"' || c = '\\' then ['\\', c]
  else if c = '\t' then ['\\', 't']
  else if c = '\n' then ['\\', 'n']
  else if c = '\r' then ['\\', 'r']
  else if c = '\x00' then ['\\', '0']
  else if c.toNat < 0x20 || c = '\x7f' then describeControl c
  else [c]

/-- A text between quotation marks, with marks, backslashes and controls escaped. -/
def quoted (s : String) : String :=
  "\"" ++ String.ofList (s.toList.flatMap describeChar) ++ "\""

def describe (s : Span) : String :=
  let color (c : Color) := s!"Color({c.argb})"
  "ClickableLinkSpan \x7b " ++ s!"range: {s.start}..{s.stop}, url: {quoted s.url}, " ++
    s!"link_color: {color s.style.color}, highlight_color: {color s.style.highlight}, " ++
    s!"underline: {s.underlined}, has_listener: {s.style.listening} \x7d"

end Span

/-! ## Drafts

The marks of a text are applied one after another. Each puts its display text in the place of its
range and leaves a span there; one without a display text changes nothing, and the one to be left
out has its range deleted. Marks keep the offsets of the text at the start, so the draft carries its
*drift*: by how many units the text has become shorter so far.

A mark whose range, less the drift, does not lie in the draft is skipped. -/

/-- A text with some of its marks applied: how it reads so far, by how many units it has become
shorter, and the spans left in it. -/
structure Draft where
  units : List UInt16
  drift : Int := 0
  spans : List Span := []
deriving DecidableEq, Repr

namespace Draft

/-- Where a mark lies in the draft, if it does. -/
def place? (d : Draft) (a : Mark) : Option (Nat × Nat) :=
  let start := a.start.toInt - d.drift
  let stop := a.stop.toInt - d.drift
  if 0 ≤ start ∧ start ≤ stop ∧ stop ≤ d.units.length then some (start.toNat, stop.toNat) else none

def replace (d : Draft) (start stop : Nat) (units : List UInt16) : Draft :=
  { d with
    units := d.units.take start ++ units ++ d.units.drop stop
    drift := d.drift + (stop - start : Nat) - units.length }

/-- Applies one mark. What is to be left out is known by its start alone, so any mark
with that start is. -/
def apply (style : LinkStyle) (elided : Option Mark) (d : Draft) (a : Mark) : Draft :=
  match d.place? a with
  | none => d
  | some (start, stop) =>
    if elided.any (·.start == a.start) then d.replace start stop []
    else if a.display = "" then d
    else
      let display := Utf16.ofString a.display
      let d := d.replace start stop display
      { d with spans := d.spans ++ [⟨start, start + display.length, a.url, style, false⟩] }

def applyAll (style : LinkStyle) (elided : Option Mark) (d : Draft) (as : List Mark) :
    Draft :=
  as.foldl (apply style elided) d

end Draft

/-! ## Rendered texts

A text ready to be shown: its UTF-16 units, and the spans that lead somewhere in the order they were
made. -/

/-- A text as units, with spans. -/
structure RenderedText where
  units : List UInt16
  spans : List Span := []
deriving DecidableEq, Repr

namespace RenderedText

def ofString (text : String) : RenderedText := ⟨Utf16.ofString text, []⟩

/-- The text, where an unpaired surrogate reads as U+FFFD. -/
def text (t : RenderedText) : String := Utf16.toString t.units

def length (t : RenderedText) : Nat := t.units.length

def isEmpty (t : RenderedText) : Bool := t.units.isEmpty

/-- The text from unit `start` up to unit `stop`, if the text reaches that far. -/
def extract? (t : RenderedText) (start stop : Nat) : Option String :=
  if start ≤ stop ∧ stop ≤ t.length then
    some (Utf16.toString ((t.units.take stop).drop start))
  else none

def textUnder? (t : RenderedText) (s : Span) : Option String := t.extract? s.start s.stop

def spansMeeting (t : RenderedText) (start stop : Nat) : List Span :=
  t.spans.filter (·.meets start stop)

/-- Drops trailing controls and spaces. If there are any, each span is cut to what is left. -/
def trimRight (t : RenderedText) : RenderedText :=
  let units := Utf16.trimRight t.units
  if units.length = t.units.length then t
  else ⟨units, t.spans.filterMap (Span.cut? units.length)⟩

end RenderedText

/-! ## Marked texts -/

namespace MarkedText

def draft (t : MarkedText) (text : String) (style : LinkStyle) (elision : Elision) : Draft :=
  let marks := t.inOrder
  Draft.applyAll style (TrailingLink.find? text marks elision) ⟨Utf16.ofString text, 0, []⟩ marks

/-- Renders a marked text, if it has a text. An empty text is left as it is. -/
def render? (t : MarkedText) (style : LinkStyle) (elision : Elision) : Option RenderedText :=
  t.text.map fun text =>
    if text = "" then RenderedText.ofString text
    else
      let draft := t.draft text style elision
      (RenderedText.mk draft.units draft.spans).trimRight

end MarkedText

def Tweet.render? (tweet : Tweet) (settings : Settings) : Option RenderedText :=
  (MarkedText.ofTweet tweet).render? settings.style settings.elision

end TweetText
