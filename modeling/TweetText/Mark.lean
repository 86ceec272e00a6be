import TweetText.Address
import TweetText.Reference
import TweetText.Tweet

/-!
# Marks

A mark is an entity placed on a text, whatever its kind: the range that it takes, the text to
show there, the address behind it and, for links and media, where that address leads.
-/

namespace TweetText

inductive MarkKind where
  | link
  | media (type : String)
  | hashtag
  | mention
  | cashtag
deriving DecidableEq, Repr

/-- An entity on the range from `start` up to `stop` of a text. Nothing is asked of the range: the
API is free to send one that is reversed or outside of the text. -/
structure Mark where
  start : Int32
  stop : Int32
  kind : MarkKind
  display : String
  url : String
  expanded : Option String
deriving DecidableEq, Repr

namespace Mark

/-- A mark whose address is a permalink, which leads to itself. -/
def ofPermalink (start stop : Int32) (kind : MarkKind) (display url : String) : Mark :=
  ⟨start, stop, kind, display, url, some url⟩

def ofLink (e : Link) : Mark := ⟨e.start, e.stop, .link, e.display, e.url, e.expanded⟩

def ofMedia (e : Media) : Mark :=
  ⟨e.start, e.stop, .media e.type, e.display, e.url, e.expanded⟩

def ofHashtag (e : Hashtag) : Mark :=
  ofPermalink e.start e.stop .hashtag ("#" ++ e.text) (Address.hashtag e.text)

def ofMention (e : Mention) : Mark :=
  ofPermalink e.start e.stop .mention ("@" ++ e.screenName) (Address.profile e.screenName)

def ofCashtag (e : Cashtag) : Mark :=
  ofPermalink e.start e.stop .cashtag ("$" ++ e.text) (Address.cashtag e.text)

def showsPhoto (a : Mark) : Bool := a.kind == .media "photo"

/-- An offset moved by a distance, held at the bounds of its type. -/
def shiftOffset (offset : Int32) (distance : Int) : Int32 :=
  Int32.ofIntClamp (offset.toInt + distance)

def move (a : Mark) (distance : Int) : Mark :=
  { a with start := shiftOffset a.start distance, stop := shiftOffset a.stop distance }

/-- The marks by their starts. Those with one start stay in the order given. -/
def sortByStart (as : List Mark) : List Mark :=
  as.mergeSort fun a b => a.start ≤ b.start

/-! ## Moving marks with their text

Two things part the offsets that the API sends from positions in the text to show. References are
shorter once they are replaced by their characters, which moves what follows to the left; and
characters outside of the basic plane count once for the API but are two UTF-16 units, which moves
what follows to the right. Both ends of a mark always move together. -/

def removedUnits : List Escape → Nat
  | [] => 0
  | e :: rest => e.removed + removedUnits rest

/-- Moves marks to the left over the escapes that end before them, given how many units are
already behind. Escapes that end before the start of a mark are behind all later ones as
well; those that end inside of it move it alone. -/
def retractFrom (behind : Nat) (escapes : List Escape) : List Mark → List Mark
  | [] => []
  | a :: rest =>
    let before := escapes.filter fun e => (e.last : Int) < a.start.toInt
    let within := escapes.filter fun e => a.start.toInt ≤ e.last ∧ (e.last : Int) < a.stop.toInt
    let behind := behind + removedUnits before
    a.move (-(behind + removedUnits within : Nat)) ::
      retractFrom behind (escapes.drop before.length) rest

/-- Moves marks, in the order of their starts, from the text with references to the text
without. -/
def retract (escapes : List Escape) (as : List Mark) : List Mark :=
  retractFrom 0 escapes as

/-- How many of the pairs, in order, lie at or before an offset that does not count the pairs before
it, when `passed` of them are known to. -/
def pairsUpTo (offset : Int) (passed : Nat) : List Nat → Nat
  | [] => passed
  | p :: rest =>
    if (p : Int) - passed ≤ offset then pairsUpTo offset (passed + 1) rest else passed

/-- Moves a mark to the right over the pairs up to its start. -/
def advance (pairs : List Nat) (a : Mark) : Mark :=
  a.move (pairsUpTo a.start.toInt 0 pairs)

end Mark

/-! ## Marked texts

A text with its marks in five lists, one for each kind of entity. The text of a Tweet is
adopted in two steps: its entities are attached with the offsets that the API gave them, and then
the text is set, without its references, while all marks move along. -/

/-- A text, if there is one, and marks on it. -/
structure MarkedText where
  text : Option String := none
  links : List Mark := []
  media : List Mark := []
  hashtags : List Mark := []
  mentions : List Mark := []
  cashtags : List Mark := []
deriving DecidableEq, Repr

namespace MarkedText

def ofText (text : String) : MarkedText := { text }

def mapLists (f : List Mark → List Mark) (t : MarkedText) : MarkedText :=
  { t with
    links := f t.links
    media := f t.media
    hashtags := f t.hashtags
    mentions := f t.mentions
    cashtags := f t.cashtags }

/-- All marks by their starts. Of several with one start links come first, then media,
hashtags, mentions and cashtags. -/
def inOrder (t : MarkedText) : List Mark :=
  Mark.sortByStart (t.links ++ t.media ++ t.hashtags ++ t.mentions ++ t.cashtags)

/-- Adds the entities of a Tweet, with the offsets that they came with. -/
def attach (t : MarkedText) (tweet : Tweet) : MarkedText :=
  let entities := tweet.entities.getD {}
  { t with
    links := t.links ++ entities.links.map .ofLink
    media := t.media ++ tweet.shownMedia.map .ofMedia
    hashtags := t.hashtags ++ entities.hashtags.map .ofHashtag
    mentions := t.mentions ++ entities.mentions.map .ofMention
    cashtags := t.cashtags ++ entities.cashtags.map .ofCashtag }

def advance (content : String) (t : MarkedText) : MarkedText :=
  let pairs := Utf16.pairs content.toList
  t.mapLists (·.map (Mark.advance pairs))

/-- Sets the text to that of a Tweet, without its references, and moves all marks from the one
to the other. A Tweet without text changes nothing. -/
def adopt (t : MarkedText) (tweet : Tweet) : MarkedText :=
  match tweet.shownText.filter (· ≠ "") with
  | none => t
  | some source =>
    let decoded := Decoded.ofText source
    { (t.mapLists (Mark.retract decoded.escapes)).advance decoded.text with
      text := some decoded.text }

def ofTweet (tweet : Tweet) : MarkedText := (MarkedText.attach {} tweet).adopt tweet

end MarkedText

/-! ## Trailing links

A Tweet that shows a photo, quotes another Tweet or plays a Vine repeats the link to it at the end
of its text. That link may be left out of the rendered text: it is the last mark, the text ends in
its address, and what it leads to is of one of these kinds. -/

/-! ### What a mark leads to -/

namespace Mark

def leadsToStatus (a : Mark) : Bool := a.expanded.any fun s => Address.isStatus s.toList

def leadsToVine (a : Mark) : Bool := a.expanded.any fun s => Address.isVine s.toList

end Mark

/-- Which trailing links are left out, next to photos. -/
structure Elision where
  quotes : Bool := true
  vines : Bool := true
deriving DecidableEq, Repr

/-- Whether a trailing link to what the mark stands for is left out. -/
def Elision.covers (e : Elision) (a : Mark) : Bool :=
  a.showsPhoto || (e.quotes && a.leadsToStatus) || (e.vines && a.leadsToVine)

/-! ### The link at the end -/

namespace TrailingLink

def dropLeftToRight (s : List Char) : List Char :=
  match s.reverse with
  | '\u200E' :: rest => rest.reverse
  | _ => s

/-- Whether a text ends in an address, a left-to-right mark aside. -/
def endsIn (text url : String) : Bool := url.toList.isSuffixOf (dropLeftToRight text.toList)

/-- The mark to leave out of a text, given all of its marks in order. -/
def find? (text : String) (as : List Mark) (e : Elision) : Option Mark :=
  as.getLast?.filter fun a => endsIn text a.url && e.covers a

end TrailingLink
end TweetText
