import TweetText.Text

/-!
# Addresses

The addresses of profiles, hashtag pages, searches for a cashtag, and single Tweets. Each has at
most one free text, percent-encoded, and ends in the same query that names the referrer.

Two kinds of address are recognised wherever they come from, those of Tweets and those of Vines:

* `http` or `https`, `://twitter.com`, maybe `/#!`, `/`, a name, `/status/`, digits;
* `http` or `https`, `://vine.co`, maybe `/#!`, `/v/`, a name;

where a name is one or more ASCII letters, digits and underscores.
-/

namespace TweetText

/-! ## Percent-encoding

A text as one component of a URL: letters, digits and `-`, `_`, `.`, `~` stand for themselves, and
every other byte of the UTF-8 form is written as a percent sign and two hexadecimal digits in upper
case. -/

namespace Percent

def isUnreserved (c : Char) : Bool :=
  c.isAlphanum || c == '-' || c == '_' || c == '.' || c == '~'

def byte (b : UInt8) : List Char :=
  ['%', Digits.upper (b.toNat / 16), Digits.upper (b.toNat % 16)]

def encodeChar (c : Char) : List Char :=
  if isUnreserved c then [c] else (String.utf8EncodeChar c).flatMap byte

def encodeChars (s : List Char) : List Char := s.flatMap encodeChar

def encode (s : String) : String := String.ofList (encodeChars s.toList)

@[simp] theorem encodeChars_nil : encodeChars [] = [] := rfl

@[simp] theorem encodeChars_cons (c : Char) (s : List Char) :
    encodeChars (c :: s) = encodeChar c ++ encodeChars s := rfl

example : encodeChars ['a', ' ', 'é'] = ['a', '%', '2', '0', '%', 'C', '3', '%', 'A', '9'] := by
  decide

end Percent

namespace Address

/-! ## Permalinks -/

def site : String := "https://twitter.com"

def referrer : String := "ref_src=twsrc%5Etwitterkit"

def unknownAuthor : String := "twitter_unknown"

def profile (screenName : String) : String :=
  site ++ "/" ++ Percent.encode screenName ++ "?" ++ referrer

def hashtag (text : String) : String :=
  site ++ "/hashtag/" ++ Percent.encode text ++ "?" ++ referrer

def cashtag (text : String) : String :=
  site ++ "/search?q=%24" ++ Percent.encode text ++ "&" ++ referrer

/-- A Tweet by its author and number. An author with an empty name counts as one without a name. -/
def status (screenName : Option String) (id : Int64) : String :=
  let author := (screenName.filter (· ≠ "")).getD unknownAuthor
  site ++ "/" ++ Percent.encode author ++ "/status/" ++ toString id.toInt ++ "?" ++ referrer

/-! ## Tweets and Vines -/

/-- What follows a literal that the text begins with. -/
def after? : List Char → List Char → Option (List Char)
  | [], s => some s
  | _ :: _, [] => none
  | c :: literal, d :: s => if c = d then after? literal s else none

/-- What follows a literal, or the whole text if it does not begin with it. -/
def afterOptional (literal s : List Char) : List Char := (after? literal s).getD s

def isWord (c : Char) : Bool := c.isAlphanum || c == '_'

/-- What follows the scheme, the host and maybe the mark of an old address. -/
def afterHost? (host s : List Char) : Option (List Char) :=
  (after? ['h', 't', 't', 'p'] s).bind fun s =>
  (after? ([':', '/', '/'] ++ host) (afterOptional ['s'] s)).map fun s =>
  afterOptional ['/', '#', '!'] s

def isRun (p : Char → Bool) (s : List Char) : Bool := !s.isEmpty && s.all p

def isStatus (s : List Char) : Bool :=
  match (afterHost? "twitter.com".toList s).bind (after? ['/']) with
  | none => false
  | some path =>
    match after? "/status/".toList (path.dropWhile isWord) with
    | none => false
    | some id => isRun isWord (path.takeWhile isWord) && isRun Char.isDigit id

def isVine (s : List Char) : Bool :=
  match (afterHost? "vine.co".toList s).bind (after? ['/', 'v', '/']) with
  | none => false
  | some id => isRun isWord id

end Address
end TweetText
