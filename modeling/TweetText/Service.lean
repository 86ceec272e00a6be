import TweetText.Render

/-!
# The service

What the service answers to a request. Besides a greeting and a sign of life it renders Tweets and
trims texts, both of which come and go as JSON documents.
-/

namespace TweetText

/-! ## Media types

The value of a content type header: a type, a slash, a subtype, which may end in a suffix after a
plus sign, and parameters after semicolons. Only the shape of the parameters matters here. -/

/-- A media type without its parameters. -/
structure MediaType where
  type : List Char
  subtype : List Char
  suffix : Option (List Char)
deriving DecidableEq, Repr

namespace MediaType

def isToken (c : Char) : Bool := c.isAlphanum || c ∈ "!#$%&'*+-.^_`|~".toList

def isQuotable (c : Char) : Bool := ' ' ≤ c && c ≤ '~'

def afterValue? (s : List Char) : Option (List Char) :=
  match s with
  | [] => some []
  | ';' :: rest => some rest
  | _ => none

/-- What follows a parameter. Its value is a token, which may be empty at the very end, or one or
more characters between quotation marks, of which the first may be a mark itself. -/
def parameter? (s : List Char) : Option (List Char) :=
  match s.takeWhile isToken, s.dropWhile isToken with
  | _ :: _, '=' :: '"' :: c :: rest =>
    let inside := fun c => isQuotable c && c != '"'
    match isQuotable c, rest.dropWhile inside with
    | true, '"' :: rest => afterValue? (rest.dropWhile (· = ' '))
    | _, _ => none
  | _ :: _, '=' :: rest =>
    match rest.takeWhile isToken, rest.dropWhile isToken with
    | [], _ :: _ => none
    | _, rest => afterValue? rest
  | _, _ => none

/-- Whether a text is a list of at most `count` parameters, each after any number of spaces. -/
def areParameters : Nat → List Char → Bool
  | count, s =>
    match count, s.dropWhile (· = ' ') with
    | _, [] => true
    | 0, _ => false
    | count + 1, s =>
      match parameter? s with
      | some rest => areParameters count rest
      | none => false

/-- A subtype with its suffix, which follows the last plus sign that is not its first character. -/
def splitSuffix (s : List Char) : List Char × Option (List Char) :=
  let tail := (s.reverse.takeWhile (· ≠ '+')).reverse
  let stem := s.take (s.length - tail.length - 1)
  if tail.length < s.length ∧ stem ≠ [] then (stem, some tail) else (s, none)

/-- Reads a media type. Every parameter takes up characters, so there are fewer than there are
characters. -/
def parse (s : String) : Option MediaType :=
  let s := s.toList
  match s.takeWhile isToken, s.dropWhile isToken with
  | _ :: _, '/' :: rest =>
    let name := rest.takeWhile isToken
    let (subtype, suffix) := splitSuffix name
    let type : MediaType := ⟨s.takeWhile isToken, subtype, suffix⟩
    match name, rest.dropWhile isToken with
    | _, [] => some type
    | _ :: _, ';' :: parameters =>
      if areParameters parameters.length parameters then some type else none
    | _, _ => none
  | _, _ => none

def isWordOf (word : String) (s : List Char) : Bool := s.map Char.toLower = word.toList

/-- Whether a media type is that of JSON documents or has their suffix. -/
def isJson (t : MediaType) : Bool :=
  isWordOf "application" t.type && (isWordOf "json" t.subtype || t.suffix.any (isWordOf "json"))

end MediaType

/-! ## Request targets

What a request names. A target is a path, after which a query and a fragment may follow, or a whole
address, where a scheme, `://` and an authority stand before the path. The path of a whole address
may be left out and is a slash then. Every other target, such as an asterisk or an authority alone,
has no path. -/

namespace Service.Target

/-- The characters of schemes, among which a tilde is let through. -/
def isScheme (c : Char) : Bool := c.isAlphanum || c ∈ ['+', '-', '.', '~']

def endsPath (c : Char) : Bool := c == '?' || c == '#'

def endsAuthority (c : Char) : Bool := c == '/' || endsPath c

/-- What follows the scheme and the authority of a whole address. The authority is never empty. -/
def afterAuthority? (s : List Char) : Option (List Char) :=
  (Address.after? [':', '/', '/'] (s.dropWhile isScheme)).bind fun s =>
    match s.takeWhile (!endsAuthority ·) with
    | [] => none
    | _ :: _ => some (s.dropWhile (!endsAuthority ·))

def beforeQuery (s : List Char) : List Char := s.takeWhile (!endsPath ·)

def path? : List Char → Option (List Char)
  | '/' :: rest => some ('/' :: beforeQuery rest)
  | s => (afterAuthority? s).map fun s =>
    match beforeQuery s with
    | [] => ['/']
    | path => path

example : path? ['a', ':', '/', '/', 'b', ':', '1', '/', 'c', '?', 'd'] = some ['/', 'c'] := by
  decide

example : path? ['a', ':', '/', '/', 'b', '#', '/', 'c'] = some ['/'] := by decide

example : path? ['a', ':', '1'] = none := by decide

end Service.Target

/-! ## Requests and replies -/

namespace Service

structure Request where
  method : String
  target : String
  contentType : Option String := none
  body : List UInt8 := []

/-- What comes with a response: nothing to look at, a text, or a JSON document. -/
inductive Content where
  | none
  | text (s : String)
  | document (node : Json.Node)

structure Response where
  status : Nat
  content : Content := .none

/-- What the service is asked for. -/
inductive Route where
  | greeting
  | health
  | render
  | trim
deriving DecidableEq, Repr

def Route.ofPath? (path : String) : Option Route :=
  if path = "/" then some greeting
  else if path = "/health" then some health
  else if path = "/linkify" then some render
  else if path = "/trim" then some trim
  else none

def Route.ofTarget? (target : String) : Option Route :=
  (Target.path? target.toList).bind fun path => ofPath? (String.ofList path)

/-! ## Rendering -/

/-- A Tweet to render, and which trailing links to leave out if the settings do not say it. -/
structure RenderRequest where
  tweet : Tweet := {}
  quotes : Option Bool := none
  vines : Option Bool := none

namespace RenderRequest

open Json (Decoder RecordField)

def fields : List (RecordField RenderRequest) := [
  .demand (.of "tweet" Tweet.decoder fun v r => { r with tweet := v }),
  .of "strip_quote_tweet" (.optional .bool) fun v r => { r with quotes := v },
  .of "strip_vine_card" (.optional .bool) fun v r => { r with vines := v }]

def decoder : Decoder RenderRequest := .record fields {}

/-- The settings, where what the request says goes first. -/
def settings (r : RenderRequest) (s : Settings) : Settings :=
  { s with elision := ⟨r.quotes.getD s.elision.quotes, r.vines.getD s.elision.vines⟩ }

end RenderRequest

/-- What is told about a span: its range, its address and the text under it. -/
structure SpanReply where
  start : Nat
  stop : Nat
  url : String
  display : String
deriving DecidableEq, Repr

namespace SpanReply

def ofSpan (t : RenderedText) (s : Span) : SpanReply :=
  ⟨s.start, s.stop, s.url, (t.textUnder? s).getD ""⟩

def toNode (r : SpanReply) : Json.Node := .ofMembers [
  ("start", .ofInt r.start),
  ("end", .ofInt r.stop),
  ("url", .ofString r.url),
  ("display", .ofString r.display)]

end SpanReply

/-- What is told about a Tweet: its rendered text, if there is one, and the spans in it. -/
structure RenderReply where
  text : Option String := none
  spans : List SpanReply := []
deriving DecidableEq, Repr

namespace RenderReply

def ofRendered (t : RenderedText) : RenderReply := ⟨some t.text, t.spans.map (SpanReply.ofSpan t)⟩

def toNode (r : RenderReply) : Json.Node := .ofMembers [
  ("text", .ofOption .ofString r.text),
  ("spans", .ofItems (r.spans.map SpanReply.toNode))]

end RenderReply

def renderTweet (settings : Settings) (r : RenderRequest) : RenderReply :=
  ((r.tweet.render? (r.settings settings)).map .ofRendered).getD {}

/-! ## Trimming -/

def textDecoder : Json.Decoder String :=
  .record [.demand (.of "text" .string fun v _ => v)] ""

def trimText (text : String) : Json.Node :=
  .ofMembers [("text", .ofString (String.ofList (trimRight text.toList)))]

/-! ## Answering -/

def bodyLimit : Nat := 2097152

/-- Answers a request whose body is a document, once its content type says so. What follows the
document is not looked at. -/
def answerDocument {α : Type} (decode : Json.Decoder α) (answer : α → Json.Node) (r : Request) :
    Response :=
  if !(r.contentType.bind MediaType.parse).any MediaType.isJson then ⟨415, .none⟩
  else if bodyLimit < r.body.length then ⟨413, .none⟩
  else
    match Json.decodeFirst decode r.body with
    | .ok value => ⟨200, .document (answer value)⟩
    | .error .mismatched => ⟨422, .none⟩
    | .error _ => ⟨400, .none⟩

def answerPlain (content : Content) (r : Request) : Response :=
  if r.method = "GET" then ⟨200, content⟩
  else if r.method = "HEAD" then ⟨200, .text ""⟩
  else ⟨405, .none⟩

def healthNode : Json.Node :=
  .ofMembers [("status", .ofString "healthy"), ("service", .ofString "tweetlinkify")]

/-- Answers a request. -/
def respond (settings : Settings) (r : Request) : Response :=
  match Route.ofTarget? r.target with
  | none => ⟨404, .none⟩
  | some .greeting => answerPlain (.text "Tweet text linkifier. POST a Tweet to /linkify.") r
  | some .health => answerPlain (.document healthNode) r
  | some route =>
    if r.method ≠ "POST" then ⟨405, .none⟩
    else if route = .trim then answerDocument textDecoder trimText r
    else answerDocument RenderRequest.decoder (RenderReply.toNode ∘ renderTweet settings) r

end Service
end TweetText
