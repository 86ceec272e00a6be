import TweetText.Render

/-!
# The command line

What the program prints when it is given one Tweet, and how it exits.
-/

namespace TweetText

/-- Where the Tweet comes from. -/
inductive Source where
  | standardInput
  | file (path : String)
deriving DecidableEq, Repr

/-- All that a run of the program shows: the lines that it prints and its exit code. A line may have
line breaks of its own, from the text of the Tweet. -/
structure Transcript where
  lines : List String
  exit : UInt32
deriving DecidableEq, Repr

namespace Transcript

def output (t : Transcript) : String := String.join (t.lines.map (· ++ "\n"))

def after (lines : List String) (t : Transcript) : Transcript :=
  { t with lines := lines ++ t.lines }

def heading (source : Source) : List String := [
  "🔗 Tweet Linkify Tool",
  "=====================",
  match source with
  | .standardInput => "⌨️  Reading Tweet from stdin"
  | .file path => s!"📂 Reading Tweet from {path}"]

def faultText : Json.Fault → String
  | .malformed => "malformed JSON"
  | .truncated => "the text ends too early"
  | .mismatched => "a value has the wrong type"

def spanLine (t : RenderedText) (s : Span) : String :=
  let text := (t.textUnder? s).getD ""
  s!"   [{s.start}, {s.stop}) {text} -> {s.url}"

def renderedLines (t : RenderedText) : List String :=
  ["", s!"📝 {t.text}", s!"📏 Length: {t.length} UTF-16 code units"] ++
    if t.spans.isEmpty then ["🔍 No clickable spans"]
    else s!"🔍 {t.spans.length} clickable spans:" :: t.spans.map (spanLine t)

def elisionLine (e : Elision) : String :=
  s!"⚙️  Strip quote Tweet: {e.quotes}, strip Vine card: {e.vines}"

/-- Renders a Tweet, unless the environment is malformed. -/
def ofTweet (env : Environment) (tweet : Tweet) : Transcript :=
  match Settings.ofEnvironment env with
  | .error _ => ⟨[], 1⟩
  | .ok settings =>
    after [elisionLine settings.elision] <|
      match tweet.render? settings with
      | none => ⟨[s!"⚠️  Tweet {tweet.id.toInt} has no text"], 0⟩
      | some rendered => ⟨renderedLines rendered, 0⟩

def ofText (env : Environment) (text : String) : Transcript :=
  if text.toList.all isBlank then ⟨["❌ No Tweet JSON provided!"], 1⟩
  else
    match Json.decodeOnly Tweet.decoder text.toUTF8.toList with
    | .error fault => ⟨[s!"❌ Input is not a valid Tweet: {faultText fault}"], 1⟩
    | .ok tweet => ofTweet env tweet

/-- A run of the program on the bytes of its source, none if they cannot be had. Bytes that are not
UTF-8 count as such. -/
def ofRun (env : Environment) (source : Source) (input : Option ByteArray) : Transcript :=
  after (heading source) <|
    match input.bind String.fromUTF8? with
    | none => ⟨[], 1⟩
    | some text => ofText env text

end Transcript
end TweetText
