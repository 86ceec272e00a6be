import TweetText.Transcript

/-!
# The program

Renders the Tweet in the file of the first argument, or on standard input where there is none.
-/

namespace TweetText.Program

/-- All bytes of a stream. -/
partial def readAll (stream : IO.FS.Stream) (sofar : ByteArray) : IO ByteArray := do
  let chunk ← stream.read 65536
  if chunk.isEmpty then return sofar else readAll stream (sofar ++ chunk)

def readSource : Source → IO ByteArray
  | .standardInput => do readAll (← IO.getStdin) .empty
  | .file path => IO.FS.readBinFile path

def names : List String := ["LINKIFY_STRIP_QUOTE_TWEET", "LINKIFY_STRIP_VINE_CARD",
  "LINKIFY_LINK_COLOR", "LINKIFY_LINK_HIGHLIGHT_COLOR", "LINKIFY_BACKGROUND_COLOR"]

def readEnvironment : IO Environment := do
  let values ← names.mapM fun name => do
    return (← IO.getEnv name).map fun value => (name, value.toUTF8)
  return ⟨values.filterMap id⟩

end TweetText.Program

open TweetText in
def main (args : List String) : IO UInt32 := do
  let source := match args with
    | path :: _ => Source.file path
    | [] => Source.standardInput
  let input ← try some <$> Program.readSource source catch _ => pure none
  let transcript := Transcript.ofRun (← Program.readEnvironment) source input
  IO.print transcript.output
  return transcript.exit
