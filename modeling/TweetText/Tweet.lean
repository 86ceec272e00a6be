import TweetText.Json

/-!
# Tweets

A Tweet as the API describes it: its number, its text in a short and a full form, and the entities
found in the text. The offsets of an entity count code points of the text as it was sent.
-/

namespace TweetText

structure Link where
  url : String := ""
  expanded : Option String := none
  display : String := ""
  start : Int32 := 0
  stop : Int32 := 0
deriving DecidableEq, Repr

/-- A photo, video or animation, which the text shows as a link. -/
structure Media where
  id : Int64 := 0
  idText : Option String := none
  url : String := ""
  expanded : Option String := none
  display : String := ""
  start : Int32 := 0
  stop : Int32 := 0
  source : Option String := none
  type : String := ""
  altText : Option String := none
deriving DecidableEq, Repr

/-- A hashtag, without its number sign. -/
structure Hashtag where
  text : String := ""
  start : Int32 := 0
  stop : Int32 := 0
deriving DecidableEq, Repr

/-- A stock symbol, without its dollar sign. -/
structure Cashtag where
  text : String := ""
  start : Int32 := 0
  stop : Int32 := 0
deriving DecidableEq, Repr

/-- A user named in the text, without the at sign. -/
structure Mention where
  id : Int64 := 0
  idText : Option String := none
  name : String := ""
  screenName : String := ""
  start : Int32 := 0
  stop : Int32 := 0
deriving DecidableEq, Repr

structure Entities where
  links : List Link := []
  mentions : List Mention := []
  media : List Media := []
  hashtags : List Hashtag := []
  cashtags : List Cashtag := []
deriving DecidableEq, Repr

/-- A Tweet. The extended entities repeat the entities and list all of several media. -/
structure Tweet where
  id : Int64 := 0
  idText : Option String := none
  text : Option String := none
  fullText : Option String := none
  entities : Option Entities := none
  extendedEntities : Option Entities := none
deriving DecidableEq, Repr

namespace Tweet

/-- The text to show: the full one where there is one. -/
def shownText (t : Tweet) : Option String := t.fullText.or t.text

/-- The media to show: the extended ones, or else the plain ones. -/
def shownMedia (t : Tweet) : List Media :=
  match (t.extendedEntities.map Entities.media).getD [] with
  | [] => (t.entities.map Entities.media).getD []
  | extended => extended

end Tweet

/-! ## Documents

The documents that the API sends. Every record is written with all of its fields, and read with any
of them missing. -/

open Json (Decoder RecordField Node)

def rangeDecoder : Decoder (Int32 × Int32) := .pair .int32

def rangeNode (start stop : Int32) : Node := .ofItems [.ofInt start.toInt, .ofInt stop.toInt]

namespace Link

def fields : List (RecordField Link) := [
  .of "url" .string fun v e => { e with url := v },
  .of "expanded_url" (.optional .string) fun v e => { e with expanded := v },
  .of "display_url" .string fun v e => { e with display := v },
  .of "indices" rangeDecoder fun v e => { e with start := v.1, stop := v.2 }]

def decoder : Decoder Link := .record fields {}

def toNode (e : Link) : Node := .ofMembers [
  ("url", .ofString e.url),
  ("expanded_url", .ofOption .ofString e.expanded),
  ("display_url", .ofString e.display),
  ("indices", rangeNode e.start e.stop)]

end Link

namespace Media

def fields : List (RecordField Media) := [
  .of "id" .int64 fun v e => { e with id := v },
  .of "id_str" (.optional .string) fun v e => { e with idText := v },
  .of "url" .string fun v e => { e with url := v },
  .of "expanded_url" (.optional .string) fun v e => { e with expanded := v },
  .of "display_url" .string fun v e => { e with display := v },
  .of "indices" rangeDecoder fun v e => { e with start := v.1, stop := v.2 },
  .of "media_url_https" (.optional .string) fun v e => { e with source := v },
  .of "type" .string fun v e => { e with type := v },
  .of "ext_alt_text" (.optional .string) fun v e => { e with altText := v }]

def decoder : Decoder Media := .record fields {}

def toNode (e : Media) : Node := .ofMembers [
  ("id", .ofInt e.id.toInt),
  ("id_str", .ofOption .ofString e.idText),
  ("url", .ofString e.url),
  ("expanded_url", .ofOption .ofString e.expanded),
  ("display_url", .ofString e.display),
  ("indices", rangeNode e.start e.stop),
  ("media_url_https", .ofOption .ofString e.source),
  ("type", .ofString e.type),
  ("ext_alt_text", .ofOption .ofString e.altText)]

end Media

namespace Hashtag

def fields : List (RecordField Hashtag) := [
  .of "text" .string fun v e => { e with text := v },
  .of "indices" rangeDecoder fun v e => { e with start := v.1, stop := v.2 }]

def decoder : Decoder Hashtag := .record fields {}

def toNode (e : Hashtag) : Node :=
  .ofMembers [("text", .ofString e.text), ("indices", rangeNode e.start e.stop)]

end Hashtag

namespace Cashtag

def fields : List (RecordField Cashtag) := [
  .of "text" .string fun v e => { e with text := v },
  .of "indices" rangeDecoder fun v e => { e with start := v.1, stop := v.2 }]

def decoder : Decoder Cashtag := .record fields {}

def toNode (e : Cashtag) : Node :=
  .ofMembers [("text", .ofString e.text), ("indices", rangeNode e.start e.stop)]

end Cashtag

namespace Mention

def fields : List (RecordField Mention) := [
  .of "id" .int64 fun v e => { e with id := v },
  .of "id_str" (.optional .string) fun v e => { e with idText := v },
  .of "name" .string fun v e => { e with name := v },
  .of "screen_name" .string fun v e => { e with screenName := v },
  .of "indices" rangeDecoder fun v e => { e with start := v.1, stop := v.2 }]

def decoder : Decoder Mention := .record fields {}

def toNode (e : Mention) : Node := .ofMembers [
  ("id", .ofInt e.id.toInt),
  ("id_str", .ofOption .ofString e.idText),
  ("name", .ofString e.name),
  ("screen_name", .ofString e.screenName),
  ("indices", rangeNode e.start e.stop)]

end Mention

namespace Entities

def fields : List (RecordField Entities) := [
  .of "urls" (.list Link.decoder) fun v e => { e with links := v },
  .of "user_mentions" (.list Mention.decoder) fun v e => { e with mentions := v },
  .of "media" (.list Media.decoder) fun v e => { e with media := v },
  .of "hashtags" (.list Hashtag.decoder) fun v e => { e with hashtags := v },
  .of "symbols" (.list Cashtag.decoder) fun v e => { e with cashtags := v }]

def decoder : Decoder Entities := .record fields {}

def toNode (e : Entities) : Node := .ofMembers [
  ("urls", .ofItems (e.links.map Link.toNode)),
  ("user_mentions", .ofItems (e.mentions.map Mention.toNode)),
  ("media", .ofItems (e.media.map Media.toNode)),
  ("hashtags", .ofItems (e.hashtags.map Hashtag.toNode)),
  ("symbols", .ofItems (e.cashtags.map Cashtag.toNode))]

end Entities

namespace Tweet

def fields : List (RecordField Tweet) := [
  .of "id" .int64 fun v t => { t with id := v },
  .of "id_str" (.optional .string) fun v t => { t with idText := v },
  .of "text" (.optional .string) fun v t => { t with text := v },
  .of "full_text" (.optional .string) fun v t => { t with fullText := v },
  .of "entities" (.optional Entities.decoder) fun v t => { t with entities := v },
  .of "extended_entities" (.optional Entities.decoder) fun v t => { t with extendedEntities := v }]

def decoder : Decoder Tweet := .record fields {}

def toNode (t : Tweet) : Node := .ofMembers [
  ("id", .ofInt t.id.toInt),
  ("id_str", .ofOption .ofString t.idText),
  ("text", .ofOption .ofString t.text),
  ("full_text", .ofOption .ofString t.fullText),
  ("entities", .ofOption Entities.toNode t.entities),
  ("extended_entities", .ofOption Entities.toNode t.extendedEntities)]

end Tweet
end TweetText
