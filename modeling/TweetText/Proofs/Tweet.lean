import TweetText.Proofs.Json
import TweetText.Tweet

/-!
# Tweets and their documents

A Tweet is read back off the document that it is written as, and off every document that says the
same (`Tweet.decoder_of_edits`). Each record has three facts about its list of fields, one field
after the other: they are told apart by their names and change different parts of a record; the
document is written with all of them, in their order; and the value of each has a shape whose
default is what an empty record has there.
-/

namespace TweetText

open Json Json.Decoder Json.RecordField

/-! ## Values of fields -/

theorem decode_of {ρ α : Type} {name : String} {decode : Decoder α} {set : α → ρ → ρ}
    {node : Node} {a : α} (h : decode node = .ok a) :
    (RecordField.of name decode set).decode node = .ok (set a) :=
  map_eq_ok_iff.mpr ⟨a, h, rfl⟩

theorem rangeDecoder_rangeNode (start stop : Int32) :
    rangeDecoder (rangeNode start stop) = .ok (start, stop) := by
  have hpair : rangeDecoder (rangeNode start stop) = (do
      let a ← Decoder.int32 (.ofInt start.toInt)
      let b ← Decoder.int32 (.ofInt stop.toInt)
      return (a, b)) := rfl
  rw [hpair, int32_ofInt, int32_ofInt]
  rfl

theorem rangeDecoder_lenient : Lenient rangeDecoder .range (0, 0) :=
  .fixed (fun _ _ => nofun) (by rintro node ⟨⟩; rfl)

theorem optional_ofString (s : Option String) :
    Decoder.optional .string (.ofOption .ofString s) = .ok s := by
  have hread : ∀ s, Decoder.string (.ofString s) = .ok s := fun _ => rfl
  exact optional_ofOption hread (fun _ => nofun) s

/-! ## Entities of each kind -/

namespace Link

def shapes : List (String × Shape) := [
  ("url", .text),
  ("expanded_url", .optional .text),
  ("display_url", .text),
  ("indices", .range)]

theorem lawful : Lawful fields where
  names := by decide
  commutes := by
    simp only [fields, List.pairwise_cons, List.forall_mem_cons]
    and_intros <;> first | exact commutes_of fun _ _ _ => rfl | simp

theorem decoder_toNode (e : Link) : decoder e.toNode = .ok e :=
  record_ofMembers lawful.names <|
    .cons (decode_of rfl) <|
    .cons (decode_of (optional_ofString e.expanded)) <|
    .cons (decode_of rfl) <|
    .cons (decode_of (rangeDecoder_rangeNode e.start e.stop)) (.nil e)

theorem lenient : Lenient decoder (.record shapes) {} :=
  .record lawful <|
    .cons (suits_of .string rfl) <|
    .cons (suits_of .optional_string rfl) <|
    .cons (suits_of .string rfl) <|
    .cons (suits_of rangeDecoder_lenient rfl) .nil

end Link

namespace Media

def shapes : List (String × Shape) := [
  ("id", .number),
  ("id_str", .optional .text),
  ("url", .text),
  ("expanded_url", .optional .text),
  ("display_url", .text),
  ("indices", .range),
  ("media_url_https", .optional .text),
  ("type", .text),
  ("ext_alt_text", .optional .text)]

theorem lawful : Lawful fields where
  names := by decide
  commutes := by
    simp only [fields, List.pairwise_cons, List.forall_mem_cons]
    and_intros <;> first | exact commutes_of fun _ _ _ => rfl | simp

theorem decoder_toNode (e : Media) : decoder e.toNode = .ok e :=
  record_ofMembers lawful.names <|
    .cons (decode_of (int64_ofInt e.id)) <|
    .cons (decode_of (optional_ofString e.idText)) <|
    .cons (decode_of rfl) <|
    .cons (decode_of (optional_ofString e.expanded)) <|
    .cons (decode_of rfl) <|
    .cons (decode_of (rangeDecoder_rangeNode e.start e.stop)) <|
    .cons (decode_of (optional_ofString e.source)) <|
    .cons (decode_of rfl) <|
    .cons (decode_of (optional_ofString e.altText)) (.nil e)

theorem lenient : Lenient decoder (.record shapes) {} :=
  .record lawful <|
    .cons (suits_of .int64 rfl) <|
    .cons (suits_of .optional_string rfl) <|
    .cons (suits_of .string rfl) <|
    .cons (suits_of .optional_string rfl) <|
    .cons (suits_of .string rfl) <|
    .cons (suits_of rangeDecoder_lenient rfl) <|
    .cons (suits_of .optional_string rfl) <|
    .cons (suits_of .string rfl) <|
    .cons (suits_of .optional_string rfl) .nil

end Media

namespace Hashtag

def shapes : List (String × Shape) := [("text", .text), ("indices", .range)]

theorem lawful : Lawful fields where
  names := by decide
  commutes := by
    simp only [fields, List.pairwise_cons, List.forall_mem_cons]
    and_intros <;> first | exact commutes_of fun _ _ _ => rfl | simp

theorem decoder_toNode (e : Hashtag) : decoder e.toNode = .ok e :=
  record_ofMembers lawful.names <|
    .cons (decode_of rfl) <|
    .cons (decode_of (rangeDecoder_rangeNode e.start e.stop)) (.nil e)

theorem lenient : Lenient decoder (.record shapes) {} :=
  .record lawful <|
    .cons (suits_of .string rfl) <|
    .cons (suits_of rangeDecoder_lenient rfl) .nil

end Hashtag

namespace Cashtag

def shapes : List (String × Shape) := [("text", .text), ("indices", .range)]

theorem lawful : Lawful fields where
  names := by decide
  commutes := by
    simp only [fields, List.pairwise_cons, List.forall_mem_cons]
    and_intros <;> first | exact commutes_of fun _ _ _ => rfl | simp

theorem decoder_toNode (e : Cashtag) : decoder e.toNode = .ok e :=
  record_ofMembers lawful.names <|
    .cons (decode_of rfl) <|
    .cons (decode_of (rangeDecoder_rangeNode e.start e.stop)) (.nil e)

theorem lenient : Lenient decoder (.record shapes) {} :=
  .record lawful <|
    .cons (suits_of .string rfl) <|
    .cons (suits_of rangeDecoder_lenient rfl) .nil

end Cashtag

namespace Mention

def shapes : List (String × Shape) := [
  ("id", .number),
  ("id_str", .optional .text),
  ("name", .text),
  ("screen_name", .text),
  ("indices", .range)]

theorem lawful : Lawful fields where
  names := by decide
  commutes := by
    simp only [fields, List.pairwise_cons, List.forall_mem_cons]
    and_intros <;> first | exact commutes_of fun _ _ _ => rfl | simp

theorem decoder_toNode (e : Mention) : decoder e.toNode = .ok e :=
  record_ofMembers lawful.names <|
    .cons (decode_of (int64_ofInt e.id)) <|
    .cons (decode_of (optional_ofString e.idText)) <|
    .cons (decode_of rfl) <|
    .cons (decode_of rfl) <|
    .cons (decode_of (rangeDecoder_rangeNode e.start e.stop)) (.nil e)

theorem lenient : Lenient decoder (.record shapes) {} :=
  .record lawful <|
    .cons (suits_of .int64 rfl) <|
    .cons (suits_of .optional_string rfl) <|
    .cons (suits_of .string rfl) <|
    .cons (suits_of .string rfl) <|
    .cons (suits_of rangeDecoder_lenient rfl) .nil

end Mention

/-! ## The entities of a text -/

namespace Entities

def shapes : List (String × Shape) := [
  ("urls", .list (.record Link.shapes)),
  ("user_mentions", .list (.record Mention.shapes)),
  ("media", .list (.record Media.shapes)),
  ("hashtags", .list (.record Hashtag.shapes)),
  ("symbols", .list (.record Cashtag.shapes))]

theorem lawful : Lawful fields where
  names := by decide
  commutes := by
    simp only [fields, List.pairwise_cons, List.forall_mem_cons]
    and_intros <;> first | exact commutes_of fun _ _ _ => rfl | simp

theorem decoder_toNode (e : Entities) : decoder e.toNode = .ok e :=
  record_ofMembers lawful.names <|
    .cons (decode_of (list_ofItems_map Link.decoder_toNode e.links)) <|
    .cons (decode_of (list_ofItems_map Mention.decoder_toNode e.mentions)) <|
    .cons (decode_of (list_ofItems_map Media.decoder_toNode e.media)) <|
    .cons (decode_of (list_ofItems_map Hashtag.decoder_toNode e.hashtags)) <|
    .cons (decode_of (list_ofItems_map Cashtag.decoder_toNode e.cashtags)) (.nil e)

theorem optional_toNode (e : Option Entities) :
    Decoder.optional decoder (.ofOption toNode e) = .ok e :=
  optional_ofOption decoder_toNode (fun _ => nofun) e

theorem lenient : Lenient decoder (.record shapes) {} :=
  .record lawful <|
    .cons (suits_of Link.lenient.list rfl) <|
    .cons (suits_of Mention.lenient.list rfl) <|
    .cons (suits_of Media.lenient.list rfl) <|
    .cons (suits_of Hashtag.lenient.list rfl) <|
    .cons (suits_of Cashtag.lenient.list rfl) .nil

end Entities

/-! ## Whole Tweets -/

namespace Tweet

def shapes : List (String × Shape) := [
  ("id", .number),
  ("id_str", .optional .text),
  ("text", .optional .text),
  ("full_text", .optional .text),
  ("entities", .optional (.record Entities.shapes)),
  ("extended_entities", .optional (.record Entities.shapes))]

theorem lawful : Lawful fields where
  names := by decide
  commutes := by
    simp only [fields, List.pairwise_cons, List.forall_mem_cons]
    and_intros <;> first | exact commutes_of fun _ _ _ => rfl | simp

theorem decoder_toNode (t : Tweet) : decoder t.toNode = .ok t :=
  record_ofMembers lawful.names <|
    .cons (decode_of (int64_ofInt t.id)) <|
    .cons (decode_of (optional_ofString t.idText)) <|
    .cons (decode_of (optional_ofString t.text)) <|
    .cons (decode_of (optional_ofString t.fullText)) <|
    .cons (decode_of (Entities.optional_toNode t.entities)) <|
    .cons (decode_of (Entities.optional_toNode t.extendedEntities)) (.nil t)

theorem lenient : Lenient decoder (.record shapes) {} :=
  .record lawful <|
    .cons (suits_of .int64 rfl) <|
    .cons (suits_of .optional_string rfl) <|
    .cons (suits_of .optional_string rfl) <|
    .cons (suits_of .optional_string rfl) <|
    .cons (suits_of Entities.lenient.optional_record rfl) <|
    .cons (suits_of Entities.lenient.optional_record rfl) .nil

/-- **Documents that say the same.** A Tweet is read back off the document that it is written as.
So it is off every document that comes of that one by edits at any depth: members in another order,
members of any value with other names, members with the default values of their fields left out,
and null for lists without elements. -/
theorem decoder_of_edits (t : Tweet) :
    decoder t.toNode = .ok t ∧
      ∀ document, Relation.ReflTransGen (Edit (.record shapes)) t.toNode document →
        decoder document = .ok t :=
  ⟨decoder_toNode t, fun _ hedits => lenient.edits hedits (decoder_toNode t)⟩

/-- A Tweet of one hashtag. -/
def tagged : Tweet :=
  { id := 20, fullText := some "hi #x",
    entities := some { hashtags := [{ text := "x", start := 3, stop := 5 }] } }

/-- The document of that Tweet with one more member, without extended entities, with null for its
links, and with the members of its hashtag turned. -/
def taggedEdited : Node := .ofMembers [
  ("lang", .ofItems [.bool true]),
  ("id", .ofInt 20),
  ("id_str", .null),
  ("text", .null),
  ("full_text", .ofString "hi #x"),
  ("entities", .ofMembers [
    ("urls", .null),
    ("user_mentions", .ofItems []),
    ("media", .ofItems []),
    ("hashtags", .ofItems [.ofMembers [("indices", rangeNode 3 5), ("text", .ofString "x")]]),
    ("symbols", .ofItems [])])]

theorem edits_tagged :
    Relation.ReflTransGen (Edit (.record shapes)) tagged.toNode taggedEdited := by
  have hmissing : ("extended_entities", .optional (.record Entities.shapes)) ∈ shapes := by
    simp [shapes]
  have hentities : ("entities", .optional (.record Entities.shapes)) ∈ shapes := by
    simp [shapes]
  have hlinks : ("urls", .list (.record Link.shapes)) ∈ Entities.shapes := by
    simp [Entities.shapes]
  have htags : ("hashtags", .list (.record Hashtag.shapes)) ∈ Entities.shapes := by
    simp [Entities.shapes]
  refine .head (.remove [_, _, _, _, _] [] hmissing rfl) ?_
  refine .head (.member [_, _, _, _] [] hentities
    (.present (.member [] [_, _, _, _] hlinks .nullify))) ?_
  refine .head (.member [_, _, _, _] [] hentities
    (.present (.member [_, _, _] [_] htags (.item [] [] (.reorder (.swap _ _ _)))))) ?_
  exact .single (.add [] _ (by decide) rfl)

theorem decoder_taggedEdited :
    Relation.ReflTransGen (Edit (.record shapes)) tagged.toNode taggedEdited ∧
      decoder taggedEdited = .ok tagged :=
  ⟨edits_tagged, (decoder_of_edits tagged).2 _ edits_tagged⟩

end Tweet
end TweetText
