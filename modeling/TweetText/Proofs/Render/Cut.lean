import TweetText.Proofs.MarkedText.Adopt
import TweetText.Proofs.Render.Spans

/-!
# Rendering is cutting

The entities of a Tweet count the characters of its text as it was sent, and five passes bring their
display texts into what the text says. When each entity takes plain characters of its own, the
result is that of cutting the text as it was sent: each part between entities has its references
replaced on its own, each entity has its display text put, and the end is trimmed
(`render?_eq_cut`).
-/

namespace TweetText

open Utf16 Reference

/-! ## What parts say -/

namespace Reference

variable {s : List Char} {start stop : Nat}

theorem ofChars_said_take_append (hstart : IsCut s start) (hle : start ≤ stop)
    (hlen : stop ≤ s.length) :
    ofChars (said (s.take stop)) =
      ofChars (said (s.take start)) ++ ofChars (said (s.extract start stop)) := by
  rw [said_take_append hstart hle hlen, ofChars_append]

theorem length_said_take_le (hstart : IsCut s start) (hle : start ≤ stop) (hlen : stop ≤ s.length) :
    length (said (s.take start)) ≤ length (said (s.take stop)) := by
  rw [said_take_append hstart hle hlen, Utf16.length_append]
  omega

theorem drop_ofChars_said (hstart : IsCut s start) (hlen : start ≤ s.length) :
    (ofChars (said s)).drop (length (said (s.take start))) = ofChars (said (s.drop start)) := by
  rw [hstart.said_eq hlen, ofChars_append, ← length_ofChars, List.drop_left]

theorem extract_ofChars_said (hstart : IsCut s start) (hstop : IsCut s stop) (hle : start ≤ stop)
    (hlen : stop ≤ s.length) :
    (ofChars (said s)).extract (length (said (s.take start))) (length (said (s.take stop))) =
      ofChars (said (s.extract start stop)) := by
  have htake := ofChars_said_take_append hstart hle hlen
  have hsub : length (said (s.take stop)) - length (said (s.take start)) =
      (ofChars (said (s.extract start stop))).length := by
    rw [← length_ofChars, htake, List.length_append, length_ofChars]
    omega
  rw [List.extract_eq_take_drop, hsub, hstop.said_eq hlen, ofChars_append, htake, ← length_ofChars,
    List.append_assoc, List.drop_left, List.take_left]

theorem SaysBasic.length_said_le (h : SaysBasic s) : length (said s) ≤ length s := by
  have := Reference.length_said_le s
  rw [length_eq, length_eq, h.supplementaries_said]
  omega

end Reference

/-- What a part of a text says, in units: its references are replaced only between marks. -/
def Part.said : Part Char → Part UInt16
  | between l => between (ofChars (Reference.said l))
  | under a l => under a (ofChars l)

namespace Mark

variable {s : List Char} {a b : Mark}

theorem Follows.first_eq (h : a.Follows s b) :
    b.first = length (Reference.said (s.take a.first)) := by
  rw [first, h.start_eq, Int.toNat_natCast]

theorem Follows.past_eq (h : a.Follows s b) :
    b.past = length (Reference.said (s.take a.past)) := by
  rw [past, h.stop_eq, Int.toNat_natCast]

end Mark

namespace Part

variable {s : List Char} {f : Mark → Mark} {cursor : Nat} {as : List Mark}

/-- Cutting a text and saying its parts is cutting what the text says, at marks that follow. -/
theorem cut_said (style : LinkStyle) (out out' : Mark → Bool)
    (hfollows : ∀ a ∈ as, a.TakesPlain s ∧ a.Follows s (f a))
    (hapart : as.Pairwise fun a b => a.stop ≤ b.start) (hcut : IsCut s cursor)
    (hcursor : cursor ≤ s.length) (hpast : ∀ a ∈ as, cursor ≤ a.first)
    (hput : ∀ a ∈ as, (f a).display = a.display ∧ (f a).url = a.url ∧ out' (f a) = out a)
    (position : Nat) :
    units out' (cut (ofChars (Reference.said s)) (length (Reference.said (s.take cursor)))
        (as.map f)) = units out ((cut s cursor as).map Part.said) ∧
      spansFrom style out' position (cut (ofChars (Reference.said s))
        (length (Reference.said (s.take cursor))) (as.map f)) =
          spansFrom style out position ((cut s cursor as).map Part.said) := by
  induction as generalizing cursor position with
  | nil => simp [cut, units, put, spansFrom, Part.said, drop_ofChars_said hcut hcursor]
  | cons a as ih =>
      rw [List.forall_mem_cons] at hfollows hput
      rw [List.pairwise_cons] at hapart
      obtain ⟨⟨htakes, hfollow⟩, hfollows⟩ := hfollows
      obtain ⟨⟨hdisplay, hurl, hout⟩, hput⟩ := hput
      have hle := htakes.liesIn.first_le_past
      have hlen := htakes.liesIn.past_le
      have hbehind : ∀ b ∈ as, a.past ≤ b.first := by
        intro b hb
        have hstop := hapart.1 b hb
        rw [Int32.le_iff_toInt_le, ← htakes.liesIn.past_eq,
          ← (hfollows b hb).1.liesIn.first_eq] at hstop
        omega
      obtain ⟨hunits, hspans⟩ := ih hfollows hapart.2 htakes.isCut_past hlen hbehind hput
        (position + (ofChars (Reference.said (s.extract cursor a.first))).length +
          (a.put out (ofChars (s.extract a.first a.past))).length)
      have hgap := extract_ofChars_said hcut htakes.isCut_first (hpast a List.mem_cons_self)
        (Nat.le_trans hle hlen)
      have hown : (ofChars (Reference.said s)).extract (length (Reference.said (s.take a.first)))
          (length (Reference.said (s.take a.past))) = ofChars (s.extract a.first a.past) := by
        rw [extract_ofChars_said htakes.isCut_first htakes.isCut_past hle hlen,
          htakes.avoids.said_extract hlen]
      have hputs : ∀ own, (f a).put out' own = a.put out own := by
        intro own
        rw [Mark.put, Mark.put, Mark.putAs, Mark.putAs, hout, hdisplay]
      have hspan : ∀ position, (f a).span? style out' position = a.span? style out position := by
        intro position
        rw [Mark.span?, Mark.span?, hout, hdisplay, hurl]
      simp only [List.map_cons, cut, hfollow.first_eq, hfollow.past_eq, hgap, hown]
      constructor
      · simp only [units, List.flatMap_cons, Part.said, put, hputs] at hunits ⊢
        rw [hunits]
      · simp only [spansFrom, Part.said, hputs, hspan]
        rw [hspans]

end Part

/-! ## Where the marks of a list settle -/

namespace Mark

variable {s : List Char} {a b : Mark} {as : List Mark}

theorem settle_url (s : List Char) (a : Mark) : (a.settle s).url = a.url := rfl

theorem settle_display (s : List Char) (a : Mark) : (a.settle s).display = a.display := rfl

/-- The mark to leave out is known by what it stands for, wherever it lies. -/
theorem find?_map_settle (s : List Char) (text : String) (as : List Mark) (elision : Elision) :
    TrailingLink.find? text (as.map (settle s)) elision =
      (TrailingLink.find? text as elision).map (settle s) := by
  have hcovers : (fun a => TrailingLink.endsIn text a.url && elision.covers a) ∘ settle s =
      fun a => TrailingLink.endsIn text a.url && elision.covers a := rfl
  rw [TrailingLink.find?, TrailingLink.find?, List.getLast?_map, Option.filter_map, hcovers]

theorem stop_le_start_of_follows (ha : a.TakesPlain s) (hb : b.TakesPlain s) {a' b' : Mark}
    (ha' : a.Follows s a') (hb' : b.Follows s b') (hle : a.stop ≤ b.start) :
    a'.start < a'.stop ∧ a'.stop ≤ b'.start := by
  have hlt := ha.first_lt_past
  have hlength := ha.length_said_take_past
  have hstart : b.first ≤ s.length := Nat.le_trans hb.liesIn.first_le_past hb.liesIn.past_le
  rw [Int32.le_iff_toInt_le, ← ha.liesIn.past_eq, ← hb.liesIn.first_eq] at hle
  have hmono := length_said_take_le ha.isCut_past (by omega) hstart
  rw [Int32.lt_iff_toInt_lt, Int32.le_iff_toInt_le, ha'.start_eq, ha'.stop_eq, hb'.start_eq]
  omega

/-- Marks that lie apart begin in the order in which they began before. -/
theorem start_le_iff_of_follows (ha : a.TakesPlain s) (hb : b.TakesPlain s) {a' b' : Mark}
    (ha' : a.Follows s a') (hb' : b.Follows s b') (hapart : a.Apart b) :
    (a.start ≤ b.start ↔ a'.start ≤ b'.start) ∧ a'.start ≠ b'.start := by
  have hane := ha.nonempty
  have hbne := hb.nonempty
  rw [Ne, ← Int32.toInt_inj]
  rw [Int32.lt_iff_toInt_lt] at hane hbne
  rcases hapart with hle | hle
  · obtain ⟨hlt', hle'⟩ := stop_le_start_of_follows ha hb ha' hb' hle
    rw [Int32.lt_iff_toInt_lt] at hlt'
    rw [Int32.le_iff_toInt_le] at hle hle' ⊢
    rw [Int32.le_iff_toInt_le]
    omega
  · obtain ⟨hlt', hle'⟩ := stop_le_start_of_follows hb ha hb' ha' hle
    rw [Int32.lt_iff_toInt_lt] at hlt'
    rw [Int32.le_iff_toInt_le] at hle hle' ⊢
    rw [Int32.le_iff_toInt_le]
    omega

end Mark

/-- The text has no supplementary characters and says none, or it has no references. -/
def Unmixed (s : List Char) : Prop :=
  ((∀ c ∈ s, isSupplementary c = false) ∧ SaysBasic s) ∨
    ∀ first name value, ¬ StandsAt s first name value

theorem Mark.TakesPlain.follows_settle {s : List Char} {a : Mark} (h : a.TakesPlain s)
    (hlength : length s < 2 ^ 31) (hs : Unmixed s) : a.Follows s (a.settle s) := by
  have hbasic : SaysBasic s :=
    hs.elim (fun h => h.2) fun h first name value hstands => absurd hstands (h first name value)
  rw [Mark.follows_settle_iff h hbasic]
  constructor
  · rcases hs with hs | hs
    · exact h.clearsEscapes_of_basic hs.1
    · exact fun first name value hstands => absurd hstands (hs first name value)
  · have hle := (hbasic.take a.past).length_said_le
    have htake : length (s.take a.past) ≤ length s := by
      rw [← List.take_append_drop a.past s, Utf16.length_append, List.take_append_drop]
      omega
    omega

/-! ## The whole way -/

namespace MarkedText

theorem marks_ofTweet {tweet : Tweet} {source : String} (hsource : tweet.shownText = some source)
    (hne : source ≠ "")
    (hsorted : ∀ as ∈ (attach {} tweet).lists, as.Pairwise fun a b => a.start ≤ b.start) :
    (ofTweet tweet).marks = (attach {} tweet).marks.map (Mark.settle source.toList) := by
  have hstep : ∀ as ∈ (attach {} tweet).lists, as.Pairwise (Mark.InStep source.toList) :=
    fun as has => (hsorted as has).imp fun hle => Mark.inStep_of_le _ hle
  rw [marks, marks, List.map_flatten, lists_ofTweet hsource hne hstep]

end MarkedText

namespace Tweet

/-- Each list of entities that a Tweet shows is in order, and they take plain characters of the text
apart from each other. -/
structure EntitiesPlain (tweet : Tweet) (source : String) : Prop where
  sorted : ∀ as ∈ (MarkedText.attach {} tweet).lists, as.Pairwise fun a b => a.start ≤ b.start
  takes : ∀ a ∈ (MarkedText.attach {} tweet).marks, a.TakesPlain source.toList
  apart : (MarkedText.attach {} tweet).marks.Pairwise Mark.Apart

/-- The text of a Tweet cut at its entities, with the references between them replaced. -/
def parts (tweet : Tweet) (source : String) : List (Part UInt16) :=
  (Part.cut source.toList 0 (MarkedText.attach {} tweet).inOrder).map Part.said

/-- Whether an entity of a Tweet is the one to leave out, by what the text says. -/
def leavesOut (tweet : Tweet) (source : String) (elision : Elision) (a : Mark) : Bool :=
  TrailingLink.find? (Decoded.ofText source).text (MarkedText.attach {} tweet).inOrder elision =
    some a

namespace EntitiesPlain

variable {tweet : Tweet} {source : String} {a b : Mark}

theorem mem_marks (ha : a ∈ (MarkedText.attach {} tweet).inOrder) :
    a ∈ (MarkedText.attach {} tweet).marks := MarkedText.mem_inOrder.mp ha

theorem pairwise_inOrder (h : tweet.EntitiesPlain source) :
    (MarkedText.attach {} tweet).inOrder.Pairwise fun a b => a.stop ≤ b.start :=
  MarkedText.pairwise_inOrder_of_apart h.apart fun a ha => (h.takes a ha).nonempty

variable (h : tweet.EntitiesPlain source) (hsource : tweet.shownText = some source)
  (hne : source ≠ "") (hlength : length source.toList < 2 ^ 31) (hs : Unmixed source.toList)

include h hlength hs

theorem follows (ha : a ∈ (MarkedText.attach {} tweet).marks) :
    a.Follows source.toList (a.settle source.toList) := (h.takes a ha).follows_settle hlength hs

/-- No two entities change places or meet in their starts. -/
theorem start_settle (ha : a ∈ (MarkedText.attach {} tweet).marks)
    (hb : b ∈ (MarkedText.attach {} tweet).marks) (hab : a ≠ b) :
    (a.start ≤ b.start ↔ (a.settle source.toList).start ≤ (b.settle source.toList).start) ∧
      (a.settle source.toList).start ≠ (b.settle source.toList).start := by
  have : Std.Symm Mark.Apart := ⟨fun _ _ h => h.symm⟩
  exact Mark.start_le_iff_of_follows (h.takes a ha) (h.takes b hb) (h.follows hlength hs ha)
    (h.follows hlength hs hb) (h.apart.forall ha hb hab)

theorem leftOut_settle (elision : Elision) (ha : a ∈ (MarkedText.attach {} tweet).inOrder) :
    (a.settle source.toList).leftOut (TrailingLink.find? (Decoded.ofText source).text
        ((MarkedText.attach {} tweet).inOrder.map (Mark.settle source.toList)) elision) =
      tweet.leavesOut source elision a := by
  rw [Mark.find?_map_settle, leavesOut, Bool.eq_iff_iff, decide_eq_true_iff]
  cases hfind : TrailingLink.find? (Decoded.ofText source).text
      (MarkedText.attach {} tweet).inOrder elision with
  | none => simp [Mark.leftOut]
  | some b =>
      have hb := List.mem_of_getLast? (Option.filter_eq_some_iff.mp hfind).1
      by_cases hab : b = a
      · simp [Mark.leftOut, hab]
      · have := (h.start_settle hlength hs (mem_marks hb) (mem_marks ha) hab).2
        simp [Mark.leftOut, hab, this]

include hsource hne

theorem inOrder_ofTweet : (MarkedText.ofTweet tweet).inOrder =
    (MarkedText.attach {} tweet).inOrder.map (Mark.settle source.toList) := by
  rw [MarkedText.inOrder_eq, MarkedText.inOrder_eq, MarkedText.marks_ofTweet hsource hne h.sorted,
    Mark.sortByStart_map]
  intro a ha b hb
  by_cases hab : a = b
  · rw [hab]
    simp
  · exact (h.start_settle hlength hs ha hb hab).1

theorem placed_ofTweet :
    (MarkedText.ofTweet tweet).placed (Decoded.ofText source).text =
      (MarkedText.attach {} tweet).inOrder.map (Mark.settle source.toList) := by
  rw [MarkedText.placed, h.inOrder_ofTweet hsource hne hlength hs, List.filter_eq_self]
  intro b hb
  obtain ⟨a, ha, rfl⟩ := List.mem_map.mp hb
  have htakes := h.takes a (mem_marks ha)
  have hfollows := h.follows hlength hs (mem_marks ha)
  have hle := length_said_take_le htakes.isCut_past htakes.liesIn.past_le (Nat.le_refl _)
  have hlt := htakes.length_said_take_past
  rw [List.take_length] at hle
  rw [decide_eq_true_iff, text_ofText, Utf16.ofString, String.toList_ofList, length_ofChars]
  refine ⟨?_, ?_, ?_⟩
  · rw [hfollows.start_eq]
    omega
  · rw [hfollows.start_eq, hfollows.stop_eq]
    omega
  · rw [hfollows.stop_eq]
    omega

/-- The text with all entities applied is the text as it was sent, cut at them. -/
theorem draft_ofTweet (style : LinkStyle) (elision : Elision) :
    ((MarkedText.ofTweet tweet).draft (Decoded.ofText source).text style elision).units =
        Part.units (tweet.leavesOut source elision) (tweet.parts source) ∧
      ((MarkedText.ofTweet tweet).draft (Decoded.ofText source).text style elision).spans =
        Part.spansFrom style (tweet.leavesOut source elision) 0 (tweet.parts source) := by
  have hplaced := h.placed_ofTweet hsource hne hlength hs
  have hinOrder := h.inOrder_ofTweet hsource hne hlength hs
  have hbehind : ((MarkedText.ofTweet tweet).placed (Decoded.ofText source).text).Pairwise
      fun a b => a.stop ≤ b.start := by
    rw [hplaced, List.pairwise_map]
    refine h.pairwise_inOrder.imp_of_mem fun {a b} ha hb hle => ?_
    exact (Mark.stop_le_start_of_follows (h.takes a (mem_marks ha)) (h.takes b (mem_marks hb))
      (h.follows hlength hs (mem_marks ha)) (h.follows hlength hs (mem_marks hb)) hle).2
  obtain ⟨hunits, hspans⟩ :=
    MarkedText.draft_eq_cut style elision hbehind
  have hofString : Utf16.ofString (Decoded.ofText source).text =
      ofChars (Reference.said source.toList) := by
    rw [text_ofText, Utf16.ofString, String.toList_ofList]
  have hcut := Part.cut_said style _ (Mark.leftOut _)
    (fun a ha => ⟨h.takes a (mem_marks ha), h.follows hlength hs (mem_marks ha)⟩)
    h.pairwise_inOrder (isCut_zero _) (Nat.zero_le _) (fun _ _ => Nat.zero_le _)
    (fun a ha => ⟨Mark.settle_display _ a, Mark.settle_url _ a,
      h.leftOut_settle hlength hs elision ha⟩) 0
  rw [hunits, hspans, hplaced, hinOrder, hofString]
  exact hcut

end EntitiesPlain

theorem EntitiesPlain.render?_ofTweet {tweet : Tweet} {source : String}
    (hplain : tweet.EntitiesPlain source) (hsource : tweet.shownText = some source)
    (hne : source ≠ "") (hlength : length source.toList < 2 ^ 31) (hs : Unmixed source.toList)
    (style : LinkStyle) (elision : Elision) :
    (MarkedText.ofTweet tweet).render? style elision = some (
      let out := tweet.leavesOut source elision
      let units := Part.units out (tweet.parts source)
      ⟨Utf16.trimRight units, (Part.spansFrom style out 0 (tweet.parts source)).filterMap
        (Span.cut? (Utf16.trimRight units).length)⟩) := by
  have htext : (MarkedText.ofTweet tweet).text = some (Decoded.ofText source).text := by
    rw [MarkedText.text_ofTweet hsource hne, text_ofText]
  have hsaid : (Decoded.ofText source).text ≠ "" := by
    intro h
    have hnil : Reference.said source.toList = [] := by
      rw [← String.toList_ofList (l := Reference.said source.toList), ← text_ofText, h]
      rfl
    exact said_ne_nil (fun h => hne (String.toList_inj.mp h)) hnil
  obtain ⟨hunits, hspans⟩ := hplain.draft_ofTweet hsource hne hlength hs style elision
  have hbounds : ∀ s ∈ Part.spansFrom style (tweet.leavesOut source elision) 0
      (tweet.parts source), s.start < s.stop ∧ s.stop ≤
        (Part.units (tweet.leavesOut source elision) (tweet.parts source)).length := by
    intro s hs
    have := Part.bounds_of_mem_spansFrom hs
    omega
  rw [MarkedText.render?, htext, Option.map_some, if_neg hsaid]
  dsimp only
  rw [hunits, hspans, RenderedText.trimRight_eq hbounds]

/-- **Rendering is cutting.** A text of less than 2 ^ 31 units, in which pairs and references do not
mix, and whose entities take plain characters of their own, is rendered as the text that was sent,
cut at the entities: each part between them with its references replaced, each entity with what is
put for it, all in one, less the controls and spaces at the end; with one span for each entity whose
display text was put, just over that text, cut to what is left. -/
theorem render?_eq_cut {tweet : Tweet} {source : String} (hsource : tweet.shownText = some source)
    (hne : source ≠ "") (hlength : length source.toList < 2 ^ 31) (hs : Unmixed source.toList)
    (hplain : tweet.EntitiesPlain source) (settings : Settings) :
    tweet.render? settings = some (
      let out := tweet.leavesOut source settings.elision
      let units := Part.units out (tweet.parts source)
      ⟨Utf16.trimRight units, (Part.spansFrom settings.style out 0 (tweet.parts source)).filterMap
        (Span.cut? (Utf16.trimRight units).length)⟩) :=
  hplain.render?_ofTweet hsource hne hlength hs settings.style settings.elision

/-- A hashtag behind a reference, a link whose display text is longer than its range, and a photo at
the end, each in its list. -/
def comparison : Tweet where
  fullText := some "1 &#60; 2 #x at https://t.co/a https://t.co/p"
  entities := some {
    links := [{
      url := "https://t.co/a", display := "example.org/comparison", start := 16, stop := 30 }]
    media := [{
      url := "https://t.co/p", display := "pic.twitter.com/p", start := 31, stop := 45,
      type := "photo" }]
    hashtags := [⟨"x", 10, 12⟩] }

theorem inOrder_comparison : (MarkedText.attach {} comparison).inOrder =
    [.ofHashtag ⟨"x", 10, 12⟩,
      ⟨16, 30, .link, "example.org/comparison", "https://t.co/a", none⟩,
      ⟨31, 45, .media "photo", "pic.twitter.com/p", "https://t.co/p", none⟩] :=
  Mark.sortByStart_eq_of_perm (by decide) (by decide) (by decide)

theorem render?_comparison :
    Unmixed "1 &#60; 2 #x at https://t.co/a https://t.co/p".toList ∧
      comparison.EntitiesPlain "1 &#60; 2 #x at https://t.co/a https://t.co/p" ∧
      comparison.render? ⟨{}, .black, .white⟩ =
        some ⟨Utf16.ofString "1 < 2 #x at example.org/comparison",
          [⟨6, 8, Address.hashtag "x", ⟨.black, .white, false⟩, false⟩,
            ⟨12, 34, "https://t.co/a", ⟨.black, .white, false⟩, false⟩]⟩ := by
  have hs : Unmixed "1 &#60; 2 #x at https://t.co/a https://t.co/p".toList :=
    Or.inl ⟨supplementaries_eq_zero.mp (by decide +kernel), by decide +kernel⟩
  have hplain : comparison.EntitiesPlain "1 &#60; 2 #x at https://t.co/a https://t.co/p" :=
    ⟨by decide +kernel, by decide +kernel, by decide +kernel⟩
  refine ⟨hs, hplain, ?_⟩
  rw [render?_eq_cut rfl (by decide) (by decide +kernel) hs hplain]
  unfold parts leavesOut
  simp only [inOrder_comparison]
  decide +kernel

end Tweet
end TweetText
