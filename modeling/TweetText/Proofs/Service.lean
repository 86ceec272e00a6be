import TweetText.Proofs.Render.Spans
import TweetText.Service

/-!
# What the service gives back

Texts that go through the service are trimmed by one rule, and its replies are consistent.
-/

/-! ## One rule for trimming

A rendered text is trimmed unit by unit before it is read, and the service trims a text character by
character. The units up to U+0020 are no surrogates, so none of them is half of a pair, and both
ways come to the same text (`chars_trimRight`). What is rendered is trimmed already: asked to trim
it, the service gives it back as it is (`trimRight_agrees`). -/

namespace TweetText

/-! ### Units and characters -/

namespace Utf16

theorem chars_concat (units : List UInt16) (u : UInt16) :
    chars (units ++ [u]) = chars units ++ [ofSingle u] ∨
      isTrail u ∧ ∃ front lead, isLead lead ∧
        chars (units ++ [u]) = chars front ++ [ofPair lead u] := by
  obtain rfl | ⟨front, lead, rfl⟩ := units.eq_nil_or_concat'
  · exact Or.inl rfl
  · by_cases hpair : isLead lead ∧ isTrail u
    · refine Or.inr ⟨hpair.2, front, lead, hpair.1, ?_⟩
      have hacross : NoPairAcross front [lead, u] := by
        intro v w _ hw hsplit
        obtain rfl : lead = w := Option.some.inj hw
        rw [isLead_iff] at hpair
        rw [isTrail_iff] at hsplit
        omega
      rw [List.append_assoc, List.singleton_append, chars_append hacross, chars,
        if_pos (by simpa using hpair), chars]
    · refine Or.inl (chars_append ?_)
      intro v w hv hw hsplit
      rw [List.getLast?_concat, Option.some.injEq] at hv
      obtain rfl : u = w := Option.some.inj hw
      exact hpair (hv ▸ hsplit)

theorem le_space_iff {c : Char} : c ≤ ' ' ↔ c.toNat ≤ 0x20 := le_iff_toNat_le

theorem ofSingle_le_iff {u : UInt16} : ofSingle u ≤ ' ' ↔ u ≤ 0x20 := by
  rw [le_space_iff, UInt16.le_iff_toNat_le]
  show _ ↔ u.toNat ≤ 0x20
  unfold ofSingle
  split
  · rename_i h
    rw [Bool.or_eq_true, isLead_iff, isTrail_iff] at h
    exact iff_of_false (by decide) (by omega)
  · rename_i h
    rw [Bool.or_eq_true, isLead_iff, isTrail_iff] at h
    have hlt := u.toNat_lt
    rw [toNat_ofNat (by omega)]

theorem not_ofPair_le {lead u : UInt16} (hlead : isLead lead) (hu : isTrail u) :
    ¬ ofPair lead u ≤ ' ' := by
  have hwidth := width_ofPair hlead hu
  rw [width, supplementary] at hwidth
  rw [le_space_iff]
  split at hwidth <;> omega

/-- **Trimming and reading.** Trimmed units are read as the trimmed text. -/
theorem chars_trimRight (units : List UInt16) :
    chars (trimRight units) = TweetText.trimRight (chars units) := by
  induction units using List.reverseRecOn with
  | nil => rfl
  | append_singleton units u ih =>
      rcases chars_concat units u with hchars | ⟨hu, front, lead, hlead, hchars⟩
      · rw [trimRight, dropLastWhile_concat, hchars, TweetText.trimRight, dropLastWhile_concat]
        simp only [decide_eq_true_eq, ofSingle_le_iff]
        split
        · exact ih
        · exact hchars
      · have hstays : ¬ u ≤ 0x20 := by
          rw [isTrail_iff] at hu
          rw [UInt16.le_iff_toNat_le]
          show ¬ u.toNat ≤ 0x20
          omega
        rw [trimRight, dropLastWhile_concat, if_neg (by simpa using hstays), hchars,
          TweetText.trimRight, dropLastWhile_concat, if_neg (by simpa using not_ofPair_le hlead hu)]

theorem trimRight_append_ofChar {c : Char} (h : ' ' < c) (units : List UInt16) :
    trimRight (units ++ ofChar c) = units ++ ofChar c := by
  have hlarge : 0x20 < c.toNat := by
    rw [← Nat.not_le, ← le_space_iff]
    exact Char.not_le.mpr h
  have hlast : ∃ front u, ofChar c = front ++ [u] ∧ 0x20 < u.toNat := by
    unfold ofChar
    split
    · rename_i hbasic
      refine ⟨[], _, rfl, ?_⟩
      rwa [UInt16.toNat_ofNat_of_lt' hbasic]
    · refine ⟨[_], _, rfl, ?_⟩
      rw [UInt16.toNat_ofNat_of_lt' (by rw [UInt16.size]; omega)]
      omega
  obtain ⟨front, u, hchar, hu⟩ := hlast
  have hstays : ¬ u ≤ 0x20 := by
    rw [UInt16.le_iff_toNat_le]
    exact Nat.not_le.mpr hu
  rw [hchar, ← List.append_assoc, trimRight, dropLastWhile_concat, if_neg (by simpa using hstays)]

end Utf16

theorem trimRight_concat {c : Char} (h : ' ' < c) (s : List Char) :
    trimRight (s ++ [c]) = s ++ [c] := by
  rw [trimRight, dropLastWhile_concat, if_neg (by simpa using Char.not_le.mpr h)]

namespace RenderedText

theorem text_trimRight (t : RenderedText) :
    t.trimRight.text = String.ofList (TweetText.trimRight t.text.toList) := by
  rw [text, text, Utf16.toString, Utf16.toString, String.toList_ofList, units_trimRight,
    Utf16.chars_trimRight]

theorem trimRight_eq_self {t : RenderedText} (h : Utf16.trimRight t.units = t.units) :
    t.trimRight = t := by
  unfold trimRight
  dsimp only
  rw [if_pos (congrArg List.length h)]

/-- Of what is trimmed nothing more is dropped, and no span is cut. -/
theorem trimRight_idem (t : RenderedText) : t.trimRight.trimRight = t.trimRight := by
  apply trimRight_eq_self
  rw [units_trimRight]
  exact dropLastWhile_idem _ _

end RenderedText

theorem MarkedText.trimRight_text_of_render? {t : MarkedText} {style : LinkStyle}
    {elision : Elision} {r : RenderedText} (h : t.render? style elision = some r) :
    TweetText.trimRight r.text.toList = r.text.toList := by
  obtain ⟨text, -, rfl⟩ := Option.map_eq_some_iff.mp h
  split
  · rename_i hempty
    subst hempty
    decide
  · rw [RenderedText.text_trimRight, String.toList_ofList]
    exact dropLastWhile_idem _ _

/-! ### Requests to trim -/

namespace Service

/-- The request asks to trim a text: it is sent where texts are trimmed, and its body is a document
with the text, which is not too long. -/
structure Request.AsksToTrim (r : Request) (text : String) : Prop where
  route : Route.ofTarget? r.target = some .trim
  method : r.method = "POST"
  isJson : (r.contentType.bind MediaType.parse).any MediaType.isJson
  length_le : r.body.length ≤ bodyLimit
  decodes : Json.decodeFirst textDecoder r.body = .ok text

/-- A request to trim is answered with the text, less its characters up to U+0020 at the end. -/
theorem Request.AsksToTrim.respond_eq {r : Request} {text : String} (h : r.AsksToTrim text)
    (settings : Settings) : respond settings r =
      ⟨200, .document (.ofMembers [("text", .ofString (String.ofList (trimRight text.toList)))])⟩ := by
  unfold respond
  rw [h.route]
  dsimp only
  rw [if_neg (not_not.mpr h.method), if_pos rfl, answerDocument, h.isJson, if_neg (by decide),
    if_neg (Nat.not_lt.mpr h.length_le), h.decodes]
  rfl

/-- **One rule for trimming.** Whatever the units of a rendered text, trimmed and read they are the
text that is read from them and trimmed then. What is kept is the longest part that does not end in
a unit or a character up to U+0020, so the no-break space and all wider blanks stay, and trimming
again changes nothing, nor any span. And every marked text is rendered such that the service, asked
to trim the result, answers with the same text. -/
theorem trimRight_agrees :
    (∀ t : RenderedText, t.trimRight.text = String.ofList (trimRight t.text.toList) ∧
        LongestKept (· ≤ 0x20) t.units t.trimRight.units ∧ t.trimRight.trimRight = t.trimRight) ∧
      (∀ s, LongestKept (· ≤ ' ') s (trimRight s) ∧ trimRight (trimRight s) = trimRight s) ∧
      (∀ c, ' ' < c → (∀ s, trimRight (s ++ [c]) = s ++ [c]) ∧
        ∀ units, Utf16.trimRight (units ++ Utf16.ofChar c) = units ++ Utf16.ofChar c) ∧
      ∀ (t : MarkedText) (text : String) (style : LinkStyle) (elision : Elision),
        t.text = some text → ∃ r, t.render? style elision = some r ∧
          trimText r.text = .ofMembers [("text", .ofString r.text)] ∧
          ∀ (settings : Settings) (request : Request), request.AsksToTrim r.text →
            respond settings request =
              ⟨200, .document (.ofMembers [("text", .ofString r.text)])⟩ := by
  refine ⟨?_, ?_, ?_, ?_⟩
  · intro t
    refine ⟨t.text_trimRight, ?_, t.trimRight_idem⟩
    rw [RenderedText.units_trimRight]
    exact longestKept_dropLastWhile _ _
  · intro s
    exact ⟨longestKept_dropLastWhile _ _, dropLastWhile_idem _ _⟩
  · intro c hc
    exact ⟨trimRight_concat hc, Utf16.trimRight_append_ofChar hc⟩
  · intro t text style elision htext
    cases hr : t.render? style elision with
    | none =>
        rw [MarkedText.render?, htext] at hr
        cases hr
    | some r =>
        have htrim : trimText r.text = .ofMembers [("text", .ofString r.text)] := by
          rw [trimText, MarkedText.trimRight_text_of_render? hr, String.ofList_toList]
        refine ⟨r, rfl, htrim, fun settings request hrequest => ?_⟩
        rw [hrequest.respond_eq, MarkedText.trimRight_text_of_render? hr, String.ofList_toList]

def linkAndBlanks : MarkedText where
  text := some "go t.co/1 \t"
  links := [⟨3, 9, .link, "one\u00A0", "t.co/1", none⟩]

def trimLinkAndBlanks : Request where
  method := "POST"
  target := "/trim?quietly"
  contentType := some "application/json; charset=utf-8"
  body := "\x7b\"text\": \"go one\\u00a0\"\x7d".toUTF8.toList

theorem asksToTrim_trimLinkAndBlanks : trimLinkAndBlanks.AsksToTrim "go one\u00A0" where
  route := by decide +kernel
  method := rfl
  isJson := by decide +kernel
  length_le := by decide +kernel
  decodes := by decide +kernel

theorem trimRight_agrees_linkAndBlanks :
    ' ' < '\u00A0' ∧ linkAndBlanks.render? {} {} =
        some ⟨Utf16.ofString "go one\u00A0", [⟨3, 7, "t.co/1", {}, false⟩]⟩ ∧
      trimLinkAndBlanks.AsksToTrim "go one\u00A0" ∧
      trimRight ['a', '\u00A0'] = ['a', '\u00A0'] ∧
      respond ⟨{}, .black, .white⟩ trimLinkAndBlanks =
        ⟨200, .document (.ofMembers [("text", .ofString "go one\u00A0")])⟩ := by
  obtain ⟨-, -, hkept, hrespond⟩ := trimRight_agrees
  obtain ⟨r, hr, -, hanswer⟩ := hrespond linkAndBlanks "go t.co/1 \t" {} {} rfl
  have horder : linkAndBlanks.inOrder = linkAndBlanks.links :=
    Mark.sortByStart_of_pairwise (by decide)
  have hrender : linkAndBlanks.render? {} {} =
      some ⟨Utf16.ofString "go one\u00A0", [⟨3, 7, "t.co/1", {}, false⟩]⟩ := by
    simp only [MarkedText.render?, MarkedText.draft, horder]
    decide +kernel
  have htext : r.text = "go one\u00A0" := by
    obtain rfl : _ = r := Option.some.inj (hrender.symm.trans hr)
    decide +kernel
  refine ⟨by decide, hrender, asksToTrim_trimLinkAndBlanks, (hkept _ (by decide)).1 ['a'], ?_⟩
  have hrequest : trimLinkAndBlanks.AsksToTrim r.text := by
    rw [htext]
    exact asksToTrim_trimLinkAndBlanks
  rw [← htext]
  exact hanswer ⟨{}, .black, .white⟩ trimLinkAndBlanks hrequest

end Service

/-! ## What a reply tells of its spans

A reply holds the text as it is read as a whole, and for each span the text under it, read on its
own. Marks may split pairs, so the units are not always those of a text, but none splits what it
shows: where a span begins or ends, no pair goes across. So a client finds under each span, in the
text that it was sent, just what it was told (`renderTweet_consistent`). -/

open Utf16

namespace Span

variable {style : LinkStyle} {units : List UInt16} {a : Mark} {s s' : Span} {length : Nat}

/-- No pair goes across an end of a span that is cut to what is left of a text. -/
theorem Shows.noPairAcross (h : s.Shows style units a) (hcut : s.cut? length = some s') :
    NoPairAcross ((units.take length).take s'.start)
        ((units.take length).extract s'.start s'.stop ++ (units.take length).drop s'.stop) ∧
      NoPairAcross ((units.take length).extract s'.start s'.stop)
        ((units.take length).drop s'.stop) := by
  obtain ⟨hlt, rfl⟩ := cut?_eq_some_iff.mp hcut
  have hdisplay := h.extract_take (show s.start < length by omega)
  have hne : (units.take length).extract s.start (min s.stop length) ≠ [] := by
    intro hnil
    have hlen := congrArg List.length hnil
    have hstop := h.stop_le
    simp at hlen
    omega
  obtain ⟨u, rest, hshown⟩ := List.exists_cons_of_ne_nil hne
  constructor
  · intro v w _ hw htrail
    rw [hshown] at hw hdisplay
    obtain rfl : u = w := Option.some.inj hw
    exact not_isTrail_of_head? (congrArg List.head? hdisplay) htrail.2
  · intro v w hv hw hpair
    by_cases hlost : (units.extract s.start s.stop).drop (min s.stop length - s.start) = []
    · rw [hlost, List.append_nil] at hdisplay
      exact not_isLead_of_getLast? ((congrArg List.getLast? hdisplay).trans hv) hpair.1
    · obtain ⟨x, hx⟩ := List.exists_mem_of_ne_nil _ hlost
      have hover := (mem_drop_of_lost hx (by omega)).1
      have hend : (units.take length).drop (min s.stop length) = [] := by
        apply List.drop_eq_nil_of_le
        rw [List.length_take]
        omega
      rw [hend] at hw
      cases hw

end Span

/-- What is under a span is read alike on its own and within the text. -/
theorem RenderedText.extract_text_of_shows {style : LinkStyle} {t : RenderedText} {as : List Mark}
    (hshows : List.Forall₂ (Span.Shows style t.units) as t.spans) {s : Span}
    (hs : s ∈ t.trimRight.spans) :
    s.start ≤ s.stop ∧ s.stop ≤ t.trimRight.length ∧
      ∃ display, t.trimRight.textUnder? s = some display ∧
        (Utf16.ofString t.trimRight.text).extract s.start s.stop = Utf16.ofString display := by
  have hall : ∀ s ∈ t.spans, ∃ a, s.Shows style t.units a := by
    intro s hs
    obtain ⟨i, hi, rfl⟩ := List.mem_iff_getElem.mp hs
    exact ⟨_, (List.forall₂_iff_get.mp hshows).2 i (hshows.length_eq ▸ hi) hi⟩
  have hwhole : ∀ s ∈ t.spans, s.start < s.stop ∧ s.stop ≤ t.length := by
    intro s hs
    obtain ⟨a, ha⟩ := hall s hs
    exact ⟨ha.nonempty, ha.stop_le⟩
  have hunits : t.trimRight.units = t.units.take (Utf16.trimRight t.units).length := by
    rw [units_trimRight]
    exact dropLastWhile_eq_take _ _
  rw [spans_trimRight hwhole] at hs
  obtain ⟨whole, hmem, hcut⟩ := List.mem_filterMap.mp hs
  obtain ⟨a, ha⟩ := hall whole hmem
  obtain ⟨hbefore, hafter⟩ := ha.noPairAcross hcut
  rw [← hunits] at hbefore hafter
  obtain ⟨hle, hstop⟩ : s.start ≤ s.stop ∧ s.stop ≤ t.trimRight.units.length := by
    obtain ⟨hlt, rfl⟩ := Span.cut?_eq_some_iff.mp hcut
    rw [units_trimRight]
    exact ⟨Nat.le_of_lt hlt, Nat.min_le_right _ _⟩
  refine ⟨hle, hstop, Utf16.toString (t.trimRight.units.extract s.start s.stop), ?_, ?_⟩
  · rw [textUnder?, extract?, if_pos ⟨hle, hstop⟩, List.drop_take, List.extract_eq_take_drop]
  · have hread := extract_ofChars_chars hbefore hafter
    have hstart : (t.trimRight.units.take s.start).length = s.start := by
      rw [List.length_take]
      omega
    have hlen : (t.trimRight.units.extract s.start s.stop).length = s.stop - s.start := by
      simp
      omega
    rw [← List.append_assoc, take_append_extract_append_drop hle, hstart, hlen,
      Nat.add_sub_cancel' hle] at hread
    simpa [RenderedText.text, Utf16.ofString, Utf16.toString] using hread

namespace MarkedText

variable {t : MarkedText} {text : String}

theorem forall₂_shows_draft (style : LinkStyle) (elision : Elision)
    (hbehind : (t.placed text).Pairwise fun a b => a.stop ≤ b.start) :
    List.Forall₂ (Span.Shows style (t.draft text style elision).units)
      ((t.placed text).filter fun a =>
        ¬ a.leftOut (TrailingLink.find? text t.inOrder elision) ∧ a.display ≠ "")
      (t.draft text style elision).spans := by
  obtain ⟨hunits, hspans⟩ := draft_eq_cut style elision hbehind
  rw [hunits, hspans]
  exact Part.forall₂_shows_spansFrom _ [] 0 _

theorem extract_text_of_render? {style : LinkStyle} {elision : Elision} {r : RenderedText}
    (htext : t.text = some text)
    (hbehind : (t.placed text).Pairwise fun a b => a.stop ≤ b.start)
    (hr : t.render? style elision = some r) {s : Span} (hs : s ∈ r.spans) :
    s.start ≤ s.stop ∧ s.stop ≤ r.length ∧ ∃ display, r.textUnder? s = some display ∧
      (Utf16.ofString r.text).extract s.start s.stop = Utf16.ofString display := by
  rw [render?, htext, Option.map_some, Option.some.injEq] at hr
  subst hr
  split at hs
  · cases hs
  · rename_i hne
    rw [if_neg hne]
    exact RenderedText.extract_text_of_shows (t := ⟨_, (t.draft text style elision).spans⟩)
      (forall₂_shows_draft style elision hbehind) hs

end MarkedText

namespace Service

/-- **A reply agrees with itself.** Let the marks that lie in the text of a Tweet stand one after
the other, wherever all others lie, and even where they split pairs. Then each span of the reply
lies in the text of the reply, and the units of that text under it are those of the text that the
reply gives for the span. And any rendered text is as long as the text that it is read as. -/
theorem renderTweet_consistent {settings : Settings} {request : RenderRequest}
    (hbehind : ∀ text, (MarkedText.ofTweet request.tweet).text = some text →
      ((MarkedText.ofTweet request.tweet).placed text).Pairwise fun a b => a.stop ≤ b.start) :
    (∀ s ∈ (renderTweet settings request).spans,
        ∃ text, (renderTweet settings request).text = some text ∧
          s.start ≤ s.stop ∧ s.stop ≤ (Utf16.ofString text).length ∧
          (Utf16.ofString text).extract s.start s.stop = Utf16.ofString s.display) ∧
      ∀ t : RenderedText, (Utf16.ofString t.text).length = t.length := by
  have hlength : ∀ t : RenderedText, (Utf16.ofString t.text).length = t.length := by
    intro t
    rw [RenderedText.text, Utf16.ofString, Utf16.toString, String.toList_ofList]
    exact length_ofChars_chars t.units
  refine ⟨?_, hlength⟩
  intro reply hreply
  unfold renderTweet at hreply ⊢
  cases hr : request.tweet.render? (request.settings settings) with
  | none =>
      rw [hr] at hreply
      cases hreply
  | some r =>
      rw [hr] at hreply
      obtain ⟨s, hs, rfl⟩ := List.mem_map.mp hreply
      obtain ⟨text, htext, -⟩ := Option.map_eq_some_iff.mp hr
      obtain ⟨hle, hstop, display, hunder, hextract⟩ :=
        MarkedText.extract_text_of_render? htext (hbehind text htext) hr hs
      refine ⟨r.text, rfl, hle, ?_, ?_⟩
      · rw [hlength]
        exact hstop
      · rw [SpanReply.ofSpan, hunder]
        exact hextract

/-- A link that comes to lie on the second half of a pair, and one whose display text ends in a
space. -/
def splitPair : RenderRequest where
  tweet := {
    fullText := some "😀 go t.co/b"
    entities := some { links := [⟨"t.co/a", none, "ab", 0, 1⟩, ⟨"t.co/b", none, "two ", 5, 11⟩] } }

theorem ofTweet_splitPair : MarkedText.ofTweet splitPair.tweet =
    { text := some "😀 go t.co/b"
      links := [⟨1, 2, .link, "ab", "t.co/a", none⟩, ⟨6, 12, .link, "two ", "t.co/b", none⟩] } := by
  decide +kernel

theorem inOrder_splitPair : (MarkedText.ofTweet splitPair.tweet).inOrder =
    [⟨1, 2, .link, "ab", "t.co/a", none⟩, ⟨6, 12, .link, "two ", "t.co/b", none⟩] := by
  rw [ofTweet_splitPair]
  exact Mark.sortByStart_of_pairwise (by decide)

theorem renderTweet_consistent_splitPair :
    (∀ text, (MarkedText.ofTweet splitPair.tweet).text = some text →
        ((MarkedText.ofTweet splitPair.tweet).placed text).Pairwise
          fun a b => a.stop ≤ b.start) ∧
      renderTweet ⟨{}, .black, .white⟩ splitPair =
        ⟨some "\uFFFDab go two", [⟨1, 3, "t.co/a", "ab"⟩, ⟨7, 10, "t.co/b", "two"⟩]⟩ ∧
      ∀ s ∈ (renderTweet ⟨{}, .black, .white⟩ splitPair).spans,
        ∃ text, (renderTweet ⟨{}, .black, .white⟩ splitPair).text = some text ∧
          s.start ≤ s.stop ∧ s.stop ≤ (Utf16.ofString text).length ∧
          (Utf16.ofString text).extract s.start s.stop = Utf16.ofString s.display := by
  have hbehind : ∀ text, (MarkedText.ofTweet splitPair.tweet).text = some text →
      ((MarkedText.ofTweet splitPair.tweet).placed text).Pairwise fun a b => a.stop ≤ b.start := by
    intro text htext
    rw [ofTweet_splitPair, Option.some.injEq] at htext
    subst htext
    rw [MarkedText.placed, inOrder_splitPair]
    decide +kernel
  refine ⟨hbehind, ?_, (renderTweet_consistent hbehind).1⟩
  have htext : (MarkedText.ofTweet splitPair.tweet).text = some "😀 go t.co/b" := by
    rw [ofTweet_splitPair]
  rw [renderTweet, Tweet.render?, MarkedText.render?, htext]
  simp only [MarkedText.draft, inOrder_splitPair]
  decide +kernel

end Service
end TweetText
