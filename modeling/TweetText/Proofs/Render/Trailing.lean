import TweetText.Proofs.Address.Pattern
import TweetText.Proofs.Draft.Account
import TweetText.Proofs.MarkedText.Adopt

/-!
# Links that are left out

The link to leave out is chosen by its address, which the text has to end in, and taken out of the
text by its range. Even if its address stands under the mark, it may stand again behind it, where no
mark is. Then a link is left out that is not at the end (`render?_linkTwice`). Where the address
does not stand behind the mark, the mark is at the end of the text, but for a left-to-right mark
(`render?_leavesOut_link`).
-/

namespace TweetText

open Utf16

/-! ## Texts up to the left-to-right mark -/

namespace Utf16

theorem exists_concat_of_getLast? {s : List Char} {u : UInt16} (h : (ofChars s).getLast? = some u)
    (htrail : ¬ isTrail u) : ∃ r c, s = r ++ [c] ∧ ofChar c = [u] := by
  obtain rfl | ⟨r, c, rfl⟩ := s.eq_nil_or_concat'
  · cases h
  · have hsingle : ofChars [c] = ofChar c := List.append_nil _
    rw [ofChars_append, hsingle, List.getLast?_append] at h
    refine ⟨r, c, rfl, ?_⟩
    rcases ofChar_cases c with ⟨v, hchar, -, -⟩ | ⟨v, w, hchar, -, hpair⟩
    · rw [hchar] at h
      obtain rfl : v = u := Option.some.inj h
      exact hchar
    · rw [hchar] at h
      obtain rfl : w = u := Option.some.inj h
      exact absurd hpair htrail

theorem eq_of_ofChar {c : Char} {u : UInt16} (h : ofChar c = [u]) : c.toNat = u.toNat := by
  unfold ofChar at h
  split at h
  · rename_i hbasic
    obtain rfl := List.singleton_inj.mp h
    exact (UInt16.toNat_ofNat_of_lt' hbasic).symm
  · cases h

end Utf16

namespace TrailingLink

def unmarked (text : String) : List UInt16 := ofChars (dropLeftToRight text.toList)

theorem dropLeftToRight_concat (s : List Char) : dropLeftToRight (s ++ ['\u200E']) = s := by
  simp [dropLeftToRight]

theorem dropLeftToRight_of_ne {s : List Char} (h : ∀ r, s ≠ r ++ ['\u200E']) :
    dropLeftToRight s = s := by
  unfold dropLeftToRight
  split
  · rename_i rest hrest
    exact absurd (List.reverse_eq_cons_iff.mp hrest) (h _)
  · rfl

theorem drop_ofString_iff {text : String} {position : Nat} :
    ((ofString text).drop position = [] ∨ (ofString text).drop position = [0x200E]) ↔
      (unmarked text).length ≤ position := by
  by_cases hmark : ∃ r, text.toList = r ++ ['\u200E']
  · obtain ⟨r, hr⟩ := hmark
    have hunits : ofString text = ofChars r ++ [0x200E] := by
      rw [ofString, hr, ofChars_append]
      rfl
    rw [unmarked, hr, dropLeftToRight_concat, hunits]
    constructor
    · intro h
      have hlength : ((ofChars r ++ [0x200E]).drop position).length ≤ 1 := by
        rcases h with h | h <;> simp [h]
      rw [List.length_drop, List.length_append, List.length_singleton] at hlength
      omega
    · intro hle
      rcases Nat.eq_or_lt_of_le hle with rfl | hlt
      · exact Or.inr List.drop_left
      · exact Or.inl (List.drop_eq_nil_of_le (by simpa using Nat.succ_le_of_lt hlt))
  · have hne : ∀ r, text.toList ≠ r ++ ['\u200E'] := fun r hr => hmark ⟨r, hr⟩
    rw [unmarked, dropLeftToRight_of_ne hne]
    constructor
    · rintro (h | h)
      · exact List.drop_eq_nil_iff.mp h
      · have hlast : (ofChars text.toList).getLast? = some 0x200E := by
          rw [← List.take_append_drop position (ofChars text.toList)]
          rw [ofString] at h
          rw [h, List.getLast?_concat]
        obtain ⟨r, c, hsplit, hchar⟩ := exists_concat_of_getLast? hlast (by decide)
        have hc : c = '\u200E' := Char.toNat_inj.mp (eq_of_ofChar hchar)
        exact absurd (hc ▸ hsplit) (hne r)
    · intro hle
      exact Or.inl (List.drop_eq_nil_of_le hle)

/-- Of a list that ends in a pattern, and has it on a range as well, no more is left behind the
range just if the pattern stands nowhere behind the start of the range. -/
theorem length_le_iff_forall_not {α : Type} {l pattern : List α} {first past : Nat}
    (hend : pattern <:+ l) (hlength : pattern.length = past - first) (hlt : first < past) :
    l.length ≤ past ↔ ∀ place, first < place → ¬ pattern <+: l.drop place := by
  constructor
  · intro hle place hplace hstands
    have := hstands.length_le
    rw [List.length_drop] at this
    omega
  · intro hnowhere
    by_contra hover
    have hlast := List.suffix_iff_eq_drop.mp hend
    exact hnowhere (l.length - pattern.length) (by omega) ⟨[], by rwa [List.append_nil]⟩

end TrailingLink

/-! ## The result -/

/-- Whether the text shows what a mark stands for as a link. -/
def MarkKind.isLink : MarkKind → Bool
  | .link => true
  | .media _ => true
  | _ => false

namespace MarkedText

open TrailingLink

/-- Every mark takes something of the text, apart from all others, and what a link or a media takes
is its address. -/
structure LinksInPlace (t : MarkedText) (text : String) : Prop where
  takes : ∀ a ∈ t.marks, a.LiesIn (ofString text).length ∧ a.start < a.stop
  apart : t.marks.Pairwise Mark.Apart
  covers : ∀ a ∈ t.marks, a.kind.isLink →
    (ofString text).extract a.first a.past = ofString a.url

instance (t : MarkedText) (text : String) : Decidable (t.LinksInPlace text) :=
  decidable_of_iff ((∀ a ∈ t.marks, a.LiesIn (ofString text).length ∧ a.start < a.stop) ∧
      t.marks.Pairwise Mark.Apart ∧ ∀ a ∈ t.marks, a.kind.isLink →
        (ofString text).extract a.first a.past = ofString a.url)
    ⟨fun h => ⟨h.1, h.2.1, h.2.2⟩, fun h => ⟨h.takes, h.apart, h.covers⟩⟩

/-- **The link that is left out.** The text is what stands before the link, its address, and what
stands behind it. Rendered is what stands before, with its marks applied, and what stands behind.
And that is nothing, or a left-to-right mark, just if the address does not stand again anywhere
behind the start of the link. -/
theorem render?_leavesOut_link {t : MarkedText} {text : String} (htext : t.text = some text)
    (hlinks : t.LinksInPlace text) (style : LinkStyle) {elision : Elision} {a : Mark}
    (hfind : find? text t.inOrder elision = some a) (hlink : a.kind.isLink) :
    ∃ as d, t.inOrder = as ++ [a] ∧
      ofString text =
        (ofString text).take a.first ++ ofString a.url ++ (ofString text).drop a.past ∧
      d = Draft.applyAll style none ⟨(ofString text).take a.first, 0, []⟩ as ∧
      t.render? style elision =
        some (RenderedText.mk (d.units ++ (ofString text).drop a.past) d.spans).trimRight ∧
      (((ofString text).drop a.past = [] ∨ (ofString text).drop a.past = [0x200E]) ↔
        ∀ place, a.first < place → ¬ ofString a.url <+: (unmarked text).drop place) := by
  obtain ⟨hlast, hchosen⟩ := Option.filter_eq_some_iff.mp hfind
  rw [Bool.and_eq_true, endsIn, List.isSuffixOf_iff_suffix] at hchosen
  obtain ⟨as, hsplit⟩ := List.getLast?_eq_some_iff.mp hlast
  have ha : a ∈ t.marks := mem_inOrder.mp (List.mem_of_getLast? hlast)
  have hlies : ∀ b ∈ as ++ [a], b.LiesIn (ofString text).length ∧ b.start < b.stop := by
    rw [← hsplit]
    exact fun b hb => hlinks.takes b (mem_inOrder.mp hb)
  have hbehind : (as ++ [a]).Pairwise fun b c => b.stop ≤ c.start := by
    rw [← hsplit]
    exact pairwise_inOrder_of_apart hlinks.apart fun b hb => (hlinks.takes b hb).2
  have hne : text ≠ "" := by
    rintro rfl
    have hlt := (hlinks.takes a ha).1.first_lt_past (hlinks.takes a ha).2
    have hlen := (hlinks.takes a ha).1.past_le
    have : (ofString "").length = 0 := rfl
    omega
  have hcovers := hlinks.covers a ha hlink
  refine ⟨as, _, hsplit, ?_, rfl, ?_, ?_⟩
  · rw [← hcovers, take_append_extract_append_drop (hlinks.takes a ha).1.first_le_past]
  · obtain ⟨hunits, hspans⟩ := Draft.applyAll_concat_leaveOut style hlies hbehind
    simp only [render?, htext, Option.map_some, if_neg hne, draft, hfind]
    rw [hsplit, hunits, hspans]
  · have hend : ofString a.url <:+ unmarked text := by
      obtain ⟨before, hbefore⟩ := hchosen.1
      refine ⟨ofChars before, ?_⟩
      rw [unmarked, ← hbefore, ofChars_append]
      rfl
    rw [drop_ofString_iff]
    apply length_le_iff_forall_not hend
    · have hlen := (hlinks.takes a ha).1.past_le
      rw [← hcovers]
      simp
      omega
    · exact (hlinks.takes a ha).1.first_lt_past (hlinks.takes a ha).2

def linkAndPhotoOfOne : MarkedText where
  text := some "go t.co/1 t.co/1\u200E"
  links := [⟨3, 9, .link, "one", "t.co/1", none⟩]
  media := [⟨10, 16, .media "photo", "pic", "t.co/1", none⟩]

def photoOfOne : Mark := ⟨10, 16, .media "photo", "pic", "t.co/1", none⟩

theorem inOrder_linkAndPhotoOfOne :
    linkAndPhotoOfOne.inOrder = linkAndPhotoOfOne.links ++ [photoOfOne] :=
  Mark.sortByStart_of_pairwise (by decide)

theorem render?_leavesOut_photoOfOne :
    linkAndPhotoOfOne.LinksInPlace "go t.co/1 t.co/1\u200E" ∧
      find? "go t.co/1 t.co/1\u200E" linkAndPhotoOfOne.inOrder {} = some photoOfOne ∧
      (∀ place, photoOfOne.first < place →
        ¬ ofString photoOfOne.url <+: (unmarked "go t.co/1 t.co/1\u200E").drop place) ∧
      linkAndPhotoOfOne.render? {} {} =
        some ⟨ofString "go one \u200E", [⟨3, 6, "t.co/1", {}, false⟩]⟩ := by
  have hlinks : linkAndPhotoOfOne.LinksInPlace "go t.co/1 t.co/1\u200E" := by decide +kernel
  have hfind : find? "go t.co/1 t.co/1\u200E" linkAndPhotoOfOne.inOrder {} = some photoOfOne := by
    rw [inOrder_linkAndPhotoOfOne]
    decide +kernel
  obtain ⟨as, d, hsplit, -, hd, hrender, hiff⟩ :=
    render?_leavesOut_link rfl hlinks {} hfind rfl
  have hmark : (ofString "go t.co/1 t.co/1\u200E").drop photoOfOne.past = [0x200E] := by
    decide +kernel
  refine ⟨hlinks, hfind, hiff.mp (Or.inr hmark), ?_⟩
  rw [inOrder_linkAndPhotoOfOne] at hsplit
  obtain ⟨rfl, -⟩ := List.append_inj' hsplit rfl
  rw [hrender, hd, hmark]
  decide +kernel

/-- A photo whose address stands again at the end of the text, where no mark is. -/
def linkTwice : MarkedText where
  text := some "see t.co/p and t.co/p"
  media := [⟨4, 10, .media "photo", "pic", "t.co/p", none⟩]

/-- The photo is left out for the address at the end, and more than that stands behind it. -/
theorem render?_linkTwice :
    linkTwice.LinksInPlace "see t.co/p and t.co/p" ∧
      find? "see t.co/p and t.co/p" linkTwice.inOrder {} =
        some ⟨4, 10, .media "photo", "pic", "t.co/p", none⟩ ∧
      linkTwice.render? {} {} = some ⟨ofString "see  and t.co/p", []⟩ ∧
      ¬ ∀ (t : MarkedText) (text : String) (elision : Elision) (a : Mark), t.text = some text →
        t.LinksInPlace text → find? text t.inOrder elision = some a → a.kind.isLink →
        ((ofString text).drop a.past = [] ∨ (ofString text).drop a.past = [0x200E]) := by
  have hlinks : linkTwice.LinksInPlace "see t.co/p and t.co/p" := by decide +kernel
  have horder : linkTwice.inOrder = linkTwice.media := Mark.sortByStart_of_pairwise (by decide)
  have hfind : find? "see t.co/p and t.co/p" linkTwice.inOrder {} =
      some ⟨4, 10, .media "photo", "pic", "t.co/p", none⟩ := by
    rw [horder]
    decide +kernel
  refine ⟨hlinks, hfind, ?_, ?_⟩
  · simp only [render?, draft, horder]
    decide +kernel
  · intro h
    have hrest := h linkTwice _ {} _ rfl hlinks hfind rfl
    revert hrest
    decide +kernel

end MarkedText

/-! ## What may be left out

A hashtag, a mention and a cashtag carry an address of their own, made of a text that anyone may
choose, on the host of the addresses of Tweets. That address has a query, whatever the text, and the
address of a Tweet or of a Vine has none. So wherever the marks of a Tweet are moved, the one that
is left out stands for a link or a media (`find?_displaced_iff`). -/

/-! ### Marks with an address of their own -/

theorem Mark.covers_unplaced (elision : Elision) (a : Mark) :
    elision.covers a.unplaced = elision.covers a := rfl

theorem Elision.not_covers_of_query {elision : Elision} {a : Mark} {url : String}
    (hphoto : a.showsPhoto = false) (hexpanded : a.expanded = some url)
    (hquery : '?' ∈ url.toList) : ¬ elision.covers a := by
  have hstatus : a.leadsToStatus = false := by
    rw [Mark.leadsToStatus, hexpanded, Option.any_some]
    exact Bool.eq_false_iff.mpr fun h => Address.not_mem_of_isStatus h hquery
  have hvine : a.leadsToVine = false := by
    rw [Mark.leadsToVine, hexpanded, Option.any_some]
    exact Bool.eq_false_iff.mpr fun h => Address.not_mem_of_isVine h hquery
  simp [covers, hphoto, hstatus, hvine]

/-- What stands for no link and no media leads to an address with a query. -/
theorem Mark.RecordedIn.exists_query {tweet : Tweet} {a : Mark} (h : a.RecordedIn tweet)
    (hkind : ¬ a.kind.isLink) : ∃ url, a.expanded = some url ∧ '?' ∈ url.toList := by
  unfold Mark.RecordedIn at h
  cases hk : a.kind with
  | link | media type => exact absurd (by rw [hk]; rfl) hkind
  | hashtag =>
    simp only [hk] at h
    obtain ⟨e, -, -, -, -, -, hexpanded⟩ := h
    exact ⟨_, hexpanded, by simp [Address.hashtag]⟩
  | mention =>
    simp only [hk] at h
    obtain ⟨e, -, -, -, -, -, hexpanded⟩ := h
    exact ⟨_, hexpanded, by simp [Address.profile]⟩
  | cashtag =>
    simp only [hk] at h
    obtain ⟨e, -, -, -, -, -, hexpanded⟩ := h
    exact ⟨_, hexpanded, by simp [Address.cashtag, Address.site]⟩

namespace MarkedText

/-- Of the entities of a Tweet only a link or a media is left out. -/
theorem isLink_of_covers {tweet : Tweet} {elision : Elision} {a : Mark}
    (ha : a ∈ (attach {} tweet).marks) (hcovers : elision.covers a) : a.kind.isLink := by
  by_contra hkind
  obtain ⟨url, hexpanded, hquery⟩ := (mem_marks_attach.mp ha).exists_query hkind
  have hphoto : a.showsPhoto = false :=
    beq_eq_false_iff_ne.mpr fun h => hkind (by rw [h]; rfl)
  exact Elision.not_covers_of_query hphoto hexpanded hquery hcovers

/-- **Only a link or a media is left out.** Formatting a Tweet moves its marks and does nothing else
to them. However they are moved, and whatever the text, a mark is left out just if it is the last
one in order, stands for a link or a media, has an address that the text ends in, and leads to what
is to be left out. -/
theorem find?_displaced_iff (tweet : Tweet) :
    (attach {} tweet).Displaced (ofTweet tweet) ∧
      ∀ t : MarkedText, (attach {} tweet).Displaced t →
        ∀ (text : String) (elision : Elision) (a : Mark),
          TrailingLink.find? text t.inOrder elision = some a ↔
            t.inOrder.getLast? = some a ∧ a.kind.isLink ∧ TrailingLink.endsIn text a.url ∧
              elision.covers a := by
  refine ⟨displaced_ofTweet tweet, fun t h text elision a => ?_⟩
  rw [TrailingLink.find?, Option.filter_eq_some_iff, Bool.and_eq_true]
  constructor
  · rintro ⟨hlast, hends, hcovers⟩
    have ha : a ∈ t.marks := mem_inOrder.mp (List.mem_of_getLast? hlast)
    obtain ⟨b, hb, hsame⟩ := h.exists_unplaced_eq ha
    have hcovers' : elision.covers b := by
      rw [← Mark.covers_unplaced, hsame, Mark.covers_unplaced]
      exact hcovers
    refine ⟨hlast, ?_, hends, hcovers⟩
    rw [← Mark.kind_unplaced, ← hsame, Mark.kind_unplaced]
    exact isLink_of_covers hb hcovers'
  · rintro ⟨hlast, -, hends, hcovers⟩
    exact ⟨hlast, hends, hcovers⟩

/-- A hashtag that reads like the address of a Tweet, behind a reference, and a photo at the end. -/
def taggedPhoto : Tweet where
  fullText := some "&amp; #jack/status/20 t.co/p"
  entities := some { hashtags := [⟨"jack/status/20", 6, 21⟩] }
  extendedEntities := some { media := [{
    url := "t.co/p", display := "pic", start := 22, stop := 28, type := "photo" }] }

theorem ofTweet_taggedPhoto : ofTweet taggedPhoto =
    { text := some "& #jack/status/20 t.co/p"
      media := [⟨18, 24, .media "photo", "pic", "t.co/p", none⟩]
      hashtags := [.ofPermalink 2 17 .hashtag "#jack/status/20"
        "https://twitter.com/hashtag/jack%2Fstatus%2F20?ref_src=twsrc%5Etwitterkit"] } := by
  decide +kernel

theorem inOrder_taggedPhoto : (ofTweet taggedPhoto).inOrder =
    (ofTweet taggedPhoto).hashtags ++ (ofTweet taggedPhoto).media := by
  rw [ofTweet_taggedPhoto]
  exact Mark.sortByStart_eq_of_perm (by decide) (by decide) (by decide)

theorem find?_displaced_taggedPhoto :
    (attach {} taggedPhoto).Displaced (ofTweet taggedPhoto) ∧
      TrailingLink.find? "& #jack/status/20 t.co/p" (ofTweet taggedPhoto).inOrder {} =
        some ⟨18, 24, .media "photo", "pic", "t.co/p", none⟩ ∧
      (MarkKind.media "photo").isLink := by
  obtain ⟨hdisplaced, hiff⟩ := find?_displaced_iff taggedPhoto
  have hfind : TrailingLink.find? "& #jack/status/20 t.co/p" (ofTweet taggedPhoto).inOrder {} =
      some ⟨18, 24, .media "photo", "pic", "t.co/p", none⟩ := by
    rw [inOrder_taggedPhoto, ofTweet_taggedPhoto]
    decide +kernel
  obtain ⟨-, hlink, -, -⟩ := (hiff _ hdisplaced _ _ _).mp hfind
  exact ⟨hdisplaced, hfind, hlink⟩

end MarkedText
end TweetText
