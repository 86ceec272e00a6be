import TweetText.Proofs.MarkedText.Adopt
import TweetText.Render

/-!
# The order of marks

The five lists are joined and sorted by starts, where marks with one start keep the order in which
the lists have them. That is all that is taken from the lists: when marks have starts of their own,
it does not matter in which of the lists they stand, nor where (`render?_of_rearranged`).
-/

namespace TweetText

namespace MarkedText

/-- All that is rendered is the text and the marks in order. -/
theorem render?_congr {t t' : MarkedText} (htext : t.text = t'.text)
    (hmarks : t.inOrder = t'.inOrder) (style : LinkStyle) (elision : Elision) :
    t.render? style elision = t'.render? style elision := by
  unfold render? draft
  rw [htext, hmarks]

/-- The same text with the same marks, in whatever lists and in whatever order. -/
structure Rearranged (t t' : MarkedText) : Prop where
  text_eq : t.text = t'.text
  marks_perm : t.marks.Perm t'.marks

theorem Rearranged.inOrder_eq {t t' : MarkedText} (h : t.Rearranged t')
    (hstarts : t.marks.Pairwise fun a b => a.start ≠ b.start) : t.inOrder = t'.inOrder := by
  rw [MarkedText.inOrder_eq, MarkedText.inOrder_eq]
  exact Mark.sortByStart_congr (Mark.filter_start_of_perm h.marks_perm hstarts)

/-- **The marks in order** are the marks of the five lists, one list after the other, in the one
order that goes by their starts and leaves those with one start as they are listed. And where no two
marks have one start, the lists may be rearranged at will: the text is rendered alike. -/
theorem render?_of_rearranged (t : MarkedText) :
    (∀ as, Mark.StablySorts (t.links ++ t.media ++ t.hashtags ++ t.mentions ++ t.cashtags) as ↔
        as = t.inOrder) ∧
      ∀ t', t.Rearranged t' → (t.marks.Pairwise fun a b => a.start ≠ b.start) →
        ∀ style elision, t.render? style elision = t'.render? style elision := by
  constructor
  · intro as
    exact Mark.stablySorts_iff
  · intro t' h hstarts style elision
    exact render?_congr h.text_eq (h.inOrder_eq hstarts) style elision

def oneEach : MarkedText where
  text := some "#go t.co/1 t.co/2"
  links := [⟨4, 10, .link, "one", "t.co/1", none⟩]
  media := [⟨11, 17, .media "photo", "pic", "t.co/2", none⟩]
  hashtags := [⟨0, 3, .hashtag, "#go", "t.co/go", none⟩]

/-- The marks of `oneEach` in other lists, two of them in one and not in order. -/
def muddled : MarkedText where
  text := some "#go t.co/1 t.co/2"
  mentions := [⟨11, 17, .media "photo", "pic", "t.co/2", none⟩,
    ⟨0, 3, .hashtag, "#go", "t.co/go", none⟩]
  cashtags := [⟨4, 10, .link, "one", "t.co/1", none⟩]

theorem inOrder_oneEach : oneEach.inOrder = oneEach.hashtags ++ oneEach.links ++ oneEach.media :=
  Mark.sortByStart_eq_of_perm (by decide) (by decide) (by decide)

theorem render?_muddled :
    oneEach.Rearranged muddled ∧ (oneEach.marks.Pairwise fun a b => a.start ≠ b.start) ∧
      oneEach.render? {} {} = muddled.render? {} {} ∧
      muddled.render? {} {} = some ⟨Utf16.ofString "#go one",
        [⟨0, 3, "t.co/go", {}, false⟩, ⟨4, 7, "t.co/1", {}, false⟩]⟩ := by
  have hrearranged : oneEach.Rearranged muddled := ⟨rfl, by decide⟩
  have hstarts : oneEach.marks.Pairwise fun a b => a.start ≠ b.start := by decide
  have hsame := (render?_of_rearranged oneEach).2 muddled hrearranged hstarts {} {}
  refine ⟨hrearranged, hstarts, hsame, ?_⟩
  rw [← hsame]
  simp only [render?, draft, inOrder_oneEach]
  decide +kernel

end MarkedText

/-! ## Entities listed in another order

A Tweet lists its entities in any order. The marks are sorted before they are applied, but not
before the pass to the left, which counts for a mark what was behind the marks listed before it
(`Mark.retract_eq_map_iff`). So two Tweets that list the same entities are rendered alike when the
marks of each list are in step and settle on starts of their own (`render?_of_reordered`). -/

/-! ### Two listings -/

/-- The same entities of each kind, in any order. -/
structure Entities.Reordered (e e' : Entities) : Prop where
  links : e.links.Perm e'.links
  mentions : e.mentions.Perm e'.mentions
  media : e.media.Perm e'.media
  hashtags : e.hashtags.Perm e'.hashtags
  cashtags : e.cashtags.Perm e'.cashtags

namespace Tweet

/-- The same Tweet, but for the order in which it lists its entities of each kind. -/
structure Reordered (tweet tweet' : Tweet) : Prop where
  id_eq : tweet.id = tweet'.id
  idText_eq : tweet.idText = tweet'.idText
  text_eq : tweet.text = tweet'.text
  fullText_eq : tweet.fullText = tweet'.fullText
  entities : tweet.entities.Rel Entities.Reordered tweet'.entities
  extendedEntities : tweet.extendedEntities.Rel Entities.Reordered tweet'.extendedEntities

/-- Each list of entities to show is in step with the text, and no two of its entities settle on one
start. -/
structure ListedInStep (tweet : Tweet) (source : String) : Prop where
  inStep : ∀ as ∈ (MarkedText.attach {} tweet).lists, as.Pairwise (Mark.InStep source.toList)
  starts : ∀ as ∈ (MarkedText.attach {} tweet).lists, as.Pairwise fun a b =>
    (a.settle source.toList).start ≠ (b.settle source.toList).start

instance (tweet : Tweet) (source : String) : Decidable (tweet.ListedInStep source) :=
  decidable_of_iff (∀ as ∈ (MarkedText.attach {} tweet).lists,
      (as.Pairwise (Mark.InStep source.toList)) ∧ as.Pairwise fun a b =>
        (a.settle source.toList).start ≠ (b.settle source.toList).start)
    ⟨fun h => ⟨fun as has => (h as has).1, fun as has => (h as has).2⟩,
      fun h as has => ⟨h.inStep as has, h.starts as has⟩⟩

end Tweet

theorem Entities.Reordered.refl (e : Entities) : e.Reordered e :=
  ⟨.refl _, .refl _, .refl _, .refl _, .refl _⟩

theorem Entities.reordered_getD {e e' : Option Entities} (h : e.Rel Entities.Reordered e') :
    (e.getD {}).Reordered (e'.getD {}) := by
  cases h with
  | none => exact .refl {}
  | some h => exact h

namespace Tweet.Reordered

variable {tweet tweet' : Tweet}

theorem shownText_eq (h : tweet.Reordered tweet') : tweet'.shownText = tweet.shownText := by
  rw [shownText, shownText, h.fullText_eq, h.text_eq]

theorem perm_media {e e' : Option Entities} (h : e.Rel Entities.Reordered e') :
    ((e.map Entities.media).getD []).Perm ((e'.map Entities.media).getD []) := by
  cases h with
  | none => exact .refl []
  | some h => exact h.media

theorem perm_shownMedia (h : tweet.Reordered tweet') : tweet.shownMedia.Perm tweet'.shownMedia := by
  have hextended := perm_media h.extendedEntities
  unfold shownMedia
  cases hlist : (tweet.extendedEntities.map Entities.media).getD [] with
  | nil =>
      rw [hlist] at hextended
      rw [← hextended.nil_eq]
      exact perm_media h.entities
  | cons m rest =>
      rw [hlist] at hextended
      cases hlist' : (tweet'.extendedEntities.map Entities.media).getD [] with
      | nil =>
          rw [hlist'] at hextended
          cases hextended.eq_nil
      | cons m' rest' =>
          rw [hlist'] at hextended
          exact hextended

theorem forall₂_lists (h : tweet.Reordered tweet') :
    List.Forall₂ List.Perm (MarkedText.attach {} tweet).lists
      (MarkedText.attach {} tweet').lists := by
  have hentities := Entities.reordered_getD h.entities
  refine .cons (hentities.links.map _) (.cons (h.perm_shownMedia.map _)
    (.cons (hentities.hashtags.map _) (.cons (hentities.mentions.map _)
      (.cons (hentities.cashtags.map _) .nil))))

end Tweet.Reordered

/-! ### The result -/

namespace MarkedText

theorem inOrder_ofTweet_of_reordered {tweet tweet' : Tweet} {source : String}
    (h : tweet.Reordered tweet') (hsource : tweet.shownText = some source) (hne : source ≠ "")
    (hlisted : tweet.ListedInStep source) (hlisted' : tweet'.ListedInStep source) :
    (ofTweet tweet).inOrder = (ofTweet tweet').inOrder := by
  rw [inOrder_eq, inOrder_eq, marks, marks, lists_ofTweet hsource hne hlisted.inStep,
    lists_ofTweet (h.shownText_eq.trans hsource) hne hlisted'.inStep]
  apply Mark.sortByStart_flatten_of_perm
  rw [List.forall₂_map_left_iff, List.forall₂_map_right_iff]
  have hlists := (List.forall₂_and_left _ _).mpr ⟨hlisted.starts, h.forall₂_lists⟩
  exact hlists.imp fun as bs hlist => ⟨hlist.2.map _, List.pairwise_map.mpr hlist.1⟩

end MarkedText

namespace Tweet

/-- **The order of the lists does not count.** Two Tweets that differ only in the order of their
lists of entities are rendered alike, if in both of them each list is in step with the text and its
entities settle on starts of their own. -/
theorem render?_of_reordered {tweet tweet' : Tweet} (h : tweet.Reordered tweet')
    (hlisted : ∀ source, tweet.shownText = some source → tweet.ListedInStep source)
    (hlisted' : ∀ source, tweet'.shownText = some source → tweet'.ListedInStep source)
    (settings : Settings) : tweet.render? settings = tweet'.render? settings := by
  cases hsource : tweet.shownText.filter (· ≠ "") with
  | none =>
      have hnone : ∀ t : Tweet, t.shownText.filter (· ≠ "") = none → t.render? settings = none := by
        intro t ht
        rw [render?, MarkedText.ofTweet, MarkedText.adopt, ht]
        rfl
      rw [hnone tweet hsource, hnone tweet' (h.shownText_eq ▸ hsource)]
  | some source =>
      obtain ⟨hsource, hne⟩ := Option.filter_eq_some_iff.mp hsource
      have hne : source ≠ "" := by simpa using hne
      have hsource' := h.shownText_eq.trans hsource
      apply MarkedText.render?_congr
      · rw [MarkedText.text_ofTweet hsource hne, MarkedText.text_ofTweet hsource' hne]
      · exact MarkedText.inOrder_ofTweet_of_reordered h hsource hne (hlisted source hsource)
          (hlisted' source hsource')

def threeTags : Tweet where
  fullText := some "#a #b &amp; #c"
  entities := some { hashtags := [⟨"a", 0, 2⟩, ⟨"b", 3, 5⟩, ⟨"c", 12, 14⟩] }

def firstTwoTurned : Tweet :=
  { threeTags with
    entities := some { hashtags := [⟨"b", 3, 5⟩, ⟨"a", 0, 2⟩, ⟨"c", 12, 14⟩] } }

/-- The hashtag behind the reference is listed before the second one. -/
def lastTwoTurned : Tweet :=
  { threeTags with
    entities := some { hashtags := [⟨"a", 0, 2⟩, ⟨"c", 12, 14⟩, ⟨"b", 3, 5⟩] } }

theorem ofText_threeTags : Piece.ofText "#a #b &amp; #c".toList =
    [.plain '#', .plain 'a', .plain ' ', .plain '#', .plain 'b', .plain ' ',
      .reference ['a', 'm', 'p'] '&', .plain ' ', .plain '#', .plain 'c'] := by decide +kernel

theorem ofTweet_threeTags : MarkedText.ofTweet threeTags =
    { text := some "#a #b & #c"
      hashtags := [.ofHashtag ⟨"a", 0, 2⟩, .ofHashtag ⟨"b", 3, 5⟩, .ofHashtag ⟨"c", 8, 10⟩] } := by
  rw [MarkedText.ofTweet, MarkedText.adopt_of_shownText _ rfl (by decide), Reference.said,
    ofText_threeTags]
  decide +kernel

theorem inOrder_threeTags : (MarkedText.ofTweet threeTags).inOrder =
    [.ofHashtag ⟨"a", 0, 2⟩, .ofHashtag ⟨"b", 3, 5⟩, .ofHashtag ⟨"c", 8, 10⟩] := by
  rw [ofTweet_threeTags]
  exact Mark.sortByStart_of_pairwise (by decide)

theorem render?_threeTags : threeTags.render? ⟨{}, .black, .white⟩ =
    some ⟨Utf16.ofString "#a #b & #c", [⟨0, 2, Address.hashtag "a", {}, false⟩,
      ⟨3, 5, Address.hashtag "b", {}, false⟩, ⟨8, 10, Address.hashtag "c", {}, false⟩]⟩ := by
  have htext : (MarkedText.ofTweet threeTags).text = some "#a #b & #c" := by
    rw [ofTweet_threeTags]
  rw [render?, MarkedText.render?, htext]
  simp only [MarkedText.draft, inOrder_threeTags]
  decide +kernel

theorem render?_firstTwoTurned :
    threeTags.Reordered firstTwoTurned ∧ threeTags.ListedInStep "#a #b &amp; #c" ∧
      firstTwoTurned.ListedInStep "#a #b &amp; #c" ∧
      threeTags.render? ⟨{}, .black, .white⟩ = firstTwoTurned.render? ⟨{}, .black, .white⟩ := by
  have hreordered : threeTags.Reordered firstTwoTurned :=
    ⟨rfl, rfl, rfl, rfl, .some ⟨.refl _, .refl _, .refl _, .swap _ _ _, .refl _⟩, .none⟩
  obtain ⟨hlisted, hlisted'⟩ : threeTags.ListedInStep "#a #b &amp; #c" ∧
      firstTwoTurned.ListedInStep "#a #b &amp; #c" := by decide +kernel
  refine ⟨hreordered, hlisted, hlisted', render?_of_reordered hreordered ?_ ?_ _⟩
  · rintro source ⟨⟩
    exact hlisted
  · rintro source ⟨⟩
    exact hlisted'

/-- The second hashtag, listed last, is moved over the reference behind it. -/
theorem ofTweet_lastTwoTurned : MarkedText.ofTweet lastTwoTurned =
    { text := some "#a #b & #c"
      hashtags := [.ofHashtag ⟨"a", 0, 2⟩, .ofHashtag ⟨"c", 8, 10⟩, .ofHashtag ⟨"b", -1, 1⟩] } := by
  rw [MarkedText.ofTweet, MarkedText.adopt_of_shownText _ rfl (by decide), Reference.said,
    ofText_threeTags]
  decide +kernel

theorem inOrder_lastTwoTurned : (MarkedText.ofTweet lastTwoTurned).inOrder =
    [.ofHashtag ⟨"b", -1, 1⟩, .ofHashtag ⟨"a", 0, 2⟩, .ofHashtag ⟨"c", 8, 10⟩] := by
  rw [ofTweet_lastTwoTurned]
  exact Mark.sortByStart_eq_of_perm (by decide) (by decide) (by decide)

/-- The second hashtag begins before the text then, and has no span. -/
theorem render?_lastTwoTurned_ne :
    threeTags.Reordered lastTwoTurned ∧
      (∀ a ∈ (MarkedText.attach {} threeTags).marks, a.TakesPlain "#a #b &amp; #c".toList) ∧
      (MarkedText.attach {} threeTags).marks.Pairwise Mark.Apart ∧
      lastTwoTurned.render? ⟨{}, .black, .white⟩ = some ⟨Utf16.ofString "#a #b & #c",
        [⟨0, 2, Address.hashtag "a", {}, false⟩, ⟨8, 10, Address.hashtag "c", {}, false⟩]⟩ ∧
      threeTags.render? ⟨{}, .black, .white⟩ ≠ lastTwoTurned.render? ⟨{}, .black, .white⟩ := by
  have hrender : lastTwoTurned.render? ⟨{}, .black, .white⟩ = some ⟨Utf16.ofString "#a #b & #c",
      [⟨0, 2, Address.hashtag "a", {}, false⟩, ⟨8, 10, Address.hashtag "c", {}, false⟩]⟩ := by
    have htext : (MarkedText.ofTweet lastTwoTurned).text = some "#a #b & #c" := by
      rw [ofTweet_lastTwoTurned]
    rw [render?, MarkedText.render?, htext]
    simp only [MarkedText.draft, inOrder_lastTwoTurned]
    decide +kernel
  refine ⟨?_, by decide +kernel, by decide +kernel, hrender, ?_⟩
  · exact ⟨rfl, rfl, rfl, rfl, .some ⟨.refl _, .refl _, .refl _, .cons _ (.swap _ _ _), .refl _⟩,
      .none⟩
  · rw [render?_threeTags, hrender]
    decide +kernel

end Tweet
end TweetText
