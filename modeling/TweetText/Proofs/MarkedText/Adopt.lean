import Mathlib.Data.List.Forall2
import TweetText.Proofs.Mark.Shift

/-!
# Adopting the text of a Tweet

The marks of a Tweet are its entities, attached to the text as it was sent (`mem_marks_attach`).
Once the text is set they settle, list by list, on what that text says.
-/

namespace TweetText

namespace MarkedText

open Reference

/-- The five lists of marks, in the order in which they are joined. -/
def lists (t : MarkedText) : List (List Mark) :=
  [t.links, t.media, t.hashtags, t.mentions, t.cashtags]

def marks (t : MarkedText) : List Mark := t.lists.flatten

theorem inOrder_eq (t : MarkedText) : t.inOrder = Mark.sortByStart t.marks := by
  simp [inOrder, marks, lists]

theorem mem_inOrder {t : MarkedText} {a : Mark} : a ∈ t.inOrder ↔ a ∈ t.marks := by
  rw [inOrder_eq]
  exact (Mark.perm_sortByStart t.marks).mem_iff

theorem pairwise_inOrder_of_apart {t : MarkedText} (hapart : t.marks.Pairwise Mark.Apart)
    (hne : ∀ a ∈ t.marks, a.start < a.stop) :
    t.inOrder.Pairwise fun a b => a.stop ≤ b.start := by
  have hne' : ∀ a ∈ t.inOrder, a.start < a.stop := fun a ha => hne a (mem_inOrder.mp ha)
  rw [inOrder_eq] at hne' ⊢
  exact Mark.pairwise_stop_le_start (Mark.pairwise_sortByStart _)
    (Mark.pairwise_apart_sortByStart.mpr hapart) hne'

theorem adopt_of_shownText_empty (t : MarkedText) {tweet : Tweet} (h : tweet.shownText = some "") :
    t.adopt tweet = t := by
  rw [adopt, h]
  rfl

theorem adopt_of_shownText (t : MarkedText) {tweet : Tweet} {source : String}
    (h : tweet.shownText = some source) (hne : source ≠ "") :
    t.adopt tweet =
      { (t.mapLists (Mark.retract (Piece.escapes (Piece.ofText source.toList)))).advance
          (String.ofList (said source.toList)) with
        text := some (String.ofList (said source.toList)) } := by
  have hfilter : tweet.shownText.filter (· ≠ "") = some source := by
    rw [h, Option.filter_some, if_pos (by simpa using hne)]
  unfold adopt
  simp only [hfilter]
  rfl

theorem text_ofTweet {tweet : Tweet} {source : String} (h : tweet.shownText = some source)
    (hne : source ≠ "") : (ofTweet tweet).text = some (String.ofList (said source.toList)) := by
  rw [ofTweet, adopt_of_shownText _ h hne]

/-- Each list in step settles mark by mark. -/
theorem forall₂_lists_ofTweet_of_inStep {tweet : Tweet} {source : String}
    (h : tweet.shownText = some source) (hne : source ≠ "") :
    List.Forall₂ (fun before after => before.Pairwise (Mark.InStep source.toList) →
        after = before.map (Mark.settle source.toList))
      (attach {} tweet).lists (ofTweet tweet).lists := by
  have hlists : (ofTweet tweet).lists = (attach {} tweet).lists.map fun as =>
      (Mark.retract (Piece.escapes (Piece.ofText source.toList)) as).map
        (Mark.advance (Utf16.pairs (said source.toList))) := by
    rw [ofTweet, adopt_of_shownText _ h hne, advance, String.toList_ofList]
    rfl
  rw [hlists, List.forall₂_map_right_iff, List.forall₂_same]
  intro as _ hstep
  exact Mark.map_advance_retract hstep

/-- Where all lists are in step, all marks settle. -/
theorem lists_ofTweet {tweet : Tweet} {source : String} (h : tweet.shownText = some source)
    (hne : source ≠ "")
    (hstep : ∀ as ∈ (attach {} tweet).lists, as.Pairwise (Mark.InStep source.toList)) :
    (ofTweet tweet).lists =
      (attach {} tweet).lists.map (List.map (Mark.settle source.toList)) := by
  have hsettled := (List.forall₂_and_left _ _).mpr
    ⟨hstep, forall₂_lists_ofTweet_of_inStep h hne⟩
  rw [eq_comm, ← List.forall₂_eq_eq_eq, List.forall₂_map_left_iff]
  exact hsettled.imp fun as bs hlist => (hlist.2 hlist.1).symm

theorem forall₂_lists_ofTweet {tweet : Tweet} {source : String}
    (h : tweet.shownText = some source) (hne : source ≠ "") :
    List.Forall₂ (fun before after => (before.Pairwise fun a b => a.start ≤ b.start) →
        after = before.map (Mark.settle source.toList))
      (attach {} tweet).lists (ofTweet tweet).lists :=
  (forall₂_lists_ofTweet_of_inStep h hne).imp fun _ _ hsettle hsorted =>
    hsettle (hsorted.imp fun hle => Mark.inStep_of_le _ hle)

end MarkedText

/-! ## The marks that are attached -/

/-- The entity that a mark is made of. A link and a media come with a text to show, an address and
where it leads; a hashtag, a mention and a cashtag show their text behind a sign, on a permalink
that leads to itself. -/
def Mark.RecordedIn (tweet : Tweet) (a : Mark) : Prop :=
  let entities := tweet.entities.getD {}
  match a.kind with
  | .link => ∃ e ∈ entities.links, a.start = e.start ∧ a.stop = e.stop ∧
      a.display = e.display ∧ a.url = e.url ∧ a.expanded = e.expanded
  | .media type => ∃ e ∈ tweet.shownMedia, a.start = e.start ∧ a.stop = e.stop ∧ type = e.type ∧
      a.display = e.display ∧ a.url = e.url ∧ a.expanded = e.expanded
  | .hashtag => ∃ e ∈ entities.hashtags, a.start = e.start ∧ a.stop = e.stop ∧
      a.display = "#" ++ e.text ∧ a.url = Address.hashtag e.text ∧
        a.expanded = some (Address.hashtag e.text)
  | .mention => ∃ e ∈ entities.mentions, a.start = e.start ∧ a.stop = e.stop ∧
      a.display = "@" ++ e.screenName ∧ a.url = Address.profile e.screenName ∧
        a.expanded = some (Address.profile e.screenName)
  | .cashtag => ∃ e ∈ entities.cashtags, a.start = e.start ∧ a.stop = e.stop ∧
      a.display = "$" ++ e.text ∧ a.url = Address.cashtag e.text ∧
        a.expanded = some (Address.cashtag e.text)

/-- The marks that are attached are the entities of the Tweet, whatever their kinds. -/
theorem MarkedText.mem_marks_attach {tweet : Tweet} {a : Mark} :
    a ∈ (MarkedText.attach {} tweet).marks ↔ a.RecordedIn tweet := by
  have hmarks : a ∈ (MarkedText.attach {} tweet).marks ↔
      (∃ e ∈ (tweet.entities.getD {}).links, a = .ofLink e) ∨
      (∃ e ∈ tweet.shownMedia, a = .ofMedia e) ∨
      (∃ e ∈ (tweet.entities.getD {}).hashtags, a = .ofHashtag e) ∨
      (∃ e ∈ (tweet.entities.getD {}).mentions, a = .ofMention e) ∨
      (∃ e ∈ (tweet.entities.getD {}).cashtags, a = .ofCashtag e) := by
    simp [MarkedText.marks, MarkedText.lists, MarkedText.attach, eq_comm]
  obtain ⟨start, stop, kind, display, url, expanded⟩ := a
  rw [hmarks]
  cases kind <;>
    simp [Mark.RecordedIn, Mark.ofLink, Mark.ofMedia, Mark.ofHashtag, Mark.ofMention,
      Mark.ofCashtag, Mark.ofPermalink]

/-! ## Marks but for their offsets -/

namespace Mark

def unplaced (a : Mark) : Mark := { a with start := 0, stop := 0 }

theorem kind_unplaced (a : Mark) : a.unplaced.kind = a.kind := rfl

theorem unplaced_move (a : Mark) (distance : Int) : (a.move distance).unplaced = a.unplaced := rfl

theorem map_unplaced_retractFrom (behind : Nat) (escapes : List Escape) (as : List Mark) :
    (retractFrom behind escapes as).map unplaced = as.map unplaced := by
  induction as generalizing behind escapes with
  | nil => rfl
  | cons a as ih => rw [retractFrom, List.map_cons, unplaced_move, ih, List.map_cons]

theorem map_unplaced_advance (pairs : List Nat) (as : List Mark) :
    (as.map (advance pairs)).map unplaced = as.map unplaced := by
  rw [List.map_map]
  exact List.map_congr_left fun a _ => unplaced_move a _

end Mark

namespace MarkedText

/-- The second text has the marks of the first one, with any offsets in place of theirs. -/
def Displaced (t t' : MarkedText) : Prop :=
  t'.lists.map (List.map Mark.unplaced) = t.lists.map (List.map Mark.unplaced)

instance (t t' : MarkedText) : Decidable (t.Displaced t') := inferInstanceAs (Decidable (_ = _))

/-- The marks of a Tweet have other offsets once its text is set, and are the same otherwise. -/
theorem displaced_ofTweet (tweet : Tweet) : (attach {} tweet).Displaced (ofTweet tweet) := by
  unfold ofTweet adopt
  split
  · rfl
  · rename_i source _
    unfold Displaced
    simp only [lists, advance, mapLists, List.map_cons, List.map_nil, Mark.map_unplaced_advance,
      Mark.retract, Mark.map_unplaced_retractFrom]

theorem Displaced.exists_unplaced_eq {t t' : MarkedText} (h : t.Displaced t') {a : Mark}
    (ha : a ∈ t'.marks) : ∃ b ∈ t.marks, b.unplaced = a.unplaced := by
  have hmem := List.mem_map_of_mem (f := Mark.unplaced) ha
  rw [marks, List.map_flatten, h, ← List.map_flatten] at hmem
  exact List.mem_map.mp hmem

theorem Displaced.symm {t t' : MarkedText} (h : t.Displaced t') : t'.Displaced t := Eq.symm h

theorem Displaced.exists_mem_marks {t t' : MarkedText} (h : t.Displaced t') {a : Mark} :
    (∃ start stop, { a with start, stop } ∈ t'.marks) →
      ∃ start stop, { a with start, stop } ∈ t.marks := by
  rintro ⟨start, stop, ha⟩
  obtain ⟨b, hb, hsame⟩ := h.exists_unplaced_eq ha
  refine ⟨b.start, b.stop, ?_⟩
  have hb' : { a with start := b.start, stop := b.stop } = b :=
    calc { a with start := b.start, stop := b.stop }
      _ = { a.unplaced with start := b.start, stop := b.stop } := rfl
      _ = { b.unplaced with start := b.start, stop := b.stop } :=
        congrArg (fun c : Mark => { c with start := b.start, stop := b.stop }) hsame.symm
      _ = b := rfl
  rwa [hb']

/-- Once its text is set, a Tweet has the marks of its entities, each on some range. -/
theorem exists_mem_marks_ofTweet {tweet : Tweet} {a : Mark} :
    (∃ start stop, { a with start, stop } ∈ (ofTweet tweet).marks) ↔
      ∃ start stop, Mark.RecordedIn tweet { a with start, stop } := by
  simp only [← mem_marks_attach]
  exact ⟨(displaced_ofTweet tweet).exists_mem_marks, (displaced_ofTweet tweet).symm.exists_mem_marks⟩

end MarkedText

/-! ## Offsets among pairs and references

A Tweet may hold surrogate pairs and the references for an ampersand and the two angle brackets in
any arrangement. Its entities keep their characters as long as no reference before them ends, in
units, later than they do in characters (`follows_ofTweet_iff`). With enough pairs before it a
reference does, and then the entity behind it is left too far to the right (`crowded`). -/

namespace Reference

def markup : List (List Char) := [['a', 'm', 'p'], ['l', 't'], ['g', 't']]

/-- All references of the text are for an ampersand or an angle bracket. -/
def SaysMarkup (s : List Char) : Prop :=
  ∀ first name value, StandsAt s first name value → name ∈ markup

instance (s : List Char) : Decidable (SaysMarkup s) := inferInstanceAs (Decidable (∀ _ _ _, _ → _))

theorem map_value?_markup : markup.map value? = [some '&', some '<', some '>'] := by decide +kernel

theorem SaysMarkup.saysBasic {s : List Char} (h : SaysMarkup s) : SaysBasic s := by
  intro first name value hstands
  have hmem : value? name ∈ markup.map value? := List.mem_map_of_mem (h first name value hstands)
  rw [hstands.1.value_eq, map_value?_markup] at hmem
  simp only [List.mem_cons, Option.some.injEq, List.not_mem_nil, or_false] at hmem
  rcases hmem with rfl | rfl | rfl <;> rfl

end Reference

namespace MarkedText

open Reference

/-- **When entities keep their characters.** In each list that is in order and whose marks take
plain characters, a mark comes to lie on its characters just if every reference before it ends, in
units, no later than the mark does in characters, and its range fits the type of offsets. -/
theorem follows_ofTweet_iff {tweet : Tweet} {source : String}
    (hsource : tweet.shownText = some source) (hmarkup : SaysMarkup source.toList) :
    List.Forall₂ (fun before after => before.Pairwise (fun a b => a.start ≤ b.start) →
        (∀ a ∈ before, a.TakesPlain source.toList) →
        List.Forall₂ (fun a b => a.Follows source.toList b ↔ a.ClearsEscapes source.toList ∧
          Utf16.length (said (source.toList.take a.past)) < 2 ^ 31) before after)
      (attach {} tweet).lists (ofTweet tweet).lists := by
  by_cases hne : source = ""
  · subst hne
    rw [ofTweet, adopt_of_shownText_empty _ hsource, List.forall₂_same]
    intro before _ _ htakes
    rw [List.forall₂_same]
    intro a ha
    have hlt := (htakes a ha).first_lt_past
    have hle := (htakes a ha).liesIn.past_le
    simp at hle
    omega
  · refine (forall₂_lists_ofTweet hsource hne).imp ?_
    intro before after hsettle hsorted htakes
    rw [hsettle hsorted, List.forall₂_map_right_iff, List.forall₂_same]
    intro a ha
    exact Mark.follows_settle_iff (htakes a ha) hmarkup.saysBasic

def uncrowded : Tweet :=
  { fullText := some "😀 &amp; #x", entities := some { hashtags := [⟨"x", 8, 10⟩] } }

theorem ofText_uncrowded : Piece.ofText "😀 &amp; #x".toList =
    [.plain '😀', .plain ' ', .reference ['a', 'm', 'p'] '&', .plain ' ', .plain '#',
      .plain 'x'] := by decide +kernel

theorem follows_uncrowded :
    uncrowded.shownText = some "😀 &amp; #x" ∧ SaysMarkup "😀 &amp; #x".toList ∧
      List.Forall₂ (fun before after => before.Pairwise (fun a b => a.start ≤ b.start) →
          (∀ a ∈ before, a.TakesPlain "😀 &amp; #x".toList) →
          List.Forall₂ (fun a b => a.Follows "😀 &amp; #x".toList b ↔
            a.ClearsEscapes "😀 &amp; #x".toList ∧
              Utf16.length (said ("😀 &amp; #x".toList.take a.past)) < 2 ^ 31) before after)
        (attach {} uncrowded).lists (ofTweet uncrowded).lists ∧
      (attach {} uncrowded).lists = [[], [], [.ofHashtag ⟨"x", 8, 10⟩], [], []] ∧
      (Mark.ofHashtag ⟨"x", 8, 10⟩).TakesPlain "😀 &amp; #x".toList ∧
      (Mark.ofHashtag ⟨"x", 8, 10⟩).ClearsEscapes "😀 &amp; #x".toList := by
  have hmarkup : SaysMarkup "😀 &amp; #x".toList :=
    forall_standsAt_iff.mpr (by rw [ofText_uncrowded]; decide)
  refine ⟨rfl, hmarkup, follows_ofTweet_iff rfl hmarkup, rfl, ?_, ?_⟩
  · exact ⟨by decide, by decide, Utf16.supplementaries_eq_zero.mp (by decide),
      forall_standsAt_iff.mpr (by rw [ofText_uncrowded]; decide)⟩
  · exact forall_standsAt_iff.mpr (by rw [ofText_uncrowded]; decide)

/-- A hashtag behind a reference behind five pairs. The reference ends at unit 15, the hashtag at
character 13. -/
def crowded : Tweet :=
  { fullText := some "😀😀😀😀😀&amp; #x", entities := some { hashtags := [⟨"x", 11, 13⟩] } }

theorem ofText_crowded : Piece.ofText "😀😀😀😀😀&amp; #x".toList =
    [.plain '😀', .plain '😀', .plain '😀', .plain '😀', .plain '😀',
      .reference ['a', 'm', 'p'] '&', .plain ' ', .plain '#', .plain 'x'] := by decide +kernel

/-- The hashtag of a crowded text is left over the end of what the text says. -/
theorem not_follows_crowded :
    crowded.shownText = some "😀😀😀😀😀&amp; #x" ∧ SaysMarkup "😀😀😀😀😀&amp; #x".toList ∧
      (∀ before ∈ (attach {} crowded).lists, before.Pairwise (fun a b => a.start ≤ b.start) ∧
        ∀ a ∈ before, a.TakesPlain "😀😀😀😀😀&amp; #x".toList) ∧
      ((ofTweet crowded).hashtags.map fun b => (b.start, b.stop)) = [(16, 18)] ∧
      Utf16.length (said "😀😀😀😀😀&amp; #x".toList) = 14 ∧
      ¬ List.Forall₂ (List.Forall₂ (Mark.Follows "😀😀😀😀😀&amp; #x".toList))
        (attach {} crowded).lists (ofTweet crowded).lists := by
  have hsource : crowded.shownText = some "😀😀😀😀😀&amp; #x" := rfl
  have hlists : (attach {} crowded).lists = [[], [], [.ofHashtag ⟨"x", 11, 13⟩], [], []] := rfl
  have htakes : (Mark.ofHashtag ⟨"x", 11, 13⟩).TakesPlain "😀😀😀😀😀&amp; #x".toList :=
    ⟨by decide, by decide, Utf16.supplementaries_eq_zero.mp (by decide),
      forall_standsAt_iff.mpr (by rw [ofText_crowded]; decide)⟩
  have hsaid : said "😀😀😀😀😀&amp; #x".toList = "😀😀😀😀😀& #x".toList := by
    rw [said, ofText_crowded]
    decide
  have hmoved : ofTweet crowded =
      { text := some "😀😀😀😀😀& #x"
        hashtags := [(Mark.ofHashtag ⟨"x", 11, 13⟩).move 5] } := by
    rw [ofTweet, adopt_of_shownText _ hsource (by decide), hsaid, ofText_crowded]
    decide +kernel
  refine ⟨hsource, forall_standsAt_iff.mpr (by rw [ofText_crowded]; decide), ?_, ?_, ?_, ?_⟩
  · simpa [hlists] using htakes
  · rw [hmoved]
    decide
  · rw [hsaid]
    decide
  · intro hfollows
    have htake : "😀😀😀😀😀&amp; #x".toList.take 13 = "😀😀😀😀😀&amp; #x".toList := by decide
    rw [hlists, hmoved] at hfollows
    simp only [lists, List.forall₂_cons] at hfollows
    obtain ⟨-, -, ⟨hfollows, -⟩, -⟩ := hfollows
    have hstop := hfollows.stop_eq
    rw [show (Mark.ofHashtag ⟨"x", 11, 13⟩).past = 13 from rfl, htake, hsaid] at hstop
    revert hstop
    decide

end MarkedText
end TweetText
