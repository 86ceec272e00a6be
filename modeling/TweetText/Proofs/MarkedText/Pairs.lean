import TweetText.Proofs.MarkedText.Adopt

/-!
# Offsets among pairs

The pass to the right moves both ends of a mark over the supplementary characters up to its start.
So it keeps marks in order, and a mark on characters of the basic plane comes to lie on their units
(`advance_moves`). A mark that takes a supplementary character does not: one at its start counts
though it lies behind that offset, and one further on does not count though it lies before the end
(`inUnits_ofTweet_iff`).
-/

namespace TweetText

open Utf16

namespace Utf16

/-- How many characters of a text, up to and with the one at an offset, are supplementary. -/
def supplementariesUpTo (s : List Char) (offset : Int) : Nat :=
  s.zipIdx.countP fun x => isSupplementary x.1 && decide ((x.2 : Int) ≤ offset)

theorem countP_zipIdx (offset : Int) (position : Nat) (s : List Char) :
    (s.zipIdx position).countP (fun x => isSupplementary x.1 && decide ((x.2 : Int) ≤ offset)) =
      supplementaries (s.take (offset + 1 - position).toNat) := by
  induction s generalizing position with
  | nil => simp
  | cons c s ih =>
      rw [List.zipIdx_cons, List.countP_cons, ih, Mark.supplementaries_take_cons]
      simp [and_comm]

theorem supplementariesUpTo_eq (s : List Char) (offset : Int) :
    supplementariesUpTo s offset = supplementaries (s.take (offset + 1).toNat) := by
  have h := countP_zipIdx offset 0 s
  rwa [Int.ofNat_zero, Int.sub_zero] at h

theorem supplementaries_take_le (s : List Char) {m n : Nat} (h : m ≤ n) :
    supplementaries (s.take m) ≤ supplementaries (s.take n) := by
  rw [← Nat.min_eq_left h, ← List.take_take]
  exact (List.take_sublist m (s.take n)).countP_le

end Utf16

/-! ## One mark -/

namespace Mark

/-- The second mark takes, counted in units, just the characters that the first one takes, counted
one by one: before either offset there is one more unit for every supplementary character. -/
structure InUnits (s : List Char) (a b : Mark) : Prop where
  start_eq : b.start.toInt = a.first + supplementaries (s.take a.first)
  stop_eq : b.stop.toInt = a.past + supplementaries (s.take a.past)

variable {s : List Char} {a b : Mark}

theorem movedBy_advance (s : List Char) (a : Mark) :
    MovedBy (supplementariesUpTo s a.start.toInt) a (advance (pairs s) a) := by
  rw [supplementariesUpTo_eq, advance_eq]
  exact movedBy_move _ a

theorem advance_le_advance (h : a.start ≤ b.start) :
    (advance (pairs s) a).start ≤ (advance (pairs s) b).start ∧
      (a.stop ≤ b.start → (advance (pairs s) a).stop ≤ (advance (pairs s) b).start) := by
  simp only [Int32.le_iff_toInt_le] at h ⊢
  have hcount : supplementariesUpTo s a.start.toInt ≤ supplementariesUpTo s b.start.toInt := by
    rw [supplementariesUpTo_eq, supplementariesUpTo_eq]
    exact supplementaries_take_le s (by omega)
  rw [(movedBy_advance s a).start_eq, (movedBy_advance s a).stop_eq, (movedBy_advance s b).start_eq]
  omega

/-- **When a mark comes to lie on the units of its characters.** The number of supplementary
characters up to the start is that before the start, and that before the end as well, just if the
mark takes none of them. -/
theorem inUnits_advance_iff (hlies : a.LiesIn s.length) (hne : a.start < a.stop) :
    a.InUnits s (advance (pairs s) a) ↔
      (∀ c ∈ s.extract a.first a.past, isSupplementary c = false) ∧
        length (s.take a.past) < 2 ^ 31 := by
  have hfirst := hlies.first_eq
  have hpast := hlies.past_eq
  have hlt := hlies.first_lt_past hne
  have hcount : supplementariesUpTo s a.start.toInt = supplementaries (s.take (a.first + 1)) := by
    rw [supplementariesUpTo_eq, ← hfirst]
    rfl
  have hbefore : supplementaries (s.take a.first) ≤ supplementaries (s.take (a.first + 1)) :=
    supplementaries_take_le s (Nat.le_succ a.first)
  have hwithin : supplementaries (s.take (a.first + 1)) ≤ supplementaries (s.take a.past) :=
    supplementaries_take_le s hlt
  have htaken : supplementaries (s.take a.past) =
      supplementaries (s.take a.first) + supplementaries (s.extract a.first a.past) := by
    rw [← supplementaries_append, List.extract_eq_take_drop, ← List.take_add,
      Nat.add_sub_cancel' (Nat.le_of_lt hlt)]
  have hlength : length (s.take a.past) = a.past + supplementaries (s.take a.past) := by
    rw [length_eq, List.length_take, Nat.min_eq_left hlies.past_le]
  obtain ⟨hstart, hstop, -⟩ := movedBy_advance s a
  rw [hcount, ← hfirst] at hstart
  rw [hcount, ← hpast] at hstop
  rw [← supplementaries_eq_zero, hlength]
  constructor
  · rintro ⟨hstart', hstop'⟩
    rw [hstart] at hstart'
    rw [hstop] at hstop'
    exact ⟨by omega, by omega⟩
  · rintro ⟨hnone, hbound⟩
    exact ⟨by rw [hstart]; omega, by rw [hstop]; omega⟩

theorem InUnits.extract_ofChars (h : a.InUnits s b) (hlies : a.LiesIn s.length) :
    (ofChars s).extract b.first b.past = ofChars (s.extract a.first a.past) := by
  have hle := hlies.first_le_past
  have hplace : ∀ n, n ≤ s.length →
      (ofChars (s.take n)).length = n + supplementaries (s.take n) := by
    intro n hn
    rw [length_ofChars, length_eq, List.length_take, Nat.min_eq_left hn]
  have hfirst : b.first = (ofChars (s.take a.first)).length := by
    rw [hplace _ (Nat.le_trans hle hlies.past_le), first, h.start_eq]
    omega
  have htake : ofChars (s.take a.past) =
      ofChars (s.take a.first) ++ ofChars (s.extract a.first a.past) := by
    rw [← ofChars_append, List.extract_eq_take_drop, ← List.take_add, Nat.add_sub_cancel' hle]
  have hpast : b.past - b.first = (ofChars (s.extract a.first a.past)).length := by
    have hlength := congrArg List.length htake
    rw [hplace _ hlies.past_le, List.length_append, ← hfirst] at hlength
    rw [past, h.stop_eq]
    omega
  have hsplit : ofChars s = ofChars (s.take a.first) ++
      (ofChars (s.extract a.first a.past) ++ ofChars (s.drop a.past)) := by
    rw [← List.append_assoc, ← htake, ← ofChars_append, List.take_append_drop]
  rw [List.extract_eq_take_drop, hpast, hsplit, hfirst, List.drop_left, List.take_left]

end Mark

/-! ## All marks -/

namespace MarkedText

open Reference

/-- **The pass to the right.** Every mark, whatever its range, is moved by the number of
supplementary characters up to its start, and the scan of the pairs stops at none too early. So
starts in order stay in order, a mark that ends before another one begins still does if it begins no
later than that one, and a mark on characters of the basic plane takes their units, as far as
offsets go. -/
theorem advance_moves (content : String) (t : MarkedText) :
    ∃ f : Mark → Mark, t.advance content = t.mapLists (List.map f) ∧
      (∀ a : Mark, a.MovedBy (supplementariesUpTo content.toList a.start.toInt) (f a)) ∧
      (∀ (offset : Int) (k p : Nat), (pairs content.toList)[k]? = some p →
        ((p : Int) - k ≤ offset ↔ k < supplementariesUpTo content.toList offset)) ∧
      (∀ a b : Mark, a.start ≤ b.start → (f a).start ≤ (f b).start ∧
        (a.stop ≤ b.start → (f a).stop ≤ (f b).start)) ∧
      (∀ a : Mark, a.LiesIn content.toList.length → a.start < a.stop →
        (∀ c ∈ content.toList.extract a.first a.past, isSupplementary c = false) →
        length (content.toList.take a.past) < 2 ^ 31 →
        a.InUnits content.toList (f a) ∧ (ofString content).extract (f a).first (f a).past =
          ofChars (content.toList.extract a.first a.past)) := by
  refine ⟨Mark.advance (pairs content.toList), rfl, Mark.movedBy_advance content.toList, ?_, ?_, ?_⟩
  · intro offset k p hp
    have hiff : (p : Int) - (0 + k : Nat) ≤ offset ↔
        k < supplementaries (content.toList.take (offset + 1 - (0 : Nat)).toNat) :=
      Mark.sub_le_iff_of_getElem?_pairsFrom hp
    rw [supplementariesUpTo_eq]
    simpa using hiff
  · intro a b h
    exact Mark.advance_le_advance h
  · intro a hlies hne hbasic hbound
    have hunits := (Mark.inUnits_advance_iff hlies hne).mpr ⟨hbasic, hbound⟩
    exact ⟨hunits, hunits.extract_ofChars hlies⟩

def linkBetween : Mark := ⟨1, 2, .link, "", "", none⟩

def linkBehind : Mark := ⟨4, 6, .link, "", "", none⟩

theorem advance_moves_linkBehind :
    ∃ f : Mark → Mark,
      advance "😀a😀 bc" { links := [linkBetween, linkBehind] } =
        { links := [f linkBetween, f linkBehind] } ∧
      (pairs "😀a😀 bc".toList)[1]? = some 3 ∧ 1 < supplementariesUpTo "😀a😀 bc".toList 4 ∧
      linkBetween.start ≤ linkBehind.start ∧ linkBetween.stop ≤ linkBehind.start ∧
      (f linkBetween).stop ≤ (f linkBehind).start ∧
      linkBehind.LiesIn "😀a😀 bc".toList.length ∧ linkBehind.start < linkBehind.stop ∧
      (∀ c ∈ "😀a😀 bc".toList.extract linkBehind.first linkBehind.past, isSupplementary c = false) ∧
      length ("😀a😀 bc".toList.take linkBehind.past) < 2 ^ 31 ∧
      linkBehind.InUnits "😀a😀 bc".toList (f linkBehind) ∧
      (ofString "😀a😀 bc").extract (f linkBehind).first (f linkBehind).past = ofString "bc" := by
  have hpair : (pairs "😀a😀 bc".toList)[1]? = some 3 := by decide
  have hstart : linkBetween.start ≤ linkBehind.start := by decide
  have hstop : linkBetween.stop ≤ linkBehind.start := by decide
  have hlies : linkBehind.LiesIn "😀a😀 bc".toList.length := by decide
  have hne : linkBehind.start < linkBehind.stop := by decide
  have hbasic : ∀ c ∈ "😀a😀 bc".toList.extract linkBehind.first linkBehind.past,
      isSupplementary c = false := supplementaries_eq_zero.mp (by decide)
  have hbound : length ("😀a😀 bc".toList.take linkBehind.past) < 2 ^ 31 := by decide
  obtain ⟨f, hmoved, -, hpairs, horder, hunits⟩ :=
    advance_moves "😀a😀 bc" { links := [linkBetween, linkBehind] }
  obtain ⟨hin, hextract⟩ := hunits linkBehind hlies hne hbasic hbound
  exact ⟨f, hmoved, hpair, (hpairs 4 1 3 hpair).mp (by decide), hstart, hstop,
    (horder _ _ hstart).2 hstop, hlies, hne, hbasic, hbound, hin, hextract⟩

def firstLink : Mark := ⟨0, 1, .link, "", "", none⟩

/-- A reversed link, from behind a text to its first character. -/
def reversedLink : Mark := ⟨5, 0, .link, "", "", none⟩

/-- A reversed mark ends before another one begins, begins behind it, and is moved past it. -/
theorem not_stop_le_start_advance :
    firstLink.start ≤ reversedLink.start ∧ reversedLink.stop ≤ firstLink.start ∧
      advance "a😀" { links := [firstLink, reversedLink] } =
        { links := [firstLink, ⟨6, 1, .link, "", "", none⟩] } ∧
      ¬ ∀ (content : String) (a b : Mark), a.stop ≤ b.start →
        (Mark.advance (pairs content.toList) a).stop ≤
          (Mark.advance (pairs content.toList) b).start := by
  refine ⟨by decide, by decide, by decide +kernel, ?_⟩
  intro h
  have hmoved := h "a😀" reversedLink firstLink (by decide)
  revert hmoved
  decide +kernel

/-! ## Tweets without references -/

theorem lists_ofTweet_of_forall_not {tweet : Tweet} {source : String}
    (hsource : tweet.shownText = some source)
    (hplain : ∀ first name value, ¬ StandsAt source.toList first name value) :
    (ofTweet tweet).lists =
      (attach {} tweet).lists.map (List.map (Mark.advance (pairs source.toList))) := by
  by_cases hne : source = ""
  · subst hne
    have hnone : Mark.advance (pairs "".toList) = id := funext Mark.move_zero
    rw [ofTweet, adopt_of_shownText_empty _ hsource, hnone, List.map_id_fun, List.map_id_fun]
    rfl
  · have hpieces := Piece.ofText_of_forall_not hplain
    have hescapes : Piece.escapes (Piece.ofText source.toList) = [] := by
      rw [hpieces, Piece.escapes, Mark.escapesFrom_map_plain]
    have hsaid : said source.toList = source.toList := by
      rw [said, hpieces, Piece.text, List.map_map]
      exact List.map_id _
    rw [ofTweet, adopt_of_shownText _ hsource hne, hescapes, hsaid, String.ofList_toList]
    simp [advance, mapLists, lists, Mark.retract_nil]

/-- **Entities that take supplementary characters.** In a Tweet without references an entity is
moved by the number of supplementary characters up to its start. It comes to lie on its characters
just if none of them is supplementary and its range fits the type of offsets. -/
theorem inUnits_ofTweet_iff {tweet : Tweet} {source : String}
    (hsource : tweet.shownText = some source)
    (hplain : ∀ first name value, ¬ StandsAt source.toList first name value) :
    List.Forall₂ (List.Forall₂ fun a b =>
        a.MovedBy (supplementariesUpTo source.toList a.start.toInt) b ∧
          (a.LiesIn source.toList.length → a.start < a.stop →
            (a.InUnits source.toList b ↔
              (∀ c ∈ source.toList.extract a.first a.past, isSupplementary c = false) ∧
                length (source.toList.take a.past) < 2 ^ 31)))
      (attach {} tweet).lists (ofTweet tweet).lists := by
  rw [lists_ofTweet_of_forall_not hsource hplain, List.forall₂_map_right_iff, List.forall₂_same]
  intro as _
  rw [List.forall₂_map_right_iff, List.forall₂_same]
  intro a _
  exact ⟨Mark.movedBy_advance _ a, fun hlies hne => Mark.inUnits_advance_iff hlies hne⟩

def tagBehindPair : Tweet :=
  { fullText := some "😀 #x", entities := some { hashtags := [⟨"x", 2, 4⟩] } }

theorem inUnits_tagBehindPair :
    tagBehindPair.shownText = some "😀 #x" ∧
      (∀ first name value, ¬ StandsAt "😀 #x".toList first name value) ∧
      (attach {} tagBehindPair).lists = [[], [], [.ofHashtag ⟨"x", 2, 4⟩], [], []] ∧
      List.Forall₂ (List.Forall₂ fun a b =>
          a.MovedBy (supplementariesUpTo "😀 #x".toList a.start.toInt) b ∧
            (a.LiesIn "😀 #x".toList.length → a.start < a.stop →
              (a.InUnits "😀 #x".toList b ↔
                (∀ c ∈ "😀 #x".toList.extract a.first a.past, isSupplementary c = false) ∧
                  length ("😀 #x".toList.take a.past) < 2 ^ 31)))
        (attach {} tagBehindPair).lists (ofTweet tagBehindPair).lists ∧
      (Mark.ofHashtag ⟨"x", 2, 4⟩).LiesIn "😀 #x".toList.length ∧
      (Mark.ofHashtag ⟨"x", 2, 4⟩).start < (Mark.ofHashtag ⟨"x", 2, 4⟩).stop ∧
      (∀ c ∈ "😀 #x".toList.extract 2 4, isSupplementary c = false) ∧
      ((ofTweet tagBehindPair).hashtags.map fun b => (b.start, b.stop)) = [(3, 5)] := by
  have hplain : ∀ first name value, ¬ StandsAt "😀 #x".toList first name value :=
    forall_standsAt_iff.mpr (by decide)
  exact ⟨rfl, hplain, rfl, inUnits_ofTweet_iff rfl hplain, by decide, by decide,
    supplementaries_eq_zero.mp (by decide), by decide +kernel⟩

def tagOfPair : Tweet :=
  { fullText := some "#𠀀", entities := some { hashtags := [⟨"𠀀", 0, 2⟩] } }

/-- The range of the hashtag ends between the two units of its letter. -/
theorem not_inUnits_tagOfPair :
    tagOfPair.shownText = some "#𠀀" ∧
      (∀ first name value, ¬ StandsAt "#𠀀".toList first name value) ∧
      (∀ as ∈ (attach {} tagOfPair).lists, ∀ a ∈ as,
        a.LiesIn "#𠀀".toList.length ∧ a.start < a.stop) ∧
      ((ofTweet tagOfPair).hashtags.map fun b => (b.start, b.stop)) = [(0, 2)] ∧
      length "#𠀀".toList = 3 ∧
      ¬ List.Forall₂ (List.Forall₂ (Mark.InUnits "#𠀀".toList))
        (attach {} tagOfPair).lists (ofTweet tagOfPair).lists := by
  have hplain : ∀ first name value, ¬ StandsAt "#𠀀".toList first name value :=
    forall_standsAt_iff.mpr (by decide)
  refine ⟨rfl, hplain, by decide +kernel, by decide +kernel, by decide, ?_⟩
  intro hunits
  have hlists : (attach {} tagOfPair).lists = [[], [], [.ofHashtag ⟨"𠀀", 0, 2⟩], [], []] := rfl
  rw [lists_ofTweet_of_forall_not rfl hplain, hlists] at hunits
  simp only [List.map_cons, List.forall₂_cons] at hunits
  obtain ⟨-, -, ⟨htag, -⟩, -⟩ := hunits
  have hstop := htag.stop_eq
  revert hstop
  decide +kernel

end MarkedText

/-! ## Offsets among references to pairs

A text may hold no supplementary character and still say some, by references to them. What such a
reference loses is told in units, so the pass to the left already leaves a mark at the unit where
its characters begin; the pass to the right then counts the same pairs again, and with them any pair
after the mark that comes early enough (`recounted`). So a mark keeps its characters as long as no
reference before it stands for a supplementary character (`overshoots_ofTweet`). -/

open Utf16 Reference

/-! ### References to pairs -/

namespace Reference

theorem StandsAt.mem_said {s name : List Char} {first : Nat} {value : Char}
    (h : StandsAt s first name value) : value ∈ said s := by
  obtain ⟨hname, before, after, rfl, rfl⟩ := h
  rw [said, Piece.ofText_of_standsAt hname]
  simp [Piece.value]

theorem supplementaries_said_eq_zero_iff {s : List Char}
    (hbasic : ∀ c ∈ s, isSupplementary c = false) :
    supplementaries (said s) = 0 ↔ SaysBasic s := by
  constructor
  · intro h first name value hstands
    exact supplementaries_eq_zero.mp h value hstands.mem_said
  · intro h
    rw [h.supplementaries_said, supplementaries_eq_zero.mpr hbasic]

end Reference

/-! ### One mark -/

namespace Mark

/-- How many pairs the pass to the right counts for a mark on what the text says that already has
its place in units. -/
def recounted (s : List Char) (a : Mark) : Nat :=
  supplementariesUpTo (said s) (length (said (s.take a.first)))

/-- The second mark lies, on what the text says, by a distance to the right of the units of the
characters that the first one takes on the text, each offset held at the bound of its type. -/
structure Overshoots (s : List Char) (distance : Nat) (a b : Mark) : Prop where
  start_eq : b.start.toInt = min (2 ^ 31 - 1) (length (said (s.take a.first)) + distance : Int)
  stop_eq : b.stop.toInt = min (2 ^ 31 - 1) (length (said (s.take a.past)) + distance : Int)

variable {s : List Char} {a b : Mark}

theorem TakesPlain.of_basic (hbasic : ∀ c ∈ s, isSupplementary c = false)
    (hlies : a.LiesIn s.length) (hne : a.start < a.stop) (havoids : Avoids s a.first a.past) :
    a.TakesPlain s := by
  refine ⟨hlies, hne, fun c hc => hbasic c ?_, havoids⟩
  rw [List.extract_eq_take_drop] at hc
  exact List.mem_of_mem_drop (List.mem_of_mem_take hc)

namespace TakesPlain

/-- What is removed before the mark, in units, takes it from its characters to their units. -/
theorem removed_add_length_said (h : a.TakesPlain s)
    (hbasic : ∀ c ∈ s, isSupplementary c = false) :
    removedBefore (Piece.escapes (Piece.ofText s)) a.past + length (said (s.take a.first)) =
      a.first := by
  have hfirst : a.first ≤ s.length := Nat.le_trans h.liesIn.first_le_past h.liesIn.past_le
  have hunits := Piece.removedUnits_escapesFrom 0 (Piece.sound_ofText (s.take a.first))
  rw [Piece.written_ofText, length_take_of_basic hbasic, Nat.min_eq_left hfirst] at hunits
  rw [h.removedBefore_escapes,
    h.removedBefore_eq_removedUnits_iff.mpr (h.clearsEscapes_of_basic hbasic)]
  exact hunits

theorem exists_recounted_eq (h : a.TakesPlain s) :
    ∃ (c : Char) (rest : List Char), said s = said (s.take a.first) ++ c :: rest ∧
      recounted s a = supplementaries (said (s.take a.first)) +
        supplementaries (rest.take (supplementaries (said (s.take a.first)))) := by
  obtain ⟨c, rest, hc, hsaid⟩ := h.exists_said_eq
  refine ⟨c, rest, hsaid, ?_⟩
  have hcount : ((length (said (s.take a.first)) : Int) + 1).toNat =
      (said (s.take a.first)).length + (supplementaries (said (s.take a.first)) + 1) := by
    rw [length_eq]
    omega
  rw [recounted, supplementariesUpTo_eq, hcount, hsaid, List.take_length_add_append,
    supplementaries_append, List.take_succ_cons, supplementaries_cons, hc]
  rfl

theorem recounted_eq_zero_iff (h : a.TakesPlain s)
    (hbasic : ∀ c ∈ s, isSupplementary c = false) :
    recounted s a = 0 ↔ SaysBasic (s.take a.first) := by
  obtain ⟨c, rest, -, hcount⟩ := h.exists_recounted_eq
  rw [hcount, ← supplementaries_said_eq_zero_iff fun c hc => hbasic c (List.mem_of_mem_take hc)]
  constructor
  · intro hzero
    omega
  · intro hzero
    simp [hzero]

theorem overshoots_settle (h : a.TakesPlain s) (hbasic : ∀ c ∈ s, isSupplementary c = false) :
    a.Overshoots s (recounted s a) (a.settle s) := by
  have hremoved := h.removed_add_length_said hbasic
  have hpast := h.length_said_take_past
  have hlt := h.first_lt_past
  have hpairs : supplementaries ((said s).take
      (a.first - removedBefore (Piece.escapes (Piece.ofText s)) a.past + 1)) = recounted s a := by
    rw [recounted, supplementariesUpTo_eq]
    congr 2
    omega
  obtain ⟨hstart, hstop⟩ := h.toInt_settle rfl (by omega) hpairs
  exact ⟨by rw [hstart]; omega, by rw [hstop]; omega⟩

end TakesPlain

/-- A mark that lies too far to the right, by however little, does not keep its characters. -/
theorem Overshoots.follows_iff {distance : Nat} (h : a.Overshoots s distance b)
    (htakes : a.TakesPlain s) (hbasic : ∀ c ∈ s, isSupplementary c = false) :
    a.Follows s b ↔ distance = 0 := by
  have hstart := h.start_eq
  have hstop := h.stop_eq
  have hremoved := htakes.removed_add_length_said hbasic
  have hlength := htakes.length_said_take_past
  have hlt := htakes.first_lt_past
  have hpast := htakes.liesIn.past_eq
  have hbound := a.stop.toInt_lt
  constructor
  · intro hfollows
    have := hfollows.start_eq
    omega
  · intro hzero
    exact ⟨by omega, by omega⟩

end Mark

/-! ### All marks -/

namespace MarkedText

/-- **When references to pairs keep entities in place.** On a text without supplementary characters,
in each list that is in order, a mark on characters outside of the references comes to lie to the
right of them by the pairs that are counted again. So it keeps its characters just if no reference
before it stands for a supplementary character. -/
theorem overshoots_ofTweet {tweet : Tweet} {source : String}
    (hsource : tweet.shownText = some source)
    (hbasic : ∀ c ∈ source.toList, isSupplementary c = false) :
    List.Forall₂ (fun before after => before.Pairwise (fun a b => a.start ≤ b.start) →
        List.Forall₂ (fun a b => a.LiesIn source.toList.length → a.start < a.stop →
          Avoids source.toList a.first a.past →
          a.Overshoots source.toList (a.recounted source.toList) b ∧
            (a.Follows source.toList b ↔ SaysBasic (source.toList.take a.first))) before after)
      (attach {} tweet).lists (ofTweet tweet).lists := by
  by_cases hne : source = ""
  · subst hne
    rw [ofTweet, adopt_of_shownText_empty _ hsource, List.forall₂_same]
    intro before _ _
    rw [List.forall₂_same]
    intro a _ hlies hrange
    have hlt := hlies.first_lt_past hrange
    have hle := hlies.past_le
    simp at hle
    omega
  · refine (forall₂_lists_ofTweet hsource hne).imp ?_
    intro before after hsettle hsorted
    rw [hsettle hsorted, List.forall₂_map_right_iff, List.forall₂_same]
    intro a _ hlies hrange havoids
    have htakes := Mark.TakesPlain.of_basic hbasic hlies hrange havoids
    have hovershoots := htakes.overshoots_settle hbasic
    exact ⟨hovershoots, (hovershoots.follows_iff htakes hbasic).trans
      (htakes.recounted_eq_zero_iff hbasic)⟩

def tagBeforeDecodedPair : Tweet :=
  { fullText := some "&#60; #x &#128512;", entities := some { hashtags := [⟨"x", 6, 8⟩] } }

theorem ofText_tagBeforeDecodedPair : Piece.ofText "&#60; #x &#128512;".toList =
    [.reference ['#', '6', '0'] '<', .plain ' ', .plain '#', .plain 'x', .plain ' ',
      .reference ['#', '1', '2', '8', '5', '1', '2'] '😀'] := by decide +kernel

theorem overshoots_tagBeforeDecodedPair :
    tagBeforeDecodedPair.shownText = some "&#60; #x &#128512;" ∧
      (∀ c ∈ "&#60; #x &#128512;".toList, isSupplementary c = false) ∧
      List.Forall₂ (fun before after => before.Pairwise (fun a b => a.start ≤ b.start) →
          List.Forall₂ (fun a b => a.LiesIn "&#60; #x &#128512;".toList.length → a.start < a.stop →
            Avoids "&#60; #x &#128512;".toList a.first a.past →
            a.Overshoots "&#60; #x &#128512;".toList (a.recounted "&#60; #x &#128512;".toList) b ∧
              (a.Follows "&#60; #x &#128512;".toList b ↔
                SaysBasic ("&#60; #x &#128512;".toList.take a.first))) before after)
        (attach {} tagBeforeDecodedPair).lists (ofTweet tagBeforeDecodedPair).lists ∧
      (attach {} tagBeforeDecodedPair).lists = [[], [], [.ofHashtag ⟨"x", 6, 8⟩], [], []] ∧
      (Mark.ofHashtag ⟨"x", 6, 8⟩).LiesIn "&#60; #x &#128512;".toList.length ∧
      (Mark.ofHashtag ⟨"x", 6, 8⟩).start < (Mark.ofHashtag ⟨"x", 6, 8⟩).stop ∧
      Avoids "&#60; #x &#128512;".toList 6 8 ∧
      SaysBasic ("&#60; #x &#128512;".toList.take 6) ∧
      ¬ SaysBasic "&#60; #x &#128512;".toList ∧
      ((ofTweet tagBeforeDecodedPair).hashtags.map fun b => (b.start, b.stop)) = [(2, 4)] := by
  have hbasic : ∀ c ∈ "&#60; #x &#128512;".toList, isSupplementary c = false :=
    supplementaries_eq_zero.mp (by decide)
  refine ⟨rfl, hbasic, overshoots_ofTweet rfl hbasic, rfl, by decide, by decide, ?_, ?_, ?_,
    by decide +kernel⟩
  · exact forall_standsAt_iff.mpr (by rw [ofText_tagBeforeDecodedPair]; decide)
  · exact forall_standsAt_iff.mpr (by decide +kernel)
  · intro hsays
    have := forall_standsAt_iff.mp hsays
    rw [ofText_tagBeforeDecodedPair] at this
    revert this
    decide

def tagBehindDecodedPair : Tweet :=
  { fullText := some "&#128512; #x", entities := some { hashtags := [⟨"x", 10, 12⟩] } }

theorem ofText_tagBehindDecodedPair : Piece.ofText "&#128512; #x".toList =
    [.reference ['#', '1', '2', '8', '5', '1', '2'] '😀', .plain ' ', .plain '#', .plain 'x'] := by
  decide +kernel

/-- The hashtag ends over the end of what the text says. -/
theorem not_follows_tagBehindDecodedPair :
    tagBehindDecodedPair.shownText = some "&#128512; #x" ∧
      (∀ c ∈ "&#128512; #x".toList, isSupplementary c = false) ∧
      (∀ before ∈ (attach {} tagBehindDecodedPair).lists,
        before.Pairwise (fun a b => a.start ≤ b.start) ∧
          ∀ a ∈ before, a.LiesIn "&#128512; #x".toList.length ∧ a.start < a.stop ∧
            Avoids "&#128512; #x".toList a.first a.past) ∧
      ((ofTweet tagBehindDecodedPair).hashtags.map fun b => (b.start, b.stop)) = [(4, 6)] ∧
      length (said "&#128512; #x".toList) = 5 ∧
      ¬ List.Forall₂ (List.Forall₂ (Mark.Follows "&#128512; #x".toList))
        (attach {} tagBehindDecodedPair).lists (ofTweet tagBehindDecodedPair).lists := by
  have hlists : (attach {} tagBehindDecodedPair).lists =
      [[], [], [.ofHashtag ⟨"x", 10, 12⟩], [], []] := rfl
  have havoids : Avoids "&#128512; #x".toList 10 12 :=
    forall_standsAt_iff.mpr (by rw [ofText_tagBehindDecodedPair]; decide)
  have hsaid : said "&#128512; #x".toList = "😀 #x".toList := by
    rw [said, ofText_tagBehindDecodedPair]
    decide
  have hmoved : (ofTweet tagBehindDecodedPair).lists =
      [[], [], [⟨4, 6, .hashtag, "#x", Address.hashtag "x", some (Address.hashtag "x")⟩], [], []] := by
    decide +kernel
  refine ⟨rfl, supplementaries_eq_zero.mp (by decide), ?_, by decide +kernel, ?_, ?_⟩
  · rw [hlists]
    simpa using ⟨by decide, by decide, havoids⟩
  · rw [hsaid]
    decide
  · intro hfollows
    have htake : "&#128512; #x".toList.take 12 = "&#128512; #x".toList := by decide
    rw [hlists, hmoved] at hfollows
    simp only [List.forall₂_cons] at hfollows
    obtain ⟨-, -, ⟨htag, -⟩, -⟩ := hfollows
    have hstop := htag.stop_eq
    rw [show (Mark.ofHashtag ⟨"x", 10, 12⟩).past = 12 from rfl, htake, hsaid] at hstop
    revert hstop
    decide

end MarkedText
end TweetText
