import TweetText.Proofs.MarkedText.Adopt
import TweetText.Proofs.Render.Spans

/-!
# Marks that do not lie in the text

Such a mark is skipped, whatever was put before it. But it counts as the last mark when no other one
begins after it, and then no link at the end of the text is left out. So adding such marks changes
what is rendered just if it changes whether the last mark that lies in the text is left out, and if
that can be seen (`render?_added_iff`).
-/

namespace TweetText

/-! ## Lists with marks added -/

namespace Mark

/-- The second list is the first one with marks added, at any places, that do not lie in a text of
that length. -/
inductive Added (length : Nat) : List Mark → List Mark → Prop
  | nil : Added length [] []
  | keep {as bs : List Mark} (a : Mark) (h : Added length as bs) :
      Added length (a :: as) (a :: bs)
  | add {as bs : List Mark} {b : Mark} (hlies : ¬ b.LiesIn length) (h : Added length as bs) :
      Added length as (b :: bs)

theorem Added.filter_eq {length : Nat} {as bs : List Mark} (h : Added length as bs) :
    bs.filter (·.LiesIn length) = as.filter (·.LiesIn length) := by
  induction h with
  | nil => rfl
  | keep a h ih => rw [List.filter_cons, List.filter_cons, ih]
  | add hlies h ih => rw [List.filter_cons_of_neg (by simpa using hlies), ih]

/-- No unit lies under both marks. -/
def Separate (a b : Mark) : Prop :=
  ∀ u : Int, a.start.toInt ≤ u → u < a.stop.toInt → b.start.toInt ≤ u → ¬ u < b.stop.toInt

theorem separate_iff {a b : Mark} : a.Separate b ↔
    a.stop ≤ a.start ∨ b.stop ≤ b.start ∨ a.stop ≤ b.start ∨ b.stop ≤ a.start := by
  simp only [Int32.le_iff_toInt_le]
  constructor
  · intro h
    have hcommon := h (max a.start.toInt b.start.toInt)
    omega
  · intro h u
    omega

instance (a b : Mark) : Decidable (a.Separate b) := decidable_of_iff _ separate_iff.symm

/-- Of marks under which no common unit lies, the one that begins first ends before the other, or
there is nothing under the other. -/
theorem Separate.stop_le_start {a b : Mark} (h : a.Separate b) (hlt : a.start < b.start)
    (hle : b.start.toInt ≤ b.stop.toInt) : a.stop ≤ b.start ∨ b.start = b.stop := by
  have hcases := separate_iff.mp h
  simp only [Int32.le_iff_toInt_le, ← Int32.toInt_inj] at hcases ⊢
  rw [Int32.lt_iff_toInt_lt] at hlt
  omega

end Mark

/-! ## Spans stay in the draft -/

namespace Span

def AllEndBy (position : Nat) (spans : List Span) : Prop :=
  ∀ s ∈ spans, s.start < s.stop ∧ s.stop ≤ position

theorem AllEndBy.mono {position position' : Nat} {spans : List Span}
    (h : AllEndBy position spans) (hle : position ≤ position') : AllEndBy position' spans :=
  fun s hs => ⟨(h s hs).1, Nat.le_trans (h s hs).2 hle⟩

theorem allEndBy_span? {style : LinkStyle} {out : Mark → Bool} {a : Mark} {start position : Nat}
    (own : List UInt16) (hle : start + (a.put out own).length ≤ position) :
    AllEndBy position (a.span? style out start).toList := by
  intro s hs
  obtain ⟨hout, hdisplay, rfl⟩ := Mark.mem_span?_toList_iff.mp hs
  have hpos := List.length_pos_iff.mpr fun h => hdisplay (Utf16.ofString_eq_nil.mp h)
  rw [Mark.put_of_display_ne hout hdisplay] at hle
  exact ⟨Nat.lt_add_of_pos_right hpos, hle⟩

end Span

namespace Draft

variable {style : LinkStyle} {elided elided' : Option Mark} {base written : List UInt16}
  {cursor : Nat} {d : Draft} {a : Mark}

namespace Reaches

theorem apply_allEndBy (style : LinkStyle) (elided : Option Mark)
    (h : d.Reaches base written cursor) (hspans : Span.AllEndBy written.length d.spans)
    (hlies : a.LiesIn base.length) (hplace : cursor ≤ a.first ∨ a.start = a.stop) :
    ∃ written', (d.apply style elided a).Reaches base written' (max cursor a.past) ∧
      Span.AllEndBy written'.length (d.apply style elided a).spans := by
  by_cases hle : cursor ≤ a.first
  · obtain ⟨hreach, hleft⟩ := h.apply_of_le style elided hlies hle
    rw [Nat.max_eq_right (Nat.le_trans hle hlies.first_le_past)]
    refine ⟨_, hreach, ?_⟩
    rw [hleft, Span.AllEndBy, List.forall_mem_append]
    constructor
    · apply hspans.mono
      rw [List.append_assoc, List.length_append]
      exact Nat.le_add_right _ _
    · apply Span.allEndBy_span? (base.extract a.first a.past)
      simp only [List.length_append]
      omega
  · have hfirst := hlies.first_eq
    have hpast := hlies.past_eq
    have hempty : a.past = a.first := by
      have := Int32.toInt_inj.mpr (hplace.resolve_left hle)
      omega
    rw [Nat.max_eq_left (by omega)]
    cases hput : d.place? a with
    | none =>
        rw [apply_of_place?_eq_none hput]
        exact ⟨written, h, hspans⟩
    | some place =>
        obtain ⟨start, stop⟩ := place
        obtain ⟨hstart, hstop, -, -⟩ := place?_eq_some_iff.mp hput
        rw [h.drift_eq] at hstart hstop
        obtain rfl : stop = start := by omega
        have hin : stop ≤ written.length := by omega
        rw [apply_eq hput, h.units_eq, List.take_append_of_le_length hin,
          List.drop_append_of_le_length hin]
        refine ⟨_, ⟨(List.append_assoc _ _ _).symm, ?_, h.cursor_le⟩, ?_⟩
        · simp only [h.drift_eq, List.length_append, List.length_take, List.length_drop]
          omega
        · rw [Span.AllEndBy, List.forall_mem_append]
          constructor
          · apply hspans.mono
            simp only [List.length_append, List.length_take, List.length_drop]
            omega
          · apply Span.allEndBy_span? ((written ++ base.drop cursor).extract stop stop)
            simp only [List.length_append, List.length_take]
            omega

theorem applyAll_allEndBy {as : List Mark} (h : d.Reaches base written cursor)
    (hspans : Span.AllEndBy written.length d.spans) (hlies : ∀ a ∈ as, a.LiesIn base.length)
    (hplace : ∀ a ∈ as, cursor ≤ a.first ∨ a.start = a.stop)
    (hapart : as.Pairwise fun a b => a.stop ≤ b.start ∨ b.start = b.stop) :
    Span.AllEndBy (d.applyAll style elided as).units.length
      (d.applyAll style elided as).spans := by
  induction as generalizing d written cursor with
  | nil =>
      apply hspans.mono
      show written.length ≤ d.units.length
      rw [h.units_eq, List.length_append]
      exact Nat.le_add_right _ _
  | cons a as ih =>
      obtain ⟨hliesa, hlies⟩ := List.forall_mem_cons.mp hlies
      obtain ⟨hplacea, hplace⟩ := List.forall_mem_cons.mp hplace
      obtain ⟨hbehind, hapart⟩ := List.pairwise_cons.mp hapart
      obtain ⟨written', hreach, hspans'⟩ := h.apply_allEndBy style elided hspans hliesa hplacea
      refine ih hreach hspans' hlies ?_ hapart
      intro b hb
      rcases hplace b hb with hle | hempty
      · refine (hbehind b hb).imp_left fun hstop => Nat.max_le.mpr ⟨hle, ?_⟩
        rw [Int32.le_iff_toInt_le, ← hliesa.past_eq, ← (hlies b hb).first_eq] at hstop
        exact Int.ofNat_le.mp hstop
      · exact Or.inr hempty

end Reaches

/-! ## What can be seen of the last mark -/

/-- The draft with its end trimmed. -/
def trimmed (d : Draft) : RenderedText := (RenderedText.mk d.units d.spans).trimRight

theorem trimmed_eq (h : Span.AllEndBy d.units.length d.spans) : d.trimmed =
    ⟨Utf16.trimRight d.units,
      d.spans.filterMap (Span.cut? (Utf16.trimRight d.units).length)⟩ :=
  RenderedText.trimRight_eq h

/-- Leaving the mark out changes nothing that is seen once the end is trimmed: it does not lie in
the draft, nothing would be put for it, or only controls and spaces are put for it and follow it. -/
def Unseen (d : Draft) (a : Mark) : Prop :=
  ∀ start stop, d.place? a = some (start, stop) →
    a.put (fun _ => false) (d.units.extract start stop) = [] ∨
      ∀ u ∈ a.put (fun _ => false) (d.units.extract start stop) ++ d.units.drop stop, u ≤ 0x20

theorem trimmed_apply_eq_iff (hput : ¬ a.leftOut elided) (hout : a.leftOut elided')
    (hspans : Span.AllEndBy (d.apply style elided a).units.length (d.apply style elided a).spans)
    (hspans' : Span.AllEndBy (d.apply style elided' a).units.length
      (d.apply style elided' a).spans) :
    (d.apply style elided a).trimmed = (d.apply style elided' a).trimmed ↔ d.Unseen a := by
  cases hplace : d.place? a with
  | none =>
      rw [apply_of_place?_eq_none hplace, apply_of_place?_eq_none hplace]
      refine iff_of_true rfl ?_
      intro start stop h
      rw [hplace] at h
      cases h
  | some place =>
      obtain ⟨start, stop⟩ := place
      obtain ⟨-, -, hle, hlen⟩ := place?_eq_some_iff.mp hplace
      let own := a.put (Mark.leftOut elided) (d.units.extract start stop)
      have hunseen : d.Unseen a ↔
          own = [] ∨ ∀ u ∈ own ++ d.units.drop stop, decide (u ≤ 0x20) := by
        simp [own, Unseen, hplace, Mark.put, Mark.putAs, hput]
      have hunits := dropLastWhile_put_eq_iff (p := fun u : UInt16 => decide (u ≤ 0x20))
        (d.units.take start) own (d.units.drop stop)
      rw [trimmed_eq hspans, trimmed_eq hspans', apply_eq hplace, apply_eq hplace,
        Mark.put_of_out hout, Mark.span?_of_out hout, hunseen, Option.toList_none, List.append_nil,
        List.append_nil]
      constructor
      · intro heq
        exact hunits.mp (congrArg RenderedText.units heq)
      · intro hunseen
        have htext : Utf16.trimRight (d.units.take start ++ own ++ d.units.drop stop) =
            Utf16.trimRight (d.units.take start ++ d.units.drop stop) := hunits.mpr hunseen
        have hgone : (a.span? style (Mark.leftOut elided) start).toList.filterMap
            (Span.cut? (Utf16.trimRight (d.units.take start ++ d.units.drop stop)).length) = [] := by
          apply Span.filterMap_cut?_of_le
          intro s hs
          obtain ⟨-, hdisplay, rfl⟩ := Mark.mem_span?_toList_iff.mp hs
          have hown : own ≠ [] := by
            intro h
            exact hdisplay (Utf16.ofString_eq_nil.mp
              ((Mark.put_of_display_ne hput hdisplay).symm.trans h))
          have hblank := (List.forall_mem_append.mp (hunseen.resolve_left hown)).2
          have htake : (d.units.take start).length = start := by
            rw [List.length_take]
            omega
          apply length_dropLastWhile_le_iff.mpr
          rw [List.drop_left' htake]
          exact hblank
        rw [htext, List.filterMap_append, hgone, List.append_nil]

end Draft

/-! ## The result -/

theorem Mark.leftOut_find?_of_lt {text : String} {as : List Mark} {elision : Elision} {a b : Mark}
    (hsorted : as.Pairwise fun a b => a.start ≤ b.start) (hb : b ∈ as) (hlt : a.start < b.start) :
    a.leftOut (TrailingLink.find? text as elision) = false := by
  cases hfind : TrailingLink.find? text as elision with
  | none => rfl
  | some last =>
      have hlast := (Option.filter_eq_some_iff.mp hfind).1
      obtain ⟨first, hfirst⟩ := List.getLast?_eq_some_iff.mp hlast
      have hle : b.start ≤ last.start := by
        rw [hfirst, List.mem_append, List.mem_singleton] at hb
        rcases hb with hb | rfl
        · rw [hfirst] at hsorted
          exact (List.pairwise_append.mp hsorted).2.2 b hb last List.mem_cons_self
        · exact Int32.le_iff_toInt_le.mpr (Int.le_refl _)
      have hne : last.start ≠ a.start := by
        rintro h
        rw [h, Int32.le_iff_toInt_le] at hle
        rw [Int32.lt_iff_toInt_lt] at hlt
        omega
      simp [Mark.leftOut, hne]

namespace MarkedText

variable {t t' : MarkedText} {text : String} {style : LinkStyle} {elision : Elision}

theorem pairwise_placed (t : MarkedText) (text : String) :
    (t.placed text).Pairwise fun a b => a.start ≤ b.start :=
  (Mark.pairwise_sortByStart _).sublist List.filter_sublist

theorem pairwise_placed_lt (hstarts : (t.placed text).Pairwise fun a b => a.start ≠ b.start) :
    (t.placed text).Pairwise fun a b => a.start < b.start := by
  refine ((pairwise_placed t text).and hstarts).imp ?_
  rintro a b ⟨hle, hne⟩
  rw [Int32.le_iff_toInt_le] at hle
  rw [Ne, ← Int32.toInt_inj] at hne
  rw [Int32.lt_iff_toInt_lt]
  omega

/-- The marks that lie in the text stay the same. -/
theorem placed_of_added
    (hadded : List.Forall₂ (Mark.Added (Utf16.ofString text).length) t.lists t'.lists) :
    t'.placed text = t.placed text := by
  have hmarks : t'.marks.filter (·.LiesIn (Utf16.ofString text).length) =
      t.marks.filter (·.LiesIn (Utf16.ofString text).length) := by
    rw [marks, marks, List.filter_flatten, List.filter_flatten]
    congr 1
    rw [eq_comm, ← List.forall₂_eq_eq_eq, List.forall₂_map_left_iff, List.forall₂_map_right_iff]
    exact hadded.imp fun as bs h => h.filter_eq.symm
  apply Mark.eq_of_filter_start (pairwise_placed t' text) (pairwise_placed t text)
  intro start
  rw [placed, placed, inOrder_eq, inOrder_eq, List.filter_comm, Mark.filter_start_sortByStart,
    List.filter_comm, hmarks, List.filter_comm, ← Mark.filter_start_sortByStart, List.filter_comm]

/-- No mark is left out before the last one that lies in the text. -/
theorem draft_eq_apply_last (hstarts : (t.placed text).Pairwise fun a b => a.start ≠ b.start)
    {last : Mark} (hlast : (t.placed text).getLast? = some last) (style : LinkStyle)
    (elision : Elision) : t.draft text style elision =
      (Draft.applyAll style none ⟨Utf16.ofString text, 0, []⟩ (t.placed text).dropLast).apply style
        (TrailingLink.find? text t.inOrder elision) last := by
  obtain ⟨init, hinit⟩ := List.getLast?_eq_some_iff.mp hlast
  have hmem : last ∈ t.inOrder := (List.mem_filter.mp (List.mem_of_getLast? hlast)).1
  have hbefore : ∀ a ∈ init,
      a.leftOut (TrailingLink.find? text t.inOrder elision) = a.leftOut none := by
    intro a ha
    have hlt := pairwise_placed_lt hstarts
    rw [hinit, List.pairwise_append] at hlt
    exact Mark.leftOut_find?_of_lt (Mark.pairwise_sortByStart _) hmem
      (hlt.2.2 a ha last List.mem_cons_self)
  rw [draft_eq_applyAll_placed, hinit, List.dropLast_concat, ← Draft.applyAll_congr hbefore]
  exact List.foldl_concat _ _ _ _

theorem allEndBy_spans_draft
    (hplaced : (t.placed text).Pairwise fun a b => a.Separate b ∧ a.start ≠ b.start)
    (style : LinkStyle) (elision : Elision) :
    Span.AllEndBy (t.draft text style elision).units.length
      (t.draft text style elision).spans := by
  rw [draft_eq_applyAll_placed]
  apply (Draft.reaches_start (Utf16.ofString text) []).applyAll_allEndBy
  · intro s hs
    cases hs
  · exact fun a => liesIn_of_mem_placed
  · exact fun a _ => Or.inl (Nat.zero_le _)
  · refine ((pairwise_placed_lt (hplaced.imp fun h => h.2)).and hplaced).imp_of_mem ?_
    rintro a b - hb ⟨hlt, hseparate, -⟩
    exact hseparate.stop_le_start hlt (liesIn_of_mem_placed hb).start_le_stop

/-- **Marks that do not lie in the text.** Under marks that have no unit in common and begin at
different places, adding some that do not lie in the text changes nothing just if the last one that
does is left out with them if it is without them, or leaving it out cannot be seen. -/
theorem render?_added_iff (htext : t.text = some text) (htext' : t'.text = t.text) (hne : text ≠ "")
    (hplaced : (t.placed text).Pairwise fun a b => a.Separate b ∧ a.start ≠ b.start)
    (hadded : List.Forall₂ (Mark.Added (Utf16.ofString text).length) t.lists t'.lists)
    (style : LinkStyle) (elision : Elision) :
    t'.render? style elision = t.render? style elision ↔
      ∀ a, (t.placed text).getLast? = some a →
        a.leftOut (TrailingLink.find? text t'.inOrder elision) =
            a.leftOut (TrailingLink.find? text t.inOrder elision) ∨
          (Draft.applyAll style none ⟨Utf16.ofString text, 0, []⟩ (t.placed text).dropLast).Unseen
            a := by
  have hstarts := hplaced.imp fun h => h.2
  have hsame := placed_of_added hadded
  have hrender : t.render? style elision = some (t.draft text style elision).trimmed := by
    simp [render?, htext, hne, Draft.trimmed]
  have hrender' : t'.render? style elision = some (t'.draft text style elision).trimmed := by
    simp [render?, htext', htext, hne, Draft.trimmed]
  rw [hrender, hrender', Option.some_inj]
  cases hlast : (t.placed text).getLast? with
  | none =>
      have hnil := List.getLast?_eq_none_iff.mp hlast
      rw [draft_eq_applyAll_placed, draft_eq_applyAll_placed, hsame, hnil]
      refine iff_of_true rfl ?_
      intro a h
      cases h
  | some last =>
      have hspans := allEndBy_spans_draft hplaced style elision
      have hspans' := allEndBy_spans_draft (hsame ▸ hplaced) style elision
      have hdraft := draft_eq_apply_last hstarts hlast style elision
      have hdraft' := draft_eq_apply_last (hsame ▸ hstarts) (hsame ▸ hlast) style elision
      rw [hsame] at hdraft'
      rw [hdraft] at hspans ⊢
      rw [hdraft'] at hspans' ⊢
      simp only [Option.some.injEq, forall_eq']
      by_cases hout : last.leftOut (TrailingLink.find? text t'.inOrder elision) =
          last.leftOut (TrailingLink.find? text t.inOrder elision)
      · rw [Draft.apply_congr hout]
        exact iff_of_true rfl (Or.inl hout)
      · rw [or_iff_right hout]
        cases hleft : last.leftOut (TrailingLink.find? text t.inOrder elision) with
        | true =>
            rw [hleft, Bool.not_eq_true] at hout
            exact Draft.trimmed_apply_eq_iff (by simp [hout]) hleft hspans' hspans
        | false =>
            rw [hleft, Bool.not_eq_false] at hout
            rw [eq_comm]
            exact Draft.trimmed_apply_eq_iff (by simp [hleft]) hout hspans hspans'

def linkAndPhoto : MarkedText where
  text := some "go t.co/1 t.co/2"
  links := [⟨3, 9, .link, "one", "t.co/1", none⟩]
  media := [⟨10, 16, .media "photo", "pic", "t.co/2", none⟩]

/-- A link and a photo among links that begin before the text, end before they begin, and end after
the text. -/
def strayLinks : MarkedText :=
  { linkAndPhoto with
    links := [⟨-1, 2, .link, "no", "no", none⟩, ⟨3, 9, .link, "one", "t.co/1", none⟩,
      ⟨5, 4, .link, "no", "no", none⟩, ⟨9, 40, .link, "no", "no", none⟩] }

theorem inOrder_linkAndPhoto : linkAndPhoto.inOrder = linkAndPhoto.links ++ linkAndPhoto.media :=
  Mark.sortByStart_of_pairwise (by decide)

theorem inOrder_strayLinks : strayLinks.inOrder = strayLinks.links ++ strayLinks.media :=
  Mark.sortByStart_of_pairwise (by decide)

theorem render?_strayLinks :
    ((linkAndPhoto.placed "go t.co/1 t.co/2").Pairwise
        fun a b => a.Separate b ∧ a.start ≠ b.start) ∧
      List.Forall₂ (Mark.Added (Utf16.ofString "go t.co/1 t.co/2").length)
        linkAndPhoto.lists strayLinks.lists ∧
      strayLinks.render? {} {} = linkAndPhoto.render? {} {} ∧
      linkAndPhoto.render? {} {} =
        some ⟨Utf16.ofString "go one", [⟨3, 6, "t.co/1", {}, false⟩]⟩ := by
  have hplaced : (linkAndPhoto.placed "go t.co/1 t.co/2").Pairwise
      fun a b => a.Separate b ∧ a.start ≠ b.start := by
    rw [placed, inOrder_linkAndPhoto]
    decide +kernel
  have hadded : List.Forall₂ (Mark.Added (Utf16.ofString "go t.co/1 t.co/2").length)
      linkAndPhoto.lists strayLinks.lists := by
    refine .cons (.add (by decide +kernel) (.keep _ ?_)) (.cons (.keep _ .nil) ?_)
    · exact .add (by decide +kernel) (.add (by decide +kernel) .nil)
    · exact .cons .nil (.cons .nil (.cons .nil .nil))
  refine ⟨hplaced, hadded, ?_, ?_⟩
  · have htext : strayLinks.text = linkAndPhoto.text := rfl
    refine (render?_added_iff rfl htext (by decide) hplaced hadded {} {}).mpr ?_
    have hlast : (linkAndPhoto.placed "go t.co/1 t.co/2").getLast? =
        some ⟨10, 16, .media "photo", "pic", "t.co/2", none⟩ := by
      rw [placed, inOrder_linkAndPhoto]
      decide +kernel
    rw [hlast, inOrder_linkAndPhoto, inOrder_strayLinks]
    rintro a ha
    obtain rfl := Option.some.inj ha
    left
    decide +kernel
  · simp only [render?, draft, inOrder_linkAndPhoto]
    decide +kernel

def photo : MarkedText where
  text := some "a pic https://t.co/p"
  media := [⟨6, 20, .media "photo", "pic.twitter.com/p", "https://t.co/p", none⟩]

def strayHashtag : MarkedText :=
  { photo with hashtags := [⟨40, 43, .hashtag, "#x", "https://twitter.com/hashtag/x", none⟩] }

theorem inOrder_photo : photo.inOrder = photo.media := Mark.sortByStart_of_pairwise (by decide)

theorem inOrder_strayHashtag : strayHashtag.inOrder = photo.media ++ strayHashtag.hashtags :=
  Mark.sortByStart_of_pairwise (by decide)

/-- The hashtag lies nowhere in the text, and keeps the photo from being left out. -/
theorem render?_strayHashtag_ne :
    ((photo.placed "a pic https://t.co/p").Pairwise fun a b => a.Separate b ∧ a.start ≠ b.start) ∧
      List.Forall₂ (Mark.Added (Utf16.ofString "a pic https://t.co/p").length)
        photo.lists strayHashtag.lists ∧
      (∀ a ∈ photo.placed "a pic https://t.co/p", ∀ b ∈ strayHashtag.inOrder,
        ¬ b.LiesIn (Utf16.ofString "a pic https://t.co/p").length → b.start ≠ a.start) ∧
      photo.render? {} {} = some ⟨Utf16.ofString "a pic", []⟩ ∧
      strayHashtag.render? {} {} = some ⟨Utf16.ofString "a pic pic.twitter.com/p",
        [⟨6, 23, "https://t.co/p", {}, false⟩]⟩ ∧
      strayHashtag.render? {} {} ≠ photo.render? {} {} := by
  have hphoto : photo.render? {} {} = some ⟨Utf16.ofString "a pic", []⟩ := by
    simp only [render?, draft, inOrder_photo]
    decide +kernel
  have hstray : strayHashtag.render? {} {} = some ⟨Utf16.ofString "a pic pic.twitter.com/p",
      [⟨6, 23, "https://t.co/p", {}, false⟩]⟩ := by
    simp only [render?, draft, inOrder_strayHashtag]
    decide +kernel
  refine ⟨?_, ?_, ?_, hphoto, hstray, ?_⟩
  · rw [placed, inOrder_photo]
    decide +kernel
  · refine .cons .nil (.cons (.keep _ .nil) (.cons ?_ (.cons .nil (.cons .nil .nil))))
    exact .add (by decide +kernel) .nil
  · rw [placed, inOrder_photo, inOrder_strayHashtag]
    decide +kernel
  · rw [hphoto, hstray]
    decide +kernel

end MarkedText
end TweetText
