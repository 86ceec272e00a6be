import Mathlib.Data.List.Pairwise
import TweetText.Proofs.Draft.Parts

/-!
# Spans of a rendered text

Before its end is trimmed, a text has one span for each mark whose display text was put in its
place, just over that text. Trimming cuts the spans to what is left: all but the last one that stays
are whole, and one that does not stay had nothing but controls and spaces from its start on
(`spans_render?`).
-/

namespace TweetText

/-! ## Cut spans -/

namespace Span

theorem cut?_eq_some_iff {s s' : Span} {length : Nat} :
    s.cut? length = some s' ↔
      s.start < min s.stop length ∧ { s with stop := min s.stop length } = s' := by
  by_cases h : s.start < min s.stop length <;> simp [cut?, h]

theorem cut?_of_lt {s : Span} {length : Nat} (h : s.start < s.stop) (hlt : s.start < length) :
    s.cut? length = some { s with stop := min s.stop length } := by
  have : s.start < min s.stop length := by omega
  simp [cut?, this]

theorem cut?_of_le {s : Span} {length : Nat} (hle : length ≤ s.start) : s.cut? length = none := by
  have : ¬ s.start < min s.stop length := by omega
  simp [cut?, this]

theorem cut?_of_stop_le {s : Span} {length : Nat} (h : s.start < s.stop) (hle : s.stop ≤ length) :
    s.cut? length = some s := by
  rw [cut?_of_lt h (by omega), Nat.min_eq_left hle]

theorem filterMap_cut?_of_le {spans : List Span} {length : Nat}
    (h : ∀ s ∈ spans, length ≤ s.start) : spans.filterMap (cut? length) = [] := by
  rw [List.filterMap_eq_nil_iff]
  exact fun s hs => cut?_of_le (h s hs)

end Span

/-! ## Trimmed texts -/

namespace RenderedText

variable {t : RenderedText}

theorem units_trimRight (t : RenderedText) : t.trimRight.units = Utf16.trimRight t.units := by
  unfold trimRight
  dsimp only
  split
  · rename_i h
    exact ((isPrefix_dropLastWhile _ t.units).eq_of_length h).symm
  · rfl

/-- Spans that lie in the text and are not empty are all cut alike. -/
theorem spans_trimRight (h : ∀ s ∈ t.spans, s.start < s.stop ∧ s.stop ≤ t.length) :
    t.trimRight.spans = t.spans.filterMap (Span.cut? (Utf16.trimRight t.units).length) := by
  unfold trimRight
  dsimp only
  split
  · rename_i hlen
    have hwhole : ∀ s ∈ t.spans, s.cut? t.units.length = some s :=
      fun s hs => Span.cut?_of_stop_le (h s hs).1 (h s hs).2
    rw [hlen, List.filterMap_congr hwhole]
    simp
  · rfl

theorem trimRight_eq (h : ∀ s ∈ t.spans, s.start < s.stop ∧ s.stop ≤ t.length) :
    t.trimRight = ⟨Utf16.trimRight t.units,
      t.spans.filterMap (Span.cut? (Utf16.trimRight t.units).length)⟩ := by
  rw [← spans_trimRight h, ← units_trimRight]

end RenderedText

/-! ## Spans over display texts -/

/-! ## After trimming -/

namespace RenderedText

/-- A span over the display text of a mark, but for controls and spaces at the end of the last
one. -/
structure ShowsUpTo (t : RenderedText) (a : Mark) (s : Span) : Prop where
  url_eq : s.url = a.url
  units_eq : ∃ lost, Utf16.ofString a.display = t.units.extract s.start s.stop ++ lost ∧
    (lost ≠ [] → t.spans.getLast? = some s ∧ ∀ u ∈ lost, u ≤ 0x20)

end RenderedText

namespace Span

variable {style : LinkStyle} {units : List UInt16} {as : List Mark} {spans : List Span}
  {length : Nat} {a : Mark} {s : Span}

theorem Shows.extract_take (h : s.Shows style units a) (hlt : s.start < length) :
    Utf16.ofString a.display = (units.take length).extract s.start (min s.stop length) ++
      (units.extract s.start s.stop).drop (min s.stop length - s.start) := by
  have htake : (units.take length).extract s.start (min s.stop length) =
      (units.extract s.start s.stop).take (min s.stop length - s.start) := by
    rw [List.extract_eq_take_drop, List.extract_eq_take_drop, List.drop_take, List.take_take,
      List.take_take]
    congr 1
    omega
  rw [htake, List.take_append_drop, h.units_eq]

theorem mem_drop_of_lost {u : UInt16}
    (h : u ∈ (units.extract s.start s.stop).drop (min s.stop length - s.start))
    (hlt : s.start < length) : length < s.stop ∧ u ∈ units.drop length := by
  rw [List.extract_eq_take_drop, List.drop_take, List.drop_drop] at h
  have hpos : s.stop - s.start - (min s.stop length - s.start) ≠ 0 := by
    intro hzero
    rw [hzero] at h
    cases h
  have hstop : length < s.stop := by omega
  refine ⟨hstop, ?_⟩
  rw [show s.start + (min s.stop length - s.start) = length by omega] at h
  exact List.mem_of_mem_take h

theorem exists_kept (hshows : List.Forall₂ (Shows style units) as spans)
    (hsorted : spans.Pairwise fun s s' => s.stop ≤ s'.start) (hnodup : as.Nodup)
    (hblank : ∀ u ∈ units.drop length, u ≤ 0x20) :
    ∃ kept, kept <+: as ∧
      List.Forall₂ (RenderedText.ShowsUpTo ⟨units.take length, spans.filterMap (cut? length)⟩)
        kept (spans.filterMap (cut? length)) ∧
      ∀ a s, (a, s) ∈ as.zip spans → (a ∈ kept ↔ s.start < length) := by
  induction hshows with
  | nil => exact ⟨[], List.nil_prefix, List.Forall₂.nil, fun _ _ h => by cases h⟩
  | @cons a s as spans hshow hshows ih =>
      rw [List.pairwise_cons] at hsorted
      rw [List.nodup_cons] at hnodup
      by_cases hlt : s.start < length
      · obtain ⟨kept, hfirst, hforall, hmem⟩ := ih hsorted.2 hnodup.2
        have hcut := cut?_of_lt hshow.nonempty hlt
        rw [List.filterMap_cons_some hcut]
        refine ⟨a :: kept, List.prefix_cons_inj a |>.mpr hfirst, List.Forall₂.cons ?_ ?_, ?_⟩
        · refine ⟨hshow.url_eq, _, hshow.extract_take hlt, ?_⟩
          intro hlost
          have hover : length < s.stop := by
            obtain ⟨u, hu⟩ := List.exists_mem_of_ne_nil _ hlost
            exact (mem_drop_of_lost hu hlt).1
          have hrest : spans.filterMap (cut? length) = [] := by
            apply filterMap_cut?_of_le
            intro s' hs'
            have := hsorted.1 s' hs'
            omega
          rw [hrest]
          exact ⟨rfl, fun u hu => hblank u (mem_drop_of_lost hu hlt).2⟩
        · refine hforall.imp fun b s' hb => ⟨hb.url_eq, ?_⟩
          obtain ⟨lost, hunits, hlost⟩ := hb.units_eq
          refine ⟨lost, hunits, fun hne => ⟨?_, (hlost hne).2⟩⟩
          rw [List.getLast?_cons, (hlost hne).1]
          rfl
        · intro b s' hb
          rw [List.zip_cons_cons, List.mem_cons, Prod.mk.injEq] at hb
          rcases hb with ⟨rfl, rfl⟩ | hb
          · simp [hlt]
          · have hne : b ≠ a := fun h => hnodup.1 (h ▸ (List.of_mem_zip hb).1)
            rw [List.mem_cons, ← hmem b s' hb]
            simp [hne]
      · have hnone : (s :: spans).filterMap (cut? length) = [] := by
          apply filterMap_cut?_of_le
          intro s' hs'
          rcases List.mem_cons.mp hs' with rfl | hs'
          · omega
          · have := hsorted.1 s' hs'
            have := hshow.nonempty
            omega
        rw [hnone]
        refine ⟨[], List.nil_prefix, List.Forall₂.nil, ?_⟩
        intro b s' hb
        rw [List.zip_cons_cons, List.mem_cons, Prod.mk.injEq] at hb
        rcases hb with ⟨rfl, rfl⟩ | hb
        · simp [hlt]
        · have := hsorted.1 s' (List.of_mem_zip hb).2
          have := hshow.nonempty
          simp
          omega

end Span

/-- **Trimming spans.** Of the spans over the display texts of marks, those that stay are in the
text and in order, whole but for the last one, and one goes only if nothing but controls and spaces
is there from its start on. -/
theorem RenderedText.trimRight_shows {style : LinkStyle} {t : RenderedText} {as : List Mark}
    (hshows : List.Forall₂ (Span.Shows style t.units) as t.spans)
    (hsorted : t.spans.Pairwise fun s s' => s.stop ≤ s'.start) (hnodup : as.Nodup) :
    (∀ s ∈ t.trimRight.spans, s.start < s.stop ∧ s.stop ≤ t.trimRight.length) ∧
      (t.trimRight.spans.Pairwise fun s s' => s.stop ≤ s'.start) ∧
      ∃ kept, kept <+: as ∧ List.Forall₂ t.trimRight.ShowsUpTo kept t.trimRight.spans ∧
        ∀ a s, (a, s) ∈ as.zip t.spans →
          (a ∉ kept ↔ (∀ u ∈ Utf16.ofString a.display, u ≤ 0x20) ∧
            ∀ u ∈ t.units.drop s.stop, u ≤ 0x20) := by
  have hzip : ∀ a s, (a, s) ∈ as.zip t.spans → s.Shows style t.units a :=
    fun a s h => (List.forall₂_iff_zip.mp hshows).2 h
  have hbounds : ∀ s ∈ t.spans, s.start < s.stop ∧ s.stop ≤ t.length :=
    ((List.forall₂_and_left _ _).mp
      (hshows.flip.imp fun s a h => ⟨⟨h.nonempty, h.stop_le⟩, h⟩)).1
  obtain ⟨length, hlen⟩ : ∃ length, length = (Utf16.trimRight t.units).length := ⟨_, rfl⟩
  have hunits : t.trimRight.units = t.units.take length := by
    rw [units_trimRight, hlen]
    exact dropLastWhile_eq_take _ _
  have hspans : t.trimRight.spans = t.spans.filterMap (Span.cut? length) := by
    rw [hlen, spans_trimRight hbounds]
  have hlength : t.trimRight.length = length := by
    rw [RenderedText.length, units_trimRight, hlen]
  have hblank : ∀ position, length ≤ position ↔ ∀ u ∈ t.units.drop position, u ≤ 0x20 := by
    intro position
    rw [hlen, Utf16.trimRight, length_dropLastWhile_le_iff]
    simp
  obtain ⟨kept, hfirst, hforall, hmem⟩ :=
    Span.exists_kept hshows hsorted hnodup ((hblank length).mp (Nat.le_refl _))
  refine ⟨?_, ?_, kept, hfirst, ?_, ?_⟩
  · intro s hs
    rw [hspans] at hs
    obtain ⟨s', -, hcut⟩ := List.mem_filterMap.mp hs
    obtain ⟨hlt, rfl⟩ := Span.cut?_eq_some_iff.mp hcut
    exact ⟨hlt, by rw [hlength]; exact Nat.min_le_right _ _⟩
  · rw [hspans]
    apply List.Pairwise.filterMap _ _ hsorted
    intro s s' hle u hu u' hu'
    obtain ⟨-, rfl⟩ := Span.cut?_eq_some_iff.mp hu
    obtain ⟨-, rfl⟩ := Span.cut?_eq_some_iff.mp hu'
    exact Nat.le_trans (Nat.min_le_left _ _) hle
  · rw [← hspans, ← hunits] at hforall
    exact hforall
  · intro a s has
    have hshow := hzip a s has
    have hdrop : t.units.drop s.start = Utf16.ofString a.display ++ t.units.drop s.stop := by
      rw [← hshow.units_eq, List.extract_eq_take_drop]
      have := hshow.nonempty
      rw [show t.units.drop s.stop = (t.units.drop s.start).drop (s.stop - s.start) by
        rw [List.drop_drop]
        congr 1
        omega, List.take_append_drop]
    rw [hmem a s has, Nat.not_lt, hblank, hdrop, List.forall_mem_append]

/-! ## The result -/

theorem Mark.leftOut_find?_iff {text : String} {as : List Mark} {elision : Elision} {a : Mark}
    (h : ∀ b ∈ as, b.start = a.start → b = a) :
    a.leftOut (TrailingLink.find? text as elision) ↔
      TrailingLink.find? text as elision = some a := by
  constructor
  · intro hleft
    obtain ⟨b, hfind, hstart⟩ := (Option.any_eq_true _ _).mp hleft
    have hmem := List.mem_of_getLast? (Option.filter_eq_some_iff.mp hfind).1
    rw [hfind, h b hmem (by simpa using hstart)]
  · intro hfind
    simp [leftOut, hfind]

namespace MarkedText

/-- The marks that lie in the text. -/
def placed (t : MarkedText) (text : String) : List Mark :=
  t.inOrder.filter (·.LiesIn (Utf16.ofString text).length)

/-- The marks whose display texts are put in their places. -/
def substituted (t : MarkedText) (text : String) (elision : Elision) : List Mark :=
  (t.placed text).filter fun a =>
    TrailingLink.find? text t.inOrder elision ≠ some a ∧ a.display ≠ ""

variable {t : MarkedText} {text : String} {style : LinkStyle} {elision : Elision}

theorem liesIn_of_mem_placed {a : Mark} (h : a ∈ t.placed text) :
    a.LiesIn (Utf16.ofString text).length := by
  simpa using (List.mem_filter.mp h).2

theorem draft_eq_applyAll_placed (t : MarkedText) (text : String) (style : LinkStyle)
    (elision : Elision) : t.draft text style elision =
      Draft.applyAll style (TrailingLink.find? text t.inOrder elision)
        ⟨Utf16.ofString text, 0, []⟩ (t.placed text) :=
  Draft.applyAll_filter_liesIn (Int.zero_add _) (Mark.pairwise_sortByStart _) (Or.inl rfl)

/-- The text with all marks applied is the text cut at the marks that lie in it. -/
theorem draft_eq_cut (style : LinkStyle) (elision : Elision)
    (h : (t.placed text).Pairwise fun a b => a.stop ≤ b.start) :
    (t.draft text style elision).units =
        Part.units (Mark.leftOut (TrailingLink.find? text t.inOrder elision))
          (Part.cut (Utf16.ofString text) 0 (t.placed text)) ∧
      (t.draft text style elision).spans =
        Part.spansFrom style (Mark.leftOut (TrailingLink.find? text t.inOrder elision)) 0
          (Part.cut (Utf16.ofString text) 0 (t.placed text)) := by
  rw [draft_eq_applyAll_placed]
  exact Draft.applyAll_of_behind style _ (fun a => liesIn_of_mem_placed) h

/-- **Spans of a rendered text.** -/
theorem spans_render? (htext : t.text = some text) (hne : text ≠ "")
    (hplaced : (t.placed text).Pairwise fun a b => a.stop ≤ b.start ∧ a.start ≠ b.start)
    (hothers : ∀ a ∈ t.placed text, ∀ b ∈ t.inOrder,
      ¬ b.LiesIn (Utf16.ofString text).length → b.start ≠ a.start)
    (style : LinkStyle) (elision : Elision) :
    ∃ r, t.render? style elision = some r ∧
      (∀ s ∈ r.spans, s.start < s.stop ∧ s.stop ≤ r.length) ∧
      (r.spans.Pairwise fun s s' => s.stop ≤ s'.start) ∧
      List.Forall₂ (Span.Shows style (t.draft text style elision).units)
        (t.substituted text elision) (t.draft text style elision).spans ∧
      ∃ kept, kept <+: t.substituted text elision ∧ List.Forall₂ r.ShowsUpTo kept r.spans ∧
        ∀ a s, (a, s) ∈ (t.substituted text elision).zip (t.draft text style elision).spans →
          (a ∉ kept ↔ (∀ u ∈ Utf16.ofString a.display, u ≤ 0x20) ∧
            ∀ u ∈ (t.draft text style elision).units.drop s.stop, u ≤ 0x20) := by
  have hstarts : ∀ a ∈ t.placed text, ∀ b ∈ t.inOrder, b.start = a.start → b = a := by
    intro a ha b hb hstart
    by_cases hlies : b.LiesIn (Utf16.ofString text).length
    · by_contra hne
      have hmem : b ∈ t.placed text := List.mem_filter.mpr ⟨hb, by simpa using hlies⟩
      have : Std.Symm fun a b : Mark => a.start ≠ b.start := ⟨fun _ _ h => h.symm⟩
      exact (hplaced.imp fun h => h.2).forall hmem ha hne hstart
    · exact absurd hstart (hothers a ha b hb hlies)
  have hsubstituted : t.substituted text elision = (t.placed text).filter fun a =>
      ¬ a.leftOut (TrailingLink.find? text t.inOrder elision) ∧ a.display ≠ "" := by
    apply List.filter_congr
    intro a ha
    simp only [Mark.leftOut_find?_iff (hstarts a ha)]
  obtain ⟨hunits, hspans⟩ := draft_eq_cut style elision
    (hplaced.imp fun h => h.1)
  have hshows : List.Forall₂ (Span.Shows style (t.draft text style elision).units)
      (t.substituted text elision) (t.draft text style elision).spans := by
    rw [hsubstituted, hunits, hspans]
    exact Part.forall₂_shows_spansFrom _ [] 0 _
  have hsorted : (t.draft text style elision).spans.Pairwise fun s s' => s.stop ≤ s'.start := by
    rw [hspans]
    exact Part.pairwise_spansFrom _ _
  have hnodup : (t.substituted text elision).Nodup :=
    ((hplaced.imp fun h => fun heq => h.2 (congrArg Mark.start heq)).sublist List.filter_sublist)
  obtain ⟨hbounds, hpairwise, hkept⟩ := RenderedText.trimRight_shows
    (t := ⟨(t.draft text style elision).units, (t.draft text style elision).spans⟩)
    hshows hsorted hnodup
  exact ⟨_, by simp [render?, htext, hne], hbounds, hpairwise, hshows, hkept⟩

/-- A link with a display text that ends in a space, before a photo to be left out, and a link that
begins before the text. -/
def photoAtEnd : MarkedText where
  text := some "go t.co/1 t.co/2"
  links := [⟨-1, 2, .link, "no", "no", none⟩, ⟨3, 9, .link, "one ", "t.co/1", none⟩]
  media := [⟨10, 16, .media "photo", "pic", "t.co/2", none⟩]

theorem inOrder_photoAtEnd : photoAtEnd.inOrder = photoAtEnd.links ++ photoAtEnd.media :=
  Mark.sortByStart_of_pairwise (by decide)

theorem spans_render?_photoAtEnd :
    ((photoAtEnd.placed "go t.co/1 t.co/2").Pairwise
        fun a b => a.stop ≤ b.start ∧ a.start ≠ b.start) ∧
      (∀ a ∈ photoAtEnd.placed "go t.co/1 t.co/2", ∀ b ∈ photoAtEnd.inOrder,
        ¬ b.LiesIn (Utf16.ofString "go t.co/1 t.co/2").length → b.start ≠ a.start) ∧
      ∃ r, photoAtEnd.render? {} {} = some r ∧
        (∀ s ∈ r.spans, s.start < s.stop ∧ s.stop ≤ r.length) ∧
        (r.spans.Pairwise fun s s' => s.stop ≤ s'.start) ∧
        r = ⟨Utf16.ofString "go one", [⟨3, 6, "t.co/1", {}, false⟩]⟩ := by
  have hplaced : (photoAtEnd.placed "go t.co/1 t.co/2").Pairwise
      fun a b => a.stop ≤ b.start ∧ a.start ≠ b.start := by
    rw [placed, inOrder_photoAtEnd]
    decide +kernel
  have hothers : ∀ a ∈ photoAtEnd.placed "go t.co/1 t.co/2", ∀ b ∈ photoAtEnd.inOrder,
      ¬ b.LiesIn (Utf16.ofString "go t.co/1 t.co/2").length → b.start ≠ a.start := by
    rw [placed, inOrder_photoAtEnd]
    decide +kernel
  obtain ⟨r, hr, hbounds, hpairwise, -⟩ := spans_render? rfl (by decide) hplaced hothers {} {}
  refine ⟨hplaced, hothers, r, hr, hbounds, hpairwise, ?_⟩
  have hvalue : photoAtEnd.render? {} {} =
      some ⟨Utf16.ofString "go one", [⟨3, 6, "t.co/1", {}, false⟩]⟩ := by
    simp only [render?, draft, inOrder_photoAtEnd]
    decide +kernel
  exact Option.some.inj (hr.symm.trans hvalue)

end MarkedText
end TweetText
