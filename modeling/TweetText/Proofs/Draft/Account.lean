import Mathlib.Algebra.GroupWithZero.Nat
import Mathlib.Data.List.Forall2
import TweetText.Proofs.Draft.Parts

/-!
# Drafts under any marks

Marks may come in any order, overlap, repeat each other or lie outside of the text, so what one of
them does depends on all that were applied before it. Still the drift and the length of a draft
always add up to the length of the text at the start (`drift_add_length_apply`). That is why a mark
that reaches over the end of the draft is one that reaches over the end of the text, why every edit
is made within the draft, and why each unit of the result is accounted for (`applyAll_accounts`).
-/

namespace TweetText.Draft

/-! ## Moments and edits -/

/-- A mark and the draft that it is applied to. -/
structure Moment where
  draft : Draft
  mark : Mark

/-- A range of a draft and what is put in its place. -/
structure Edit where
  start : Nat
  stop : Nat
  units : List UInt16

def Edit.width (e : Edit) : Nat := e.stop - e.start

def moments (style : LinkStyle) (elided : Option Mark) : Draft → List Mark → List Moment
  | _, [] => []
  | d, a :: as => ⟨d, a⟩ :: moments style elided (d.apply style elided a) as

/-- What is computed fits a signed word of 64 bits. -/
def FitsWord (n : Int) : Prop := -2 ^ 63 ≤ n ∧ n < 2 ^ 63

namespace Moment

def next (style : LinkStyle) (elided : Option Mark) (m : Moment) : Draft :=
  m.draft.apply style elided m.mark

def edit? (elided : Option Mark) (m : Moment) : Option Edit :=
  (m.draft.place? m.mark).bind fun (start, stop) =>
    if m.mark.leftOut elided then some ⟨start, stop, []⟩
    else if m.mark.display = "" then none
    else some ⟨start, stop, Utf16.ofString m.mark.display⟩

/-- Whether the mark lies in the draft, is not left out and has a display text. -/
def shows (elided : Option Mark) (m : Moment) : Bool :=
  (m.draft.place? m.mark).isSome && !m.mark.leftOut elided && m.mark.display != ""

/-- What is always so of a draft on the way from a text of that length, and of the edit made to
it. -/
structure Accounted (style : LinkStyle) (elided : Option Mark) (length : Nat) (m : Moment) :
    Prop where
  drift_add_length : m.draft.drift + m.draft.units.length = length
  over_iff : (m.draft.units.length : Int) < m.mark.stop.toInt - m.draft.drift ↔
    (length : Int) < m.mark.stop.toInt
  skipped_iff : m.draft.place? m.mark = none ↔ m.mark.start.toInt < m.draft.drift ∨
    m.mark.stop.toInt < m.mark.start.toInt ∨ (length : Int) < m.mark.stop.toInt
  edited : ∀ e, m.edit? elided = some e → e.start ≤ e.stop ∧ e.stop ≤ m.draft.units.length ∧
    (m.next style elided).units =
      m.draft.units.take e.start ++ e.units ++ m.draft.units.drop e.stop
  unedited : m.edit? elided = none → m.next style elided = m.draft
  fits : length < 2 ^ 62 → m.draft.units.length < 2 ^ 62 → FitsWord m.draft.drift ∧
    FitsWord (m.mark.start.toInt - m.draft.drift) ∧ FitsWord (m.mark.stop.toInt - m.draft.drift)

/-- A span over the whole display text of the mark, in the draft right after it was put. -/
structure Leaves (style : LinkStyle) (elided : Option Mark) (m : Moment) (s : Span) : Prop where
  start_eq : (s.start : Int) = m.mark.start.toInt - m.draft.drift
  stop_eq : s.stop = s.start + (Utf16.ofString m.mark.display).length
  stop_le : s.stop ≤ (m.next style elided).units.length
  units_eq : (m.next style elided).units.extract s.start s.stop = Utf16.ofString m.mark.display
  url_eq : s.url = m.mark.url

/-! ## One step -/

variable (style : LinkStyle) (elided : Option Mark) {length : Nat}

/-- What applying a mark can do: nothing, or one edit within the draft that moves the drift by what
the draft becomes shorter and leaves a span if it shows the mark. -/
theorem next_cases (m : Moment) :
    (m.edit? elided = none ∧ m.shows elided = false ∧ m.next style elided = m.draft) ∨
      ∃ e, m.edit? elided = some e ∧ m.draft.place? m.mark = some (e.start, e.stop) ∧
        (m.shows elided → e.units = Utf16.ofString m.mark.display) ∧
        m.next style elided =
          ⟨m.draft.units.take e.start ++ e.units ++ m.draft.units.drop e.stop,
            m.draft.drift + e.width - e.units.length,
            m.draft.spans ++ if m.shows elided then
              [⟨e.start, e.start + e.units.length, m.mark.url, style, false⟩] else []⟩ := by
  unfold edit? shows next apply
  cases hplace : m.draft.place? m.mark with
  | none => exact Or.inl ⟨rfl, rfl, rfl⟩
  | some place =>
      obtain ⟨start, stop⟩ := place
      by_cases hout : m.mark.leftOut elided
      · right
        refine ⟨⟨start, stop, []⟩, ?_, rfl, ?_, ?_⟩
        · simp [hout]
        · simp [hout]
        · have hany : elided.any (·.start == m.mark.start) = true := hout
          simp [hout, hany, replace, Edit.width]
      · have hany : ¬ elided.any (·.start == m.mark.start) = true := hout
        by_cases hdisplay : m.mark.display = ""
        · left
          simp [hout, hany, hdisplay]
        · right
          refine ⟨⟨start, stop, Utf16.ofString m.mark.display⟩, ?_, rfl, fun _ => rfl, ?_⟩
          · simp [hout, hdisplay]
          · simp [hout, hany, hdisplay, replace, Edit.width]

theorem length_next_add_width (m : Moment) :
    (m.next style elided).units.length + ((m.edit? elided).toList.map Edit.width).sum =
      m.draft.units.length + ((m.edit? elided).toList.map fun e => e.units.length).sum := by
  obtain ⟨hedit, -, hnext⟩ | ⟨e, hedit, hplace, -, hnext⟩ := next_cases style elided m
  · rw [hedit, hnext]
    rfl
  · obtain ⟨-, -, hle, hlen⟩ := place?_eq_some_iff.mp hplace
    rw [hedit, hnext]
    simp only [List.length_append, List.length_take, List.length_drop, Edit.width,
      Option.toList_some, List.map_cons, List.map_nil, List.sum_cons, List.sum_nil]
    omega

theorem accounted (m : Moment) (hlength : m.draft.drift + m.draft.units.length = length) :
    m.Accounted style elided length := by
  refine ⟨hlength, by omega, ?_, ?_, ?_, ?_⟩
  · rw [place?_eq_none_iff]
    omega
  · intro e he
    obtain ⟨hnone, -⟩ | ⟨e', hedit, hplace, -, hnext⟩ := next_cases style elided m
    · rw [hnone] at he
      cases he
    · obtain rfl : e' = e := Option.some.inj (hedit.symm.trans he)
      obtain ⟨-, -, hle, hlen⟩ := place?_eq_some_iff.mp hplace
      exact ⟨hle, hlen, by rw [hnext]⟩
  · intro hnone
    obtain ⟨-, -, hnext⟩ | ⟨e, hedit, -⟩ := next_cases style elided m
    · exact hnext
    · rw [hnone] at hedit
      cases hedit
  · intro hshort hshort'
    have hstart := m.mark.start.toInt_lt
    have hstart' := m.mark.start.le_toInt
    have hstop := m.mark.stop.toInt_lt
    have hstop' := m.mark.stop.le_toInt
    unfold FitsWord
    omega

theorem spans_next (m : Moment) :
    ∃ left, (m.next style elided).spans = m.draft.spans ++ left ∧
      List.Forall₂ (Leaves style elided) ([m].filter (shows elided)) left := by
  obtain ⟨-, hshows, hnext⟩ | ⟨e, -, hplace, hunits, hnext⟩ := next_cases style elided m
  · refine ⟨[], by rw [hnext, List.append_nil], ?_⟩
    rw [List.filter_singleton, hshows]
    exact List.Forall₂.nil
  · refine ⟨_, by rw [hnext], ?_⟩
    rw [List.filter_singleton]
    by_cases hshows : m.shows elided
    · obtain ⟨hstart, -, hle, hlen⟩ := place?_eq_some_iff.mp hplace
      have htake : (m.draft.units.take e.start).length = e.start := by
        rw [List.length_take]
        omega
      rw [if_pos hshows, hshows]
      refine List.Forall₂.cons ⟨hstart, ?_, ?_, ?_, rfl⟩ List.Forall₂.nil
      · rw [hunits hshows]
      · rw [hnext]
        simp only [List.length_append, htake]
        omega
      · rw [hnext, List.extract_eq_take_drop, Nat.add_sub_cancel_left, List.append_assoc,
          List.drop_left' htake, List.take_left, hunits hshows]
    · rw [if_neg hshows, Bool.eq_false_iff.mpr hshows]
      exact List.Forall₂.nil

end Moment

/-! ## A whole run -/

variable (style : LinkStyle) (elided : Option Mark) {length : Nat}

theorem applyAll_cons (d : Draft) (a : Mark) (as : List Mark) :
    d.applyAll style elided (a :: as) =
      (Moment.next style elided ⟨d, a⟩).applyAll style elided as := rfl

theorem moments_cons (d : Draft) (a : Mark) (as : List Mark) :
    moments style elided d (a :: as) =
      ⟨d, a⟩ :: moments style elided (Moment.next style elided ⟨d, a⟩) as := rfl

theorem accounted_moments {d : Draft} (as : List Mark)
    (hlength : d.drift + d.units.length = length) :
    (∀ m ∈ moments style elided d as, m.Accounted style elided length) ∧
      (d.applyAll style elided as).drift + (d.applyAll style elided as).units.length = length := by
  induction as generalizing d with
  | nil => exact ⟨by simp [moments], hlength⟩
  | cons a as ih =>
      have hnext := (drift_add_length_apply style elided d a).trans hlength
      rw [moments_cons, applyAll_cons, List.forall_mem_cons]
      exact ⟨⟨Moment.accounted style elided ⟨d, a⟩ hlength, (ih hnext).1⟩, (ih hnext).2⟩

theorem length_applyAll_add_width (d : Draft) (as : List Mark) :
    (d.applyAll style elided as).units.length +
        (((moments style elided d as).filterMap (Moment.edit? elided)).map Edit.width).sum =
      d.units.length + (((moments style elided d as).filterMap (Moment.edit? elided)).map
        fun e => e.units.length).sum := by
  induction as generalizing d with
  | nil => rfl
  | cons a as ih =>
      have hnext := Moment.length_next_add_width style elided ⟨d, a⟩
      have hrest := ih (Moment.next style elided ⟨d, a⟩)
      rw [moments_cons, applyAll_cons, List.filterMap_cons]
      cases hedit : Moment.edit? elided ⟨d, a⟩ with
      | none =>
          rw [hedit] at hnext
          simp only [Option.toList_none, List.map_nil, List.sum_nil, Nat.add_zero] at hnext ⊢
          omega
      | some e =>
          rw [hedit] at hnext
          simp only [Option.toList_some, List.map_cons, List.map_nil, List.sum_cons, List.sum_nil,
            Nat.add_zero] at hnext ⊢
          omega

theorem spans_applyAll (d : Draft) (as : List Mark) :
    ∃ left, (d.applyAll style elided as).spans = d.spans ++ left ∧
      List.Forall₂ (Moment.Leaves style elided)
        ((moments style elided d as).filter (Moment.shows elided)) left := by
  induction as generalizing d with
  | nil => exact ⟨[], by simp [applyAll], List.Forall₂.nil⟩
  | cons a as ih =>
      obtain ⟨left, hspans, hleft⟩ := Moment.spans_next style elided ⟨d, a⟩
      obtain ⟨rest, hspans', hrest⟩ := ih (Moment.next style elided ⟨d, a⟩)
      refine ⟨left ++ rest, by rw [applyAll_cons, hspans', hspans, List.append_assoc], ?_⟩
      rw [moments_cons, ← List.singleton_append, List.filter_append]
      exact List.rel_append hleft hrest

/-- **Applying marks is safe and accounts for every unit**, whatever the text, the marks, their
order and the mark to leave out. At each moment drift and length add up to the length of the text,
so a mark reaches over the end of the draft just if it does over that of the text, and an edit lies
in the draft. The result is as long as the text, less all that edits took, with all that they put.
And there is one span for each mark that was shown, over the whole of its display text when that was
put. -/
theorem applyAll_accounts (base : List UInt16) (as : List Mark) :
    let ms := moments style elided ⟨base, 0, []⟩ as
    let edits := ms.filterMap (Moment.edit? elided)
    let d := applyAll style elided ⟨base, 0, []⟩ as
    (∀ m ∈ ms, m.Accounted style elided base.length) ∧
      d.drift + d.units.length = base.length ∧
      d.units.length + (edits.map Edit.width).sum =
        base.length + (edits.map fun e => e.units.length).sum ∧
      List.Forall₂ (Moment.Leaves style elided) (ms.filter (Moment.shows elided)) d.spans := by
  have hstart : (⟨base, 0, []⟩ : Draft).drift + (⟨base, 0, []⟩ : Draft).units.length =
      base.length := Int.zero_add _
  obtain ⟨hmoments, hend⟩ := accounted_moments style elided as hstart
  obtain ⟨left, hspans, hleft⟩ := spans_applyAll style elided ⟨base, 0, []⟩ as
  rw [List.nil_append] at hspans
  refine ⟨hmoments, hend, length_applyAll_add_width style elided ⟨base, 0, []⟩ as, ?_⟩
  rw [hspans]
  exact hleft

/-! ## Leaving out the last mark

The mark to leave out is told by its start. So if no other mark begins where the last one does, the
marks before it do the same whether it is left out or not, however they overlap or lie outside of
the text. The two results then part at the last mark only: what is put for it, and the span over
that, are all that one of them has and the other has not (`applyAll_leaveOut_last`). Of marks that
stand one after the other, leaving out the last one cuts the text in two
(`applyAll_concat_leaveOut`). -/

variable {style : LinkStyle} {elided elided' : Option Mark} {d : Draft} {a : Mark}

/-- The first draft is the second one with more units at a place and more spans at the end. -/
structure HasMore (place : Nat) (own : List UInt16) (left : List Span) (d d' : Draft) : Prop where
  before_eq : d.units.take place = d'.units.take place
  own_eq : d.units.extract place (place + own.length) = own
  behind_eq : d.units.drop (place + own.length) = d'.units.drop place
  spans_eq : d.spans = d'.spans ++ left

theorem hasMore_of_units {d' : Draft} {before own behind : List UInt16} {left : List Span}
    (h : d.units = before ++ own ++ behind) (h' : d'.units = before ++ behind)
    (hspans : d.spans = d'.spans ++ left) : d.HasMore before.length own left d' := by
  have hlength : (before ++ own).length = before.length + own.length := List.length_append
  refine ⟨?_, ?_, ?_, hspans⟩
  · rw [h, h', List.append_assoc, List.take_left, List.take_left]
  · rw [h, List.extract_eq_take_drop, Nat.add_sub_cancel_left, List.append_assoc, List.drop_left,
      List.take_left]
  · rw [h, h', ← hlength, List.drop_left, List.drop_left]

/-- A mark that lies in the draft is put there or taken out of it, and nothing else is touched. -/
theorem hasMore_apply {start stop : Nat} (style : LinkStyle)
    (hplace : d.place? a = some (start, stop)) (hput : a.leftOut elided = false)
    (hout : a.leftOut elided') :
    (d.apply style elided' a).units = d.units.take start ++ d.units.drop stop ∧
      (d.apply style elided' a).spans = d.spans ∧
      (d.apply style elided a).HasMore start
        (a.put (fun _ => false) (d.units.extract start stop))
        (a.span? style (fun _ => false) start).toList (d.apply style elided' a) := by
  obtain ⟨-, -, hle, hlen⟩ := place?_eq_some_iff.mp hplace
  have hstart : (d.units.take start).length = start := by
    rw [List.length_take]
    omega
  have hcut : (d.apply style elided' a).units = d.units.take start ++ d.units.drop stop ∧
      (d.apply style elided' a).spans = d.spans := by
    rw [apply_eq hplace, Mark.put_of_out hout, Mark.span?_of_out hout]
    simp
  have hkept : (d.apply style elided a).units = d.units.take start ++
        a.put (fun _ => false) (d.units.extract start stop) ++ d.units.drop stop ∧
      (d.apply style elided a).spans =
        d.spans ++ (a.span? style (fun _ => false) start).toList := by
    rw [apply_eq hplace]
    simp only [Mark.put, Mark.putAs, Mark.span?, hput]
    exact ⟨trivial, trivial⟩
  refine ⟨hcut.1, hcut.2, ?_⟩
  have hmore := hasMore_of_units hkept.1 hcut.1 (hcut.2 ▸ hkept.2)
  rwa [hstart] at hmore

/-- **Leaving out the last mark.** Whatever the text and the marks, as long as no other mark begins
where the last one does, applying them with the last one left out and with none left out comes to
the same draft before that mark. If it does not lie in that draft, nothing is left to do. Otherwise
one result has the range of the mark taken out, and the other one has more than that: what is put
for the mark, and the span over its display text, if there is one. -/
theorem applyAll_leaveOut_last (style : LinkStyle) (base : List UInt16) {as : List Mark} {a : Mark}
    (hstart : ∀ b ∈ as, b.start ≠ a.start) :
    let d := applyAll style none ⟨base, 0, []⟩ as
    let kept := applyAll style none ⟨base, 0, []⟩ (as ++ [a])
    let cut := applyAll style (some a) ⟨base, 0, []⟩ (as ++ [a])
    (d.place? a = none ∧ kept = d ∧ cut = d) ∨
      ∃ start stop, d.place? a = some (start, stop) ∧
        (start : Int) = a.start.toInt - d.drift ∧ (stop : Int) = a.stop.toInt - d.drift ∧
        cut.units = d.units.take start ++ d.units.drop stop ∧ cut.spans = d.spans ∧
        kept.HasMore start (a.put (fun _ => false) (d.units.extract start stop))
          (a.span? style (fun _ => false) start).toList cut := by
  intro d kept cut
  have hsame : applyAll style (some a) ⟨base, 0, []⟩ as = d := by
    apply applyAll_congr
    intro b hb
    simp [Mark.leftOut, (hstart b hb).symm]
  have hkept : kept = d.apply style none a := List.foldl_concat _ _ _ _
  have hcut : cut = d.apply style (some a) a := by
    rw [← hsame]
    exact List.foldl_concat _ _ _ _
  rw [hkept, hcut]
  cases hplace : d.place? a with
  | none => exact Or.inl ⟨rfl, apply_of_place?_eq_none hplace, apply_of_place?_eq_none hplace⟩
  | some place =>
      obtain ⟨start, stop⟩ := place
      obtain ⟨hfirst, hpast, -, -⟩ := place?_eq_some_iff.mp hplace
      have hout : a.leftOut (some a) := by simp [Mark.leftOut]
      exact Or.inr ⟨start, stop, rfl, hfirst, hpast, hasMore_apply style hplace rfl hout⟩

def tangledLinks : List Mark := [
  ⟨-1, 2, .link, "no", "no", none⟩,
  ⟨3, 9, .link, "one", "t.co/1", none⟩,
  ⟨5, 12, .link, "two!", "t.co/12", none⟩,
  ⟨6, 4, .link, "no", "no", none⟩]

def tangledPhoto : Mark := ⟨10, 16, .media "photo", "pic", "t.co/2", none⟩

theorem applyAll_leaveOut_tangledPhoto :
    (∀ b ∈ tangledLinks, b.start ≠ tangledPhoto.start) ∧
      let d := applyAll {} none ⟨Utf16.ofString "go t.co/1 t.co/2", 0, []⟩ tangledLinks
      let kept := applyAll {} none ⟨Utf16.ofString "go t.co/1 t.co/2", 0, []⟩
        (tangledLinks ++ [tangledPhoto])
      let cut := applyAll {} (some tangledPhoto) ⟨Utf16.ofString "go t.co/1 t.co/2", 0, []⟩
        (tangledLinks ++ [tangledPhoto])
      d.place? tangledPhoto = some (4, 10) ∧
        cut = ⟨Utf16.ofString "gotw", 12, [⟨3, 6, "t.co/1", {}, false⟩,
          ⟨2, 6, "t.co/12", {}, false⟩]⟩ ∧
        kept.HasMore 4 (Utf16.ofString "pic") [⟨4, 7, "t.co/2", {}, false⟩] cut := by
  have hstart : ∀ b ∈ tangledLinks, b.start ≠ tangledPhoto.start := by decide
  refine ⟨hstart, ?_⟩
  intro d kept cut
  have hplace : d.place? tangledPhoto = some (4, 10) := by decide +kernel
  refine ⟨hplace, by decide +kernel, ?_⟩
  obtain ⟨hnone, -⟩ | ⟨start, stop, hsome, -, -, -, -, hmore⟩ :=
    applyAll_leaveOut_last {} (Utf16.ofString "go t.co/1 t.co/2") hstart
  · cases hplace.symm.trans hnone
  · obtain ⟨rfl, rfl⟩ := Prod.mk.inj (Option.some.inj (hsome.symm.trans hplace))
    exact hmore

/-! ### Marks one after the other -/

/-- **Leaving out the last of marks that stand one after the other** is to apply the others to the
text up to it, and to go on with what stands behind it. -/
theorem applyAll_concat_leaveOut (style : LinkStyle) {base : List UInt16} {as : List Mark}
    {a : Mark} (hlies : ∀ b ∈ as ++ [a], b.LiesIn base.length ∧ b.start < b.stop)
    (hbehind : (as ++ [a]).Pairwise fun b c => b.stop ≤ c.start) :
    (applyAll style (some a) ⟨base, 0, []⟩ (as ++ [a])).units =
        (applyAll style none ⟨base.take a.first, 0, []⟩ as).units ++ base.drop a.past ∧
      (applyAll style (some a) ⟨base, 0, []⟩ (as ++ [a])).spans =
        (applyAll style none ⟨base.take a.first, 0, []⟩ as).spans := by
  obtain ⟨hliesas, hliesa⟩ := List.forall_mem_append.mp hlies
  obtain ⟨hliesa, -⟩ := List.forall_mem_singleton.mp hliesa
  obtain ⟨hbehindas, -, hbefore⟩ := List.pairwise_append.mp hbehind
  have hplace : ∀ b ∈ as, b.first ≤ b.past ∧ b.past ≤ a.first := by
    intro b hb
    have hle := Int32.le_iff_toInt_le.mp (hbefore b hb a List.mem_cons_self)
    rw [← (hliesas b hb).1.past_eq, ← hliesa.first_eq] at hle
    exact ⟨(hliesas b hb).1.first_le_past, Int.ofNat_le.mp hle⟩
  have hliestake : ∀ b ∈ as, b.LiesIn (base.take a.first).length := by
    intro b hb
    have hlen := Nat.le_trans hliesa.first_le_past hliesa.past_le
    rw [List.length_take, Nat.min_eq_left hlen]
    exact (hliesas b hb).1.of_past_le (hplace b hb).2
  have hkept : ∀ b ∈ as, b.leftOut (some a) = b.leftOut none := by
    intro b hb
    have hlt := Int32.lt_iff_toInt_lt.mp (hliesas b hb).2
    have hle := Int32.le_iff_toInt_le.mp (hbefore b hb a List.mem_cons_self)
    have hne : a.start ≠ b.start := by
      intro h
      rw [h] at hle
      omega
    simp [Mark.leftOut, hne]
  have hout : a.leftOut (some a) = true := by simp [Mark.leftOut]
  obtain ⟨hunits, hspans⟩ := applyAll_of_behind style (some a) (fun b hb => (hlies b hb).1) hbehind
  obtain ⟨hunits', hspans'⟩ := applyAll_of_behind style none hliestake hbehindas
  obtain ⟨hsameunits, hsamespans⟩ :=
    Part.cut_congr style (base.take a.first) hkept 0 0
  rw [hunits, hspans, hunits', hspans', Part.cut_concat base 0 hplace, Part.units_append,
    Part.spansFrom_append, hsameunits]
  constructor
  · simp [Part.units, Part.put, Mark.put_of_out hout]
  · simp [hsamespans, Part.spansFrom, Mark.span?_of_out hout]

end TweetText.Draft
