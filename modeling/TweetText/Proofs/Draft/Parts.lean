import Mathlib.Data.List.Chain
import Mathlib.Data.List.Forall2
import TweetText.Proofs.Mark.Order
import TweetText.Proofs.Text.Units
import TweetText.Render

/-!
# Drafts and the parts of a text

A text is cut at marks into the parts between them and the parts under them. Applying marks that
stand one after the other leaves the parts between them as they are and puts something in the place
of each part under one (`Reaches.applyAll`). The invariant is that a draft reads as what was written
so far, followed by the rest of the text, and that its drift is the difference of the two places.
-/

namespace TweetText

/-! ## Parts -/

/-- A part of a list cut at marks: between them, or under one. -/
inductive Part (α : Type) where
  | between (l : List α)
  | under (a : Mark) (l : List α)

/-- Cuts a list, from a place on, at marks that stand one after the other. -/
def Part.cut {α : Type} (l : List α) (cursor : Nat) : List Mark → List (Part α)
  | [] => [between (l.drop cursor)]
  | a :: rest =>
    between (l.extract cursor a.first) :: under a (l.extract a.first a.past) :: cut l a.past rest

namespace Mark

/-- Whether a mark is left out, which is known by its start. -/
def leftOut (elided : Option Mark) (a : Mark) : Bool := elided.any (·.start == a.start)

/-- What is put in the place of a list under a mark that would show another one, given which marks
are left out. -/
def putAs {α : Type} (out : Mark → Bool) (a : Mark) (shown own : List α) : List α :=
  if out a then [] else if a.display = "" then own else shown

def put (out : Mark → Bool) (a : Mark) (own : List UInt16) : List UInt16 :=
  a.putAs out (Utf16.ofString a.display) own

/-- The span that a mark leaves at a place. -/
def span? (style : LinkStyle) (out : Mark → Bool) (position : Nat) (a : Mark) : Option Span :=
  if out a ∨ a.display = "" then none
  else some ⟨position, position + (Utf16.ofString a.display).length, a.url, style, false⟩

section

variable {style : LinkStyle} {out : Mark → Bool} {a : Mark} {own : List UInt16} {position : Nat}

theorem put_of_out (h : out a) : a.put out own = [] := if_pos h

theorem put_of_display_eq (h : ¬ out a) (hdisplay : a.display = "") : a.put out own = own := by
  rw [put, putAs, if_neg h, if_pos hdisplay]

theorem put_of_display_ne (h : ¬ out a) (hdisplay : a.display ≠ "") :
    a.put out own = Utf16.ofString a.display := by
  rw [put, putAs, if_neg h, if_neg hdisplay]

theorem span?_of_out (h : out a) : a.span? style out position = none := if_pos (Or.inl h)

theorem span?_of_display_eq (hdisplay : a.display = "") : a.span? style out position = none :=
  if_pos (Or.inr hdisplay)

theorem span?_of_display_ne (h : ¬ out a) (hdisplay : a.display ≠ "") :
    a.span? style out position =
      some ⟨position, position + (Utf16.ofString a.display).length, a.url, style, false⟩ := by
  rw [span?, if_neg (by simp [h, hdisplay])]

theorem mem_span?_toList_iff {s : Span} : s ∈ (a.span? style out position).toList ↔
    ¬ out a ∧ a.display ≠ "" ∧
      ⟨position, position + (Utf16.ofString a.display).length, a.url, style, false⟩ = s := by
  rw [Option.mem_toList, span?]
  split
  · rename_i h
    simp only [reduceCtorEq, false_iff]
    rintro ⟨hout, hdisplay, -⟩
    exact h.elim hout hdisplay
  · rename_i h
    rw [not_or] at h
    simp [h]

end

end Mark

theorem take_append_extract_append_drop {α : Type} {l : List α} {start stop : Nat}
    (hle : start ≤ stop) : l.take start ++ l.extract start stop ++ l.drop stop = l := by
  have hdrop : l.drop stop = (l.drop start).drop (stop - start) := by
    rw [List.drop_drop, Nat.add_sub_cancel' hle]
  rw [List.append_assoc, List.extract_eq_take_drop, hdrop, List.take_append_drop,
    List.take_append_drop]

/-! Of a list that reads as what was written for what is before a place, and then as it was: -/

section

variable {α : Type} {base : List α} {cursor first past : Nat}

theorem drop_written_append (written : List α) (hle : cursor ≤ past) :
    (written ++ base.drop cursor).drop (written.length + (past - cursor)) = base.drop past := by
  rw [List.drop_length_add_append, List.drop_drop, Nat.add_sub_cancel' hle]

theorem extract_written_append (written : List α) (hcursor : cursor ≤ first) :
    (written ++ base.drop cursor).extract (written.length + (first - cursor))
      (written.length + (past - cursor)) = base.extract first past := by
  rw [List.extract_eq_take_drop, List.extract_eq_take_drop, drop_written_append written hcursor]
  congr 1
  omega

theorem splice_written_append (written put : List α) (hcursor : cursor ≤ first)
    (hle : first ≤ past) :
    (written ++ base.drop cursor).take (written.length + (first - cursor)) ++ put ++
        (written ++ base.drop cursor).drop (written.length + (past - cursor)) =
      written ++ base.extract cursor first ++ put ++ base.drop past := by
  rw [drop_written_append written (Nat.le_trans hcursor hle), List.take_length_add_append,
    List.extract_eq_take_drop]

end

namespace Part

def put (out : Mark → Bool) : Part UInt16 → List UInt16
  | between l => l
  | under a l => a.put out l

def units (out : Mark → Bool) (parts : List (Part UInt16)) : List UInt16 :=
  parts.flatMap (put out)

def spansFrom (style : LinkStyle) (out : Mark → Bool) (position : Nat) :
    List (Part UInt16) → List Span
  | [] => []
  | between l :: rest => spansFrom style out (position + l.length) rest
  | under a l :: rest =>
    (a.span? style out position).toList ++
      spansFrom style out (position + (a.put out l).length) rest

theorem units_append (out : Mark → Bool) (ps qs : List (Part UInt16)) :
    units out (ps ++ qs) = units out ps ++ units out qs := List.flatMap_append

theorem spansFrom_append (style : LinkStyle) (out : Mark → Bool) (position : Nat)
    (ps qs : List (Part UInt16)) : spansFrom style out position (ps ++ qs) =
      spansFrom style out position ps ++
        spansFrom style out (position + (units out ps).length) qs := by
  induction ps generalizing position with
  | nil => rfl
  | cons p ps ih =>
      have hlength : (units out (p :: ps)).length = (p.put out).length + (units out ps).length := by
        rw [units, List.flatMap_cons, List.length_append, units]
      rw [hlength, ← Nat.add_assoc]
      cases p with
      | between l => exact ih _
      | under a l =>
          rw [List.cons_append, spansFrom, spansFrom, ih, List.append_assoc]
          rfl

theorem cut_concat {α : Type} (l : List α) (cursor : Nat) {as : List Mark} {a : Mark}
    (h : ∀ b ∈ as, b.first ≤ b.past ∧ b.past ≤ a.first) :
    cut l cursor (as ++ [a]) = cut (l.take a.first) cursor as ++
      [under a (l.extract a.first a.past), between (l.drop a.past)] := by
  have hgap : ∀ start stop, stop ≤ a.first →
      l.extract start stop = (l.take a.first).extract start stop := by
    intro start stop hle
    rw [List.extract_eq_take_drop, List.extract_eq_take_drop, List.drop_take, List.take_take,
      Nat.min_eq_left (Nat.sub_le_sub_right hle start)]
  induction as generalizing cursor with
  | nil =>
      simp only [List.nil_append, cut, List.extract_eq_take_drop, List.drop_take,
        List.cons_append]
  | cons b as ih =>
      obtain ⟨⟨hle, hpast⟩, h⟩ := List.forall_mem_cons.mp h
      rw [List.cons_append, cut, cut, ih b.past h, hgap cursor b.first (Nat.le_trans hle hpast),
        hgap b.first b.past hpast]
      rfl

end Part

namespace Draft

variable {style : LinkStyle} {elided elided' : Option Mark} {base written : List UInt16}
  {cursor : Nat} {d : Draft} {a : Mark}

/-! ## One mark -/

theorem place?_eq_some_iff {start stop : Nat} :
    d.place? a = some (start, stop) ↔ (start : Int) = a.start.toInt - d.drift ∧
      (stop : Int) = a.stop.toInt - d.drift ∧ start ≤ stop ∧ stop ≤ d.units.length := by
  unfold place?
  dsimp only
  split
  · rename_i h
    rw [Option.some.injEq, Prod.mk.injEq]
    omega
  · rename_i h
    constructor
    · intro hnone
      cases hnone
    · rintro ⟨hstart, hstop, hle, hlen⟩
      exact absurd ⟨by omega, by omega, by omega⟩ h

theorem place?_eq_none_iff :
    d.place? a = none ↔ ¬ (0 ≤ a.start.toInt - d.drift ∧ a.start.toInt ≤ a.stop.toInt ∧
      a.stop.toInt - d.drift ≤ d.units.length) := by
  unfold place?
  dsimp only
  split
  · rename_i h
    simp only [reduceCtorEq, false_iff, not_not]
    omega
  · rename_i h
    simp only [true_iff]
    omega

theorem apply_of_place?_eq_none (h : d.place? a = none) : d.apply style elided a = d := by
  unfold apply
  rw [h]

/-- A mark that lies in the draft puts its units there, moves the drift by what they are shorter
and leaves its span. -/
theorem apply_eq {start stop : Nat} (h : d.place? a = some (start, stop)) :
    d.apply style elided a =
      ⟨d.units.take start ++ a.put (Mark.leftOut elided) (d.units.extract start stop) ++
          d.units.drop stop,
        d.drift + (stop - start : Nat) -
          (a.put (Mark.leftOut elided) (d.units.extract start stop)).length,
        d.spans ++ (a.span? style (Mark.leftOut elided) start).toList⟩ := by
  obtain ⟨-, -, hle, hlen⟩ := place?_eq_some_iff.mp h
  have hown : (d.units.extract start stop).length = stop - start := by
    simp
    omega
  unfold apply
  simp only [h]
  by_cases helided : a.leftOut elided
  · rw [if_pos (show elided.any (·.start == a.start) = true from helided),
      Mark.put_of_out helided, Mark.span?_of_out helided]
    simp [replace]
  · rw [if_neg (show ¬ elided.any (·.start == a.start) = true from helided)]
    by_cases hdisplay : a.display = ""
    · rw [if_pos hdisplay, Mark.put_of_display_eq helided hdisplay,
        Mark.span?_of_display_eq hdisplay, take_append_extract_append_drop hle, hown]
      simp
    · rw [if_neg hdisplay, Mark.put_of_display_ne helided hdisplay,
        Mark.span?_of_display_ne helided hdisplay]
      simp [replace]

/-- **The drift makes up for the length**, whatever mark is applied. -/
theorem drift_add_length_apply (style : LinkStyle) (elided : Option Mark) (d : Draft) (a : Mark) :
    (d.apply style elided a).drift + (d.apply style elided a).units.length =
      d.drift + d.units.length := by
  cases hplace : d.place? a with
  | none => rw [apply_of_place?_eq_none hplace]
  | some place =>
      obtain ⟨start, stop⟩ := place
      obtain ⟨-, -, hle, hlen⟩ := place?_eq_some_iff.mp hplace
      rw [apply_eq hplace]
      simp only [List.length_append, List.length_take, List.length_drop]
      omega

theorem apply_congr (h : a.leftOut elided = a.leftOut elided') :
    d.apply style elided a = d.apply style elided' a := by
  cases hput : d.place? a with
  | none => rw [apply_of_place?_eq_none hput, apply_of_place?_eq_none hput]
  | some place =>
      rw [apply_eq hput, apply_eq hput]
      simp only [Mark.put, Mark.putAs, Mark.span?, h]

theorem applyAll_congr {as : List Mark} (h : ∀ a ∈ as, a.leftOut elided = a.leftOut elided') :
    d.applyAll style elided as = d.applyAll style elided' as := by
  induction as generalizing d with
  | nil => rfl
  | cons a as ih =>
      obtain ⟨ha, has⟩ := List.forall_mem_cons.mp h
      show (d.apply style elided a).applyAll style elided as = _
      rw [apply_congr ha]
      exact ih has

/-! ## Marks that do not lie in the text -/

/-- A mark that does not lie in the text changes nothing, unless its start is made to lie in the
draft by what was put before. -/
theorem apply_of_not_liesIn {length : Nat} (hlength : d.drift + d.units.length = length)
    (hlies : ¬ a.LiesIn length) (hnonneg : d.drift = 0 ∨ 0 ≤ a.start.toInt) :
    d.apply style elided a = d := by
  apply apply_of_place?_eq_none
  rw [place?_eq_none_iff]
  rintro ⟨hstart, hle, hstop⟩
  exact hlies ⟨by omega, hle, by omega⟩

/-- Of marks in order, only those that lie in the text are applied. -/
theorem applyAll_filter_liesIn {length : Nat} {as : List Mark}
    (hlength : d.drift + d.units.length = length)
    (hsorted : as.Pairwise fun a b => a.start ≤ b.start)
    (hnonneg : d.drift = 0 ∨ ∀ a ∈ as, 0 ≤ a.start.toInt) :
    d.applyAll style elided as = d.applyAll style elided (as.filter (·.LiesIn length)) := by
  induction as generalizing d with
  | nil => rfl
  | cons a as ih =>
      obtain ⟨hfirst, hrest⟩ := List.pairwise_cons.mp hsorted
      by_cases hlies : a.LiesIn length
      · -- from now on the drift may be negative, but no mark begins before the text any more
        have hstarts : ∀ b ∈ as, 0 ≤ b.start.toInt := by
          intro b hb
          have hle := Int32.le_iff_toInt_le.mp (hfirst b hb)
          have := hlies.start_nonneg
          omega
        rw [List.filter_cons_of_pos (by simpa using hlies)]
        exact ih ((drift_add_length_apply style elided d a).trans hlength) hrest (Or.inr hstarts)
      · have hskip : d.apply style elided a = d := apply_of_not_liesIn hlength hlies
          (hnonneg.imp_right fun hall => hall a List.mem_cons_self)
        rw [List.filter_cons_of_neg (by simpa using hlies)]
        show (d.apply style elided a).applyAll style elided as = _
        rw [hskip]
        exact ih hlength hrest
          (hnonneg.imp_right fun hall b hb => hall b (List.mem_cons_of_mem _ hb))

/-! ## A draft on its way through the text -/

/-- The draft has come to a place of the text: it reads as what was written for the text before the
place, and then as the rest of the text. -/
structure Reaches (base written : List UInt16) (cursor : Nat) (d : Draft) : Prop where
  units_eq : d.units = written ++ base.drop cursor
  drift_eq : d.drift = cursor - written.length
  cursor_le : cursor ≤ base.length

theorem reaches_start (base : List UInt16) (spans : List Span) :
    Reaches base [] 0 ⟨base, 0, spans⟩ := ⟨rfl, rfl, Nat.zero_le _⟩

namespace Reaches

theorem place?_of_le (h : d.Reaches base written cursor) (hlies : a.LiesIn base.length)
    (hle : cursor ≤ a.first) : d.place? a = some (written.length + (a.first - cursor),
      written.length + (a.past - cursor)) := by
  have hfirst := hlies.first_eq
  have hpast := hlies.past_eq
  have hlt := hlies.first_le_past
  have hlen := hlies.past_le
  rw [place?_eq_some_iff, h.drift_eq, h.units_eq, List.length_append, List.length_drop]
  omega

theorem apply_of_le (style : LinkStyle) (elided : Option Mark)
    (h : d.Reaches base written cursor) (hlies : a.LiesIn base.length)
    (hle : cursor ≤ a.first) :
    (d.apply style elided a).Reaches base
        (written ++ base.extract cursor a.first ++
          a.put (Mark.leftOut elided) (base.extract a.first a.past)) a.past ∧
      (d.apply style elided a).spans = d.spans ++ (a.span? style (Mark.leftOut elided)
        (written.length + (base.extract cursor a.first).length)).toList := by
  have hlen := hlies.past_le
  have hplace := h.place?_of_le hlies hle
  have hgap : (base.extract cursor a.first).length = a.first - cursor := by
    have := hlies.first_le_past
    simp
    omega
  rw [apply_eq hplace, h.units_eq, extract_written_append written hle,
    splice_written_append written _ hle hlies.first_le_past, hgap]
  refine ⟨⟨rfl, ?_, hlen⟩, rfl⟩
  have := hlies.first_le_past
  simp only [h.drift_eq, List.length_append, hgap]
  omega

/-! ## All marks -/

/-- **Applying marks is cutting the text.** Marks that lie in the text and stand one after the other
have their units put in place. -/
theorem applyAll {as : List Mark} (h : d.Reaches base written cursor)
    (hlies : ∀ a ∈ as, a.LiesIn base.length) (hapart : as.Pairwise fun a b => a.stop ≤ b.start)
    (hpast : ∀ a ∈ as, cursor ≤ a.first) :
    (d.applyAll style elided as).units =
        written ++ Part.units (Mark.leftOut elided) (Part.cut base cursor as) ∧
      (d.applyAll style elided as).spans = d.spans ++
        Part.spansFrom style (Mark.leftOut elided) written.length (Part.cut base cursor as) := by
  induction as generalizing d written cursor with
  | nil => simp [Draft.applyAll, Part.units, Part.cut, Part.put, Part.spansFrom, h.units_eq]
  | cons a as ih =>
      obtain ⟨hliesa, hlies⟩ := List.forall_mem_cons.mp hlies
      obtain ⟨hfirst, hapart⟩ := List.pairwise_cons.mp hapart
      obtain ⟨hreach, hspans⟩ :=
        h.apply_of_le style elided hliesa (hpast a List.mem_cons_self)
      have hbehind : ∀ b ∈ as, a.past ≤ b.first := by
        intro b hb
        have hle := Int32.le_iff_toInt_le.mp (hfirst b hb)
        rw [← hliesa.past_eq, ← (hlies b hb).first_eq] at hle
        omega
      obtain ⟨hunits, hrest⟩ := ih hreach hlies hapart hbehind
      have hstep : d.applyAll style elided (a :: as) =
          (d.apply style elided a).applyAll style elided as := rfl
      rw [hstep, hunits, hrest, hspans]
      simp [Part.cut, Part.units, Part.put, Part.spansFrom, Nat.add_assoc]

end Reaches

theorem applyAll_of_behind (style : LinkStyle) (elided : Option Mark) {base : List UInt16}
    {as : List Mark} (hlies : ∀ a ∈ as, a.LiesIn base.length)
    (hbehind : as.Pairwise fun a b => a.stop ≤ b.start) :
    (applyAll style elided ⟨base, 0, []⟩ as).units =
        Part.units (Mark.leftOut elided) (Part.cut base 0 as) ∧
      (applyAll style elided ⟨base, 0, []⟩ as).spans =
        Part.spansFrom style (Mark.leftOut elided) 0 (Part.cut base 0 as) :=
  (reaches_start base []).applyAll hlies hbehind fun _ _ => Nat.zero_le _

end Draft

/-! ## Marks in order

Marks are applied in place, one after another, to a draft that changes under them. As long as they
come by their starts and those that lie in the text stand one after the other, this is the same as
cutting the text at those marks once and putting the parts together again, with one span over each
display text. Marks that do not lie in the text are as if they were not there
(`applyAll_eq_cut`). -/

/-! ### Spans over display texts -/

/-- A span over the whole display text of a mark. -/
structure Span.Shows (style : LinkStyle) (units : List UInt16) (a : Mark) (s : Span) : Prop where
  url_eq : s.url = a.url
  style_eq : s.style = style
  units_eq : units.extract s.start s.stop = Utf16.ofString a.display
  nonempty : s.start < s.stop
  stop_le : s.stop ≤ units.length

namespace Part

variable {style : LinkStyle} {out : Mark → Bool}

theorem forall₂_shows_spansFrom (base written : List UInt16) (cursor : Nat) (as : List Mark) :
    List.Forall₂ (Span.Shows style (written ++ units out (cut base cursor as)))
      (as.filter fun a => ¬ out a ∧ a.display ≠ "")
      (spansFrom style out written.length (cut base cursor as)) := by
  induction as generalizing written cursor with
  | nil => exact List.Forall₂.nil
  | cons a as ih =>
      let gap := base.extract cursor a.first
      let own := a.put out (base.extract a.first a.past)
      have hunits : written ++ units out (cut base cursor (a :: as)) =
          (written ++ gap ++ own) ++ units out (cut base a.past as) := by
        simp [cut, units, put, gap, own]
      have hspans : spansFrom style out written.length (cut base cursor (a :: as)) =
          (a.span? style out (written ++ gap).length).toList ++
            spansFrom style out (written ++ gap ++ own).length (cut base a.past as) := by
        simp only [cut, spansFrom, List.length_append, gap, own]
      rw [hunits, hspans]
      have ih := ih (written ++ gap ++ own) a.past
      by_cases hkeeps : ¬ out a ∧ a.display ≠ ""
      · have hown : own = Utf16.ofString a.display := Mark.put_of_display_ne hkeeps.1 hkeeps.2
        rw [List.filter_cons_of_pos (by simpa using hkeeps),
          Mark.span?_of_display_ne hkeeps.1 hkeeps.2]
        refine List.Forall₂.cons ⟨rfl, rfl, ?_, ?_, ?_⟩ ih
        · rw [List.extract_eq_take_drop, Nat.add_sub_cancel_left, List.append_assoc,
            List.drop_left, hown, List.take_left]
        · have hpos : Utf16.ofString a.display ≠ [] :=
            fun h => hkeeps.2 (Utf16.ofString_eq_nil.mp h)
          exact Nat.lt_add_of_pos_right (List.length_pos_iff.mpr hpos)
        · rw [← hown]
          simp only [List.length_append]
          omega
      · have hnone : a.span? style out (written ++ gap).length = none := by
          rw [Mark.span?, if_pos]
          by_cases hleft : out a
          · exact Or.inl hleft
          · exact Or.inr (by simpa [hleft] using hkeeps)
        rw [List.filter_cons_of_neg (by simpa using hkeeps), hnone]
        exact ih

theorem bounds_of_mem_spansFrom {position : Nat} {parts : List (Part UInt16)} {s : Span}
    (h : s ∈ spansFrom style out position parts) :
    position ≤ s.start ∧ s.start < s.stop ∧ s.stop ≤ position + (units out parts).length := by
  induction parts generalizing position with
  | nil => cases h
  | cons part parts ih =>
      have hlength : (units out (part :: parts)).length =
          (part.put out).length + (units out parts).length := by
        rw [units, List.flatMap_cons, List.length_append, units]
      rw [hlength]
      cases part with
      | between l =>
          have := ih h
          simp only [put] at this ⊢
          omega
      | under a l =>
          simp only [put]
          rcases List.mem_append.mp h with h | h
          · obtain ⟨hout, hdisplay, rfl⟩ := Mark.mem_span?_toList_iff.mp h
            have hpos := List.length_pos_iff.mpr fun h => hdisplay (Utf16.ofString_eq_nil.mp h)
            rw [Mark.put_of_display_ne hout hdisplay]
            dsimp only
            omega
          · have := ih h
            omega

theorem pairwise_spansFrom (position : Nat) (parts : List (Part UInt16)) :
    (spansFrom style out position parts).Pairwise fun s s' => s.stop ≤ s'.start := by
  induction parts generalizing position with
  | nil => exact List.Pairwise.nil
  | cons part parts ih =>
      cases part with
      | between l => exact ih _
      | under a l =>
          refine List.pairwise_append.mpr ⟨?_, ih _, ?_⟩
          · cases a.span? style out position <;> simp
          · intro s hs s' hs'
            have hle := (bounds_of_mem_spansFrom hs').1
            obtain ⟨hout, hdisplay, rfl⟩ := Mark.mem_span?_toList_iff.mp hs
            rw [Mark.put_of_display_ne hout hdisplay] at hle
            exact hle

end Part

/-! ### Marks left out -/

namespace Part

variable {out out' : Mark → Bool}

/-- What is put for the parts of a text and the spans over it only hang on which of its marks are
left out. -/
theorem cut_congr (style : LinkStyle) (base : List UInt16) {as : List Mark}
    (h : ∀ a ∈ as, out a = out' a) (cursor position : Nat) :
    units out (cut base cursor as) = units out' (cut base cursor as) ∧
      spansFrom style out position (cut base cursor as) =
        spansFrom style out' position (cut base cursor as) := by
  induction as generalizing cursor position with
  | nil => exact ⟨rfl, rfl⟩
  | cons a as ih =>
      obtain ⟨hout, hrest⟩ := List.forall_mem_cons.mp h
      have hput : ∀ own, a.put out own = a.put out' own := by
        intro own
        rw [Mark.put, Mark.put, Mark.putAs, Mark.putAs, hout]
      have hspan : ∀ position, a.span? style out position = a.span? style out' position := by
        intro position
        rw [Mark.span?, Mark.span?, hout]
      obtain ⟨hunits, -⟩ := ih hrest a.past 0
      constructor
      · simp only [units, cut, List.flatMap_cons, put, hput] at hunits ⊢
        rw [hunits]
      · simp only [cut, spansFrom, hput, hspan]
        rw [(ih hrest a.past _).2]

end Part

namespace Mark

theorem pairwise_of_isChain {length : Nat} {as : List Mark} (hlies : ∀ a ∈ as, a.LiesIn length)
    (h : as.IsChain fun a b => a.stop ≤ b.start) : as.Pairwise fun a b => a.stop ≤ b.start := by
  induction as with
  | nil => exact List.Pairwise.nil
  | cons a as ih =>
      obtain ⟨-, hlies⟩ := List.forall_mem_cons.mp hlies
      refine List.pairwise_cons.mpr ⟨?_, ih hlies h.tail⟩
      cases as with
      | nil => simp
      | cons b as =>
          obtain ⟨hab, htail⟩ := List.isChain_cons_cons.mp h
          have hb := (hlies b List.mem_cons_self).start_le_stop
          have hbehind := (List.pairwise_cons.mp (ih hlies htail)).1
          intro c hc
          rcases List.mem_cons.mp hc with rfl | hc
          · exact hab
          · have hbc := hbehind c hc
            rw [Int32.le_iff_toInt_le] at hab hbc ⊢
            omega

theorem leftOut_iff {elided : Option Mark} {a : Mark}
    (h : ∀ e, elided = some e → a.start = e.start → a = e) :
    a.leftOut elided ↔ elided = some a := by
  constructor
  · intro hleft
    obtain ⟨e, he, hstart⟩ := (Option.any_eq_true _ _).mp hleft
    rw [he, h e he (beq_iff_eq.mp hstart).symm]
  · rintro rfl
    simp [leftOut]

end Mark

/-! ### Applying marks in order -/

namespace Draft

/-- **Applying marks in place is cutting the text once**, at those of the marks that lie in it. Each
part between them stays, nothing is put for the mark to leave out, and for any other its display
text or, without one, what was there. One span lies over each display text, where that stands after
all that is put for the parts before. -/
theorem applyAll_eq_cut (style : LinkStyle) (elided : Option Mark) (base : List UInt16)
    (as : List Mark) (hsorted : as.Pairwise fun a b => a.start ≤ b.start)
    (hbehind : (as.filter (·.LiesIn base.length)).IsChain fun a b => a.stop ≤ b.start)
    (helided : ∀ e, elided = some e →
      ∀ a ∈ as, a.LiesIn base.length → a.start = e.start → a = e) :
    let placed := as.filter (·.LiesIn base.length)
    let out := fun a => decide (elided = some a)
    let d := applyAll style elided ⟨base, 0, []⟩ as
    d = applyAll style elided ⟨base, 0, []⟩ placed ∧
      d.units = Part.units out (Part.cut base 0 placed) ∧
      d.spans = Part.spansFrom style out 0 (Part.cut base 0 placed) ∧
      List.Forall₂ (Span.Shows style d.units) (placed.filter fun a => ¬ out a ∧ a.display ≠ "")
        d.spans := by
  intro placed out d
  have hlies : ∀ a ∈ placed, a.LiesIn base.length :=
    fun a ha => by simpa using (List.mem_filter.mp ha).2
  have hplaced : d = applyAll style elided ⟨base, 0, []⟩ placed :=
    applyAll_filter_liesIn (Int.zero_add _) hsorted (Or.inl rfl)
  have hout : ∀ a ∈ placed, a.leftOut elided = out a := by
    intro a ha
    rw [Bool.eq_iff_iff, decide_eq_true_iff]
    exact Mark.leftOut_iff fun e he => helided e he a (List.mem_filter.mp ha).1 (hlies a ha)
  have hcut : d.units = Part.units (Mark.leftOut elided) (Part.cut base 0 placed) ∧
      d.spans = Part.spansFrom style (Mark.leftOut elided) 0 (Part.cut base 0 placed) := by
    rw [hplaced]
    exact (reaches_start base []).applyAll hlies (Mark.pairwise_of_isChain hlies hbehind)
      fun _ _ => Nat.zero_le _
  obtain ⟨hunits, hspans⟩ := hcut
  rw [(Part.cut_congr style base hout 0 0).1] at hunits
  rw [(Part.cut_congr style base hout 0 0).2] at hspans
  refine ⟨hplaced, hunits, hspans, ?_⟩
  rw [hunits, hspans]
  exact Part.forall₂_shows_spansFrom base [] 0 placed

def endPhoto : Mark := ⟨10, 16, .media "photo", "pic", "t.co/2", none⟩

/-- Marks on a text of 16 units: a word that stays, one put between two units, a link that becomes
longer, and the photo; and three that do not lie in the text, one of them only reversed. -/
def strayMarks : List Mark := [
  ⟨-1, 2, .link, "no", "no", none⟩,
  ⟨0, 2, .hashtag, "", "go", none⟩,
  ⟨2, 2, .mention, "!", "me", none⟩,
  ⟨3, 9, .link, "example.com", "t.co/1", none⟩,
  ⟨4, 1, .link, "no", "no", none⟩,
  endPhoto,
  ⟨12, 17, .link, "no", "no", none⟩]

theorem applyAll_strayMarks :
    (strayMarks.Pairwise fun a b => a.start ≤ b.start) ∧
      ((strayMarks.filter (·.LiesIn 16)).IsChain fun a b => a.stop ≤ b.start) ∧
      (∀ e, some endPhoto = some e →
        ∀ a ∈ strayMarks, a.LiesIn 16 → a.start = e.start → a = e) ∧
      (applyAll {} (some endPhoto) ⟨Utf16.ofString "go t.co/1 t.co/2", 0, []⟩ strayMarks).units =
        Utf16.ofString "go! example.com " ∧
      (applyAll {} (some endPhoto) ⟨Utf16.ofString "go t.co/1 t.co/2", 0, []⟩ strayMarks).spans =
        [⟨2, 3, "me", {}, false⟩, ⟨4, 15, "t.co/1", {}, false⟩] := by
  have hsorted : strayMarks.Pairwise fun a b => a.start ≤ b.start := by decide
  have hbehind : (strayMarks.filter (·.LiesIn 16)).IsChain fun a b => a.stop ≤ b.start := by
    decide
  have helided : ∀ e, some endPhoto = some e →
      ∀ a ∈ strayMarks, a.LiesIn 16 → a.start = e.start → a = e := by
    rintro e ⟨⟩
    decide
  obtain ⟨-, hunits, hspans, -⟩ := applyAll_eq_cut {} (some endPhoto)
    (Utf16.ofString "go t.co/1 t.co/2") strayMarks hsorted hbehind helided
  refine ⟨hsorted, hbehind, helided, ?_, ?_⟩
  · rw [hunits]
    decide +kernel
  · rw [hspans]
    decide +kernel

end Draft
end TweetText
