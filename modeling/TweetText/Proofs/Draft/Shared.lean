import Mathlib.Data.List.Pairwise
import TweetText.Proofs.Draft.Origins

/-!
# Texts between shared ranges

Of marks on one range the first has its display text put there. Each further one takes as many units
as the range is long from the end of what was put, or of the text before where less was put than
that. So the text between the ranges is kept just if every further mark on a range finds enough
units put there (`draft_keepsText_iff`), which two photos on the range of a trailing link do not
(`photos`).
-/

namespace TweetText

variable {α : Type}

/-! ## The text between ranges -/

/-- A list is made of the parts between marks, in order and unchanged, with something in the place
of each part under one. -/
inductive Interleaves : List (Part α) → List α → Prop
  | nil : Interleaves [] []
  | between {parts : List (Part α)} {rest : List α} (l : List α) (h : Interleaves parts rest) :
      Interleaves (.between l :: parts) (l ++ rest)
  | under {parts : List (Part α)} {rest : List α} (a : Mark) (l put : List α)
      (h : Interleaves parts rest) : Interleaves (.under a l :: parts) (put ++ rest)

theorem Interleaves.mem {parts : List (Part α)} {l : List α} (h : Interleaves parts l) {x : α}
    {part : List α} (hpart : .between part ∈ parts) (hx : x ∈ part) : x ∈ l := by
  induction h with
  | nil => cases hpart
  | between l h ih =>
      rw [List.mem_append]
      rcases List.mem_cons.mp hpart with heq | hpart
      · cases heq
        exact Or.inl hx
      · exact Or.inr (ih hpart)
  | under a l put h ih =>
      rcases List.mem_cons.mp hpart with heq | hpart
      · cases heq
      · exact List.mem_append_right _ (ih hpart)

theorem Part.exists_between_of_outside {base : List α} {cursor i : Nat} {as : List Mark} {x : α}
    (hx : base[i]? = some x) (hi : cursor ≤ i) (hall : ∀ a ∈ as, i < a.first ∨ a.past ≤ i) :
    ∃ part, .between part ∈ cut base cursor (Mark.heads cursor as) ∧ x ∈ part := by
  have hdrop : ∀ place, place ≤ i → (base.drop place)[i - place]? = some x := by
    intro place hplace
    rw [List.getElem?_drop, Nat.add_sub_cancel' hplace, hx]
  induction as generalizing cursor with
  | nil => exact ⟨_, List.mem_singleton.mpr rfl, List.mem_of_getElem? (hdrop cursor hi)⟩
  | cons a as ih =>
      rw [List.forall_mem_cons] at hall
      rw [Mark.heads]
      split
      · rcases hall.1 with hlt | hpast
        · refine ⟨base.extract cursor a.first, List.mem_cons_self, ?_⟩
          apply List.mem_of_getElem? (i := i - cursor)
          rw [List.extract_eq_take_drop, List.getElem?_take_of_lt (by omega), hdrop cursor hi]
        · obtain ⟨part, hpart, hmem⟩ := ih hpast hall.2
          exact ⟨part, List.mem_cons_of_mem _ (List.mem_cons_of_mem _ hpart), hmem⟩
      · exact ih hi hall.2

/-- What marks are to do to a text: the text between their ranges stays in order, each unit of it is
still there by its origin, and no two ranges are left out. -/
structure KeepsText (base : List UInt16) (as : List Mark) (elided : Option Mark)
    (units : List UInt16) (origins : List (Option Nat)) : Prop where
  interleaves : ∃ ranges, Mark.OneEach as ranges ∧ Interleaves (Part.cut base 0 ranges) units
  truthful : Draft.Truthful base units origins
  kept : ∀ i < base.length, (∀ a ∈ as, i < a.first ∨ a.past ≤ i) → some i ∈ origins
  elides_one : ∀ a ∈ as, ∀ b ∈ as, a.leftOut elided → b.leftOut elided → a.SameRange b

/-! ## Enough room -/

namespace Mark

def putLength (out : Mark → Bool) (a : Mark) : Nat :=
  if out a then 0 else if a.display = "" then a.past - a.first
  else (Utf16.ofString a.display).length

theorem length_putAs {out : Mark → Bool} {a : Mark} {shown own : List α}
    (hshown : shown.length = (Utf16.ofString a.display).length)
    (hown : own.length = a.past - a.first) : (a.putAs out shown own).length = a.putLength out := by
  unfold putAs putLength
  split
  · rfl
  · split
    · exact hown
    · exact hshown

/-- Whether every mark that does not begin behind the ones before it and changes something finds as
much as it takes among what was put since the text before its range. Given are how much was written,
how much of it was put since the text before, and the place. A mark that does not even find as
much as it takes in all that was written is skipped. -/
def roomy (out : Mark → Bool) (written since cursor : Nat) : List Mark → Bool
  | [] => true
  | a :: as =>
    if cursor ≤ a.first then
      roomy out (written + (a.first - cursor) + a.putLength out)
        (if cursor < a.first then a.putLength out else since + a.putLength out) a.past as
    else if a.changes out ∧ a.past - a.first ≤ written then
      a.past - a.first ≤ since &&
        roomy out (written - (a.past - a.first) + a.putLength out)
          (since - (a.past - a.first) + a.putLength out) cursor as
    else roomy out written since cursor as

end Mark

/-- What was written for the part of a list before a place, split before what was put since the text
before the last range. -/
structure Split (α : Type) where
  kept : List α
  put : List α
  cursor : Nat

namespace Split

variable {out : Mark → Bool} {shown : Mark → List α} {base : List α} {p p' : Split α} {a : Mark}
  {as : List Mark}

def progress (p : Split α) : Progress α := ⟨p.kept ++ p.put, p.cursor⟩

def roomy (out : Mark → Bool) (p : Split α) (as : List Mark) : Bool :=
  Mark.roomy out (p.kept ++ p.put).length p.put.length p.cursor as

/-- A mark that finds enough room: behind some text, right behind the last range, or on the last
range, where it may also change nothing. -/
inductive Step (out : Mark → Bool) (shown : Mark → List α) (base : List α) (a : Mark) :
    Split α → Split α → Prop
  | behind {p : Split α} (hlt : p.cursor < a.first) : Step out shown base a p
      ⟨p.kept ++ p.put ++ base.extract p.cursor a.first,
        a.putAs out (shown a) (base.extract a.first a.past), a.past⟩
  | beside {p : Split α} (heq : p.cursor = a.first) : Step out shown base a p
      ⟨p.kept, p.put ++ a.putAs out (shown a) (base.extract a.first a.past), a.past⟩
  | onto {p : Split α} (hlt : a.first < p.cursor) (hchanges : a.changes out)
      (hle : a.past - a.first ≤ p.put.length) : Step out shown base a p
      ⟨p.kept, p.put.take (p.put.length - (a.past - a.first)) ++
        a.putAs out (shown a) (p.put.drop (p.put.length - (a.past - a.first))), p.cursor⟩
  | skip {p : Split α} (hlt : a.first < p.cursor)
      (hnot : ¬ (a.changes out ∧ a.past - a.first ≤ (p.kept ++ p.put).length)) :
      Step out shown base a p p

/-- A mark on the last range that takes more than was put since the text before it. -/
structure Overreaches (out : Mark → Bool) (a : Mark) (p : Split α) : Prop where
  lt : a.first < p.cursor
  changes : a.changes out
  put_lt : p.put.length < a.past - a.first
  le_length : a.past - a.first ≤ (p.kept ++ p.put).length

theorem extract_eq_nil (base : List α) (heq : p.cursor = a.first) :
    base.extract p.cursor a.first = [] := by
  rw [heq, List.extract_eq_take_drop, Nat.sub_self, List.take_zero]

theorem Step.progress_eq (h : Step out shown base a p p') :
    p.progress.step out shown base a = p'.progress := by
  cases h with
  | behind hlt => exact Progress.step_of_le (p := p.progress) (Nat.le_of_lt hlt)
  | beside heq =>
      rw [Progress.step_of_le (p := p.progress) (Nat.le_of_eq heq)]
      simp only [progress, extract_eq_nil base heq, List.append_nil, List.append_assoc]
  | onto hlt hchanges hle =>
      have hsub : (p.kept ++ p.put).length - (a.past - a.first) =
          p.kept.length + (p.put.length - (a.past - a.first)) := by
        rw [List.length_append, Nat.add_sub_assoc hle]
      have hwidth : a.past - a.first ≤ p.progress.written.length := by
        rw [progress, List.length_append]
        omega
      rw [Progress.step_of_changes (p := p.progress) (Nat.not_le.mpr hlt) hwidth]
      simp only [progress, hsub, List.take_length_add_append, List.drop_length_add_append,
        List.append_assoc]
  | skip hlt hnot => exact Progress.step_of_not (p := p.progress) (Nat.not_le.mpr hlt) hnot

theorem Step.cursor_of_le (h : Step out shown base a p p') (hle : p.cursor ≤ a.first) :
    p'.cursor = a.past := by
  cases h with
  | behind | beside => rfl
  | onto hlt | skip hlt => omega

theorem Step.cursor_of_lt (h : Step out shown base a p p') (hlt : a.first < p.cursor) :
    p'.cursor = p.cursor := by
  cases h with
  | behind | beside => omega
  | onto | skip => rfl

theorem step_or_overreaches (out : Mark → Bool) (shown : Mark → List α) (base : List α)
    (p : Split α) (as : List Mark) (hle : a.first ≤ a.past)
    (hlen : a.past ≤ base.length)
    (hshown : (shown a).length = (Utf16.ofString a.display).length) :
    (∃ p', Step out shown base a p p' ∧ p.roomy out (a :: as) = p'.roomy out as) ∨
      p.Overreaches out a ∧ p.roomy out (a :: as) = false := by
  have hown : (a.putAs out (shown a) (base.extract a.first a.past)).length = a.putLength out := by
    apply Mark.length_putAs hshown
    simp
    omega
  have hgap : (base.extract p.cursor a.first).length = a.first - p.cursor := by
    simp
    omega
  rcases Nat.lt_trichotomy p.cursor a.first with hlt | heq | hlt
  · refine Or.inl ⟨_, .behind hlt, ?_⟩
    simp only [roomy, Mark.roomy, if_pos (Nat.le_of_lt hlt), if_pos hlt, List.length_append, hown,
      hgap]
  · refine Or.inl ⟨_, .beside heq, ?_⟩
    simp only [roomy, Mark.roomy, heq, Nat.le_refl, if_true, Nat.lt_irrefl, if_false,
      List.length_append, hown, Nat.sub_self, Nat.add_zero, Nat.add_assoc]
  · have hnot := Nat.not_le.mpr hlt
    by_cases hchanges : a.changes out ∧ a.past - a.first ≤ (p.kept ++ p.put).length
    · by_cases hput : a.past - a.first ≤ p.put.length
      · refine Or.inl ⟨_, .onto hlt hchanges.1 hput, ?_⟩
        have hown : (a.putAs out (shown a)
            (p.put.drop (p.put.length - (a.past - a.first)))).length = a.putLength out := by
          apply Mark.length_putAs hshown
          rw [List.length_drop]
          omega
        have hsub : p.kept.length + p.put.length - (a.past - a.first) + a.putLength out =
            p.kept.length + (p.put.length - (a.past - a.first) + a.putLength out) := by
          omega
        have hchanges' := hchanges.2
        rw [List.length_append] at hchanges'
        simp only [roomy, Mark.roomy, if_neg hnot, hchanges.1, hchanges', true_and, if_true, hput,
          decide_true, Bool.true_and, List.length_append, List.length_take, hown, hsub,
          Nat.min_eq_left (Nat.sub_le _ _)]
      · refine Or.inr ⟨⟨hlt, hchanges.1, Nat.not_le.mp hput, hchanges.2⟩, ?_⟩
        rw [roomy, Mark.roomy, if_neg hnot, if_pos hchanges, decide_eq_false hput, Bool.false_and]
    · refine Or.inl ⟨p, .skip hlt hchanges, ?_⟩
      simp only [roomy, Mark.roomy, if_neg hnot, if_neg hchanges]

/-- **Enough room keeps the text.** The text written so far ends in what was put since the text
before the last range, and only that is changed by what comes. -/
theorem interleaves_of_roomy (base : List α) (shown : Mark → List α)
    (hbounds : ∀ a ∈ as, a.first < a.past ∧ a.past ≤ base.length)
    (hshown : ∀ a, (shown a).length = (Utf16.ofString a.display).length) (p : Split α)
    (hroomy : p.roomy out as) :
    ∃ put' rest, (p.progress.steps out shown base as).reads base = p.kept ++ put' ++ rest ∧
      (p.put = [] → put' = []) ∧
        Interleaves (Part.cut base p.cursor (Mark.heads p.cursor as)) rest := by
  induction as generalizing p with
  | nil =>
      have hinter := Interleaves.between (base.drop p.cursor) Interleaves.nil
      rw [List.append_nil] at hinter
      exact ⟨p.put, base.drop p.cursor, rfl, id, hinter⟩
  | cons a as ih =>
      rw [List.forall_mem_cons] at hbounds
      rcases step_or_overreaches out shown base p as (Nat.le_of_lt hbounds.1.1) hbounds.1.2
        (hshown a) with ⟨p', hstep, hsame⟩ | ⟨-, hfalse⟩
      · rw [hsame] at hroomy
        obtain ⟨put', rest, hreads, hput, hinter⟩ := ih hbounds.2 p' hroomy
        rw [Progress.steps_cons, hstep.progress_eq, hreads, Mark.heads]
        cases hstep with
        | behind hlt =>
            rw [if_pos (Nat.le_of_lt hlt)]
            refine ⟨p.put, base.extract p.cursor a.first ++ (put' ++ rest), ?_, id,
              Interleaves.between _ (Interleaves.under a _ put' hinter)⟩
            simp only [List.append_assoc]
        | beside heq =>
            have hnil := extract_eq_nil base heq
            rw [if_pos (Nat.le_of_eq heq)]
            by_cases hnone : p.put = []
            · refine ⟨[], base.extract p.cursor a.first ++ (put' ++ rest), ?_, fun _ => rfl,
                Interleaves.between _ (Interleaves.under a _ put' hinter)⟩
              simp [hnil]
            · refine ⟨put', base.extract p.cursor a.first ++ ([] ++ rest), ?_,
                fun h => absurd h hnone,
                Interleaves.between _ (Interleaves.under a _ [] hinter)⟩
              simp [hnil]
        | onto hlt hchanges hle =>
            rw [if_neg (Nat.not_le.mpr hlt)]
            refine ⟨put', rest, rfl, fun h => ?_, hinter⟩
            rw [h, List.length_nil] at hle
            omega
        | skip hlt hnot =>
            rw [if_neg (Nat.not_le.mpr hlt)]
            exact ⟨put', rest, rfl, hput, hinter⟩
      · rw [hfalse] at hroomy
        cases hroomy

/-! ## What is lost without it -/

/-- The units written come from before the place, and those before what was put end in one that no
mark takes. -/
structure Ends (outside : Nat → Prop) (p : Split (Option Nat)) : Prop where
  below : ∀ i, some i ∈ p.kept ++ p.put → i < p.cursor
  last : p.kept = [] ∨
    ∃ before i, p.kept = before ++ [some i] ∧ some i ∉ before ∧ some i ∉ p.put ∧ outside i

section

variable {outside : Nat → Prop} {p p' : Split (Option Nat)} {length : Nat}

theorem origins_step_or_overreaches (p : Split (Option Nat)) (as : List Mark)
    (hlies : a.LiesIn length) :
    (∃ p', Step out Mark.noOrigins (Draft.ownOrigins length) a p p' ∧
        p.roomy out (a :: as) = p'.roomy out as) ∨
      p.Overreaches out a ∧ p.roomy out (a :: as) = false := by
  apply step_or_overreaches out Mark.noOrigins _ p as hlies.first_le_past _ List.length_replicate
  rw [Draft.length_ownOrigins]
  exact hlies.past_le

theorem Ends.step (h : Ends outside p) (hlies : a.LiesIn length) (hne : a.first < a.past)
    (hlast : p.cursor < a.first → outside (a.first - 1))
    (hstep : Step out Mark.noOrigins (Draft.ownOrigins length) a p p') : Ends outside p' := by
  have hown : ∀ i, some i ∈ a.putAs out a.noOrigins
      ((Draft.ownOrigins length).extract a.first a.past) → a.first ≤ i ∧ i < a.past :=
    fun i hi => Draft.of_mem_extract_ownOrigins (Mark.some_mem_putAs hi)
  have hlen := hlies.past_le
  cases hstep with
  | behind hlt =>
      constructor
      · intro i hi
        rcases List.mem_append.mp hi with hi | hi
        · rcases List.mem_append.mp hi with hi | hi
          · have := h.below i hi
            simp only
            omega
          · have := Draft.of_mem_extract_ownOrigins hi
            simp only
            omega
        · exact (hown i hi).2
      · right
        obtain ⟨i, hi⟩ : ∃ i, a.first = i + 1 := ⟨a.first - 1, by omega⟩
        refine ⟨p.kept ++ p.put ++ (Draft.ownOrigins length).extract p.cursor i, i, ?_, ?_, ?_, ?_⟩
        · rw [List.append_assoc _ _ [some i],
            ← Draft.extract_ownOrigins_succ (by omega) (by omega), ← hi]
        · intro hmem
          rcases List.mem_append.mp hmem with hmem | hmem
          · have := h.below i hmem
            omega
          · have := Draft.of_mem_extract_ownOrigins hmem
            omega
        · intro hmem
          have := hown i hmem
          omega
        · have := hlast hlt
          rwa [hi] at this
  | beside heq =>
      constructor
      · intro i hi
        rw [← List.append_assoc] at hi
        rcases List.mem_append.mp hi with hi | hi
        · have := h.below i hi
          simp only
          omega
        · exact (hown i hi).2
      · refine h.last.imp_right fun ⟨before, i, hbefore, hnot, hput, hout⟩ =>
          ⟨before, i, hbefore, hnot, fun hi => ?_, hout⟩
        rcases List.mem_append.mp hi with hi | hi
        · exact hput hi
        · have := h.below i (by simp [hbefore])
          have := hown i hi
          omega
  | onto hlt hchanges hle =>
      have hnone := Mark.not_some_mem_putAs hchanges
        (p.put.drop (p.put.length - (a.past - a.first)))
      constructor
      · intro i hi
        apply h.below i
        simp only [List.mem_append] at hi ⊢
        rcases hi with hi | hi | hi
        · exact Or.inl hi
        · exact Or.inr (List.mem_of_mem_take hi)
        · exact absurd hi (hnone i)
      · refine h.last.imp_right fun ⟨before, i, hbefore, hnot, hput, hout⟩ =>
          ⟨before, i, hbefore, hnot, fun hi => ?_, hout⟩
        rcases List.mem_append.mp hi with hi | hi
        · exact hput (List.mem_of_mem_take hi)
        · exact hnone i hi
  | skip hlt hnot => exact h

theorem Ends.lost (length : Nat) (h : Ends outside p) (hover : p.Overreaches out a) :
    ∃ i, outside i ∧ some i ∉ (p.progress.step out Mark.noOrigins (Draft.ownOrigins length) a).reads
      (Draft.ownOrigins length) := by
  obtain ⟨hlt, hchanges, hput, hle⟩ := hover
  rw [Progress.step_of_changes (p := p.progress) (Nat.not_le.mpr hlt) hle]
  rcases h.last with hnil | ⟨before, i, hbefore, hnot, hnotput, hout⟩
  · rw [hnil, List.nil_append] at hle
    omega
  · refine ⟨i, hout, fun hi => ?_⟩
    simp only [Progress.reads, progress, List.mem_append] at hi
    rcases hi with (hi | hi) | hi
    · have hshort : (p.kept ++ p.put).length - (a.past - a.first) ≤ before.length := by
        simp only [hbefore, List.length_append, List.length_singleton]
        omega
      rw [hbefore, List.append_assoc] at hi hshort
      rw [List.take_append_of_le_length hshort] at hi
      exact hnot (List.mem_of_mem_take hi)
    · exact Mark.not_some_mem_putAs hchanges _ i hi
    · have := Draft.of_mem_drop_ownOrigins hi
      have := h.below i (by simp [hbefore])
      omega

/-- **Too little room loses text.** The first mark that reaches over what was put since the text
before its range takes the end of that text away, and it never comes back. -/
theorem lost_of_not_roomy {first cursor : Nat} (outside : Nat → Prop)
    (hq : Mark.Queue length first cursor as) (hcursor : p.cursor = cursor) (hends : Ends outside p)
    (houtside : ∀ i, cursor ≤ i → i < length → (∀ b ∈ as, i < b.first ∨ b.past ≤ i) → outside i)
    (hroomy : p.roomy out as = false) :
    ∃ i, outside i ∧ some i ∉ (p.progress.steps out Mark.noOrigins (Draft.ownOrigins length)
      as).reads (Draft.ownOrigins length) := by
  induction hq generalizing p with
  | nil => cases hroomy
  | @next first cursor a as hlies hne hle rest ih =>
      subst hcursor
      rcases origins_step_or_overreaches p as hlies with ⟨p', hstep, hsame⟩ | ⟨hover, -⟩
      · have hlast : p.cursor < a.first → outside (a.first - 1) := by
          intro hlt
          have hlen := hlies.past_le
          apply houtside _ (by omega) (by omega)
          rw [List.forall_mem_cons]
          refine ⟨Or.inl (by omega), fun b hb => Or.inl ?_⟩
          have := rest.le_first (Nat.le_of_lt hne) b hb
          omega
        rw [hsame] at hroomy
        rw [Progress.steps_cons, hstep.progress_eq]
        refine ih (hstep.cursor_of_le hle) (hends.step hlies hne hlast hstep) ?_ hroomy
        intro i hi hilen hall
        refine houtside i (by omega) hilen ?_
        rw [List.forall_mem_cons]
        exact ⟨Or.inr hi, hall⟩
      · have := hover.lt
        omega
  | @again first cursor a as hlies hne hfirst hpast rest ih =>
      subst hcursor
      have hlt : a.first < p.cursor := by omega
      rcases origins_step_or_overreaches p as hlies with ⟨p', hstep, hsame⟩ | ⟨hover, -⟩
      · rw [hsame] at hroomy
        rw [Progress.steps_cons, hstep.progress_eq]
        refine ih (hstep.cursor_of_lt hlt) (hends.step hlies hne (fun h => ?_) hstep) ?_ hroomy
        · omega
        · intro i hi hilen hall
          refine houtside i hi hilen ?_
          rw [List.forall_mem_cons]
          exact ⟨Or.inr (by omega), hall⟩
      · -- a lost unit never comes back, for what is put later has no origin
        obtain ⟨i, hout, hlost⟩ := hends.lost length hover
        refine ⟨i, hout, fun hi => ?_⟩
        rcases Progress.mem_reads_steps (fun b hb => Nat.le_of_lt (rest.bounds b hb).1) hi with
          hi | ⟨b, -, hi⟩
        · exact hlost hi
        · simp [Mark.noOrigins] at hi

end

end Split

/-! ## The result -/

namespace MarkedText

def draftOrigins (t : MarkedText) (text : String) (style : LinkStyle) (elision : Elision) :
    List (Option Nat) :=
  Draft.carryAll style (TrailingLink.find? text t.inOrder elision) ⟨Utf16.ofString text, 0, []⟩
    (Draft.ownOrigins (Utf16.ofString text).length) t.inOrder

theorem truthful_draftOrigins (t : MarkedText) (text : String) (style : LinkStyle)
    (elision : Elision) :
    Draft.Truthful (Utf16.ofString text) (t.draft text style elision).units
      (t.draftOrigins text style elision) :=
  (Draft.truthful_ownOrigins (Utf16.ofString text)).applyAll

/-- **When the text between ranges is kept.** Of marks that lie apart or share a range, each after
the first on its range has to find as many units as it takes among those put since the text before,
and then just the ranges are replaced. -/
theorem draft_keepsText_iff {t : MarkedText} {text : String}
    (hlies : ∀ a ∈ t.inOrder, a.LiesIn (Utf16.ofString text).length ∧ a.start < a.stop)
    (hshare : t.inOrder.Pairwise fun a b => a.Apart b ∨ a.SameRange b)
    (style : LinkStyle) (elision : Elision) :
    KeepsText (Utf16.ofString text) t.inOrder (TrailingLink.find? text t.inOrder elision)
        (t.draft text style elision).units (t.draftOrigins text style elision) ↔
      Mark.roomy (Mark.leftOut (TrailingLink.find? text t.inOrder elision)) 0 0 0 t.inOrder := by
  have hq : Mark.Queue (Utf16.ofString text).length 0 0 t.inOrder :=
    Mark.queue_of_pairwise hlies (Mark.pairwise_sortByStart _) hshare
      fun a _ => Or.inl (Nat.zero_le _)
  have hstart : Progress.Alike (Utf16.ofString text)
      (Draft.ownOrigins (Utf16.ofString text).length) ⟨Utf16.ofString text, 0, []⟩
      (Draft.ownOrigins (Utf16.ofString text).length) ⟨[], 0⟩ ⟨[], 0⟩ :=
    ⟨Draft.reaches_start _ [], rfl, rfl, rfl⟩
  obtain ⟨hunits, horigins⟩ := hstart.steps style (TrailingLink.find? text t.inOrder elision)
    (Draft.length_ownOrigins _) hq
  have hunits' : (t.draft text style elision).units = _ := hunits
  have horigins' : t.draftOrigins text style elision = _ := horigins
  constructor
  · intro hkeeps
    by_contra hroomy
    rw [Bool.not_eq_true] at hroomy
    obtain ⟨i, ⟨hi, hall⟩, hlost⟩ := Split.lost_of_not_roomy (p := ⟨[], [], 0⟩)
      (fun i => i < (Utf16.ofString text).length ∧ ∀ a ∈ t.inOrder, i < a.first ∨ a.past ≤ i)
      hq rfl ⟨by simp, Or.inl rfl⟩ (fun i _ hi hall => ⟨hi, hall⟩) hroomy
    exact hlost (horigins' ▸ hkeeps.kept i hi hall)
  · intro hroomy
    refine ⟨?_, truthful_draftOrigins t text style elision, ?_, ?_⟩
    · obtain ⟨put', rest, hreads, hput, hinter⟩ := Split.interleaves_of_roomy
        (Utf16.ofString text) (fun a => Utf16.ofString a.display) hq.bounds (fun _ => rfl)
        ⟨[], [], 0⟩ hroomy
      rw [hput rfl] at hreads
      exact ⟨_, hq.oneEach_heads fun a ha => (hlies a ha).1, (hunits'.trans hreads) ▸ hinter⟩
    · intro i hi hall
      obtain ⟨put', rest, hreads, hput, hinter⟩ := Split.interleaves_of_roomy
        (Draft.ownOrigins (Utf16.ofString text).length) Mark.noOrigins
        (by rw [Draft.length_ownOrigins]; exact hq.bounds) (fun _ => List.length_replicate)
        ⟨[], [], 0⟩ hroomy
      rw [hput rfl] at hreads
      obtain ⟨part, hpart, hmem⟩ := Part.exists_between_of_outside
        (Draft.getElem?_ownOrigins_eq_some_iff.mpr ⟨rfl, hi⟩) (Nat.zero_le i) hall
      exact (horigins'.trans hreads) ▸ hinter.mem hpart hmem
    · intro a ha b hb houta houtb
      obtain ⟨c, hc, hstarta⟩ := (Option.any_eq_true _ _).mp houta
      obtain ⟨c', hc', hstartb⟩ := (Option.any_eq_true _ _).mp houtb
      apply Mark.sameRange_of_start_eq hlies hshare ha hb
      rw [hc, Option.some.injEq] at hc'
      simp only [beq_iff_eq] at hstarta hstartb
      rw [← hstarta, ← hstartb, hc']

/-- Two media on one range before a hashtag. The second one takes as much as the first one put. -/
def roomyMedia : MarkedText where
  text := some "see t.co/a #b"
  media := [⟨4, 10, .media "photo", "pic/01", "t.co/a", none⟩,
    ⟨4, 10, .media "photo", "pic/02", "t.co/a", none⟩]
  hashtags := [⟨11, 13, .hashtag, "#b", "b", none⟩]

theorem inOrder_roomyMedia : roomyMedia.inOrder = roomyMedia.media ++ roomyMedia.hashtags :=
  Mark.sortByStart_of_pairwise (by decide)

theorem keepsText_roomyMedia :
    (∀ a ∈ roomyMedia.inOrder, a.LiesIn (Utf16.ofString "see t.co/a #b").length ∧
        a.start < a.stop) ∧
      (roomyMedia.inOrder.Pairwise fun a b => a.Apart b ∨ a.SameRange b) ∧
      KeepsText (Utf16.ofString "see t.co/a #b") roomyMedia.inOrder
        (TrailingLink.find? "see t.co/a #b" roomyMedia.inOrder {})
        (roomyMedia.draft "see t.co/a #b" {} {}).units
        (roomyMedia.draftOrigins "see t.co/a #b" {} {}) := by
  have hlies : ∀ a ∈ roomyMedia.inOrder,
      a.LiesIn (Utf16.ofString "see t.co/a #b").length ∧ a.start < a.stop := by
    rw [inOrder_roomyMedia]
    decide +kernel
  have hshare : roomyMedia.inOrder.Pairwise fun a b => a.Apart b ∨ a.SameRange b := by
    rw [inOrder_roomyMedia]
    decide +kernel
  refine ⟨hlies, hshare, (draft_keepsText_iff hlies hshare {} {}).mpr ?_⟩
  rw [inOrder_roomyMedia]
  decide +kernel

def photos : MarkedText where
  text := some "two photos from today https://t.co/p"
  media := [⟨22, 36, .media "photo", "pic.twitter.com/p", "https://t.co/p", none⟩,
    ⟨22, 36, .media "photo", "pic.twitter.com/p", "https://t.co/p", none⟩]

theorem inOrder_photos : photos.inOrder = photos.media := Mark.sortByStart_of_pairwise (by decide)

/-- The range is left out twice, the second time from the text before it. -/
theorem not_keepsText_photos :
    (∀ a ∈ photos.inOrder,
        a.LiesIn (Utf16.ofString "two photos from today https://t.co/p").length ∧
          a.start < a.stop) ∧
      (photos.inOrder.Pairwise fun a b => a.Apart b ∨ a.SameRange b) ∧
      (photos.draft "two photos from today https://t.co/p" {} {}).units =
        Utf16.ofString "two phot" ∧
      ¬ KeepsText (Utf16.ofString "two photos from today https://t.co/p") photos.inOrder
        (TrailingLink.find? "two photos from today https://t.co/p" photos.inOrder {})
        (photos.draft "two photos from today https://t.co/p" {} {}).units
        (photos.draftOrigins "two photos from today https://t.co/p" {} {}) := by
  rw [draft, draftOrigins, inOrder_photos]
  refine ⟨by decide +kernel, by decide +kernel, by decide +kernel, fun h => ?_⟩
  have hkept := h.kept 8 (by decide +kernel) (by decide +kernel)
  revert hkept
  decide +kernel

end MarkedText
end TweetText
