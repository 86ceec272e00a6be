import Mathlib.Data.List.Forall2
import TweetText.Proofs.Draft.Parts

/-!
# Where the units of a draft come from

To tell whether a text is kept, each unit of a draft is given its *origin*: its position in the text
at the start, or none if it was put. Origins are carried along mark by mark, and a unit with an
origin is the unit at that position (`Truthful.applyAll`). For marks that share ranges, drafts and
their origins are written alike (`Progress.Alike.steps`): a mark behind the others is put in its
place, and each further one on its range takes as much as the range is long from the end of what was
written.
-/

namespace TweetText

variable {α : Type}

/-! ## What is written -/

namespace Mark

def noOrigins (a : Mark) : List (Option Nat) :=
  List.replicate (Utf16.ofString a.display).length none

/-- Whether a mark puts something else in its place than what is there. -/
def changes (out : Mark → Bool) (a : Mark) : Bool := out a || a.display != ""

theorem putAs_of_not_changes {out : Mark → Bool} {a : Mark} {shown own : List α}
    (h : ¬ a.changes out) : a.putAs out shown own = own := by
  simp only [changes, Bool.or_eq_true, bne_iff_ne, not_or, not_not] at h
  rw [putAs, if_neg h.1, if_pos h.2]

theorem some_mem_putAs {out : Mark → Bool} {a : Mark} {own : List (Option Nat)} {i : Nat}
    (h : some i ∈ a.putAs out a.noOrigins own) : some i ∈ own := by
  unfold putAs at h
  split at h
  · cases h
  · split at h
    · exact h
    · simp [noOrigins] at h

theorem not_some_mem_putAs {out : Mark → Bool} {a : Mark} (hchanges : a.changes out)
    (own : List (Option Nat)) (i : Nat) : some i ∉ a.putAs out a.noOrigins own := by
  simp only [changes, Bool.or_eq_true, bne_iff_ne] at hchanges
  unfold putAs
  split
  · simp
  · rename_i hout
    rw [if_neg (hchanges.resolve_left hout)]
    simp [noOrigins]

end Mark

/-- What was written for the part of a list before a place. -/
structure Progress (α : Type) where
  written : List α
  cursor : Nat

namespace Progress

def reads (base : List α) (p : Progress α) : List α := p.written ++ base.drop p.cursor

/-- Applies a mark. One behind the place is put there, and any other one takes as much as its range
is long from the end of what was written, if that is enough. -/
def step (out : Mark → Bool) (shown : Mark → List α) (base : List α) (p : Progress α) (a : Mark) :
    Progress α :=
  if p.cursor ≤ a.first then
    ⟨p.written ++ base.extract p.cursor a.first ++
      a.putAs out (shown a) (base.extract a.first a.past), a.past⟩
  else if a.past - a.first ≤ p.written.length then
    ⟨p.written.take (p.written.length - (a.past - a.first)) ++
      a.putAs out (shown a) (p.written.drop (p.written.length - (a.past - a.first))), p.cursor⟩
  else p

def steps (out : Mark → Bool) (shown : Mark → List α) (base : List α) (p : Progress α)
    (as : List Mark) : Progress α :=
  as.foldl (step out shown base) p

variable {out : Mark → Bool} {shown : Mark → List α} {base : List α} {p : Progress α} {a : Mark}
  {as : List Mark}

theorem steps_cons (p : Progress α) (a : Mark) (as : List Mark) :
    p.steps out shown base (a :: as) = (p.step out shown base a).steps out shown base as := rfl

theorem step_of_le (hle : p.cursor ≤ a.first) :
    p.step out shown base a = ⟨p.written ++ base.extract p.cursor a.first ++
      a.putAs out (shown a) (base.extract a.first a.past), a.past⟩ := if_pos hle

theorem step_of_changes (hlt : ¬ p.cursor ≤ a.first)
    (hle : a.past - a.first ≤ p.written.length) :
    p.step out shown base a =
      ⟨p.written.take (p.written.length - (a.past - a.first)) ++
        a.putAs out (shown a) (p.written.drop (p.written.length - (a.past - a.first))),
        p.cursor⟩ := by
  rw [step, if_neg hlt, if_pos hle]

theorem step_of_not (hlt : ¬ p.cursor ≤ a.first)
    (h : ¬ (a.changes out ∧ a.past - a.first ≤ p.written.length)) :
    p.step out shown base a = p := by
  rw [step, if_neg hlt]
  split
  · rename_i hle
    rw [Mark.putAs_of_not_changes fun hchanges => h ⟨hchanges, hle⟩, List.take_append_drop]
  · rfl

theorem mem_reads_step {x : α} (hle : a.first ≤ a.past)
    (h : x ∈ (p.step out shown base a).reads base) : x ∈ p.reads base ∨ x ∈ shown a := by
  have hput : ∀ own, x ∈ a.putAs out (shown a) own → x ∈ own ∨ x ∈ shown a := by
    intro own hx
    unfold Mark.putAs at hx
    split at hx
    · cases hx
    · split at hx
      · exact Or.inl hx
      · exact Or.inr hx
  have hdrop : ∀ place, p.cursor ≤ place → x ∈ base.drop place → x ∈ base.drop p.cursor := by
    intro place hplace hx
    rw [← Nat.add_sub_cancel' hplace, ← List.drop_drop] at hx
    exact List.mem_of_mem_drop hx
  have hextract : ∀ start stop, p.cursor ≤ start → x ∈ base.extract start stop →
      x ∈ base.drop p.cursor := by
    intro start stop hstart hx
    rw [List.extract_eq_take_drop] at hx
    exact hdrop start hstart (List.mem_of_mem_take hx)
  simp only [reads, List.mem_append]
  unfold step at h
  split at h
  · rename_i hcursor
    simp only [reads, List.mem_append] at h
    rcases h with ((h | h) | h) | h
    · exact Or.inl (Or.inl h)
    · exact Or.inl (Or.inr (hextract _ _ (Nat.le_refl _) h))
    · exact (hput _ h).imp_left fun h => Or.inr (hextract _ _ hcursor h)
    · exact Or.inl (Or.inr (hdrop _ (Nat.le_trans hcursor hle) h))
  · split at h
    · simp only [reads, List.mem_append] at h
      rcases h with (h | h) | h
      · exact Or.inl (Or.inl (List.mem_of_mem_take h))
      · exact (hput _ h).imp_left fun h => Or.inl (List.mem_of_mem_drop h)
      · exact Or.inl (Or.inr h)
    · simp only [reads, List.mem_append] at h
      exact Or.inl h

theorem mem_reads_steps {x : α} (hle : ∀ a ∈ as, a.first ≤ a.past)
    (h : x ∈ (p.steps out shown base as).reads base) :
    x ∈ p.reads base ∨ ∃ a ∈ as, x ∈ shown a := by
  induction as generalizing p with
  | nil => exact Or.inl h
  | cons a as ih =>
      rw [List.forall_mem_cons] at hle
      rcases ih hle.2 h with h | ⟨b, hb, h⟩
      · exact (mem_reads_step hle.1 h).imp_right fun h => ⟨a, List.mem_cons_self, h⟩
      · exact Or.inr ⟨b, List.mem_cons_of_mem _ hb, h⟩

end Progress

/-! ## Origins -/

namespace Draft

variable {style : LinkStyle} {elided : Option Mark} {base written : List UInt16} {cursor : Nat}
  {d : Draft} {a : Mark}

/-- The origins of a draft after one mark is applied, given those before. -/
def carry (elided : Option Mark) (d : Draft) (a : Mark) (origins : List (Option Nat)) :
    List (Option Nat) :=
  match d.place? a with
  | none => origins
  | some (start, stop) =>
    origins.take start ++
      a.putAs (Mark.leftOut elided) a.noOrigins (origins.extract start stop) ++ origins.drop stop

def carryAll (style : LinkStyle) (elided : Option Mark) (d : Draft) (origins : List (Option Nat)) :
    List Mark → List (Option Nat)
  | [] => origins
  | a :: as => carryAll style elided (d.apply style elided a) (d.carry elided a origins) as

def ownOrigins (length : Nat) : List (Option Nat) := (List.range length).map some

theorem getElem?_ownOrigins_eq_some_iff {length i j : Nat} :
    (ownOrigins length)[j]? = some (some i) ↔ j = i ∧ i < length := by
  rw [ownOrigins, List.getElem?_map, Option.map_eq_some_iff]
  constructor
  · rintro ⟨k, hk, hik⟩
    obtain ⟨hlt, rfl⟩ := List.getElem?_eq_some_iff.mp hk
    rw [List.getElem_range, Option.some.injEq] at hik
    rw [List.length_range] at hlt
    omega
  · rintro ⟨rfl, hlt⟩
    exact ⟨j, by simp [hlt], rfl⟩

theorem length_ownOrigins (length : Nat) : (ownOrigins length).length = length := by
  simp [ownOrigins]

theorem of_mem_drop_ownOrigins {length start i : Nat}
    (h : some i ∈ (ownOrigins length).drop start) : start ≤ i := by
  obtain ⟨j, hj⟩ := List.mem_iff_getElem?.mp h
  rw [List.getElem?_drop, getElem?_ownOrigins_eq_some_iff] at hj
  omega

theorem of_mem_extract_ownOrigins {length start stop i : Nat}
    (h : some i ∈ (ownOrigins length).extract start stop) : start ≤ i ∧ i < stop := by
  rw [List.extract_eq_take_drop] at h
  refine ⟨of_mem_drop_ownOrigins (List.mem_of_mem_take h), ?_⟩
  obtain ⟨j, hj⟩ := List.mem_iff_getElem?.mp h
  rw [List.getElem?_take, List.getElem?_drop] at hj
  split at hj
  · rw [getElem?_ownOrigins_eq_some_iff] at hj
    omega
  · cases hj

theorem extract_ownOrigins_succ {length start stop : Nat} (hle : start ≤ stop)
    (hlt : stop < length) : (ownOrigins length).extract start (stop + 1) =
      (ownOrigins length).extract start stop ++ [some stop] := by
  rw [List.extract_eq_take_drop, List.extract_eq_take_drop, Nat.sub_add_comm hle,
    List.take_add_one, List.getElem?_drop, Nat.add_sub_cancel' hle,
    getElem?_ownOrigins_eq_some_iff.mpr ⟨rfl, hlt⟩]
  rfl

/-- A unit with an origin is the unit at that position. -/
def Truthful (base units : List UInt16) (origins : List (Option Nat)) : Prop :=
  List.Forall₂ (fun u o => ∀ i, o = some i → base[i]? = some u) units origins

theorem truthful_ownOrigins (base : List UInt16) : Truthful base base (ownOrigins base.length) := by
  rw [Truthful, ownOrigins, List.forall₂_map_right_iff, List.forall₂_iff_get]
  simp

theorem Truthful.apply {origins : List (Option Nat)} (h : Truthful base d.units origins) :
    Truthful base (d.apply style elided a).units (d.carry elided a origins) := by
  have hextract : ∀ start stop, Truthful base (d.units.extract start stop)
      (origins.extract start stop) := by
    intro start stop
    rw [List.extract_eq_take_drop, List.extract_eq_take_drop]
    exact List.forall₂_take _ (List.forall₂_drop _ h)
  cases hplace : d.place? a with
  | none =>
      rw [apply_of_place?_eq_none hplace, carry, hplace]
      exact h
  | some place =>
      obtain ⟨start, stop⟩ := place
      rw [apply_eq hplace, carry, hplace]
      refine List.rel_append (List.rel_append (List.forall₂_take _ h) ?_) (List.forall₂_drop _ h)
      unfold Mark.put Mark.putAs
      split
      · exact List.Forall₂.nil
      · split
        · exact hextract start stop
        · rw [Mark.noOrigins, List.forall₂_iff_get]
          simp

theorem Truthful.applyAll {origins : List (Option Nat)} {as : List Mark}
    (h : Truthful base d.units origins) :
    Truthful base (d.applyAll style elided as).units (d.carryAll style elided origins as) := by
  induction as generalizing d origins with
  | nil => exact h
  | cons a as ih => exact ih h.apply

/-! ## A draft on its way -/

theorem extract_append_last {α : Type} (written rest : List α) (width : Nat) :
    (written ++ rest).extract (written.length - width) written.length =
      written.drop (written.length - width) := by
  rw [List.extract_eq_take_drop, List.drop_append_of_le_length (Nat.sub_le _ _), List.take_left']
  rw [List.length_drop]

namespace Reaches

theorem place?_of_past_eq (h : d.Reaches base written cursor) (hlies : a.LiesIn base.length)
    (hpast : a.past = cursor) : d.place? a =
      if a.past - a.first ≤ written.length then
        some (written.length - (a.past - a.first), written.length) else none := by
  have hfirst := hlies.first_eq
  have hstop := hlies.past_eq
  have hle := hlies.first_le_past
  split
  · rw [place?_eq_some_iff, h.drift_eq, h.units_eq, List.length_append, List.length_drop]
    omega
  · rw [place?_eq_none_iff, h.drift_eq]
    omega

theorem step {p : Progress UInt16} (h : d.Reaches base p.written p.cursor)
    (hlies : a.LiesIn base.length) (hmeets : p.cursor ≤ a.first ∨ a.past = p.cursor) :
    (d.apply style elided a).Reaches base
      (p.step (Mark.leftOut elided) (fun a => Utf16.ofString a.display) base a).written
      (p.step (Mark.leftOut elided) (fun a => Utf16.ofString a.display) base a).cursor := by
  unfold Progress.step
  by_cases hle : p.cursor ≤ a.first
  · rw [if_pos hle]
    exact (h.apply_of_le style elided hlies hle).1
  · have hplace := h.place?_of_past_eq hlies (hmeets.resolve_left hle)
    rw [if_neg hle]
    split
    · rename_i hwidth
      rw [if_pos hwidth] at hplace
      rw [apply_eq hplace, h.units_eq, extract_append_last,
        List.take_append_of_le_length (Nat.sub_le _ _), List.drop_left]
      refine ⟨rfl, ?_, h.cursor_le⟩
      simp only [h.drift_eq, List.length_append, List.length_take, Mark.putAs, Mark.put]
      omega
    · rename_i hwidth
      rw [if_neg hwidth] at hplace
      rw [apply_of_place?_eq_none hplace]
      exact h

theorem carry_eq {p : Progress UInt16} {q : Progress (Option Nat)} (elided : Option Mark)
    (own : List (Option Nat)) (h : d.Reaches base p.written p.cursor)
    (hwritten : q.written.length = p.written.length) (hcursor : q.cursor = p.cursor)
    (hlies : a.LiesIn base.length) (hmeets : p.cursor ≤ a.first ∨ a.past = p.cursor) :
    d.carry elided a (q.reads own) =
      (q.step (Mark.leftOut elided) Mark.noOrigins own a).reads own := by
  unfold carry Progress.step Progress.reads
  by_cases hle : p.cursor ≤ a.first
  · rw [h.place?_of_le hlies hle, if_pos (hcursor ▸ hle), ← hcursor, ← hwritten]
    dsimp only
    rw [extract_written_append q.written (hcursor ▸ hle),
      splice_written_append q.written _ (hcursor ▸ hle) hlies.first_le_past]
  · have hplace := h.place?_of_past_eq hlies (hmeets.resolve_left hle)
    have hle' : ¬ q.cursor ≤ a.first := hcursor ▸ hle
    rw [← hwritten] at hplace
    by_cases hwidth : a.past - a.first ≤ q.written.length
    · rw [hplace, if_pos hwidth, if_neg hle', if_pos hwidth]
      dsimp only
      rw [extract_append_last, List.take_append_of_le_length (Nat.sub_le _ _), List.drop_left]
    · rw [hplace, if_neg hwidth, if_neg hle', if_neg hwidth]

end Reaches

end Draft

namespace Progress

variable {out : Mark → Bool} {first cursor : Nat} {as : List Mark}

theorem length_step {α β : Type} (out : Mark → Bool) (shown : Mark → List α)
    (shown' : Mark → List β) {base : List α} {base' : List β} {p : Progress α} {q : Progress β}
    {a : Mark}
    (hwritten : q.written.length = p.written.length) (hcursor : q.cursor = p.cursor)
    (hbase : base'.length = base.length) (hshown : (shown' a).length = (shown a).length) :
    (q.step out shown' base' a).written.length = (p.step out shown base a).written.length ∧
      (q.step out shown' base' a).cursor = (p.step out shown base a).cursor := by
  unfold step Mark.putAs
  rw [hcursor, hwritten]
  split
  · refine ⟨?_, rfl⟩
    split <;> (try split) <;> simp [hwritten, hbase, hshown]
  · split
    · refine ⟨?_, rfl⟩
      split <;> (try split) <;> simp [hwritten, hshown]
    · exact ⟨hwritten, hcursor⟩

theorem cursor_step_of_le {shown : Mark → List α} {base : List α} {p : Progress α} {a : Mark}
    (hle : p.cursor ≤ a.first) : (p.step out shown base a).cursor = a.past := by
  rw [step, if_pos hle]

theorem cursor_step_of_lt {shown : Mark → List α} {base : List α} {p : Progress α} {a : Mark}
    (hlt : a.first < p.cursor) : (p.step out shown base a).cursor = p.cursor := by
  rw [step, if_neg (Nat.not_le.mpr hlt)]
  split <;> rfl

/-- A draft and its origins are written alike. -/
structure Alike (base : List UInt16) (own : List (Option Nat)) (d : Draft)
    (origins : List (Option Nat)) (p : Progress UInt16) (q : Progress (Option Nat)) : Prop where
  reaches : d.Reaches base p.written p.cursor
  origins_eq : origins = q.reads own
  length_eq : q.written.length = p.written.length
  cursor_eq : q.cursor = p.cursor

section

variable {base : List UInt16} {own origins : List (Option Nat)} {d : Draft} {p : Progress UInt16}
  {q : Progress (Option Nat)}

theorem Alike.step (style : LinkStyle) (elided : Option Mark) (h : Alike base own d origins p q)
    (hbase : own.length = base.length) {a : Mark} (hlies : a.LiesIn base.length)
    (hmeets : p.cursor ≤ a.first ∨ a.past = p.cursor) :
    Alike base own (d.apply style elided a) (d.carry elided a origins)
      (p.step (Mark.leftOut elided) (fun a => Utf16.ofString a.display) base a)
      (q.step (Mark.leftOut elided) Mark.noOrigins own a) := by
  have hsame := length_step (Mark.leftOut elided) (fun a => Utf16.ofString a.display)
    Mark.noOrigins (a := a) h.length_eq h.cursor_eq hbase List.length_replicate
  have hcarry := h.reaches.carry_eq elided own h.length_eq h.cursor_eq hlies hmeets
  exact ⟨h.reaches.step hlies hmeets, h.origins_eq ▸ hcarry, hsame.1, hsame.2⟩

/-- **Drafts and origins stay alike** along marks that lie apart or share ranges. -/
theorem Alike.steps (style : LinkStyle) (elided : Option Mark) (h : Alike base own d origins p q)
    (hbase : own.length = base.length) (hq : Mark.Queue base.length first p.cursor as) :
    (d.applyAll style elided as).units = (p.steps (Mark.leftOut elided)
        (fun a => Utf16.ofString a.display) base as).reads base ∧
      d.carryAll style elided origins as = (q.steps (Mark.leftOut elided)
        Mark.noOrigins own as).reads own := by
  generalize hplace : p.cursor = cursor at hq
  induction hq generalizing d origins p q with
  | nil => exact ⟨h.reaches.units_eq, h.origins_eq⟩
  | @next first cursor a as hlies hne hle rest ih =>
      subst hplace
      exact ih (h.step style elided hbase hlies (Or.inl hle)) (cursor_step_of_le hle)
  | @again first cursor a as hlies hne hfirst hpast rest ih =>
      subst hplace
      exact ih (h.step style elided hbase hlies (Or.inr hpast)) (cursor_step_of_lt (by omega))

end

end Progress

end TweetText
