import Mathlib.Algebra.GroupWithZero.Nat
import Mathlib.Data.List.Forall2
import TweetText.Proofs.Mark.Order
import TweetText.Proofs.Reference.Escapes

/-!
# Moving marks

Both moves are written as one pass that carries what it has counted so far. Here each is given for a
single mark: to the left by what the escapes remove that end before the mark does, to the right by
the supplementary characters up to its start. The pass to the left also counts for a mark what was
behind those listed before it, which makes no difference when the list is in step
(`retract_eq_map`).
-/

namespace TweetText.Mark

open Utf16

/-! ## To the left -/

/-- The units removed by the escapes that end before an offset. -/
def removedBefore (escapes : List Escape) (offset : Int) : Nat :=
  removedUnits (escapes.filter fun e => (e.last : Int) < offset)

theorem removedBefore_cons (e : Escape) (escapes : List Escape) (offset : Int) :
    removedBefore (e :: escapes) offset =
      (if (e.last : Int) < offset then e.removed else 0) + removedBefore escapes offset := by
  by_cases h : (e.last : Int) < offset <;> simp [removedBefore, h, removedUnits]

theorem removedUnits_append (es fs : List Escape) :
    removedUnits (es ++ fs) = removedUnits es + removedUnits fs := by
  induction es with
  | nil => simp [removedUnits]
  | cons e es ih => simp [removedUnits, ih, Nat.add_assoc]

theorem removedBefore_append (es fs : List Escape) (offset : Int) :
    removedBefore (es ++ fs) offset = removedBefore es offset + removedBefore fs offset := by
  simp [removedBefore, removedUnits_append]

theorem removedBefore_of_forall_ge {escapes : List Escape} {offset : Int}
    (h : ∀ e ∈ escapes, offset ≤ (e.last : Int)) : removedBefore escapes offset = 0 := by
  rw [removedBefore, List.filter_eq_nil_iff.mpr (by simpa using h)]
  rfl

theorem removedBefore_le (escapes : List Escape) (offset : Int) :
    removedBefore escapes offset ≤ removedUnits escapes := by
  induction escapes with
  | nil => exact Nat.le_refl _
  | cons e escapes ih =>
      rw [removedBefore_cons, removedUnits]
      split <;> omega

theorem removedUnits_before_within (escapes : List Escape) (start stop : Int) :
    removedBefore escapes start +
        removedUnits (escapes.filter fun e => start ≤ e.last ∧ (e.last : Int) < stop) =
      removedBefore escapes (max start stop) := by
  induction escapes with
  | nil => rfl
  | cons e escapes ih =>
      rw [removedBefore_cons, removedBefore_cons]
      by_cases hstart : (e.last : Int) < start
      · have hmax : (e.last : Int) < max start stop := by omega
        have hwithin : ¬ (start ≤ e.last ∧ (e.last : Int) < stop) := by omega
        rw [List.filter_cons_of_neg (by simpa using hwithin), if_pos hstart, if_pos hmax]
        omega
      · by_cases hstop : (e.last : Int) < stop
        · have hmax : (e.last : Int) < max start stop := by omega
          have hwithin : start ≤ e.last ∧ (e.last : Int) < stop := by omega
          rw [List.filter_cons_of_pos (by simpa using hwithin), if_neg hstart, if_pos hmax,
            removedUnits]
          omega
        · have hmax : ¬ (e.last : Int) < max start stop := by omega
          have hwithin : ¬ (start ≤ e.last ∧ (e.last : Int) < stop) := by omega
          rw [List.filter_cons_of_neg (by simpa using hwithin), if_neg hstart, if_neg hmax]
          omega

theorem filter_append_filter_not {α : Type} {p : α → Bool} {l : List α}
    (h : l.Pairwise fun x y => p y → p x) : l.filter p ++ l.filter (!p ·) = l := by
  induction l with
  | nil => rfl
  | cons x l ih =>
      obtain ⟨hhead, htail⟩ := List.pairwise_cons.mp h
      cases hx : p x with
      | true => simp [hx, ih htail]
      | false =>
          have hnone : l.filter p = [] := by
            rw [List.filter_eq_nil_iff]
            intro y hy hpy
            rw [hhead y hy hpy] at hx
            cases hx
          have hrest := ih htail
          rw [hnone, List.nil_append] at hrest
          simp [hx, hnone, hrest]

theorem drop_length_filter {escapes : List Escape} (offset : Int)
    (h : escapes.Pairwise fun e f => e.last < f.last) :
    escapes.drop (escapes.filter fun e => (e.last : Int) < offset).length =
      escapes.filter fun e => ¬ (e.last : Int) < offset := by
  have hsplit := filter_append_filter_not (p := fun e : Escape => (e.last : Int) < offset)
    (h.imp fun hlt hlast => by simp only [decide_eq_true_eq] at hlast ⊢; omega)
  conv => lhs; arg 2; rw [← hsplit]
  rw [List.drop_left]
  simp only [decide_not]

theorem removedBefore_split (escapes : List Escape) {start offset : Int} (h : start ≤ offset) :
    removedBefore escapes offset = removedBefore escapes start +
      removedBefore (escapes.filter fun e => ¬ (e.last : Int) < start) offset := by
  induction escapes with
  | nil => rfl
  | cons e escapes ih =>
      rw [removedBefore_cons, removedBefore_cons]
      by_cases he : (e.last : Int) < start
      · have he' : (e.last : Int) < offset := by omega
        rw [List.filter_cons_of_neg (by simpa using he), if_pos he, if_pos he']
        omega
      · rw [List.filter_cons_of_pos (by simpa using he), if_neg he, removedBefore_cons]
        omega

/-! ## Lists in any order -/

/-- Marks moved to the left, each over all escapes that end before it does, before the start of one
listed earlier, or before a floor. -/
def retractPast (escapes : List Escape) (floor : Int) : List Mark → List Mark
  | [] => []
  | a :: rest =>
    a.move (-(removedBefore escapes (max floor (max a.start.toInt a.stop.toInt)) : Int)) ::
      retractPast escapes (max floor a.start.toInt) rest

theorem removedBefore_max (escapes : List Escape) (floor offset : Int) :
    removedBefore escapes floor +
        removedBefore (escapes.filter fun e => ¬ (e.last : Int) < floor) offset =
      removedBefore escapes (max floor offset) := by
  rcases Int.le_total floor offset with hle | hle
  · rw [Int.max_eq_right hle, removedBefore_split escapes hle]
  · have hnone : removedBefore (escapes.filter fun e => ¬ (e.last : Int) < floor) offset = 0 := by
      apply removedBefore_of_forall_ge
      intro e he
      have hlate : ¬ (e.last : Int) < floor := by simpa using (List.mem_filter.mp he).2
      omega
    rw [Int.max_eq_left hle, hnone, Nat.add_zero]

/-- **The escapes one pass counts** for a mark are all that end before it does, and all that end
before the start of a mark listed earlier: those are behind and stay there. -/
theorem retractFrom_eq_retractPast {escapes : List Escape} (floor : Int) (as : List Mark)
    (hescapes : escapes.Pairwise fun e f => e.last < f.last) :
    retractFrom (removedBefore escapes floor)
        (escapes.filter fun e => ¬ (e.last : Int) < floor) as =
      retractPast escapes floor as := by
  induction as generalizing floor with
  | nil => rfl
  | cons a as ih =>
      have hrest : (escapes.filter fun e => ¬ (e.last : Int) < floor).filter
          (fun e => ¬ (e.last : Int) < a.start.toInt) =
            escapes.filter fun e => ¬ (e.last : Int) < max floor a.start.toInt := by
        rw [List.filter_filter]
        apply List.filter_congr
        intro e _
        rw [← Bool.decide_and, decide_eq_decide]
        omega
      have hmoved := removedUnits_before_within
        (escapes.filter fun e => ¬ (e.last : Int) < floor) a.start.toInt a.stop.toInt
      rw [removedBefore] at hmoved
      simp only [retractFrom, retractPast]
      congr 1
      · rw [← removedBefore_max, ← hmoved, Nat.add_assoc]
      · -- what is behind the mark now, and what is left before it, are told apart by the new floor
        rw [drop_length_filter _ (hescapes.filter _), hrest, ← ih]
        congr 1
        exact removedBefore_max escapes floor a.start.toInt

theorem retract_eq_retractPast {escapes : List Escape} (as : List Mark)
    (hescapes : escapes.Pairwise fun e f => e.last < f.last) :
    retract escapes as = retractPast escapes 0 as := by
  have hnone : removedBefore escapes 0 = 0 :=
    removedBefore_of_forall_ge fun e _ => Int.natCast_nonneg _
  have hall : (escapes.filter fun e => ¬ (e.last : Int) < 0) = escapes := by
    rw [List.filter_eq_self]
    intro e _
    simp
  rw [← retractFrom_eq_retractPast 0 as hescapes, hnone, hall, retract]

theorem retract_nil (as : List Mark) : retract [] as = as := by
  unfold retract
  induction as with
  | nil => rfl
  | cons a as ih => simp [retractFrom, removedUnits, ih]

/-! ## Lists in step -/

/-- The mark moved over the escapes that end before it does. -/
def retractOver (escapes : List Escape) (a : Mark) : Mark :=
  a.move (-(removedBefore escapes (max a.start.toInt a.stop.toInt) : Int))

/-- The second mark may be listed after the first: it ends after every escape that ends before the
first one begins. -/
def InStepOver (escapes : List Escape) (a b : Mark) : Prop :=
  ∀ e ∈ escapes, (e.last : Int) < a.start.toInt → (e.last : Int) < max b.start.toInt b.stop.toInt

theorem inStepOver_of_le (escapes : List Escape) {a b : Mark} (h : a.start ≤ b.start) :
    InStepOver escapes a b := by
  intro e _ hlast
  rw [Int32.le_iff_toInt_le] at h
  omega

theorem removedBefore_max_of_forall {escapes : List Escape} {floor offset : Int}
    (h : ∀ e ∈ escapes, (e.last : Int) < floor → (e.last : Int) < offset) :
    removedBefore escapes (max floor offset) = removedBefore escapes offset := by
  unfold removedBefore
  congr 1
  apply List.filter_congr
  intro e he
  have := h e he
  rw [decide_eq_decide]
  omega

theorem retractPast_eq_map {escapes : List Escape} {floor : Int} {as : List Mark}
    (hfloor : ∀ a ∈ as, ∀ e ∈ escapes, (e.last : Int) < floor →
      (e.last : Int) < max a.start.toInt a.stop.toInt)
    (hmarks : as.Pairwise (InStepOver escapes)) :
    retractPast escapes floor as = as.map (retractOver escapes) := by
  induction as generalizing floor with
  | nil => rfl
  | cons a as ih =>
      obtain ⟨hfloora, hfloor⟩ := List.forall_mem_cons.mp hfloor
      obtain ⟨hhead, htail⟩ := List.pairwise_cons.mp hmarks
      rw [retractPast, List.map_cons, retractOver, removedBefore_max_of_forall hfloora, ih _ htail]
      intro b hb e he hlast
      by_cases hbefore : (e.last : Int) < floor
      · exact hfloor b hb e he hbefore
      · exact hhead b hb e he (by omega)

/-- **Marks in step are moved each for itself**: over all escapes that end before it does. -/
theorem retract_eq_map {escapes : List Escape} {as : List Mark}
    (hescapes : escapes.Pairwise fun e f => e.last < f.last)
    (hmarks : as.Pairwise (InStepOver escapes)) :
    retract escapes as = as.map (retractOver escapes) := by
  rw [retract_eq_retractPast as hescapes]
  apply retractPast_eq_map _ hmarks
  intro a _ e _ hlast
  omega

theorem removedBefore_eq_zero {escapes : List Escape} {offset : Int}
    (hremoved : ∀ e ∈ escapes, 0 < e.removed) (h : removedBefore escapes offset = 0) :
    ∀ e ∈ escapes, offset ≤ (e.last : Int) := by
  induction escapes with
  | nil => simp
  | cons e escapes ih =>
      obtain ⟨he, hrest⟩ := List.forall_mem_cons.mp hremoved
      rw [removedBefore_cons, Nat.add_eq_zero_iff] at h
      refine List.forall_mem_cons.mpr ⟨?_, ih hrest h.2⟩
      by_contra hlast
      rw [if_pos (by omega)] at h
      omega

theorem lt_of_removedBefore_max {escapes : List Escape} {floor offset : Int}
    (hremoved : ∀ e ∈ escapes, 0 < e.removed)
    (h : removedBefore escapes (max floor offset) = removedBefore escapes offset) :
    ∀ e ∈ escapes, (e.last : Int) < floor → (e.last : Int) < offset := by
  rw [removedBefore_split escapes (Int.le_max_right floor offset), Nat.add_eq_left] at h
  intro e he hlast
  by_contra hlate
  have hin : e ∈ escapes.filter fun e => ¬ (e.last : Int) < offset :=
    List.mem_filter.mpr ⟨he, by simpa using hlate⟩
  have hle := removedBefore_eq_zero
    (fun f hf => hremoved f (List.mem_filter.mp hf).1) h e hin
  omega

theorem move_neg_inj {a : Mark} {m n : Nat} (hstart : 0 ≤ a.start.toInt) (hm : m ≤ 2 ^ 31)
    (hn : n ≤ 2 ^ 31) (h : a.move (-(m : Int)) = a.move (-(n : Int))) : m = n := by
  have hbound := a.start.toInt_lt
  have hstarts := congrArg (fun b : Mark => b.start.toInt) h
  simp only [move_start] at hstarts
  rw [toInt_shiftOffset_of_bounds, toInt_shiftOffset_of_bounds] at hstarts <;> omega

/-- Marks that are moved each for itself are in step, as long as offsets are not held at the bounds
of their type. -/
theorem inStepOver_of_retractPast_eq_map {escapes : List Escape} {floor : Int} {as : List Mark}
    (hremoved : ∀ e ∈ escapes, 0 < e.removed) (hfits : removedUnits escapes ≤ 2 ^ 31)
    (hnonneg : ∀ a ∈ as, 0 ≤ a.start.toInt)
    (h : retractPast escapes floor as = as.map (retractOver escapes)) :
    (∀ a ∈ as, ∀ e ∈ escapes, (e.last : Int) < floor →
        (e.last : Int) < max a.start.toInt a.stop.toInt) ∧
      as.Pairwise (InStepOver escapes) := by
  induction as generalizing floor with
  | nil => simp
  | cons a as ih =>
      obtain ⟨hstart, hnonneg⟩ := List.forall_mem_cons.mp hnonneg
      obtain ⟨hhead, htail⟩ := List.cons.inj h
      have hfirst := move_neg_inj hstart (Nat.le_trans (removedBefore_le _ _) hfits)
        (Nat.le_trans (removedBefore_le _ _) hfits) hhead
      obtain ⟨hfloor, hpairwise⟩ := ih hnonneg htail
      refine ⟨List.forall_mem_cons.mpr ⟨lt_of_removedBefore_max hremoved hfirst, ?_⟩,
        List.pairwise_cons.mpr ⟨?_, hpairwise⟩⟩
      · intro b hb e he hlast
        exact hfloor b hb e he (by omega)
      · intro b hb e he hlast
        exact hfloor b hb e he (by omega)

/-! ## To the right -/

theorem supplementaries_take_cons (offset : Int) (position : Nat) (c : Char) (s : List Char) :
    supplementaries ((c :: s).take (offset + 1 - position).toNat) =
      supplementaries (s.take (offset + 1 - (position + 1 : Nat)).toNat) +
        if (position : Int) ≤ offset ∧ isSupplementary c then 1 else 0 := by
  rcases Int.lt_or_le offset position with hlt | hle
  · have hnone : (offset + 1 - position).toNat = 0 := by omega
    have hnone' : (offset + 1 - (position + 1 : Nat)).toNat = 0 := by omega
    rw [hnone, hnone', if_neg (by omega)]
    rfl
  · have hcount : (offset + 1 - position).toNat =
        (offset + 1 - (position + 1 : Nat)).toNat + 1 := by omega
    rw [hcount, List.take_succ_cons, supplementaries_cons]
    simp [hle]

/-- A pair lies as many units to the right of its code point as there are pairs before it, so the
offset of the scan less the pairs passed is the offset in code points. -/
theorem pairsUpTo_pairsFrom (offset : Int) (passed position : Nat) (s : List Char) :
    pairsUpTo offset passed (pairsFrom (position + passed) s) =
      passed + supplementaries (s.take (offset + 1 - position).toNat) := by
  induction s generalizing passed position with
  | nil => simp [pairsFrom, pairsUpTo]
  | cons c s ih =>
      rw [supplementaries_take_cons]
      by_cases hc : c.toNat < supplementary
      · have hplain : isSupplementary c = false := by
          simpa [isSupplementary] using hc
        have hnext : position + passed + 1 = position + 1 + passed := by omega
        rw [pairsFrom, if_pos hc, hnext, ih]
        simp [hplain]
      · have hpair : isSupplementary c = true := by
          simpa [isSupplementary] using hc
        have hpassed : ((position + passed : Nat) : Int) - passed = position := by omega
        have hnext : position + passed + 2 = position + 1 + (passed + 1) := by omega
        rw [pairsFrom, if_neg hc, pairsUpTo, hpassed]
        rcases Int.lt_or_le offset position with hlt | hle
        · -- the scan stops here, and no character up to the offset is left
          have hnone : (offset + 1 - (position + 1 : Nat)).toNat = 0 := by omega
          rw [if_neg (by omega), if_neg (by omega), hnone]
          rfl
        · rw [if_pos hle, hnext, ih, if_pos ⟨hle, hpair⟩]
          omega

/-- **The scan stops in time.** A pair, moved back over the pairs before it, lies up to an offset
just if it is one of those that the scan counts, so the scan misses none. -/
theorem sub_le_iff_of_getElem?_pairsFrom {offset : Int} {passed position k p : Nat} {s : List Char}
    (h : (pairsFrom (position + passed) s)[k]? = some p) :
    (p : Int) - (passed + k : Nat) ≤ offset ↔
      k < supplementaries (s.take (offset + 1 - position).toNat) := by
  induction s generalizing passed position k with
  | nil => simp [pairsFrom] at h
  | cons c s ih =>
      rw [supplementaries_take_cons]
      unfold pairsFrom at h
      split at h
      · rename_i hc
        have hplain : isSupplementary c = false := by simpa [isSupplementary] using hc
        have hnext : position + passed + 1 = position + 1 + passed := by omega
        rw [hnext] at h
        simp only [ih h, hplain, Bool.false_eq_true, and_false, if_false, Nat.add_zero]
      · rename_i hc
        have hpair : isSupplementary c = true := by simpa [isSupplementary] using hc
        have hnone : offset < position → (offset + 1 - (position + 1 : Nat)).toNat = 0 := by omega
        cases k with
        | zero =>
            obtain rfl : position + passed = p := by simpa using h
            rcases Int.lt_or_le offset position with hlt | hle
            · rw [hnone hlt, List.take_zero, supplementaries_nil, if_neg (by omega)]
              omega
            · rw [if_pos ⟨hle, hpair⟩]
              omega
        | succ k =>
            have hnext : position + passed + 2 = position + 1 + (passed + 1) := by omega
            rw [List.getElem?_cons_succ, hnext] at h
            have hiff := ih h
            rcases Int.lt_or_le offset position with hlt | hle
            · rw [hnone hlt, List.take_zero, supplementaries_nil] at hiff ⊢
              rw [if_neg (by omega)]
              omega
            · rw [if_pos ⟨hle, hpair⟩]
              omega

/-- **The pairs one scan counts** for a mark are the supplementary characters up to its start. -/
theorem advance_eq (s : List Char) (a : Mark) :
    advance (pairs s) a = a.move (supplementaries (s.take (a.start.toInt + 1).toNat)) := by
  have h := pairsUpTo_pairsFrom a.start.toInt 0 0 s
  simp only [Nat.add_zero, Nat.zero_add, Int.ofNat_zero, Int.sub_zero] at h
  rw [advance, pairs, h]

/-! ## Where marks settle

A mark counts the characters of a text with references; where it settles counts the units of what
the text says. It keeps its characters when the references before it are told apart from those after
it, which the pass to the left does by comparing the unit at which a reference ends with the
character at which the mark ends (`follows_settle_iff`). -/

open Utf16 Reference

/-! ### Definitions -/

/-- Where a mark on a text comes to lie on what the text says. -/
def settle (s : List Char) (a : Mark) : Mark :=
  advance (pairs (said s)) (a.move
    (-(removedBefore (Piece.escapes (Piece.ofText s)) (max a.start.toInt a.stop.toInt) : Int)))

/-- The second mark takes, on what the text says, just the units of the characters that the first
one takes on the text. -/
structure Follows (s : List Char) (a b : Mark) : Prop where
  start_eq : b.start.toInt = length (said (s.take a.first))
  stop_eq : b.stop.toInt = length (said (s.take a.past))

/-- The mark takes one or more characters of the text, all of the basic plane and none of them in a
reference. -/
structure TakesPlain (s : List Char) (a : Mark) : Prop where
  liesIn : a.LiesIn s.length
  nonempty : a.start < a.stop
  basic : ∀ c ∈ s.extract a.first a.past, isSupplementary c = false
  avoids : Avoids s a.first a.past

instance (s : List Char) (a : Mark) : Decidable (a.TakesPlain s) :=
  decidable_of_iff (a.LiesIn s.length ∧ a.start < a.stop ∧
      supplementaries (s.extract a.first a.past) = 0 ∧ Avoids s a.first a.past)
    ⟨fun h => ⟨h.1, h.2.1, supplementaries_eq_zero.mp h.2.2.1, h.2.2.2⟩,
      fun h => ⟨h.1, h.2, supplementaries_eq_zero.mpr h.3, h.4⟩⟩

/-- Every reference before the mark ends, in units, no later than the mark does in characters. -/
def ClearsEscapes (s : List Char) (a : Mark) : Prop :=
  ∀ first name value, StandsAt s first name value → Reference.past first name ≤ a.first →
    length (s.take (Reference.past first name)) ≤ a.past

instance (s : List Char) (a : Mark) : Decidable (a.ClearsEscapes s) :=
  inferInstanceAs (Decidable (∀ _ _ _, _ → _))

/-- The second mark may be listed after the first: every reference that ends, in units, no later
than the first one begins ends no later than the second one ends. -/
def InStep (s : List Char) (a b : Mark) : Prop :=
  ∀ first name value, StandsAt s first name value →
    (length (s.take (Reference.past first name)) : Int) ≤ a.start.toInt →
      (length (s.take (Reference.past first name)) : Int) ≤ max b.start.toInt b.stop.toInt

instance (s : List Char) (a b : Mark) : Decidable (a.InStep s b) :=
  inferInstanceAs (Decidable (∀ _ _ _, _ → _))

theorem inStepOver_escapes {s : List Char} {a b : Mark} :
    InStepOver (Piece.escapes (Piece.ofText s)) a b ↔ a.InStep s b := by
  constructor
  · intro h first name value hstands
    have hlast := h _ (Piece.mem_escapes_ofText.mpr ⟨first, name, value, hstands, rfl⟩)
    rw [Piece.length_take_past hstands]
    dsimp only at hlast
    omega
  · intro h e he
    obtain ⟨first, name, value, hstands, rfl⟩ := Piece.mem_escapes_ofText.mp he
    have hlast := h first name value hstands
    rw [Piece.length_take_past hstands] at hlast
    dsimp only
    omega

theorem inStep_of_le (s : List Char) {a b : Mark} (h : a.start ≤ b.start) : a.InStep s b :=
  inStepOver_escapes.mp (inStepOver_of_le _ h)

/-- One pass to the left and one to the right settle every mark of a list in step. -/
theorem map_advance_retract {s : List Char} {as : List Mark} (h : as.Pairwise (InStep s)) :
    (retract (Piece.escapes (Piece.ofText s)) as).map (advance (pairs (said s))) =
      as.map (settle s) := by
  rw [retract_eq_map (Piece.pairwise_last_escapes s) (h.imp inStepOver_escapes.mpr), List.map_map]
  rfl

/-! ### The pass to the left -/

/-- **When the order of a list counts.** Every mark of a list is moved over the escapes that end
before it, and over no other, just if the list is in step. -/
theorem retract_eq_map_iff {s : List Char} {as : List Mark} (hlength : length s ≤ 2 ^ 31)
    (hnonneg : ∀ a ∈ as, 0 ≤ a.start.toInt) :
    retract (Piece.escapes (Piece.ofText s)) as =
        as.map (retractOver (Piece.escapes (Piece.ofText s))) ↔
      as.Pairwise (InStep s) := by
  have hunits := Piece.removedUnits_escapesFrom 0 (Piece.sound_ofText s)
  rw [Piece.written_ofText] at hunits
  have hfits : removedUnits (Piece.escapes (Piece.ofText s)) ≤ 2 ^ 31 := by
    rw [Piece.escapes]
    omega
  constructor
  · intro h
    rw [retract_eq_retractPast as (Piece.pairwise_last_escapes s)] at h
    exact (inStepOver_of_retractPast_eq_map (fun e he => Piece.removed_pos he) hfits hnonneg
      h).2.imp inStepOver_escapes.mp
  · intro h
    exact retract_eq_map (Piece.pairwise_last_escapes s) (h.imp inStepOver_escapes.mpr)

theorem removedBefore_eq_iff {escapes : List Escape} {offset : Int}
    (h : ∀ e ∈ escapes, 0 < e.removed) :
    removedBefore escapes offset = removedUnits escapes ↔
      ∀ e ∈ escapes, (e.last : Int) < offset := by
  induction escapes with
  | nil => simp [removedBefore, removedUnits]
  | cons e escapes ih =>
      have he := h e List.mem_cons_self
      have hle := removedBefore_le escapes offset
      rw [removedBefore_cons, removedUnits, List.forall_mem_cons,
        ← ih fun f hf => h f (List.mem_cons_of_mem _ hf)]
      split <;> omega

theorem escapesFrom_map_plain (position : Nat) (s : List Char) :
    Piece.escapesFrom position (s.map Piece.plain) = [] := by
  induction s generalizing position with
  | nil => rfl
  | cons c s ih => exact ih _

namespace TakesPlain

variable {s : List Char} {a : Mark}

theorem first_lt_past (h : a.TakesPlain s) : a.first < a.past :=
  h.liesIn.first_lt_past h.nonempty

theorem max_eq (h : a.TakesPlain s) : max a.start.toInt a.stop.toInt = a.past := by
  have := h.liesIn.start_le_stop
  rw [h.liesIn.past_eq]
  omega

theorem isCut_first (h : a.TakesPlain s) : IsCut s a.first :=
  h.avoids.isCut (Nat.le_refl _) h.liesIn.first_le_past

theorem isCut_past (h : a.TakesPlain s) : IsCut s a.past :=
  h.avoids.isCut h.liesIn.first_le_past (Nat.le_refl _)

theorem length_extract (h : a.TakesPlain s) :
    (s.extract a.first a.past).length = a.past - a.first := by
  have := h.liesIn.past_le
  simp
  omega

theorem said_take_past (h : a.TakesPlain s) :
    said (s.take a.past) = said (s.take a.first) ++ s.extract a.first a.past := by
  rw [said_take_append h.isCut_first h.liesIn.first_le_past h.liesIn.past_le,
    h.avoids.said_extract h.liesIn.past_le]

theorem length_said_take_past (h : a.TakesPlain s) :
    length (said (s.take a.past)) = length (said (s.take a.first)) + (a.past - a.first) := by
  rw [h.said_take_past, Utf16.length_append, length_of_basic h.basic, h.length_extract]

theorem removedBefore_escapes (h : a.TakesPlain s) :
    removedBefore (Piece.escapes (Piece.ofText s)) a.past =
      removedBefore (Piece.escapes (Piece.ofText (s.take a.first))) a.past := by
  have hsplit : Piece.ofText s = Piece.ofText (s.take a.first) ++
      ((s.extract a.first a.past).map Piece.plain ++ Piece.ofText (s.drop a.past)) := by
    rw [h.isCut_past.ofText_eq h.liesIn.past_le,
      ofText_take_append h.isCut_first h.liesIn.first_le_past h.liesIn.past_le,
      h.avoids.ofText_extract h.liesIn.past_le, List.append_assoc]
  have hplain : Piece.Sound ((s.extract a.first a.past).map Piece.plain) := by
    intro name value hmem
    obtain ⟨c, -, hc⟩ := List.mem_map.mp hmem
    cases hc
  rw [hsplit, Piece.escapes, Piece.escapesFrom_append 0 (Piece.sound_ofText _),
    Piece.escapesFrom_append _ hplain, escapesFrom_map_plain, List.nil_append, removedBefore_append,
    Piece.escapes, Nat.add_eq_left]
  apply removedBefore_of_forall_ge
  intro e he
  have hbounds := Piece.bounds_of_mem_escapesFrom (Piece.sound_ofText _) he
  have hfirst : a.first ≤ Piece.written (Piece.ofText (s.take a.first)) := by
    have := h.liesIn.first_le_past
    have := h.liesIn.past_le
    rw [Piece.written_ofText, Utf16.length_eq, List.length_take]
    omega
  have hmiddle : a.past - a.first ≤ Piece.written ((s.extract a.first a.past).map Piece.plain) := by
    rw [← h.avoids.ofText_extract h.liesIn.past_le, Piece.written_ofText, Utf16.length_eq,
      h.length_extract]
    omega
  omega

/-- All references before the mark count for it just if they all end early enough. -/
theorem removedBefore_eq_removedUnits_iff (h : a.TakesPlain s) :
    removedBefore (Piece.escapes (Piece.ofText (s.take a.first))) a.past =
        removedUnits (Piece.escapes (Piece.ofText (s.take a.first))) ↔ a.ClearsEscapes s := by
  have hfirst : a.first ≤ s.length := Nat.le_trans h.liesIn.first_le_past h.liesIn.past_le
  rw [removedBefore_eq_iff fun e he => Piece.removed_pos he]
  constructor
  · intro hlast first name value hstands hpast
    have hmem := Piece.mem_escapes_ofText.mpr
      ⟨first, name, value, (standsAt_take_iff hfirst).mpr ⟨hstands, hpast⟩, rfl⟩
    have := hlast _ hmem
    rw [Piece.length_take_past hstands]
    simp only [Reference.past] at hpast
    simp only [List.take_take, Nat.min_eq_left (show first ≤ a.first by omega)] at this
    omega
  · intro hclears e he
    obtain ⟨first, name, value, hstands, rfl⟩ := Piece.mem_escapes_ofText.mp he
    obtain ⟨hstands, hpast⟩ := (standsAt_take_iff hfirst).mp hstands
    have := hclears first name value hstands hpast
    rw [Piece.length_take_past hstands] at this
    simp only [Reference.past] at hpast
    simp only [List.take_take, Nat.min_eq_left (show first ≤ a.first by omega)]
    omega

theorem clearsEscapes_of_basic (h : a.TakesPlain s) (hbasic : ∀ c ∈ s, isSupplementary c = false) :
    a.ClearsEscapes s := by
  intro first name value _ hpast
  have hlt := h.first_lt_past
  rw [length_take_of_basic hbasic]
  omega

end TakesPlain

/-! ### Both passes -/

theorem removedUnits_add_length_said {s : List Char} (hs : SaysBasic s) :
    removedUnits (Piece.escapes (Piece.ofText s)) + (said s).length = s.length := by
  have h := Piece.removedUnits_escapesFrom 0 (Piece.sound_ofText s)
  have hsaid : Utf16.length (Piece.text (Piece.ofText s)) = Utf16.length (said s) := rfl
  rw [Piece.written_ofText, hsaid, Utf16.length_eq, Utf16.length_eq, hs.supplementaries_said] at h
  have hesc : Piece.escapesFrom 0 (Piece.ofText s) = Piece.escapes (Piece.ofText s) := rfl
  rw [hesc] at h
  omega

/-- Where a mark settles, given what is removed before it and how many pairs come before that. -/
theorem TakesPlain.toInt_settle {s : List Char} {a : Mark} {removed pairs : Nat}
    (h : a.TakesPlain s)
    (hremoved : removedBefore (Piece.escapes (Piece.ofText s)) a.past = removed)
    (hle : removed ≤ a.first)
    (hpairs : supplementaries ((said s).take (a.first - removed + 1)) = pairs) :
    (a.settle s).start.toInt = min (2 ^ 31 - 1) ((a.first - removed + pairs : Nat) : Int) ∧
      (a.settle s).stop.toInt = min (2 ^ 31 - 1) ((a.past - removed + pairs : Nat) : Int) := by
  have hfirst := h.liesIn.first_eq
  have hpast := h.liesIn.past_eq
  have hlt := h.first_lt_past
  have hbound := a.stop.toInt_lt
  have hstart : (shiftOffset a.start (-(removed : Int))).toInt = (a.first - removed : Nat) := by
    rw [toInt_shiftOffset_of_bounds] <;> omega
  have hstop : (shiftOffset a.stop (-(removed : Int))).toInt = (a.past - removed : Nat) := by
    rw [toInt_shiftOffset_of_bounds] <;> omega
  have hcount : (((a.first - removed : Nat) : Int) + 1).toNat = a.first - removed + 1 := by omega
  unfold settle
  rw [advance_eq, h.max_eq, hremoved]
  simp only [move_start, move_stop, hstart, hcount, hpairs]
  rw [toInt_shiftOffset (shiftOffset a.start _), toInt_shiftOffset (shiftOffset a.stop _), hstart,
    hstop]
  constructor <;> omega

theorem TakesPlain.exists_said_eq {s : List Char} {a : Mark} (h : a.TakesPlain s) :
    ∃ c rest, isSupplementary c = false ∧ said s = said (s.take a.first) ++ c :: rest := by
  have hlen := h.length_extract
  have hlt := h.first_lt_past
  cases hextract : s.extract a.first a.past with
  | nil =>
      rw [hextract] at hlen
      simp at hlen
      omega
  | cons c rest =>
      refine ⟨c, rest ++ said (s.drop a.past), h.basic c (by rw [hextract]; simp), ?_⟩
      rw [h.isCut_past.said_eq h.liesIn.past_le, h.said_take_past, hextract]
      simp

/-- **When a mark keeps its characters.** On a text whose references stand for characters of the
basic plane, a mark on plain characters settles on these characters just if the references before it
end early enough and its range fits the type of offsets. -/
theorem follows_settle_iff {s : List Char} {a : Mark} (h : a.TakesPlain s) (hs : SaysBasic s) :
    a.Follows s (a.settle s) ↔
      a.ClearsEscapes s ∧ length (said (s.take a.past)) < 2 ^ 31 := by
  have hlt := h.first_lt_past
  have hfirst : a.first ≤ s.length := Nat.le_trans h.liesIn.first_le_past h.liesIn.past_le
  have htotal := removedUnits_add_length_said (hs.take a.first)
  rw [List.length_take, Nat.min_eq_left hfirst] at htotal
  have hle := removedBefore_le (Piece.escapes (Piece.ofText (s.take a.first))) a.past
  have hstart : length (said (s.take a.first)) =
      (said (s.take a.first)).length + supplementaries (said (s.take a.first)) := length_eq _
  have hstop := h.length_said_take_past
  obtain ⟨c, rest, hc, hsaid⟩ := h.exists_said_eq
  rw [← h.removedBefore_eq_removedUnits_iff]
  by_cases hclear : removedBefore (Piece.escapes (Piece.ofText (s.take a.first))) a.past =
      removedUnits (Piece.escapes (Piece.ofText (s.take a.first)))
  · have hpairs : supplementaries ((said s).take (a.first -
        removedUnits (Piece.escapes (Piece.ofText (s.take a.first))) + 1)) =
          supplementaries (said (s.take a.first)) := by
      rw [show a.first - removedUnits (Piece.escapes (Piece.ofText (s.take a.first))) =
        (said (s.take a.first)).length by omega, hsaid, List.take_length_add_append]
      simp [supplementaries_cons, hc]
    obtain ⟨hsettle, hsettle'⟩ :=
      h.toInt_settle (h.removedBefore_escapes.trans hclear) (by omega) hpairs
    constructor
    · intro hfollows
      have := hfollows.stop_eq
      exact ⟨hclear, by omega⟩
    · rintro ⟨-, hbound⟩
      exact ⟨by omega, by omega⟩
  · have hless : removedBefore (Piece.escapes (Piece.ofText (s.take a.first))) a.past <
        removedUnits (Piece.escapes (Piece.ofText (s.take a.first))) := by omega
    obtain ⟨k, hk⟩ : ∃ k, a.first -
        removedBefore (Piece.escapes (Piece.ofText (s.take a.first))) a.past + 1 =
          (said (s.take a.first)).length + k := Nat.exists_eq_add_of_le (by omega)
    have hpairs : supplementaries ((said s).take (a.first -
        removedBefore (Piece.escapes (Piece.ofText (s.take a.first))) a.past + 1)) =
          supplementaries (said (s.take a.first)) + supplementaries ((c :: rest).take k) := by
      rw [hk, hsaid, List.take_length_add_append, supplementaries_append]
    obtain ⟨hsettle, hsettle'⟩ := h.toInt_settle h.removedBefore_escapes (by omega) hpairs
    constructor
    · intro hfollows
      have := hfollows.start_eq
      have := hfollows.stop_eq
      omega
    · rintro ⟨hall, -⟩
      exact absurd hall hclear

end TweetText.Mark
