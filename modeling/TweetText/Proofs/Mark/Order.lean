import Mathlib.Algebra.Group.Int.Defs
import Mathlib.Algebra.Group.Nat.Defs
import Mathlib.Data.List.Forall2
import Mathlib.Data.List.Pairwise
import TweetText.Mark

/-!
# Marks in order

Marks have ranges of 32-bit offsets. They are sorted by their starts, and those of which any two lie
apart or share a range form a queue.
-/

/-! ## Offsets of marks

Offsets are 32-bit numbers held at the bounds of their type, and they may be negative. A mark that
lies in a text has a range in natural numbers. -/

namespace TweetText.Mark

/-! ### Moving -/

theorem toInt_shiftOffset (offset : Int32) (distance : Int) :
    (shiftOffset offset distance).toInt =
      max (-2 ^ 31) (min (2 ^ 31 - 1) (offset.toInt + distance)) := by
  have hmax : Int32.maxValue.toInt = 2 ^ 31 - 1 := by decide
  have hmin : Int32.minValue.toInt = -2 ^ 31 := by decide
  unfold shiftOffset Int32.ofIntClamp
  split
  · split
    · rename_i hl hr
      rw [hmin] at hl
      rw [hmax] at hr
      rw [Int32.ofIntLE, Int32.toInt_ofInt_of_le (by omega) (by omega)]
      omega
    · rename_i hl hr
      rw [hmax] at hr ⊢
      omega
  · rename_i hl
    rw [hmin] at hl ⊢
    omega

theorem toInt_shiftOffset_of_bounds {offset : Int32} {distance : Int}
    (hlow : -2 ^ 31 ≤ offset.toInt + distance) (hhigh : offset.toInt + distance < 2 ^ 31) :
    (shiftOffset offset distance).toInt = offset.toInt + distance := by
  rw [toInt_shiftOffset]
  omega

@[simp] theorem move_zero (a : Mark) : a.move 0 = a := by
  have hshift : ∀ offset : Int32, shiftOffset offset 0 = offset := by
    intro offset
    apply Int32.toInt_inj.mp
    have := offset.toInt_lt
    have := offset.le_toInt
    rw [toInt_shiftOffset_of_bounds] <;> omega
  simp [move, hshift]

@[simp] theorem move_start (a : Mark) (distance : Int) :
    (a.move distance).start = shiftOffset a.start distance := rfl

@[simp] theorem move_stop (a : Mark) (distance : Int) :
    (a.move distance).stop = shiftOffset a.stop distance := rfl

/-- The second mark is the first one with both offsets moved by a distance, each held at the bounds
of its type, and with nothing else changed. -/
structure MovedBy (distance : Int) (a b : Mark) : Prop where
  start_eq : b.start.toInt = max (-2 ^ 31) (min (2 ^ 31 - 1) (a.start.toInt + distance))
  stop_eq : b.stop.toInt = max (-2 ^ 31) (min (2 ^ 31 - 1) (a.stop.toInt + distance))
  others_eq : b = { a with start := b.start, stop := b.stop }

theorem movedBy_move (distance : Int) (a : Mark) : MovedBy distance a (a.move distance) :=
  ⟨toInt_shiftOffset a.start distance, toInt_shiftOffset a.stop distance, rfl⟩

/-! ### Ranges -/

/-- The range of the mark lies in a text of that length. -/
structure LiesIn (a : Mark) (length : Nat) : Prop where
  start_nonneg : 0 ≤ a.start.toInt
  start_le_stop : a.start.toInt ≤ a.stop.toInt
  stop_le : a.stop.toInt ≤ length

instance (a : Mark) (length : Nat) : Decidable (a.LiesIn length) :=
  decidable_of_iff (0 ≤ a.start.toInt ∧ a.start.toInt ≤ a.stop.toInt ∧ a.stop.toInt ≤ length)
    ⟨fun h => ⟨h.1, h.2.1, h.2.2⟩, fun h => ⟨h.1, h.2, h.3⟩⟩

def first (a : Mark) : Nat := a.start.toInt.toNat

def past (a : Mark) : Nat := a.stop.toInt.toNat

/-- One of the two ranges ends before the other one begins. -/
def Apart (a b : Mark) : Prop := a.stop ≤ b.start ∨ b.stop ≤ a.start

instance (a b : Mark) : Decidable (a.Apart b) := inferInstanceAs (Decidable (_ ∨ _))

namespace LiesIn

variable {a : Mark} {length : Nat}

theorem first_eq (h : a.LiesIn length) : (a.first : Int) = a.start.toInt :=
  Int.toNat_of_nonneg h.start_nonneg

theorem past_eq (h : a.LiesIn length) : (a.past : Int) = a.stop.toInt :=
  Int.toNat_of_nonneg (Int.le_trans h.start_nonneg h.start_le_stop)

theorem first_le_past (h : a.LiesIn length) : a.first ≤ a.past := by
  have := h.start_le_stop
  rw [← h.first_eq, ← h.past_eq] at this
  omega

theorem first_lt_past (h : a.LiesIn length) (hne : a.start < a.stop) : a.first < a.past := by
  rw [Int32.lt_iff_toInt_lt, ← h.first_eq, ← h.past_eq] at hne
  omega

theorem past_le (h : a.LiesIn length) : a.past ≤ length := by
  have := h.stop_le
  rw [← h.past_eq] at this
  omega

theorem of_past_le (h : a.LiesIn length) {n : Nat} (hle : a.past ≤ n) : a.LiesIn n := by
  refine ⟨h.start_nonneg, h.start_le_stop, ?_⟩
  rw [← h.past_eq]
  exact Int.ofNat_le.mpr hle

end LiesIn

/-! ## Sorted marks

Marks are sorted by their starts. Those that lie apart then stand one after the other, each ending
no later than the next one begins. -/

theorem perm_sortByStart (as : List Mark) : (sortByStart as).Perm as :=
  List.mergeSort_perm as _

theorem start_le_trans (a b c : Mark) (hab : decide (a.start ≤ b.start))
    (hbc : decide (b.start ≤ c.start)) : decide (a.start ≤ c.start) := by
  simp only [decide_eq_true_eq, Int32.le_iff_toInt_le] at hab hbc ⊢
  exact Int.le_trans hab hbc

theorem start_le_total (a b : Mark) : decide (a.start ≤ b.start) || decide (b.start ≤ a.start) := by
  simp only [Bool.or_eq_true, decide_eq_true_eq, Int32.le_iff_toInt_le]
  exact Int.le_total _ _

theorem pairwise_sortByStart (as : List Mark) :
    (sortByStart as).Pairwise fun a b => a.start ≤ b.start := by
  have h : (sortByStart as).Pairwise fun a b => decide (a.start ≤ b.start) :=
    List.pairwise_mergeSort start_le_trans start_le_total as
  simpa using h

theorem sortByStart_of_pairwise {as : List Mark} (h : as.Pairwise fun a b => a.start ≤ b.start) :
    sortByStart as = as :=
  List.mergeSort_of_pairwise (by simpa using h)

theorem sortByStart_map {f : Mark → Mark} {as : List Mark}
    (h : ∀ a ∈ as, ∀ b ∈ as, (a.start ≤ b.start ↔ (f a).start ≤ (f b).start)) :
    sortByStart (as.map f) = (sortByStart as).map f := by
  rw [sortByStart, sortByStart, List.map_mergeSort]
  intro a ha b hb
  simp [h a ha b hb]

/-! ### Marks with one start -/

theorem filter_start_sortByStart (start : Int32) (as : List Mark) :
    (sortByStart as).filter (·.start == start) = as.filter (·.start == start) := by
  have hsame : (as.filter (·.start == start)).Pairwise fun a b => decide (a.start ≤ b.start) := by
    apply List.pairwise_of_forall_mem_list
    intro a ha b hb
    rw [beq_iff_eq.mp (List.mem_filter.mp ha).2, beq_iff_eq.mp (List.mem_filter.mp hb).2]
    simp
  have hsublist : (as.filter (·.start == start)).Sublist (sortByStart as) :=
    List.sublist_mergeSort start_le_trans start_le_total hsame List.filter_sublist
  have hfilter := hsublist.filter (·.start == start)
  rw [List.filter_filter] at hfilter
  simp only [Bool.and_self] at hfilter
  exact (hfilter.eq_of_length ((perm_sortByStart as).filter _).length_eq.symm).symm

theorem mem_iff_of_filter_start {as bs : List Mark}
    (h : ∀ start, as.filter (·.start == start) = bs.filter (·.start == start)) {a : Mark} :
    a ∈ as ↔ a ∈ bs := by
  have hiff : a ∈ as.filter (·.start == a.start) ↔ a ∈ bs.filter (·.start == a.start) := by
    rw [h]
  simpa using hiff

theorem start_le_of_mem {a b : Mark} {as : List Mark}
    (h : (a :: as).Pairwise fun a b => a.start ≤ b.start) (hb : b ∈ a :: as) :
    a.start ≤ b.start := by
  rcases List.mem_cons.mp hb with rfl | hb
  · exact Int32.le_iff_toInt_le.mpr (Int.le_refl _)
  · exact List.rel_of_pairwise_cons h hb

/-- Marks in order are known by those at each start. -/
theorem eq_of_filter_start {as bs : List Mark} (has : as.Pairwise fun a b => a.start ≤ b.start)
    (hbs : bs.Pairwise fun a b => a.start ≤ b.start)
    (h : ∀ start, as.filter (·.start == start) = bs.filter (·.start == start)) : as = bs := by
  induction as generalizing bs with
  | nil =>
      symm
      rw [List.eq_nil_iff_forall_not_mem]
      intro b hb
      cases (mem_iff_of_filter_start h).mpr hb
  | cons a as ih =>
      cases bs with
      | nil => cases (mem_iff_of_filter_start h).mp List.mem_cons_self
      | cons b bs =>
          have hab := start_le_of_mem has ((mem_iff_of_filter_start h).mpr List.mem_cons_self)
          have hba := start_le_of_mem hbs ((mem_iff_of_filter_start h).mp List.mem_cons_self)
          rw [Int32.le_iff_toInt_le] at hab hba
          have hstart : a.start = b.start := Int32.toInt_inj.mp (Int.le_antisymm hab hba)
          have hfirst := h a.start
          rw [List.filter_cons_of_pos (by simp), List.filter_cons_of_pos (by simp [hstart])]
            at hfirst
          obtain ⟨rfl, -⟩ := List.cons.inj hfirst
          rw [ih has.of_cons hbs.of_cons]
          intro start
          have hrest := h start
          rw [List.filter_cons, List.filter_cons] at hrest
          split at hrest
          · exact (List.cons.inj hrest).2
          · exact hrest

/-- The second list has the marks of the first in the order of their starts, and at each start in
the order in which the first has them. -/
structure StablySorts (as bs : List Mark) : Prop where
  perm : bs.Perm as
  sorted : bs.Pairwise fun a b => a.start ≤ b.start
  stable : ∀ start, bs.filter (·.start == start) = as.filter (·.start == start)

theorem stablySorts_iff {as bs : List Mark} : StablySorts as bs ↔ bs = sortByStart as := by
  constructor
  · intro h
    apply eq_of_filter_start h.sorted (pairwise_sortByStart as)
    intro start
    rw [h.stable, filter_start_sortByStart]
  · rintro rfl
    exact ⟨perm_sortByStart as, pairwise_sortByStart as,
      fun start => filter_start_sortByStart start as⟩

/-- What is sorted only hangs on which marks there are at each start, and in which order. -/
theorem sortByStart_congr {as bs : List Mark}
    (h : ∀ start, as.filter (·.start == start) = bs.filter (·.start == start)) :
    sortByStart as = sortByStart bs := by
  apply eq_of_filter_start (pairwise_sortByStart as) (pairwise_sortByStart bs)
  intro start
  rw [filter_start_sortByStart, filter_start_sortByStart, h]

theorem filter_start_of_perm {as bs : List Mark} (hperm : as.Perm bs)
    (hstarts : as.Pairwise fun a b => a.start ≠ b.start) (start : Int32) :
    as.filter (·.start == start) = bs.filter (·.start == start) := by
  have hfilter := hperm.filter (·.start == start)
  have hone := hstarts.filter (·.start == start)
  have hstart : ∀ a ∈ as.filter (·.start == start), a.start = start := by
    intro a ha
    exact beq_iff_eq.mp (List.mem_filter.mp ha).2
  cases hlist : as.filter (·.start == start) with
  | nil =>
      rw [hlist] at hfilter
      exact hfilter.nil_eq
  | cons a rest =>
      cases rest with
      | nil =>
          rw [hlist] at hfilter
          exact (List.perm_singleton.mp hfilter.symm).symm
      | cons b rest =>
          rw [hlist] at hone hstart
          have hne := List.rel_of_pairwise_cons hone List.mem_cons_self
          exact absurd ((hstart a (by simp)).trans (hstart b (by simp)).symm) hne

/-- Marks with starts of their own have one order only. -/
theorem sortByStart_eq_of_perm {as bs : List Mark} (hperm : as.Perm bs)
    (hstarts : as.Pairwise fun a b => a.start ≠ b.start)
    (hbs : bs.Pairwise fun a b => a.start ≤ b.start) : sortByStart as = bs := by
  apply eq_of_filter_start (pairwise_sortByStart as) hbs
  intro start
  rw [filter_start_sortByStart, filter_start_of_perm hperm hstarts]

/-- Sorting lists one after the other does not depend on how each of them lists its marks, as long
as these have starts of their own. -/
theorem sortByStart_flatten_of_perm {ls ls' : List (List Mark)}
    (h : List.Forall₂ (fun as bs => as.Perm bs ∧ as.Pairwise fun a b => a.start ≠ b.start) ls ls') :
    sortByStart ls.flatten = sortByStart ls'.flatten := by
  apply sortByStart_congr
  intro start
  rw [List.filter_flatten, List.filter_flatten]
  congr 1
  rw [← List.forall₂_eq_eq_eq, List.forall₂_map_left_iff, List.forall₂_map_right_iff]
  exact h.imp fun as bs hlist => filter_start_of_perm hlist.1 hlist.2 start

/-! ### Marks that lie apart -/

theorem Apart.symm {a b : Mark} (h : a.Apart b) : b.Apart a := Or.symm h

theorem pairwise_apart_sortByStart {as : List Mark} :
    (sortByStart as).Pairwise Apart ↔ as.Pairwise Apart :=
  (perm_sortByStart as).pairwise_iff fun h => h.symm

/-- Of marks that lie apart the one that begins first ends before the other, which would otherwise
end before it begins. -/
theorem Apart.stop_le_start {a b : Mark} (h : a.Apart b) (hle : a.start ≤ b.start)
    (hne : b.start < b.stop) : a.stop ≤ b.start := by
  rcases h with h | h
  · exact h
  · rw [Int32.le_iff_toInt_le] at h hle
    rw [Int32.lt_iff_toInt_lt] at hne
    omega

theorem pairwise_stop_le_start {as : List Mark} (hsorted : as.Pairwise fun a b => a.start ≤ b.start)
    (hapart : as.Pairwise Apart) (hne : ∀ a ∈ as, a.start < a.stop) :
    as.Pairwise fun a b => a.stop ≤ b.start := by
  induction as with
  | nil => exact List.Pairwise.nil
  | cons a as ih =>
      rw [List.pairwise_cons] at hsorted hapart ⊢
      refine ⟨?_, ih hsorted.2 hapart.2 fun b hb => hne b (List.mem_cons_of_mem _ hb)⟩
      intro b hb
      exact (hapart.1 b hb).stop_le_start (hsorted.1 b hb) (hne b (List.mem_cons_of_mem _ hb))

/-! ## Marks that share a range

Several marks may take one range, as the media of a Tweet do. Marks in order of which any two lie
apart or share their range form a queue: each one begins behind all before it or takes the range of
the last one again. -/

/-! ### One range -/

/-- Both marks take one range. -/
def SameRange (a b : Mark) : Prop := a.start = b.start ∧ a.stop = b.stop

instance (a b : Mark) : Decidable (a.SameRange b) := inferInstanceAs (Decidable (_ ∧ _))

theorem SameRange.symm {a b : Mark} (h : a.SameRange b) : b.SameRange a := ⟨h.1.symm, h.2.symm⟩

theorem sameRange_of_start_eq {length : Nat} {as : List Mark}
    (hlies : ∀ a ∈ as, a.LiesIn length ∧ a.start < a.stop)
    (hshare : as.Pairwise fun a b => a.Apart b ∨ a.SameRange b) {a b : Mark} (ha : a ∈ as)
    (hb : b ∈ as) (hstart : a.start = b.start) : a.SameRange b := by
  by_cases hab : a = b
  · exact hab ▸ ⟨rfl, rfl⟩
  · have : Std.Symm fun a b : Mark => a.Apart b ∨ a.SameRange b :=
      ⟨fun _ _ h => h.imp Apart.symm SameRange.symm⟩
    rcases hshare.forall ha hb hab with (h | h) | h
    · have hlt := (hlies a ha).2
      rw [hstart, Int32.lt_iff_toInt_lt] at hlt
      rw [Int32.le_iff_toInt_le] at h
      omega
    · have hlt := (hlies b hb).2
      rw [← hstart, Int32.lt_iff_toInt_lt] at hlt
      rw [Int32.le_iff_toInt_le] at h
      omega
    · exact h

/-! ### Queues -/

/-- Of marks in order, those that begin behind the marks before them and behind a place. If marks
lie apart or share a range, this is one for each range. -/
def heads (cursor : Nat) : List Mark → List Mark
  | [] => []
  | a :: as => if cursor ≤ a.first then a :: heads a.past as else heads cursor as

/-- Marks in order on a text, each behind the ones before it or on the range of the last one, which
goes from `first` to `cursor`. -/
inductive Queue (length : Nat) : Nat → Nat → List Mark → Prop
  | nil {first cursor : Nat} : Queue length first cursor []
  | next {first cursor : Nat} {a : Mark} {as : List Mark} (hlies : a.LiesIn length)
      (hne : a.first < a.past) (hle : cursor ≤ a.first) (rest : Queue length a.first a.past as) :
      Queue length first cursor (a :: as)
  | again {first cursor : Nat} {a : Mark} {as : List Mark} (hlies : a.LiesIn length)
      (hne : a.first < a.past) (hfirst : a.first = first) (hpast : a.past = cursor)
      (rest : Queue length first cursor as) : Queue length first cursor (a :: as)

/-- Marks in order that lie apart or share a range form a queue. -/
theorem queue_of_pairwise {length first cursor : Nat} {as : List Mark}
    (hlies : ∀ a ∈ as, a.LiesIn length ∧ a.start < a.stop)
    (hsorted : as.Pairwise fun a b => a.start ≤ b.start)
    (hshare : as.Pairwise fun a b => a.Apart b ∨ a.SameRange b)
    (hmeets : ∀ a ∈ as, cursor ≤ a.first ∨ a.first = first ∧ a.past = cursor) :
    Queue length first cursor as := by
  induction as generalizing first cursor with
  | nil => exact Queue.nil
  | cons a as ih =>
      rw [List.forall_mem_cons] at hlies hmeets
      rw [List.pairwise_cons] at hsorted hshare
      have hne := hlies.1.1.first_lt_past hlies.1.2
      rcases hmeets.1 with hle | ⟨hfirst, hpast⟩
      · refine Queue.next hlies.1.1 hne hle (ih hlies.2 hsorted.2 hshare.2 ?_)
        intro b hb
        obtain ⟨hliesb, hneb⟩ := hlies.2 b hb
        rcases hshare.1 b hb with h | h
        · have hbehind := h.stop_le_start (hsorted.1 b hb) hneb
          rw [Int32.le_iff_toInt_le, ← hlies.1.1.past_eq, ← hliesb.first_eq] at hbehind
          omega
        · right
          rw [Mark.first, Mark.first, Mark.past, Mark.past, h.1, h.2]
          exact ⟨rfl, rfl⟩
      · exact Queue.again hlies.1.1 hne hfirst hpast (ih hlies.2 hsorted.2 hshare.2 hmeets.2)

theorem Queue.le_first {length first cursor : Nat} {as : List Mark}
    (h : Queue length first cursor as) (hle : first ≤ cursor) : ∀ b ∈ as, first ≤ b.first := by
  induction h with
  | nil => simp
  | next hlies hne hcursor rest ih =>
      rw [List.forall_mem_cons]
      refine ⟨by omega, fun b hb => ?_⟩
      have := ih (Nat.le_of_lt hne) b hb
      omega
  | again hlies hne hfirst hpast rest ih =>
      rw [List.forall_mem_cons]
      exact ⟨by omega, ih hle⟩

theorem Queue.bounds {length first cursor : Nat} {as : List Mark}
    (h : Queue length first cursor as) : ∀ b ∈ as, b.first < b.past ∧ b.past ≤ length := by
  induction h with
  | nil => simp
  | next hlies hne hle rest ih => exact List.forall_mem_cons.mpr ⟨⟨hne, hlies.past_le⟩, ih⟩
  | again hlies hne hfirst hpast rest ih =>
      exact List.forall_mem_cons.mpr ⟨⟨hne, hlies.past_le⟩, ih⟩

theorem Queue.exists_head {length first cursor : Nat} {as : List Mark}
    (h : Queue length first cursor as) : ∀ b ∈ as,
      (b.first = first ∧ b.past = cursor) ∨
        ∃ a ∈ heads cursor as, b.first = a.first ∧ b.past = a.past := by
  induction h with
  | nil => simp
  | @next first cursor a as hlies hne hle rest ih =>
      rw [List.forall_mem_cons, heads, if_pos hle]
      refine ⟨Or.inr ⟨a, List.mem_cons_self, rfl, rfl⟩, fun b hb => Or.inr ?_⟩
      rcases ih b hb with ⟨hfirst, hpast⟩ | ⟨c, hc, hsame⟩
      · exact ⟨a, List.mem_cons_self, hfirst, hpast⟩
      · exact ⟨c, List.mem_cons_of_mem _ hc, hsame⟩
  | @again first cursor a as hlies hne hfirst hpast rest ih =>
      rw [List.forall_mem_cons, heads, if_neg (by omega)]
      exact ⟨Or.inl ⟨hfirst, hpast⟩, ih⟩

theorem Queue.pairwise_heads {length first cursor : Nat} {as : List Mark}
    (h : Queue length first cursor as) :
    ((heads cursor as).Pairwise fun a b => a.past ≤ b.first) ∧
      ∀ a ∈ heads cursor as, cursor ≤ a.first := by
  induction h with
  | nil => simp [heads]
  | next hlies hne hle rest ih =>
      rw [heads, if_pos hle, List.pairwise_cons, List.forall_mem_cons]
      refine ⟨⟨ih.2, ih.1⟩, hle, fun b hb => ?_⟩
      have := ih.2 b hb
      omega
  | again hlies hne hfirst hpast rest ih =>
      rw [heads, if_neg (by omega)]
      exact ih

theorem heads_sublist (cursor : Nat) (as : List Mark) : (heads cursor as).Sublist as := by
  induction as generalizing cursor with
  | nil => exact List.Sublist.slnil
  | cons a as ih =>
      rw [heads]
      split
      · exact (ih _).cons_cons a
      · exact (ih _).cons a

/-- The marks of a second list stand one after the other, and they are one for each range of the
first. -/
structure OneEach (as ranges : List Mark) : Prop where
  sublist : ranges.Sublist as
  covers : ∀ a ∈ as, ∃ b ∈ ranges, a.SameRange b
  behind : ranges.Pairwise fun a b => a.stop ≤ b.start

/-- **The heads of a queue are one for each range.** -/
theorem Queue.oneEach_heads {length : Nat} {as : List Mark} (h : Queue length 0 0 as)
    (hlies : ∀ a ∈ as, a.LiesIn length) : OneEach as (heads 0 as) := by
  have hmem : ∀ a ∈ heads 0 as, a.LiesIn length :=
    fun a ha => hlies a ((heads_sublist 0 as).subset ha)
  refine ⟨heads_sublist 0 as, ?_, ?_⟩
  · intro a ha
    rcases h.exists_head a ha with ⟨-, hpast⟩ | ⟨b, hb, hfirst, hpast⟩
    · have := (h.bounds a ha).1
      omega
    · refine ⟨b, hb, Int32.toInt_inj.mp ?_, Int32.toInt_inj.mp ?_⟩
      · rw [← (hlies a ha).first_eq, ← (hmem b hb).first_eq, hfirst]
      · rw [← (hlies a ha).past_eq, ← (hmem b hb).past_eq, hpast]
  · refine h.pairwise_heads.1.imp_of_mem fun {a b} ha hb hle => ?_
    rw [Int32.le_iff_toInt_le, ← (hmem a ha).past_eq, ← (hmem b hb).first_eq]
    omega

end TweetText.Mark
