import Mathlib.Data.List.Basic
import Mathlib.Data.List.DropRight
import Mathlib.Data.List.Induction
import TweetText.Text

/-!
# Units of texts

How the units of a text count its characters, how units are read as characters again, and what is
left of a text when its ends are trimmed.
-/

namespace TweetText

/-! ## Code points and units

A text has as many UTF-16 units as it has code points and supplementary characters together. So the
number of supplementary characters before a place is all that parts the two ways to count them. -/

namespace Utf16

def isSupplementary (c : Char) : Bool := supplementary ≤ c.toNat

/-- How many characters of a text are outside of the basic plane. -/
def supplementaries (s : List Char) : Nat := s.countP isSupplementary

theorem width_eq (c : Char) : width c = if isSupplementary c then 2 else 1 := by
  unfold width isSupplementary
  by_cases h : c.toNat < supplementary
  · simp [h]
  · simp [h, Nat.le_of_not_lt h]

@[simp] theorem supplementaries_nil : supplementaries [] = 0 := rfl

theorem supplementaries_cons (c : Char) (s : List Char) :
    supplementaries (c :: s) = supplementaries s + if isSupplementary c then 1 else 0 :=
  List.countP_cons

@[simp] theorem supplementaries_append (s t : List Char) :
    supplementaries (s ++ t) = supplementaries s + supplementaries t :=
  List.countP_append

theorem length_eq (s : List Char) : length s = s.length + supplementaries s := by
  induction s with
  | nil => rfl
  | cons c s ih =>
      rw [length_cons, ih, width_eq, supplementaries_cons, List.length_cons]
      split <;> omega

theorem supplementaries_eq_zero {s : List Char} :
    supplementaries s = 0 ↔ ∀ c ∈ s, isSupplementary c = false := by
  simp [supplementaries, List.countP_eq_zero]

theorem length_of_basic {s : List Char} (h : ∀ c ∈ s, isSupplementary c = false) :
    length s = s.length := by
  rw [length_eq, supplementaries_eq_zero.mpr h, Nat.add_zero]

theorem length_take_of_basic {s : List Char} (h : ∀ c ∈ s, isSupplementary c = false) (n : Nat) :
    length (s.take n) = min n s.length := by
  rw [length_of_basic fun c hc => h c (List.mem_of_mem_take hc), List.length_take]

@[simp] theorem ofChars_nil : ofChars [] = [] := rfl

@[simp] theorem ofChars_append (s t : List Char) : ofChars (s ++ t) = ofChars s ++ ofChars t :=
  List.flatMap_append

theorem ofString_eq_nil {s : String} : ofString s = [] ↔ s = "" := by
  constructor
  · intro h
    have hlen : length s.toList = 0 := by
      rw [← length_ofChars]
      exact congrArg List.length h
    rw [length_eq] at hlen
    apply String.toList_inj.mp
    exact List.eq_nil_of_length_eq_zero (by omega)
  · rintro rfl
    rfl

/-! ## Reading units

Units are read as characters, a pair as one character and an unpaired surrogate as U+FFFD. As that
one is again a single unit, no unit changes its place when it is read (`length_ofChars_chars`). A
list of units cut where no pair goes across the cut is read part by part (`chars_append`), so a
range can be read on its own or as a part of the whole (`extract_ofChars_chars`). The units of a
text never begin in the middle of a pair or end there. -/

/-! ### Characters and surrogates -/

theorem isLead_iff {u : UInt16} : isLead u ↔ 0xD800 ≤ u.toNat ∧ u.toNat < 0xDC00 := by
  rw [isLead, Bool.and_eq_true, decide_eq_true_eq, decide_eq_true_eq, UInt16.le_iff_toNat_le,
    UInt16.lt_iff_toNat_lt]
  rfl

theorem isTrail_iff {u : UInt16} : isTrail u ↔ 0xDC00 ≤ u.toNat ∧ u.toNat < 0xE000 := by
  rw [isTrail, Bool.and_eq_true, decide_eq_true_eq, decide_eq_true_eq, UInt16.le_iff_toNat_le,
    UInt16.lt_iff_toNat_lt]
  rfl

theorem toNat_ofNat {n : Nat} (h : n.isValidChar) : (Char.ofNat n).toNat = n := by
  rw [Char.ofNat, dif_pos h]
  rfl

theorem le_iff_toNat_le {c d : Char} : c ≤ d ↔ c.toNat ≤ d.toNat := by
  rw [Char.le_def, UInt32.le_iff_toNat_le]
  rfl

theorem ofChar_cases (c : Char) :
    (∃ u, ofChar c = [u] ∧ ¬ isLead u ∧ ¬ isTrail u) ∨
      ∃ u v, ofChar c = [u, v] ∧ isLead u ∧ isTrail v := by
  have hvalid : c.toNat < 0xD800 ∨ 0xDFFF < c.toNat ∧ c.toNat < 0x110000 := c.valid
  unfold ofChar
  split
  · rename_i hbasic
    rw [supplementary] at hbasic
    have hunit : c.toNat.toUInt16.toNat = c.toNat := UInt16.toNat_ofNat_of_lt' hbasic
    refine Or.inl ⟨_, rfl, ?_, ?_⟩
    · rw [isLead_iff, hunit]
      omega
    · rw [isTrail_iff, hunit]
      omega
  · rename_i hpair
    rw [supplementary] at hpair ⊢
    have hlead : (0xD800 + (c.toNat - 0x10000) / 0x400).toUInt16.toNat =
        0xD800 + (c.toNat - 0x10000) / 0x400 := by
      apply UInt16.toNat_ofNat_of_lt'
      rw [UInt16.size]
      omega
    have htrail : (0xDC00 + (c.toNat - 0x10000) % 0x400).toUInt16.toNat =
        0xDC00 + (c.toNat - 0x10000) % 0x400 := by
      apply UInt16.toNat_ofNat_of_lt'
      rw [UInt16.size]
      omega
    refine Or.inr ⟨_, _, rfl, ?_, ?_⟩
    · rw [isLead_iff, hlead]
      omega
    · rw [isTrail_iff, htrail]
      omega

theorem not_isTrail_of_head? {s : List Char} {u : UInt16} (h : (ofChars s).head? = some u) :
    ¬ isTrail u := by
  cases s with
  | nil => cases h
  | cons c s =>
      rw [ofChars, List.flatMap_cons] at h
      rcases ofChar_cases c with ⟨v, hchar, -, htrail⟩ | ⟨v, w, hchar, hlead, -⟩
      · rw [hchar] at h
        cases h
        exact htrail
      · rw [hchar] at h
        cases h
        rw [isLead_iff] at hlead
        rw [isTrail_iff]
        omega

theorem not_isLead_of_getLast? {s : List Char} {u : UInt16} (h : (ofChars s).getLast? = some u) :
    ¬ isLead u := by
  induction s using List.reverseRecOn with
  | nil => cases h
  | append_singleton s c ih =>
      have hsingle : ofChars [c] = ofChar c := List.append_nil _
      rw [ofChars_append, hsingle, List.getLast?_append] at h
      rcases ofChar_cases c with ⟨v, hchar, hlead, -⟩ | ⟨v, w, hchar, -, htrail⟩
      · rw [hchar] at h
        cases h
        exact hlead
      · rw [hchar] at h
        obtain rfl : w = u := Option.some.inj h
        rw [isTrail_iff] at htrail
        rw [isLead_iff]
        omega

/-! ### Nothing changes its place -/

theorem width_ofSingle (u : UInt16) : width (ofSingle u) = 1 := by
  unfold ofSingle
  split
  · decide
  · rename_i h
    rw [Bool.or_eq_true, isLead_iff, isTrail_iff] at h
    have hlt := u.toNat_lt
    rw [width, toNat_ofNat (by omega), supplementary, if_pos (by omega)]

theorem width_ofPair {u v : UInt16} (hu : isLead u) (hv : isTrail v) : width (ofPair u v) = 2 := by
  rw [isLead_iff] at hu
  rw [isTrail_iff] at hv
  rw [ofPair, width, supplementary, toNat_ofNat (by omega), if_neg (by omega)]

/-- **Reading keeps places.** The text read has as many units as there were. -/
theorem length_ofChars_chars (units : List UInt16) :
    (ofChars (chars units)).length = units.length := by
  rw [length_ofChars]
  induction units using chars.induct with
  | case1 => rfl
  | case2 u => rw [chars, length_cons, width_ofSingle, length_nil, List.length_singleton]
  | case3 u v rest hpair ih =>
      rw [chars, if_pos hpair, length_cons, ih]
      rw [Bool.and_eq_true] at hpair
      rw [width_ofPair hpair.1 hpair.2, List.length_cons, List.length_cons]
      omega
  | case4 u v rest hpair ih =>
      rw [chars, if_neg hpair, length_cons, ih, width_ofSingle, Nat.add_comm]
      rfl

/-! ### Reading parts -/

/-- No pair goes across from the end of the first list to the second one. -/
def NoPairAcross (before after : List UInt16) : Prop :=
  ∀ u v, before.getLast? = some u → after.head? = some v → ¬ (isLead u ∧ isTrail v)

theorem chars_append {before after : List UInt16} (h : NoPairAcross before after) :
    chars (before ++ after) = chars before ++ chars after := by
  induction before using chars.induct with
  | case1 => rfl
  | case2 u =>
      cases after with
      | nil => rfl
      | cons v rest =>
          have hpair : ¬ (isLead u && isTrail v) = true := by
            rw [Bool.and_eq_true]
            exact h u v rfl rfl
          show (if isLead u && isTrail v then _ else ofSingle u :: chars (v :: rest)) = _
          rw [if_neg hpair]
          rfl
  | case3 u v rest hpair ih =>
      have hrest : NoPairAcross rest after := by
        intro w x hw hx
        apply h w x _ hx
        rw [List.getLast?_cons, List.getLast?_cons, hw]
        rfl
      rw [List.cons_append, List.cons_append, chars, chars, if_pos hpair, if_pos hpair, ih hrest]
      rfl
  | case4 u v rest hpair ih =>
      have hrest : NoPairAcross (v :: rest) after := by
        intro w x hw hx
        exact h w x (List.getLast?_cons_cons.trans hw) hx
      have ih := ih hrest
      rw [List.cons_append] at ih
      rw [List.cons_append, List.cons_append, chars, chars, if_neg hpair, if_neg hpair, ih]
      rfl

/-- A range that no pair reaches into or out of is read alike on its own and within the whole. -/
theorem extract_ofChars_chars {before units after : List UInt16}
    (hbefore : NoPairAcross before (units ++ after)) (hafter : NoPairAcross units after) :
    (ofChars (chars (before ++ (units ++ after)))).extract before.length
      (before.length + units.length) = ofChars (chars units) := by
  rw [chars_append hbefore, chars_append hafter, ofChars_append, ofChars_append,
    List.extract_eq_take_drop, Nat.add_sub_cancel_left, ← length_ofChars_chars before,
    List.drop_left, ← length_ofChars_chars units, List.take_left]

end Utf16

/-! ## Trimming ends

A trimmed text is the text up to the first place from which on everything is dropped, and so its
longest part from the start that does not end in anything to be dropped. -/

/-! ### Lists -/

section

variable {α : Type} {p : α → Bool}

theorem isPrefix_dropLastWhile (p : α → Bool) (l : List α) : dropLastWhile p l <+: l := by
  rw [← List.reverse_suffix, dropLastWhile, List.reverse_reverse]
  exact List.dropWhile_suffix p

theorem dropLastWhile_eq_take (p : α → Bool) (l : List α) :
    dropLastWhile p l = l.take (dropLastWhile p l).length :=
  List.prefix_iff_eq_take.mp (isPrefix_dropLastWhile p l)

/-- A list is trimmed at a place or before it just if everything from there on is dropped. -/
theorem length_dropLastWhile_le_iff {l : List α} {position : Nat} :
    (dropLastWhile p l).length ≤ position ↔ ∀ x ∈ l.drop position, p x := by
  induction l using List.reverseRecOn with
  | nil => simp
  | append_singleton l x ih =>
      rw [dropLastWhile_concat]
      by_cases hle : position ≤ l.length
      · rw [List.drop_append_of_le_length hle, List.forall_mem_append]
        split
        · rename_i hx
          simpa [hx] using ih
        · rename_i hx
          simp [hx]
          omega
      · have hlen := (isPrefix_dropLastWhile p l).length_le
        rw [List.drop_eq_nil_of_le (by simp; omega)]
        split
        · simp
          omega
        · simp
          omega

theorem dropLastWhile_append_of_forall {l m : List α} (h : ∀ x ∈ m, p x) :
    dropLastWhile p (l ++ m) = dropLastWhile p l := by
  induction m using List.reverseRecOn with
  | nil => rw [List.append_nil]
  | append_singleton m x ih =>
      rw [List.forall_mem_append] at h
      rw [← List.append_assoc, dropLastWhile_concat, if_pos (h.2 x List.mem_cons_self)]
      exact ih h.1

theorem dropLastWhile_append_of_not_forall {l m : List α} (h : ¬ ∀ x ∈ m, p x) :
    dropLastWhile p (l ++ m) = l ++ dropLastWhile p m := by
  induction m using List.reverseRecOn with
  | nil => simp at h
  | append_singleton m x ih =>
      rw [← List.append_assoc, dropLastWhile_concat, dropLastWhile_concat]
      split
      · rename_i hx
        apply ih
        intro hall
        exact h (List.forall_mem_append.mpr ⟨hall, List.forall_mem_singleton.mpr hx⟩)
      · exact List.append_assoc l m [x]

/-- What is put into a list cannot be seen once the list is trimmed just if it is nothing, or it and
all that follows it is dropped. -/
theorem dropLastWhile_put_eq_iff (l put m : List α) :
    dropLastWhile p (l ++ put ++ m) = dropLastWhile p (l ++ m) ↔
      put = [] ∨ ∀ x ∈ put ++ m, p x := by
  rw [List.forall_mem_append]
  by_cases hrest : ∀ x ∈ m, p x
  · rw [dropLastWhile_append_of_forall hrest, dropLastWhile_append_of_forall hrest]
    by_cases hput : ∀ x ∈ put, p x
    · rw [dropLastWhile_append_of_forall hput]
      exact iff_of_true rfl (Or.inr ⟨hput, hrest⟩)
    · rw [dropLastWhile_append_of_not_forall hput]
      have hstays : 0 < (dropLastWhile p put).length := by
        by_contra hzero
        exact hput (by simpa using length_dropLastWhile_le_iff.mp (Nat.le_of_not_lt hzero))
      have hle := (isPrefix_dropLastWhile p l).length_le
      refine iff_of_false ?_ ?_
      · intro heq
        have := congrArg List.length heq
        rw [List.length_append] at this
        omega
      · rintro (rfl | ⟨hall, -⟩)
        · exact hput fun x hx => by cases hx
        · exact hput hall
  · rw [dropLastWhile_append_of_not_forall hrest, dropLastWhile_append_of_not_forall hrest]
    constructor
    · intro heq
      have := congrArg List.length heq
      simp only [List.length_append] at this
      exact Or.inl (List.length_eq_zero_iff.mp (by omega))
    · rintro (rfl | ⟨-, hall⟩)
      · rw [List.append_nil]
      · exact absurd hall hrest

theorem dropLastWhile_eq_self {l : List α} (h : ∀ x, l.getLast? = some x → ¬ p x) :
    dropLastWhile p l = l :=
  List.rdropWhile_eq_self_iff.mpr fun hne => h _ (List.getLast?_eq_some_getLast hne)

/-- The longest prefix of a list that does not end in an element which is to be dropped. -/
structure LongestKept (p : α → Bool) (l kept : List α) : Prop where
  isPrefix : kept <+: l
  last : ∀ x, kept.getLast? = some x → ¬ p x
  longest : ∀ m, m <+: l → (∀ x, m.getLast? = some x → ¬ p x) → m <+: kept

theorem longestKept_dropLastWhile (p : α → Bool) (l : List α) :
    LongestKept p l (dropLastWhile p l) where
  isPrefix := isPrefix_dropLastWhile p l
  last := by
    intro x hx
    obtain ⟨hne, rfl⟩ := List.mem_getLast?_eq_getLast hx
    exact List.rdropWhile_last_not p l hne
  longest := by
    rintro m ⟨rest, rfl⟩ hm
    by_cases hrest : ∀ x ∈ rest, p x
    · have hkept : dropLastWhile p (m ++ rest) = m := by
        rw [dropLastWhile_append_of_forall hrest, dropLastWhile_eq_self hm]
      exact ⟨[], by rw [List.append_nil, hkept]⟩
    · rw [dropLastWhile_append_of_not_forall hrest]
      exact List.prefix_append _ _

theorem dropLastWhile_idem (p : α → Bool) (l : List α) :
    dropLastWhile p (dropLastWhile p l) = dropLastWhile p l :=
  dropLastWhile_eq_self (longestKept_dropLastWhile p l).last

end

/-! ### Blanks at both ends -/

theorem exists_eq_append_stripBlanks (s : List Char) :
    ∃ before after : List Char, s = before ++ stripBlanks s ++ after ∧
      (∀ c ∈ before, isBlank c) ∧ ∀ c ∈ after, isBlank c := by
  refine ⟨s.takeWhile isBlank, (s.dropWhile isBlank).rtakeWhile isBlank, ?_,
    fun c hc => List.mem_takeWhile_imp hc, fun c hc => List.mem_rtakeWhile_imp hc⟩
  have hsplit : stripBlanks s ++ (s.dropWhile isBlank).rtakeWhile isBlank = s.dropWhile isBlank :=
    List.rdropWhile_append_rtakeWhile
  rw [List.append_assoc, hsplit, List.takeWhile_append_dropWhile]

theorem stripBlanks_append {before word after : List Char} (hbefore : ∀ c ∈ before, isBlank c)
    (hword : ∀ c ∈ word, ¬ isBlank c) (hafter : ∀ c ∈ after, isBlank c) :
    stripBlanks (before ++ word ++ after) = word := by
  rw [stripBlanks, List.append_assoc, List.dropWhile_append_of_pos hbefore]
  cases word with
  | nil =>
      rw [List.nil_append, List.dropWhile_eq_nil_iff.mpr hafter, dropLastWhile_nil]
  | cons c word =>
      rw [List.cons_append, List.dropWhile_cons_of_neg (hword c List.mem_cons_self),
        ← List.cons_append, dropLastWhile_append_of_forall hafter]
      exact dropLastWhile_eq_self fun x hx => hword x (List.mem_of_getLast? hx)

end TweetText
