import Mathlib.Data.List.Induction
import Mathlib.Data.Nat.Digits.Defs
import TweetText.Text

/-!
# Numbers in writing

What it is for a text to spell a number: it is made of the digits of the radix, in either case, and
the number is the sum of their values by the powers of the radix. Any number of zeros may come
first, and no number is too long to be read (`read?_eq_some_iff`).
-/

namespace TweetText.Digits

/-! ## One digit -/

theorem isAlphanum_iff {c : Char} : c.isAlphanum ↔
    (0x30 ≤ c.toNat ∧ c.toNat ≤ 0x39) ∨ (0x41 ≤ c.toNat ∧ c.toNat ≤ 0x5A) ∨
      (0x61 ≤ c.toNat ∧ c.toNat ≤ 0x7A) := by
  delta Char.isAlphanum Char.isAlpha Char.isUpper Char.isLower Char.isDigit
  simp only [Bool.or_eq_true, Bool.and_eq_true, decide_eq_true_eq, UInt32.le_iff_toNat_le,
    ge_iff_le]
  show ((0x41 ≤ c.toNat ∧ c.toNat ≤ 0x5A) ∨ (0x61 ≤ c.toNat ∧ c.toNat ≤ 0x7A)) ∨
    (0x30 ≤ c.toNat ∧ c.toNat ≤ 0x39) ↔ _
  omega

theorem toNat_toLower (c : Char) :
    c.toLower.toNat = if 0x41 ≤ c.toNat ∧ c.toNat ≤ 0x5A then c.toNat + 0x20 else c.toNat := by
  unfold Char.toLower
  split
  · rename_i h
    rw [ge_iff_le, UInt32.le_iff_toNat_le, UInt32.le_iff_toNat_le] at h
    have hupper : 0x41 ≤ c.toNat ∧ c.toNat ≤ 0x5A := h
    have hval : c.val.toNat = c.toNat := rfl
    have hgap : ('a'.val - 'A'.val).toNat = 0x20 := by decide
    rw [if_pos hupper]
    show (c.val + ('a'.val - 'A'.val)).toNat = c.toNat + 0x20
    rw [UInt32.toNat_add]
    omega
  · rename_i h
    rw [ge_iff_le, UInt32.le_iff_toNat_le, UInt32.le_iff_toNat_le] at h
    exact (if_neg h).symm

theorem toNat_toUpper (c : Char) :
    c.toUpper.toNat = if 0x61 ≤ c.toNat ∧ c.toNat ≤ 0x7A then c.toNat - 0x20 else c.toNat := by
  unfold Char.toUpper
  split
  · rename_i h
    rw [UInt32.le_iff_toNat_le, UInt32.le_iff_toNat_le] at h
    have hlower : 0x61 ≤ c.toNat ∧ c.toNat ≤ 0x7A := h
    have hval : c.val.toNat = c.toNat := rfl
    have hgap : ('A'.val - 'a'.val).toNat = 2 ^ 32 - 0x20 := by decide
    rw [if_pos hlower]
    show (c.val + ('A'.val - 'a'.val)).toNat = c.toNat - 0x20
    rw [UInt32.toNat_add]
    omega
  · rename_i h
    rw [UInt32.le_iff_toNat_le, UInt32.le_iff_toNat_le] at h
    exact (if_neg h).symm

theorem toNat_digitChar {d : Nat} (h : d < 16) :
    (Nat.digitChar d).toNat = if d < 10 then 0x30 + d else 0x57 + d := by
  have : ∀ d : Fin 16,
      (Nat.digitChar d).toNat = if d.val < 10 then 0x30 + d.val else 0x57 + d.val := by decide
  exact this ⟨d, h⟩

/-- A digit is, in lower case, the one that is written for its value. -/
theorem value?_eq_some_iff {c : Char} {d : Nat} :
    value? c = some d ↔ c.toLower = Nat.digitChar d ∧ d < 16 := by
  constructor
  · intro h
    have hd : d < 16 := by
      simp only [value?] at h
      grind
    refine ⟨Char.toNat_inj.mp ?_, hd⟩
    rw [toNat_toLower, toNat_digitChar hd]
    simp only [value?] at h
    grind
  · rintro ⟨h, hd⟩
    have hnat := congrArg Char.toNat h
    rw [toNat_toLower, toNat_digitChar hd] at hnat
    simp only [value?]
    grind

theorem ofRadix?_eq_some_iff {radix : Nat} (hradix : radix ≤ 16) {c : Char} {d : Nat} :
    ofRadix? radix c = some d ↔ c.toLower = Nat.digitChar d ∧ d < radix := by
  rw [ofRadix?, Option.filter_eq_some_iff, value?_eq_some_iff, decide_eq_true_iff]
  constructor
  · rintro ⟨⟨hc, -⟩, hd⟩
    exact ⟨hc, hd⟩
  · rintro ⟨hc, hd⟩
    exact ⟨⟨hc, by omega⟩, hd⟩

/-! ## Numbers -/

/-- The text is one or more digits of the radix, each in either case, whose values are the digits
of the number. -/
def Spells (radix : Nat) (s : List Char) (n : Nat) : Prop :=
  s ≠ [] ∧ ∃ ds : List Nat, s.map Char.toLower = ds.map Nat.digitChar ∧ (∀ d ∈ ds, d < radix) ∧
    Nat.ofDigits radix ds.reverse = n

theorem Spells.exists_digitChar {radix n : Nat} {s : List Char} (h : Spells radix s n) {c : Char}
    (hc : c ∈ s) : ∃ d < radix, c.toLower = Nat.digitChar d := by
  obtain ⟨-, ds, hs, hds, -⟩ := h
  have hmem := List.mem_map_of_mem (f := Char.toLower) hc
  rw [hs] at hmem
  obtain ⟨d, hd, heq⟩ := List.mem_map.mp hmem
  exact ⟨d, hds d hd, heq.symm⟩

theorem Spells.isAlphanum {radix n : Nat} {s : List Char} (hradix : radix ≤ 16)
    (h : Spells radix s n) : ∀ c ∈ s, c.isAlphanum := by
  intro c hc
  obtain ⟨d, hd, heq⟩ := h.exists_digitChar hc
  have hnat := congrArg Char.toNat heq
  rw [toNat_toLower, toNat_digitChar (by omega)] at hnat
  rw [isAlphanum_iff]
  split at hnat
  · omega
  · split at hnat <;> omega

theorem Spells.cons_zero {radix n : Nat} {s : List Char} (hradix : 0 < radix)
    (h : Spells radix s n) : Spells radix ('0' :: s) n := by
  obtain ⟨-, ds, hs, hds, hn⟩ := h
  refine ⟨List.cons_ne_nil _ _, 0 :: ds, ?_, List.forall_mem_cons.mpr ⟨hradix, hds⟩, ?_⟩
  · rw [List.map_cons, List.map_cons, hs]
    rfl
  · rw [List.reverse_cons, Nat.ofDigits_append_zero, hn]

theorem toNat_eq_ofDigits (radix : Nat) (ds : List Nat) :
    toNat radix ds = Nat.ofDigits radix ds.reverse := by
  rw [toNat, Nat.ofDigits_eq_foldr, List.foldr_reverse]
  simp only [Nat.cast_id, Nat.mul_comm radix, Nat.add_comm]

theorem mapM_ofRadix?_eq_some_iff {radix : Nat} (hradix : radix ≤ 16) {s : List Char}
    {ds : List Nat} : s.mapM (ofRadix? radix) = some ds ↔
      s.map Char.toLower = ds.map Nat.digitChar ∧ ∀ d ∈ ds, d < radix := by
  induction s generalizing ds with
  | nil => cases ds <;> simp [pure]
  | cons c s ih =>
      cases ds with
      | nil => simp [List.mapM_cons, bind, pure, Option.bind_eq_some_iff]
      | cons d ds =>
          simp only [List.mapM_cons, bind, pure, Option.bind_eq_some_iff, ih,
            ofRadix?_eq_some_iff hradix, Option.some.injEq, List.cons.injEq, List.map_cons,
            List.forall_mem_cons]
          constructor
          · rintro ⟨_, ⟨hc, hd⟩, _, ⟨hs, hds⟩, rfl, rfl⟩
            exact ⟨⟨hc, hs⟩, hd, hds⟩
          · rintro ⟨⟨hc, hs⟩, hd, hds⟩
            exact ⟨d, ⟨hc, hd⟩, ds, ⟨hs, hds⟩, rfl, rfl⟩

/-- What a text spells is what its characters are read as, one by one. -/
theorem spells_iff {radix n : Nat} (hradix : radix ≤ 16) {s : List Char} :
    Spells radix s n ↔
      s ≠ [] ∧ ∃ ds, s.mapM (ofRadix? radix) = some ds ∧ toNat radix ds = n := by
  simp only [Spells, mapM_ofRadix?_eq_some_iff hradix, toNat_eq_ofDigits, and_assoc]

theorem Spells.unique {radix m n : Nat} {s : List Char} (hradix : radix ≤ 16)
    (hm : Spells radix s m) (hn : Spells radix s n) : m = n := by
  obtain ⟨-, ds, hds, rfl⟩ := (spells_iff hradix).mp hm
  obtain ⟨-, ds', hds', rfl⟩ := (spells_iff hradix).mp hn
  rw [hds, Option.some.injEq] at hds'
  rw [hds']

theorem Spells.lt_pow {radix n : Nat} {s : List Char} (hradix : 1 < radix)
    (h : Spells radix s n) : n < radix ^ s.length := by
  obtain ⟨-, ds, hs, hds, rfl⟩ := h
  have hlength : s.length = ds.reverse.length := by simpa using congrArg List.length hs
  rw [hlength]
  exact Nat.ofDigits_lt_base_pow_length hradix fun d hd => hds d (List.mem_reverse.mp hd)

/-! ## Numbers in upper case -/

theorem toNat_upper {d : Nat} (h : d < 16) :
    (upper d).toNat = if d < 10 then 0x30 + d else 0x37 + d := by
  have : ∀ d : Fin 16, (upper d).toNat = if d.val < 10 then 0x30 + d.val else 0x37 + d.val := by
    decide
  exact this ⟨d, h⟩

theorem toUpper_eq_upper_iff {c : Char} {d : Nat} (hd : d < 16) :
    c.toUpper = upper d ↔ c.toLower = Nat.digitChar d := by
  rw [← Char.toNat_inj, ← Char.toNat_inj, toNat_toUpper, toNat_toLower, toNat_upper hd,
    toNat_digitChar hd]
  grind

theorem map_toUpper_eq_iff {s : List Char} {ds : List Nat} (hds : ∀ d ∈ ds, d < 16) :
    s.map Char.toUpper = ds.map upper ↔ s.map Char.toLower = ds.map Nat.digitChar := by
  induction s generalizing ds with
  | nil => cases ds <;> simp
  | cons c s ih =>
      cases ds with
      | nil => simp
      | cons d ds =>
          obtain ⟨hd, hds⟩ := List.forall_mem_cons.mp hds
          simp only [List.map_cons, List.cons.injEq, toUpper_eq_upper_iff hd, ih hds]

theorem upperHex_ofDigits {ds : List Nat} (hds : ∀ d ∈ ds, d < 16) :
    upperHex ds.length (Nat.ofDigits 16 ds.reverse) = ds.map upper := by
  induction ds using List.reverseRecOn with
  | nil => rfl
  | append_singleton ds d ih =>
      obtain ⟨hds, hd⟩ := List.forall_mem_append.mp hds
      have hd : d < 16 := hd d List.mem_cons_self
      rw [List.reverse_append, List.reverse_singleton, List.singleton_append, Nat.ofDigits_cons,
        List.length_append, List.length_singleton, upperHex, Nat.add_mul_div_left _ _ (by decide),
        Nat.div_eq_of_lt hd, Nat.zero_add, ih hds, Nat.add_mul_mod_self_left, Nat.mod_eq_of_lt hd,
        List.map_append, List.map_singleton]

theorem exists_ofDigits_eq {count n : Nat} (h : n < 16 ^ count) :
    ∃ ds : List Nat, ds.length = count ∧ (∀ d ∈ ds, d < 16) ∧ Nat.ofDigits 16 ds.reverse = n := by
  induction count generalizing n with
  | zero => exact ⟨[], rfl, by simp, (Nat.lt_one_iff.mp h).symm⟩
  | succ count ih =>
      obtain ⟨ds, hlength, hds, hn⟩ := ih (n := n / 16) (by omega)
      refine ⟨ds ++ [n % 16], by simp [hlength], ?_, ?_⟩
      · exact List.forall_mem_append.mpr ⟨hds, by simpa using Nat.mod_lt _ (by decide)⟩
      · rw [List.reverse_append, List.reverse_singleton, List.singleton_append, Nat.ofDigits_cons,
          hn, Nat.mod_add_div]

/-- What is written spells the number, and it is the only such text in upper case that is as long. -/
theorem map_toUpper_eq_upperHex_iff {s : List Char} {n : Nat} (hs : s ≠ [])
    (h : n < 16 ^ s.length) : s.map Char.toUpper = upperHex s.length n ↔ Spells 16 s n := by
  constructor
  · intro hupper
    obtain ⟨ds, hlength, hds, rfl⟩ := exists_ofDigits_eq h
    rw [← hlength, upperHex_ofDigits hds, map_toUpper_eq_iff hds] at hupper
    exact ⟨hs, ds, hupper, hds, rfl⟩
  · rintro ⟨-, ds, hlower, hds, rfl⟩
    have hlength : s.length = ds.length := by simpa using congrArg List.length hlower
    rw [hlength, upperHex_ofDigits hds, map_toUpper_eq_iff hds, hlower]

theorem map_toUpper_upperHex (count n : Nat) :
    (upperHex count n).map Char.toUpper = upperHex count n := by
  induction count generalizing n with
  | zero => rfl
  | succ count ih =>
      have hupper : ∀ d : Fin 16, (upper d.val).toUpper = upper d.val := by decide
      have hlt : n % 16 < 16 := Nat.mod_lt n (by decide)
      rw [upperHex, List.map_append, ih, List.map_singleton, hupper ⟨n % 16, hlt⟩]

theorem spells_upperHex {count n : Nat} (hcount : count ≠ 0) (h : n < 16 ^ count) :
    Spells 16 (upperHex count n) n := by
  have hlength := length_upperHex count n
  have hne : upperHex count n ≠ [] := List.ne_nil_of_length_pos (by omega)
  refine (map_toUpper_eq_upperHex_iff hne (by rwa [hlength])).mp ?_
  rw [hlength, map_toUpper_upperHex]

/-! ## Numbers of a fixed width

A number of a fixed width is put together digit by digit, and each step checks the product and the
sum. A step fails just if its exact result takes more bits (`shiftIn?_eq`), and more digits never
make a number smaller, so a failure on the way means that the whole number takes more bits. What
comes out is therefore the exact number, and nothing comes out just if that number is too large,
whatever the count of digits (`toWord?_eq`). Zeros in front cost nothing. -/

variable {width radix : Nat}

/-- One digit more is exact or fails. -/
theorem shiftIn?_eq (hradix : radix < 2 ^ width) {d : Nat} (hd : d < radix) (n : BitVec width) :
    shiftIn? radix n d =
      if n.toNat * radix + d < 2 ^ width then some (.ofNat width (n.toNat * radix + d))
      else none := by
  have hr : (BitVec.ofNat width radix).toNat = radix := Nat.mod_eq_of_lt hradix
  have hd' : (BitVec.ofNat width d).toNat = d := Nat.mod_eq_of_lt (hd.trans hradix)
  have hproduct : n * .ofNat width radix = .ofNat width (n.toNat * radix) := by
    rw [BitVec.ofNat_mul, BitVec.ofNat_toNat, BitVec.setWidth_eq]
  simp only [shiftIn?, BitVec.umulOverflow, BitVec.uaddOverflow, hr, hd', hproduct,
    ← BitVec.ofNat_add, Bool.or_eq_true, decide_eq_true_eq]
  by_cases hshifted : n.toNat * radix < 2 ^ width
  · rw [BitVec.toNat_ofNat, Nat.mod_eq_of_lt hshifted]
    by_cases hfits : n.toNat * radix + d < 2 ^ width
    · rw [if_neg (by omega), if_pos hfits]
    · rw [if_pos (Or.inr (by omega)), if_neg hfits]
  · rw [if_pos (Or.inl (by omega)), if_neg (by omega)]

/-- More digits never make a number smaller. -/
theorem le_foldl_digits (hradix : 0 < radix) (digits : List Nat) (n : Nat) :
    n ≤ digits.foldl (fun n d => n * radix + d) n := by
  induction digits generalizing n with
  | nil => exact le_rfl
  | cons d digits ih =>
      calc n ≤ n * radix := Nat.le_mul_of_pos_right n hradix
        _ ≤ n * radix + d := Nat.le_add_right _ _
        _ ≤ _ := ih _

theorem foldlM_shiftIn?_eq (hradix : radix < 2 ^ width) {digits : List Nat}
    (hdigits : ∀ d ∈ digits, d < radix) (n : BitVec width) :
    digits.foldlM (shiftIn? radix) n =
      if digits.foldl (fun n d => n * radix + d) n.toNat < 2 ^ width then
        some (.ofNat width (digits.foldl (fun n d => n * radix + d) n.toNat))
      else none := by
  induction digits generalizing n with
  | nil => simp [pure, n.isLt]
  | cons d digits ih =>
      obtain ⟨hd, hdigits⟩ := List.forall_mem_cons.mp hdigits
      rw [List.foldlM_cons, List.foldl_cons, shiftIn?_eq hradix hd]
      by_cases hfits : n.toNat * radix + d < 2 ^ width
      · rw [if_pos hfits]
        refine (ih hdigits _).trans ?_
        rw [BitVec.toNat_ofNat, Nat.mod_eq_of_lt hfits]
      · have hle := le_foldl_digits (Nat.zero_lt_of_lt hd) digits (n.toNat * radix + d)
        rw [if_neg hfits, if_neg (by omega)]
        rfl

/-- **A word is read exactly or not at all.** -/
theorem toWord?_eq (hradix : radix < 2 ^ width) {digits : List Nat}
    (hdigits : ∀ d ∈ digits, d < radix) :
    toWord? width radix digits =
      if toNat radix digits < 2 ^ width then some (.ofNat width (toNat radix digits)) else none := by
  rw [toWord?, foldlM_shiftIn?_eq hradix hdigits]
  rfl

theorem toWord?_eq_some_iff (hradix : radix < 2 ^ width) {digits : List Nat}
    (hdigits : ∀ d ∈ digits, d < radix) {n : BitVec width} :
    toWord? width radix digits = some n ↔ toNat radix digits = n.toNat := by
  rw [toWord?_eq hradix hdigits]
  split
  · rename_i hfits
    rw [Option.some.injEq, ← BitVec.toNat_inj, BitVec.toNat_ofNat, Nat.mod_eq_of_lt hfits]
  · have := n.isLt
    exact iff_of_false nofun (by omega)

/-- Exactly the texts that spell a number of the width are read, and as that number. -/
theorem readWord?_eq_some_iff (hradix : radix ≤ 16) (hfits : radix < 2 ^ width) {s : List Char}
    {n : BitVec width} : readWord? width radix s = some n ↔ Spells radix s n.toNat := by
  rw [readWord?, spells_iff hradix]
  cases s with
  | nil => simp
  | cons c s =>
      simp only [List.isEmpty_cons, Bool.false_eq_true, if_false, Option.bind_eq_some_iff, ne_eq,
        reduceCtorEq, not_false_eq_true, true_and]
      refine exists_congr fun digits => and_congr_right fun hdigits => ?_
      exact toWord?_eq_some_iff hfits ((mapM_ofRadix?_eq_some_iff hradix).mp hdigits).2

end TweetText.Digits
