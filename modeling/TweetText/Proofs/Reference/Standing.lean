import Mathlib.Data.List.TakeWhile
import TweetText.Proofs.Text.Numbers
import TweetText.Proofs.Text.Units
import TweetText.Reference

/-!
# References in a text

What stands between the signs of a reference, where references stand in a text, and what they stand
for.
-/

namespace TweetText

/-! ## The names of the table

The table lists names of two or more ASCII letters and digits, in the order of their bytes and so
each of them once, with the code points of characters. To read a name is to find it there
(`named?_eq_some_iff`). -/

namespace Reference

namespace Table

/-! ### Bytes of names -/

def bytes (name : String) : List UInt8 := name.toByteArray.data.toList

def isAlphanumByte (b : UInt8) : Bool :=
  (0x30 ≤ b && b ≤ 0x39) || (0x41 ≤ b && b ≤ 0x5A) || (0x61 ≤ b && b ≤ 0x7A)

theorem bytes_ofList (name : List Char) :
    bytes (String.ofList name) = name.flatMap String.utf8EncodeChar := by
  rw [bytes, String.toByteArray_ofList, List.utf8Encode, List.data_toByteArray]

theorem isAlphanumByte_iff {b : UInt8} : isAlphanumByte b ↔
    (0x30 ≤ b.toNat ∧ b.toNat ≤ 0x39) ∨ (0x41 ≤ b.toNat ∧ b.toNat ≤ 0x5A) ∨
      (0x61 ≤ b.toNat ∧ b.toNat ≤ 0x7A) := by
  simp [isAlphanumByte, UInt8.le_iff_toNat_le, or_assoc]

/-- A character whose bytes are letters and digits is one itself, and has a single byte: any other
than an ASCII character begins with a larger one. -/
theorem isAlphanum_of_bytes {c : Char} (h : ∀ b ∈ String.utf8EncodeChar c, isAlphanumByte b) :
    c.isAlphanum ∧ (String.utf8EncodeChar c).length = 1 := by
  have hval : c.val.toNat = c.toNat := rfl
  simp only [isAlphanumByte_iff] at h
  unfold String.utf8EncodeChar at h ⊢
  dsimp only at h ⊢
  split at h
  · rename_i hascii
    have hbyte := h _ List.mem_cons_self
    rw [UInt8.toNat_ofNat'] at hbyte
    rw [if_pos hascii, Digits.isAlphanum_iff]
    exact ⟨by omega, rfl⟩
  · split at h
    · have hbyte := h _ List.mem_cons_self
      rw [UInt8.toNat_ofNat'] at hbyte
      omega
    · split at h
      · have hbyte := h _ List.mem_cons_self
        rw [UInt8.toNat_ofNat'] at hbyte
        omega
      · have hbyte := h _ List.mem_cons_self
        rw [UInt8.toNat_ofNat'] at hbyte
        omega

/-! ### The listing -/

/-- Whether all entries are well listed from a name on: their names come after it in order, each of
two or more letters and digits, and their code points are those of characters. -/
def wellListed (last : List UInt8) : List (String × Nat) → Bool
  | [] => true
  | (name, n) :: rest =>
    (bytes name).all isAlphanumByte && Nat.ble 2 (bytes name).length && decide n.isValidChar &&
      decide (last < bytes name) && wellListed (bytes name) rest

theorem wellListed_all : wellListed [] all = true := by decide +kernel

variable {last : List UInt8} {entries : List (String × Nat)} {entry : String × Nat}

theorem wellListed_cons : wellListed last (entry :: entries) ↔
    ((∀ b ∈ bytes entry.1, isAlphanumByte b) ∧ 2 ≤ (bytes entry.1).length ∧ entry.2.isValidChar) ∧
      last < bytes entry.1 ∧ wellListed (bytes entry.1) entries := by
  simp only [wellListed, Bool.and_eq_true, List.all_eq_true, Nat.ble_eq, decide_eq_true_eq,
    and_assoc]

theorem of_wellListed (h : wellListed last entries) (hmem : entry ∈ entries) :
    ((∀ b ∈ bytes entry.1, isAlphanumByte b) ∧ 2 ≤ (bytes entry.1).length ∧ entry.2.isValidChar) ∧
      last < bytes entry.1 := by
  induction entries generalizing last with
  | nil => cases hmem
  | cons first entries ih =>
      obtain ⟨hfirst, hlast, hrest⟩ := wellListed_cons.mp h
      rcases List.mem_cons.mp hmem with rfl | hmem
      · exact ⟨hfirst, hlast⟩
      · obtain ⟨hentry, hafter⟩ := ih hrest hmem
        exact ⟨hentry, List.lt_trans hlast hafter⟩

theorem eq_of_wellListed (h : wellListed last entries) {entry' : String × Nat}
    (hmem : entry ∈ entries) (hmem' : entry' ∈ entries) (hname : entry.1 = entry'.1) :
    entry = entry' := by
  induction entries generalizing last with
  | nil => cases hmem
  | cons first entries ih =>
      obtain ⟨-, -, hrest⟩ := wellListed_cons.mp h
      have hne : ∀ e ∈ entries, e.1 ≠ first.1 := by
        intro e he heq
        have hlt := (of_wellListed hrest he).2
        rw [heq] at hlt
        exact List.lt_irrefl _ hlt
      rcases List.mem_cons.mp hmem with rfl | hin
      · rcases List.mem_cons.mp hmem' with rfl | hin'
        · rfl
        · exact absurd hname.symm (hne _ hin')
      · rcases List.mem_cons.mp hmem' with rfl | hin'
        · exact absurd hname (hne _ hin)
        · exact ih hrest hin hin'

/-- **Names of the table** are two or more ASCII letters and digits. -/
theorem alphanum_of_mem {name : List Char} {n : Nat} (h : (String.ofList name, n) ∈ all) :
    (∀ c ∈ name, c.isAlphanum) ∧ 2 ≤ name.length := by
  obtain ⟨⟨hbytes, hlength, -⟩, -⟩ := of_wellListed wellListed_all h
  rw [bytes_ofList] at hbytes hlength
  have hchars : ∀ c ∈ name, c.isAlphanum ∧ (String.utf8EncodeChar c).length = 1 := fun c hc =>
    isAlphanum_of_bytes fun b hb => hbytes b (List.mem_flatMap.mpr ⟨c, hc, hb⟩)
  refine ⟨fun c hc => (hchars c hc).1, ?_⟩
  have hone : name.map (fun c => (String.utf8EncodeChar c).length) = name.map fun _ => 1 :=
    List.map_congr_left fun c hc => (hchars c hc).2
  rwa [List.length_flatMap, hone, List.map_const', List.sum_replicate_nat, Nat.mul_one] at hlength

theorem isValidChar_of_mem {name : String} {n : Nat} (h : (name, n) ∈ all) : n.isValidChar :=
  (of_wellListed wellListed_all h).1.2.2

end Table

theorem named?_eq_some_iff {name : List Char} {value : Char} :
    named? name = some value ↔ (String.ofList name, value.toNat) ∈ Table.all := by
  unfold named?
  constructor
  · intro h
    split at h
    · cases h
    · obtain ⟨⟨entry, n⟩, hfind, rfl⟩ := Option.map_eq_some_iff.mp h
      have hmem := List.mem_of_find?_eq_some hfind
      have hname := List.find?_some hfind
      obtain rfl : entry = String.ofList name := by simpa using hname
      rwa [Utf16.toNat_ofNat (Table.isValidChar_of_mem hmem)]
  · intro h
    obtain ⟨halphanum, hlength⟩ := Table.alphanum_of_mem h
    have hne : name ≠ [] := by
      rintro rfl
      simp at hlength
    have hplain : ¬ (name.isEmpty || !name.all Char.isAlphanum) = true := by
      simpa [hne] using halphanum
    rw [if_neg hplain]
    cases hfind : Table.all.find? (·.1 == String.ofList name) with
    | none => simpa using List.find?_eq_none.mp hfind _ h
    | some entry =>
        have hmem := List.mem_of_find?_eq_some hfind
        have hname := List.find?_some hfind
        have heq : entry.1 = String.ofList name := by simpa using hname
        obtain rfl := Table.eq_of_wellListed Table.wellListed_all hmem h heq
        simp only [hfind, Option.map_some, Char.ofNat_toNat]

/-! ## Where references stand

A reference is a matter of the text alone: an ampersand, a name with a value, and a semicolon, where
the name has neither sign in it. The scan from left to right finds exactly these places. So a text
may be cut wherever no reference reaches across the cut, and the pieces of its two parts are the
pieces of the whole (`ofText_append`). -/

/-! ### Names -/

/-- A name, free of semicolons and ampersands, and the character that it stands for. -/
structure Names (name : List Char) (value : Char) : Prop where
  unbroken : ∀ c ∈ name, c ≠ ';' ∧ c ≠ '&'
  value_eq : value? name = some value

theorem name?_eq_some_iff {s name : List Char} :
    name? s = some name ↔
      (∀ c ∈ name, c ≠ ';' ∧ c ≠ '&') ∧ ∃ rest, s = name ++ ';' :: rest := by
  simp only [name?]
  constructor
  · intro h
    split at h
    · rename_i hsemi
      obtain rfl := Option.some.inj h
      refine ⟨fun c hc => by simpa using List.mem_takeWhile_imp hc, ?_⟩
      have hsplit := List.takeWhile_append_dropWhile (p := fun c => c != ';' && c != '&') (l := s)
      cases hrest : s.dropWhile fun c => c != ';' && c != '&' with
      | nil =>
          rw [hrest, List.append_nil] at hsplit
          simp [hsplit] at hsemi
      | cons c rest =>
          rw [hrest] at hsplit
          have hc : c = ';' := by
            conv at hsemi => lhs; arg 1; rw [← hsplit]
            simpa using hsemi
          subst hc
          exact ⟨rest, hsplit.symm⟩
    · simp at h
  · rintro ⟨hplain, rest, rfl⟩
    have htake : (name ++ ';' :: rest).takeWhile (fun c => c != ';' && c != '&') = name := by
      rw [List.takeWhile_append_of_pos]
      · simp
      · intro c hc
        simpa using hplain c hc
    simp [htake]

theorem leading?_eq_some_iff {s name : List Char} {value : Char} :
    leading? s = some (name, value) ↔ Names name value ∧ ∃ rest, s = name ++ ';' :: rest := by
  simp only [leading?, Option.bind_eq_some_iff, Option.map_eq_some_iff, Prod.mk.injEq]
  constructor
  · rintro ⟨_, hname, _, hvalue, rfl, rfl⟩
    obtain ⟨hplain, hrest⟩ := name?_eq_some_iff.mp hname
    exact ⟨⟨hplain, hvalue⟩, hrest⟩
  · rintro ⟨hname, hrest⟩
    exact ⟨name, name?_eq_some_iff.mpr ⟨hname.unbroken, hrest⟩, value, hname.value_eq, rfl, rfl⟩

/-! ### Places -/

/-- A reference stands in the text, its ampersand at the position `first`. -/
def StandsAt (s : List Char) (first : Nat) (name : List Char) (value : Char) : Prop :=
  Names name value ∧ ∃ before after, s = before ++ '&' :: (name ++ ';' :: after) ∧
    before.length = first

/-- The position after the semicolon of a reference. -/
def past (first : Nat) (name : List Char) : Nat := first + name.length + 2

/-- No reference of the text reaches across the position. -/
def IsCut (s : List Char) (position : Nat) : Prop :=
  ∀ first name value, StandsAt s first name value → position ≤ first ∨ past first name ≤ position

/-- No reference of the text meets the range. -/
def Avoids (s : List Char) (start stop : Nat) : Prop :=
  ∀ first name value, StandsAt s first name value → stop ≤ first ∨ past first name ≤ start

theorem StandsAt.append_left {s : List Char} {first : Nat} {name : List Char} {value : Char}
    (h : StandsAt s first name value) (before : List Char) :
    StandsAt (before ++ s) (before.length + first) name value := by
  obtain ⟨hname, front, after, rfl, rfl⟩ := h
  exact ⟨hname, before ++ front, after, by simp, by simp⟩

theorem StandsAt.append_right {s : List Char} {first : Nat} {name : List Char} {value : Char}
    (h : StandsAt s first name value) (after : List Char) :
    StandsAt (s ++ after) first name value := by
  obtain ⟨hname, front, back, rfl, rfl⟩ := h
  exact ⟨hname, front, back ++ after, by simp, rfl⟩

theorem StandsAt.past_le {s : List Char} {first : Nat} {name : List Char} {value : Char}
    (h : StandsAt s first name value) : past first name ≤ s.length := by
  obtain ⟨_, front, back, rfl, rfl⟩ := h
  simp only [past, List.length_append, List.length_cons]
  omega

theorem standsAt_take_iff {s : List Char} {stop first : Nat} {name : List Char} {value : Char}
    (hstop : stop ≤ s.length) :
    StandsAt (s.take stop) first name value ↔
      StandsAt s first name value ∧ past first name ≤ stop := by
  constructor
  · intro h
    have hpast := h.past_le
    rw [List.length_take, Nat.min_eq_left hstop] at hpast
    have := h.append_right (s.drop stop)
    rw [List.take_append_drop] at this
    exact ⟨this, hpast⟩
  · rintro ⟨⟨hname, before, after, rfl, rfl⟩, hpast⟩
    refine ⟨hname, before, after.take (stop - past before.length name), ?_, rfl⟩
    obtain ⟨k, rfl⟩ := Nat.exists_eq_add_of_le hpast
    have hsplit : before ++ '&' :: (name ++ ';' :: after) =
        (before ++ '&' :: (name ++ [';'])) ++ after := by simp
    have hlen : past before.length name = (before ++ '&' :: (name ++ [';'])).length := by
      simp [past]
      omega
    rw [hsplit, hlen, List.take_length_add_append, Nat.add_sub_cancel_left]
    simp

theorem IsCut.of_append_left (before : List Char) {s : List Char} {position : Nat}
    (h : IsCut (before ++ s) (before.length + position)) : IsCut s position := by
  intro first name value hstands
  rcases h _ _ _ (hstands.append_left before) with h | h
  · exact Or.inl (by omega)
  · exact Or.inr (by simp only [past] at h ⊢; omega)

/-- No reference reaches across the place where another one begins, for its name would have an
ampersand in it. -/
theorem StandsAt.isCut {s : List Char} {first : Nat} {name : List Char} {value : Char}
    (h : StandsAt s first name value) : IsCut s first := by
  intro other name' value' hother
  obtain ⟨-, before, after, rfl, rfl⟩ := h
  obtain ⟨hname', front, back, hsplit, rfl⟩ := hother
  by_contra hcross
  simp only [past, not_or, not_le] at hcross
  obtain ⟨k, hk⟩ : ∃ k, before.length = front.length + 1 + k :=
    ⟨before.length - (front.length + 1), by omega⟩
  have hamp : (name' ++ ';' :: back)[k]? = some '&' := by
    have hget : (before ++ '&' :: (name ++ ';' :: after))[before.length]? = some '&' := by simp
    rw [hsplit, hk, List.getElem?_append_right (by omega)] at hget
    have hk' : front.length + 1 + k - front.length = k + 1 := by omega
    simpa [hk'] using hget
  rcases Nat.lt_or_ge k name'.length with hlt | hge
  · rw [List.getElem?_append_left hlt] at hamp
    exact (hname'.unbroken _ (List.mem_of_getElem? hamp)).2 rfl
  · have hend : k = name'.length := by omega
    subst hend
    simp at hamp

end Reference

/-! ### The scan -/

namespace Piece

open Reference

theorem scan_eq_drop (skip : Nat) (s : List Char) : scan skip s = ofText (s.drop skip) := by
  induction s generalizing skip with
  | nil => cases skip <;> rfl
  | cons c rest ih =>
      cases skip with
      | zero => rfl
      | succ skip => simpa [scan] using ih skip

@[simp] theorem ofText_nil : ofText [] = [] := rfl

theorem ofText_cons {c : Char} {rest : List Char} (h : c = '&' → leading? rest = none) :
    ofText (c :: rest) = plain c :: ofText rest := by
  by_cases hc : c = '&'
  · simp [ofText, scan, hc, h hc]
  · simp [ofText, scan, hc]

theorem ofText_reference {name : List Char} {value : Char} (h : Names name value)
    (rest : List Char) :
    ofText ('&' :: (name ++ ';' :: rest)) = reference name value :: ofText rest := by
  have hlead : leading? (name ++ ';' :: rest) = some (name, value) :=
    leading?_eq_some_iff.mpr ⟨h, rest, rfl⟩
  have hscan : ofText ('&' :: (name ++ ';' :: rest)) =
      reference name value :: scan (name.length + 1) (name ++ ';' :: rest) := by
    simp [ofText, scan, hlead]
  rw [hscan, scan_eq_drop, List.drop_length_add_append]
  rfl

/-- A text is empty, begins with a character that stands for itself, or begins with a whole
reference. -/
theorem ofText_induction {motive : List Char → Prop} (nil : motive [])
    (plain : ∀ c rest, (c = '&' → leading? rest = none) → motive rest → motive (c :: rest))
    (reference : ∀ name value rest, Names name value → motive rest →
      motive ('&' :: (name ++ ';' :: rest))) (s : List Char) : motive s := by
  induction hn : s.length using Nat.strong_induction_on generalizing s with
  | h n ih =>
      subst hn
      cases s with
      | nil => exact nil
      | cons c rest =>
          by_cases hlead : c = '&' ∧ leading? rest ≠ none
          · obtain ⟨rfl, hlead⟩ := hlead
            obtain ⟨⟨name, value⟩, hlead⟩ := Option.ne_none_iff_exists'.mp hlead
            obtain ⟨hname, rest, rfl⟩ := leading?_eq_some_iff.mp hlead
            exact reference name value rest hname (ih rest.length (by simp; omega) rest rfl)
          · have hplain : c = '&' → leading? rest = none := by
              intro hc
              by_contra hne
              exact hlead ⟨hc, hne⟩
            exact plain c rest hplain (ih rest.length (by simp) rest rfl)

theorem flatMap_source_ofText (s : List Char) : (ofText s).flatMap source = s := by
  induction s using ofText_induction with
  | nil => rfl
  | plain c rest h ih => simp [ofText_cons h, source, ih]
  | reference name value rest h ih => simp [ofText_reference h, source, ih]

/-- **Cutting a text.** Where no reference reaches across, the pieces of the two parts are the
pieces of the whole. -/
theorem ofText_append (s t : List Char) (h : IsCut (s ++ t) s.length) :
    ofText (s ++ t) = ofText s ++ ofText t := by
  induction s using ofText_induction with
  | nil => rfl
  | plain c rest hplain ih =>
      have hcut : IsCut (rest ++ t) rest.length := by
        apply IsCut.of_append_left [c]
        simpa [Nat.add_comm] using h
      have hplain' : c = '&' → leading? (rest ++ t) = none := by
        rintro rfl
        by_contra hne
        obtain ⟨⟨name, value⟩, hlead⟩ := Option.ne_none_iff_exists'.mp hne
        obtain ⟨hname, after, hsplit⟩ := leading?_eq_some_iff.mp hlead
        have hstands : StandsAt ('&' :: rest ++ t) 0 name value :=
          ⟨hname, [], after, by simp [hsplit], rfl⟩
        rcases h _ _ _ hstands with hle | hle
        · simp at hle
        · simp only [past, List.length_cons] at hle
          have hrest : ∃ back, rest = name ++ ';' :: back := by
            have htake : (rest ++ t).take (name.length + 1) = name ++ [';'] := by
              rw [hsplit, List.take_length_add_append]
              rfl
            rw [List.take_append_of_le_length (by omega)] at htake
            refine ⟨rest.drop (name.length + 1), ?_⟩
            rw [← List.take_append_drop (name.length + 1) rest, htake]
            simp
          have := leading?_eq_some_iff.mpr ⟨hname, hrest⟩
          rw [hplain rfl] at this
          simp at this
      rw [List.cons_append, ofText_cons hplain', ofText_cons hplain, ih hcut, List.cons_append]
  | reference name value rest hname ih =>
      have hcut : IsCut (rest ++ t) rest.length := by
        apply IsCut.of_append_left ('&' :: (name ++ [';']))
        simpa [Nat.add_comm, Nat.add_left_comm, Nat.add_assoc] using h
      have hassoc : '&' :: (name ++ ';' :: rest) ++ t = '&' :: (name ++ ';' :: (rest ++ t)) := by
        simp
      rw [hassoc, ofText_reference hname, ofText_reference hname, ih hcut, List.cons_append]

/-- The scan finds a reference wherever one stands. -/
theorem ofText_of_standsAt {before after name : List Char} {value : Char} (h : Names name value) :
    ofText (before ++ '&' :: (name ++ ';' :: after)) =
      ofText before ++ reference name value :: ofText after := by
  have hstands : StandsAt (before ++ '&' :: (name ++ ';' :: after)) before.length name value :=
    ⟨h, before, after, rfl, rfl⟩
  rw [ofText_append _ _ hstands.isCut, ofText_reference h]

theorem names_of_mem_ofText {s name : List Char} {value : Char}
    (h : reference name value ∈ ofText s) : Names name value := by
  induction s using ofText_induction with
  | nil => simp at h
  | plain c rest hplain ih =>
      rw [ofText_cons hplain] at h
      exact ih (by simpa using h)
  | reference name' value' rest hname ih =>
      rw [ofText_reference hname, List.mem_cons] at h
      rcases h with h | h
      · cases h
        exact hname
      · exact ih h

theorem standsAt_of_ofText {s name : List Char} {value : Char} {ps qs : List Piece}
    (h : ofText s = ps ++ reference name value :: qs) :
    StandsAt s (ps.flatMap source).length name value := by
  refine ⟨names_of_mem_ofText (by rw [h]; simp), ps.flatMap source, qs.flatMap source, ?_, rfl⟩
  rw [← flatMap_source_ofText s, h]
  simp [source]

def placesFrom (position : Nat) : List Piece → List (Nat × List Char × Char)
  | [] => []
  | plain _ :: rest => placesFrom (position + 1) rest
  | reference name value :: rest =>
    (position, name, value) :: placesFrom (position + name.length + 2) rest

theorem placesFrom_append (position : Nat) (ps qs : List Piece) :
    placesFrom position (ps ++ qs) =
      placesFrom position ps ++ placesFrom (position + (ps.flatMap source).length) qs := by
  induction ps generalizing position with
  | nil => rfl
  | cons p ps ih =>
      cases p with
      | plain c =>
          have hlen : (source (plain c)).length = 1 := rfl
          simp only [List.cons_append, placesFrom, ih, List.flatMap_cons, List.length_append, hlen,
            Nat.add_assoc]
      | reference name value =>
          have hlen : (source (reference name value)).length = name.length + 2 := by simp [source]
          simp only [List.cons_append, placesFrom, ih, List.flatMap_cons, List.length_append, hlen,
            Nat.add_assoc]

theorem exists_of_mem_placesFrom {position first : Nat} {ps : List Piece} {name : List Char}
    {value : Char} (h : (first, name, value) ∈ placesFrom position ps) :
    ∃ front back, ps = front ++ reference name value :: back ∧
      first = position + (front.flatMap source).length := by
  induction ps generalizing position with
  | nil => simp [placesFrom] at h
  | cons p ps ih =>
      cases p with
      | plain c =>
          obtain ⟨front, back, rfl, rfl⟩ := ih h
          exact ⟨plain c :: front, back, rfl, by simp [source, Nat.add_assoc, Nat.add_comm]⟩
      | reference name' value' =>
          simp only [placesFrom, List.mem_cons, Prod.mk.injEq] at h
          rcases h with ⟨rfl, rfl, rfl⟩ | h
          · exact ⟨[], ps, rfl, rfl⟩
          · obtain ⟨front, back, rfl, rfl⟩ := ih h
            refine ⟨reference name' value' :: front, back, rfl, ?_⟩
            simp only [List.flatMap_cons, List.length_append, source, List.length_cons,
              List.length_nil]
            omega

theorem standsAt_iff_mem_places {s : List Char} {first : Nat} {name : List Char} {value : Char} :
    StandsAt s first name value ↔ (first, name, value) ∈ placesFrom 0 (ofText s) := by
  constructor
  · rintro ⟨hname, before, after, rfl, rfl⟩
    rw [ofText_of_standsAt hname, placesFrom_append, flatMap_source_ofText, Nat.zero_add]
    exact List.mem_append_right _ List.mem_cons_self
  · intro h
    obtain ⟨front, back, hsplit, rfl⟩ := exists_of_mem_placesFrom h
    rw [Nat.zero_add]
    exact standsAt_of_ofText hsplit

theorem ofText_of_forall_not {s : List Char}
    (h : ∀ first name value, ¬ StandsAt s first name value) : ofText s = s.map plain := by
  induction s using ofText_induction with
  | nil => rfl
  | plain c rest hplain ih =>
      rw [ofText_cons hplain, List.map_cons, ih]
      intro first name value hstands
      exact h _ _ _ (hstands.append_left [c])
  | reference name value rest hname ih =>
      exact absurd ⟨hname, [], rest, rfl, rfl⟩ (h 0 name value)

end Piece

/-! ### Deciding -/

namespace Reference

theorem forall_standsAt_iff {s : List Char} {p : Nat → List Char → Char → Prop} :
    (∀ first name value, StandsAt s first name value → p first name value) ↔
      ∀ x ∈ Piece.placesFrom 0 (Piece.ofText s), p x.1 x.2.1 x.2.2 := by
  simp [Piece.standsAt_iff_mem_places]

instance (s : List Char) (p : Nat → List Char → Char → Prop)
    [∀ first name value, Decidable (p first name value)] :
    Decidable (∀ first name value, StandsAt s first name value → p first name value) :=
  decidable_of_iff _ forall_standsAt_iff.symm

instance (s : List Char) (start stop : Nat) : Decidable (Avoids s start stop) :=
  inferInstanceAs (Decidable (∀ _ _ _, _ → _))

/-! ## What references stand for

Between its two signs a reference has a name of the table, or a number sign and the number of its
character, in decimal digits or, after an `x` of either case, in hexadecimal ones. This is said here
of the text alone, and it is just what is read (`value?_eq_some_iff`). A number stands for the
character that has it, and one that no character has stands for none (`numeric?_exact`). Neither a
name nor a number has one of the two signs in it, so a reference ends with its first semicolon
(`names_iff_denotes`). -/

open Digits

/-- What stands between the signs of a reference stands for a character: a listed name, or a number
in one of two radices, of any length and with any number of zeros before it. -/
inductive Denotes : List Char → Char → Prop
  | listed {name : List Char} {value : Char}
      (h : (String.ofList name, value.toNat) ∈ Table.all) : Denotes name value
  | decimal {digits : List Char} {value : Char} (h : Spells 10 digits value.toNat) :
      Denotes ('#' :: digits) value
  | hexadecimal {x : Char} {digits : List Char} {value : Char} (hx : x = 'x' ∨ x = 'X')
      (h : Spells 16 digits value.toNat) : Denotes ('#' :: x :: digits) value

/-! ### Numbers -/

theorem scalar?_eq_some_iff {n : Nat} {value : Char} :
    scalar? n = some value ↔ value.toNat = n := by
  unfold scalar?
  split
  · rename_i h
    rw [Option.some.injEq]
    constructor
    · rintro rfl
      exact Utf16.toNat_ofNat h
    · rintro rfl
      exact Char.ofNat_toNat value
  · rename_i h
    simp only [reduceCtorEq, false_iff]
    rintro rfl
    exact h value.valid

theorem numbered?_eq_some_iff {radix : Nat} (hradix : radix ≤ 16) {digits : List Char}
    {value : Char} : numbered? radix digits = some value ↔ Spells radix digits value.toNat := by
  simp only [numbered?, Option.bind_eq_some_iff, scalar?_eq_some_iff,
    readWord?_eq_some_iff hradix (show radix < 2 ^ 32 by omega)]
  constructor
  · rintro ⟨n, h, hvalue⟩
    rwa [hvalue]
  · intro h
    have hvalue : (BitVec.ofNat 32 value.toNat).toNat = value.toNat :=
      Nat.mod_eq_of_lt value.val.toNat_lt
    exact ⟨.ofNat 32 value.toNat, by rwa [hvalue], hvalue.symm⟩

theorem not_spells_of_hexadecimal {x : Char} (hx : x = 'x' ∨ x = 'X') (digits : List Char)
    (n : Nat) : ¬ Spells 10 (x :: digits) n := by
  intro h
  obtain ⟨d, hd, heq⟩ := h.exists_digitChar List.mem_cons_self
  have hnat := congrArg Char.toNat heq
  rw [toNat_digitChar (by omega), if_pos hd] at hnat
  have hlower : x.toLower.toNat = 0x78 := by
    rcases hx with rfl | rfl <;> rfl
  omega

/-- A number is written in decimal digits or, after an `x` of either case, in hexadecimal ones. -/
inductive Numbers : List Char → Nat → Prop
  | decimal {digits : List Char} {n : Nat} (h : Spells 10 digits n) : Numbers digits n
  | hexadecimal {x : Char} {digits : List Char} {n : Nat} (hx : x = 'x' ∨ x = 'X')
      (h : Spells 16 digits n) : Numbers (x :: digits) n

theorem numbers_hexadecimal_iff {x : Char} (hx : x = 'x' ∨ x = 'X') {digits : List Char} {n : Nat} :
    Numbers (x :: digits) n ↔ Spells 16 digits n := by
  constructor
  · intro h
    cases h with
    | decimal h => exact absurd h (not_spells_of_hexadecimal hx digits n)
    | hexadecimal _ h => exact h
  · exact Numbers.hexadecimal hx

theorem numeric?_eq_some_iff {number : List Char} {value : Char} :
    numeric? number = some value ↔ Numbers number value.toNat := by
  unfold numeric?
  split
  · rw [numbered?_eq_some_iff (by decide), numbers_hexadecimal_iff (Or.inl rfl)]
  · rw [numbered?_eq_some_iff (by decide), numbers_hexadecimal_iff (Or.inr rfl)]
  · rename_i hlower hupper
    rw [numbered?_eq_some_iff (by decide)]
    constructor
    · exact Numbers.decimal
    · intro h
      cases h with
      | decimal h => exact h
      | hexadecimal hx h =>
          rcases hx with rfl | rfl
          · exact absurd rfl (hlower _)
          · exact absurd rfl (hupper _)

theorem exists_toNat_eq_iff {n : Nat} :
    (∃ value : Char, value.toNat = n) ↔ n ≤ 0x10FFFF ∧ ¬ (0xD800 ≤ n ∧ n ≤ 0xDFFF) := by
  have hvalid : n.isValidChar ↔ n ≤ 0x10FFFF ∧ ¬ (0xD800 ≤ n ∧ n ≤ 0xDFFF) := by
    unfold Nat.isValidChar
    omega
  rw [← hvalid]
  constructor
  · rintro ⟨value, rfl⟩
    exact value.valid
  · intro h
    exact ⟨Char.ofNat n, Utf16.toNat_ofNat h⟩

/-- **Numbers stand for the characters that have them.** A character comes out just if the whole
number, of any length, is the number of a character, and it is that character. So no number that is
too large comes out as a character whose number agrees with it in the last 32 bits. -/
theorem numeric?_exact (number : List Char) :
    ((∃ value, numeric? number = some value) ↔
        ∃ n, Numbers number n ∧ n ≤ 0x10FFFF ∧ ¬ (0xD800 ≤ n ∧ n ≤ 0xDFFF)) ∧
      ∀ value, numeric? number = some value ↔ Numbers number value.toNat := by
  refine ⟨?_, fun value => numeric?_eq_some_iff⟩
  simp only [numeric?_eq_some_iff, ← exists_toNat_eq_iff]
  constructor
  · rintro ⟨value, h⟩
    exact ⟨_, h, value, rfl⟩
  · rintro ⟨n, h, value, rfl⟩
    exact ⟨value, h⟩

example : numeric? ['0', '3', '8'] = some '&' ∧
    numeric? ['4', '2', '9', '4', '9', '6', '7', '3', '3', '4'] = none := by decide

/-! ### References -/

/-- What is read is what stands for a character. -/
theorem value?_eq_some_iff {name : List Char} {value : Char} :
    value? name = some value ↔ Denotes name value := by
  unfold value?
  split
  · rename_i number
    rw [numeric?_eq_some_iff]
    constructor
    · intro h
      cases h with
      | decimal h => exact Denotes.decimal h
      | hexadecimal hx h => exact Denotes.hexadecimal hx h
    · intro h
      cases h with
      | listed h =>
          have := (Table.alphanum_of_mem h).1 '#' List.mem_cons_self
          exact absurd this (by decide)
      | decimal h => exact Numbers.decimal h
      | hexadecimal hx h => exact Numbers.hexadecimal hx h
  · rename_i hname
    rw [named?_eq_some_iff]
    constructor
    · exact Denotes.listed
    · intro h
      cases h with
      | listed h => exact h
      | decimal h => exact absurd rfl (hname _)
      | hexadecimal hx h => exact absurd rfl (hname _)

theorem Denotes.isAlphanum {name : List Char} {value : Char} (h : Denotes name value) :
    ∀ c ∈ name, c = '#' ∨ c.isAlphanum := by
  cases h with
  | listed h => exact fun c hc => Or.inr ((Table.alphanum_of_mem h).1 c hc)
  | decimal h =>
      exact List.forall_mem_cons.mpr
        ⟨Or.inl rfl, fun c hc => Or.inr (h.isAlphanum (by decide) c hc)⟩
  | hexadecimal hx h =>
      refine List.forall_mem_cons.mpr ⟨Or.inl rfl, List.forall_mem_cons.mpr ⟨Or.inr ?_, ?_⟩⟩
      · rcases hx with rfl | rfl <;> decide
      · exact fun c hc => Or.inr (h.isAlphanum (by decide) c hc)

theorem Denotes.unbroken {name : List Char} {value : Char} (h : Denotes name value) :
    ∀ c ∈ name, c ≠ ';' ∧ c ≠ '&' := by
  intro c hc
  have hc := h.isAlphanum c hc
  constructor
  · rintro rfl
    revert hc
    decide
  · rintro rfl
    revert hc
    decide

theorem Denotes.ascii {name : List Char} {value : Char} (h : Denotes name value) :
    ∀ c ∈ name, c.toNat < 0x80 := by
  intro c hc
  rcases h.isAlphanum c hc with rfl | hc
  · decide
  · have hbounds := isAlphanum_iff.mp hc
    omega

/-- A name with a value is one that stands for it, and ends before the next sign. -/
theorem names_iff_denotes {name : List Char} {value : Char} :
    Names name value ↔ Denotes name value := by
  constructor
  · intro h
    exact value?_eq_some_iff.mp h.value_eq
  · intro h
    exact ⟨h.unbroken, value?_eq_some_iff.mpr h⟩

end Reference
end TweetText
