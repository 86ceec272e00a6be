import TweetText.Proofs.Mark.Shift

/-!
# Marks that count units

The pass to the left is exact when marks count the units of the text with references, as escapes do.
Each unit of what the text says is traced to the unit that it comes from. A mark that overlaps no
reference is moved to where just the units that it takes come from (`retract_keepsUnits`), even if
it takes half a pair or nothing at all.
-/

namespace TweetText

open Utf16 Reference

/-! ## Lists with places -/

section

variable {α : Type} {l m : List (α × Nat)} {offset start stop : Nat}

/-- What is placed before an offset. -/
def placedBefore (offset : Nat) (l : List (α × Nat)) : List (α × Nat) :=
  l.filter fun x => decide (x.2 < offset)

def placedFrom (offset : Nat) (l : List (α × Nat)) : List (α × Nat) :=
  l.filter fun x => !decide (x.2 < offset)

@[simp] theorem placedBefore_append :
    placedBefore offset (l ++ m) = placedBefore offset l ++ placedBefore offset m :=
  List.filter_append l m

@[simp] theorem placedFrom_append :
    placedFrom offset (l ++ m) = placedFrom offset l ++ placedFrom offset m :=
  List.filter_append l m

theorem placedBefore_of_lt (h : ∀ x ∈ l, x.2 < offset) : placedBefore offset l = l :=
  List.filter_eq_self.mpr fun x hx => decide_eq_true (h x hx)

theorem placedBefore_of_le (h : ∀ x ∈ l, offset ≤ x.2) : placedBefore offset l = [] :=
  List.filter_eq_nil_iff.mpr fun x hx => by simpa using h x hx

theorem placedFrom_of_lt (h : ∀ x ∈ l, x.2 < offset) : placedFrom offset l = [] :=
  List.filter_eq_nil_iff.mpr fun x hx => by simpa using h x hx

theorem placedBefore_append_placedFrom (offset : Nat) (h : l.Pairwise fun x y => x.2 ≤ y.2) :
    placedBefore offset l ++ placedFrom offset l = l :=
  Mark.filter_append_filter_not
    (h.imp fun hle hlt => decide_eq_true (Nat.lt_of_le_of_lt hle (of_decide_eq_true hlt)))

theorem take_placedBefore (offset : Nat) (h : l.Pairwise fun x y => x.2 ≤ y.2) :
    l.take (placedBefore offset l).length = placedBefore offset l := by
  conv => lhs; arg 2; rw [← placedBefore_append_placedFrom offset h]
  exact List.take_left

theorem drop_placedBefore (offset : Nat) (h : l.Pairwise fun x y => x.2 ≤ y.2) :
    l.drop (placedBefore offset l).length = placedFrom offset l := by
  conv => lhs; arg 2; rw [← placedBefore_append_placedFrom offset h]
  exact List.drop_left

theorem length_placedBefore_le {m n : Nat} (h : m ≤ n) (l : List (α × Nat)) :
    (placedBefore m l).length ≤ (placedBefore n l).length := by
  refine (List.monotone_filter_right l fun x hx => ?_).length_le
  exact decide_eq_true (Nat.lt_of_lt_of_le (of_decide_eq_true hx) h)

theorem extract_placedBefore (h : l.Pairwise fun x y => x.2 ≤ y.2) (hle : start ≤ stop) :
    l.extract (placedBefore start l).length (placedBefore stop l).length =
      placedBefore stop (placedFrom start l) := by
  have hfrom : (placedFrom start l).Pairwise fun x y => x.2 ≤ y.2 := h.filter _
  have hearly : ∀ x ∈ placedBefore start l, x.2 < stop := by
    intro x hx
    have hlt : x.2 < start := of_decide_eq_true (List.mem_filter.mp hx).2
    exact Nat.lt_of_lt_of_le hlt hle
  have hcount : (placedBefore stop l).length =
      (placedBefore start l).length + (placedBefore stop (placedFrom start l)).length := by
    conv => lhs; rw [← placedBefore_append_placedFrom start h, placedBefore_append,
      placedBefore_of_lt hearly, List.length_append]
  rw [List.extract_eq_take_drop, hcount, Nat.add_sub_cancel_left, drop_placedBefore start h,
    take_placedBefore stop hfrom]

end

section

variable {α : Type} {l : List α}

theorem pairwise_zipIdx (position : Nat) (l : List α) :
    (l.zipIdx position).Pairwise fun x y => x.2 ≤ y.2 := by
  rw [← List.pairwise_map (f := Prod.snd) (R := (· ≤ ·)), List.zipIdx_map_snd]
  exact List.pairwise_le_range'

theorem length_placedBefore_zipIdx {offset : Nat} (h : offset ≤ l.length) :
    (placedBefore offset l.zipIdx).length = offset := by
  have htake : (l.take offset).length = offset := List.length_take_of_le h
  have hearly : ∀ x ∈ (l.take offset).zipIdx, x.2 < offset := by
    intro x hx
    have hlt := List.snd_lt_of_mem_zipIdx hx
    rwa [htake] at hlt
  have hlate : ∀ x ∈ (l.drop offset).zipIdx (0 + (l.take offset).length), offset ≤ x.2 := by
    intro x hx
    have hle := List.le_snd_of_mem_zipIdx hx
    rwa [htake, Nat.zero_add] at hle
  conv => lhs; rw [← List.take_append_drop offset l, List.zipIdx_append]
  rw [placedBefore_append, placedBefore_of_lt hearly, placedBefore_of_le hlate, List.append_nil,
    List.length_zipIdx, htake]

end

/-! ## Units and where they come from -/

namespace Piece

open Mark

/-- The units of what pieces say, each with the position of a unit that is written: for a character
that stands for itself its own one, for a reference that of its ampersand. -/
def tracedFrom (position : Nat) : List Piece → List (UInt16 × Nat)
  | [] => []
  | plain c :: rest => (ofChar c).zipIdx position ++ tracedFrom (position + width c) rest
  | reference name value :: rest =>
    (ofChar value).map (fun u => (u, position)) ++ tracedFrom (position + (name.length + 2)) rest

/-- The units that are written for pieces, each with its own position. -/
def writtenFrom (position : Nat) (ps : List Piece) : List (UInt16 × Nat) :=
  (ofChars (ps.flatMap source)).zipIdx position

theorem writtenFrom_cons (position : Nat) (p : Piece) (ps : List Piece) :
    writtenFrom position (p :: ps) = (ofChars p.source).zipIdx position ++
      writtenFrom (position + Utf16.length p.source) ps := by
  rw [writtenFrom, List.flatMap_cons, ofChars_append, List.zipIdx_append, length_ofChars]
  rfl

theorem ofChars_source_plain (c : Char) : ofChars (source (plain c)) = ofChar c :=
  List.append_nil (ofChar c)

theorem map_fst_tracedFrom (position : Nat) (ps : List Piece) :
    (tracedFrom position ps).map Prod.fst = ofChars (text ps) := by
  induction ps generalizing position with
  | nil => rfl
  | cons p ps ih =>
      cases p with
      | plain c =>
          rw [tracedFrom, List.map_append, List.zipIdx_map_fst, ih]
          rfl
      | reference name v =>
          have hfst : (Prod.fst ∘ fun u : UInt16 => (u, position)) = id := rfl
          rw [tracedFrom, List.map_append, List.map_map, ih, hfst, List.map_id]
          rfl

theorem le_of_mem_tracedFrom {position : Nat} {ps : List Piece} {x : UInt16 × Nat}
    (hx : x ∈ tracedFrom position ps) : position ≤ x.2 := by
  induction ps generalizing position with
  | nil => simp [tracedFrom] at hx
  | cons p ps ih =>
      cases p with
      | plain c =>
          rcases List.mem_append.mp hx with hx | hx
          · exact List.le_snd_of_mem_zipIdx hx
          · exact Nat.le_trans (Nat.le_add_right _ _) (ih hx)
      | reference name value =>
          rcases List.mem_append.mp hx with hx | hx
          · obtain ⟨u, _, rfl⟩ := List.mem_map.mp hx
            exact Nat.le_refl _
          · exact Nat.le_trans (Nat.le_add_right _ _) (ih hx)

theorem pairwise_tracedFrom (position : Nat) (ps : List Piece) :
    (tracedFrom position ps).Pairwise fun x y => x.2 ≤ y.2 := by
  induction ps generalizing position with
  | nil => exact List.Pairwise.nil
  | cons p ps ih =>
      cases p with
      | plain c =>
          refine List.pairwise_append.mpr ⟨pairwise_zipIdx _ _, ih _, fun x hx y hy => ?_⟩
          have hlt := List.snd_lt_of_mem_zipIdx hx
          have hle := le_of_mem_tracedFrom hy
          rw [length_ofChar] at hlt
          omega
      | reference name value =>
          have hsame : ((ofChar value).map fun u => (u, position)).Pairwise
              fun x y => x.2 ≤ y.2 :=
            List.pairwise_map.mpr (List.pairwise_of_forall fun _ _ => Nat.le_refl _)
          refine List.pairwise_append.mpr ⟨hsame, ih _, fun x hx y hy => ?_⟩
          obtain ⟨u, _, rfl⟩ := List.mem_map.mp hx
          have hle := le_of_mem_tracedFrom hy
          dsimp only
          omega

theorem bounds_of_mem_map_ofChar (name : List Char) {value : Char} {position : Nat}
    {x : UInt16 × Nat} (hx : x ∈ (ofChar value).map fun u => (u, position)) :
    position ≤ x.2 ∧ x.2 < position + (name.length + 2) := by
  obtain ⟨u, _, rfl⟩ := List.mem_map.mp hx
  exact ⟨Nat.le_refl _, Nat.lt_add_of_pos_right (Nat.succ_pos _)⟩

theorem bounds_of_mem_zipIdx_source {name : List Char} {value : Char} {position : Nat}
    {x : UInt16 × Nat} (h : Reference.Names name value)
    (hx : x ∈ (ofChars (source (reference name value))).zipIdx position) :
    position ≤ x.2 ∧ x.2 < position + (name.length + 2) := by
  have hlt := List.snd_lt_of_mem_zipIdx hx
  rw [length_ofChars, length_source_reference h, Nat.add_comm] at hlt
  exact ⟨List.le_snd_of_mem_zipIdx hx, hlt⟩

/-- **In a range that meets no reference** what is said are the units written there. -/
theorem window_tracedFrom {position start stop : Nat} {ps : List Piece} (hsound : Sound ps)
    (h : ∀ e ∈ escapesFrom position ps, stop ≤ e.first ∨ e.last < start) :
    placedBefore stop (placedFrom start (tracedFrom position ps)) =
      placedBefore stop (placedFrom start (writtenFrom position ps)) := by
  induction ps generalizing position with
  | nil => rfl
  | cons p ps ih =>
      rw [writtenFrom_cons]
      cases p with
      | plain c =>
          rw [tracedFrom, placedFrom_append, placedBefore_append, placedFrom_append,
            placedBefore_append, ih hsound.tail h, ofChars_source_plain, length_source_plain]
      | reference name value =>
          have hname := hsound name value List.mem_cons_self
          obtain ⟨hhead, htail⟩ := List.forall_mem_cons.mp h
          have hnone : ∀ l : List (UInt16 × Nat),
              (∀ x ∈ l, position ≤ x.2 ∧ x.2 < position + (name.length + 2)) →
              placedBefore stop (placedFrom start l) = [] := by
            intro l hl
            rcases hhead with hstop | hstart
            · exact placedBefore_of_le fun x hx =>
                Nat.le_trans hstop (hl x (List.mem_of_mem_filter hx)).1
            · have hearly : ∀ x ∈ l, x.2 < start := fun x hx => by
                have := (hl x hx).2
                dsimp only at hstart
                omega
              rw [placedFrom_of_lt hearly]
              rfl
          rw [tracedFrom, placedFrom_append, placedBefore_append, placedFrom_append,
            placedBefore_append, ih hsound.tail htail, length_source_reference hname,
            hnone _ fun _ => bounds_of_mem_map_ofChar name,
            hnone _ fun _ => bounds_of_mem_zipIdx_source hname]

/-- **What is lost before an offset** that lies within no reference is what the escapes remove that
end before it. -/
theorem length_placedBefore_tracedFrom {position offset : Nat} {ps : List Piece}
    (hsound : Sound ps) (h : ∀ e ∈ escapesFrom position ps, offset ≤ e.first ∨ e.last < offset) :
    (placedBefore offset (tracedFrom position ps)).length +
        removedBefore (escapesFrom position ps) offset =
      (placedBefore offset (writtenFrom position ps)).length := by
  induction ps generalizing position with
  | nil => rfl
  | cons p ps ih =>
      rw [writtenFrom_cons]
      cases p with
      | plain c =>
          rw [tracedFrom, placedBefore_append, List.length_append, placedBefore_append,
            List.length_append, ofChars_source_plain, length_source_plain, ← ih hsound.tail h,
            escapesFrom, Nat.add_assoc]
      | reference name value =>
          have hname := hsound name value List.mem_cons_self
          have hwidth := hname.width_lt
          obtain ⟨hhead, htail⟩ := List.forall_mem_cons.mp h
          rw [tracedFrom, placedBefore_append, List.length_append, placedBefore_append,
            List.length_append, length_source_reference hname, ← ih hsound.tail htail, escapesFrom,
            removedBefore_cons]
          dsimp only at hhead ⊢
          rcases hhead with hbehind | hbefore
          · have hsaid : placedBefore offset ((ofChar value).map fun u => (u, position)) = [] :=
              placedBefore_of_le fun x hx =>
                Nat.le_trans hbehind (bounds_of_mem_map_ofChar name hx).1
            have hwritten : placedBefore offset
                ((ofChars (source (reference name value))).zipIdx position) = [] :=
              placedBefore_of_le fun x hx =>
                Nat.le_trans hbehind (bounds_of_mem_zipIdx_source hname hx).1
            rw [hsaid, hwritten, if_neg (by omega), List.length_nil]
            omega
          · have hsaid : (placedBefore offset ((ofChar value).map fun u => (u, position))).length =
                width value := by
              rw [placedBefore_of_lt, List.length_map, length_ofChar]
              intro x hx
              have := (bounds_of_mem_map_ofChar name hx).2
              omega
            have hwritten : (placedBefore offset
                ((ofChars (source (reference name value))).zipIdx position)).length =
                  name.length + 2 := by
              rw [placedBefore_of_lt, List.length_zipIdx, length_ofChars,
                length_source_reference hname]
              intro x hx
              have := (bounds_of_mem_zipIdx_source hname hx).2
              omega
            rw [hsaid, hwritten, if_pos (by omega)]
            omega

end Piece

/-! ## Marks -/

namespace Mark

open Piece

/-- The units of what a text says, each with the position of the unit of the text that it comes
from. -/
def traced (s : List Char) : List (UInt16 × Nat) := tracedFrom 0 (ofText s)

/-- No reference of the text meets the mark, whose offsets count units. A mark that takes nothing
meets the reference that it stands inside of. -/
def AvoidsReferences (s : List Char) (a : Mark) : Prop :=
  ∀ first name value, StandsAt s first name value →
    a.past ≤ length (s.take first) ∨ length (s.take (Reference.past first name)) ≤ a.first

instance (s : List Char) (a : Mark) : Decidable (a.AvoidsReferences s) :=
  inferInstanceAs (Decidable (∀ _ _ _, _ → _))

/-- The second mark takes, on what the text says, just the units that come from those that the first
one takes on the text, and has before it just those that come from before the first one. -/
structure KeepsUnits (text : String) (a b : Mark) : Prop where
  liesIn : b.LiesIn (ofString (Decoded.ofText text).text).length
  units_eq : (ofString (Decoded.ofText text).text).extract b.first b.past =
    (ofString text).extract a.first a.past
  before : ∀ x ∈ (traced text.toList).take b.first, x.2 < a.first
  taken : (traced text.toList).extract b.first b.past =
    (ofString text).zipIdx.extract a.first a.past
  behind : ∀ x ∈ (traced text.toList).drop b.past, a.past ≤ x.2

variable {s : List Char} {a b : Mark}

theorem map_fst_traced (s : List Char) : (traced s).map Prod.fst = ofChars (said s) :=
  map_fst_tracedFrom 0 (ofText s)

theorem writtenFrom_ofText (s : List Char) : writtenFrom 0 (ofText s) = (ofChars s).zipIdx := by
  rw [writtenFrom, flatMap_source_ofText]

theorem AvoidsReferences.escapes (h : a.AvoidsReferences s) :
    ∀ e ∈ escapes (ofText s), a.past ≤ e.first ∨ e.last < a.first := by
  intro e he
  obtain ⟨first, name, value, hstands, rfl⟩ := mem_escapes_ofText.mp he
  have hmeets := h first name value hstands
  rw [length_take_past hstands] at hmeets
  dsimp only
  omega

/-- **Where a mark that meets no reference is moved.** In front of its start, and of its end, there
are as many units as come from before it. -/
theorem offsets_retractOver (hlies : a.LiesIn (length s)) (havoids : a.AvoidsReferences s) :
    (retractOver (escapes (ofText s)) a).start.toInt = (placedBefore a.first (traced s)).length ∧
      (retractOver (escapes (ofText s)) a).stop.toInt =
        (placedBefore a.past (traced s)).length := by
  have hfirst := hlies.first_eq
  have hpast := hlies.past_eq
  have hle := hlies.first_le_past
  have hlen := hlies.past_le
  have hescapes := havoids.escapes
  have hordered : ∀ e ∈ escapes (ofText s), e.first ≤ e.last := fun e he =>
    (bounds_of_mem_escapesFrom (sound_ofText s) he).2.1
  have hsame : removedBefore (escapes (ofText s)) a.first =
      removedBefore (escapes (ofText s)) a.past := by
    unfold removedBefore
    congr 1
    apply List.filter_congr
    intro e he
    have := hescapes e he
    have := hordered e he
    rw [decide_eq_decide]
    omega
  have hbefore : ∀ offset, a.first ≤ offset → offset ≤ a.past →
      (placedBefore offset (traced s)).length + removedBefore (escapes (ofText s)) offset =
        offset := by
    intro offset hlow hhigh
    have hclear : ∀ e ∈ escapesFrom 0 (ofText s), offset ≤ e.first ∨ e.last < offset := by
      intro e he
      have := hescapes e he
      omega
    have hcount := length_placedBefore_tracedFrom (sound_ofText s) hclear
    rwa [writtenFrom_ofText, length_placedBefore_zipIdx] at hcount
    rw [length_ofChars]
    omega
  have hstart := hbefore a.first (Nat.le_refl _) hle
  have hstop := hbefore a.past hle (Nat.le_refl _)
  have hmax : max a.start.toInt a.stop.toInt = a.past := by omega
  have hstartBound := a.start.toInt_lt
  have hstopBound := a.stop.toInt_lt
  rw [retractOver, move_start, move_stop, hmax]
  constructor
  · rw [toInt_shiftOffset_of_bounds] <;> omega
  · rw [toInt_shiftOffset_of_bounds] <;> omega

theorem extract_traced (hlies : a.LiesIn (length s)) (havoids : a.AvoidsReferences s) :
    (traced s).extract (placedBefore a.first (traced s)).length
        (placedBefore a.past (traced s)).length =
      (ofChars s).zipIdx.extract a.first a.past := by
  have hle := hlies.first_le_past
  have hlen : a.past ≤ (ofChars s).length := by
    rw [length_ofChars]
    exact hlies.past_le
  have hwritten := extract_placedBefore (pairwise_zipIdx 0 (ofChars s)) hle
  rw [length_placedBefore_zipIdx (Nat.le_trans hle hlen), length_placedBefore_zipIdx hlen]
    at hwritten
  rw [traced, extract_placedBefore (pairwise_tracedFrom 0 (ofText s)) hle,
    window_tracedFrom (sound_ofText s) havoids.escapes, writtenFrom_ofText, hwritten]

theorem keepsUnits_of_offsets {text : String} (hlies : a.LiesIn (length text.toList))
    (havoids : a.AvoidsReferences text.toList)
    (hstart : b.start.toInt = (placedBefore a.first (traced text.toList)).length)
    (hstop : b.stop.toInt = (placedBefore a.past (traced text.toList)).length) :
    a.KeepsUnits text b := by
  have hfirst : b.first = (placedBefore a.first (traced text.toList)).length := by
    rw [first, hstart, Int.toNat_natCast]
  have hpast : b.past = (placedBefore a.past (traced text.toList)).length := by
    rw [past, hstop, Int.toNat_natCast]
  have hsorted : (traced text.toList).Pairwise fun x y => x.2 ≤ y.2 :=
    pairwise_tracedFrom 0 (ofText text.toList)
  have hsaid : ofString (Decoded.ofText text).text = (traced text.toList).map Prod.fst := by
    rw [map_fst_traced, text_ofText, ofString, String.toList_ofList]
  have htaken : (traced text.toList).extract b.first b.past =
      (ofString text).zipIdx.extract a.first a.past := by
    rw [hfirst, hpast]
    exact extract_traced hlies havoids
  have hfst := congrArg (List.map Prod.fst) htaken
  simp only [List.extract_eq_take_drop, List.map_take, List.map_drop, List.zipIdx_map_fst,
    ← hsaid] at hfst
  refine ⟨⟨?_, ?_, ?_⟩, ?_, ?_, htaken, ?_⟩
  · rw [hstart]
    exact Int.natCast_nonneg _
  · rw [hstart, hstop]
    exact_mod_cast length_placedBefore_le hlies.first_le_past (traced text.toList)
  · rw [hsaid, hstop, List.length_map]
    exact_mod_cast List.length_filter_le _ _
  · simpa only [List.extract_eq_take_drop] using hfst
  · intro x hx
    rw [hfirst, take_placedBefore _ hsorted] at hx
    exact of_decide_eq_true (List.mem_filter.mp hx).2
  · intro x hx
    rw [hpast, drop_placedBefore _ hsorted] at hx
    simpa using (List.mem_filter.mp hx).2

/-- **The pass to the left is exact.** Marks in the order of their starts that lie in a text and
meet no reference of it, their offsets counting its units, are moved to where what the text says has
just the units that they take. A mark that ended before another one began still does. -/
theorem retract_keepsUnits {text : String} {as : List Mark}
    (hsorted : as.Pairwise fun a b => a.start ≤ b.start)
    (hlies : ∀ a ∈ as, a.LiesIn (ofString text).length)
    (havoids : ∀ a ∈ as, a.AvoidsReferences text.toList) :
    List.Forall₂ (KeepsUnits text) as (retract (Decoded.ofText text).escapes as) ∧
      ∀ x ∈ as.zip (retract (Decoded.ofText text).escapes as),
        ∀ y ∈ as.zip (retract (Decoded.ofText text).escapes as),
          x.1.stop ≤ y.1.start → x.2.stop ≤ y.2.start := by
  have hlies' : ∀ a ∈ as, a.LiesIn (length text.toList) := by
    rw [← length_ofChars]
    exact hlies
  have heach : retract (Decoded.ofText text).escapes as =
      as.map (retractOver (Decoded.ofText text).escapes) :=
    retract_eq_map (pairwise_last_escapes text.toList) (hsorted.imp (inStepOver_of_le _))
  rw [heach]
  constructor
  · rw [List.forall₂_map_right_iff, List.forall₂_same]
    intro a ha
    obtain ⟨hstart, hstop⟩ := offsets_retractOver (hlies' a ha) (havoids a ha)
    exact keepsUnits_of_offsets (hlies' a ha) (havoids a ha) hstart hstop
  · intro x hx y hy hxy
    rw [← List.map_prod_left_eq_zip] at hx hy
    obtain ⟨a, ha, rfl⟩ := List.mem_map.mp hx
    obtain ⟨b, hb, rfl⟩ := List.mem_map.mp hy
    obtain ⟨-, hstop⟩ := offsets_retractOver (hlies' a ha) (havoids a ha)
    obtain ⟨hstart, -⟩ := offsets_retractOver (hlies' b hb) (havoids b hb)
    have hle : a.past ≤ b.first := Int.toNat_le_toNat (Int32.le_iff_toInt_le.mp hxy)
    have hcount := length_placedBefore_le hle (traced text.toList)
    rw [Int32.le_iff_toInt_le, Decoded.ofText, hstop, hstart]
    exact_mod_cast hcount

def facesAndLess : String := "&#x1F600; 😀&#60;x"

def marksAmongUnits : List Mark :=
  [⟨10, 11, .link, "", "", none⟩, ⟨12, 12, .link, "", "", none⟩, ⟨17, 18, .link, "", "", none⟩]

theorem retract_keepsUnits_marksAmongUnits :
    (marksAmongUnits.Pairwise fun a b => a.start ≤ b.start) ∧
      (∀ a ∈ marksAmongUnits, a.LiesIn (ofString facesAndLess).length) ∧
      (∀ a ∈ marksAmongUnits, a.AvoidsReferences facesAndLess.toList) ∧
      List.Forall₂ (KeepsUnits facesAndLess) marksAmongUnits
        (retract (Decoded.ofText facesAndLess).escapes marksAmongUnits) ∧
      (∀ x ∈ marksAmongUnits.zip (retract (Decoded.ofText facesAndLess).escapes marksAmongUnits),
        ∀ y ∈ marksAmongUnits.zip (retract (Decoded.ofText facesAndLess).escapes marksAmongUnits),
          x.1.stop ≤ y.1.start → x.2.stop ≤ y.2.start) ∧
      (∃ a ∈ marksAmongUnits, ∃ b ∈ marksAmongUnits, a.stop ≤ b.start) ∧
      ((retract (Decoded.ofText facesAndLess).escapes marksAmongUnits).map fun b =>
        (b.start, b.stop)) = [(3, 4), (5, 5), (6, 7)] :=
  have hsorted : marksAmongUnits.Pairwise fun a b => a.start ≤ b.start := by decide
  have hlies : ∀ a ∈ marksAmongUnits, a.LiesIn (ofString facesAndLess).length := by
    decide +kernel
  have havoids : ∀ a ∈ marksAmongUnits, a.AvoidsReferences facesAndLess.toList := by
    decide +kernel
  have hkept := retract_keepsUnits hsorted hlies havoids
  ⟨hsorted, hlies, havoids, hkept.1, hkept.2, by decide, by decide +kernel⟩

end Mark
end TweetText
