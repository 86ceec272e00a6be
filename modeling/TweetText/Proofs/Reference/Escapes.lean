import TweetText.Mark
import TweetText.Proofs.Reference.Standing

/-!
# Texts without their references

What a text says once its references are replaced, where these stood, what they lost, and how a
text is written with references.
-/

/-! ## Where escapes lie and what they remove

An escape is kept as the positions of its two signs and the units that it loses. Names are ASCII, so
the positions count units; each escape loses at least one unit; and what a text loses is what its
escapes remove (`removedUnits_escapesFrom`). -/

namespace TweetText

open Utf16

/-! ### Names are ASCII -/

namespace Reference

theorem Names.ascii {name : List Char} {value : Char} (h : Names name value) :
    ∀ c ∈ name, c.toNat < 0x80 :=
  (names_iff_denotes.mp h).ascii

theorem Names.ne_nil {name : List Char} {value : Char} (h : Names name value) : name ≠ [] := by
  rintro rfl
  exact absurd h.value_eq (by simp [value?, named?])

theorem Names.width_lt {name : List Char} {value : Char} (h : Names name value) :
    width value < name.length + 2 := by
  have hpos : 0 < name.length := List.length_pos_iff.mpr h.ne_nil
  rw [width_eq]
  split <;> omega

theorem Names.isSupplementary_eq_false {name : List Char} {value : Char} (h : Names name value) :
    ∀ c ∈ '&' :: (name ++ [';']), isSupplementary c = false := by
  have hascii : ∀ c : Char, c.toNat < 0x80 → isSupplementary c = false := by
    intro c hc
    apply decide_eq_false
    simp only [supplementary]
    omega
  intro c hc
  simp only [List.mem_cons, List.mem_append, List.not_mem_nil, or_false] at hc
  rcases hc with rfl | hc | rfl
  · decide
  · exact hascii c (h.ascii c hc)
  · decide

end Reference

/-! ### Escapes of pieces -/

namespace Piece

open Reference Mark

/-- All references among the pieces are by names and with their values. -/
def Sound (ps : List Piece) : Prop :=
  ∀ name value, reference name value ∈ ps → Names name value

theorem sound_ofText (s : List Char) : Sound (ofText s) := fun _ _ => names_of_mem_ofText

theorem Sound.tail {p : Piece} {ps : List Piece} (h : Sound (p :: ps)) : Sound ps :=
  fun name value hmem => h name value (List.mem_cons_of_mem _ hmem)

/-- How many units the pieces take where they are written. -/
def written (ps : List Piece) : Nat := Utf16.length (ps.flatMap source)

@[simp] theorem written_nil : written [] = 0 := rfl

theorem written_cons (p : Piece) (ps : List Piece) :
    written (p :: ps) = Utf16.length p.source + written ps := by
  simp [written]

theorem written_ofText (s : List Char) : written (ofText s) = Utf16.length s := by
  rw [written, flatMap_source_ofText]

@[simp] theorem text_nil : text [] = [] := rfl

@[simp] theorem text_cons (p : Piece) (ps : List Piece) : text (p :: ps) = p.value :: text ps := rfl

@[simp] theorem text_append (ps qs : List Piece) : text (ps ++ qs) = text ps ++ text qs :=
  List.map_append

theorem length_source_plain (c : Char) : Utf16.length (source (plain c)) = width c := rfl

theorem length_source_reference {name : List Char} {value : Char} (h : Names name value) :
    Utf16.length (source (reference name value)) = name.length + 2 := by
  have hsource : source (reference name value) = '&' :: (name ++ [';']) := rfl
  rw [hsource, Utf16.length_of_basic h.isSupplementary_eq_false]
  simp

theorem escapesFrom_append (position : Nat) {ps qs : List Piece} (h : Sound ps) :
    escapesFrom position (ps ++ qs) =
      escapesFrom position ps ++ escapesFrom (position + written ps) qs := by
  induction ps generalizing position with
  | nil => rfl
  | cons p ps ih =>
      rw [written_cons]
      cases p with
      | plain c =>
          simp only [List.cons_append, escapesFrom, ih _ h.tail, length_source_plain, Nat.add_assoc]
      | reference name value =>
          have hname := h name value List.mem_cons_self
          simp only [List.cons_append, escapesFrom, ih _ h.tail, length_source_reference hname,
            Nat.add_assoc]

/-- An escape lies within what is written and removes something. -/
theorem bounds_of_mem_escapesFrom {position : Nat} {ps : List Piece} (h : Sound ps) {e : Escape}
    (he : e ∈ escapesFrom position ps) :
    position ≤ e.first ∧ e.first ≤ e.last ∧ e.last < position + written ps ∧ 0 < e.removed := by
  induction ps generalizing position with
  | nil => simp [escapesFrom] at he
  | cons p ps ih =>
      rw [written_cons]
      cases p with
      | plain c =>
          have := ih h.tail he
          rw [length_source_plain]
          omega
      | reference name value =>
          have hname := h name value List.mem_cons_self
          rw [length_source_reference hname]
          simp only [escapesFrom, List.mem_cons] at he
          rcases he with rfl | he
          · have hwidth := hname.width_lt
            refine ⟨Nat.le_refl _, ?_, ?_, ?_⟩ <;> simp only <;> omega
          · have := ih h.tail he
            omega

theorem pairwise_last_escapesFrom (position : Nat) {ps : List Piece} (h : Sound ps) :
    (escapesFrom position ps).Pairwise fun e e' => e.last < e'.last := by
  induction ps generalizing position with
  | nil => exact List.Pairwise.nil
  | cons p ps ih =>
      cases p with
      | plain c => exact ih _ h.tail
      | reference name value =>
          refine List.pairwise_cons.mpr ⟨fun e he => ?_, ih _ h.tail⟩
          have := bounds_of_mem_escapesFrom h.tail he
          simp only
          omega

theorem pairwise_last_escapes (s : List Char) :
    (escapes (ofText s)).Pairwise fun e e' => e.last < e'.last :=
  pairwise_last_escapesFrom 0 (sound_ofText s)

theorem removed_pos {s : List Char} {e : Escape} (h : e ∈ escapes (ofText s)) : 0 < e.removed :=
  (bounds_of_mem_escapesFrom (sound_ofText s) h).2.2.2

/-- **What a text loses.** The units that the escapes remove make up for the difference between what
is written and what it says. -/
theorem removedUnits_escapesFrom (position : Nat) {ps : List Piece} (h : Sound ps) :
    removedUnits (escapesFrom position ps) + Utf16.length (text ps) = written ps := by
  induction ps generalizing position with
  | nil => rfl
  | cons p ps ih =>
      rw [written_cons, text_cons, Utf16.length_cons]
      cases p with
      | plain c =>
          have := ih (position + width c) h.tail
          simp only [escapesFrom, value, length_source_plain]
          omega
      | reference name v =>
          have hname := h name v List.mem_cons_self
          have hwidth := hname.width_lt
          have := ih (position + (name.length + 2)) h.tail
          simp only [escapesFrom, removedUnits, value, length_source_reference hname]
          omega

theorem exists_of_mem_escapesFrom {position : Nat} {ps : List Piece} (h : Sound ps) {e : Escape}
    (he : e ∈ escapesFrom position ps) :
    ∃ front name value back, ps = front ++ reference name value :: back ∧
      e = ⟨position + written front, position + written front + name.length + 1,
        name.length + 2 - width value⟩ := by
  induction ps generalizing position with
  | nil => simp [escapesFrom] at he
  | cons p ps ih =>
      have htail : ∀ next, position + Utf16.length p.source = next → e ∈ escapesFrom next ps →
          ∃ front name value back, p :: ps = front ++ reference name value :: back ∧
            e = ⟨position + written front, position + written front + name.length + 1,
              name.length + 2 - width value⟩ := by
        rintro next rfl hmem
        obtain ⟨front, name, value, back, rfl, rfl⟩ := ih h.tail hmem
        exact ⟨p :: front, name, value, back, rfl, by simp [written_cons, Nat.add_assoc]⟩
      cases p with
      | plain c => exact htail _ rfl he
      | reference name value =>
          have hname := h name value List.mem_cons_self
          simp only [escapesFrom, List.mem_cons] at he
          rcases he with rfl | he
          · exact ⟨[], name, value, ps, rfl, by simp [← Nat.add_assoc]⟩
          · exact htail _ (by rw [length_source_reference hname]) he

/-- **Escapes of a text.** There is one for each reference that stands in it, at the positions, in
units, of the signs of the reference. -/
theorem mem_escapes_ofText {s : List Char} {e : Escape} :
    e ∈ escapes (ofText s) ↔
      ∃ first name value, StandsAt s first name value ∧
        e = ⟨Utf16.length (s.take first), Utf16.length (s.take first) + name.length + 1,
          name.length + 2 - width value⟩ := by
  constructor
  · intro he
    obtain ⟨front, name, value, back, hsplit, rfl⟩ :=
      exists_of_mem_escapesFrom (sound_ofText s) he
    refine ⟨_, name, value, standsAt_of_ofText hsplit, ?_⟩
    have htake : s.take (front.flatMap source).length = front.flatMap source := by
      rw [← flatMap_source_ofText s, hsplit, List.flatMap_append, List.take_left]
    rw [htake, Nat.zero_add, written]
  · rintro ⟨first, name, value, ⟨hname, before, after, rfl, rfl⟩, rfl⟩
    rw [ofText_of_standsAt hname, escapes, escapesFrom_append 0 (sound_ofText before),
      written_ofText, List.take_left, Nat.zero_add]
    apply List.mem_append_right
    simp [escapesFrom, ← Nat.add_assoc]

theorem length_take_past {s name : List Char} {first : Nat} {value : Char}
    (h : StandsAt s first name value) :
    Utf16.length (s.take (Reference.past first name)) =
      Utf16.length (s.take first) + name.length + 2 := by
  obtain ⟨hname, before, after, rfl, rfl⟩ := h
  have hsource := length_source_reference hname
  have hsplit : before ++ '&' :: (name ++ ';' :: after) =
      (before ++ source (reference name value)) ++ after := by
    simp [source]
  have hpast : Reference.past before.length name =
      (before ++ source (reference name value)).length := by
    simp [source, Reference.past]
    omega
  rw [List.take_left, hpast, hsplit, List.take_left, Utf16.length_append, hsource, Nat.add_assoc]

end Piece

/-! ## What a text says

A text says the characters of its pieces. At a cut it says first what its first part says and then
what its second part says, and a range that no reference meets says what is written there. Nothing
is said twice or left out, so places before and after the references correspond. -/

namespace Reference

/-- The text with each reference replaced by its character. -/
def said (s : List Char) : List Char := Piece.text (Piece.ofText s)

@[simp] theorem said_nil : said [] = [] := rfl

theorem text_ofText (s : String) : (Decoded.ofText s).text = String.ofList (said s.toList) := rfl

theorem length_said_le (s : List Char) : (said s).length ≤ s.length := by
  induction s using Piece.ofText_induction with
  | nil => exact Nat.le_refl _
  | plain c rest h ih =>
      rw [said, Piece.ofText_cons h]
      simpa [said] using ih
  | reference name value rest h ih =>
      have ih' : (Piece.text (Piece.ofText rest)).length ≤ rest.length := ih
      rw [said, Piece.ofText_reference h]
      simp only [Piece.text_cons, List.length_cons, List.length_append]
      omega

theorem said_ne_nil {s : List Char} (h : s ≠ []) : said s ≠ [] := by
  induction s using Piece.ofText_induction with
  | nil => exact absurd rfl h
  | plain c rest hplain ih => simp [said, Piece.ofText_cons hplain]
  | reference name value rest hname ih => simp [said, Piece.ofText_reference hname]

/-! ### Cuts -/

theorem isCut_zero (s : List Char) : IsCut s 0 := fun _ _ _ _ => Or.inl (Nat.zero_le _)

/-- A cut stays one when a part of the text after it is dropped. -/
theorem IsCut.of_append_right {s : List Char} (after : List Char) {position : Nat}
    (h : IsCut (s ++ after) position) : IsCut s position :=
  fun first name value hstands => h first name value (hstands.append_right after)

theorem IsCut.take {s : List Char} {position : Nat} (h : IsCut s position) (stop : Nat) :
    IsCut (s.take stop) position := by
  apply IsCut.of_append_right (s.drop stop)
  rwa [List.take_append_drop]

/-- No reference reaches across a place in a range that none meets. -/
theorem Avoids.isCut {s : List Char} {start stop position : Nat} (h : Avoids s start stop)
    (hstart : start ≤ position) (hstop : position ≤ stop) : IsCut s position := by
  intro first name value hstands
  rcases h first name value hstands with h | h
  · exact Or.inl (Nat.le_trans hstop h)
  · exact Or.inr (Nat.le_trans h hstart)

theorem IsCut.ofText_eq {s : List Char} {position : Nat} (h : IsCut s position)
    (hle : position ≤ s.length) :
    Piece.ofText s = Piece.ofText (s.take position) ++ Piece.ofText (s.drop position) := by
  rw [← Piece.ofText_append, List.take_append_drop]
  rwa [List.take_append_drop, List.length_take, Nat.min_eq_left hle]

theorem IsCut.said_eq {s : List Char} {position : Nat} (h : IsCut s position)
    (hle : position ≤ s.length) : said s = said (s.take position) ++ said (s.drop position) := by
  rw [said, h.ofText_eq hle, Piece.text_append]
  rfl

theorem ofText_take_append {s : List Char} {start stop : Nat} (hstart : IsCut s start)
    (hle : start ≤ stop) (hlen : stop ≤ s.length) :
    Piece.ofText (s.take stop) =
      Piece.ofText (s.take start) ++ Piece.ofText (s.extract start stop) := by
  have hlen' : start ≤ (s.take stop).length := by
    rw [List.length_take]
    omega
  rw [(hstart.take stop).ofText_eq hlen', List.take_take, Nat.min_eq_left hle, List.drop_take]

theorem said_take_append {s : List Char} {start stop : Nat} (hstart : IsCut s start)
    (hle : start ≤ stop) (hlen : stop ≤ s.length) :
    said (s.take stop) = said (s.take start) ++ said (s.extract start stop) := by
  rw [said, ofText_take_append hstart hle hlen, Piece.text_append]
  rfl

/-- A range that no reference meets stands for itself. -/
theorem Avoids.ofText_extract {s : List Char} {start stop : Nat} (h : Avoids s start stop)
    (hlen : stop ≤ s.length) :
    Piece.ofText (s.extract start stop) = (s.extract start stop).map Piece.plain := by
  apply Piece.ofText_of_forall_not
  intro first name value hstands
  have hlt : past first name ≤ stop - start := by
    refine Nat.le_trans hstands.past_le ?_
    rw [List.extract_eq_take_drop, List.length_take]
    exact Nat.min_le_left _ _
  have hwhole : StandsAt s (start + first) name value := by
    have hdrop : StandsAt (s.drop start) first name value := by
      have := hstands.append_right ((s.drop start).drop (stop - start))
      rwa [List.extract_eq_take_drop, List.take_append_drop] at this
    have hstart : (s.take start).length = start := by
      simp only [past] at hlt
      rw [List.length_take]
      omega
    have := hdrop.append_left (s.take start)
    rwa [List.take_append_drop, hstart] at this
  rcases h _ _ _ hwhole with h | h <;> simp only [past] at h hlt <;> omega

theorem Avoids.said_extract {s : List Char} {start stop : Nat} (h : Avoids s start stop)
    (hlen : stop ≤ s.length) : said (s.extract start stop) = s.extract start stop := by
  rw [said, h.ofText_extract hlen, Piece.text, List.map_map]
  exact List.map_id _

/-! ### References to the basic plane -/

/-- Every reference of the text stands for a character of the basic plane. -/
def SaysBasic (s : List Char) : Prop :=
  ∀ first name value, StandsAt s first name value → Utf16.isSupplementary value = false

instance (s : List Char) : Decidable (SaysBasic s) := inferInstanceAs (Decidable (∀ _ _ _, _ → _))

theorem SaysBasic.supplementaries_said {s : List Char} (h : SaysBasic s) :
    Utf16.supplementaries (said s) = Utf16.supplementaries s := by
  induction s using Piece.ofText_induction with
  | nil => rfl
  | plain c rest hplain ih =>
      have hrest : SaysBasic rest :=
        fun first name value hstands => h _ name value (hstands.append_left [c])
      have ih' : Utf16.supplementaries (Piece.text (Piece.ofText rest)) = _ := ih hrest
      rw [said, Piece.ofText_cons hplain, Piece.text_cons, Utf16.supplementaries_cons,
        Utf16.supplementaries_cons, ih']
      rfl
  | reference name value rest hname ih =>
      have hsplit : '&' :: (name ++ ';' :: rest) = ('&' :: (name ++ [';'])) ++ rest := by simp
      have hrest : SaysBasic rest := by
        intro first name' value' hstands
        apply h
        rw [hsplit]
        exact hstands.append_left _
      have hvalue : Utf16.isSupplementary value = false :=
        h 0 name value ⟨hname, [], rest, rfl, rfl⟩
      have ih' : Utf16.supplementaries (Piece.text (Piece.ofText rest)) = _ := ih hrest
      rw [said, Piece.ofText_reference hname, Piece.text_cons, Utf16.supplementaries_cons, ih',
        hsplit, Utf16.supplementaries_append,
        Utf16.supplementaries_eq_zero.mpr hname.isSupplementary_eq_false]
      simp [Piece.value, hvalue]

theorem SaysBasic.take {s : List Char} (h : SaysBasic s) (stop : Nat) :
    SaysBasic (s.take stop) := by
  intro first name value hstands
  apply h
  have := hstands.append_right (s.drop stop)
  rwa [List.take_append_drop] at this

end Reference

/-! ## Replacing references

A reference stands in a text wherever an ampersand, what stands for a character, and a semicolon
follow one another. The text is scanned once from left to right, and what was put for a reference is
not looked at again; still the references replaced are exactly those that stand in the text, and
each is told with the positions of its signs and the units it loses (`ofText_replaces`). -/

open Utf16 Reference

/-! ### Sites -/

/-- A reference in a text: what stands before its ampersand, what stands between its signs, and its
character. -/
structure Site where
  before : List Char
  name : List Char
  value : Char
deriving DecidableEq, Repr

namespace Site

def source (r : Site) : List Char := '&' :: r.name ++ [';']

/-- The text up to the end of the reference. -/
def through (r : Site) : List Char := r.before ++ r.source

/-- The reference stands in the text. -/
def IsIn (r : Site) (s : List Char) : Prop := Denotes r.name r.value ∧ r.through <+: s

/-- The positions of the ampersand and of the semicolon, and by how many units the reference is
longer than its character. -/
def escape (r : Site) : Escape :=
  ⟨length r.before, length (r.before ++ '&' :: r.name), length r.source - width r.value⟩

theorem length_name {r : Site} (h : Names r.name r.value) :
    length ('&' :: r.name) = r.name.length + 1 ∧ length r.source = r.name.length + 2 := by
  have hsource : length r.source = r.name.length + 2 := Piece.length_source_reference h
  have hend : length r.source = length ('&' :: r.name) + 1 := Utf16.length_append _ [';']
  omega

theorem width_lt {r : Site} (h : Names r.name r.value) : width r.value < length r.source := by
  rw [(length_name h).2]
  exact h.width_lt

theorem escape_last_lt {r r' : Site} (h : r.through <+: r'.before) :
    r.escape.last < r'.escape.first := by
  obtain ⟨between, hbetween⟩ := h
  have hthrough : r.through = (r.before ++ '&' :: r.name) ++ [';'] := by simp [through, source]
  have hsign : width ';' = 1 := rfl
  simp only [escape, ← hbetween, hthrough, Utf16.length_append, Utf16.length_cons, Utf16.length_nil]
  omega

end Site

/-- The text from a place on with the characters of references in their places, and all else as it
is. -/
def replaced (s : List Char) (cursor : Nat) : List Site → List Char
  | [] => s.drop cursor
  | r :: rest => s.extract cursor r.before.length ++ r.value :: replaced s r.through.length rest

/-! ### Sites of pieces -/

namespace Piece

def sitesFrom (before : List Char) : List Piece → List Site
  | [] => []
  | plain c :: rest => sitesFrom (before ++ [c]) rest
  | reference name value :: rest =>
    ⟨before, name, value⟩ :: sitesFrom (before ++ source (reference name value)) rest

def sites (ps : List Piece) : List Site := sitesFrom [] ps

theorem sitesFrom_append (before : List Char) (ps qs : List Piece) :
    sitesFrom before (ps ++ qs) =
      sitesFrom before ps ++ sitesFrom (before ++ ps.flatMap source) qs := by
  induction ps generalizing before with
  | nil => simp [sitesFrom]
  | cons p ps ih =>
      cases p with
      | plain c => simp [sitesFrom, source, ih]
      | reference name value => simp [sitesFrom, source, ih]

theorem mem_sitesFrom_iff {before : List Char} {ps : List Piece} {r : Site} :
    r ∈ sitesFrom before ps ↔
      ∃ front back, ps = front ++ reference r.name r.value :: back ∧
        r.before = before ++ front.flatMap source := by
  constructor
  · intro h
    induction ps generalizing before with
    | nil => cases h
    | cons p ps ih =>
        have htail : r ∈ sitesFrom (before ++ source p) ps →
            ∃ front back, p :: ps = front ++ reference r.name r.value :: back ∧
              r.before = before ++ front.flatMap source := by
          intro h
          obtain ⟨front, back, rfl, hbefore⟩ := ih h
          exact ⟨p :: front, back, rfl, by simp [hbefore]⟩
        cases p with
        | plain c => exact htail h
        | reference name value =>
            rcases List.mem_cons.mp h with rfl | h
            · exact ⟨[], ps, rfl, by simp⟩
            · exact htail h
  · rintro ⟨front, back, rfl, hbefore⟩
    rw [sitesFrom_append, ← hbefore]
    exact List.mem_append_right _ List.mem_cons_self

theorem pairwise_sitesFrom (before : List Char) (ps : List Piece) :
    (sitesFrom before ps).Pairwise fun r r' => r.through <+: r'.before := by
  induction ps generalizing before with
  | nil => exact List.Pairwise.nil
  | cons p ps ih =>
      cases p with
      | plain c => exact ih _
      | reference name value =>
          refine List.pairwise_cons.mpr ⟨fun r hr => ?_, ih _⟩
          obtain ⟨front, -, -, hbefore⟩ := mem_sitesFrom_iff.mp hr
          exact ⟨front.flatMap source, hbefore.symm⟩

theorem escapesFrom_eq_map (before : List Char) {ps : List Piece} (h : Sound ps) :
    escapesFrom (length before) ps = (sitesFrom before ps).map Site.escape := by
  induction ps generalizing before with
  | nil => rfl
  | cons p ps ih =>
      have hnext := ih (before ++ source p) h.tail
      rw [Utf16.length_append] at hnext
      cases p with
      | plain c => exact hnext
      | reference name value =>
          have hname := h name value List.mem_cons_self
          obtain ⟨hamp, hsource⟩ := @Site.length_name ⟨before, name, value⟩ hname
          rw [length_source_reference hname] at hnext
          rw [escapesFrom, sitesFrom, List.map_cons, hnext, Site.escape, Utf16.length_append, hamp,
            hsource]
          rfl

theorem replaced_sitesFrom (before : List Char) (ps : List Piece) {cursor : Nat}
    (hcursor : cursor ≤ before.length) :
    replaced (before ++ ps.flatMap source) cursor (sitesFrom before ps) =
      before.drop cursor ++ text ps := by
  induction ps generalizing before cursor with
  | nil => simp [sitesFrom, replaced]
  | cons p ps ih =>
      have hwritten : before ++ (p :: ps).flatMap source =
          (before ++ source p) ++ ps.flatMap source := by simp
      have hlength : before.length ≤ (before ++ source p).length := by simp
      cases p with
      | plain c =>
          have hrest := ih (before ++ source (plain c)) (Nat.le_trans hcursor hlength)
          rw [← hwritten, List.drop_append_of_le_length hcursor, List.append_assoc] at hrest
          exact hrest
      | reference name value =>
          have hgap : (before ++ (reference name value :: ps).flatMap source).extract cursor
              before.length = before.drop cursor := by
            rw [List.extract_eq_take_drop, List.drop_append_of_le_length hcursor,
              List.take_left' List.length_drop]
          have hrest := ih (before ++ source (reference name value)) (Nat.le_refl _)
          rw [List.drop_length, List.nil_append, ← hwritten] at hrest
          rw [sitesFrom, replaced, hgap, text_cons]
          exact congrArg (fun said => before.drop cursor ++ value :: said) hrest

theorem mem_sites_ofText_iff {s : List Char} {r : Site} : r ∈ sites (ofText s) ↔ r.IsIn s := by
  rw [sites, mem_sitesFrom_iff, Site.IsIn, ← names_iff_denotes]
  constructor
  · rintro ⟨front, back, hsplit, hbefore⟩
    have hname : Names r.name r.value := names_of_mem_ofText (s := s) (by rw [hsplit]; simp)
    refine ⟨hname, back.flatMap source, ?_⟩
    rw [← flatMap_source_ofText s, hsplit, Site.through, hbefore]
    simp [source, Site.source]
  · rintro ⟨hname, after, rfl⟩
    refine ⟨ofText r.before, ofText after, ?_, by simp [flatMap_source_ofText]⟩
    have hsplit : r.through ++ after = r.before ++ '&' :: (r.name ++ ';' :: after) := by
      simp [Site.through, Site.source]
    rw [hsplit, ofText_of_standsAt hname]

end Piece

namespace Decoded

/-- **Exactly the references that stand in a text are replaced**, each by its character, and all
else is left as it is. They come one behind the other, for none has a sign of another one in it.
Each is told with the positions of its signs and with what it loses, which is never nothing, and
what all of them lose is what the text becomes shorter by. -/
theorem ofText_replaces (s : String) :
    ∃ rs : List Site, (∀ r, r ∈ rs ↔ r.IsIn s.toList) ∧
      (rs.Pairwise fun r r' => r.through <+: r'.before) ∧
      (ofText s).text = String.ofList (replaced s.toList 0 rs) ∧
      (ofText s).escapes = rs.map Site.escape ∧
      ((ofText s).escapes.Pairwise fun e e' => e.last < e'.first) ∧
      (∀ r ∈ rs, (∀ c ∈ r.name, c ≠ ';' ∧ c ≠ '&') ∧ width r.value < length r.source) ∧
      length (ofText s).text.toList + Mark.removedUnits (ofText s).escapes = length s.toList := by
  have hsound := Piece.sound_ofText s.toList
  have hescapes : (ofText s).escapes = (Piece.sites (Piece.ofText s.toList)).map Site.escape :=
    Piece.escapesFrom_eq_map [] hsound
  have hpairwise := Piece.pairwise_sitesFrom [] (Piece.ofText s.toList)
  refine ⟨Piece.sites (Piece.ofText s.toList), fun r => Piece.mem_sites_ofText_iff, hpairwise, ?_,
    hescapes, ?_, ?_, ?_⟩
  · have hreplaced := Piece.replaced_sitesFrom [] (Piece.ofText s.toList) (Nat.le_refl 0)
    rw [List.nil_append, Piece.flatMap_source_ofText, List.drop_nil, List.nil_append] at hreplaced
    rw [Piece.sites, hreplaced]
    rfl
  · rw [hescapes, List.pairwise_map]
    exact hpairwise.imp Site.escape_last_lt
  · intro r hr
    have hdenotes := (Piece.mem_sites_ofText_iff.mp hr).1
    exact ⟨hdenotes.unbroken, Site.width_lt (names_iff_denotes.mpr hdenotes)⟩
  · have hlength := Piece.removedUnits_escapesFrom 0 hsound
    rw [Piece.written_ofText] at hlength
    have htext : (ofText s).text.toList = Piece.text (Piece.ofText s.toList) :=
      String.toList_ofList
    rw [htext, Nat.add_comm]
    exact hlength

end Decoded

/-! ## Texts written with references

A text can be written in many ways: each ampersand as some reference, and any other character as it
is or as some reference, by any of its names or by its number. Whatever the text itself looks like,
each of these ways is read back as the text (`ofText_of_encodes`), for an ampersand that is written
always begins a reference. -/

namespace Piece

/-- A piece that may be written for its character: the character itself, unless it is an ampersand,
or any reference for it. -/
inductive Writes : Piece → Prop
  | plain {c : Char} (h : c ≠ '&') : Writes (.plain c)
  | reference {name : List Char} {value : Char} (h : Denotes name value) :
      Writes (.reference name value)

/-- The pieces are a way to write the text. -/
structure Encodes (ps : List Piece) (s : List Char) : Prop where
  text_eq : text ps = s
  writes : ∀ p ∈ ps, Writes p

theorem ofText_flatMap_source {ps : List Piece} (h : ∀ p ∈ ps, Writes p) :
    ofText (ps.flatMap source) = ps := by
  induction ps with
  | nil => rfl
  | cons p ps ih =>
      obtain ⟨hp, hps⟩ := List.forall_mem_cons.mp h
      have hrest := ih hps
      cases hp with
      | @plain c hc =>
          have hplain : ofText (c :: ps.flatMap source) = .plain c :: ofText (ps.flatMap source) :=
            ofText_cons fun hamp => absurd hamp hc
          rw [hrest] at hplain
          exact hplain
      | @reference name value hdenotes =>
          have hsource : (Piece.reference name value :: ps).flatMap source =
              '&' :: (name ++ ';' :: ps.flatMap source) := by simp [source]
          rw [hsource, ofText_reference (names_iff_denotes.mpr hdenotes), hrest]

end Piece

namespace Decoded

/-- **Whatever is written for a text is read as that text**, and for each reference that was written
there is one escape, in order, at its place in what was written and with what it is longer than its
character. -/
theorem ofText_of_encodes {s : String} {ps : List Piece} (h : Piece.Encodes ps s.toList) :
    ofText (String.ofList (ps.flatMap Piece.source)) = ⟨s, (Piece.sites ps).map Site.escape⟩ ∧
      ∀ r ∈ Piece.sites ps, width r.value < length r.source := by
  have hread := Piece.ofText_flatMap_source h.writes
  have hsound : Piece.Sound ps := hread ▸ Piece.sound_ofText _
  constructor
  · simp only [ofText, String.toList_ofList, hread, h.text_eq, String.ofList_toList,
      Decoded.mk.injEq, true_and]
    exact Piece.escapesFrom_eq_map [] hsound
  · intro r hr
    obtain ⟨front, back, rfl, -⟩ := Piece.mem_sitesFrom_iff.mp hr
    exact Site.width_lt (hsound _ _ (by simp))

/-- A way to write `a&lt;é<`, which looks like a reference itself. -/
def ampersandWritten : List Piece := [
  .plain 'a', .reference ['a', 'm', 'p'] '&', .plain 'l', .plain 't', .plain ';',
  .reference ['#', 'X', '0', '0', 'e', '9'] 'é', .reference ['#', '6', '0'] '<']

theorem ofText_ampersandWritten :
    Piece.Encodes ampersandWritten "a&lt;é<".toList ∧
      ofText "a&amp;lt;&#X00e9;&#60;" = ⟨"a&lt;é<", [⟨1, 5, 4⟩, ⟨9, 16, 7⟩, ⟨17, 21, 4⟩]⟩ := by
  have hamp : Denotes ['a', 'm', 'p'] '&' :=
    .listed (List.mem_of_getElem? (i := 615) (by decide +kernel))
  have hacute : Digits.Spells 16 ['e', '9'] 'é'.toNat :=
    ⟨by decide, [14, 9], by decide, by decide, by decide⟩
  have hless : Digits.Spells 10 ['6', '0'] '<'.toNat :=
    ⟨by decide, [6, 0], by decide, by decide, by decide⟩
  have hencodes : Piece.Encodes ampersandWritten "a&lt;é<".toList := by
    refine ⟨by decide, ?_⟩
    simp only [ampersandWritten, List.forall_mem_cons, List.not_mem_nil, false_imp_iff,
      implies_true, and_true]
    have hpadded := Digits.Spells.cons_zero (by decide) (.cons_zero (by decide) hacute)
    exact ⟨.plain (by decide), .reference hamp, .plain (by decide), .plain (by decide),
      .plain (by decide), .reference (.hexadecimal (Or.inr rfl) hpadded),
      .reference (.decimal hless)⟩
  refine ⟨hencodes, ?_⟩
  have hsource : "a&amp;lt;&#X00e9;&#60;" =
      String.ofList (ampersandWritten.flatMap Piece.source) := by decide
  rw [hsource, (ofText_of_encodes hencodes).1]
  decide

end Decoded
end TweetText
