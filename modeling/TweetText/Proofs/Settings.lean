import TweetText.Proofs.Text.Numbers
import TweetText.Proofs.Text.Units
import TweetText.Settings

/-!
# Settings

How colors are read and written, and which environments give no settings.
-/

namespace TweetText

/-! ## Colors in writing

A color is written with six or eight hexadecimal digits in either case, maybe behind one number
sign, between blanks. Six digits stand for an opaque color, eight for any. Just this is read, and as
the number that the digits spell (`parse_eq_ok_iff`), so a text with more digits, a sign, a blank
between digits or another number sign is no color. What is written for a color is read back, and it
is what any other eight digits for it are in upper case (`parse_inverts_writing`). -/

namespace Color

open Digits

/-! ### How colors are written -/

/-- What digits stand for. -/
def Denotes (digits : List Char) (c : Color) : Prop :=
  ∃ n, Spells 16 digits n ∧
    (digits.length = 6 ∧ c.argb.toNat = 0xFF000000 + n ∨ digits.length = 8 ∧ c.argb.toNat = n)

/-- The digits stand between blanks, maybe behind a number sign. -/
def Frames (s : String) (digits : List Char) : Prop :=
  ∃ before sign after : List Char, s.toList = before ++ (sign ++ digits) ++ after ∧
    (∀ c ∈ before, isBlank c) ∧ (sign = [] ∨ sign = ['#']) ∧ ∀ c ∈ after, isBlank c

variable {digits : List Char} {c : Color} {n : Nat}

/-! ### Digits -/

theorem alpha_or_ofNat (h : n < 2 ^ 24) :
    (0xFF000000 : UInt32) ||| .ofNat n = .ofNat (0xFF000000 + n) := by
  have hsize : n < UInt32.size := h.trans (by decide)
  have hsum : 0xFF000000 + n < UInt32.size := Nat.add_lt_add_left h 0xFF000000
  rw [← UInt32.toNat_inj, UInt32.toNat_or, UInt32.toNat_ofNat_of_lt' hsize,
    UInt32.toNat_ofNat_of_lt' hsum]
  exact (Nat.two_pow_add_eq_or_of_lt h 0xFF).symm

theorem ofDigits_of_spells (h : Spells 16 digits n) :
    ofDigits digits = if 2 ^ 32 ≤ n then .error .tooLarge
      else if digits.length = 6 then .ok ⟨.ofNat (0xFF000000 + n)⟩
      else if digits.length = 8 then .ok ⟨.ofNat n⟩
      else .error (.digitCount digits.length) := by
  have hpow := h.lt_pow (by decide)
  obtain ⟨hne, values, hread, rfl⟩ := (spells_iff (by decide)).mp h
  obtain ⟨hmap, hvalues⟩ := (mapM_ofRadix?_eq_some_iff (by decide)).mp hread
  have hlength : values.length = digits.length := by simpa using congrArg List.length hmap.symm
  have hempty : values.isEmpty = false := by
    rw [List.isEmpty_eq_false_iff, ← List.length_pos_iff, hlength]
    exact List.length_pos_iff.mpr hne
  rw [ofDigits, hread]
  simp only [hempty, toWord?_eq (show 16 < 2 ^ 32 by decide) hvalues, hlength, Bool.false_eq_true,
    if_false]
  generalize toNat 16 values = n at hpow ⊢
  by_cases hlarge : 2 ^ 32 ≤ n
  · rw [if_neg hlarge.not_gt, if_pos hlarge]
  · rw [if_pos (Nat.not_le.mp hlarge), if_neg hlarge]
    dsimp only
    by_cases hsix : digits.length = 6
    · rw [hsix] at hpow
      rw [if_pos hsix, if_pos hsix, ← alpha_or_ofNat hpow]
      rfl
    · rw [if_neg hsix, if_neg hsix]
      rfl

theorem ofDigits_of_forall_not (h : ∀ n, ¬ Spells 16 digits n) :
    ofDigits digits = .error (if digits = [] then .noDigits else .notHex) := by
  by_cases hempty : digits = []
  · subst hempty
    rfl
  · have hnone : digits.mapM (ofRadix? 16) = none := by
      rw [Option.eq_none_iff_forall_ne_some]
      intro values hread
      exact h _ ((spells_iff (by decide)).mpr ⟨hempty, values, hread, rfl⟩)
    rw [ofDigits, hnone, if_neg hempty]

theorem ok_ofNat_iff (h : n < 2 ^ 32) :
    (.ok ⟨.ofNat n⟩ : Except ParseError Color) = .ok c ↔ c.argb.toNat = n := by
  rw [Except.ok.injEq, Color.mk.injEq _ c.argb, ← UInt32.toNat_inj, UInt32.toNat_ofNat_of_lt' h,
    eq_comm]

theorem ofDigits_eq_ok_iff : ofDigits digits = .ok c ↔ Denotes digits c := by
  by_cases h : ∃ n, Spells 16 digits n
  · obtain ⟨n, hn⟩ := h
    have hpow := hn.lt_pow (by decide)
    have hdenotes : Denotes digits c ↔ digits.length = 6 ∧ c.argb.toNat = 0xFF000000 + n ∨
        digits.length = 8 ∧ c.argb.toNat = n :=
      ⟨fun ⟨m, hm, h⟩ => hm.unique (by decide) hn ▸ h, fun h => ⟨n, hn, h⟩⟩
    rw [ofDigits_of_spells hn, hdenotes]
    by_cases hsix : digits.length = 6
    · rw [hsix] at hpow
      rw [if_neg (by omega), if_pos hsix, ok_ofNat_iff (by omega)]
      omega
    · rw [if_neg hsix]
      by_cases hfull : digits.length = 8
      · rw [hfull] at hpow
        rw [if_neg (by omega), if_pos hfull, ok_ofNat_iff (by omega)]
        omega
      · rw [if_neg hfull]
        refine iff_of_false ?_ (by omega)
        split <;> nofun
  · rw [ofDigits_of_forall_not (not_exists.mp h)]
    exact iff_of_false nofun fun ⟨n, hn, _⟩ => h ⟨n, hn⟩

/-! ### Number signs and blanks -/

theorem exists_eq_append_dropSign (s : List Char) :
    ∃ sign, (sign = [] ∨ sign = ['#']) ∧ s = sign ++ dropSign s := by
  unfold dropSign
  split
  · exact ⟨['#'], Or.inr rfl, rfl⟩
  · exact ⟨[], Or.inl rfl, rfl⟩

theorem Denotes.isAlphanum (h : Denotes digits c) : ∀ x ∈ digits, x.isAlphanum := by
  obtain ⟨n, hn, -⟩ := h
  exact hn.isAlphanum (by decide)

theorem Denotes.dropSign_append (h : Denotes digits c) {sign : List Char}
    (hsign : sign = [] ∨ sign = ['#']) : dropSign (sign ++ digits) = digits := by
  rcases hsign with rfl | rfl
  · rw [List.nil_append]
    unfold dropSign
    split
    · exact absurd (h.isAlphanum '#' List.mem_cons_self) (by decide)
    · rfl
  · rfl

theorem not_isBlank_of_isAlphanum {x : Char} (h : x.isAlphanum) : ¬ isBlank x := by
  have hbounds := isAlphanum_iff.mp h
  simp only [isBlank, Bool.or_eq_true, Bool.and_eq_true, decide_eq_true_eq, beq_iff_eq]
  omega

theorem Denotes.stripBlanks_append (h : Denotes digits c) {before sign after : List Char}
    (hbefore : ∀ x ∈ before, isBlank x) (hsign : sign = [] ∨ sign = ['#'])
    (hafter : ∀ x ∈ after, isBlank x) :
    stripBlanks (before ++ (sign ++ digits) ++ after) = sign ++ digits := by
  refine TweetText.stripBlanks_append hbefore (List.forall_mem_append.mpr ⟨?_, ?_⟩) hafter
  · rcases hsign with rfl | rfl
    · exact List.forall_mem_nil _
    · exact List.forall_mem_singleton.mpr (by decide)
  · exact fun x hx => not_isBlank_of_isAlphanum (h.isAlphanum x hx)

/-- **What is read as a color** are the digits of one, framed. -/
theorem parse_eq_ok_iff {s : String} :
    parse s = .ok c ↔ ∃ digits, Frames s digits ∧ Denotes digits c := by
  rw [parse, ofDigits_eq_ok_iff]
  constructor
  · intro h
    obtain ⟨before, after, hs, hbefore, hafter⟩ := exists_eq_append_stripBlanks s.toList
    obtain ⟨sign, hsign, hstripped⟩ := exists_eq_append_dropSign (stripBlanks s.toList)
    exact ⟨_, ⟨before, sign, after, by rw [← hstripped]; exact hs, hbefore, hsign, hafter⟩, h⟩
  · rintro ⟨digits, ⟨before, sign, after, hs, hbefore, hsign, hafter⟩, h⟩
    rwa [hs, h.stripBlanks_append hbefore hsign hafter, h.dropSign_append hsign]

/-! ### Written colors -/

theorem toChars_eq_iff :
    c.toChars = '#' :: digits.map Char.toUpper ↔ digits.length = 8 ∧ Denotes digits c := by
  have hlt : c.argb.toNat < 16 ^ 8 := c.argb.toNat_lt
  rw [toChars, List.cons.injEq, eq_self, true_and, eq_comm]
  constructor
  · intro h
    have hlength : digits.length = 8 := by
      simpa [length_upperHex] using congrArg List.length h
    have hne : digits ≠ [] := List.ne_nil_of_length_pos (by omega)
    rw [← hlength] at h hlt
    exact ⟨hlength, _, (map_toUpper_eq_upperHex_iff hne hlt).mp h, Or.inr ⟨hlength, rfl⟩⟩
  · rintro ⟨hlength, n, hn, ⟨hsix, -⟩ | ⟨-, rfl⟩⟩
    · omega
    · rw [← hlength] at hlt ⊢
      exact (map_toUpper_eq_upperHex_iff hn.1 hlt).mpr hn

theorem toList_toString (c : Color) : (toString c).toList = c.toChars := String.toList_ofList

theorem frames_toString (c : Color) : Frames (toString c) (upperHex 8 c.argb.toNat) :=
  ⟨[], ['#'], [], (toList_toString c).trans (List.append_nil _).symm, by simp, Or.inr rfl, by simp⟩

theorem denotes_upperHex (c : Color) : Denotes (upperHex 8 c.argb.toNat) c :=
  ⟨c.argb.toNat, spells_upperHex (by decide) c.argb.toNat_lt, Or.inr ⟨length_upperHex _ _, rfl⟩⟩

/-- **Reading and writing colors.** Framed digits of a color are read as that color and nothing else
is read. What is written for a color is read back, and it is a number sign and any eight digits for
the color, in upper case. -/
theorem parse_inverts_writing (s : String) (c : Color) :
    (parse s = .ok c ↔ ∃ digits, Frames s digits ∧ Denotes digits c) ∧
      ((∃ e, parse s = .error e) ↔ ¬ ∃ digits c, Frames s digits ∧ Denotes digits c) ∧
      parse (toString c) = .ok c ∧
      ∀ digits : List Char, (toString c).toList = '#' :: digits.map Char.toUpper ↔
        digits.length = 8 ∧ Denotes digits c := by
  refine ⟨parse_eq_ok_iff, ?_, ?_, fun digits => ?_⟩
  · rw [exists_comm]
    simp only [← parse_eq_ok_iff]
    cases parse s with
    | ok color => simp
    | error e => simp
  · exact parse_eq_ok_iff.mpr ⟨_, frames_toString c, denotes_upperHex c⟩
  · rw [toList_toString, toChars_eq_iff]

/-- Zeros in front count as digits, and no number is too large to be told as such. -/
example : parse "0000000012" = .error (.digitCount 10) ∧ parse "100000000" = .error .tooLarge := by
  decide

end Color

/-! ## Environments that give no settings

A variable is malformed if it is set to a text that it may not have. Each variable is judged on its
own, but the background color is not read where a highlight color is set, since nothing is laid on
it then. So an environment gives no settings just if a variable that is read is malformed
(`exists_ofEnvironment_eq_error_iff`), and a malformed background color may go unnoticed
(`not_forall_malformed_rejected`). -/

/-- A variable is set to a text that is not valid for it. -/
def Environment.Malformed (env : Environment) (IsValid : String → Prop) (name : String) : Prop :=
  ∃ value, env.get? name = some value ∧ ¬ IsValid value

namespace Settings

/-! ### Flags -/

def flagWords : List String := ["true", "1", "yes", "false", "0", "no"]

/-- A flag is one of the words, in letters of either case, maybe between blanks. -/
def IsFlag (value : String) : Prop :=
  ∃ before word after : List Char, value.toList = before ++ word ++ after ∧
    (∀ c ∈ before, isBlank c) ∧ (∀ c ∈ after, isBlank c) ∧
      String.ofList (word.map Char.toLower) ∈ flagWords

theorem isBlank_toLower (c : Char) : isBlank c.toLower = isBlank c := by
  have hlower := Digits.toNat_toLower c
  unfold isBlank
  split at hlower
  · simp only [hlower]
    grind
  · simp only [hlower]

theorem not_isBlank_of_mem_word {word : List Char}
    (h : String.ofList (word.map Char.toLower) ∈ flagWords) : ∀ c ∈ word, ¬ isBlank c := by
  intro c hc
  have hwords : flagWords.all fun s => s.toList.all fun c => !isBlank c := by decide
  have hword := List.all_eq_true.mp hwords _ h
  rw [String.toList_ofList, List.all_eq_true] at hword
  have hlower := hword _ (List.mem_map_of_mem hc)
  rw [isBlank_toLower] at hlower
  simpa using hlower

theorem isSome_flagOf?_iff {value : String} : (flagOf? value).isSome ↔ IsFlag value := by
  have hword : (flagOf? value).isSome ↔
      String.ofList ((stripBlanks value.toList).map Char.toLower) ∈ flagWords := by
    simp only [flagOf?, flagWords, List.mem_cons]
    grind
  rw [hword]
  constructor
  · intro h
    obtain ⟨before, after, hvalue, hbefore, hafter⟩ := exists_eq_append_stripBlanks value.toList
    exact ⟨before, _, after, hvalue, hbefore, hafter, h⟩
  · rintro ⟨before, word, after, hvalue, hbefore, hafter, hmem⟩
    rwa [hvalue, stripBlanks_append hbefore (not_isBlank_of_mem_word hmem) hafter]

theorem exists_flag_eq_error_iff {env : Environment} {name : String} :
    (∃ e, flag env name = .error e) ↔ env.Malformed IsFlag name := by
  unfold flag Environment.Malformed
  cases hget : env.get? name with
  | none => simp
  | some value =>
      simp only [Option.some.injEq, exists_eq_left', ← isSome_flagOf?_iff]
      cases flagOf? value with
      | none => simp
      | some b => simp

/-! ### Colors -/

/-- A color is what can be read as one. -/
def IsColor (value : String) : Prop := ∃ color, Color.parse value = .ok color

theorem exists_color?_eq_error_iff {env : Environment} {name : String} :
    (∃ e, color? env name = .error e) ↔ env.Malformed IsColor name := by
  unfold color? Environment.Malformed IsColor
  cases hget : env.get? name with
  | none => simp
  | some value =>
      simp only [Option.some.injEq, exists_eq_left']
      cases Color.parse value with
      | error cause => simp
      | ok color => simp

theorem color?_eq_ok_none_iff {env : Environment} {name : String} :
    color? env name = .ok none ↔ env.get? name = none := by
  unfold color?
  cases hget : env.get? name with
  | none => simp
  | some value =>
      dsimp only
      cases Color.parse value with
      | error cause => simp
      | ok color => simp

/-! ### Settings -/

/-- The variables that settings are read from, with what they may be set to. -/
def sources : List (String × (String → Prop)) := [
  ("LINKIFY_STRIP_QUOTE_TWEET", IsFlag),
  ("LINKIFY_STRIP_VINE_CARD", IsFlag),
  ("LINKIFY_LINK_COLOR", IsColor),
  ("LINKIFY_LINK_HIGHLIGHT_COLOR", IsColor),
  ("LINKIFY_BACKGROUND_COLOR", IsColor)]

theorem exists_source_iff {env : Environment} :
    (∃ v ∈ sources, env.Malformed v.2 v.1 ∧
        (v.1 = "LINKIFY_BACKGROUND_COLOR" → env.get? "LINKIFY_LINK_HIGHLIGHT_COLOR" = none)) ↔
      env.Malformed IsFlag "LINKIFY_STRIP_QUOTE_TWEET" ∨
      env.Malformed IsFlag "LINKIFY_STRIP_VINE_CARD" ∨
      env.Malformed IsColor "LINKIFY_LINK_COLOR" ∨
      env.Malformed IsColor "LINKIFY_LINK_HIGHLIGHT_COLOR" ∨
      env.Malformed IsColor "LINKIFY_BACKGROUND_COLOR" ∧
        env.get? "LINKIFY_LINK_HIGHLIGHT_COLOR" = none := by
  simp [sources]

/-- One step of reading: it fails, or what follows it does. -/
theorem exists_bind_eq_error_iff {α β : Type} {read : Except Error α} {f : α → Except Error β}
    {P : Prop} (h : ∀ a, read = .ok a → ((∃ e, f a = .error e) ↔ P)) :
    (∃ e, read >>= f = .error e) ↔ (∃ e, read = .error e) ∨ P := by
  cases read with
  | error e => exact iff_of_true ⟨e, rfl⟩ (Or.inl ⟨e, rfl⟩)
  | ok a => simpa [bind, Except.bind] using h a rfl

/-- **Environments that give no settings.** Settings cannot be read just if a variable is malformed,
where the background color counts only if no highlight color is set. -/
theorem exists_ofEnvironment_eq_error_iff (env : Environment) :
    (∃ e, ofEnvironment env = .error e) ↔
      ∃ v ∈ sources, env.Malformed v.2 v.1 ∧
        (v.1 = "LINKIFY_BACKGROUND_COLOR" → env.get? "LINKIFY_LINK_HIGHLIGHT_COLOR" = none) := by
  rw [exists_source_iff, ← exists_flag_eq_error_iff, ← exists_flag_eq_error_iff,
    ← exists_color?_eq_error_iff, ← exists_color?_eq_error_iff]
  refine exists_bind_eq_error_iff fun quotes _ => ?_
  refine exists_bind_eq_error_iff fun vines _ => ?_
  refine exists_bind_eq_error_iff fun linkColor _ => ?_
  refine exists_bind_eq_error_iff fun highlight hhighlight => ?_
  cases highlight with
  | none =>
      rw [← exists_color?_eq_error_iff, and_iff_left (color?_eq_ok_none_iff.mp hhighlight)]
      refine (exists_bind_eq_error_iff fun background _ => ?_).trans (or_iff_left not_false)
      exact iff_of_false (fun ⟨e, he⟩ => by cases he) id
  | some highlight =>
      refine iff_of_false ?_ ?_
      · rintro ⟨e, he⟩
        cases he
      · rintro ⟨-, hunset⟩
        rw [color?_eq_ok_none_iff.mpr hunset] at hhighlight
        cases hhighlight

def backgroundUnread : Environment where
  entries := [("LINKIFY_LINK_HIGHLIGHT_COLOR", "#80112233".toUTF8),
    ("LINKIFY_BACKGROUND_COLOR", "blue".toUTF8)]

/-- Not every malformed variable keeps settings from being read. -/
theorem not_forall_malformed_rejected :
    (∃ v ∈ sources, backgroundUnread.Malformed v.2 v.1) ∧
      ofEnvironment backgroundUnread = .ok ⟨{}, standardLinkColor, ⟨0x80112233⟩⟩ ∧
      ¬ ∀ env : Environment, (∃ e, ofEnvironment env = .error e) ↔
        ∃ v ∈ sources, env.Malformed v.2 v.1 := by
  have hmalformed : ∃ v ∈ sources, backgroundUnread.Malformed v.2 v.1 := by
    refine ⟨("LINKIFY_BACKGROUND_COLOR", IsColor), by simp [sources], "blue", by decide +kernel, ?_⟩
    rintro ⟨color, hcolor⟩
    have herror : Color.parse "blue" = .error .notHex := rfl
    rw [herror] at hcolor
    cases hcolor
  have hok : ofEnvironment backgroundUnread = .ok ⟨{}, standardLinkColor, ⟨0x80112233⟩⟩ := rfl
  refine ⟨hmalformed, hok, fun h => ?_⟩
  obtain ⟨e, he⟩ := (h backgroundUnread).mpr hmalformed
  rw [hok] at he
  cases he

end Settings
end TweetText
