import Mathlib.Computability.RegularExpressions
import TweetText.Mark
import TweetText.Proofs.Text.Numbers
import TweetText.Proofs.Text.Units

/-!
# The addresses of Tweets and Vines

What is recognised as the address of a Tweet or of a Vine, piece by piece (`isStatus_iff`,
`isVine_iff`). A piece that may be missing is taken where it stands, and nothing that may follow
begins like it, so no other way to take the text apart is lost. None of the pieces has a question
mark in it, so such an address has no query (`not_mem_of_isStatus`, `not_mem_of_isVine`). Every
permalink has one.
-/

namespace TweetText

namespace Address

variable {c : Char} {s rest literal host front : List Char}

/-! ## Literals -/

theorem after?_eq_some_iff : after? literal s = some rest ↔ s = literal ++ rest := by
  induction literal generalizing s with
  | nil => simp [after?]
  | cons c literal ih =>
      cases s with
      | nil => simp [after?]
      | cons d s =>
          by_cases h : c = d
          · simp [after?, h, ih]
          · simp [after?, h, Ne.symm h]

theorem afterOptional_append (literal rest : List Char) :
    afterOptional literal (literal ++ rest) = rest := by
  rw [afterOptional, after?_eq_some_iff.mpr rfl, Option.getD_some]

theorem afterOptional_of_not (h : ¬ literal <+: s) : afterOptional literal s = s := by
  unfold afterOptional
  cases hafter : after? literal s with
  | none => rfl
  | some rest => exact absurd ⟨rest, (after?_eq_some_iff.mp hafter).symm⟩ h

theorem exists_append_afterOptional (literal s : List Char) :
    ∃ taken, (taken = [] ∨ taken = literal) ∧ s = taken ++ afterOptional literal s := by
  unfold afterOptional
  cases hafter : after? literal s with
  | none => exact ⟨[], Or.inl rfl, rfl⟩
  | some rest => exact ⟨literal, Or.inr rfl, after?_eq_some_iff.mp hafter⟩

/-! ## Up to the path -/

def oldMark : List Char := ['/', '#', '!']

/-- What stands in front of the path: `http` or `https`, `://`, the host and maybe the mark of an
old address. -/
def IsFront (host front : List Char) : Prop :=
  ∃ secure mark : List Char, (secure = [] ∨ secure = ['s']) ∧ (mark = [] ∨ mark = oldMark) ∧
    front = ['h', 't', 't', 'p'] ++ (secure ++ ([':', '/', '/'] ++ host ++ mark))

theorem IsFront.of_afterHost? (h : afterHost? host s = some rest) :
    ∃ front, IsFront host front ∧ s = front ++ rest := by
  obtain ⟨behindHttp, hhttp, h⟩ := Option.bind_eq_some_iff.mp h
  obtain ⟨behindHost, hhost, rfl⟩ := Option.map_eq_some_iff.mp h
  obtain ⟨secure, hsecure, hbehindHttp⟩ := exists_append_afterOptional ['s'] behindHttp
  obtain ⟨mark, hmark, hbehindHost⟩ := exists_append_afterOptional oldMark behindHost
  refine ⟨_, ⟨secure, mark, hsecure, hmark, rfl⟩, ?_⟩
  rw [after?_eq_some_iff.mp hhttp, hbehindHttp, after?_eq_some_iff.mp hhost]
  simp only [List.append_assoc, List.append_cancel_left_eq]
  exact hbehindHost

theorem IsFront.afterHost?_append (h : IsFront host front) (hrest : ¬ oldMark <+: rest) :
    afterHost? host (front ++ rest) = some rest := by
  obtain ⟨secure, mark, hsecure, hmark, rfl⟩ := h
  have hbehindHttp : afterOptional ['s'] (secure ++ ([':', '/', '/'] ++ host ++ mark ++ rest)) =
      [':', '/', '/'] ++ host ++ (mark ++ rest) := by
    rw [List.append_assoc _ mark]
    rcases hsecure with rfl | rfl
    · exact afterOptional_of_not (by simp)
    · exact afterOptional_append _ _
  have hbehindHost : afterOptional oldMark (mark ++ rest) = rest := by
    rcases hmark with rfl | rfl
    · exact afterOptional_of_not hrest
    · exact afterOptional_append _ _
  rw [afterHost?, List.append_assoc, after?_eq_some_iff.mpr rfl, Option.bind_some,
    List.append_assoc, hbehindHttp, after?_eq_some_iff.mpr rfl, Option.map_some]
  exact congrArg some hbehindHost

theorem IsFront.not_mem (h : IsFront host front) (hhost : '?' ∉ host) : '?' ∉ front := by
  obtain ⟨secure, mark, hsecure, hmark, rfl⟩ := h
  rcases hsecure with rfl | rfl <;> rcases hmark with rfl | rfl <;> simp [oldMark, hhost]

/-! ## Runs -/

theorem isRun_iff {p : Char → Bool} : isRun p s ↔ s ≠ [] ∧ ∀ c ∈ s, p c := by
  simp [isRun]

theorem not_mem_of_isRun {p : Char → Bool} (h : isRun p s) (hc : ¬ p c) : c ∉ s :=
  fun hmem => hc ((isRun_iff.mp h).2 c hmem)

/-- No name begins like the mark of an old address. -/
theorem not_isPrefix_oldMark {name : List Char} (h : isRun isWord name) :
    ¬ oldMark <+: '/' :: name ++ rest := by
  cases name with
  | nil => cases h
  | cons c name =>
      have hc : isWord c := (isRun_iff.mp h).2 c List.mem_cons_self
      intro hmark
      obtain rfl : '#' = c := by
        have := (List.cons_prefix_cons.mp hmark).2
        exact (List.cons_prefix_cons.mp this).1
      exact absurd hc (by decide)

/-! ## Tweets and Vines -/

/-- **The address of a Tweet.** It is a front, a slash, a name, `/status/` and digits. -/
theorem isStatus_iff :
    isStatus s ↔ ∃ front name id, IsFront "twitter.com".toList front ∧ isRun isWord name ∧
      isRun Char.isDigit id ∧ s = front ++ ('/' :: name ++ ("/status/".toList ++ id)) := by
  constructor
  · intro h
    unfold isStatus at h
    split at h
    · cases h
    · rename_i path hpath
      split at h
      · cases h
      · rename_i id hid
        rw [Bool.and_eq_true] at h
        obtain ⟨behindHost, hhost, hslash⟩ := Option.bind_eq_some_iff.mp hpath
        obtain ⟨front, hfront, rfl⟩ := IsFront.of_afterHost? hhost
        refine ⟨front, path.takeWhile isWord, id, hfront, h.1, h.2, ?_⟩
        rw [after?_eq_some_iff.mp hslash, ← after?_eq_some_iff.mp hid]
        simp only [List.cons_append, List.takeWhile_append_dropWhile, List.nil_append]
  · rintro ⟨front, name, id, hfront, hname, hid, rfl⟩
    have hword : ∀ c ∈ name, isWord c := (isRun_iff.mp hname).2
    have htake : (name ++ ("/status/".toList ++ id)).takeWhile isWord = name := by
      rw [List.takeWhile_append_of_pos hword]
      exact List.append_nil name
    have hdrop : (name ++ ("/status/".toList ++ id)).dropWhile isWord =
        "/status/".toList ++ id := by
      rw [List.dropWhile_append_of_pos hword]
      rfl
    rw [isStatus, hfront.afterHost?_append (not_isPrefix_oldMark hname), Option.bind_some,
      after?_eq_some_iff.mpr (List.cons_append.trans List.singleton_append.symm)]
    dsimp only
    rw [hdrop, after?_eq_some_iff.mpr rfl]
    dsimp only
    rw [htake, hname, hid]
    rfl

/-- **The address of a Vine.** It is a front, `/v/` and a name. -/
theorem isVine_iff :
    isVine s ↔ ∃ front id, IsFront "vine.co".toList front ∧ isRun isWord id ∧
      s = front ++ (['/', 'v', '/'] ++ id) := by
  constructor
  · intro h
    unfold isVine at h
    split at h
    · cases h
    · rename_i id hid
      obtain ⟨behindHost, hhost, hpath⟩ := Option.bind_eq_some_iff.mp hid
      obtain ⟨front, hfront, rfl⟩ := IsFront.of_afterHost? hhost
      exact ⟨front, id, hfront, h, by rw [after?_eq_some_iff.mp hpath]⟩
  · rintro ⟨front, id, hfront, hid, rfl⟩
    rw [isVine, hfront.afterHost?_append (by simp [oldMark]), Option.bind_some,
      after?_eq_some_iff.mpr rfl]
    exact hid

/-- The address of a Tweet has no query. -/
theorem not_mem_of_isStatus (h : isStatus s) : '?' ∉ s := by
  obtain ⟨front, name, id, hfront, hname, hid, rfl⟩ := isStatus_iff.mp h
  have hname' : '?' ∉ name := not_mem_of_isRun hname (by decide)
  have hid' : '?' ∉ id := not_mem_of_isRun hid (by decide)
  simp [hfront.not_mem (by decide), hname', hid']

theorem not_mem_of_isVine (h : isVine s) : '?' ∉ s := by
  obtain ⟨front, id, hfront, hid, rfl⟩ := isVine_iff.mp h
  have hid' : '?' ∉ id := not_mem_of_isRun hid (by decide)
  simp [hfront.not_mem (by decide), hid']

end Address

/-! ## The languages of addresses

The addresses of Tweets and of Vines are two regular languages. Each is given twice, by a regular
expression and spelled out piece by piece, and what is recognised is just that language
(`isStatus_iff_matches`, `isStatus_iff_spells`, and the same for Vines). The two languages have
nothing in common, since no front has both hosts. So a mark leads to a Tweet, to a Vine or to
neither (`leadsTo_iff_spelled`). -/

namespace Address

open RegularExpression (char star matches'_mul matches'_add matches'_star matches'_char)

variable {s front literal host : List Char} {c : Char}

/-! ### Regular expressions -/

def exactly (s : List Char) : RegularExpression Char := (s.map char).prod

def maybe (s : List Char) : RegularExpression Char := 1 + exactly s

def oneOf (cs : List Char) : RegularExpression Char := (cs.map char).sum

def someOf (cs : List Char) : RegularExpression Char := oneOf cs * star (oneOf cs)

theorem mem_exactly : s ∈ (exactly literal).matches' ↔ s = literal := by
  induction literal generalizing s with
  | nil => exact Iff.rfl
  | cons c literal ih =>
      rw [exactly, List.map_cons, List.prod_cons, matches'_mul, Language.mem_mul]
      constructor
      · rintro ⟨_, rfl, rest, hrest, rfl⟩
        rw [ih.mp hrest]
        rfl
      · rintro rfl
        exact ⟨[c], rfl, literal, ih.mpr rfl, rfl⟩

theorem mem_maybe : s ∈ (maybe literal).matches' ↔ s = [] ∨ s = literal := by
  rw [maybe, matches'_add, Language.mem_add, mem_exactly]
  rfl

theorem mem_oneOf {cs : List Char} : s ∈ (oneOf cs).matches' ↔ ∃ c ∈ cs, s = [c] := by
  induction cs with
  | nil => simp [oneOf, Language.notMem_zero]
  | cons c cs ih =>
      rw [oneOf, List.map_cons, List.sum_cons, matches'_add, Language.mem_add]
      simp only [List.mem_cons, exists_eq_or_imp]
      exact or_congr Iff.rfl ih

theorem mem_star_oneOf {cs : List Char} :
    s ∈ (star (oneOf cs)).matches' ↔ ∀ c ∈ s, c ∈ cs := by
  rw [matches'_star, Language.mem_kstar]
  constructor
  · rintro ⟨parts, rfl, hparts⟩ c hc
    obtain ⟨part, hpart, hc⟩ := List.mem_flatten.mp hc
    obtain ⟨d, hd, rfl⟩ := mem_oneOf.mp (hparts part hpart)
    rwa [List.mem_singleton.mp hc]
  · intro h
    refine ⟨s.map ([·]), (List.flatMap_singleton' s).symm, ?_⟩
    simp only [List.forall_mem_map, mem_oneOf]
    exact fun c hc => ⟨c, h c hc, rfl⟩

theorem mem_someOf {cs : List Char} :
    s ∈ (someOf cs).matches' ↔ s ≠ [] ∧ ∀ c ∈ s, c ∈ cs := by
  simp only [someOf, matches'_mul, Language.mem_mul, mem_oneOf, mem_star_oneOf]
  constructor
  · rintro ⟨_, ⟨c, hc, rfl⟩, rest, hrest, rfl⟩
    exact ⟨List.cons_ne_nil c rest, List.forall_mem_cons.mpr ⟨hc, hrest⟩⟩
  · rintro ⟨hne, h⟩
    obtain ⟨c, rest, rfl⟩ := List.exists_cons_of_ne_nil hne
    obtain ⟨hc, hrest⟩ := List.forall_mem_cons.mp h
    exact ⟨[c], ⟨c, hc, rfl⟩, rest, hrest, rfl⟩

/-! ### Classes of characters -/

/-- The characters of names: ASCII letters, digits and the underscore. -/
def IsNameChar (c : Char) : Prop :=
  ('A' ≤ c ∧ c ≤ 'Z') ∨ ('a' ≤ c ∧ c ≤ 'z') ∨ ('0' ≤ c ∧ c ≤ '9') ∨ c = '_'

def range (first last : Char) : List Char :=
  (List.range' first.toNat (last.toNat + 1 - first.toNat)).map Char.ofNat

def wordClass : List Char := range 'A' 'Z' ++ range 'a' 'z' ++ range '0' '9' ++ ['_']

def digitClass : List Char := range '0' '9'

theorem mem_range {first last : Char} (hlast : last.toNat < 0xD800) :
    c ∈ range first last ↔ first ≤ c ∧ c ≤ last := by
  simp only [range, List.mem_map, List.mem_range'_1, Utf16.le_iff_toNat_le]
  constructor
  · rintro ⟨n, hn, rfl⟩
    rw [Utf16.toNat_ofNat (Or.inl (by omega))]
    omega
  · intro h
    exact ⟨c.toNat, by omega, Char.ofNat_toNat c⟩

theorem mem_wordClass : c ∈ wordClass ↔ IsNameChar c := by
  simp only [wordClass, List.mem_append, mem_range (show 'Z'.toNat < 0xD800 by decide),
    mem_range (show 'z'.toNat < 0xD800 by decide), mem_range (show '9'.toNat < 0xD800 by decide),
    List.mem_singleton, IsNameChar, or_assoc]

theorem mem_digitClass : c ∈ digitClass ↔ '0' ≤ c ∧ c ≤ '9' := mem_range (by decide)

theorem isWord_iff : isWord c ↔ IsNameChar c := by
  rw [isWord, Bool.or_eq_true, Digits.isAlphanum_iff, beq_iff_eq]
  simp only [IsNameChar, Utf16.le_iff_toNat_le]
  constructor
  · rintro ((h | h | h) | h)
    · exact Or.inr (Or.inr (Or.inl h))
    · exact Or.inl h
    · exact Or.inr (Or.inl h)
    · exact Or.inr (Or.inr (Or.inr h))
  · rintro (h | h | h | h)
    · exact Or.inl (Or.inr (Or.inl h))
    · exact Or.inl (Or.inr (Or.inr h))
    · exact Or.inl (Or.inl h)
    · exact Or.inr h

theorem isDigit_iff : c.isDigit ↔ '0' ≤ c ∧ c ≤ '9' := by
  delta Char.isDigit
  rw [Bool.and_eq_true, decide_eq_true_eq, decide_eq_true_eq]
  rfl

/-! ### Patterns of addresses -/

def frontPattern (host : List Char) : RegularExpression Char :=
  exactly ['h', 't', 't', 'p'] * (maybe ['s'] * (exactly ([':', '/', '/'] ++ host) * maybe oldMark))

/-- The pattern of the addresses of Tweets. -/
def statusPattern : RegularExpression Char :=
  frontPattern "twitter.com".toList *
    (exactly ['/'] * (someOf wordClass * (exactly "/status/".toList * someOf digitClass)))

/-- The pattern of the addresses of Vines. -/
def vinePattern : RegularExpression Char :=
  frontPattern "vine.co".toList * (exactly ['/', 'v', '/'] * someOf wordClass)

theorem mem_frontPattern : s ∈ (frontPattern host).matches' ↔ IsFront host s := by
  simp only [frontPattern, matches'_mul, Language.mem_mul, mem_exactly, mem_maybe, IsFront,
    exists_eq_left]
  constructor
  · rintro ⟨_, ⟨secure, hsecure, _, ⟨mark, hmark, rfl⟩, rfl⟩, rfl⟩
    exact ⟨secure, mark, hsecure, hmark, rfl⟩
  · rintro ⟨secure, mark, hsecure, hmark, rfl⟩
    exact ⟨_, ⟨secure, hsecure, _, ⟨mark, hmark, rfl⟩, rfl⟩, rfl⟩

theorem isRun_isWord_iff : isRun isWord s ↔ s ∈ (someOf wordClass).matches' := by
  simp only [isRun_iff, mem_someOf, mem_wordClass, isWord_iff]

theorem isRun_isDigit_iff : isRun Char.isDigit s ↔ s ∈ (someOf digitClass).matches' := by
  simp only [isRun_iff, mem_someOf, mem_digitClass, isDigit_iff]

/-- What is recognised as the address of a Tweet is what the pattern matches as a whole. -/
theorem isStatus_iff_matches : isStatus s ↔ s ∈ statusPattern.matches' := by
  simp only [isStatus_iff, statusPattern, matches'_mul, Language.mem_mul, mem_frontPattern,
    mem_exactly, exists_eq_left, isRun_isWord_iff, isRun_isDigit_iff]
  constructor
  · rintro ⟨front, name, id, hfront, hname, hid, rfl⟩
    exact ⟨front, hfront, _, ⟨_, ⟨name, hname, _, ⟨id, hid, rfl⟩, rfl⟩, rfl⟩, rfl⟩
  · rintro ⟨front, hfront, _, ⟨_, ⟨name, hname, _, ⟨id, hid, rfl⟩, rfl⟩, rfl⟩, rfl⟩
    exact ⟨front, name, id, hfront, hname, hid, rfl⟩

theorem isVine_iff_matches : isVine s ↔ s ∈ vinePattern.matches' := by
  simp only [isVine_iff, vinePattern, matches'_mul, Language.mem_mul, mem_frontPattern,
    mem_exactly, exists_eq_left, isRun_isWord_iff]
  constructor
  · rintro ⟨front, id, hfront, hid, rfl⟩
    exact ⟨front, hfront, _, ⟨id, hid, rfl⟩, rfl⟩
  · rintro ⟨front, hfront, _, ⟨id, hid, rfl⟩, rfl⟩
    exact ⟨front, id, hfront, hid, rfl⟩

/-! ### Addresses spelled out -/

def IsName (s : String) : Prop := s ≠ "" ∧ ∀ c ∈ s.toList, IsNameChar c

def IsNumber (s : String) : Prop := s ≠ "" ∧ ∀ c ∈ s.toList, '0' ≤ c ∧ c ≤ '9'

def SpellsAt (host path url : String) : Prop :=
  ∃ scheme ∈ ["http", "https"], ∃ mark ∈ ["", "/#!"],
    url = scheme ++ "://" ++ host ++ mark ++ path

/-- The address of a Tweet. -/
def SpellsStatus (url : String) : Prop :=
  ∃ name id, IsName name ∧ IsNumber id ∧
    SpellsAt "twitter.com" ("/" ++ name ++ "/status/" ++ id) url

/-- The address of a Vine. -/
def SpellsVine (url : String) : Prop := ∃ id, IsName id ∧ SpellsAt "vine.co" ("/v/" ++ id) url

theorem isName_iff {s : String} : IsName s ↔ isRun isWord s.toList := by
  simp only [IsName, isRun_iff, isWord_iff, ne_eq, String.toList_eq_nil_iff]

theorem isNumber_iff {s : String} : IsNumber s ↔ isRun Char.isDigit s.toList := by
  simp only [IsNumber, isRun_iff, isDigit_iff, ne_eq, String.toList_eq_nil_iff]

theorem spellsAt_iff {host path url : String} :
    SpellsAt host path url ↔
      ∃ front, IsFront host.toList front ∧ url.toList = front ++ path.toList := by
  simp only [SpellsAt, IsFront, List.mem_cons, List.not_mem_nil, or_false]
  constructor
  · rintro ⟨scheme, rfl | rfl, mark, rfl | rfl, rfl⟩
    · exact ⟨_, ⟨[], [], Or.inl rfl, Or.inl rfl, rfl⟩, by simp⟩
    · exact ⟨_, ⟨[], oldMark, Or.inl rfl, Or.inr rfl, rfl⟩, by simp [oldMark]⟩
    · exact ⟨_, ⟨['s'], [], Or.inr rfl, Or.inl rfl, rfl⟩, by simp⟩
    · exact ⟨_, ⟨['s'], oldMark, Or.inr rfl, Or.inr rfl, rfl⟩, by simp [oldMark]⟩
  · rintro ⟨_, ⟨secure, mark, rfl | rfl, rfl | rfl, rfl⟩, h⟩
    · exact ⟨"http", Or.inl rfl, "", Or.inl rfl, String.toList_inj.mp (by simpa using h)⟩
    · exact ⟨"http", Or.inl rfl, "/#!", Or.inr rfl,
        String.toList_inj.mp (by simpa [oldMark] using h)⟩
    · exact ⟨"https", Or.inr rfl, "", Or.inl rfl, String.toList_inj.mp (by simpa using h)⟩
    · exact ⟨"https", Or.inr rfl, "/#!", Or.inr rfl,
        String.toList_inj.mp (by simpa [oldMark] using h)⟩

theorem isStatus_iff_spells {url : String} : isStatus url.toList ↔ SpellsStatus url := by
  simp only [isStatus_iff, SpellsStatus, spellsAt_iff, isName_iff, isNumber_iff]
  constructor
  · rintro ⟨front, name, id, hfront, hname, hid, hurl⟩
    refine ⟨.ofList name, .ofList id, ?_, ?_, front, hfront, ?_⟩
    all_goals simpa
  · rintro ⟨name, id, hname, hid, front, hfront, hurl⟩
    exact ⟨front, name.toList, id.toList, hfront, hname, hid, by simpa using hurl⟩

theorem isVine_iff_spells {url : String} : isVine url.toList ↔ SpellsVine url := by
  simp only [isVine_iff, SpellsVine, spellsAt_iff, isName_iff]
  constructor
  · rintro ⟨front, id, hfront, hid, hurl⟩
    refine ⟨.ofList id, ?_, front, hfront, ?_⟩
    all_goals simpa
  · rintro ⟨id, hid, front, hfront, hurl⟩
    exact ⟨front, id.toList, hfront, hid, by simpa using hurl⟩

theorem not_isVine_of_isStatus (h : isStatus s) : ¬ isVine s := by
  intro hvine
  obtain ⟨_, name, id, ⟨secure, mark, hsecure, -, rfl⟩, -, -, hs⟩ := isStatus_iff.mp h
  obtain ⟨_, id', ⟨secure', mark', hsecure', -, rfl⟩, -, hs'⟩ := isVine_iff.mp hvine
  rw [hs] at hs'
  rcases hsecure with rfl | rfl <;> rcases hsecure' with rfl | rfl <;> simp at hs'

end Address

namespace Mark

open Address

theorem leadsToStatus_iff {a : Mark} :
    a.leadsToStatus ↔ ∃ url, a.expanded = some url ∧ isStatus url.toList := by
  simp [leadsToStatus, Option.any_eq_true]

theorem leadsToVine_iff {a : Mark} :
    a.leadsToVine ↔ ∃ url, a.expanded = some url ∧ isVine url.toList := by
  simp [leadsToVine, Option.any_eq_true]

/-- **What marks lead to.** A mark leads to a Tweet or to a Vine just if its expanded address is
spelled like one, which is to say that the pattern matches it as a whole. No text is spelled like
both, and a mark without an expanded address leads to neither. -/
theorem leadsTo_iff_spelled (a : Mark) (text : String) :
    (a.leadsToStatus ↔ ∃ url, a.expanded = some url ∧ SpellsStatus url) ∧
      (a.leadsToVine ↔ ∃ url, a.expanded = some url ∧ SpellsVine url) ∧
      (SpellsStatus text ↔ text.toList ∈ statusPattern.matches') ∧
      (SpellsVine text ↔ text.toList ∈ vinePattern.matches') ∧
      ¬ (SpellsStatus text ∧ SpellsVine text) ∧
      ¬ leadsToStatus { a with expanded := none } ∧ ¬ leadsToVine { a with expanded := none } := by
  refine ⟨?_, ?_, ?_, ?_, ?_, ?_, ?_⟩
  · simp only [leadsToStatus_iff, isStatus_iff_spells]
  · simp only [leadsToVine_iff, isVine_iff_spells]
  · rw [← isStatus_iff_spells, isStatus_iff_matches]
  · rw [← isVine_iff_spells, isVine_iff_matches]
  · rw [← isStatus_iff_spells, ← isVine_iff_spells]
    rintro ⟨hstatus, hvine⟩
    exact not_isVine_of_isStatus hstatus hvine
  · exact Bool.false_ne_true
  · exact Bool.false_ne_true

example : isStatus "http://twitter.com/#!/status/status/20".toList ∧
    ¬ isStatus "http://twitter.com/#!/status/status/20\n".toList := by decide

end Mark
end TweetText
