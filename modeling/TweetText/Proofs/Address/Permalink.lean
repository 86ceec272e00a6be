import Mathlib
import TweetText.Address

/-!
# Permalinks

The texts of a permalink are percent-encoded, so it can be taken apart again.
-/

namespace TweetText

/-! ## Percent-decoding

An encoded text has only unreserved characters and percent signs (`of_mem_encodeChars`), so nothing
in it can be taken for what parts the components of an address. To decode it, the bytes are put
together and read as UTF-8, which gives the text again (`decode?_encodeChars`). -/

namespace Percent

/-! ### What is in an encoded text -/

theorem isUnreserved_upper {n : Nat} (h : n < 16) : isUnreserved (Digits.upper n) := by
  have : ∀ m : Fin 16, isUnreserved (Digits.upper m.val) := by decide
  exact this ⟨n, h⟩

theorem of_mem_byte {b : UInt8} {c : Char} (h : c ∈ byte b) : isUnreserved c ∨ c = '%' := by
  have hb := b.toNat_lt
  simp only [byte, List.mem_cons, List.not_mem_nil, or_false] at h
  rcases h with rfl | rfl | rfl
  · exact Or.inr rfl
  · exact Or.inl (isUnreserved_upper (by omega))
  · exact Or.inl (isUnreserved_upper (by omega))

theorem of_mem_encodeChars {s : List Char} {c : Char} (h : c ∈ encodeChars s) :
    isUnreserved c ∨ c = '%' := by
  obtain ⟨d, -, hc⟩ := List.mem_flatMap.mp h
  unfold encodeChar at hc
  split at hc
  · rename_i hd
    exact Or.inl (List.mem_singleton.mp hc ▸ hd)
  · obtain ⟨b, -, hb⟩ := List.mem_flatMap.mp hc
    exact of_mem_byte hb

theorem encodeChars_of_unreserved {s : List Char} (h : ∀ c ∈ s, isUnreserved c) :
    encodeChars s = s := by
  induction s with
  | nil => rfl
  | cons c s ih =>
      rw [List.forall_mem_cons] at h
      rw [encodeChars_cons, encodeChar, if_pos h.1, ih h.2]
      rfl

/-! ### Decoding -/

/-- The bytes of an encoded text: a percent sign and two digits are one byte, and any other
character stands for its own bytes. -/
def decodeBytes? : List Char → Option (List UInt8)
  | [] => some []
  | '%' :: high :: low :: rest =>
    match Digits.value? high, Digits.value? low with
    | some m, some n => (decodeBytes? rest).map ((m * 16 + n).toUInt8 :: ·)
    | _, _ => none
  | c :: rest => if c = '%' then none else (decodeBytes? rest).map (String.utf8EncodeChar c ++ ·)

/-- The text that was encoded, if the bytes are those of one. -/
def decode? (s : List Char) : Option String :=
  (decodeBytes? s).bind fun bytes => String.fromUTF8? bytes.toByteArray

theorem decodeBytes?_byte_append (b : UInt8) (rest : List Char) :
    decodeBytes? (byte b ++ rest) = (decodeBytes? rest).map (b :: ·) := by
  have hb := b.toNat_lt
  have hvalue : (b.toNat / 16 * 16 + b.toNat % 16).toUInt8 = b := by
    rw [Nat.div_add_mod']
    exact UInt8.ofNat_toNat
  show decodeBytes? ('%' :: Digits.upper (b.toNat / 16) :: Digits.upper (b.toNat % 16) :: rest) = _
  rw [decodeBytes?, Digits.value?_upper (by omega), Digits.value?_upper (by omega)]
  simp only [hvalue]

theorem decodeBytes?_bytes_append (bytes : List UInt8) (rest : List Char) :
    decodeBytes? (bytes.flatMap byte ++ rest) = (decodeBytes? rest).map (bytes ++ ·) := by
  induction bytes with
  | nil => simp
  | cons b bytes ih =>
      rw [List.flatMap_cons, List.append_assoc, decodeBytes?_byte_append, ih, Option.map_map]
      rfl

theorem decodeBytes?_cons_of_ne {c : Char} (h : c ≠ '%') (rest : List Char) :
    decodeBytes? (c :: rest) = (decodeBytes? rest).map (String.utf8EncodeChar c ++ ·) := by
  rw [decodeBytes?.eq_3 _ _ fun _ _ _ hc => absurd hc h, if_neg h]

theorem decodeBytes?_encodeChar_append (c : Char) (rest : List Char) :
    decodeBytes? (encodeChar c ++ rest) =
      (decodeBytes? rest).map (String.utf8EncodeChar c ++ ·) := by
  unfold encodeChar
  split
  · rename_i hc
    have hne : c ≠ '%' := by
      rintro rfl
      exact absurd hc (by decide)
    exact decodeBytes?_cons_of_ne hne rest
  · exact decodeBytes?_bytes_append _ rest

theorem decodeBytes?_encodeChars (s : List Char) :
    decodeBytes? (encodeChars s) = some (s.flatMap String.utf8EncodeChar) := by
  induction s with
  | nil => rfl
  | cons c s ih =>
      rw [encodeChars_cons, decodeBytes?_encodeChar_append, ih, Option.map_some, List.flatMap_cons]

/-- **Decoding gives the text that was encoded.** -/
theorem decode?_encodeChars (s : String) : decode? (encodeChars s.toList) = some s := by
  have hbytes : (s.toList.flatMap String.utf8EncodeChar).toByteArray = s.toByteArray :=
    String.utf8Encode_toList
  rw [decode?, decodeBytes?_encodeChars, Option.bind_some, hbytes, String.fromUTF8?,
    dif_pos s.isValidUTF8]
  rfl

theorem encodeChars_inj {s t : String} :
    encodeChars s.toList = encodeChars t.toList ↔ s = t := by
  constructor
  · intro h
    have hdecode := congrArg decode? h
    rw [decode?_encodeChars, decode?_encodeChars] at hdecode
    exact Option.some.inj hdecode
  · rintro rfl
    rfl

end Percent

/-! ## What permalinks say

A server takes an address apart at its slashes, its question mark, its ampersands and its equals
signs, and decodes the components. Whatever the texts of a permalink are, taken apart it has as many
components as its kind asks for, and its texts are among them (`Permalink.ofChars_address`). So a
permalink says of what kind it is and which texts were put into it, and no two that differ in this
are written alike (`Permalink.address_unambiguous`). -/

namespace Address

/-! ### Components -/

/-- The characters that part the components of an address. -/
def separators : List Char := ['/', '?', '#', '&', '=']

def isPlain (s : List Char) : Bool := s.all (· ∉ separators)

theorem isPlain_iff {s : List Char} : isPlain s ↔ ∀ c ∈ s, c ∉ separators := by
  simp [isPlain]

theorem isPlain_append {s t : List Char} : isPlain (s ++ t) = (isPlain s && isPlain t) :=
  List.all_append

/-- An address taken apart: the segments of its path, with the scheme and the host before them, the
items of its query, each by its equals signs, and what follows a number sign. -/
structure Parts where
  path : List (List Char)
  query : List (List (List Char))
  fragment : List Char := []
deriving DecidableEq, Repr

namespace Parts

/-- Takes an address apart. -/
def ofChars (s : List Char) : Parts :=
  let front := s.takeWhile (· ≠ '#')
  { path := (front.takeWhile (· ≠ '?')).splitOn '/'
    query := ((front.dropWhile (· ≠ '?')).tail.splitOn '&').map (List.splitOn '=')
    fragment := (s.dropWhile (· ≠ '#')).tail }

def toChars (p : Parts) : List Char :=
  ['/'].intercalate p.path ++ '?' :: ['&'].intercalate (p.query.map ['='].intercalate)

/-- There is a path and a query, and no component has a separator in it. -/
structure Plain (p : Parts) : Prop where
  path_ne_nil : p.path ≠ []
  query_ne_nil : p.query ≠ []
  item_ne_nil : ∀ item ∈ p.query, item ≠ []
  path_plain : ∀ v ∈ p.path, isPlain v
  query_plain : ∀ item ∈ p.query, ∀ v ∈ item, isPlain v
  fragment_eq_nil : p.fragment = []

theorem mem_intercalate {sep c : Char} {vs : List (List Char)} (h : c ∈ [sep].intercalate vs) :
    c = sep ∨ ∃ v ∈ vs, c ∈ v := by
  induction vs with
  | nil => cases h
  | cons v vs ih =>
      cases vs with
      | nil => exact Or.inr ⟨v, List.mem_cons_self, by simpa using h⟩
      | cons w vs =>
          rw [List.intercalate_cons_cons, List.mem_append, List.mem_append,
            List.mem_singleton] at h
          rcases h with (h | h) | h
          · exact Or.inr ⟨v, List.mem_cons_self, h⟩
          · exact Or.inl h
          · rcases ih h with h | ⟨u, hu, hc⟩
            · exact Or.inl h
            · exact Or.inr ⟨u, List.mem_cons_of_mem v hu, hc⟩

variable {p : Parts} {c : Char}

theorem Plain.not_mem_path (h : p.Plain) (hc : c ∈ separators) (hne : c ≠ '/') :
    c ∉ ['/'].intercalate p.path := by
  intro hmem
  rcases mem_intercalate hmem with rfl | ⟨v, hv, hcv⟩
  · exact hne rfl
  · exact isPlain_iff.mp (h.path_plain v hv) c hcv hc

theorem Plain.not_mem_item (h : p.Plain) {item : List (List Char)} (hitem : item ∈ p.query)
    (hc : c ∈ separators) (hne : c ≠ '=') : c ∉ ['='].intercalate item := by
  intro hmem
  rcases mem_intercalate hmem with rfl | ⟨v, hv, hcv⟩
  · exact hne rfl
  · exact isPlain_iff.mp (h.query_plain item hitem v hv) c hcv hc

theorem takeWhile_ne_append_cons {before : List Char} (h : c ∉ before) (after : List Char) :
    (before ++ c :: after).takeWhile (· ≠ c) = before := by
  rw [List.takeWhile_append_of_pos fun d hd => decide_eq_true (ne_of_mem_of_not_mem hd h)]
  simp

theorem dropWhile_ne_append_cons {before : List Char} (h : c ∉ before) (after : List Char) :
    (before ++ c :: after).dropWhile (· ≠ c) = c :: after := by
  rw [List.dropWhile_append_of_pos fun d hd => decide_eq_true (ne_of_mem_of_not_mem hd h)]
  simp

/-- **Components stay apart.** An address put together of plain components comes apart in the same
components. -/
theorem Plain.ofChars_toChars (h : p.Plain) : ofChars p.toChars = p := by
  have hnumber : ∀ d ∈ p.toChars, decide (d ≠ '#') := by
    intro d hd
    apply decide_eq_true
    rintro rfl
    rw [toChars, List.mem_append, List.mem_cons] at hd
    rcases hd with hd | hd | hd
    · exact h.not_mem_path (by decide) (by decide) hd
    · exact absurd hd (by decide)
    · rcases mem_intercalate hd with hd | ⟨v, hv, hd⟩
      · exact absurd hd (by decide)
      · obtain ⟨item, hitem, rfl⟩ := List.mem_map.mp hv
        exact h.not_mem_item hitem (by decide) (by decide) hd
  have hmark : '?' ∉ ['/'].intercalate p.path := h.not_mem_path (by decide) (by decide)
  have hpath : (['/'].intercalate p.path).splitOn '/' = p.path :=
    List.splitOn_intercalate '/'
      (fun v hv hc => isPlain_iff.mp (h.path_plain v hv) _ hc (by decide)) h.path_ne_nil
  have hquery : (['&'].intercalate (p.query.map ['='].intercalate)).splitOn '&' =
      p.query.map ['='].intercalate := by
    apply List.splitOn_intercalate
    · intro v hv
      obtain ⟨item, hitem, rfl⟩ := List.mem_map.mp hv
      exact h.not_mem_item hitem (by decide) (by decide)
    · simpa using h.query_ne_nil
  have hitems : (p.query.map ['='].intercalate).map (List.splitOn '=') = p.query := by
    rw [List.map_map]
    refine (List.map_congr_left fun item hitem => ?_).trans (List.map_id p.query)
    refine List.splitOn_intercalate '=' (fun v hv hc => ?_) (h.item_ne_nil item hitem)
    exact isPlain_iff.mp (h.query_plain item hitem v hv) _ hc (by decide)
  unfold ofChars
  rw [List.takeWhile_eq_self_iff.mpr hnumber, List.dropWhile_eq_nil_iff.mpr hnumber]
  dsimp only
  rw [toChars, takeWhile_ne_append_cons hmark, dropWhile_ne_append_cons hmark, hpath,
    List.tail_cons, hquery, hitems, List.tail_nil, ← h.fragment_eq_nil]

end Parts

/-! ### Permalinks -/

/-- What a permalink leads to, with the texts that are put into it. -/
inductive Permalink where
  | profile (screenName : String)
  | hashtag (text : String)
  | cashtag (text : String)
  | status (screenName : Option String) (id : Int64)
deriving DecidableEq, Repr

namespace Permalink

def address : Permalink → String
  | profile screenName => Address.profile screenName
  | hashtag text => Address.hashtag text
  | cashtag text => Address.cashtag text
  | status screenName id => Address.status screenName id

def author (screenName : Option String) : String :=
  (screenName.filter (· ≠ "")).getD unknownAuthor

/-- The permalink with a name for an author without one. -/
def named : Permalink → Permalink
  | status screenName id => status (some (author screenName)) id
  | p => p

/-- The texts that are put into a permalink. -/
def texts : Permalink → List String
  | profile screenName => [screenName]
  | hashtag text => [text]
  | cashtag text => [text]
  | status screenName id => [author screenName, toString id.toInt]

/-- The components that stand for these texts. -/
def components : Permalink → List (List Char)
  | profile screenName => [Percent.encodeChars screenName.toList]
  | hashtag text => [Percent.encodeChars text.toList]
  | cashtag text => [Percent.encodeChars text.toList]
  | status screenName id =>
    [Percent.encodeChars (author screenName).toList, (toString id.toInt).toList]

def host : List (List Char) := ["https:".toList, [], "twitter.com".toList]

def referrerItem : List (List Char) := ["ref_src".toList, "twsrc%5Etwitterkit".toList]

def parts : Permalink → Parts
  | profile screenName => ⟨host ++ [Percent.encodeChars screenName.toList], [referrerItem], []⟩
  | hashtag text =>
    ⟨host ++ ["hashtag".toList, Percent.encodeChars text.toList], [referrerItem], []⟩
  | cashtag text =>
    ⟨host ++ ["search".toList],
      [["q".toList, "%24".toList ++ Percent.encodeChars text.toList], referrerItem], []⟩
  | status screenName id =>
    ⟨host ++ [Percent.encodeChars (author screenName).toList, "status".toList,
      (toString id.toInt).toList], [referrerItem], []⟩

theorem toList_site : site.toList = ['/'].intercalate host := by decide +kernel

theorem toList_referrer : referrer.toList = ['='].intercalate referrerItem := by decide +kernel

theorem toList_address (p : Permalink) : p.address.toList = p.parts.toChars := by
  cases p <;>
    simp [address, Address.profile, Address.hashtag, Address.cashtag, Address.status, author,
      toList_site, toList_referrer, Percent.encode, parts, Parts.toChars, host]

/-! ### Texts in components -/

theorem isUnreserved_of_isDigit {c : Char} (h : c.isDigit) : Percent.isUnreserved c := by
  simp [Percent.isUnreserved, Char.isAlphanum, h]

theorem isUnreserved_of_mem_toString {n : Int} {c : Char} (h : c ∈ (toString n).toList) :
    Percent.isUnreserved c := by
  have hdigit : ∀ m : Nat, c ∈ m.repr.toList → Percent.isUnreserved c := by
    intro m hc
    rw [Nat.toList_repr] at hc
    exact isUnreserved_of_isDigit (Nat.isDigit_of_mem_toDigits (by decide) (by decide) hc)
  change c ∈ n.repr.toList at h
  rw [Int.repr_eq_if] at h
  split at h
  · exact hdigit _ h
  · rw [String.toList_append, List.mem_append] at h
    rcases h with h | h
    · obtain rfl : c = '-' := by simpa using h
      decide
    · exact hdigit _ h

theorem components_eq (p : Permalink) :
    p.components = p.texts.map fun text => Percent.encodeChars text.toList := by
  cases p with
  | status screenName id =>
      have hid := Percent.encodeChars_of_unreserved
        fun c hc => isUnreserved_of_mem_toString (n := id.toInt) hc
      simp only [components, texts, List.map_cons, List.map_nil, hid]
  | _ => rfl

theorem isPlain_encodeChars (s : List Char) : isPlain (Percent.encodeChars s) := by
  rw [isPlain_iff]
  intro c hc hsep
  have hnone : separators.all fun d => !(Percent.isUnreserved d || d == '%') := by decide
  have hreserved := List.all_eq_true.mp hnone c hsep
  rcases Percent.of_mem_encodeChars hc with h | rfl
  · simp [h] at hreserved
  · exact absurd hsep (by decide)

theorem isPlain_of_mem_components (p : Permalink) : ∀ v ∈ p.components, isPlain v := by
  intro v hv
  rw [components_eq] at hv
  obtain ⟨text, -, rfl⟩ := List.mem_map.mp hv
  exact isPlain_encodeChars text.toList

theorem decode?_components (p : Permalink) :
    p.components.map Percent.decode? = p.texts.map some := by
  rw [components_eq, List.map_map]
  exact List.map_congr_left fun text _ => Percent.decode?_encodeChars text

theorem plain_parts (p : Permalink) : p.parts.Plain where
  path_ne_nil := by cases p <;> simp [parts]
  query_ne_nil := by cases p <;> simp [parts]
  item_ne_nil := by cases p <;> simp [parts, referrerItem]
  path_plain := by
    have hcomponents := p.isPlain_of_mem_components
    have hhost : ∀ v ∈ host, isPlain v := by decide
    cases p with
    | profile screenName => exact List.forall_mem_append.mpr ⟨hhost, hcomponents⟩
    | hashtag text =>
        exact List.forall_mem_append.mpr
          ⟨hhost, List.forall_mem_cons.mpr ⟨by decide, hcomponents⟩⟩
    | cashtag text => exact List.forall_mem_append.mpr ⟨hhost, by decide⟩
    | status screenName id =>
        obtain ⟨hauthor, hid⟩ := List.forall_mem_cons.mp hcomponents
        exact List.forall_mem_append.mpr
          ⟨hhost, List.forall_mem_cons.mpr
            ⟨hauthor, List.forall_mem_cons.mpr ⟨by decide, hid⟩⟩⟩
  query_plain := by
    have hreferrer : ∀ v ∈ referrerItem, isPlain v := by decide
    cases p with
    | cashtag text =>
        have hvalue : isPlain ("%24".toList ++ Percent.encodeChars text.toList) := by
          rw [isPlain_append, isPlain_encodeChars]
          decide
        exact List.forall_mem_cons.mpr
          ⟨List.forall_mem_cons.mpr ⟨by decide, List.forall_mem_singleton.mpr hvalue⟩,
            List.forall_mem_singleton.mpr hreferrer⟩
    | _ => simpa [parts] using hreferrer
  fragment_eq_nil := by cases p <;> rfl

/-- **Texts stay in their components.** Taken apart, a permalink has the components of its kind. -/
theorem ofChars_address (p : Permalink) : Parts.ofChars p.address.toList = p.parts := by
  rw [toList_address, p.plain_parts.ofChars_toChars]

/-! ### One kind and the same texts -/

theorem author_some_author (screenName : Option String) :
    author (some (author screenName)) = author screenName := by
  have hne : author screenName ≠ "" := by
    unfold author
    cases h : screenName.filter (· ≠ "") with
    | none => decide
    | some name => simpa using (Option.filter_eq_some_iff.mp h).2
  rw [author, Option.filter_some, if_pos (decide_eq_true hne), Option.getD_some]

theorem parts_named (p : Permalink) : p.named.parts = p.parts := by
  cases p with
  | status screenName id => simp only [named, parts, author_some_author]
  | _ => rfl

/-- The kinds differ in the number of segments or in that of items. -/
theorem named_eq_of_parts_eq {p q : Permalink} (h : p.parts = q.parts) : p.named = q.named := by
  cases p with
  | profile screenName =>
      cases q with
      | profile screenName' =>
          obtain rfl : screenName = screenName' := by
            simpa [parts, Percent.encodeChars_inj] using h
          rfl
      | _ => simp [parts] at h
  | hashtag text =>
      cases q with
      | hashtag text' =>
          obtain rfl : text = text' := by simpa [parts, Percent.encodeChars_inj] using h
          rfl
      | _ => simp [parts] at h
  | cashtag text =>
      cases q with
      | cashtag text' =>
          obtain rfl : text = text' := by simpa [parts, Percent.encodeChars_inj] using h
          rfl
      | _ => simp [parts] at h
  | status screenName id =>
      cases q with
      | status screenName' id' =>
          obtain ⟨hauthor, hid⟩ : author screenName = author screenName' ∧
              id.toInt.repr = id'.toInt.repr := by
            simpa [parts, Percent.encodeChars_inj, String.toList_inj] using h
          rw [named, named, hauthor, Int64.toInt_inj.mp (Int.repr_inj.mp hid)]
      | _ => simp [parts] at h

/-- **Permalinks cannot be mistaken.** No component that stands for a text has a separator in it,
and decoded it is the text. Taken apart, a permalink has the components of its kind and no others.
And two permalinks are written alike just if they are of one kind and have the same texts, where an
author without a name counts as one with the name that stands for it. -/
theorem address_unambiguous (p q : Permalink) :
    (∀ v ∈ p.components, ∀ c ∈ v, c ∉ separators) ∧
      p.components.map Percent.decode? = p.texts.map some ∧
      Parts.ofChars p.address.toList = p.parts ∧
      (p.address = q.address ↔ p.named = q.named) := by
  refine ⟨fun v hv => isPlain_iff.mp (p.isPlain_of_mem_components v hv), p.decode?_components,
    p.ofChars_address, ?_⟩
  constructor
  · intro h
    apply named_eq_of_parts_eq
    rw [← p.ofChars_address, ← q.ofChars_address, h]
  · intro h
    have hparts : p.parts = q.parts := by rw [← p.parts_named, ← q.parts_named, h]
    rw [← String.toList_inj, p.toList_address, q.toList_address, hparts]

/-- A hashtag that reads like the rest of the permalink of a Tweet. -/
theorem address_hashtagLikeStatus :
    (hashtag "status/20?").address =
        "https://twitter.com/hashtag/status%2F20%3F?ref_src=twsrc%5Etwitterkit" ∧
      (status (some "hashtag") 20).address =
        "https://twitter.com/hashtag/status/20?ref_src=twsrc%5Etwitterkit" ∧
      (∀ c ∈ "status%2F20%3F".toList, c ∉ separators) ∧
      (hashtag "status/20?").address ≠ (status (some "hashtag") 20).address := by
  obtain ⟨hplain, -, -, hiff⟩ :=
    address_unambiguous (hashtag "status/20?") (status (some "hashtag") 20)
  refine ⟨by decide +kernel, by decide +kernel, hplain _ ?_, ?_⟩
  · decide +kernel
  · intro h
    exact absurd (hiff.mp h) (by decide)

end Permalink

end Address
end TweetText
