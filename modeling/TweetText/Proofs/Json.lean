import Mathlib.Data.List.Forall2
import Mathlib.Data.List.Nodup
import Mathlib.Data.List.Pairwise
import Mathlib.Logic.Relation
import TweetText.Json

/-!
# Documents and records

How values and records are read off nodes, and which edits of a document they are read off alike.
-/

/-! ## What values are read off

When the readers of numbers, of values that may be none and of lists succeed, and what they read off
the nodes that values are written as. -/

namespace TweetText.Json

section Outcomes

variable {α β : Type} {read : Except Fault α} {b : β}

theorem map_eq_ok_iff {f : α → β} : read.map f = .ok b ↔ ∃ a, read = .ok a ∧ f a = b := by
  cases read with
  | error fault => simp [Except.map]
  | ok a => simp [Except.map]

theorem bind_eq_ok_iff {f : α → Except Fault β} :
    read >>= f = .ok b ↔ ∃ a, read = .ok a ∧ f a = .ok b := by
  cases read with
  | error fault => simp [bind, Except.bind]
  | ok a => simp [bind, Except.bind]

end Outcomes

namespace Decoder

variable {α : Type} {decode : Decoder α} {node node' : Node} {items : List Node} {as : List α}

/-! ### Numbers -/

theorem int32_ofInt (n : Int32) : Decoder.int32 (.ofInt n.toInt) = .ok n := by
  have hle := n.le_toInt
  have hlt := n.toInt_lt
  have hread : whole (-2147483648) 2147483647 (.ofInt n.toInt) = .ok n.toInt :=
    if_pos ⟨by omega, by omega⟩
  rw [int32, hread, Except.map, Int32.ofInt_toInt]

theorem int64_ofInt (n : Int64) : Decoder.int64 (.ofInt n.toInt) = .ok n := by
  have hle := n.le_toInt
  have hlt := n.toInt_lt
  have hread : whole (-9223372036854775808) 9223372036854775807 (.ofInt n.toInt) =
      .ok n.toInt :=
    if_pos ⟨by omega, by omega⟩
  rw [int64, hread, Except.map, Int64.ofInt_toInt]

/-! ### Values that may be none -/

theorem optional_of_ne_null (hne : node ≠ .null) :
    Decoder.optional decode node = (decode node).map some := by
  cases node <;> first | rfl | exact absurd rfl hne

theorem optional_ofOption {write : α → Node} (h : ∀ a, decode (write a) = .ok a)
    (hne : ∀ a, write a ≠ .null) (a : Option α) :
    Decoder.optional decode (.ofOption write a) = .ok a := by
  cases a with
  | none => rfl
  | some a =>
    have hwrite : Node.ofOption write (some a) = write a := rfl
    rw [hwrite, optional_of_ne_null (hne a), h a, Except.map]

/-! ### Lists -/

theorem mapM_eq_ok_iff :
    items.mapM decode = .ok as ↔ List.Forall₂ (fun item a => decode item = .ok a) items as := by
  induction items generalizing as with
  | nil => simp [pure, Except.pure, eq_comm]
  | cons item items ih =>
    simp only [List.mapM_cons, bind_eq_ok_iff, List.forall₂_cons_left_iff, ih, pure, Except.pure,
      Except.ok.injEq]
    constructor
    · rintro ⟨a, ha, as, has, rfl⟩
      exact ⟨a, as, ha, has, rfl⟩
    · rintro ⟨a, as, ha, has, rfl⟩
      exact ⟨a, ha, as, has, rfl⟩

theorem forall₂_replace {before after : List Node}
    (hnode : ∀ a, decode node = .ok a → decode node' = .ok a)
    (h : List.Forall₂ (fun item a => decode item = .ok a) (before ++ node :: after) as) :
    List.Forall₂ (fun item a => decode item = .ok a) (before ++ node' :: after) as := by
  induction before generalizing as with
  | nil =>
    obtain ⟨a, as, ha, has, rfl⟩ := List.forall₂_cons_left_iff.mp h
    exact .cons (hnode a ha) has
  | cons first before ih =>
    obtain ⟨a, as, ha, has, rfl⟩ := List.forall₂_cons_left_iff.mp h
    exact .cons ha (ih has)

theorem list_ofItems_eq_ok_iff :
    Decoder.list decode (.ofItems items) = .ok as ↔
      List.Forall₂ (fun item a => decode item = .ok a) items as := by
  have hlist : Decoder.list decode (.ofItems items) = items.mapM decode := by
    simp only [Decoder.list, Node.ofItems, Ending.check]
    cases items.mapM decode <;> rfl
  rw [hlist, mapM_eq_ok_iff]

theorem list_ofItems_map {write : α → Node} (h : ∀ a, decode (write a) = .ok a) (as : List α) :
    Decoder.list decode (.ofItems (as.map write)) = .ok as := by
  rw [list_ofItems_eq_ok_iff, List.forall₂_map_left_iff, List.forall₂_same]
  exact fun a _ => h a

end Decoder

/-! ## What an object tells of a record

An object is read member by member, and the reader remembers which fields it has seen. What comes
out needs no such memory: each member on its own is passed over or tells how the record changes,
the object is read when no field is told of twice and none that is required is left out, and the
record is the empty one with all the changes made (`readMembers_eq_ok_iff`). Where the changes of
different fields commute, the order of the members does not matter (`record_perm`). -/

/-- The members of an object, by their keys. -/
abbrev Members := List (Except Fault String × Node)

/-- Changes of a record, each with the name of the field that it comes from. -/
abbrev Changes (ρ : Type) := List (String × (ρ → ρ))

def Changes.apply {ρ : Type} (told : Changes ρ) (record : ρ) : ρ :=
  told.foldl (fun r t => t.2 r) record

namespace RecordField

variable {ρ : Type} {fields : List (RecordField ρ)} {f g : RecordField ρ}
variable {members members' : Members} {ending : Ending}
variable {told : Changes ρ} {name : String} {value : Node} {seen : List String}
variable {record v : ρ}

/-! ### Fields by name -/

theorem eq_of_name_eq (hnames : (fields.map RecordField.name).Nodup) (hf : f ∈ fields)
    (hg : g ∈ fields) (heq : f.name = g.name) : f = g :=
  List.inj_on_of_nodup_map hnames hf hg heq

theorem find?_name (hnames : (fields.map RecordField.name).Nodup) (hf : f ∈ fields) :
    fields.find? (·.name == f.name) = some f := by
  cases hfound : fields.find? (·.name == f.name) with
  | none =>
    have hno := List.find?_eq_none.mp hfound f hf
    simp at hno
  | some g =>
    have hname : g.name = f.name := by simpa using List.find?_some hfound
    rw [eq_of_name_eq hnames (List.mem_of_find?_eq_some hfound) hf hname]

theorem find?_name_eq_none (hname : name ∉ fields.map RecordField.name) :
    fields.find? (·.name == name) = none := by
  simpa using hname

/-! ### One member -/

theorem readMembers_pass_eq_ok_iff (hname : name ∉ fields.map RecordField.name) :
    readMembers fields seen ((.ok name, value) :: members) ending record = .ok v ↔
      value.skip = .ok () ∧ readMembers fields seen members ending record = .ok v := by
  simp only [readMembers, bind_eq_ok_iff, Except.ok.injEq, exists_eq_left',
    find?_name_eq_none hname]
  exact ⟨fun ⟨_, hskip, h⟩ => ⟨hskip, h⟩, fun ⟨hskip, h⟩ => ⟨_, hskip, h⟩⟩

theorem readMembers_read_eq_ok_iff (hnames : (fields.map RecordField.name).Nodup)
    (hf : f ∈ fields) :
    readMembers fields seen ((.ok f.name, value) :: members) ending record = .ok v ↔
      f.name ∉ seen ∧ ∃ change, f.decode value = .ok change ∧
        readMembers fields (f.name :: seen) members ending (change record) = .ok v := by
  simp only [readMembers, bind_eq_ok_iff, Except.ok.injEq, exists_eq_left', find?_name hnames hf]
  split
  · rename_i hseen
    simp [hseen]
  · rename_i hunseen
    rw [bind_eq_ok_iff]
    exact (and_iff_right hunseen).symm

theorem finish_eq_ok_iff :
    finish (fields.filter fun f => f.name ∉ seen) record = .ok v ↔
      (∀ f ∈ fields, f.required = true → f.name ∈ seen) ∧ record = v := by
  have hany : (fields.filter fun f => f.name ∉ seen).any required = true ↔
      ¬ ∀ f ∈ fields, f.required = true → f.name ∈ seen := by
    simp only [List.any_eq_true, List.mem_filter, decide_eq_true_eq]
    push Not
    exact ⟨fun ⟨f, ⟨hf, hunseen⟩, hreq⟩ => ⟨f, hf, hreq, hunseen⟩,
      fun ⟨f, hf, hreq, hunseen⟩ => ⟨f, ⟨hf, hunseen⟩, hreq⟩⟩
  unfold finish
  by_cases hall : ∀ f ∈ fields, f.required = true → f.name ∈ seen
  · rw [if_neg (mt hany.mp (not_not.mpr hall))]
    simp only [Except.ok.injEq]
    exact (and_iff_right hall).symm
  · rw [if_pos (hany.mpr hall)]
    exact ⟨(fun h => nomatch h), fun h => absurd h.1 hall⟩

/-! ### What members tell -/

/-- The members of an object tell of these changes: one that has the name of no field is passed
over, and any other tells how its field changes the record. -/
inductive Tells (fields : List (RecordField ρ)) : Members → Changes ρ → Prop
  | nil : Tells fields [] []
  | pass {name : String} {value : Node} {members : Members} {told : Changes ρ} :
      name ∉ fields.map RecordField.name → value.skip = .ok () → Tells fields members told →
      Tells fields ((.ok name, value) :: members) told
  | read {f : RecordField ρ} {name : String} {value : Node} {change : ρ → ρ} {members : Members}
      {told : Changes ρ} : f ∈ fields → f.name = name → f.decode value = .ok change →
      Tells fields members told →
      Tells fields ((.ok name, value) :: members) ((name, change) :: told)

namespace Tells

theorem pass_iff (hname : name ∉ fields.map RecordField.name) :
    Tells fields ((.ok name, value) :: members) told ↔
      value.skip = .ok () ∧ Tells fields members told := by
  constructor
  · intro h
    cases h with
    | pass _ hskip h => exact ⟨hskip, h⟩
    | read hf hfname _ _ => exact absurd (hfname ▸ List.mem_map_of_mem hf) hname
  · rintro ⟨hskip, h⟩
    exact .pass hname hskip h

theorem read_iff (hnames : (fields.map RecordField.name).Nodup) (hf : f ∈ fields) :
    Tells fields ((.ok f.name, value) :: members) told ↔
      ∃ change told', f.decode value = .ok change ∧ Tells fields members told' ∧
        told = (f.name, change) :: told' := by
  constructor
  · intro h
    cases h with
    | pass hname _ _ => exact absurd (List.mem_map_of_mem hf) hname
    | read hg hgname hdecode h =>
      obtain rfl := eq_of_name_eq hnames hg hf hgname
      exact ⟨_, _, hdecode, h, rfl⟩
  · rintro ⟨change, told', hdecode, h, rfl⟩
    exact .read hf rfl hdecode h

theorem exists_field (h : Tells fields members told) {t : String × (ρ → ρ)} (ht : t ∈ told) :
    ∃ f ∈ fields, f.name = t.1 ∧ ∃ node, f.decode node = .ok t.2 := by
  induction h with
  | nil => cases ht
  | pass _ _ _ ih => exact ih ht
  | read hf hname hdecode _ ih =>
    obtain rfl | ht := List.mem_cons.mp ht
    · exact ⟨_, hf, hname, _, hdecode⟩
    · exact ih ht

/-- Members in another order tell of the same changes in another order. -/
theorem perm (h : Tells fields members told) (hperm : members.Perm members') :
    ∃ told', Tells fields members' told' ∧ told.Perm told' := by
  induction hperm generalizing told with
  | nil => exact ⟨told, h, .refl _⟩
  | cons member _ ih =>
    cases h with
    | pass hname hskip h =>
      obtain ⟨told', h', htold⟩ := ih h
      exact ⟨told', .pass hname hskip h', htold⟩
    | read hf hname hdecode h =>
      obtain ⟨told', h', htold⟩ := ih h
      exact ⟨_ :: told', .read hf hname hdecode h', htold.cons _⟩
  | swap first second members =>
    cases h with
    | pass hname hskip h =>
      cases h with
      | pass hname' hskip' h => exact ⟨_, .pass hname' hskip' (.pass hname hskip h), .refl _⟩
      | read hf hname' hdecode h =>
        exact ⟨_, .read hf hname' hdecode (.pass hname hskip h), .refl _⟩
    | read hf hname hdecode h =>
      cases h with
      | pass hname' hskip h => exact ⟨_, .pass hname' hskip (.read hf hname hdecode h), .refl _⟩
      | read hg hname' hdecode' h =>
        exact ⟨_, .read hg hname' hdecode' (.read hf hname hdecode h), .swap _ _ _⟩
  | trans _ _ ih₁ ih₂ =>
    obtain ⟨told₁, h₁, hperm₁⟩ := ih₁ h
    obtain ⟨told₂, h₂, hperm₂⟩ := ih₂ h₁
    exact ⟨told₂, h₂, hperm₁.trans hperm₂⟩

end Tells

/-- No field is told of twice, and none that is required is left out. -/
structure Complete (fields : List (RecordField ρ)) (names : List String) : Prop where
  once : names.Nodup
  required : ∀ f ∈ fields, f.required = true → f.name ∈ names

theorem Complete.perm {names names' : List String} (h : Complete fields names)
    (hperm : names.Perm names') : Complete fields names' :=
  ⟨hperm.nodup_iff.mp h.once, fun f hf hreq => hperm.mem_iff.mp (h.required f hf hreq)⟩

/-- **Reading is telling.** The members of a whole object are read just when they tell of each field
at most once and of each required one, and then the record is changed as they tell. -/
theorem readMembers_eq_ok_iff (hnames : (fields.map RecordField.name).Nodup) (hseen : seen.Nodup) :
    readMembers fields seen members .closed record = .ok v ↔
      ∃ told, Tells fields members told ∧ Complete fields (told.map Prod.fst ++ seen) ∧
        told.apply record = v := by
  induction members generalizing seen record with
  | nil =>
    have hread : readMembers fields seen [] .closed record =
        finish (fields.filter fun f => f.name ∉ seen) record := rfl
    rw [hread, finish_eq_ok_iff]
    constructor
    · rintro ⟨hreq, rfl⟩
      exact ⟨[], .nil, ⟨by simpa using hseen, by simpa using hreq⟩, rfl⟩
    · rintro ⟨told, htold, hcomplete, rfl⟩
      cases htold
      exact ⟨by simpa using hcomplete.required, rfl⟩
  | cons member members ih =>
    obtain ⟨key, value⟩ := member
    cases key with
    | error fault =>
      constructor
      · intro h
        cases h
      · rintro ⟨told, htold, -⟩
        cases htold
    | ok name =>
      by_cases hname : name ∈ fields.map RecordField.name
      · obtain ⟨f, hf, rfl⟩ := List.mem_map.mp hname
        rw [readMembers_read_eq_ok_iff hnames hf]
        constructor
        · rintro ⟨hunseen, change, hdecode, h⟩
          obtain ⟨told, htold, hcomplete, hv⟩ := (ih (hseen.cons hunseen)).mp h
          exact ⟨_ :: told, .read hf rfl hdecode htold, hcomplete.perm List.perm_middle, hv⟩
        · rintro ⟨told, htold, hcomplete, hv⟩
          obtain ⟨change, told', hdecode, htold', rfl⟩ := (Tells.read_iff hnames hf).mp htold
          have hfresh := (List.nodup_cons.mp hcomplete.once).1
          have hunseen : f.name ∉ seen := fun h => hfresh (List.mem_append_right _ h)
          exact ⟨hunseen, change, hdecode, (ih (hseen.cons hunseen)).mpr
            ⟨told', htold', hcomplete.perm List.perm_middle.symm, hv⟩⟩
      · rw [readMembers_pass_eq_ok_iff hname, ih hseen]
        simp only [Tells.pass_iff hname]
        exact ⟨fun ⟨hskip, told, htold, h⟩ => ⟨told, ⟨hskip, htold⟩, h⟩,
          fun ⟨told, ⟨hskip, htold⟩, h⟩ => ⟨hskip, told, htold, h⟩⟩

/-! ### The order of the members -/

/-- What two fields change may be changed in either order. -/
def Commutes (f g : RecordField ρ) : Prop :=
  ∀ ⦃node node' change change'⦄, f.decode node = .ok change → g.decode node' = .ok change' →
    ∀ record, change (change' record) = change' (change record)

theorem Commutes.symm (h : Commutes f g) : Commutes g f :=
  fun _ _ _ _ hg hf record => (h hf hg record).symm

theorem commutes_of {α β : Type} {name name' : String} {decode : Decoder α} {decode' : Decoder β}
    {set : α → ρ → ρ} {set' : β → ρ → ρ} (h : ∀ a b r, set a (set' b r) = set' b (set a r)) :
    Commutes (.of name decode set) (.of name' decode' set') := by
  intro node node' change change' hchange hchange' record
  obtain ⟨a, -, rfl⟩ := map_eq_ok_iff.mp hchange
  obtain ⟨b, -, rfl⟩ := map_eq_ok_iff.mp hchange'
  exact h a b record

/-- Fields with names of their own, whose changes commute. -/
structure Lawful (fields : List (RecordField ρ)) : Prop where
  names : (fields.map RecordField.name).Nodup
  commutes : fields.Pairwise Commutes

instance : Std.Symm (@Commutes ρ) := ⟨fun _ _ => Commutes.symm⟩

theorem Lawful.apply_perm {told' : Changes ρ} (h : Lawful fields)
    (htold : Tells fields members told) (honce : (told.map Prod.fst).Nodup)
    (hperm : told.Perm told') :
    told.apply record = told'.apply record := by
  refine hperm.foldl_eq' ?_ record
  intro t ht t' ht' record
  by_cases heq : t.1 = t'.1
  · rw [List.inj_on_of_nodup_map honce ht ht' heq]
  · obtain ⟨f, hf, hname, node, hdecode⟩ := htold.exists_field ht
    obtain ⟨g, hg, hname', node', hdecode'⟩ := htold.exists_field ht'
    have hne : g ≠ f := fun h => heq (by rw [← hname, ← hname', h])
    exact h.commutes.forall hg hf hne hdecode' hdecode record

end RecordField

/-! ### Whole objects -/

namespace Decoder

open RecordField

variable {ρ : Type} {fields : List (RecordField ρ)} {f : RecordField ρ} {empty v : ρ}
variable {name : String} {value value' : Node}
variable {members members' : Members}

theorem record_object_eq_ok_iff (hnames : (fields.map RecordField.name).Nodup) :
    Decoder.record fields empty (.object members .closed) = .ok v ↔
      ∃ told, Tells fields members told ∧ Complete fields (told.map Prod.fst) ∧
        told.apply empty = v := by
  have hread : readMembers fields [] members .closed empty = .ok v ↔ _ :=
    readMembers_eq_ok_iff hnames List.nodup_nil
  simp only [List.append_nil] at hread
  exact hread

/-- **Members in any order.** A whole object reads as the same record when its members are put in
another order. -/
theorem record_perm (h : Lawful fields) (hperm : members.Perm members')
    (hread : Decoder.record fields empty (.object members .closed) = .ok v) :
    Decoder.record fields empty (.object members' .closed) = .ok v := by
  obtain ⟨told, htold, hcomplete, hv⟩ := (record_object_eq_ok_iff h.names).mp hread
  obtain ⟨told', htold', htolds⟩ := htold.perm hperm
  have hcomplete' := hcomplete.perm (htolds.map Prod.fst)
  have hv' := (h.apply_perm htold hcomplete.once htolds).symm.trans hv
  exact (record_object_eq_ok_iff h.names).mpr ⟨told', htold', hcomplete', hv'⟩

theorem record_front_iff {before after : Members}
    {member : Except Fault String × Node} (h : Lawful fields) :
    Decoder.record fields empty (.object (before ++ member :: after) .closed) = .ok v ↔
      Decoder.record fields empty (.object (member :: (before ++ after)) .closed) = .ok v :=
  ⟨record_perm h List.perm_middle, record_perm h List.perm_middle.symm⟩

theorem record_pass_eq_ok_iff (hname : name ∉ fields.map RecordField.name)
    (hskip : value.skip = .ok ()) :
    Decoder.record fields empty (.object ((.ok name, value) :: members) .closed) = .ok v ↔
      Decoder.record fields empty (.object members .closed) = .ok v :=
  (readMembers_pass_eq_ok_iff hname).trans (and_iff_right hskip)

theorem record_congr (hnames : (fields.map RecordField.name).Nodup) (hf : f ∈ fields)
    (hvalue : ∀ change, f.decode value = .ok change → f.decode value' = .ok change)
    (hread : Decoder.record fields empty (.object ((.ok f.name, value) :: members) .closed) =
      .ok v) :
    Decoder.record fields empty (.object ((.ok f.name, value') :: members) .closed) = .ok v := by
  obtain ⟨hunseen, change, hdecode, hrest⟩ := (readMembers_read_eq_ok_iff hnames hf).mp hread
  exact (readMembers_read_eq_ok_iff hnames hf).mpr ⟨hunseen, change, hvalue change hdecode, hrest⟩

/-- A member that changes nothing of an empty record may be left out. -/
theorem record_of_read (hnames : (fields.map RecordField.name).Nodup) (hf : f ∈ fields)
    (hreq : f.required = false)
    (hvalue : ∀ change, f.decode value = .ok change → change empty = empty)
    (hread : Decoder.record fields empty (.object ((.ok f.name, value) :: members) .closed) =
      .ok v) :
    Decoder.record fields empty (.object members .closed) = .ok v := by
  obtain ⟨told, htold, hcomplete, hv⟩ := (record_object_eq_ok_iff hnames).mp hread
  obtain ⟨change, told', hdecode, htold', rfl⟩ := (Tells.read_iff hnames hf).mp htold
  refine (record_object_eq_ok_iff hnames).mpr ⟨told', htold', ⟨?once, ?required⟩, ?change⟩
  case once => exact (List.nodup_cons.mp hcomplete.once).2
  case required =>
    intro g hg hgreq
    refine (List.mem_cons.mp (hcomplete.required g hg hgreq)).resolve_left fun hname => ?_
    rw [eq_of_name_eq hnames hg hf hname, hreq] at hgreq
    cases hgreq
  case change =>
    have hfirst : told'.apply (change empty) = v := hv
    rwa [hvalue change hdecode] at hfirst

end Decoder

/-! ### Objects with all fields in their order -/

/-- The members have the names of the fields, in their order, and change a record into another. -/
inductive RecordField.Takes {ρ : Type} :
    List (RecordField ρ) → List (String × Node) → ρ → ρ → Prop
  | nil (record : ρ) : Takes [] [] record record
  | cons {f : RecordField ρ} {fields : List (RecordField ρ)} {node : Node}
      {members : List (String × Node)} {change : ρ → ρ} {record v : ρ} :
      f.decode node = .ok change → Takes fields members (change record) v →
      Takes (f :: fields) ((f.name, node) :: members) record v

namespace RecordField

variable {ρ : Type} {fields part : List (RecordField ρ)} {members : List (String × Node)}
variable {record empty v : ρ}

theorem Takes.exists_tells (h : Takes part members record v) (hpart : part ⊆ fields) :
    ∃ told, Tells fields (members.map fun (name, value) => (.ok name, value)) told ∧
      told.map Prod.fst = part.map RecordField.name ∧
      told.apply record = v := by
  induction h with
  | nil record => exact ⟨[], .nil, rfl, rfl⟩
  | @cons f _ _ _ change _ _ hdecode _ ih =>
    obtain ⟨hf, hrest⟩ := List.cons_subset.mp hpart
    obtain ⟨told, htold, hnames, hv⟩ := ih hrest
    exact ⟨(f.name, change) :: told, .read hf rfl hdecode htold, congrArg (f.name :: ·) hnames, hv⟩

theorem record_ofMembers (hnames : (fields.map RecordField.name).Nodup)
    (h : Takes fields members empty v) :
    Decoder.record fields empty (.ofMembers members) = .ok v := by
  obtain ⟨told, htold, htolds, hv⟩ := h.exists_tells (List.Subset.refl fields)
  have hcomplete : Complete fields (told.map Prod.fst) :=
    htolds ▸ ⟨hnames, fun f hf _ => List.mem_map_of_mem hf⟩
  exact (Decoder.record_object_eq_ok_iff hnames).mpr ⟨told, htold, hcomplete, hv⟩

end RecordField

/-! ## Documents that say the same

A record need not be written the way that it was: its members may stand in any order, there may be
more of them, those with the values that their fields have anyway may be left out, and a list
without elements may be null. Such edits may be made anywhere inside of a document, and what can be
edited depends on what stands there. A decoder is lenient when it reads an edited document as it
reads the unedited one (`Lenient`), and a record of fields with lenient decoders has one
(`Lenient.record`). -/

/-- What the node of a value looks like. -/
inductive Shape where
  | number
  | text
  | range
  | optional (shape : Shape)
  | list (element : Shape)
  | record (fields : List (String × Shape))

/-- The node of a field that has its default value. Of a value that may be none this is null, not
the default of the value. A record has none. -/
def Shape.default? : Shape → Option Node
  | number => some (.ofInt 0)
  | text => some (.ofString "")
  | range => some (.ofItems [.ofInt 0, .ofInt 0])
  | optional _ => some .null
  | list _ => some (.ofItems [])
  | record _ => none

/-- One edit of a node of the shape, at the node or inside of it. -/
inductive Edit : Shape → Node → Node → Prop
  /-- The members of an object are put in another order. -/
  | reorder {fields} {members members' : Members} : members.Perm members' →
      Edit (.record fields) (.object members .closed) (.object members' .closed)
  /-- A member that has the name of no field is put in, with any value that is JSON. -/
  | add {fields name value} (before after : Members) : name ∉ fields.map Prod.fst →
      value.skip = .ok () →
      Edit (.record fields) (.object (before ++ after) .closed)
        (.object (before ++ (.ok name, value) :: after) .closed)
  /-- A member is left out whose value is the default of its field. -/
  | remove {fields name shape value} (before after : Members) : (name, shape) ∈ fields →
      shape.default? = some value →
      Edit (.record fields) (.object (before ++ (.ok name, value) :: after) .closed)
        (.object (before ++ after) .closed)
  /-- An edit is made in the value of a field. -/
  | member {fields name shape value value'} (before after : Members) : (name, shape) ∈ fields →
      Edit shape value value' →
      Edit (.record fields) (.object (before ++ (.ok name, value) :: after) .closed)
        (.object (before ++ (.ok name, value') :: after) .closed)
  /-- An edit is made in an element of a list. -/
  | item {element node node'} (before after : List Node) : Edit element node node' →
      Edit (.list element) (.array (before ++ node :: after) .closed)
        (.array (before ++ node' :: after) .closed)
  /-- A list without elements becomes null. -/
  | nullify {element} : Edit (.list element) (.array [] .closed) .null
  /-- An edit is made in a value that may be none. -/
  | present {shape node node'} : Edit shape node node' → Edit (.optional shape) node node'

/-- A decoder reads a node of the shape alike before and after edits, and the default node as the
blank value. -/
structure Decoder.Lenient {α : Type} (decode : Decoder α) (shape : Shape) (blank : α) : Prop where
  edit : ∀ ⦃node node' v⦄, Edit shape node node' → decode node = .ok v → decode node' = .ok v
  default : ∀ ⦃node⦄, shape.default? = some node → decode node = .ok blank

namespace Decoder.Lenient

variable {α : Type} {decode : Decoder α} {shape : Shape} {blank v : α} {node node' : Node}

theorem edits (h : decode.Lenient shape blank)
    (hedits : Relation.ReflTransGen (Edit shape) node node') (hread : decode node = .ok v) :
    decode node' = .ok v := by
  induction hedits with
  | refl => exact hread
  | tail _ hedit ih => exact h.edit hedit ih

/-! ### Values -/

theorem fixed (hfixed : ∀ node node', ¬ Edit shape node node')
    (hdefault : ∀ node, shape.default? = some node → decode node = .ok blank) :
    decode.Lenient shape blank :=
  ⟨fun _ _ _ hedit => absurd hedit (hfixed _ _), hdefault⟩

theorem int64 : Decoder.int64.Lenient .number 0 :=
  fixed (fun _ _ => nofun) (by rintro node ⟨⟩; rfl)

theorem string : Decoder.string.Lenient .text "" :=
  fixed (fun _ _ => nofun) (by rintro node ⟨⟩; rfl)

/-! ### Values that may be none -/

theorem optional (h : decode.Lenient shape blank)
    (hne : ∀ ⦃node node'⦄, Edit shape node node' → node ≠ .null ∧ node' ≠ .null) :
    (Decoder.optional decode).Lenient (.optional shape) none where
  edit := by
    intro node node' v hedit hread
    cases hedit with
    | present hedit =>
      obtain ⟨hnode, hnode'⟩ := hne hedit
      rw [optional_of_ne_null hnode] at hread
      obtain ⟨a, ha, rfl⟩ := map_eq_ok_iff.mp hread
      rw [optional_of_ne_null hnode', h.edit hedit ha]
      rfl
  default := by
    rintro node ⟨⟩
    rfl

theorem optional_string : (Decoder.optional .string).Lenient (.optional .text) none :=
  string.optional fun _ _ hedit => nomatch hedit

theorem optional_record {fields : List (String × Shape)}
    (h : decode.Lenient (.record fields) blank) :
    (Decoder.optional decode).Lenient (.optional (.record fields)) none :=
  h.optional fun _ _ hedit => by cases hedit <;> exact ⟨nofun, nofun⟩

/-! ### Lists -/

theorem list (h : decode.Lenient shape blank) :
    (Decoder.list decode).Lenient (.list shape) [] where
  edit := by
    intro node node' v hedit hread
    cases hedit with
    | item _ _ hedit =>
      have hitems := list_ofItems_eq_ok_iff.mp hread
      exact list_ofItems_eq_ok_iff.mpr (forall₂_replace (fun _ => h.edit hedit) hitems)
    | nullify => exact hread
  default := by
    rintro node ⟨⟩
    rfl

end Decoder.Lenient

/-! ### Records -/

/-- A field of a record has the name and the shape, and by default it leaves an empty record as it
is. -/
structure RecordField.Suits {ρ : Type} (empty : ρ) (f : RecordField ρ) (field : String × Shape) :
    Prop where
  name : f.name = field.1
  optional : f.required = false
  edit : ∀ ⦃node node' change⦄, Edit field.2 node node' → f.decode node = .ok change →
    f.decode node' = .ok change
  default : ∀ ⦃node change⦄, field.2.default? = some node → f.decode node = .ok change →
    change empty = empty

namespace RecordField

variable {ρ : Type} {fields : List (RecordField ρ)} {shapes : List (String × Shape)} {empty : ρ}

theorem suits_of {α : Type} {decode : Decoder α} {shape : Shape} {blank : α} {name : String}
    {set : α → ρ → ρ} (h : decode.Lenient shape blank) (hset : set blank empty = empty) :
    Suits empty (.of name decode set) (name, shape) where
  name := rfl
  optional := rfl
  edit := by
    intro node node' change hedit hread
    obtain ⟨a, ha, rfl⟩ := map_eq_ok_iff.mp hread
    exact map_eq_ok_iff.mpr ⟨a, h.edit hedit ha, rfl⟩
  default := by
    intro node change hdefault hread
    obtain ⟨a, ha, rfl⟩ := map_eq_ok_iff.mp hread
    obtain rfl : blank = a := Except.ok.inj ((h.default hdefault).symm.trans ha)
    exact hset

theorem exists_suits {field : String × Shape}
    (hsuits : List.Forall₂ (Suits empty) fields shapes) (hfield : field ∈ shapes) :
    ∃ f ∈ fields, f.Suits empty field := by
  induction hsuits with
  | nil => cases hfield
  | cons hsuit _ ih =>
    obtain rfl | hfield := List.mem_cons.mp hfield
    · exact ⟨_, List.mem_cons_self, hsuit⟩
    · obtain ⟨f, hf, hsuit⟩ := ih hfield
      exact ⟨f, List.mem_cons_of_mem _ hf, hsuit⟩

theorem map_name_eq (hsuits : List.Forall₂ (Suits empty) fields shapes) :
    fields.map RecordField.name = shapes.map Prod.fst := by
  induction hsuits with
  | nil => rfl
  | cons hsuit _ ih => rw [List.map_cons, List.map_cons, hsuit.name, ih]

end RecordField

open RecordField

/-- **Edits of a record.** A record is read alike before and after edits when the values of its
fields are. -/
theorem Decoder.Lenient.record {ρ : Type} {fields : List (RecordField ρ)}
    {shapes : List (String × Shape)} {empty : ρ} (hlawful : Lawful fields)
    (hsuits : List.Forall₂ (Suits empty) fields shapes) :
    (Decoder.record fields empty).Lenient (.record shapes) empty where
  edit := by
    intro node node' v hedit hread
    have hnames := map_name_eq hsuits
    cases hedit with
    | reorder hperm => exact record_perm hlawful hperm hread
    | add _ _ hname hskip =>
      rw [record_front_iff hlawful, record_pass_eq_ok_iff (hnames ▸ hname) hskip]
      exact hread
    | remove _ _ hfield hdefault =>
      obtain ⟨f, hf, hsuit⟩ := exists_suits hsuits hfield
      obtain rfl := hsuit.name
      rw [record_front_iff hlawful] at hread
      exact record_of_read hlawful.names hf hsuit.optional (fun _ => hsuit.default hdefault) hread
    | member _ _ hfield hedit =>
      obtain ⟨f, hf, hsuit⟩ := exists_suits hsuits hfield
      obtain rfl := hsuit.name
      rw [record_front_iff hlawful] at hread ⊢
      exact record_congr hlawful.names hf (fun _ => hsuit.edit hedit) hread
  default := by
    rintro node ⟨⟩

end TweetText.Json
