import Turnstile.Proofs.Json.Typed

/-!
# Other ways to write a record

What a record says does not depend on the order of its fields.  A field that says nothing
may be left out, and fields that the record does not have may be added, whatever they
hold.  A reader that starts from the record that says nothing and puts in one field after
another reads the same record from all of these.
-/

namespace Turnstile.Json

/-- What a value is written for: its own parts, of which a record has named ones. -/
inductive Shape where
  | leaf
  | map
  | list (item : Shape)
  | record (fields : List (String × Shape))

/-- Values that say nothing: none, a list or a map without items, a record without a field that
says something. -/
inductive Unset : Value → Prop where
  | null : Unset .null
  | list : Unset (.list [])
  | object {members : List (String × Value)} (each : ∀ member ∈ members, Unset member.2) :
      Unset (.object members)

mutual

/-- A text of the tree says what the value says, in one of the ways to write it. -/
inductive Variant : Shape → Value → Tree → Prop where
  | leaf {value : Value} : Variant .leaf value value.tree
  | map {members : List (String × Value)} {later : List (String × Tree)}
      (order : later.Perm (treeMembers members)) : Variant .map (.object members) (.object later)
  | list {item : Shape} {items : List Value} {later : List Tree}
      (each : VariantItems item items later) : Variant (.list item) (.list items) (.list later)
  | record {fields : List (String × Shape)} {members : List (String × Value)}
      {kept unknown later : List (String × Tree)} (each : VariantFields fields members kept)
      (other : ∀ member ∈ unknown, member.1 ∉ fields.map Prod.fst)
      (order : later.Perm (kept ++ unknown)) :
      Variant (.record fields) (.object members) (.object later)

inductive VariantItems : Shape → List Value → List Tree → Prop where
  | nil {item : Shape} : VariantItems item [] []
  | cons {item : Shape} {value : Value} {tree : Tree} {items : List Value} {later : List Tree}
      (first : Variant item value tree) (others : VariantItems item items later) :
      VariantItems item (value :: items) (tree :: later)

/-- Of the fields of a record, some that say nothing are left out. -/
inductive VariantFields :
    List (String × Shape) → List (String × Value) → List (String × Tree) → Prop where
  | nil : VariantFields [] [] []
  | keep {name : String} {shape : Shape} {value : Value} {tree : Tree}
      {fields : List (String × Shape)} {members : List (String × Value)}
      {kept : List (String × Tree)} (first : Variant shape value tree)
      (others : VariantFields fields members kept) :
      VariantFields ((name, shape) :: fields) ((name, value) :: members) ((name, tree) :: kept)
  | drop {name : String} {shape : Shape} {value : Value} {fields : List (String × Shape)}
      {members : List (String × Value)} {kept : List (String × Tree)} (unset : Unset value)
      (others : VariantFields fields members kept) :
      VariantFields ((name, shape) :: fields) ((name, value) :: members) kept

end

/-- What is left out when it says nothing is its default. -/
theorem keeps {α : Type} {p : Prop} [Decidable p] {value : Value} {x default : α}
    (given : p ∨ Unset value) (same : Unset value → x = default) :
    (if p then x else default) = x := by
  split
  · rfl
  · exact (same (given.resolve_left ‹_›)).symm

theorem Unset.ofOption {α : Type} {encode : α → Value} (encoded : ∀ x, ¬Unset (encode x))
    {value? : Option α} (unset : Unset (.ofOption encode value?)) : value? = none := by
  cases value? with
  | none => rfl
  | some x => exact absurd unset (encoded x)

/-- Items that are read from every variant of what is written for them are read together. -/
theorem VariantItems.reads {α : Type} {read : Reader α} {shape : Shape} {encode : α → Value}
    {xs : List α} {later : List Tree} (each : VariantItems shape (xs.map encode) later)
    (reads : ∀ x {tree : Tree}, Variant shape (encode x) tree → Reads read tree x) :
    List.Forall₂ (Reads read) later xs := by
  induction xs generalizing later with
  | nil =>
      cases each
      exact .nil
  | cons x xs ih =>
      cases each with
      | cons first others =>
          exact .cons (reads x first) (ih others)

/-! ## The parts of a record -/

/-- A field of a record, and the value that is written for it. -/
structure Part where
  name : String
  shape : Shape
  value : Value

namespace Part

def field (part : Part) : String × Shape := (part.name, part.shape)

def member (part : Part) : String × Value := (part.name, part.value)

/-- The member gives one of the parts. -/
def Given (parts : List Part) (member : String × Tree) : Prop :=
  ∃ part ∈ parts, part.name = member.1 ∧ Variant part.shape part.value member.2

end Part

variable {parts : List Part}

/-- What is kept of a record gives its parts, each at most once, and leaves out no part that
says something. -/
theorem VariantFields.given {kept : List (String × Tree)}
    (variant : VariantFields (parts.map Part.field) (parts.map Part.member) kept) :
    (∀ member ∈ kept, Part.Given parts member) ∧
      (kept.map Prod.fst).Sublist (parts.map Part.name) ∧
      ∀ part ∈ parts, part.name ∈ kept.map Prod.fst ∨ Unset part.value := by
  induction parts generalizing kept with
  | nil =>
      cases variant
      simp
  | cons part parts ih =>
      obtain ⟨name, shape, value⟩ := part
      have more {member : String × Tree} (given : Part.Given parts member) :
          Part.Given (⟨name, shape, value⟩ :: parts) member := by
        obtain ⟨part, found, gives⟩ := given
        exact ⟨part, List.mem_cons_of_mem _ found, gives⟩
      cases variant with
      | keep first others =>
          obtain ⟨each, names, all⟩ := ih others
          refine ⟨?_, names.cons_cons name, ?_⟩
          · rintro member found
            rcases List.mem_cons.mp found with rfl | found
            · exact ⟨_, List.mem_cons_self, rfl, first⟩
            · exact more (each member found)
          · rintro part found
            rcases List.mem_cons.mp found with rfl | found
            · exact .inl List.mem_cons_self
            · exact (all part found).imp_left (List.mem_cons_of_mem _)
      | drop unset others =>
          obtain ⟨each, names, all⟩ := ih others
          refine ⟨fun member found => more (each member found), names.cons name, ?_⟩
          rintro part found
          rcases List.mem_cons.mp found with rfl | found
          · exact .inr unset
          · exact all part found

/-- What is written, as it is, has texts and says what it says. -/
structure Written (shape : Shape) (value : Value) : Prop where
  variant : Variant shape value value.tree
  hasText : HasText value

theorem Written.option {α : Type} {encode : α → Value} {value? : Option α}
    (encoded : ∀ x, HasText (encode x)) : Written .leaf (.ofOption encode value?) where
  variant := .leaf
  hasText := by
    cases value? with
    | none => trivial
    | some x => exact encoded x

theorem Written.list {shape : Shape} {items : List Value}
    (each : ∀ item ∈ items, Written shape item) : Written (.list shape) (.list items) where
  variant := by
    refine .list ?_
    induction items with
    | nil => exact .nil
    | cons item items ih =>
        exact .cons (each item List.mem_cons_self).variant
          (ih fun item found => each item (List.mem_cons_of_mem _ found))
  hasText := haveTexts_iff.mpr fun item found => (each item found).hasText

theorem Written.record (each : ∀ part ∈ parts, Written part.shape part.value) :
    Written (.record (parts.map Part.field)) (.object (parts.map Part.member)) where
  variant := by
    have fields : VariantFields (parts.map Part.field) (parts.map Part.member)
        (treeMembers (parts.map Part.member)) := by
      induction parts with
      | nil => exact .nil
      | cons part parts ih =>
          exact .keep (each part List.mem_cons_self).variant
            (ih fun part found => each part (List.mem_cons_of_mem _ found))
    exact @Variant.record _ _ _ [] _ fields (by simp) (by simp)
  hasText := by
    refine membersHaveTexts_iff.mpr fun member found => ?_
    obtain ⟨part, isPart, rfl⟩ := List.mem_map.mp found
    exact (each part isPart).hasText

/-! ## Reading a record in any order -/

variable {σ : Type} {fields : List (RecordField σ)} {partly : List String → σ} {target : σ}

/--
The fields read the parts of `target`: `partly` is the record as far as the parts of the
given names have been put in.
-/
structure Reflects (fields : List (RecordField σ)) (parts : List Part)
    (partly : List String → σ) (target : σ) : Prop where
  distinct : (parts.map Part.name).Nodup
  known : ∀ part ∈ parts, ∃ field,
    fields.find? (fun field => field.name == part.name) = some field ∧
      ∀ seen later, Variant part.shape part.value later →
        Reads (field.read (partly seen)) later (partly (part.name :: seen))
  only : ∀ field ∈ fields, field.name ∈ parts.map Part.name
  whole : ∀ seen, (∀ part ∈ parts, part.name ∈ seen ∨ Unset part.value) → partly seen = target

theorem takes_unknown {name : String} (unknown : ∀ field ∈ fields, field.name ≠ name)
    (tree : Tree) (state : List String × σ) :
    Takes (readField fields) name tree state state := by
  intro text spelled blanks blanks' rest blank blank' follows
  have missing : fields.find? (fun field => field.name == name) = none := by
    simpa using unknown
  simp only [readField, missing, readColon_append blank, skipValue_append spelled blank' follows,
    Except.map]

theorem takes_known {name : String} {field : RecordField σ} {tree : Tree} {seen : List String}
    {before after : σ} (found : fields.find? (fun field => field.name == name) = some field)
    (unseen : name ∉ seen) (reads : Reads (field.read before) tree after) :
    Takes (readField fields) name tree (seen, before) (name :: seen, after) := by
  intro text spelled blanks blanks' rest blank blank' follows
  simp only [readField, found, if_neg unseen, readColon_append blank,
    reads spelled blank' follows, mapRead]

/-- The two members are not of the same name out of `names`, of which one at most is read. -/
def Apart (names : List String) (member other : String × Tree) : Prop :=
  member.1 = other.1 → member.1 ∉ names

theorem Apart.symm {names : List String} {member other : String × Tree}
    (apart : Apart names member other) : Apart names other member :=
  fun same => same ▸ apart same.symm

theorem pairwise_apart {names : List String} {kept unknown later : List (String × Tree)}
    (distinct : (kept.map Prod.fst).Nodup) (other : ∀ member ∈ unknown, member.1 ∉ names)
    (order : later.Perm (kept ++ unknown)) : later.Pairwise (Apart names) := by
  have keptApart : kept.Pairwise (Apart names) :=
    (List.pairwise_map.mp distinct).imp fun different same => absurd same different
  have unknownApart : unknown.Pairwise (Apart names) :=
    List.pairwise_of_forall_mem_list fun member found _ _ _ => other member found
  have mixed : ∀ member ∈ kept, ∀ member' ∈ unknown, Apart names member member' :=
    fun _ _ member' found same => same ▸ other member' found
  rw [order.pairwise_iff Apart.symm]
  exact List.pairwise_append.mpr ⟨keptApart, unknownApart, mixed⟩

namespace Reflects

/-- Of a record that says nothing, nothing needs to be put in. -/
theorem eq_of_unset (reflects : Reflects fields parts partly target)
    (unset : Unset (.object (parts.map Part.member))) : partly [] = target := by
  cases unset with
  | object each =>
      exact reflects.whole [] fun part found => .inr (each _ (List.mem_map_of_mem found))

/-- In whatever order the members come, what has been put in so far is known by its names. -/
theorem takesAll (reflects : Reflects fields parts partly target)
    {later : List (String × Tree)}
    (each : ∀ member ∈ later, Part.Given parts member ∨ member.1 ∉ parts.map Part.name)
    (apart : later.Pairwise (Apart (parts.map Part.name))) (seen : List String)
    (unseen : ∀ member ∈ later, member.1 ∈ parts.map Part.name → member.1 ∉ seen) :
    ∃ seen', TakesAll (readField fields) later (seen, partly seen) (seen', partly seen') ∧
      seen ⊆ seen' ∧
      ∀ member ∈ later, member.1 ∈ parts.map Part.name → member.1 ∈ seen' := by
  induction later generalizing seen with
  | nil => exact ⟨seen, .nil, List.Subset.refl seen, by simp⟩
  | cons member later ih =>
      obtain ⟨name, tree⟩ := member
      obtain ⟨first, apart'⟩ := List.pairwise_cons.mp apart
      have others := fun member found => each member (List.mem_cons_of_mem _ found)
      have unseen' := fun member found => unseen member (List.mem_cons_of_mem _ found)
      -- A part is put in, and its name with it; any other member is skipped.
      rcases each _ List.mem_cons_self with ⟨part, isPart, rfl, variant⟩ | unknown
      · obtain ⟨field, found, reads⟩ := reflects.known part isPart
        have isName : part.name ∈ parts.map Part.name := List.mem_map_of_mem isPart
        have unseen'' : ∀ member ∈ later, member.1 ∈ parts.map Part.name →
            member.1 ∉ part.name :: seen := by
          intro member found known
          rw [List.mem_cons, not_or]
          exact ⟨fun same => first member found same.symm isName, unseen' member found known⟩
        have takesFirst := takes_known found (unseen _ List.mem_cons_self isName)
          (reads seen tree variant)
        obtain ⟨seen', takes, subset, all⟩ := ih others apart' (part.name :: seen) unseen''
        exact ⟨seen', .cons takesFirst takes, fun _ already =>
          subset (List.mem_cons_of_mem _ already),
          List.forall_mem_cons.mpr ⟨fun _ => subset List.mem_cons_self, all⟩⟩
      · have missing : ∀ field ∈ fields, field.name ≠ name := by
          rintro field found rfl
          exact unknown (reflects.only field found)
        obtain ⟨seen', takes, subset, all⟩ := ih others apart' seen unseen'
        exact ⟨seen', .cons (takes_unknown missing tree _) takes, subset,
          List.forall_mem_cons.mpr ⟨fun known => absurd known unknown, all⟩⟩

/-- A record is read from every variant of what is written for it. -/
theorem reads (reflects : Reflects fields parts partly target) {later : Tree}
    (variant : Variant (.record (parts.map Part.field)) (.object (parts.map Part.member)) later) :
    Reads (readRecord fields [] (partly [])) later target := by
  have fieldNames : (parts.map Part.field).map Prod.fst = parts.map Part.name := by
    rw [List.map_map]
    rfl
  cases variant with
  | @record _ _ kept unknown later fieldsKept other order =>
      rw [fieldNames] at other
      obtain ⟨given, names, all⟩ := fieldsKept.given
      have each : ∀ member ∈ later,
          Part.Given parts member ∨ member.1 ∉ parts.map Part.name := by
        intro member found
        exact (List.mem_append.mp (order.subset found)).imp (given member) (other member)
      have apart := pairwise_apart (names.nodup reflects.distinct) other order
      obtain ⟨seen, takes, -, gone⟩ := reflects.takesAll each apart [] (by simp)
      have complete : partly seen = target := by
        refine reflects.whole seen fun part isPart => (all part isPart).imp_left fun isKept => ?_
        obtain ⟨member, found, same⟩ := List.mem_map.mp isKept
        rw [← same]
        refine gone member (order.symm.subset (List.mem_append_left _ found)) ?_
        rw [same]
        exact List.mem_map_of_mem isPart
      intro text spelled blanks rest blank _
      have spaced := spelled.skipSpace blank rest
      obtain ⟨inner, rfl, members⟩ := spelled
      rw [readRecord, spaced, List.cons_append]
      simp only [readObject_append takes members, Json.complete, List.all_nil, if_true, complete]

end Reflects

end Turnstile.Json
