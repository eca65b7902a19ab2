import Mathlib.Data.List.Basic
import Mathlib.Data.List.Nodup

/-!
The reading of JSON documents that `#[derive(Deserialize)]` generates.

A document keeps what a reader can tell apart and nothing more: the members of
an object stay in order and may repeat a key, and a string token need not spell
Unicode text, because a reader that only skips it never looks.  A struct is
read from an object, or from an array in the order of its fields.  Keys that
name no field are skipped, a field that occurs twice is an error.
-/

namespace Library.Serde

/-- What a string token spells: nothing, when an escape or an octet of it is
not Unicode text.  Such a token can be skipped but not read. -/
abbrev Token := Option String

structure Number where
  negative : Bool
  integer : Nat
  fraction : List (Fin 10)
  exponent : Option Int
  deriving DecidableEq

inductive Json where
  | null
  | bool (value : Bool)
  | number (value : Number)
  | string (token : Token)
  | array (items : List Json)
  | object (members : List (Token × Json))

abbrev Members := List (Token × Json)

/-- The value of a number written as an integer.  A fraction or an exponent
makes it floating point, and so does the sign of `-0`. -/
def Number.toInt? (n : Number) : Option Int :=
  if n.fraction ≠ [] ∨ n.exponent.isSome then none
  else if n.negative then if n.integer = 0 then none else some (-n.integer)
  else some n.integer

def Number.ofInt (i : Int) : Number :=
  { negative := decide (i < 0), integer := i.natAbs, fraction := [], exponent := none }

@[simp] theorem Number.toInt_ofInt (i : Int) : (Number.ofInt i).toInt? = some i := by
  by_cases h : i < 0
  · have hne : i ≠ 0 := by omega
    simp only [toInt?, ofInt, ne_eq, not_true_eq_false, Option.isSome_none,
      Bool.false_eq_true, or_self, if_false, decide_eq_true_eq, if_pos h,
      Int.natAbs_eq_zero, if_neg hne]
    congr 1
    omega
  · simp only [toInt?, ofInt, ne_eq, not_true_eq_false, Option.isSome_none,
      Bool.false_eq_true, or_self, if_false, decide_eq_true_eq, if_neg h]
    congr 1
    omega

/-- How a type is read: from a value, and from a struct field that is absent. -/
structure Deserialize (α : Type) where
  deserialize : Json → Option α
  missingField : Option α

def string : Deserialize String where
  deserialize
    | .string token => token
    | _ => none
  missingField := none

def bool : Deserialize Bool where
  deserialize
    | .bool value => some value
    | _ => none
  missingField := none

/-- An integer type that holds the values from `low` to `high`. -/
def integer {α : Type} (low high : Int) (ofInt : Int → α) : Deserialize α where
  deserialize
    | .number n => do
        let i ← n.toInt?
        if low ≤ i ∧ i ≤ high then some (ofInt i) else none
    | _ => none
  missingField := none

def i64 : Deserialize Int64 :=
  integer (-9223372036854775808) 9223372036854775807 Int64.ofInt

def i32 : Deserialize Int32 :=
  integer (-2147483648) 2147483647 Int32.ofInt

/-- `Option<T>`: `null` and an absent field are `None`. -/
def option {α : Type} (inner : Deserialize α) : Deserialize (Option α) where
  deserialize
    | .null => some none
    | value => (inner.deserialize value).map some
  missingField := some none

/-- `Vec<T>`. -/
def vec {α : Type} (inner : Deserialize α) : Deserialize (List α) where
  deserialize
    | .array items => items.mapM inner.deserialize
    | _ => none
  missingField := none

/-- A type that is written as a string and parsed from it. -/
def parsed {α : Type} (parse : String → Option α) : Deserialize α where
  deserialize value := (string.deserialize value).bind parse
  missingField := none

def custom {α : Type} (read : Json → Option α) : Deserialize α where
  deserialize := read
  missingField := none

def occurrences (name : String) (members : Members) : List Json :=
  (members.filter fun member => member.1 == some name).map Prod.snd

def readField {α : Type} (name : String) (inner : Deserialize α)
    (absent : Option α) (members : Members) : Option α :=
  match occurrences name members with
  | [] => absent
  | [value] => inner.deserialize value
  | _ :: _ :: _ => none

/-- The fields of a struct, read by key and read by position. -/
structure Fields (α : Type) where
  ofMembers : Members → Option α
  ofItems : List Json → Option (α × List Json)

namespace Fields

def done {α : Type} (value : α) : Fields α where
  ofMembers _ := some value
  ofItems items := some (value, items)

/-- The next field.  `absent` stands in for it in an object that lacks it and
`ended` in an array that stops before it. -/
def next {α β : Type} (fields : Fields (α → β)) (name : String)
    (inner : Deserialize α) (absent ended : Option α) : Fields β where
  ofMembers members := do
    let build ← fields.ofMembers members
    let value ← readField name inner absent members
    return build value
  ofItems items := do
    let (build, rest) ← fields.ofItems items
    match rest with
    | [] => ended.map fun value => (build value, [])
    | item :: rest => (inner.deserialize item).map fun value => (build value, rest)

def field {α β : Type} (fields : Fields (α → β)) (name : String)
    (inner : Deserialize α) : Fields β :=
  fields.next name inner inner.missingField none

def fieldDefault {α β : Type} (fields : Fields (α → β)) (name : String)
    (inner : Deserialize α) (default : α) : Fields β :=
  fields.next name inner (some default) (some default)

end Fields

def struct {α : Type} (fields : Fields α) : Deserialize α where
  deserialize
    | .object members =>
        if members.all fun member => member.1.isSome then fields.ofMembers members
        else none
    | .array items =>
        match fields.ofItems items with
        | some (value, []) => some value
        | _ => none
    | _ => none
  missingField := none

theorem readField_eq_some_iff {α : Type} {name : String} {inner : Deserialize α}
    {absent : Option α} {members : Members} {value : α} :
    readField name inner absent members = some value ↔
      (occurrences name members = [] ∧ absent = some value) ∨
        ∃ item, occurrences name members = [item] ∧
          inner.deserialize item = some value := by
  rw [readField]
  split <;> simp_all

theorem mem_of_occurrences {name : String} {members : Members} {item : Json}
    (h : item ∈ occurrences name members) : (some name, item) ∈ members := by
  simp only [occurrences, List.mem_map, List.mem_filter, beq_iff_eq] at h
  obtain ⟨⟨key, value⟩, ⟨hmem, rfl⟩, rfl⟩ := h
  exact hmem

theorem occurrences_eq_of_readField {α : Type} {name : String} {inner : Deserialize α}
    {absent : Option α} {members : Members} {value : α} {item : Json}
    (hread : readField name inner absent members = some value)
    (hmem : (some name, item) ∈ members) :
    occurrences name members = [item] ∧ inner.deserialize item = some value := by
  have hitem : item ∈ occurrences name members := by
    simp only [occurrences, List.mem_map, List.mem_filter, beq_iff_eq]
    exact ⟨(some name, item), ⟨hmem, rfl⟩, rfl⟩
  rcases readField_eq_some_iff.mp hread with ⟨hnone, -⟩ | ⟨other, honly, hvalue⟩
  · rw [hnone] at hitem
    cases hitem
  · rw [honly, List.mem_singleton] at hitem
    subst hitem
    exact ⟨honly, hvalue⟩

theorem occurrences_of_nodup {name : String} {members : Members} {item : Json}
    (hkeys : (members.map Prod.fst).Nodup) (hmem : (some name, item) ∈ members) :
    occurrences name members = [item] := by
  induction members with
  | nil => simp at hmem
  | cons member rest ih =>
      obtain ⟨key, value⟩ := member
      simp only [List.map_cons, List.nodup_cons, List.mem_map, not_exists, not_and] at hkeys
      obtain ⟨hfresh, hrest⟩ := hkeys
      rcases List.mem_cons.mp hmem with heq | hmem
      · obtain ⟨rfl, rfl⟩ := Prod.mk.inj heq
        have hnone : occurrences name rest = [] := by
          rw [List.eq_nil_iff_forall_not_mem]
          exact fun other hother => hfresh _ (mem_of_occurrences hother) rfl
        rw [occurrences, List.filter_cons_of_pos (by simp)]
        simpa [occurrences] using hnone
      · have hne : key ≠ some name := fun heq => hfresh _ hmem heq.symm
        rw [occurrences, List.filter_cons_of_neg (by simpa using hne)]
        exact ih hrest hmem

theorem readField_of_mem {α : Type} {name : String} {inner : Deserialize α}
    {absent : Option α} {members : Members} {item : Json}
    (hkeys : (members.map Prod.fst).Nodup) (hmem : (some name, item) ∈ members) :
    readField name inner absent members = inner.deserialize item := by
  rw [readField, occurrences_of_nodup hkeys hmem]

theorem Fields.next_ofMembers_iff {α β : Type} {fields : Fields (α → β)}
    {name : String} {inner : Deserialize α} {absent ended : Option α}
    {members : Members} {result : β} :
    (fields.next name inner absent ended).ofMembers members = some result ↔
      ∃ build value, fields.ofMembers members = some build ∧
        readField name inner absent members = some value ∧ build value = result := by
  simp only [Fields.next, Option.bind_eq_bind, Option.bind_eq_some_iff, Option.pure_def,
    Option.some.injEq]
  constructor
  · rintro ⟨build, hbuild, value, hvalue, rfl⟩
    exact ⟨build, value, hbuild, hvalue, rfl⟩
  · rintro ⟨build, value, hbuild, hvalue, rfl⟩
    exact ⟨build, hbuild, value, hvalue, rfl⟩

theorem struct_object_iff {α : Type} {fields : Fields α} {members : Members}
    {value : α} :
    (struct fields).deserialize (.object members) = some value ↔
      (∀ member ∈ members, member.1.isSome) ∧ fields.ofMembers members = some value := by
  have hall : (members.all fun member => member.1.isSome) = true ↔
      ∀ member ∈ members, member.1.isSome := List.all_eq_true
  rw [← hall]
  simp only [struct]
  split
  · rename_i hkeys
    exact ⟨fun h => ⟨hkeys, h⟩, fun h => h.2⟩
  · rename_i hkeys
    exact ⟨fun h => (Option.some_ne_none _ h.symm).elim, fun h => absurd h.1 hkeys⟩

section Readable

variable {α β : Type} {name : String} {inner : Deserialize α} {absent ended : Option α}
  {members : Members}

theorem readField_isSome_iff :
    (readField name inner absent members).isSome ↔
      (occurrences name members = [] ∧ absent.isSome) ∨
        ∃ item, occurrences name members = [item] ∧ (inner.deserialize item).isSome := by
  rw [readField]
  split <;> simp_all

theorem Fields.next_ofMembers_isSome_iff {fields : Fields (α → β)} :
    ((fields.next name inner absent ended).ofMembers members).isSome ↔
      (fields.ofMembers members).isSome ∧ (readField name inner absent members).isSome := by
  simp only [Option.isSome_iff_exists, Fields.next_ofMembers_iff]
  constructor
  · rintro ⟨_, build, value, hbuild, hvalue, rfl⟩
    exact ⟨⟨build, hbuild⟩, value, hvalue⟩
  · rintro ⟨⟨build, hbuild⟩, value, hvalue⟩
    exact ⟨_, build, value, hbuild, hvalue, rfl⟩

theorem struct_object_isSome_iff {fields : Fields α} :
    ((struct fields).deserialize (.object members)).isSome ↔
      (∀ member ∈ members, member.1.isSome) ∧ (fields.ofMembers members).isSome := by
  simp only [Option.isSome_iff_exists, struct_object_iff, exists_and_left]

theorem vec_isSome_iff {items : List Json} :
    ((vec inner).deserialize (.array items)).isSome ↔
      ∀ item ∈ items, (inner.deserialize item).isSome := by
  simp only [vec]
  induction items with
  | nil => simp
  | cons item items ih =>
      rw [List.forall_mem_cons, ← ih, List.mapM_cons]
      cases inner.deserialize item <;> cases items.mapM inner.deserialize <;> simp

/-- The fields are read from the front of the items, and `rest` is left over. -/
def Fields.Leaves (fields : Fields α) (items rest : List Json) : Prop :=
  ∃ value, fields.ofItems items = some (value, rest)

theorem struct_array_isSome_iff {fields : Fields α} {items : List Json} :
    ((struct fields).deserialize (.array items)).isSome ↔ fields.Leaves items [] := by
  simp only [struct, Fields.Leaves]
  split
  · rename_i value hread
    simp [hread]
  · rename_i hread
    simpa using hread

theorem Fields.leaves_done_iff {value : α} {items rest : List Json} :
    (Fields.done value).Leaves items rest ↔ items = rest := by
  simp [Leaves, done]

theorem Fields.leaves_field_iff {fields : Fields (α → β)} {items rest : List Json} :
    (fields.field name inner).Leaves items rest ↔
      ∃ item, (inner.deserialize item).isSome ∧ fields.Leaves items (item :: rest) := by
  simp only [Leaves, field, next, Option.bind_eq_bind, Option.bind_eq_some_iff, Prod.exists]
  constructor
  · rintro ⟨value, build, left, hbuild, h⟩
    cases left with
    | nil => cases h
    | cons item left =>
        obtain ⟨read, hread, heq⟩ := Option.map_eq_some_iff.mp h
        obtain ⟨-, rfl⟩ := Prod.mk.inj heq
        exact ⟨item, Option.isSome_iff_exists.mpr ⟨read, hread⟩, build, hbuild⟩
  · rintro ⟨item, hitem, build, hbuild⟩
    obtain ⟨read, hread⟩ := Option.isSome_iff_exists.mp hitem
    exact ⟨build read, build, item :: rest, hbuild, by simp [hread]⟩

theorem Fields.leaves_fieldDefault_iff {fields : Fields (α → β)} {default : α}
    {items rest : List Json} :
    (fields.fieldDefault name inner default).Leaves items rest ↔
      (rest = [] ∧ fields.Leaves items []) ∨
        ∃ item, (inner.deserialize item).isSome ∧ fields.Leaves items (item :: rest) := by
  simp only [Leaves, fieldDefault, next, Option.bind_eq_bind, Option.bind_eq_some_iff,
    Prod.exists]
  constructor
  · rintro ⟨value, build, left, hbuild, h⟩
    cases left with
    | nil =>
        obtain ⟨-, rfl⟩ := Prod.mk.inj (Option.some.inj h)
        exact Or.inl ⟨rfl, build, hbuild⟩
    | cons item left =>
        obtain ⟨read, hread, heq⟩ := Option.map_eq_some_iff.mp h
        obtain ⟨-, rfl⟩ := Prod.mk.inj heq
        exact Or.inr ⟨item, Option.isSome_iff_exists.mpr ⟨read, hread⟩, build, hbuild⟩
  · rintro (⟨rfl, build, hbuild⟩ | ⟨item, hitem, build, hbuild⟩)
    · exact ⟨build default, build, [], hbuild, rfl⟩
    · obtain ⟨read, hread⟩ := Option.isSome_iff_exists.mp hitem
      exact ⟨build read, build, item :: rest, hbuild, by simp [hread]⟩

end Readable

end Library.Serde
