/-
TOML values as trees, a table in the order of its keys, and the readers of the
values a structure is made of.  A structure is written as a table of its
fields, or as an array of them in their order.
-/
import Shph.Library.Binary64
import Shph.Library.OrderedTable

namespace TomlTree

open OrderedTable

inductive Toml where
  | string (value : String)
  | integer (value : Int)
  | float (value : Binary64)
  | boolean (value : Bool)
  | datetime (text : String)
  | array (items : List Toml)
  | table (members : List (String × Toml))
deriving Repr

namespace Toml

def ofMembers (members : List (String × Toml)) : Toml :=
  .table (OrderedTable.ofEntries members)

def asString : Toml → Option String
  | .string value => some value
  | _ => none

def asBool : Toml → Option Bool
  | .boolean value => some value
  | _ => none

def asTable : Toml → Option (List (String × Toml))
  | .table members => some members
  | _ => none

@[simp] theorem asTable_eq_some_iff {value : Toml}
    {members : List (String × Toml)} :
    asTable value = some members ↔ value = .table members := by
  cases value <;> simp [asTable]

/-- A member of a table. -/
def get (name : String) (value : Toml) : Option Toml :=
  value.asTable.bind (List.lookup name)

end Toml

/-- The fields of a structure.  Only in a table may a field be missing whose
value is optional and has no default. -/
structure Fields where
  inTable : Bool
  get : String → Option Toml

namespace Fields

def required {A : Type} (fields : Fields) (read : Toml → Option A)
    (name : String) : Option A :=
  (fields.get name).bind read

def defaulted {A : Type} (fields : Fields) (read : Toml → Option A)
    (default : A) (name : String) : Option A :=
  match fields.get name with
  | some value => read value
  | none => some default

def optional {A : Type} (fields : Fields) (read : Toml → Option A)
    (name : String) : Option (Option A) :=
  match fields.get name with
  | some value => (read value).map some
  | none => if fields.inTable then some none else none

/-- An optional field whose default is to be missing. -/
def defaultedNone {A : Type} (fields : Fields) (read : Toml → Option A)
    (name : String) : Option (Option A) :=
  fields.defaulted (fun value => (read value).map some) none name

end Fields

/-- The fields of a structure of these names, unknown ones are ignored. -/
def structOf (names : List String) : Toml → Option Fields
  | .table members => some ⟨true, fun name => members.lookup name⟩
  | .array items =>
      if items.length ≤ names.length then
        some ⟨false, fun name => items[names.idxOf name]?⟩
      else none
  | _ => none

/-- The fields of a structure that refuses unknown ones. -/
def strictStructOf (names : List String) : Toml → Option Fields
  | .table members =>
      if ∀ name ∈ members.map Prod.fst, name ∈ names then
        structOf names (.table members)
      else none
  | value => structOf names value

/-- The tag of a variant, and what is left for its fields. -/
def tagged (tag : String) : Toml → Option (String × Toml)
  | .table members => do
      let name ← (← members.lookup tag).asString
      return (name, .table (erase tag members))
  | .array (name :: rest) => do
      let name ← name.asString
      return (name, .array rest)
  | _ => none

def readUnsigned (limit : Nat) : Toml → Option Nat
  | .integer value =>
      if 0 ≤ value ∧ value < limit then some value.toNat else none
  | _ => none

def readUInt32 (value : Toml) : Option UInt32 :=
  (readUnsigned (2 ^ 32) value).map UInt32.ofNat

def readUInt64 (value : Toml) : Option UInt64 :=
  (readUnsigned (2 ^ 64) value).map UInt64.ofNat

def readList {A : Type} (read : Toml → Option A) : Toml → Option (List A)
  | .array items => items.mapM read
  | _ => none

/-- A variant without data, by its name or as a table of one empty member. -/
def readVariant {A : Type} (variants : List (String × A)) : Toml → Option A
  | .string name => variants.lookup name
  | .table [(name, .table [])] => variants.lookup name
  | .table [(name, .array [])] => variants.lookup name
  | _ => none

section Written

variable {A : Type} {read : Toml → Option A} {write : A → Toml}

/-- The reader finds every value that was written. -/
def Rereads (read : Toml → Option A) (write : A → Toml) : Prop :=
  ∀ value, read (write value) = some value

theorem readUInt32_integer :
    Rereads readUInt32 fun value => .integer value.toNat := by
  intro value
  have hlimit : (0 : Int) ≤ value.toNat ∧
      (value.toNat : Int) < (2 ^ 32 : Nat) :=
    ⟨Int.natCast_nonneg _, Int.ofNat_lt.mpr value.toNat_lt⟩
  rw [readUInt32, readUnsigned, if_pos hlimit, Int.toNat_natCast,
    Option.map_some, UInt32.ofNat_toNat]

theorem readUInt64_integer :
    Rereads readUInt64 fun value => .integer value.toNat := by
  intro value
  have hlimit : (0 : Int) ≤ value.toNat ∧
      (value.toNat : Int) < (2 ^ 64 : Nat) :=
    ⟨Int.natCast_nonneg _, Int.ofNat_lt.mpr value.toNat_lt⟩
  rw [readUInt64, readUnsigned, if_pos hlimit, Int.toNat_natCast,
    Option.map_some, UInt64.ofNat_toNat]

theorem readList_array (hread : Rereads read write) :
    Rereads (readList read) fun values => .array (values.map write) := by
  intro values
  rw [readList]
  induction values with
  | nil => rfl
  | cons value rest ih =>
      rw [List.map_cons, List.mapM_cons, hread, ih]
      rfl

end Written

section Structures

/-- The table a structure is written as. -/
def tableOf (members : List (String × Option Toml)) : Toml :=
  .ofMembers (membersOf members)

variable {names : List String} {members : List (String × Option Toml)}
  {A : Type} {read : Toml → Option A} {write : A → Toml} {fields : Fields}
  {name : String}

/-- A written structure has every field as it was written. -/
theorem strictStructOf_tableOf (hnames : members.map Prod.fst = names)
    (hnodup : names.Nodup) :
    ∃ fields, strictStructOf names (tableOf members) = some fields ∧
      fields.inTable = true ∧
      ∀ member ∈ members, fields.get member.1 = member.2 := by
  have hkeys : (members.map Prod.fst).Nodup := by rw [hnames]; exact hnodup
  refine ⟨⟨true, fun name => (ofEntries (membersOf members)).lookup name⟩,
    ?_, rfl, forall_lookup_membersOf hkeys⟩
  have hknown : ∀ name ∈ (ofEntries (membersOf members)).map Prod.fst,
      name ∈ names := by
    intro name hname
    rw [mem_keys_ofEntries] at hname
    exact hnames ▸ keys_membersOf.subset hname
  exact if_pos hknown

theorem structOf_tableOf (hnames : members.map Prod.fst = names)
    (hnodup : names.Nodup) :
    ∃ fields, structOf names (tableOf members) = some fields ∧
      fields.inTable = true ∧
      ∀ member ∈ members, fields.get member.1 = member.2 :=
  ⟨_, rfl, rfl, forall_lookup_membersOf (by rw [hnames]; exact hnodup)⟩

/-- A written variant has its tag, and its fields beside it. -/
theorem tagged_tableOf {tag variant : String}
    (hnames : members.map Prod.fst = names)
    (hnodup : (tag :: names).Nodup) :
    ∃ rest fields,
      tagged tag (tableOf ((tag, some (.string variant)) :: members)) =
        some (variant, rest) ∧
      structOf names rest = some fields ∧ fields.inTable = true ∧
      ∀ member ∈ members, fields.get member.1 = member.2 := by
  rw [← hnames] at hnodup
  have hkeys := @forall_lookup_membersOf _ _ _
    ((tag, some (.string variant)) :: members) hnodup
  rw [List.forall_mem_cons] at hkeys
  rw [List.nodup_cons] at hnodup
  refine ⟨.table (erase tag (ofEntries (membersOf
    ((tag, some (.string variant)) :: members)))), ⟨true, _⟩, ?_, rfl, rfl,
    ?_⟩
  · simp only [tagged, tableOf, Toml.ofMembers, hkeys.1, Toml.asString, bind,
      Option.bind, pure]
  · intro member hmember
    have hother : member.1 ≠ tag := by
      rintro hsame
      exact hnodup.1 (hsame ▸ List.mem_map_of_mem hmember)
    rw [← hkeys.2 member hmember]
    exact (lookup_erase _ _ _).trans (if_neg hother)

theorem required_written {value : A}
    (hget : fields.get name = some (write value))
    (hread : Rereads read write) :
    fields.required read name = some value := by
  rw [Fields.required, hget, Option.bind_some, hread]

theorem defaulted_written {value default : A}
    (hget : fields.get name = some (write value))
    (hread : Rereads read write) :
    fields.defaulted read default name = some value := by
  rw [Fields.defaulted, hget]
  exact hread value

theorem optional_written {value : Option A} (htable : fields.inTable = true)
    (hget : fields.get name = value.map write)
    (hread : Rereads read write) :
    fields.optional read name = some value := by
  rw [Fields.optional, hget]
  cases value with
  | none => exact if_pos htable
  | some value => exact congrArg (Option.map some) (hread value)

theorem defaultedNone_written {value : Option A}
    (hget : fields.get name = value.map write)
    (hread : Rereads read write) :
    fields.defaultedNone read name = some value := by
  rw [Fields.defaultedNone, Fields.defaulted, hget]
  cases value with
  | none => rfl
  | some value => exact congrArg (Option.map some) (hread value)

end Structures

end TomlTree
