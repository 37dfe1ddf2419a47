import Chronon.Collections.OrderedMap
import Chronon.Core.Value
import Mathlib.Data.String.Basic

/-!
# What `serde` derives for a struct

`Serialize` and `Deserialize` of a struct with named fields, to and from a
`serde_json::Value`. Serializing puts the fields into a map one after the other.
Deserializing visits the entries of an object in the order of the map, skips those
that are no fields, and then takes the fields in their order; an array is read by
position. The code of the field types is a parameter, with `missing` for a field
that is not there (`None` for an `Option`, and otherwise an error).

`Reads` says what deserializing an object comes to, field by field.
-/

namespace Chronon.Macros
set_option autoImplicit false

open Collections

/-- The types of the fields, their values and their code. -/
structure Serde (T : Type) where
  Val : T → Type
  serialize : (ty : T) → Val ty → Except String Json
  deserialize : (ty : T) → Json → Except String (Val ty)
  missing : (ty : T) → String → Except String (Val ty)
  invalidType : Json → String → String
  invalidLength : Nat → String → String

namespace Serde

variable {T : Type} (serde : Serde T)

/-- A value with its type. -/
abbrev Value : Type := (ty : T) × serde.Val ty

/-- Deserialize a value of type `ty`. -/
def value (ty : T) (json : Json) : Except String serde.Value := (serde.deserialize ty json).map fun v => ⟨ty, v⟩

def missingValue (ty : T) (name : String) : Except String serde.Value := (serde.missing ty name).map fun v => ⟨ty, v⟩

/-! ## Serializing -/

/-- `SerializeStruct::serialize_field`, for each field. -/
def serializeFields (map : OrderedMap String Json) : List (String × serde.Value) → Except String (OrderedMap String Json)
  | [] => .ok map
  | (name, v) :: rest => do
    let json ← serde.serialize v.1 v.2
    serializeFields (map.insert name json) rest

/-- `serde_json::to_value` of a struct. -/
def serializeStruct (fields : List (String × serde.Value)) : Except String Json :=
  (serde.serializeFields .empty fields).map fun map => .obj map.entries

/-! ## Deserializing -/

/-- The value read for each field so far. -/
abbrev Slots : Type := List (Option serde.Value)

/-- An entry of the object: it fills the slot of its field, or is skipped. -/
def visitEntry (key : String) (json : Json) : List (String × T) → serde.Slots → Except String serde.Slots
  | (name, ty) :: fields, slot :: slots =>
    if name = key then
      if slot.isSome then .error ("duplicate field `" ++ name ++ "`")
      else do
        let v ← serde.value ty json
        .ok (some v :: slots)
    else do
      let slots ← visitEntry key json fields slots
      .ok (slot :: slots)
  | _, slots => .ok slots

/-- The struct, from its slots. -/
def fromSlots : List (String × T) → serde.Slots → Except String (List (String × serde.Value))
  | (name, ty) :: fields, slot :: slots => do
    let v ← (match slot with
      | some v => .ok v
      | none => serde.missingValue ty name)
    let rest ← fromSlots fields slots
    .ok ((name, v) :: rest)
  | _, _ => .ok []

/-- `Visitor::visit_map`. -/
def visitMap (fields : List (String × T)) (entries : List (String × Json)) : Except String (List (String × serde.Value)) := do
  let slots ← entries.foldlM (fun slots e => serde.visitEntry e.1 e.2 fields slots) (fields.map fun _ => none)
  serde.fromSlots fields slots

/-- `Visitor::visit_seq`, with the number of fields that have been read. -/
def visitSeq (expecting : String) (seen : Nat) : List (String × T) → List Json → Except String (List (String × serde.Value))
  | [], [] => .ok []
  | [], more => .error (serde.invalidLength (seen + more.length) "fewer elements in array")
  | _ :: _, [] => .error (serde.invalidLength seen expecting)
  | (name, ty) :: fields, json :: items => do
    let v ← serde.value ty json
    let rest ← visitSeq expecting (seen + 1) fields items
    .ok ((name, v) :: rest)

/-- What `visit_seq` expects. -/
def expectingSeq (name : String) (n : Nat) : String :=
  "struct " ++ name ++ " with " ++ (if n = 1 then "1 element" else toString n ++ " elements")

/-- `serde_json::from_value` of a struct. -/
def deserializeStruct (name : String) (fields : List (String × T)) : Json → Except String (List (String × serde.Value))
  | .obj entries => serde.visitMap fields entries
  | .arr items => serde.visitSeq (expectingSeq name fields.length) 0 fields items
  | json => .error (serde.invalidType json ("struct " ++ name))

/-- `serde_json::from_value` of a unit struct. -/
def deserializeUnit (name : String) : Json → Except String Unit
  | .null => .ok ()
  | json => .error (serde.invalidType json ("unit struct " ++ name))

/-! ## What is read -/

/-- A field is read from the entry of its name. -/
def ReadsField (entries : List (String × Json)) (name : String) (ty : T) (v : serde.Value) : Prop :=
  match entries.lookup name with
  | some json => serde.value ty json = .ok v
  | none => serde.missingValue ty name = .ok v

/-- The struct is read from these entries, field by field. -/
def Reads (entries : List (String × Json)) (fields : List (String × T)) (values : List (String × serde.Value)) : Prop :=
  List.Forall₂ (fun field v => v.1 = field.1 ∧ serde.ReadsField entries field.1 field.2 v.2) fields values

/-- What an entry does to the slot of one field. -/
def visitField (name : String) (ty : T) (key : String) (json : Json) (slot : Option serde.Value) :
    Except String (Option serde.Value) :=
  if name = key then
    if slot.isSome then .error ("duplicate field `" ++ name ++ "`")
    else (serde.value ty json).map some
  else .ok slot

variable {serde} {ε α β : Type} {name : String} {ty : T} {fields : List (String × T)} {entries : List (String × Json)}

theorem bind_ok {x : Except ε α} {f : α → Except ε β} {b : β} : (x >>= f) = .ok b ↔ ∃ a, x = .ok a ∧ f a = .ok b := by
  cases x with
  | error e => exact ⟨nofun, nofun⟩
  | ok a => exact ⟨fun same => ⟨a, rfl, same⟩, fun ⟨_, isOk, same⟩ => by cases isOk; exact same⟩

theorem map_ok {x : Except ε α} {f : α → β} {b : β} : x.map f = .ok b ↔ ∃ a, x = .ok a ∧ f a = b := by
  cases x with
  | error e => exact ⟨nofun, nofun⟩
  | ok a => exact ⟨fun same => ⟨a, rfl, Except.ok.inj same⟩, fun ⟨_, isOk, same⟩ => by cases isOk; exact congrArg _ same⟩

/-- An entry that is no field is skipped. -/
theorem visitEntry_skip {key : String} {json : Json} (unknown : key ∉ fields.map Prod.fst) (slots : serde.Slots) :
    serde.visitEntry key json fields slots = .ok slots := by
  induction fields generalizing slots with
  | nil => rfl
  | cons field fields ih =>
    rw [List.map_cons, List.mem_cons, not_or] at unknown
    cases slots with
    | nil => rfl
    | cons slot slots =>
      rw [visitEntry, if_neg (Ne.symm unknown.1), ih unknown.2]
      rfl

/-- An entry acts on the first slot and on the others apart. -/
theorem visitEntry_cons {key : String} {json : Json} (fresh : name ∉ fields.map Prod.fst) {slot : Option serde.Value}
    {slots all : serde.Slots} :
    serde.visitEntry key json ((name, ty) :: fields) (slot :: slots) = .ok all ↔
      ∃ slot' slots', all = slot' :: slots' ∧ serde.visitField name ty key json slot = .ok slot' ∧
        serde.visitEntry key json fields slots = .ok slots' := by
  rw [visitEntry, visitField]
  split
  · rename_i same
    subst same
    rw [visitEntry_skip fresh]
    split
    · exact ⟨nofun, nofun⟩
    · rw [bind_ok]
      constructor
      · rintro ⟨v, isValue, isAll⟩
        cases isAll
        exact ⟨_, _, rfl, map_ok.mpr ⟨v, isValue, rfl⟩, rfl⟩
      · rintro ⟨slot', slots', rfl, isSlot, isSlots⟩
        obtain ⟨v, isValue, rfl⟩ := map_ok.mp isSlot
        cases isSlots
        exact ⟨v, isValue, rfl⟩
  · rw [bind_ok]
    constructor
    · rintro ⟨slots', isSlots, isAll⟩
      cases isAll
      exact ⟨_, _, rfl, rfl, isSlots⟩
    · rintro ⟨slot', slots', rfl, isSlot, isSlots⟩
      cases isSlot
      exact ⟨slots', isSlots, rfl⟩

/-- So do all of them. -/
theorem visitEntries_cons (fresh : name ∉ fields.map Prod.fst) {slot : Option serde.Value} {slots all : serde.Slots} :
    entries.foldlM (fun slots e => serde.visitEntry e.1 e.2 ((name, ty) :: fields) slots) (slot :: slots) = .ok all ↔
      ∃ slot' slots', all = slot' :: slots' ∧
        entries.foldlM (fun slot e => serde.visitField name ty e.1 e.2 slot) slot = .ok slot' ∧
        entries.foldlM (fun slots e => serde.visitEntry e.1 e.2 fields slots) slots = .ok slots' := by
  induction entries generalizing slot slots with
  | nil =>
    simp only [List.foldlM_nil]
    constructor
    · intro isAll
      cases isAll
      exact ⟨_, _, rfl, rfl, rfl⟩
    · rintro ⟨slot', slots', rfl, isSlot, isSlots⟩
      cases isSlot
      cases isSlots
      rfl
  | cons e entries ih =>
    simp only [List.foldlM_cons]
    constructor
    · intro folds
      obtain ⟨next, first, rest⟩ := bind_ok.mp folds
      obtain ⟨slot₁, slots₁, rfl, isSlot, isSlots⟩ := (visitEntry_cons fresh).mp first
      obtain ⟨slot', slots', rfl, isSlot', isSlots'⟩ := ih.mp rest
      exact ⟨slot', slots', rfl, bind_ok.mpr ⟨_, isSlot, isSlot'⟩, bind_ok.mpr ⟨_, isSlots, isSlots'⟩⟩
    · rintro ⟨slot', slots', rfl, foldsSlot, foldsSlots⟩
      obtain ⟨slot₁, isSlot, isSlot'⟩ := bind_ok.mp foldsSlot
      obtain ⟨slots₁, isSlots, isSlots'⟩ := bind_ok.mp foldsSlots
      exact bind_ok.mpr ⟨_, (visitEntry_cons fresh).mpr ⟨_, _, rfl, isSlot, isSlots⟩, ih.mpr ⟨_, _, rfl, isSlot', isSlots'⟩⟩

theorem visitField_own {json : Json} : serde.visitField name ty name json none = (serde.value ty json).map some :=
  if_pos rfl

theorem visitField_other {key : String} (other : name ≠ key) {json : Json} {slot : Option serde.Value} :
    serde.visitField name ty key json slot = .ok slot := if_neg other

/-- A slot that no entry is for stays as it is. -/
theorem visitField_absent (absent : name ∉ entries.map Prod.fst) (slot : Option serde.Value) :
    entries.foldlM (fun slot e => serde.visitField name ty e.1 e.2 slot) slot = .ok slot := by
  induction entries with
  | nil => rfl
  | cons e entries ih =>
    rw [List.map_cons, List.mem_cons, not_or] at absent
    rw [List.foldlM_cons, visitField_other absent.1]
    exact ih absent.2

/-- With distinct keys, the slot of a field is filled from the entry of its name. -/
theorem visitField_ok (distinct : (entries.map Prod.fst).Nodup) {slot : Option serde.Value} :
    entries.foldlM (fun slot e => serde.visitField name ty e.1 e.2 slot) none = .ok slot ↔
      (∃ json v, entries.lookup name = some json ∧ serde.value ty json = .ok v ∧ slot = some v) ∨
        (entries.lookup name = none ∧ slot = none) := by
  induction entries with
  | nil =>
    rw [List.foldlM_nil, List.lookup_nil]
    constructor
    · intro same
      cases same
      exact .inr ⟨rfl, rfl⟩
    · rintro (⟨_, _, isSome, -⟩ | ⟨-, rfl⟩)
      · cases isSome
      · rfl
  | cons e entries ih =>
    rw [List.map_cons, List.nodup_cons] at distinct
    rw [List.foldlM_cons, bind_ok, List.lookup_cons]
    by_cases same : name = e.1
    · subst same
      rw [visitField_own, beq_self_eq_true]
      constructor
      · rintro ⟨first, isFirst, rest⟩
        obtain ⟨v, isValue, rfl⟩ := map_ok.mp isFirst
        rw [visitField_absent distinct.1] at rest
        exact .inl ⟨e.2, v, rfl, isValue, (Except.ok.inj rest).symm⟩
      · rintro (⟨json, v, isSome, isValue, rfl⟩ | ⟨isNone, -⟩)
        · cases isSome
          exact ⟨some v, map_ok.mpr ⟨v, isValue, rfl⟩, visitField_absent distinct.1 _⟩
        · cases isNone
    · have other : (name == e.1) = false := beq_eq_false_iff_ne.mpr same
      rw [other, visitField_other same]
      constructor
      · rintro ⟨first, isFirst, rest⟩
        cases isFirst
        exact (ih distinct.2).mp rest
      · exact fun either => ⟨none, rfl, (ih distinct.2).mpr either⟩

/-- The struct from the slots of its first field and of the others. -/
theorem fromSlots_cons {slot : Option serde.Value} {slots : serde.Slots} {values : List (String × serde.Value)} :
    serde.fromSlots ((name, ty) :: fields) (slot :: slots) = .ok values ↔
      ∃ v rest, values = (name, v) :: rest ∧ (slot = some v ∨ (slot = none ∧ serde.missingValue ty name = .ok v)) ∧
        serde.fromSlots fields slots = .ok rest := by
  simp only [fromSlots, bind_ok]
  constructor
  · rintro ⟨v, isValue, rest, isRest, isValues⟩
    cases isValues
    refine ⟨v, rest, rfl, ?_, isRest⟩
    cases slot with
    | none => exact .inr ⟨rfl, isValue⟩
    | some u =>
      cases isValue
      exact .inl rfl
  · rintro ⟨v, rest, rfl, either, isRest⟩
    refine ⟨v, ?_, rest, isRest, rfl⟩
    rcases either with rfl | ⟨rfl, isMissing⟩
    · rfl
    · exact isMissing

/-- **Deserializing an object reads each field by its name**: whatever the order of the entries and whichever others there
are, it succeeds with `values` exactly when each field is read so. -/
theorem visitMap_ok (names : (fields.map Prod.fst).Nodup) (distinct : (entries.map Prod.fst).Nodup)
    {values : List (String × serde.Value)} : serde.visitMap fields entries = .ok values ↔ serde.Reads entries fields values := by
  induction fields generalizing values with
  | nil =>
    have folds : entries.foldlM (fun slots e => serde.visitEntry e.1 e.2 ([] : List (String × T)) slots) [] = .ok [] := by
      clear distinct
      induction entries with
      | nil => rfl
      | cons e entries ih => exact ih
    rw [visitMap, List.map_nil, folds, Reads, List.forall₂_nil_left_iff]
    exact ⟨fun same => (Except.ok.inj same).symm, fun same => by rw [same]; rfl⟩
  | cons field fields ih =>
    obtain ⟨name, ty⟩ := field
    rw [List.map_cons, List.nodup_cons] at names
    have others {rest : List (String × serde.Value)} : serde.Reads entries fields rest ↔
        ∃ slots, entries.foldlM (fun slots e => serde.visitEntry e.1 e.2 fields slots) (fields.map fun _ => none) = .ok slots ∧
          serde.fromSlots fields slots = .ok rest := by
      rw [← ih names.2, visitMap, bind_ok]
    rw [visitMap, bind_ok, List.map_cons]
    constructor
    · rintro ⟨all, folds, isStruct⟩
      obtain ⟨slot, slots, rfl, isSlot, isSlots⟩ := (visitEntries_cons names.1).mp folds
      obtain ⟨v, rest, rfl, isValue, isRest⟩ := fromSlots_cons.mp isStruct
      refine .cons ⟨rfl, ?_⟩ (others.mpr ⟨slots, isSlots, isRest⟩)
      rcases (visitField_ok distinct).mp isSlot with ⟨json, u, found, reads, rfl⟩ | ⟨absent, rfl⟩
      · rcases isValue with same | ⟨isNone, -⟩
        · cases same
          rw [ReadsField, found]
          exact reads
        · cases isNone
      · rcases isValue with isSome | ⟨-, isMissing⟩
        · cases isSome
        · rw [ReadsField, absent]
          exact isMissing
    · intro reads
      obtain ⟨v, rest, ⟨isName, readsField⟩, readsRest, rfl⟩ := List.forall₂_cons_left_iff.mp reads
      obtain ⟨slots, isSlots, isRest⟩ := others.mp readsRest
      obtain ⟨name', v⟩ := v
      subst isName
      cases found : entries.lookup name' with
      | some json =>
        rw [ReadsField, found] at readsField
        exact ⟨_, (visitEntries_cons names.1).mpr ⟨some v, slots, rfl, (visitField_ok distinct).mpr
          (.inl ⟨json, v, found, readsField, rfl⟩), isSlots⟩, fromSlots_cons.mpr ⟨v, rest, rfl, .inl rfl, isRest⟩⟩
      | none =>
        rw [ReadsField, found] at readsField
        exact ⟨_, (visitEntries_cons names.1).mpr ⟨none, slots, rfl, (visitField_ok distinct).mpr
          (.inr ⟨found, rfl⟩), isSlots⟩, fromSlots_cons.mpr ⟨v, rest, rfl, .inr ⟨rfl, readsField⟩, isRest⟩⟩

/-! ## Round trips -/

/-- The names and types of the fields of a struct. -/
def fieldsOf (values : List (String × serde.Value)) : List (String × T) := values.map fun v => (v.1, v.2.1)

/-- What is serialized at a type is read back. -/
def RoundTrips (serde : Serde T) (ty : T) : Prop := ∀ v json, serde.serialize ty v = .ok json → serde.deserialize ty json = .ok v

/-- The entries that the fields are serialized to. -/
def Writes (values : List (String × serde.Value)) (entries : List (String × Json)) : Prop :=
  List.Forall₂ (fun v e => e.1 = v.1 ∧ serde.serialize v.2.1 v.2.2 = .ok e.2) values entries

theorem fieldsOf_names (values : List (String × serde.Value)) : (fieldsOf values).map Prod.fst = values.map Prod.fst := by
  rw [fieldsOf, List.map_map]
  rfl

theorem Writes.names {values : List (String × serde.Value)} (writes : Writes values entries) :
    entries.map Prod.fst = values.map Prod.fst := by
  induction writes with
  | nil => rfl
  | cons first _ ih => rw [List.map_cons, List.map_cons, first.1, ih]

/-- Each field is inserted in turn. -/
theorem serializeFields_ok {values : List (String × serde.Value)} {map map' : OrderedMap String Json} :
    serde.serializeFields map values = .ok map' ↔
      ∃ entries, Writes values entries ∧ map' = entries.foldl (fun m e => m.insert e.1 e.2) map := by
  induction values generalizing map with
  | nil =>
    rw [serializeFields]
    constructor
    · intro same
      cases same
      exact ⟨[], .nil, rfl⟩
    · rintro ⟨entries, writes, rfl⟩
      cases writes
      rfl
  | cons v values ih =>
    obtain ⟨name, v⟩ := v
    rw [serializeFields, bind_ok]
    constructor
    · rintro ⟨json, isJson, isMap⟩
      obtain ⟨entries, writes, rfl⟩ := ih.mp isMap
      exact ⟨(name, json) :: entries, .cons ⟨rfl, isJson⟩ writes, rfl⟩
    · rintro ⟨entries, writes, rfl⟩
      obtain ⟨e, rest, ⟨isName, isJson⟩, writesRest, rfl⟩ := List.forall₂_cons_left_iff.mp writes
      obtain ⟨name', json⟩ := e
      subst isName
      exact ⟨json, isJson, ih.mpr ⟨rest, writesRest, rfl⟩⟩

theorem lookup_of_mem {entries : List (String × α)} {e : String × α} (distinct : (entries.map Prod.fst).Nodup)
    (inside : e ∈ entries) : entries.lookup e.1 = some e.2 := by
  induction entries with
  | nil => cases inside
  | cons first entries ih =>
    rw [List.map_cons, List.nodup_cons] at distinct
    rw [List.lookup_cons]
    rcases List.mem_cons.mp inside with rfl | later
    · rw [beq_self_eq_true]
    · have other : (e.1 == first.1) = false :=
        beq_eq_false_iff_ne.mpr fun same => distinct.1 (same ▸ List.mem_map_of_mem later)
      rw [other]
      exact ih distinct.2 later

/-- Fields are read back from whichever entries contain theirs. -/
theorem Writes.reads {values : List (String × serde.Value)} {all : List (String × Json)} (writes : Writes values entries)
    (distinct : (all.map Prod.fst).Nodup) (contained : entries ⊆ all)
    (roundTrip : ∀ field ∈ fieldsOf values, RoundTrips serde field.2) : serde.Reads all (fieldsOf values) values := by
  induction writes with
  | nil => exact .nil
  | @cons v e values entries first writes ih =>
    refine .cons ⟨rfl, ?_⟩ (ih (fun e inside => contained (List.mem_cons_of_mem _ inside))
      fun field inside => roundTrip field (List.mem_cons_of_mem _ inside))
    have found : all.lookup v.1 = some e.2 := by
      rw [← first.1]
      exact lookup_of_mem distinct (contained List.mem_cons_self)
    rw [ReadsField, found]
    exact map_ok.mpr ⟨v.2.2, roundTrip (v.1, v.2.1) List.mem_cons_self _ _ first.2, rfl⟩

/-- **A struct is read back as it was written.** -/
theorem deserialize_serialize (name : String) {values : List (String × serde.Value)} {json : Json}
    (names : (values.map Prod.fst).Nodup) (roundTrip : ∀ field ∈ fieldsOf values, RoundTrips serde field.2)
    (written : serde.serializeStruct values = .ok json) : serde.deserializeStruct name (fieldsOf values) json = .ok values := by
  obtain ⟨map, isMap, rfl⟩ := map_ok.mp written
  obtain ⟨entries, writes, rfl⟩ := serializeFields_ok.mp isMap
  have distinct : (entries.map Prod.fst).Nodup := by rwa [writes.names]
  have contained : entries ⊆ (OrderedMap.ofList entries).entries :=
    fun e inside => (OrderedMap.mem_ofList distinct).mpr inside
  rw [deserializeStruct, visitMap_ok (by rwa [fieldsOf_names]) (OrderedMap.keys_nodup _)]
  exact writes.reads (OrderedMap.keys_nodup _) contained roundTrip

end Serde

end Chronon.Macros
