import Mathlib.Data.String.Basic

/-! # Dictionaries and JSON values

A dictionary is the list of its entries in insertion order, as Python keeps it.
JSON values are what `json.loads` gives; a number is kept as its numeral.
-/

namespace JobAgg

variable {Value : Type}

def lookup (key : String) (entries : List (String × Value)) : Option Value :=
  (entries.find? (·.1 == key)).map Prod.snd

/-- `entries[key] = value`: a present key keeps its place. -/
def assign (key : String) (value : Value) (entries : List (String × Value)) :
    List (String × Value) :=
  if entries.any (·.1 == key) then
    entries.map fun entry => if entry.1 == key then (key, value) else entry
  else entries ++ [(key, value)]

/-- `entries.pop(key, None)`. -/
def remove (key : String) (entries : List (String × Value)) : List (String × Value) :=
  entries.filter (·.1 != key)

@[simp] theorem lookup_nil {key : String} : lookup key ([] : List (String × Value)) = none := rfl

theorem lookup_cons {key : String} {entry : String × Value} {entries : List (String × Value)} :
    lookup key (entry :: entries) = if entry.1 = key then some entry.2 else lookup key entries := by
  by_cases same : entry.1 = key <;> simp [lookup, same]

theorem lookup_append {key : String} {entries later : List (String × Value)} :
    lookup key (entries ++ later) = (lookup key entries).or (lookup key later) := by
  induction entries with
  | nil => simp
  | cons entry entries induction =>
    rw [List.cons_append, lookup_cons, lookup_cons, induction]
    split <;> simp

theorem lookup_isSome {key : String} {entries : List (String × Value)} :
    (lookup key entries).isSome = entries.any (·.1 == key) := by
  induction entries with
  | nil => rfl
  | cons entry entries induction =>
    rw [lookup_cons, List.any_cons, ← induction]
    by_cases same : entry.1 = key <;> simp [same]

theorem lookup_assign_self {key : String} {value : Value} {entries : List (String × Value)} :
    lookup key (assign key value entries) = some value := by
  unfold assign
  split
  · rename_i present
    induction entries with
    | nil => simp at present
    | cons entry entries induction =>
      rw [List.map_cons, lookup_cons]
      by_cases same : entry.1 = key
      · simp [same]
      · have inRest : entries.any (·.1 == key) = true := by simpa [same] using present
        simpa [same] using induction inRest
  · rename_i absent
    have missing : lookup key entries = none := by
      rw [← Option.not_isSome_iff_eq_none, lookup_isSome]
      exact absent
    rw [lookup_append, missing, lookup_cons]
    simp

theorem lookup_assign_of_ne {key other : String} {value : Value}
    {entries : List (String × Value)} (different : other ≠ key) :
    lookup other (assign key value entries) = lookup other entries := by
  unfold assign
  split
  · clear * - different
    induction entries with
    | nil => rfl
    | cons entry entries induction =>
      rw [List.map_cons, lookup_cons, lookup_cons, induction]
      by_cases same : entry.1 = key
      · simp [same, different.symm]
      · simp [same]
  · rw [lookup_append, lookup_cons]
    simp [different.symm]

theorem assign_of_lookup_none {key : String} {value : Value} {entries : List (String × Value)}
    (absent : lookup key entries = none) : assign key value entries = entries ++ [(key, value)] := by
  have missing : entries.any (·.1 == key) = false := by
    rw [← lookup_isSome, absent]
    rfl
  simp [assign, missing]

theorem nodup_keys_assign {key : String} {value : Value} {entries : List (String × Value)}
    (distinct : (entries.map Prod.fst).Nodup) : ((assign key value entries).map Prod.fst).Nodup := by
  unfold assign
  split
  · have same : (entries.map fun entry => if entry.1 == key then (key, value) else entry).map
        Prod.fst = entries.map Prod.fst := by
      rw [List.map_map]
      apply List.map_congr_left
      intro entry _
      by_cases equal : entry.1 = key <;> simp [equal]
    rw [same]
    exact distinct
  · rename_i absent
    rw [List.map_append, List.nodup_append]
    refine ⟨distinct, by simp, ?_⟩
    intro name old other added equal
    rcases List.mem_map.mp old with ⟨entry, member, rfl⟩
    apply absent
    rw [List.any_eq_true]
    refine ⟨entry, member, ?_⟩
    simpa [equal] using List.mem_singleton.mp added

theorem mem_assign {key : String} {value : Value} {entries : List (String × Value)}
    {entry : String × Value} (member : entry ∈ assign key value entries) :
    entry = (key, value) ∨ entry ∈ entries := by
  unfold assign at member
  split at member
  · rcases List.mem_map.mp member with ⟨old, present, changed⟩
    by_cases same : old.1 = key
    · left
      simpa [same] using changed.symm
    · right
      have kept : old = entry := by simpa [same] using changed
      exact kept ▸ present
  · rcases List.mem_append.mp member with old | added
    · exact .inr old
    · exact .inl (List.mem_singleton.mp added)

theorem lookup_eq_some_of_mem {key : String} {value : Value} {entries : List (String × Value)}
    (distinct : (entries.map Prod.fst).Nodup) (member : (key, value) ∈ entries) :
    lookup key entries = some value := by
  induction entries with
  | nil => simp at member
  | cons entry entries induction =>
    rcases List.nodup_cons.mp distinct with ⟨notLater, rest⟩
    rw [lookup_cons]
    rcases List.mem_cons.mp member with rfl | later
    · simp
    · have different : entry.1 ≠ key := by
        intro equal
        exact notLater (equal ▸ List.mem_map_of_mem later)
      rw [if_neg different]
      exact induction rest later

theorem mem_of_lookup_eq_some {key : String} {value : Value} {entries : List (String × Value)}
    (found : lookup key entries = some value) : (key, value) ∈ entries := by
  unfold lookup at found
  rcases Option.map_eq_some_iff.mp found with ⟨entry, first, rfl⟩
  have same : entry.1 = key := by simpa using List.find?_some first
  exact same ▸ List.mem_of_find?_eq_some first

/-- Every entry of the first dictionary is one of the second. -/
def Includes (entries later : List (String × Value)) : Prop :=
  ∀ key value, lookup key entries = some value → lookup key later = some value

theorem Includes.refl {entries : List (String × Value)} : Includes entries entries :=
  fun _ _ found => found

theorem Includes.trans {entries middle later : List (String × Value)}
    (first : Includes entries middle) (second : Includes middle later) : Includes entries later :=
  fun key value found => second key value (first key value found)

theorem includes_append {entries later : List (String × Value)} :
    Includes entries (entries ++ later) := by
  intro key value found
  rw [lookup_append, found]
  rfl

inductive Json
  | null
  | bool (value : Bool)
  | number (numeral : String)
  | string (text : String)
  | array (items : List Json)
  | object (fields : List (String × Json))

namespace Json

/-- `bool(value)`. -/
def truthy : Json → Bool
  | null => false
  | bool value => value
  | number numeral => numeral != "0" && numeral != "0.0" && numeral != "-0.0"
  | string text => text != ""
  | array items => !items.isEmpty
  | object fields => !fields.isEmpty

/-- `value.get(key)` of a dictionary; `null` for a missing key. -/
def get (key : String) (fields : List (String × Json)) : Json := (lookup key fields).getD null

/-- `isinstance(value, dict)`. -/
def asObject : Json → Option (List (String × Json))
  | object fields => some fields
  | _ => none

def asString : Json → Option String
  | string text => some text
  | _ => none

def isTrue : Json → Bool
  | bool value => value
  | _ => false

/-- `str(value)`; a list or a dictionary has none here. -/
def asText : Json → Option String
  | null => some "None"
  | bool true => some "True"
  | bool false => some "False"
  | number numeral => some numeral
  | string text => some text
  | array _ => none
  | object _ => none

mutual

/-- Equality of values, with the keys of a dictionary in their order. -/
def equal : Json → Json → Bool
  | null, null => true
  | bool left, bool right => left == right
  | number left, number right => left == right
  | string left, string right => left == right
  | array left, array right => equalItems left right
  | object left, object right => equalFields left right
  | _, _ => false

def equalItems : List Json → List Json → Bool
  | [], [] => true
  | left :: lefts, right :: rights => equal left right && equalItems lefts rights
  | _, _ => false

def equalFields : List (String × Json) → List (String × Json) → Bool
  | [], [] => true
  | (name, left) :: lefts, (other, right) :: rights =>
    name == other && equal left right && equalFields lefts rights
  | _, _ => false

end

mutual

theorem equal_iff : ∀ left right : Json, equal left right = true ↔ left = right
  | null, right => by cases right <;> simp [equal]
  | bool _, right => by cases right <;> simp [equal]
  | number _, right => by cases right <;> simp [equal]
  | string _, right => by cases right <;> simp [equal]
  | array left, right => by cases right <;> simp [equal, equalItems_iff left]
  | object left, right => by cases right <;> simp [equal, equalFields_iff left]

theorem equalItems_iff : ∀ left right : List Json, equalItems left right = true ↔ left = right
  | [], right => by cases right <;> simp [equalItems]
  | item :: items, right => by
    cases right with
    | nil => simp [equalItems]
    | cons other others => simp [equalItems, equal_iff item other, equalItems_iff items others]

theorem equalFields_iff : ∀ left right : List (String × Json),
    equalFields left right = true ↔ left = right
  | [], right => by cases right <;> simp [equalFields]
  | (name, value) :: fields, right => by
    cases right with
    | nil => simp [equalFields]
    | cons other others =>
      rcases other with ⟨other, result⟩
      simp [equalFields, equal_iff value result, equalFields_iff fields others, and_assoc]

end

instance : DecidableEq Json := fun left right =>
  decidable_of_iff (equal left right = true) (equal_iff left right)

end Json

end JobAgg
