import Mathlib.Data.List.Dedup
import Mathlib.Data.List.Sort
import Mathlib.Data.String.Basic

/-!
# JSON values

`serde_json::Value`, and how derived deserializers read a struct from one: from
an object (unknown fields are ignored, a known field may not occur twice) or
from an array in field order. An absent or `null` optional field is `none`; a
field with a default may be absent.
-/

namespace Direclaw.Lib

/-- An integer literal is kept as a number; other numbers keep their text, since
no modelled function computes with one. -/
inductive Json : Type where
  | null
  | bool (b : Bool)
  | int (n : Int)
  | float (literal : String)
  | str (s : String)
  | array (items : List Json)
  | object (fields : List (String × Json))
deriving Inhabited

namespace Json

/-- The value of a key that occurs at most once. -/
def field (fields : List (String × Json)) (key : String) : Option Json := fields.lookup key

/-- `Map::get` on a map read from text, which keeps the last value of a repeated
key. -/
def get (fields : List (String × Json)) (key : String) : Option Json := fields.reverse.lookup key

def asStr : Json → Option String
  | .str s => some s
  | _ => none

def asObject : Json → Option (List (String × Json))
  | .object fields => some fields
  | _ => none

/-! ## Derived deserializers -/

def structFields (names : List String) : Json → Option (List (String × Json))
  | .object fields => if ((fields.map Prod.fst).filter (· ∈ names)).Nodup then some fields else none
  | .array items => if items.length ≤ names.length then some (names.zip items) else none
  | _ => none

theorem structFields_object {names : List String} {fields read : List (String × Json)}
    (h : structFields names (object fields) = some read) : fields = read := by
  simp only [structFields, Option.ite_none_right_eq_some] at h
  exact Option.some.inj h.2

def requiredStr (value : Option Json) : Option String := value.bind asStr

/-- An `i64` field. -/
def requiredI64 : Option Json → Option Int64
  | some (.int n) =>
    if Int64.minValue.toInt ≤ n ∧ n ≤ Int64.maxValue.toInt then some (Int64.ofInt n) else none
  | _ => none

def optionalStr : Option Json → Option (Option String)
  | none | some .null => some none
  | some (.str s) => some (some s)
  | _ => none

def optionalValue : Option Json → Option Json
  | none | some .null => none
  | some value => some value

def defaultStr : Option Json → Option String
  | none => some ""
  | some value => asStr value

/-- An optional field with a struct in it. -/
def optionalStruct {α : Type} (decode : Json → Option α) : Option Json → Option (Option α)
  | none | some .null => some none
  | some value => (decode value).map some

def defaultBool : Option Json → Option Bool
  | none => some false
  | some (.bool b) => some b
  | _ => none

def defaultStrings : Option Json → Option (List String)
  | none => some []
  | some (.array items) => items.mapM asStr
  | _ => none

def defaultMap : Option Json → Option (List (String × Json))
  | none => some []
  | some (.object fields) => some fields
  | _ => none

def optionalMap : Option Json → Option (Option (List (String × Json)))
  | none | some .null => some none
  | some (.object fields) => some (some fields)
  | _ => none

/-- The name of a variant without data: a text, or the key of `null`. -/
def unitVariant : Json → Option String
  | .str name => some name
  | .object [(name, .null)] => some name
  | _ => none

/-- The keys of a map read from text, in order. -/
def mapKeys (fields : List (String × Json)) : List String :=
  (fields.map Prod.fst).dedup.insertionSort (· ≤ ·)

theorem mem_mapKeys {fields : List (String × Json)} {key : String} :
    key ∈ mapKeys fields ↔ key ∈ fields.map Prod.fst := by
  rw [mapKeys, List.mem_insertionSort, List.mem_dedup]

theorem mem_mapKeys_iff_get {fields : List (String × Json)} {key : String} :
    key ∈ mapKeys fields ↔ ∃ value, get fields key = some value := by
  rw [mem_mapKeys]
  constructor
  · intro h
    obtain ⟨entry, hentry, rfl⟩ := List.mem_map.mp h
    cases hget : get fields entry.1 with
    | some value => exact ⟨value, rfl⟩
    | none =>
      have hnot := List.lookup_eq_none_iff.mp hget entry (List.mem_reverse.mpr hentry)
      simp at hnot
  · rintro ⟨value, h⟩
    obtain ⟨before, after, hsplit, -⟩ := List.lookup_eq_some_iff.mp h
    have hentry : (key, value) ∈ fields.reverse := by
      rw [hsplit]
      exact List.mem_append_right _ List.mem_cons_self
    exact List.mem_map.mpr ⟨_, List.mem_reverse.mp hentry, rfl⟩

theorem sorted_mapKeys (fields : List (String × Json)) :
    (mapKeys fields).Pairwise (· < ·) := by
  have hnodup : (mapKeys fields).Nodup :=
    (List.perm_insertionSort _ _).nodup_iff.mpr (List.nodup_dedup _)
  have hle : (mapKeys fields).Pairwise (· ≤ ·) := List.pairwise_insertionSort _ _
  exact (hle.and hnodup).imp fun hboth => lt_of_le_of_ne hboth.1 hboth.2

/-- An internally tagged enum: its tag, and what is left for the variant's
struct. -/
def internallyTagged (tag : String) : Json → Option (String × Json)
  | .object fields =>
    match fields.filter (·.1 == tag) with
    | [(_, .str variant)] => some (variant, .object (fields.filter (·.1 != tag)))
    | _ => none
  | .array (.str variant :: items) => some (variant, .array items)
  | _ => none

/-! ## Derived serializers -/

def ofOptionalStr : Option String → Json
  | some s => .str s
  | none => .null

def ofStrings (items : List String) : Json := .array (items.map .str)

/-! ## What is written is read back -/

@[simp] theorem requiredStr_str (s : String) : requiredStr (some (str s)) = some s := rfl

@[simp] theorem requiredI64_int (n : Int64) : requiredI64 (some (int n.toInt)) = some n := by
  simp only [requiredI64]
  rw [if_pos ⟨Int64.minValue_le_toInt n, Int64.toInt_le n⟩, Int64.ofInt_toInt]

@[simp] theorem optionalStr_ofOptionalStr (s : Option String) :
    optionalStr (some (ofOptionalStr s)) = some s := by
  cases s <;> rfl

@[simp] theorem defaultBool_bool (b : Bool) : defaultBool (some (bool b)) = some b := rfl

@[simp] theorem defaultStrings_ofStrings (items : List String) :
    defaultStrings (some (ofStrings items)) = some items := by
  simp only [defaultStrings, ofStrings]
  induction items with
  | nil => rfl
  | cons x xs ih => simp [List.mapM_cons, asStr, ih]

end Json

end Direclaw.Lib
