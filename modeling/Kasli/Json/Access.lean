import Kasli.Json.Value

/-! Reading a JSON value: `contains`, `at`, `get` and `value` of `nlohmann::json`.
What can go wrong is an exception, given by what it says. The texts are ASCII, and
reading a well-formed value yields well-formed strings. -/

namespace Kasli.Json

open Utf8

def typeName : Json → Bytes
  | .null => ascii "null"
  | .bool _ => ascii "boolean"
  | .number _ => ascii "number"
  | .string _ => ascii "string"
  | .array _ => ascii "array"
  | .object _ => ascii "object"

/-- What a type error with number `id` says. -/
def typeError (id : ℕ) (what : Bytes) : Bytes :=
  ascii "[json.exception.type_error." ++ decimal id ++ ascii "] " ++ what

def contains : Json → Bytes → Bool
  | .object ms, key => (OrderedMap.lookup key ms).isSome
  | _, _ => false

def at? (j : Json) (key : Bytes) : Except Bytes Json :=
  match j with
  | .object ms =>
    match OrderedMap.lookup key ms with
    | some v => .ok v
    | none => .error (ascii "[json.exception.out_of_range.403] key '" ++ key ++ ascii "' not found")
  | _ => .error (typeError 304 (ascii "cannot use at() with " ++ j.typeName))

/-- `at` of an array -/
def atIndex (j : Json) (index : ℕ) : Except Bytes Json :=
  match j with
  | .array js =>
    match js[index]? with
    | some v => .ok v
    | none => .error (ascii "[json.exception.out_of_range.401] array index " ++ decimal index ++
        ascii " is out of range")
  | _ => .error (typeError 304 (ascii "cannot use at() with " ++ j.typeName))

/-- `get<std::string>()` -/
def getString (j : Json) : Except Bytes Bytes :=
  match j with
  | .string s => .ok s
  | _ => .error (typeError 302 (ascii "type must be string, but is " ++ j.typeName))

@[simp] theorem getString_string (s : Bytes) : (Json.string s).getString = .ok s := rfl

/-- The values of an object, each of which must be a string. -/
def getStrings : List (Bytes × Json) → Except Bytes (List (Bytes × Bytes))
  | [] => .ok []
  | (k, j) :: ms => do
    let s ← j.getString
    let rest ← getStrings ms
    return (k, s) :: rest

/-- `get<std::map<std::string, std::string>>()` -/
def getStringMap (j : Json) : Except Bytes (OrderedMap Bytes Bytes) :=
  match j with
  | .object ms => OrderedMap.ofList <$> getStrings ms
  | _ => .error (typeError 302 (ascii "type must be object, but is " ++ j.typeName))

/-- `value(key, std::map<std::string, std::string>{})` -/
def valueStringMap (j : Json) (key : Bytes) : Except Bytes (OrderedMap Bytes Bytes) :=
  match j with
  | .object ms =>
    match OrderedMap.lookup key ms with
    | some v => v.getStringMap
    | none => .ok .empty
  | _ => .error (typeError 306 (ascii "cannot use value() with " ++ j.typeName))

/-- `get<std::vector<T>>()` -/
def getList {A : Type} (fromJson : Json → Except Bytes A) (j : Json) : Except Bytes (List A) :=
  match j with
  | .array js => js.mapM fromJson
  | _ => .error (typeError 302 (ascii "type must be array, but is " ++ j.typeName))

/-- `value(key, std::vector<T>{})` -/
def valueList {A : Type} (fromJson : Json → Except Bytes A) (j : Json) (key : Bytes) :
    Except Bytes (List A) :=
  match j with
  | .object ms =>
    match OrderedMap.lookup key ms with
    | some v => v.getList fromJson
    | none => .ok []
  | _ => .error (typeError 306 (ascii "cannot use value() with " ++ j.typeName))

/-! ### What the exceptions say -/

theorem isAscii_typeName (j : Json) : IsAscii j.typeName := by
  cases j <;> exact of_decide_eq_true rfl

theorem isAscii_typeError {id : ℕ} {what : Bytes} (h : IsAscii what) :
    IsAscii (typeError id what) := by
  simp only [typeError, isAscii_append]
  exact ⟨⟨⟨by decide, isAscii_decimal id⟩, by decide⟩, h⟩

theorem isAscii_of_at?_error {j : Json} {key what : Bytes} (hkey : IsAscii key)
    (h : j.at? key = .error what) : IsAscii what := by
  unfold at? at h
  split at h
  · split at h
    · cases h
    · obtain rfl := Except.error.inj h
      simp only [isAscii_append]
      exact ⟨⟨by decide, hkey⟩, by decide⟩
  · obtain rfl := Except.error.inj h
    exact isAscii_typeError ((isAscii_append _ _).mpr ⟨by decide, isAscii_typeName j⟩)

theorem isAscii_of_getString_error {j : Json} {what : Bytes} (h : j.getString = .error what) :
    IsAscii what := by
  unfold getString at h
  split at h
  · cases h
  · obtain rfl := Except.error.inj h
    exact isAscii_typeError ((isAscii_append _ _).mpr ⟨by decide, isAscii_typeName j⟩)

theorem isAscii_of_getStrings_error {ms : List (Bytes × Json)} {what : Bytes}
    (h : getStrings ms = .error what) : IsAscii what := by
  induction ms with
  | nil => cases h
  | cons e ms ih =>
    simp only [getStrings] at h
    cases hs : e.2.getString with
    | error m =>
      rw [hs] at h
      obtain rfl := Except.error.inj h
      exact isAscii_of_getString_error hs
    | ok s =>
      rw [hs] at h
      cases hr : getStrings ms with
      | error m =>
        rw [hr] at h
        obtain rfl := Except.error.inj h
        exact ih hr
      | ok rest =>
        rw [hr] at h
        cases h

theorem isAscii_of_getStringMap_error {j : Json} {what : Bytes} (h : j.getStringMap = .error what) :
    IsAscii what := by
  unfold getStringMap at h
  split at h
  next ms =>
    cases hs : getStrings ms with
    | error m =>
      rw [hs] at h
      obtain rfl := Except.error.inj h
      exact isAscii_of_getStrings_error hs
    | ok l =>
      rw [hs] at h
      cases h
  next =>
    obtain rfl := Except.error.inj h
    exact isAscii_typeError ((isAscii_append _ _).mpr ⟨by decide, isAscii_typeName j⟩)

theorem isAscii_of_valueStringMap_error {j : Json} {key what : Bytes}
    (h : j.valueStringMap key = .error what) : IsAscii what := by
  unfold valueStringMap at h
  split at h
  · split at h
    · exact isAscii_of_getStringMap_error h
    · cases h
  · obtain rfl := Except.error.inj h
    exact isAscii_typeError ((isAscii_append _ _).mpr ⟨by decide, isAscii_typeName j⟩)

/-! ### What is read is well formed -/

theorem encodable_of_at? {j v : Json} {key : Bytes} (hj : j.Encodable) (h : j.at? key = .ok v) :
    v.Encodable := by
  unfold at? at h
  split at h
  next ms =>
    split at h
    next hl =>
      obtain rfl := Except.ok.inj h
      exact ((encodable_object ms).mp hj _ (OrderedMap.mem_of_lookup hl)).2
    next => cases h
  next => cases h

theorem valid_of_getString {j : Json} {s : Bytes} (hj : j.Encodable) (h : j.getString = .ok s) :
    Valid s := by
  unfold getString at h
  split at h
  · obtain rfl := Except.ok.inj h
    exact (encodable_string _).mp hj
  · cases h

theorem valid_of_getStrings {ms : List (Bytes × Json)} (hms : ∀ e ∈ ms, Valid e.1 ∧ e.2.Encodable)
    {l : List (Bytes × Bytes)} (h : getStrings ms = .ok l) : ∀ e ∈ l, Valid e.1 ∧ Valid e.2 := by
  induction ms generalizing l with
  | nil =>
    obtain rfl := Except.ok.inj h
    simp
  | cons e ms ih =>
    simp only [getStrings] at h
    rw [List.forall_mem_cons] at hms
    cases hs : e.2.getString with
    | error m => rw [hs] at h; cases h
    | ok s =>
      rw [hs] at h
      cases hr : getStrings ms with
      | error m => rw [hr] at h; cases h
      | ok rest =>
        rw [hr] at h
        obtain rfl := Except.ok.inj h
        rw [List.forall_mem_cons]
        exact ⟨⟨hms.1.1, valid_of_getString hms.1.2 hs⟩, ih hms.2 hr⟩

theorem valid_of_getStringMap {j : Json} {m : OrderedMap Bytes Bytes} (hj : j.Encodable)
    (h : j.getStringMap = .ok m) : ∀ e ∈ m.entries, Valid e.1 ∧ Valid e.2 := by
  unfold getStringMap at h
  split at h
  next ms =>
    cases hs : getStrings ms with
    | error w => rw [hs] at h; cases h
    | ok l =>
      rw [hs] at h
      obtain rfl := Except.ok.inj h
      exact fun e he => valid_of_getStrings ((encodable_object ms).mp hj) hs e
        (OrderedMap.mem_of_mem_ofList he)
  next => cases h

theorem valid_of_valueStringMap {j : Json} {key : Bytes} {m : OrderedMap Bytes Bytes}
    (hj : j.Encodable) (h : j.valueStringMap key = .ok m) :
    ∀ e ∈ m.entries, Valid e.1 ∧ Valid e.2 := by
  unfold valueStringMap at h
  split at h
  next ms =>
    split at h
    next hl =>
      exact valid_of_getStringMap ((encodable_object ms).mp hj _ (OrderedMap.mem_of_lookup hl)).2 h
    next =>
      obtain rfl := Except.ok.inj h
      simp [OrderedMap.empty]
  next => cases h

/-! ### Reading what was built -/

theorem lookup_ofPairs (ms : List (Bytes × Json)) (key : Bytes) :
    OrderedMap.lookup key (OrderedMap.ofList ms).entries = OrderedMap.lookup key ms :=
  OrderedMap.find?_ofList ms key

section Built

variable {ms : List (Bytes × Json)} {key : Bytes} {v : Json} (h : OrderedMap.lookup key ms = some v)

include h

theorem at?_ofPairs : (ofPairs ms).at? key = .ok v := by
  simp only [ofPairs, at?, lookup_ofPairs, h]

theorem valueStringMap_ofPairs : (ofPairs ms).valueStringMap key = v.getStringMap := by
  simp only [ofPairs, valueStringMap, lookup_ofPairs, h]

theorem valueList_ofPairs {A : Type} (fromJson : Json → Except Bytes A) :
    (ofPairs ms).valueList fromJson key = v.getList fromJson := by
  simp only [ofPairs, valueList, lookup_ofPairs, h]

theorem contains_ofPairs : (ofPairs ms).contains key = true := by
  simp only [ofPairs, contains, lookup_ofPairs, h, Option.isSome_some]

end Built

/-- A list of values that are each read back is read back. -/
theorem getList_map {A : Type} {toJson : A → Json} {fromJson : Json → Except Bytes A} {l : List A}
    (h : ∀ a ∈ l, fromJson (toJson a) = .ok a) :
    (Json.array (l.map toJson)).getList fromJson = .ok l := by
  rw [getList, List.mapM_map]
  induction l with
  | nil => rfl
  | cons a l ih =>
    rw [List.forall_mem_cons] at h
    rw [List.mapM_cons, Function.comp_apply, h.1, ih h.2]
    rfl

theorem getStrings_map (l : List (Bytes × Bytes)) :
    getStrings (l.map fun e => (e.1, Json.string e.2)) = .ok l := by
  induction l with
  | nil => rfl
  | cons e l ih =>
    rw [List.map_cons, getStrings, ih]
    rfl

theorem getStringMap_entries (m : OrderedMap Bytes Bytes) :
    (Json.object (m.entries.map fun e => (e.1, Json.string e.2))).getStringMap = .ok m := by
  rw [getStringMap, getStrings_map]
  exact congrArg Except.ok m.ofList_entries

end Kasli.Json
