import Kasli.Data.OrderedMap
import Kasli.Text.Utf8

/-! JSON values and their text, as `nlohmann::json` writes it: no blanks, members in
key order, strings byte by byte with the short escapes. `dump` is strict: it fails,
with the text of its exception, exactly when some string is not well-formed UTF-8,
and its output is then well formed too. -/

namespace Kasli

open Utf8

/-- The bytes a number is written with. -/
def isNumberByte (b : UInt8) : Bool :=
  (0x30 ≤ b && b ≤ 0x39) || b == chr '-' || b == chr '+' || b == chr '.' || b ==
    chr 'e' || b == chr 'E'

/-- A number, by its text. -/
structure Number where
  text : Bytes
  ne_nil : text ≠ []
  bytes : ∀ b ∈ text, isNumberByte b
  deriving DecidableEq

inductive Json
  | null
  | bool (b : Bool)
  | number (n : Number)
  | string (s : Bytes)
  | array (items : List Json)
  | object (members : List (Bytes × Json))

namespace Json

/-- An object from an initializer list: a `std::map`, where the first pair of a key counts. -/
def ofPairs (members : List (Bytes × Json)) : Json := .object (OrderedMap.ofList members).entries

/-! ### Text -/

def hexDigit (n : ℕ) : UInt8 := chr ("0123456789abcdef".toList.getD n '0')

/-- The text of one byte inside a string. -/
def escapeByte (b : UInt8) : Bytes :=
  if b = 0x08 then ascii "\\b"
  else if b = 0x09 then ascii "\\t"
  else if b = 0x0A then ascii "\\n"
  else if b = 0x0C then ascii "\\f"
  else if b = 0x0D then ascii "\\r"
  else if b = 0x22 then ascii "\\\""
  else if b = 0x5C then ascii "\\\\"
  else if b ≤ 0x1F then ascii "\\u00" ++ [hexDigit (b.toNat / 16), hexDigit (b.toNat % 16)]
  else [b]

def quote (s : Bytes) : Bytes := chr '"' :: (s.flatMap escapeByte ++ [chr '"'])

mutual

def render : Json → Bytes
  | .null => ascii "null"
  | .bool true => ascii "true"
  | .bool false => ascii "false"
  | .number n => n.text
  | .string s => quote s
  | .array [] => ascii "[]"
  | .array (j :: js) => chr '[' :: (render j ++ renderItems js)
  | .object [] => ascii "\x7b\x7d"
  | .object ((k, j) :: ms) => chr '\x7b' :: (quote k ++ chr ':' :: (render j ++ renderMembers ms))

/-- What follows an item of an array. -/
def renderItems : List Json → Bytes
  | [] => ascii "]"
  | j :: js => chr ',' :: (render j ++ renderItems js)

/-- What follows a member of an object. -/
def renderMembers : List (Bytes × Json) → Bytes
  | [] => ascii "\x7d"
  | (k, j) :: ms => chr ',' :: (quote k ++ chr ':' :: (render j ++ renderMembers ms))

end

mutual

/-- The strings of a value, keys included, in the order they are written. -/
def strings : Json → List Bytes
  | .null => []
  | .bool _ => []
  | .number _ => []
  | .string s => [s]
  | .array js => itemStrings js
  | .object ms => memberStrings ms

def itemStrings : List Json → List Bytes
  | [] => []
  | j :: js => strings j ++ itemStrings js

def memberStrings : List (Bytes × Json) → List Bytes
  | [] => []
  | (k, j) :: ms => k :: (strings j ++ memberStrings ms)

end

/-! ### Strict encoding -/

/-- The two hexadecimal digits of a byte. -/
def hexBytes (b : UInt8) : Bytes :=
  [b.toNat / 16, b.toNat % 16].map fun n => chr ("0123456789ABCDEF".toList.getD n '0')

/-- The complaint about a string that is read from state `q` on, after `i` bytes of which the
last is `b`. -/
def utf8Fault (q : State) (b : UInt8) (i : ℕ) : Bytes → Option Bytes
  | [] =>
    if q.owed = 0 then none
    else some (ascii "[json.exception.type_error.316] incomplete UTF-8 string; last byte: 0x" ++
      hexBytes b)
  | c :: s =>
    match step q c with
    | none =>
      some (ascii "[json.exception.type_error.316] invalid UTF-8 byte at index " ++ decimal i ++
        ascii ": 0x" ++ hexBytes c)
    | some q' => utf8Fault q' c (i + 1) s

/-- `dump` with the strict error handler; the error is what its exception says. -/
def dump (j : Json) : Except Bytes Bytes :=
  match j.strings.findSome? (utf8Fault start 0 0) with
  | none => .ok j.render
  | some what => .error what

theorem utf8Fault_eq_none {q : State} {b : UInt8} {i : ℕ} {s : Bytes} :
    utf8Fault q b i s = none ↔ Accepts q s := by
  induction s generalizing q b i with
  | nil => simp [utf8Fault]
  | cons c s ih =>
    rw [accepts_cons]
    cases h : step q c with
    | none => simp [utf8Fault, h]
    | some q' => simp [utf8Fault, h, ih]

theorem isAscii_hexBytes (b : UInt8) : IsAscii (hexBytes b) :=
  forall_byte (p := fun b => IsAscii (hexBytes b)) (by decide +kernel) b

theorem isAscii_utf8Fault {q : State} {b : UInt8} {i : ℕ} {s what : Bytes}
    (h : utf8Fault q b i s = some what) : IsAscii what := by
  induction s generalizing q b i with
  | nil =>
    simp only [utf8Fault] at h
    split_ifs at h
    obtain rfl := Option.some.inj h
    exact (isAscii_append _ _).mpr ⟨by decide, isAscii_hexBytes b⟩
  | cons c s ih =>
    simp only [utf8Fault] at h
    split at h
    · obtain rfl := Option.some.inj h
      simp only [isAscii_append]
      exact ⟨⟨⟨by decide, isAscii_decimal i⟩, by decide⟩, isAscii_hexBytes c⟩
    · exact ih h

/-- Every string of the value is well-formed UTF-8. -/
def Encodable (j : Json) : Prop := ∀ s ∈ j.strings, Valid s

instance (j : Json) : Decidable j.Encodable := inferInstanceAs (Decidable (∀ s ∈ _, _))

theorem findSome?_utf8Fault {l : List Bytes} :
    l.findSome? (utf8Fault start 0 0) = none ↔ ∀ s ∈ l, Valid s := by
  simp only [List.findSome?_eq_none_iff, utf8Fault_eq_none]
  rfl

theorem dump_of_encodable {j : Json} (h : j.Encodable) : j.dump = .ok j.render := by
  rw [dump, findSome?_utf8Fault.mpr h]

/-- `dump` succeeds exactly when every string is well formed. -/
theorem dump_eq_ok_iff {j : Json} {t : Bytes} : j.dump = .ok t ↔ j.Encodable ∧ t = j.render := by
  constructor
  · intro h
    rw [dump] at h
    split at h
    · next hf => exact ⟨findSome?_utf8Fault.mp hf, (Except.ok.inj h).symm⟩
    · cases h
  · rintro ⟨h, rfl⟩
    exact dump_of_encodable h

/-- What the exception of `dump` says is ASCII. -/
theorem isAscii_of_dump_error {j : Json} {what : Bytes} (h : j.dump = .error what) :
    IsAscii what := by
  rw [dump] at h
  split at h
  · cases h
  · next hf =>
    obtain rfl := Except.error.inj h
    obtain ⟨s, -, hs⟩ := List.exists_of_findSome?_eq_some hf
    exact isAscii_utf8Fault hs

theorem dump_error_of_not_encodable {j : Json} (h : ¬ j.Encodable) :
    ∃ what, j.dump = .error what ∧ IsAscii what := by
  cases hd : j.dump with
  | ok t => exact absurd (dump_eq_ok_iff.mp hd).1 h
  | error what => exact ⟨what, rfl, isAscii_of_dump_error hd⟩

/-! ### The strings of composed values -/

@[simp] theorem encodable_string (s : Bytes) : (Json.string s).Encodable ↔ Valid s := by
  simp [Encodable, strings]

@[simp] theorem encodable_bool (b : Bool) : (Json.bool b).Encodable := by
  simp [Encodable, strings]

theorem mem_itemStrings {s : Bytes} {js : List Json} :
    s ∈ itemStrings js ↔ ∃ j ∈ js, s ∈ j.strings := by
  induction js with
  | nil => simp [itemStrings]
  | cons j js ih => simp [itemStrings, ih]

theorem mem_memberStrings {s : Bytes} {ms : List (Bytes × Json)} :
    s ∈ memberStrings ms ↔ ∃ e ∈ ms, s = e.1 ∨ s ∈ e.2.strings := by
  induction ms with
  | nil => simp [memberStrings]
  | cons e ms ih => simp [memberStrings, ih, or_assoc]

@[simp] theorem encodable_array (js : List Json) :
    (Json.array js).Encodable ↔ ∀ j ∈ js, j.Encodable := by
  simp only [Encodable, strings, mem_itemStrings]
  constructor
  · exact fun h j hj s hs => h s ⟨j, hj, hs⟩
  · rintro h s ⟨j, hj, hs⟩
    exact h j hj s hs

@[simp] theorem encodable_object (ms : List (Bytes × Json)) :
    (Json.object ms).Encodable ↔ ∀ e ∈ ms, Valid e.1 ∧ e.2.Encodable := by
  simp only [Encodable, strings, mem_memberStrings]
  constructor
  · exact fun h e he => ⟨h e.1 ⟨e, he, .inl rfl⟩, fun s hs => h s ⟨e, he, .inr hs⟩⟩
  · rintro h s ⟨e, he, rfl | hs⟩
    · exact (h e he).1
    · exact (h e he).2 s hs

/-- An initializer list with distinct keys is encodable when all its pairs are. -/
theorem encodable_ofPairs {ms : List (Bytes × Json)} (hms : (ms.map Prod.fst).Nodup) :
    (ofPairs ms).Encodable ↔ ∀ e ∈ ms, Valid e.1 ∧ e.2.Encodable := by
  simp only [ofPairs, encodable_object, OrderedMap.mem_entries_ofList hms]

/-! ### Strings with a property -/

/-- All strings of the value have the property, keys included. -/
def Each (p : Bytes → Prop) (j : Json) : Prop := ∀ s ∈ j.strings, p s

section

variable {p : Bytes → Prop}

theorem each_string {s : Bytes} (h : p s) : (Json.string s).Each p := by
  simpa [Each, strings] using h

theorem each_bool (b : Bool) : (Json.bool b).Each p := by simp [Each, strings]

theorem each_array {js : List Json} (h : ∀ j ∈ js, j.Each p) : (Json.array js).Each p := by
  intro s hs
  rw [strings, mem_itemStrings] at hs
  obtain ⟨j, hj, hs⟩ := hs
  exact h j hj s hs

theorem each_object {ms : List (Bytes × Json)} (h : ∀ e ∈ ms, p e.1 ∧ e.2.Each p) :
    (Json.object ms).Each p := by
  intro s hs
  rw [strings, mem_memberStrings] at hs
  obtain ⟨e, he, rfl | hs⟩ := hs
  · exact (h e he).1
  · exact (h e he).2 s hs

theorem each_ofPairs {ms : List (Bytes × Json)} (h : ∀ e ∈ ms, p e.1 ∧ e.2.Each p) :
    (ofPairs ms).Each p :=
  each_object fun e he => h e (OrderedMap.mem_of_mem_ofList he)

end

end Json

end Kasli
