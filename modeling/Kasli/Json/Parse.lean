import Kasli.Json.Text
import Mathlib.Data.List.TakeWhile

/-! Reading a JSON text. The reader follows the grammar: blanks between the tokens, every
escape of a string, objects in which the last member of a key counts, and nothing after the
value. What is written for a value without numbers is read as that value. -/

namespace Kasli.Json

/-! ### Tokens -/

def isWhitespace (b : UInt8) : Bool := b == 0x20 || b == 0x09 || b == 0x0A || b == 0x0D

/-- What follows the byte `b`, when it comes next after blanks. -/
def expect (b : UInt8) (s : Bytes) : Option Bytes :=
  match s.dropWhile isWhitespace with
  | [] => none
  | c :: s => if c = b then some s else none

/-- What follows the literal, when it comes next. -/
def literal (l : Bytes) (s : Bytes) : Option Bytes :=
  if l <+: s then some (s.drop l.length) else none

def isDigit (b : UInt8) : Bool := 0x30 ≤ b && b ≤ 0x39

/-- An exponent, or nothing. -/
def isExponent : Bytes → Bool
  | [] => true
  | [_] => false
  | e :: b :: s => toLower e == chr 'e' &&
    (if b = chr '+' ∨ b = chr '-' then !s.isEmpty && s.all isDigit else isDigit b && s.all isDigit)

/-- What follows the whole part of a number. -/
def isFraction : Bytes → Bool
  | b :: d :: s => if b = chr '.' then isDigit d &&
      isExponent (s.dropWhile isDigit) else isExponent (b :: d :: s)
  | s => isExponent s

/-- The text of a number: a sign, a whole part without leading zeros, a fraction and an exponent. -/
def isNumber (s : Bytes) : Bool :=
  match (if s.head? = some (chr '-') then s.tail else s) with
  | [] => false
  | d :: s => if d = chr '0' then isFraction s else isDigit d && isFraction (s.dropWhile isDigit)

def parseNumber (s : Bytes) : Option (Json × Bytes) :=
  let text := s.takeWhile isNumberByte
  if h : text ≠ [] ∧ isNumber text then
    some (.number ⟨text, h.1, fun _ hb => List.mem_takeWhile_imp hb⟩, s.dropWhile isNumberByte)
  else none

/-! ### Strings -/

def hexValue (b : UInt8) : Option ℕ :=
  if isDigit b then some (b.toNat - 0x30)
  else if 0x61 ≤ toLower b ∧ toLower b ≤ 0x66 then some ((toLower b).toNat - 0x57)
  else none

/-- Four hexadecimal digits. -/
def codeUnit : Bytes → Option (ℕ × Bytes)
  | a :: b :: c :: d :: s => do
    let a ← hexValue a
    let b ← hexValue b
    let c ← hexValue c
    let d ← hexValue d
    return (((a * 16 + b) * 16 + c) * 16 + d, s)
  | _ => none

/-- The UTF-8 of a code point. -/
def encodePoint (n : ℕ) : Bytes :=
  if n < 0x80 then [UInt8.ofNat n]
  else if n < 0x800 then [UInt8.ofNat (0xC0 + n / 64), UInt8.ofNat (0x80 + n % 64)]
  else if n < 0x10000 then
    [UInt8.ofNat (0xE0 + n / 4096), UInt8.ofNat (0x80 + n / 64 % 64), UInt8.ofNat (0x80 + n % 64)]
  else
    [UInt8.ofNat (0xF0 + n / 262144), UInt8.ofNat (0x80 + n / 4096 % 64),
      UInt8.ofNat (0x80 + n / 64 % 64), UInt8.ofNat (0x80 + n % 64)]

/-- The code point after `\u`. The first half of a surrogate pair needs the other one after it. -/
def parsePoint (s : Bytes) : Option (Bytes × Bytes) := do
  let (high, s) ← codeUnit s
  if 0xDC00 ≤ high ∧ high < 0xE000 then none
  else if 0xD800 ≤ high ∧ high < 0xDC00 then do
    let (low, s) ← codeUnit (← literal (ascii "\\u") s)
    if 0xDC00 ≤ low ∧ low < 0xE000 then
      some (encodePoint (0x10000 + (high - 0xD800) * 1024 + (low - 0xDC00)), s)
    else none
  else some (encodePoint high, s)

/-- The byte that a letter after a backslash stands for. -/
def shortEscape (c : UInt8) : Option UInt8 :=
  if c = chr '"' ∨ c = chr '\\' ∨ c = chr '/' then some c
  else if c = chr 'b' then some 0x08
  else if c = chr 'f' then some 0x0C
  else if c = chr 'n' then some 0x0A
  else if c = chr 'r' then some 0x0D
  else if c = chr 't' then some 0x09
  else none

/-- The bytes that an escape stands for, after its backslash. -/
def parseEscape : Bytes → Option (Bytes × Bytes)
  | [] => none
  | c :: s => if c = chr 'u' then parsePoint s else (shortEscape c).map fun b => ([b], s)

/-- The rest of a string, up to its closing quote. -/
def parseChars : ℕ → Bytes → Option (Bytes × Bytes)
  | 0, _ => none
  | _ + 1, [] => none
  | n + 1, b :: s =>
    if b = chr '"' then some ([], s)
    else if b = chr '\\' then
      match parseEscape s with
      | none => none
      | some (c, s) => (parseChars n s).map fun r => (c ++ r.1, r.2)
    else if b < 0x20 then none
    else (parseChars n s).map fun r => (b :: r.1, r.2)

/-- A string after its opening quote. Its bytes must be well-formed UTF-8. -/
def parseString (s : Bytes) : Option (Bytes × Bytes) :=
  (parseChars s.length s).filter fun r => Utf8.Valid r.1

/-! ### Values -/

def parseScalar (s : Bytes) : Option (Json × Bytes) :=
  match literal (ascii "null") s with
  | some s => some (.null, s)
  | none =>
    match literal (ascii "true") s with
    | some s => some (.bool true, s)
    | none =>
      match literal (ascii "false") s with
      | some s => some (.bool false, s)
      | none => parseNumber s

mutual

def parseValue : ℕ → Bytes → Option (Json × Bytes)
  | 0, _ => none
  | n + 1, s =>
    match expect (chr '\x7b') s with
    | some s =>
      match expect (chr '\x7d') s with
      | some s => some (.object [], s)
      | none => (parseMembers n s).map fun r => (.object (OrderedMap.ofAssigns r.1).entries, r.2)
    | none =>
      match expect (chr '[') s with
      | some s =>
        match expect (chr ']') s with
        | some s => some (.array [], s)
        | none => (parseItems n s).map fun r => (.array r.1, r.2)
      | none =>
        match expect (chr '"') s with
        | some s => (parseString s).map fun r => (.string r.1, r.2)
        | none => parseScalar (s.dropWhile isWhitespace)

/-- The items that are left of an array that is not at its end. -/
def parseItems : ℕ → Bytes → Option (List Json × Bytes)
  | 0, _ => none
  | n + 1, s =>
    match parseValue n s with
    | none => none
    | some (j, s) =>
      match expect (chr ',') s with
      | some s => (parseItems n s).map fun r => (j :: r.1, r.2)
      | none => (expect (chr ']') s).map fun s => ([j], s)

/-- The members that are left of an object that is not at its end. -/
def parseMembers : ℕ → Bytes → Option (List (Bytes × Json) × Bytes)
  | 0, _ => none
  | n + 1, s =>
    match (expect (chr '"') s).bind parseString with
    | none => none
    | some (k, s) =>
      match (expect (chr ':') s).bind (parseValue n) with
      | none => none
      | some (j, s) =>
        match expect (chr ',') s with
        | some s => (parseMembers n s).map fun r => ((k, j) :: r.1, r.2)
        | none => (expect (chr '\x7d') s).map fun s => ([(k, j)], s)

end

/-- The value of a text. -/
def parse? (s : Bytes) : Option Json :=
  match parseValue s.length s with
  | none => none
  | some (j, s) => if (s.dropWhile isWhitespace).isEmpty then some j else none

/-! ### What is written is read -/

mutual

/-- The values that are written: their objects are maps, and there are no numbers in them. -/
def Written : Json → Prop
  | .null | .bool _ | .string _ => True
  | .number _ => False
  | .array js => WrittenItems js
  | .object ms => ms.Pairwise (fun a b => a.1 < b.1) ∧ WrittenMembers ms

def WrittenItems : List Json → Prop
  | [] => True
  | j :: js => Written j ∧ WrittenItems js

def WrittenMembers : List (Bytes × Json) → Prop
  | [] => True
  | (_, j) :: ms => Written j ∧ WrittenMembers ms

end

theorem writtenItems_iff {js : List Json} : WrittenItems js ↔ ∀ j ∈ js, j.Written := by
  induction js with
  | nil => simp [WrittenItems]
  | cons j js ih => simp [WrittenItems, ih]

theorem writtenMembers_iff {ms : List (Bytes × Json)} :
    WrittenMembers ms ↔ ∀ e ∈ ms, e.2.Written := by
  induction ms with
  | nil => simp [WrittenMembers]
  | cons e ms ih => simp [WrittenMembers, ih]

theorem written_ofPairs {ms : List (Bytes × Json)} (h : ∀ e ∈ ms, e.2.Written) :
    (ofPairs ms).Written :=
  ⟨(OrderedMap.ofList ms).sorted, writtenMembers_iff.mpr fun e he =>
    h e (OrderedMap.mem_of_mem_ofList he)⟩

mutual

/-- How many steps the reader takes for the text of a value. -/
def steps : Json → ℕ
  | .array (j :: js) => steps j + itemSteps js + 2
  | .object ((_, j) :: ms) => steps j + memberSteps ms + 2
  | _ => 1

def itemSteps : List Json → ℕ
  | [] => 0
  | j :: js => steps j + itemSteps js + 1

def memberSteps : List (Bytes × Json) → ℕ
  | [] => 0
  | (_, j) :: ms => steps j + memberSteps ms + 1

end

/-- What is written for a byte: the byte, or a backslash and a letter, or its number in
hexadecimal. -/
theorem escapeByte_read (b : UInt8) :
    (b ≠ chr '"' ∧ b ≠ chr '\\' ∧ ¬ b < 0x20 ∧ escapeByte b = [b]) ∨
      (∃ c ∈ escapeByte b, escapeByte b = [chr '\\', c] ∧ c ≠ chr 'u' ∧ shortEscape c = some b) ∨
      ∃ c ∈ escapeByte b, ∃ d ∈ escapeByte b, escapeByte b = ascii "\\u00" ++ [c, d] ∧
        hexValue c = some (b.toNat / 16) ∧ hexValue d = some (b.toNat % 16) ∧ b < 0x80 ∧
          encodePoint b.toNat = [b] :=
  forall_byte (p := fun b => (b ≠ chr '"' ∧ b ≠ chr '\\' ∧ ¬ b < 0x20 ∧ escapeByte b = [b]) ∨
      (∃ c ∈ escapeByte b, escapeByte b = [chr '\\', c] ∧ c ≠ chr 'u' ∧ shortEscape c = some b) ∨
      ∃ c ∈ escapeByte b, ∃ d ∈ escapeByte b, escapeByte b = ascii "\\u00" ++ [c, d] ∧
        hexValue c = some (b.toNat / 16) ∧ hexValue d = some (b.toNat % 16) ∧ b < 0x80 ∧
          encodePoint b.toNat = [b])
    (by decide +kernel) b

theorem parsePoint_byte {b c d : UInt8} (hc : hexValue c = some (b.toNat / 16))
    (hd : hexValue d = some (b.toNat % 16)) (hb : b < 0x80)
    (hp : encodePoint b.toNat = [b]) (t : Bytes) :
    parsePoint (chr '0' :: chr '0' :: c :: d :: t) = some ([b], t) := by
  have h0 : hexValue (chr '0') = some 0 := by decide
  have hunit : codeUnit (chr '0' :: chr '0' :: c :: d :: t) = some (b.toNat, t) := by
    simp only [codeUnit, h0, hc, hd, Option.bind_eq_bind, Option.bind_some, Option.pure_def,
      Option.some.injEq, Prod.mk.injEq, and_true]
    omega
  have hlt : b.toNat < 0x80 := UInt8.lt_iff_toNat_lt.mp hb
  simp only [parsePoint, hunit, Option.bind_eq_bind, Option.bind_some, hp]
  rw [if_neg (by omega), if_neg (by omega)]

/-- The reader undoes what is written for one byte. -/
theorem parseChars_escapeByte (n : ℕ) (b : UInt8) (t : Bytes) :
    parseChars (n + 1) (escapeByte b ++ t) = (parseChars n t).map fun r => (b :: r.1, r.2) := by
  have hslash : chr '\\' ≠ chr '"' := by decide
  rcases escapeByte_read b
    with ⟨hquote, hback, hctl, h⟩ | ⟨c, -, h, hu, hc⟩ | ⟨c, -, d, -, h, hc, hd, hb, hp⟩
  · rw [h, List.singleton_append, parseChars, if_neg hquote, if_neg hback, if_neg hctl]
  · rw [h, List.cons_append, List.singleton_append, parseChars, if_neg hslash, if_pos rfl,
      parseEscape, if_neg hu, hc]
    rfl
  · have hunit : escapeByte b ++ t = chr '\\' :: chr 'u' :: chr '0' :: chr '0' :: c :: d ::
      t := by rw [h]; rfl
    rw [hunit, parseChars, if_neg hslash, if_pos rfl, parseEscape, if_pos rfl,
      parsePoint_byte hc hd hb hp]
    rfl

theorem parseChars_escape {n : ℕ} {s : Bytes} (h : s.length < n) (t : Bytes) :
    parseChars n (s.flatMap escapeByte ++ chr '"' :: t) = some (s, t) := by
  induction s generalizing n with
  | nil =>
    obtain ⟨n, rfl⟩ := Nat.exists_eq_succ_of_ne_zero (Nat.ne_of_gt h)
    rfl
  | cons b s ih =>
    obtain ⟨n, rfl⟩ := Nat.exists_eq_succ_of_ne_zero (Nat.ne_of_gt (Nat.zero_lt_of_lt h))
    rw [List.flatMap_cons, List.append_assoc, parseChars_escapeByte, ih (by simpa using h)]
    rfl

theorem length_le_escape (s : Bytes) : s.length ≤ (s.flatMap escapeByte).length := by
  induction s with
  | nil => exact Nat.le_refl _
  | cons b s ih =>
    have hb := List.length_pos_iff.mpr (escapeByte_ne_nil b)
    rw [List.flatMap_cons, List.length_cons, List.length_append]
    omega

@[simp] theorem expect_self {b : UInt8} (h : isWhitespace b = false) (s : Bytes) :
    expect b (b :: s) = some s := by
  rw [expect, List.dropWhile_cons_of_neg (by simp [h])]
  exact if_pos rfl

theorem expect_of_ne {b c : UInt8} (h : isWhitespace c = false) (hne : c ≠ b) (s : Bytes) :
    expect b (c :: s) = none := by
  rw [expect, List.dropWhile_cons_of_neg (by simp [h])]
  exact if_neg hne

/-- A string is read up to its closing quote. -/
theorem parseString_quote {s : Bytes} (h : Utf8.Valid s) (t : Bytes) :
    (expect (chr '"') (quote s ++ t)).bind parseString = some (s, t) := by
  have hexpect : expect (chr '"') (quote s ++ t) = some (s.flatMap escapeByte ++ chr '"' :: t) := by
    rw [quote, List.cons_append, List.append_assoc]
    rfl
  have hlen := length_le_escape s
  rw [hexpect, Option.bind_some, parseString,
    parseChars_escape (by rw [List.length_append, List.length_cons]; omega)]
  simp [h]

theorem kind_lt (j : Json) : j.kind < 7 := by
  cases j with
  | bool b => cases b <;> simp [kind]
  | _ => simp [kind]

/-- The text of a value begins neither with a blank nor with a closing bracket. -/
theorem expect_close_render (j : Json) (t : Bytes) : expect (chr ']') (j.render ++ t) = none := by
  obtain ⟨b, s, h, hb⟩ := render_eq_cons j
  have hbyte : isWhitespace b = false ∧ b ≠ chr ']' :=
    forall_byte (p := fun b => firstKind b < 7 → isWhitespace b = false ∧ b ≠ chr ']')
      (by decide +kernel) b (hb ▸ kind_lt j)
  rw [h]
  exact expect_of_ne hbyte.1 hbyte.2 _

theorem ofAssigns_of_pairwise {ms : List (Bytes × Json)} (h : ms.Pairwise fun a b => a.1 < b.1) :
    (OrderedMap.ofAssigns ms).entries = ms :=
  congrArg OrderedMap.entries (OrderedMap.ofAssigns_entries ⟨ms, h⟩)

mutual

/-- The text of a written value is read as that value, whatever follows. -/
theorem parseValue_render : ∀ {j : Json} {n : ℕ} {t : Bytes}, j.Written →
    j.Encodable → j.steps ≤ n → parseValue n (j.render ++ t) = some (j, t)
  | .null, n + 1, t, _, _, _ => rfl
  | .bool true, n + 1, t, _, _, _ => rfl
  | .bool false, n + 1, t, _, _, _ => rfl
  | .string s, n + 1, t, _, he, _ => by
    have hs := parseString_quote ((encodable_string s).mp he) t
    obtain ⟨r, hr, hp⟩ := Option.bind_eq_some_iff.mp hs
    have h₁ : expect (chr '\x7b') (quote s ++ t) = none := expect_of_ne rfl (by decide) _
    have h₂ : expect (chr '[') (quote s ++ t) = none := expect_of_ne rfl (by decide) _
    simp only [render, parseValue, h₁, h₂, hr, hp, Option.map_some]
  | .array [], n + 1, t, _, _, _ => rfl
  | .array (j :: js), n + 1, t, hw, he, h => by
    simp only [steps] at h
    have hitems := parseItems_render (t := t) (n := n) hw ((encodable_array _).mp he)
      (by simp only [itemSteps]; omega)
    have h₁ : ∀ s, expect (chr '\x7b') (chr '[' :: s) = none := expect_of_ne rfl (by decide)
    have h₂ : ∀ s, expect (chr '[') (chr '[' :: s) = some s := expect_self rfl
    simp only [render, List.cons_append, parseValue, h₁, h₂]
    rw [List.append_assoc, expect_close_render, ← List.append_assoc, hitems]
    rfl
  | .object [], n + 1, t, _, _, _ => rfl
  | .object ((k, j) :: ms), n + 1, t, hw, he, h => by
    simp only [steps] at h
    have hmembers := parseMembers_render (t := t) (n := n) hw.2 ((encodable_object _).mp he)
      (by simp only [memberSteps]; omega)
    have h₁ : ∀ s, expect (chr '\x7b') (chr '\x7b' :: s) = some s := expect_self rfl
    have h₂ : ∀ s s', expect (chr '\x7d') (quote s ++ s') = none :=
      fun s s' => expect_of_ne rfl (by decide) _
    simp only [render, List.cons_append, parseValue, h₁]
    rw [List.append_assoc, h₂, ← List.append_assoc, hmembers, Option.map_some,
      ofAssigns_of_pairwise hw.1]

theorem parseItems_render : ∀ {j : Json} {js : List Json} {n : ℕ} {t : Bytes},
    WrittenItems (j :: js) → (∀ j' ∈ j :: js, j'.Encodable) → itemSteps (j :: js) ≤ n →
    parseItems n (j.render ++ renderItems js ++ t) = some (j :: js, t)
  | j, js, n + 1, t, hw, he, h => by
    simp only [itemSteps] at h
    rw [List.append_assoc, parseItems, parseValue_render hw.1 (he j List.mem_cons_self) (by omega)]
    cases js with
    | nil => rfl
    | cons j' js =>
      have hrest := parseItems_render (n := n)
        (t := t) hw.2 (fun i hi => he i (List.mem_cons_of_mem _ hi)) (by omega)
      have hcomma : expect (chr ',') (renderItems (j' :: js) ++ t) =
          some (j'.render ++ renderItems js ++ t) :=
        expect_self rfl _
      simp only [hcomma, hrest, Option.map_some]

theorem parseMembers_render : ∀ {k : Bytes} {j : Json} {ms : List (Bytes × Json)}
    {n : ℕ} {t : Bytes},
    WrittenMembers ((k, j) :: ms) → (∀ e ∈ (k, j) :: ms, Utf8.Valid e.1 ∧ e.2.Encodable) →
    memberSteps ((k, j) :: ms) ≤ n →
    parseMembers n (quote k ++ chr ':' :: (j.render ++ renderMembers ms) ++ t) =
      some ((k, j) :: ms, t)
  | k, j, ms, n + 1, t, hw, he, h => by
    simp only [memberSteps] at h
    have hkey := parseString_quote (he _ List.mem_cons_self).1 (chr ':' ::
      (j.render ++ (renderMembers ms ++ t)))
    have hvalue := parseValue_render (n := n)
      (t := renderMembers ms ++ t) hw.1 (he _ List.mem_cons_self).2 (by omega)
    have hcolon : ∀ s, expect (chr ':') (chr ':' :: s) = some s := expect_self rfl
    simp only [List.append_assoc, List.cons_append, parseMembers, hkey, hcolon,
      Option.bind_some, hvalue]
    cases ms with
    | nil => rfl
    | cons e ms =>
      obtain ⟨k', j'⟩ := e
      have hrest := parseMembers_render (n := n)
        (t := t) hw.2 (fun i hi => he i (List.mem_cons_of_mem _ hi)) (by omega)
      have hcomma : expect (chr ',') (renderMembers ((k', j') :: ms) ++ t) =
          some (quote k' ++ chr ':' :: (j'.render ++ renderMembers ms) ++ t) := expect_self rfl _
      simp only [hcomma, hrest, Option.map_some]

end

mutual

theorem steps_le_length : ∀ {j : Json}, j.Written → j.steps ≤ j.render.length
  | .null, _ => by decide
  | .bool true, _ => by decide
  | .bool false, _ => by decide
  | .string s, _ => by simp [steps, render, quote]
  | .array [], _ => by decide
  | .array (j :: js), h => by
    have h₁ := steps_le_length h.1
    have h₂ := itemSteps_le_length h.2
    simp only [steps, render, List.length_cons, List.length_append]
    omega
  | .object [], _ => by decide
  | .object ((k, j) :: ms), h => by
    have h₁ := steps_le_length h.2.1
    have h₂ := memberSteps_le_length h.2.2
    simp only [steps, render, quote, List.length_cons, List.length_append]
    omega

theorem itemSteps_le_length : ∀ {js : List Json}, WrittenItems js →
    itemSteps js + 1 ≤ (renderItems js).length
  | [], _ => by decide
  | j :: js, h => by
    have h₁ := steps_le_length h.1
    have h₂ := itemSteps_le_length h.2
    simp only [itemSteps, renderItems, List.length_cons, List.length_append]
    omega

theorem memberSteps_le_length : ∀ {ms : List (Bytes × Json)}, WrittenMembers ms →
    memberSteps ms + 1 ≤ (renderMembers ms).length
  | [], _ => by decide
  | (k, j) :: ms, h => by
    have h₁ := steps_le_length h.1
    have h₂ := memberSteps_le_length h.2
    simp only [memberSteps, renderMembers, quote, List.length_cons, List.length_append]
    omega

end

/-- A reader undoes writing, on the values that are written and whose strings are well formed. -/
def Undoes (parse : Bytes → Except Bytes Json) : Prop :=
  ∀ j : Json, j.Written → j.Encodable → parse j.render = .ok j

theorem parse?_render {j : Json} (hw : j.Written) (he : j.Encodable) :
    parse? j.render = some j := by
  have h := parseValue_render (t := []) hw he (steps_le_length hw)
  rw [List.append_nil] at h
  rw [parse?, h]
  rfl

/-- The reader, with an exception for a text that is none. -/
def parse (s : Bytes) : Except Bytes Json :=
  match parse? s with
  | some j => if j.Encodable then .ok j else .error
      (ascii "[json.exception.parse_error.101] invalid string")
  | none => .error (ascii "[json.exception.parse_error.101] syntax error")

theorem encodable_of_parse {s : Bytes} {j : Json} (h : parse s = .ok j) : j.Encodable := by
  rw [parse] at h
  split at h
  · split_ifs at h with he
    exact Except.ok.inj h ▸ he
  · cases h

/-- Reading undoes writing. -/
theorem undoes_parse : Undoes parse := by
  intro j hw he
  rw [parse, parse?_render hw he]
  exact if_pos he

end Kasli.Json
