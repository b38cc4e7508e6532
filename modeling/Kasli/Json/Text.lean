import Kasli.Json.Value

/-! The text of a JSON value. It is well-formed UTF-8 when the strings are, and it
determines the value: no text of a value continues another one, numbers apart,
which end at the first byte that no number is written with. -/

namespace Kasli.Json

open Utf8

/-! ### The text is well formed -/

theorem escapeByte_of_ge {b : UInt8} (h : ¬ b < 0x80) : escapeByte b = [b] := by
  revert h
  exact forall_byte (p := fun b => ¬ b < 0x80 → escapeByte b = [b]) (by decide +kernel) b

theorem isAscii_escapeByte {b : UInt8} (h : b < 0x80) : IsAscii (escapeByte b) := by
  revert h
  exact forall_byte (p := fun b => b < 0x80 → IsAscii (escapeByte b)) (by decide +kernel) b

theorem escapeByte_ne_nil (b : UInt8) : escapeByte b ≠ [] :=
  forall_byte (p := fun b => escapeByte b ≠ []) (by decide +kernel) b

theorem accepts_escape {q : State} {s : Bytes} : Accepts q (s.flatMap escapeByte) ↔
    Accepts q s := by
  induction s generalizing q with
  | nil => exact Iff.rfl
  | cons b s ih =>
    rw [List.flatMap_cons]
    by_cases hb : b < 0x80
    · rw [accepts_ascii_append (isAscii_escapeByte hb) (escapeByte_ne_nil b), accepts_ascii_cons hb]
      exact and_congr_right fun _ => ih
    · rw [escapeByte_of_ge hb, List.singleton_append, accepts_cons, accepts_cons]
      exact exists_congr fun q' => and_congr_right fun _ => ih

theorem valid_ascii_cons {b : UInt8} (hb : b < 0x80) (s : Bytes) : Valid (b :: s) ↔ Valid s := by
  simp [Valid, accepts_ascii_cons hb, start, State.owing]

theorem valid_quote {s : Bytes} (h : Valid s) : Valid (quote s) :=
  (valid_ascii_cons (by decide) _).mpr (valid_append (accepts_escape.mpr h) (by decide))

theorem isNumberByte_ascii {b : UInt8} (h : isNumberByte b) : b < 0x80 := by
  revert h
  exact forall_byte (p := fun b => isNumberByte b → b < 0x80) (by decide +kernel) b

theorem valid_member {k : Bytes} (hk : Valid k) {s : Bytes} (hs : Valid s) :
    Valid (quote k ++ chr ':' :: s) :=
  valid_append (valid_quote hk) ((valid_ascii_cons (by decide) _).mpr hs)

mutual

/-- The text of an encodable value is well-formed UTF-8. -/
theorem valid_render : ∀ {j : Json}, (∀ s ∈ j.strings, Valid s) → Valid j.render
  | .null, _ => by decide
  | .bool true, _ => by decide
  | .bool false, _ => by decide
  | .number n, _ => valid_of_isAscii fun b hb => isNumberByte_ascii (n.bytes b hb)
  | .string s, h => valid_quote (h s (by simp [strings]))
  | .array [], _ => by decide
  | .array (j :: js), h => by
    simp only [strings, itemStrings, List.forall_mem_append] at h
    exact (valid_ascii_cons (by decide) _).mpr
      (valid_append (valid_render h.1) (valid_renderItems h.2))
  | .object [], _ => by decide
  | .object ((k, j) :: ms), h => by
    simp only [strings, memberStrings, List.forall_mem_cons, List.forall_mem_append] at h
    exact (valid_ascii_cons (by decide) _).mpr
      (valid_member h.1 (valid_append (valid_render h.2.1) (valid_renderMembers h.2.2)))

theorem valid_renderItems : ∀ {js : List Json}, (∀ s ∈ itemStrings js, Valid s) →
    Valid (renderItems js)
  | [], _ => by decide
  | j :: js, h => by
    simp only [itemStrings, List.forall_mem_append] at h
    exact (valid_ascii_cons (by decide) _).mpr
      (valid_append (valid_render h.1) (valid_renderItems h.2))

theorem valid_renderMembers : ∀ {ms : List (Bytes × Json)}, (∀ s ∈ memberStrings ms, Valid s) →
    Valid (renderMembers ms)
  | [], _ => by decide
  | (k, j) :: ms, h => by
    simp only [memberStrings, List.forall_mem_cons, List.forall_mem_append] at h
    exact (valid_ascii_cons (by decide) _).mpr
      (valid_member h.1 (valid_append (valid_render h.2.1) (valid_renderMembers h.2.2)))

end

/-! ### ASCII -/

theorem isAscii_quote {s : Bytes} (h : IsAscii s) : IsAscii (quote s) := by
  rw [quote, isAscii_cons, isAscii_append]
  refine ⟨by decide, fun c hc => ?_, by decide⟩
  obtain ⟨b, hb, hc⟩ := List.mem_flatMap.mp hc
  exact isAscii_escapeByte (h b hb) c hc

mutual

theorem isAscii_render : ∀ {j : Json}, (∀ s ∈ j.strings, IsAscii s) → IsAscii j.render
  | .null, _ => by decide
  | .bool true, _ => by decide
  | .bool false, _ => by decide
  | .number n, _ => fun b hb => isNumberByte_ascii (n.bytes b hb)
  | .string s, h => isAscii_quote (h s (by simp [strings]))
  | .array [], _ => by decide
  | .array (j :: js), h => by
    simp only [strings, itemStrings, List.forall_mem_append] at h
    simp only [render, isAscii_cons, isAscii_append]
    exact ⟨by decide, isAscii_render h.1, isAscii_renderItems h.2⟩
  | .object [], _ => by decide
  | .object ((k, j) :: ms), h => by
    simp only [strings, memberStrings, List.forall_mem_cons, List.forall_mem_append] at h
    simp only [render, isAscii_cons, isAscii_append]
    exact ⟨by decide, isAscii_quote h.1, by decide, isAscii_render h.2.1,
      isAscii_renderMembers h.2.2⟩

theorem isAscii_renderItems : ∀ {js : List Json}, (∀ s ∈ itemStrings js, IsAscii s) →
    IsAscii (renderItems js)
  | [], _ => by decide
  | j :: js, h => by
    simp only [itemStrings, List.forall_mem_append] at h
    simp only [renderItems, isAscii_cons, isAscii_append]
    exact ⟨by decide, isAscii_render h.1, isAscii_renderItems h.2⟩

theorem isAscii_renderMembers : ∀ {ms : List (Bytes × Json)},
    (∀ s ∈ memberStrings ms, IsAscii s) → IsAscii (renderMembers ms)
  | [], _ => by decide
  | (k, j) :: ms, h => by
    simp only [memberStrings, List.forall_mem_cons, List.forall_mem_append] at h
    simp only [renderMembers, isAscii_cons, isAscii_append]
    exact ⟨by decide, isAscii_quote h.1, by decide, isAscii_render h.2.1,
      isAscii_renderMembers h.2.2⟩

end

theorem valid_quote_append {s t : Bytes} (h : Valid (quote s ++ t)) : Valid s ∧ Valid t := by
  rw [quote, List.cons_append, List.append_assoc, valid_ascii_cons (by decide)] at h
  obtain ⟨hs, ht⟩ := (accepts_append_ascii_cons (by decide) _ _).mp h
  exact ⟨accepts_escape.mp hs, ht⟩

mutual

/-- Well-formed UTF-8 that begins with the text of a value goes on with well-formed UTF-8. -/
theorem valid_of_render_append : ∀ {j : Json} {t : Bytes}, Valid (j.render ++ t) →
    (∀ s ∈ j.strings, Valid s) ∧ Valid t
  | .null, t, h => ⟨by simp [strings], (valid_ascii_append (by decide) t).mp h⟩
  | .bool true, t, h => ⟨by simp [strings], (valid_ascii_append (by decide) t).mp h⟩
  | .bool false, t, h => ⟨by simp [strings], (valid_ascii_append (by decide) t).mp h⟩
  | .number n, t, h =>
    ⟨by simp [strings], (valid_ascii_append (fun b hb => isNumberByte_ascii (n.bytes b hb)) t).mp h⟩
  | .string s, t, h => by
    obtain ⟨hs, ht⟩ := valid_quote_append h
    exact ⟨by simpa [strings] using hs, ht⟩
  | .array [], t, h => ⟨by simp [strings, itemStrings], (valid_ascii_append (by decide) t).mp h⟩
  | .array (j :: js), t, h => by
    rw [render, List.cons_append, valid_ascii_cons (by decide), List.append_assoc] at h
    obtain ⟨hj, hrest⟩ := valid_of_render_append h
    obtain ⟨hjs, ht⟩ := valid_of_renderItems_append hrest
    exact ⟨by simpa only [strings, itemStrings, List.forall_mem_append] using ⟨hj, hjs⟩, ht⟩
  | .object [], t, h => ⟨by simp [strings, memberStrings], (valid_ascii_append (by decide) t).mp h⟩
  | .object ((k, j) :: ms), t, h => by
    rw [render, List.cons_append, valid_ascii_cons (by decide), List.append_assoc] at h
    obtain ⟨hk, hvalue⟩ := valid_quote_append h
    rw [List.cons_append, valid_ascii_cons (by decide), List.append_assoc] at hvalue
    obtain ⟨hj, hrest⟩ := valid_of_render_append hvalue
    obtain ⟨hms, ht⟩ := valid_of_renderMembers_append hrest
    exact ⟨by simpa only [strings, memberStrings, List.forall_mem_cons, List.forall_mem_append] using ⟨hk, hj, hms⟩, ht⟩

theorem valid_of_renderItems_append : ∀ {js : List Json} {t : Bytes}, Valid (renderItems js ++ t) →
    (∀ s ∈ itemStrings js, Valid s) ∧ Valid t
  | [], t, h => ⟨by simp [itemStrings], (valid_ascii_append (by decide) t).mp h⟩
  | j :: js, t, h => by
    rw [renderItems, List.cons_append, valid_ascii_cons (by decide), List.append_assoc] at h
    obtain ⟨hj, hrest⟩ := valid_of_render_append h
    obtain ⟨hjs, ht⟩ := valid_of_renderItems_append hrest
    exact ⟨by simpa only [itemStrings, List.forall_mem_append] using ⟨hj, hjs⟩, ht⟩

theorem valid_of_renderMembers_append : ∀ {ms : List (Bytes × Json)} {t : Bytes},
    Valid (renderMembers ms ++ t) → (∀ s ∈ memberStrings ms, Valid s) ∧ Valid t
  | [], t, h => ⟨by simp [memberStrings], (valid_ascii_append (by decide) t).mp h⟩
  | (k, j) :: ms, t, h => by
    rw [renderMembers, List.cons_append, valid_ascii_cons (by decide), List.append_assoc] at h
    obtain ⟨hk, hvalue⟩ := valid_quote_append h
    rw [List.cons_append, valid_ascii_cons (by decide), List.append_assoc] at hvalue
    obtain ⟨hj, hrest⟩ := valid_of_render_append hvalue
    obtain ⟨hms, ht⟩ := valid_of_renderMembers_append hrest
    exact ⟨by simpa only [memberStrings, List.forall_mem_cons, List.forall_mem_append] using ⟨hk, hj, hms⟩, ht⟩

end

/-- A value is encodable exactly when its text is well formed. -/
theorem valid_render_iff {j : Json} : Valid j.render ↔ j.Encodable := by
  constructor
  · intro h
    rw [← List.append_nil j.render] at h
    exact (valid_of_render_append h).1
  · exact valid_render

/-! ### The text has no control bytes -/

def Printable (s : Bytes) : Prop := ∀ b ∈ s, ¬ b < 0x20

instance (s : Bytes) : Decidable (Printable s) := inferInstanceAs (Decidable (∀ b ∈ s, ¬ b < 0x20))

@[simp] theorem printable_cons (b : UInt8) (s : Bytes) :
    Printable (b :: s) ↔ ¬ b < 0x20 ∧ Printable s :=
  List.forall_mem_cons

@[simp] theorem printable_append (s t : Bytes) : Printable (s ++ t) ↔ Printable s ∧ Printable t :=
  List.forall_mem_append

theorem printable_quote (s : Bytes) : Printable (quote s) := by
  have hescape : ∀ b, Printable (escapeByte b) :=
    forall_byte (p := fun b => Printable (escapeByte b)) (by decide +kernel)
  refine (printable_cons _ _).mpr ⟨by decide, (printable_append _ _).mpr ⟨?_, by decide⟩⟩
  intro c hc
  obtain ⟨b, -, hb⟩ := List.mem_flatMap.mp hc
  exact hescape b c hb

theorem printable_number (n : Number) : Printable n.text := by
  intro b hb hlt
  have h := forall_byte (p := fun b => isNumberByte b → ¬ b < 0x20)
    (by decide +kernel) b (n.bytes b hb)
  exact h hlt

mutual

theorem printable_render : ∀ j : Json, Printable j.render
  | .null => by decide
  | .bool true => by decide
  | .bool false => by decide
  | .number n => printable_number n
  | .string s => printable_quote s
  | .array [] => by decide
  | .array (j :: js) => by
    simp only [render, printable_cons, printable_append]
    exact ⟨by decide, printable_render j, printable_renderItems js⟩
  | .object [] => by decide
  | .object ((k, j) :: ms) => by
    simp only [render, printable_cons, printable_append]
    exact ⟨by decide, printable_quote k, by decide, printable_render j, printable_renderMembers ms⟩

theorem printable_renderItems : ∀ js : List Json, Printable (renderItems js)
  | [] => by decide
  | j :: js => by
    simp only [renderItems, printable_cons, printable_append]
    exact ⟨by decide, printable_render j, printable_renderItems js⟩

theorem printable_renderMembers : ∀ ms : List (Bytes × Json), Printable (renderMembers ms)
  | [] => by decide
  | (k, j) :: ms => by
    simp only [renderMembers, printable_cons, printable_append]
    exact ⟨by decide, printable_quote k, by decide, printable_render j, printable_renderMembers ms⟩

end

/-- A text of a value is one line. -/
theorem newline_notMem_render (j : Json) : chr '\n' ∉ j.render :=
  fun h => printable_render j _ h (by decide)

/-! ### The text determines the value -/

/-- The byte a piece of string text stands for. -/
def unescapeByte : Bytes → UInt8
  | [b] => b
  | [_, c] =>
    if c = chr 'b' then 0x08
    else if c = chr 't' then 0x09
    else if c = chr 'n' then 0x0A
    else if c = chr 'f' then 0x0C
    else if c = chr 'r' then 0x0D
    else c
  | [_, _, _, _, d, e] =>
    if e ≤ chr '9' then 16 * (d - chr '0') + (e - chr '0') else 16 * (d - chr '0') +
      (e - chr 'a') + 10
  | _ => 0

/-- How long the piece of string text at the head of a text is. -/
def escapeLength : Bytes → ℕ
  | a :: c :: _ => if a = chr '\\' then if c = chr 'u' then 6 else 2 else 1
  | _ => 1

theorem escapeByte_injective {b b' : UInt8} (h : escapeByte b = escapeByte b') : b = b' := by
  have hinv : ∀ c, unescapeByte (escapeByte c) = c :=
    forall_byte (p := fun c => unescapeByte (escapeByte c) = c) (by decide +kernel)
  rw [← hinv b, h, hinv]

/-- A byte is written as itself, or as a backslash and a letter, or in hexadecimal. -/
theorem escapeByte_cases (b : UInt8) :
    (b ≠ chr '"' ∧ b ≠ chr '\\' ∧ escapeByte b = [b]) ∨
      (∃ c, escapeByte b = [chr '\\', c] ∧ c ≠ chr 'u') ∨
      ∃ t, escapeByte b = chr '\\' :: chr 'u' :: t ∧ t.length = 4 := by
  have h := forall_byte (p := fun b => (b ≠ chr '"' ∧ b ≠ chr '\\' ∧ escapeByte b = [b]) ∨
    (escapeByte b = [chr '\\', (escapeByte b).getD 1 0] ∧ (escapeByte b).getD 1 0 ≠ chr 'u') ∨
    (escapeByte b = chr '\\' :: chr 'u' :: (escapeByte b).drop 2 ∧
      ((escapeByte b).drop 2).length = 4))
    (by decide +kernel) b
  exact h.imp id (Or.imp (fun h => ⟨_, h⟩) fun h => ⟨_, h⟩)

theorem escapeLength_escapeByte (b : UInt8) (t : Bytes) :
    escapeLength (escapeByte b ++ t) = (escapeByte b).length := by
  rcases escapeByte_cases b with ⟨-, hb, h⟩ | ⟨c, h, hu⟩ | ⟨u, h, hu⟩
  · rw [h]
    cases t with
    | nil => rfl
    | cons c t => simp [escapeLength, hb]
  · rw [h]
    simp [escapeLength, hu]
  · rw [h]
    simp [escapeLength, hu]

theorem escapeByte_append_inj {b b' : UInt8} {t t' : Bytes}
    (h : escapeByte b ++ t = escapeByte b' ++ t') : b = b' ∧ t = t' := by
  have hlen : (escapeByte b).length = (escapeByte b').length := by
    rw [← escapeLength_escapeByte b t, h, escapeLength_escapeByte]
  obtain ⟨hb, ht⟩ := List.append_inj h hlen
  exact ⟨escapeByte_injective hb, ht⟩

/-- String text does not begin with the closing quote. -/
theorem escapeByte_append_ne_quote (b : UInt8) (t t' : Bytes) :
    escapeByte b ++ t ≠ chr '"' :: t' := by
  have hslash : chr '\\' ≠ chr '"' := by decide
  rcases escapeByte_cases b with ⟨hb, -, h⟩ | ⟨c, h, -⟩ | ⟨u, h, -⟩
  · simp [h, hb]
  · simp [h, hslash]
  · simp [h, hslash]

theorem escape_append_inj {s s' t t' : Bytes}
    (h : s.flatMap escapeByte ++ chr '"' :: t = s'.flatMap escapeByte ++ chr '"' :: t') :
    s = s' ∧ t = t' := by
  induction s generalizing s' with
  | nil =>
    cases s' with
    | nil => simpa using h
    | cons b s' =>
      rw [List.flatMap_cons, List.append_assoc] at h
      exact absurd h.symm (escapeByte_append_ne_quote b _ _)
  | cons b s ih =>
    cases s' with
    | nil =>
      rw [List.flatMap_cons, List.append_assoc] at h
      exact absurd h (escapeByte_append_ne_quote b _ _)
    | cons b' s' =>
      rw [List.flatMap_cons, List.flatMap_cons, List.append_assoc, List.append_assoc] at h
      obtain ⟨rfl, hs⟩ := escapeByte_append_inj h
      obtain ⟨rfl, rfl⟩ := ih hs
      exact ⟨rfl, rfl⟩

theorem quote_append_inj {s s' t t' : Bytes} (h : quote s ++ t = quote s' ++ t') :
    s = s' ∧ t = t' := by
  simp only [quote, List.cons_append, List.append_assoc] at h
  exact escape_append_inj (List.cons.inj h).2

/-- The kind of a value, told by the first byte of its text. -/
def kind : Json → ℕ
  | .null => 0
  | .bool true => 1
  | .bool false => 2
  | .number _ => 3
  | .string _ => 4
  | .array _ => 5
  | .object _ => 6

def firstKind (b : UInt8) : ℕ :=
  if b = chr 'n' then 0 else if b = chr 't' then 1 else if b = chr 'f' then 2
  else if isNumberByte b then 3 else if b = chr '"' then 4 else if b = chr '[' then 5
  else if b = chr '\x7b' then 6 else 7

theorem firstKind_number {b : UInt8} (h : isNumberByte b) : firstKind b = 3 := by
  revert h
  exact forall_byte (p := fun b => isNumberByte b → firstKind b = 3) (by decide +kernel) b

theorem render_eq_cons (j : Json) : ∃ b t, j.render = b :: t ∧ firstKind b = j.kind := by
  cases j with
  | null => exact ⟨_, _, rfl, by decide⟩
  | bool b => cases b <;> exact ⟨_, _, rfl, by decide⟩
  | number n =>
    obtain ⟨b, t, ht⟩ := List.exists_cons_of_ne_nil n.ne_nil
    exact ⟨b, t, ht, firstKind_number (n.bytes b (by simp [ht]))⟩
  | string s => exact ⟨_, _, rfl, (by decide : firstKind (chr '"') = 4)⟩
  | array js => cases js <;> exact ⟨_, _, rfl, (by decide : firstKind (chr '[') = 5)⟩
  | object ms => cases ms <;> exact ⟨_, _, rfl, (by decide : firstKind (chr '\x7b') = 6)⟩

theorem kind_eq_of_append {j j' : Json} {t t' : Bytes} (h : j.render ++ t = j'.render ++ t') :
    j.kind = j'.kind := by
  obtain ⟨b, s, hs, hk⟩ := render_eq_cons j
  obtain ⟨b', s', hs', hk'⟩ := render_eq_cons j'
  rw [hs, hs'] at h
  rw [← hk, ← hk', (List.cons.inj h).1]

/-- No value begins with a byte of kind 7. -/
theorem render_append_ne (j : Json) (t t' : Bytes) {b : UInt8} (hb : firstKind b = 7) :
    b :: t' ≠ j.render ++ t := by
  obtain ⟨c, s, hs, hk⟩ := render_eq_cons j
  rw [hs]
  intro h
  rw [(List.cons.inj h).1, hk] at hb
  cases j with
  | bool b => cases b <;> cases hb
  | _ => cases hb

/-- No number goes on into `t`. -/
def Stops (t : Bytes) : Prop := ∀ b ∈ t.head?, isNumberByte b = false

theorem number_append_inj {n n' : Number} {t t' : Bytes} (ht : Stops t) (ht' : Stops t')
    (h : n.text ++ t = n'.text ++ t') : n = n' ∧ t = t' := by
  have htake : ∀ (n : Number) (t : Bytes), Stops t →
      (n.text ++ t).takeWhile isNumberByte = n.text := by
    intro n t ht
    rw [List.takeWhile_append_of_pos n.bytes]
    cases t with
    | nil => simp
    | cons b t => simp [ht b rfl]
  have hn : n.text = n'.text := by rw [← htake n t ht, h, htake n' t' ht']
  rw [hn] at h
  cases n
  cases n'
  cases hn
  exact ⟨rfl, List.append_cancel_left h⟩

theorem stops_renderItems (js : List Json) (t : Bytes) : Stops (renderItems js ++ t) := by
  cases js with
  | nil => exact fun b hb => by cases hb; decide
  | cons j js => exact fun b hb => by cases hb; decide

theorem stops_renderMembers (ms : List (Bytes × Json)) (t : Bytes) :
    Stops (renderMembers ms ++ t) := by
  cases ms with
  | nil => exact fun b hb => by cases hb; decide
  | cons e ms => exact fun b hb => by cases hb; decide

theorem member_append_inj {k k' t t' : Bytes}
    (h : quote k ++ chr ':' :: t = quote k' ++ chr ':' :: t') : k = k' ∧ t = t' := by
  obtain ⟨hk, ht⟩ := quote_append_inj h
  exact ⟨hk, (List.cons.inj ht).2⟩

theorem array_of_kind {j : Json} (h : j.kind = 5) : ∃ js, j = .array js := by
  cases j with
  | array js => exact ⟨js, rfl⟩
  | bool b => cases b <;> cases h
  | _ => cases h

theorem object_of_kind {j : Json} (h : j.kind = 6) : ∃ ms, j = .object ms := by
  cases j with
  | object ms => exact ⟨ms, rfl⟩
  | bool b => cases b <;> cases h
  | _ => cases h

mutual

/-- A value can be read back from its text, and so can what follows it. -/
theorem render_append_inj : ∀ {j j' : Json} {t t' : Bytes}, Stops t → Stops t' →
    j.render ++ t = j'.render ++ t' → j = j' ∧ t = t'
  | .null, j', t, t', _, _, h => by
    have hk := kind_eq_of_append h
    cases j' with
    | null => exact ⟨rfl, List.append_cancel_left h⟩
    | bool b => cases b <;> cases hk
    | _ => cases hk
  | .bool b, j', t, t', _, _, h => by
    have hk := kind_eq_of_append h
    cases j' with
    | bool b' =>
      cases b <;> cases b' <;> first | exact ⟨rfl, List.append_cancel_left h⟩ | cases hk
    | _ => cases b <;> cases hk
  | .number n, j', t, t', ht, ht', h => by
    have hk := kind_eq_of_append h
    cases j' with
    | number n' =>
      obtain ⟨rfl, hr⟩ := number_append_inj ht ht' h
      exact ⟨rfl, hr⟩
    | bool b => cases b <;> cases hk
    | _ => cases hk
  | .string s, j', t, t', _, _, h => by
    have hk := kind_eq_of_append h
    cases j' with
    | string s' =>
      obtain ⟨rfl, hr⟩ := quote_append_inj h
      exact ⟨rfl, hr⟩
    | bool b => cases b <;> cases hk
    | _ => cases hk
  | .array [], j', t, t', _, _, h => by
    obtain ⟨js', rfl⟩ := array_of_kind (kind_eq_of_append h).symm
    cases js' with
    | nil => exact ⟨rfl, List.append_cancel_left h⟩
    | cons j' js' =>
      simp only [render, List.cons_append, List.append_assoc] at h
      exact absurd (List.cons.inj h).2 (render_append_ne j' _ _ (by decide))
  | .array (j :: js), j', t, t', _, _, h => by
    obtain ⟨js', rfl⟩ := array_of_kind (kind_eq_of_append h).symm
    cases js' with
    | nil =>
      simp only [render, List.cons_append, List.append_assoc] at h
      exact absurd (List.cons.inj h).2.symm (render_append_ne j _ _ (by decide))
    | cons j' js' =>
      simp only [render, List.cons_append, List.append_assoc] at h
      obtain ⟨rfl, hr⟩ := render_append_inj (stops_renderItems js t) (stops_renderItems js' t')
        (List.cons.inj h).2
      obtain ⟨rfl, rfl⟩ := renderItems_append_inj hr
      exact ⟨rfl, rfl⟩
  | .object [], j', t, t', _, _, h => by
    obtain ⟨ms', rfl⟩ := object_of_kind (kind_eq_of_append h).symm
    cases ms' with
    | nil => exact ⟨rfl, List.append_cancel_left h⟩
    | cons e' ms' =>
      simp only [render, quote, List.cons_append, List.append_assoc] at h
      exact absurd (List.cons.inj (List.cons.inj h).2).1 (by decide)
  | .object ((k, j) :: ms), j', t, t', _, _, h => by
    obtain ⟨ms', rfl⟩ := object_of_kind (kind_eq_of_append h).symm
    cases ms' with
    | nil =>
      simp only [render, quote, List.cons_append, List.append_assoc] at h
      exact absurd (List.cons.inj (List.cons.inj h).2).1 (by decide)
    | cons e' ms' =>
      simp only [render, List.cons_append, List.append_assoc] at h
      obtain ⟨rfl, hv⟩ := member_append_inj (List.cons.inj h).2
      obtain ⟨rfl, hr⟩ := render_append_inj (stops_renderMembers ms t)
        (stops_renderMembers ms' t') hv
      obtain ⟨rfl, rfl⟩ := renderMembers_append_inj hr
      exact ⟨rfl, rfl⟩

theorem renderItems_append_inj : ∀ {js js' : List Json} {t t' : Bytes},
    renderItems js ++ t = renderItems js' ++ t' → js = js' ∧ t = t'
  | [], [], t, t', h => ⟨rfl, List.append_cancel_left h⟩
  | [], _ :: _, t, t', h => absurd (List.cons.inj h).1 (by decide)
  | _ :: _, [], t, t', h => absurd (List.cons.inj h).1 (by decide)
  | j :: js, j' :: js', t, t', h => by
    simp only [renderItems, List.cons_append, List.append_assoc] at h
    obtain ⟨rfl, hr⟩ := render_append_inj (stops_renderItems js t) (stops_renderItems js' t')
      (List.cons.inj h).2
    obtain ⟨rfl, rfl⟩ := renderItems_append_inj hr
    exact ⟨rfl, rfl⟩

theorem renderMembers_append_inj : ∀ {ms ms' : List (Bytes × Json)} {t t' : Bytes},
    renderMembers ms ++ t = renderMembers ms' ++ t' → ms = ms' ∧ t = t'
  | [], [], t, t', h => ⟨rfl, List.append_cancel_left h⟩
  | [], _ :: _, t, t', h => absurd (List.cons.inj h).1 (by decide)
  | _ :: _, [], t, t', h => absurd (List.cons.inj h).1 (by decide)
  | (k, j) :: ms, (k', j') :: ms', t, t', h => by
    simp only [renderMembers, List.cons_append, List.append_assoc] at h
    obtain ⟨rfl, hv⟩ := member_append_inj (List.cons.inj h).2
    obtain ⟨rfl, hr⟩ := render_append_inj (stops_renderMembers ms t) (stops_renderMembers ms' t') hv
    obtain ⟨rfl, rfl⟩ := renderMembers_append_inj hr
    exact ⟨rfl, rfl⟩

end

/-- Different values have different texts. -/
theorem render_injective {j j' : Json} (h : j.render = j'.render) : j = j' := by
  have hnil : Stops [] := fun b hb => by cases hb
  have ht : j.render ++ [] = j'.render ++ [] := by rw [h]
  exact (render_append_inj hnil hnil ht).1

end Kasli.Json
