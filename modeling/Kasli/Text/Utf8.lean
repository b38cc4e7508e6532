import Kasli.Text.Bytes

/-! Well-formed UTF-8 as a byte automaton. Between two bytes a decoder knows how
many continuation bytes it is owed and the range of the next one; the tightened
ranges after `E0`, `ED`, `F0` and `F4` rule out overlong forms, surrogates and
values past `10FFFF`. The facts needed of it are about cutting a text: ASCII
bytes are boundaries, and a cut is harmless exactly when the byte after it is not
a continuation byte. -/

namespace Kasli.Utf8

/-- A continuation byte `80..BF`. -/
def isContinuation (b : UInt8) : Bool := 0x80 ≤ b && b ≤ 0xBF

/-- Where a decoder stands. The range of an owed byte is a range of continuation bytes. -/
structure State where
  owed : ℕ
  low : UInt8
  high : UInt8
  low_ge : 0x80 ≤ low
  high_le : high ≤ 0xBF
  deriving DecidableEq

/-- `n` continuation bytes are owed. -/
def State.owing (n : ℕ) : State := ⟨n, 0x80, 0xBF, by decide, by decide⟩

/-- Between two characters. -/
def start : State := .owing 0

/-- The state after the first byte of a character. -/
def lead (b : UInt8) : Option State :=
  if b < 0x80 then some start
  else if b < 0xC2 then none
  else if b < 0xE0 then some (.owing 1)
  else if b = 0xE0 then some ⟨2, 0xA0, 0xBF, by decide, by decide⟩
  else if b = 0xED then some ⟨2, 0x80, 0x9F, by decide, by decide⟩
  else if b < 0xF0 then some (.owing 2)
  else if b = 0xF0 then some ⟨3, 0x90, 0xBF, by decide, by decide⟩
  else if b < 0xF4 then some (.owing 3)
  else if b = 0xF4 then some ⟨3, 0x80, 0x8F, by decide, by decide⟩
  else none

/-- One byte: the next state, or a refusal. -/
def step (q : State) (b : UInt8) : Option State :=
  match q.owed with
  | 0 => lead b
  | n + 1 => if q.low ≤ b ∧ b ≤ q.high then some (.owing n) else none

def run : State → Bytes → Option State
  | q, [] => some q
  | q, b :: s => (step q b).bind fun q' => run q' s

/-- The bytes complete the character `q` stands in and are well formed after it. -/
def Accepts (q : State) (s : Bytes) : Prop := ∃ q' ∈ run q s, q'.owed = 0

/-- `s` is well-formed UTF-8. -/
def Valid (s : Bytes) : Prop := Accepts start s

instance (q : State) (s : Bytes) : Decidable (Accepts q s) :=
  inferInstanceAs (Decidable (∃ q' ∈ run q s, q'.owed = 0))

instance (s : Bytes) : Decidable (Valid s) := inferInstanceAs (Decidable (Accepts start s))

theorem run_append (q : State) (s t : Bytes) :
    run q (s ++ t) = (run q s).bind fun q' => run q' t := by
  induction s generalizing q with
  | nil => rfl
  | cons b s ih => simp only [List.cons_append, run, Option.bind_assoc, ih]

@[simp] theorem accepts_nil (q : State) : Accepts q [] ↔ q.owed = 0 := by simp [Accepts, run]

theorem accepts_cons (q : State) (b : UInt8) (s : Bytes) :
    Accepts q (b :: s) ↔ ∃ q' ∈ step q b, Accepts q' s := by
  simp only [Accepts, run, Option.mem_def, Option.bind_eq_some_iff]
  constructor
  · rintro ⟨q'', ⟨q', hq, hr⟩, h0⟩
    exact ⟨q', hq, q'', hr, h0⟩
  · rintro ⟨q', hq, q'', hr, h0⟩
    exact ⟨q'', ⟨q', hq, hr⟩, h0⟩

theorem accepts_append (q : State) (s t : Bytes) :
    Accepts q (s ++ t) ↔ ∃ q' ∈ run q s, Accepts q' t := by
  simp only [Accepts, run_append, Option.mem_def, Option.bind_eq_some_iff]
  constructor
  · rintro ⟨q'', ⟨q', hq, hr⟩, h0⟩
    exact ⟨q', hq, q'', hr, h0⟩
  · rintro ⟨q', hq, q'', hr, h0⟩
    exact ⟨q'', ⟨q', hq, hr⟩, h0⟩

/-- Between characters all states accept the same bytes. -/
theorem accepts_of_owed_zero {q : State} (hq : q.owed = 0) (s : Bytes) :
    Accepts q s ↔ Valid s := by
  cases s with
  | nil => simp [Valid, start, State.owing, hq]
  | cons b s => simp only [Valid, accepts_cons, step, hq, start, State.owing]

/-! ### ASCII bytes are boundaries -/

theorem lead_ascii {b : UInt8} (hb : b < 0x80) : lead b = some start := by simp [lead, hb]

/-- An ASCII byte is only accepted between characters, and stays there. -/
theorem step_ascii {q q' : State} {b : UInt8} (hb : b < 0x80) :
    step q b = some q' ↔ q.owed = 0 ∧ q' = start := by
  unfold step
  split
  next h => simp [h, lead_ascii hb, eq_comm]
  next n h =>
    have hn : ¬ (q.low ≤ b ∧ b ≤ q.high) := fun hr =>
      absurd (UInt8.le_trans q.low_ge hr.1) (UInt8.not_le.mpr hb)
    simp [h, hn]

/-- A continuation byte is never accepted between characters. -/
theorem lead_continuation {b : UInt8} (hb : isContinuation b) : lead b = none := by
  revert hb
  exact forall_byte (p := fun b => isContinuation b → lead b = none) (by decide +kernel) b

/-- Inside a character only continuation bytes are accepted. -/
theorem continuation_of_step {q q' : State} {b : UInt8} (hq : q.owed ≠ 0) (h : step q b = some q') :
    isContinuation b := by
  unfold step at h
  split at h
  next h0 => exact absurd h0 hq
  next n _ =>
    split_ifs at h with hr
    simp only [isContinuation, Bool.and_eq_true, decide_eq_true_eq]
    exact ⟨UInt8.le_trans q.low_ge hr.1, UInt8.le_trans hr.2 q.high_le⟩

theorem accepts_ascii_cons {q : State} {b : UInt8} (hb : b < 0x80) (s : Bytes) :
    Accepts q (b :: s) ↔ q.owed = 0 ∧ Valid s := by
  simp [accepts_cons, step_ascii hb, Valid]

theorem accepts_ascii_append {q : State} {s : Bytes} (hs : IsAscii s) (hne : s ≠ []) (t : Bytes) :
    Accepts q (s ++ t) ↔ q.owed = 0 ∧ Valid t := by
  induction s generalizing q with
  | nil => exact absurd rfl hne
  | cons b s ih =>
    rw [isAscii_cons] at hs
    rw [List.cons_append, accepts_ascii_cons hs.1]
    rcases s with _ | ⟨c, s⟩
    · rfl
    · rw [show Valid (c :: s ++ t) ↔ _ from ih hs.2 (by simp)]
      simp [start, State.owing]

/-- Before an ASCII byte the text is complete. -/
theorem accepts_append_ascii_cons {q : State} {b : UInt8} (hb : b < 0x80) (s t : Bytes) :
    Accepts q (s ++ b :: t) ↔ Accepts q s ∧ Valid t := by
  simp only [accepts_append, accepts_ascii_cons hb]
  constructor
  · rintro ⟨q', hr, h0, ht⟩
    exact ⟨⟨q', hr, h0⟩, ht⟩
  · rintro ⟨⟨q', hr, h0⟩, ht⟩
    exact ⟨q', hr, h0, ht⟩

theorem valid_ascii_append {s : Bytes} (hs : IsAscii s) (t : Bytes) : Valid (s ++ t) ↔ Valid t := by
  rcases eq_or_ne s [] with rfl | hne
  · rfl
  · rw [Valid, accepts_ascii_append hs hne]
    simp [start, State.owing]

theorem valid_of_isAscii {s : Bytes} (hs : IsAscii s) : Valid s := by
  have h := (valid_ascii_append hs []).mpr (by decide)
  simpa using h

/-- Texts with an ASCII byte between them are complete each. -/
theorem valid_of_intercalate {b : UInt8} (hb : b < 0x80) {l : List Bytes}
    (h : Valid ([b].intercalate l)) : ∀ s ∈ l, Valid s := by
  induction l with
  | nil => simp
  | cons s l ih =>
    cases l with
    | nil => simpa using h
    | cons t l =>
      rw [List.intercalate_cons_cons, List.append_assoc, List.singleton_append] at h
      obtain ⟨hs, hl⟩ := (accepts_append_ascii_cons hb s _).mp h
      exact List.forall_mem_cons.mpr ⟨hs, ih hl⟩

/-! ### Joining and cutting -/

theorem accepts_append_of_valid {q : State} {s t : Bytes} (hs : Accepts q s) (ht : Valid t) :
    Accepts q (s ++ t) := by
  obtain ⟨q', hr, h0⟩ := hs
  exact (accepts_append q s t).mpr ⟨q', hr, (accepts_of_owed_zero h0 t).mpr ht⟩

theorem valid_append {s t : Bytes} (hs : Valid s) (ht : Valid t) : Valid (s ++ t) :=
  accepts_append_of_valid hs ht

theorem valid_flatten {l : List Bytes} (h : ∀ s ∈ l, Valid s) : Valid l.flatten := by
  induction l with
  | nil => decide
  | cons s l ih =>
    rw [List.forall_mem_cons] at h
    exact valid_append h.1 (ih h.2)

/-- A text cut before an ASCII byte, or at its end, is cut between characters. -/
theorem accepts_split {q : State} {s t : Bytes} (h : Accepts q (s ++ t))
    (hb : ∀ b ∈ t.head?, b < 0x80) : Accepts q s ∧ Valid t := by
  obtain ⟨q', hr, ht⟩ := (accepts_append q s t).mp h
  have h0 : q'.owed = 0 := by
    cases t with
    | nil => simpa using ht
    | cons b t => exact ((accepts_ascii_cons (hb b rfl) t).mp ht).1
  exact ⟨⟨q', hr, h0⟩, (accepts_of_owed_zero h0 t).mp ht⟩

/-- A well-formed text may be cut at a point exactly when no continuation byte follows it. -/
theorem valid_take_iff {s t : Bytes} (h : Valid (s ++ t)) :
    Valid s ↔ ∀ b ∈ t.head?, isContinuation b = false := by
  obtain ⟨q, hr, ht⟩ := (accepts_append start s t).mp h
  have hs : Valid s ↔ q.owed = 0 := by
    constructor
    · rintro ⟨q', hr', h0⟩
      rwa [Option.mem_unique hr hr']
    · exact fun h0 => ⟨q, hr, h0⟩
  rw [hs]
  cases t with
  | nil => simpa using ht
  | cons b t =>
    obtain ⟨q', hstep, -⟩ := (accepts_cons q b t).mp ht
    simp only [List.head?_cons, Option.mem_def, Option.some.injEq, forall_eq']
    constructor
    · intro h0
      by_contra hc
      have hlead := lead_continuation (by simpa using hc)
      simp [step, h0, hlead] at hstep
    · intro hc
      by_contra h0
      simp [continuation_of_step h0 hstep] at hc

/-- No character of the text is open at offset `n`. -/
def CleanAt (s : Bytes) (n : ℕ) : Prop := ∀ b ∈ s[n]?, isContinuation b = false

instance (s : Bytes) (n : ℕ) : Decidable (CleanAt s n) := inferInstanceAs (Decidable (∀ b ∈ _, _))

theorem valid_take_iff_cleanAt {s : Bytes} (h : Valid s) (n : ℕ) :
    Valid (s.take n) ↔ CleanAt s n := by
  rw [valid_take_iff (t := s.drop n) (by rwa [List.take_append_drop]), List.head?_drop, CleanAt]

/-- ASCII texts may be cut anywhere. -/
theorem cleanAt_of_isAscii {s : Bytes} (h : IsAscii s) (n : ℕ) : CleanAt s n :=
  (valid_take_iff_cleanAt (valid_of_isAscii h) n).mp
    (valid_of_isAscii fun b hb => h b (List.mem_of_mem_take hb))

end Kasli.Utf8
