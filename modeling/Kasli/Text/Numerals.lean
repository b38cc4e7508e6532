import Mathlib.Data.Nat.Digits.Defs
import Kasli.Text.Readings

/-! Numbers as `printf` writes them, in a base up to sixteen and with zeros up to a width, and that
`std::stoull` reads them back. -/

namespace Kasli

/-- A digit, letters in upper case. -/
def digitByte (digit : ℕ) : UInt8 := UInt8.ofNat (if digit < 10 then 48 + digit else 55 + digit)

/-- `%0*u` or `%0*X` -/
def numeral (base width n : ℕ) : Bytes :=
  ((Nat.digits base n).reverse.leftpad width 0).map digitByte

/-- What may follow the digits of a number. -/
def EndsNumber (base : ℕ) (rest : Bytes) : Prop :=
  ∀ b ∈ rest.head?, digitValue base b = none ∧ toLower b ≠ chr 'x'

theorem endsNumber_nil (base : ℕ) : EndsNumber base [] := nofun

section

variable {base width n : ℕ}

/-! ### Digits -/

theorem digitValue_digitByte {digit : ℕ} (hbase : base ≤ 16) (h : digit < base) :
    digitValue base (digitByte digit) = some digit := by
  have hall : ∀ base ≤ 16, ∀ digit < base, digitValue base (digitByte digit) = some digit := by
    decide +kernel
  exact hall base hbase digit h

/-- A digit is no blank, no sign and no letter that stands for a base. -/
theorem digitByte_plain {digit : ℕ} (h : digit < 16) : isSpace (digitByte digit) = false ∧
    digitByte digit ≠ chr '-' ∧ digitByte digit ≠ chr '+' ∧
      toLower (digitByte digit) ≠ chr 'x' := by
  have hall : ∀ digit < 16, isSpace (digitByte digit) = false ∧ digitByte digit ≠ chr '-' ∧
      digitByte digit ≠ chr '+' ∧ toLower (digitByte digit) ≠ chr 'x' := by
    decide +kernel
  exact hall digit h

theorem foldl_digits (base n : ℕ) :
    (Nat.digits base n).reverse.foldl (fun value digit => value * base + digit) 0 = n := by
  have hstep : (fun digit value => value * base + digit) = fun digit value =>
      digit + base * value := by
    funext digit value
    rw [Nat.mul_comm value, Nat.add_comm]
  have hvalue := Nat.ofDigits_digits base n
  rw [Nat.ofDigits_eq_foldr] at hvalue
  rw [List.foldl_reverse, hstep]
  exact hvalue

theorem foldl_leftpad (base width : ℕ) (digits : List ℕ) :
    (digits.leftpad width 0).foldl (fun value digit => value * base + digit) 0 =
      digits.foldl (fun value digit => value * base + digit) 0 := by
  have hzeros (k : ℕ) : (List.replicate k 0).foldl (fun value digit => value * base + digit) 0 =
      0 := by
    induction k with
    | zero => rfl
    | succ k ih =>
      rw [List.replicate_succ, List.foldl_cons, Nat.zero_mul, Nat.zero_add]
      exact ih
  rw [List.leftpad, List.foldl_append, hzeros]

/-! ### Reading -/

theorem takeWhile_digits (hbase : base ≤ 16) {digits : List ℕ} (hdigits : ∀ d ∈ digits, d < base)
    {rest : Bytes} (hrest : EndsNumber base rest) :
    leadingDigits base (digits.map digitByte ++ rest) = digits := by
  have hstop : rest.takeWhile (fun b => (digitValue base b).isSome) = [] := by
    cases rest with
    | nil => rfl
    | cons b rest => exact List.takeWhile_cons_of_neg (by simp [(hrest b rfl).1])
  rw [leadingDigits, List.takeWhile_append_of_pos, hstop, List.append_nil, List.filterMap_map]
  · have hsome : ∀ d ∈ digits, (digitValue base ∘ digitByte) d = some d := fun d hd =>
      digitValue_digitByte hbase (hdigits d hd)
    rw [List.filterMap_congr hsome, List.filterMap_some]
  · intro b hb
    obtain ⟨d, hd, rfl⟩ := List.mem_map.mp hb
    rw [digitValue_digitByte hbase (hdigits d hd)]
    rfl

theorem dropBasePrefix_digits (hbase : base ≤ 16) {digits : List ℕ}
    (hdigits : ∀ d ∈ digits, d < base) (hne : digits ≠ []) {rest : Bytes}
    (hrest : EndsNumber base rest) :
    dropBasePrefix base (digits.map digitByte ++ rest) = digits.map digitByte ++ rest := by
  have hx : ∀ x ∈ (digits.map digitByte ++ rest)[1]?, toLower x ≠ chr 'x' := by
    intro x hmem
    cases digits with
    | nil => exact absurd rfl hne
    | cons first others =>
      cases others with
      | nil =>
        cases rest with
        | nil => cases hmem
        | cons b rest => exact (hrest x hmem).2
      | cons second others =>
        cases hmem
        exact (digitByte_plain (Nat.lt_of_lt_of_le (hdigits second (by simp)) hbase)).2.2.2
  generalize digits.map digitByte ++ rest = s at hx
  unfold dropBasePrefix
  split
  next zero x digit rest' =>
    rw [if_neg]
    intro h
    exact hx x rfl h.2.2.1
  next => rfl

theorem mem_digits_lt (hbase : 2 ≤ base) : ∀ d ∈ (Nat.digits base n).reverse.leftpad width 0,
    d < base := by
  intro d hd
  rw [List.leftpad, List.mem_append, List.mem_reverse] at hd
  rcases hd with hd | hd
  · rw [List.eq_of_mem_replicate hd]
    omega
  · exact Nat.digits_lt_base hbase hd

theorem leftpad_ne_nil (hwidth : 0 < width) (digits : List ℕ) : digits.leftpad width 0 ≠ [] := by
  intro h
  have hlength := congrArg List.length h
  rw [List.length_leftpad, List.length_nil] at hlength
  omega

/-- A number of 64 bits is read back. -/
theorem stoull_numeral (hbase : 2 ≤ base) (hbase' : base ≤ 16) (hwidth : 0 < width)
    (hn : n < 2 ^ 64) {rest : Bytes} (hrest : EndsNumber base rest) :
    stoull base (numeral base width n ++ rest) = some n := by
  have hdigits := @mem_digits_lt base width n hbase
  have hne := leftpad_ne_nil hwidth (Nat.digits base n).reverse
  have hvalue := foldl_leftpad base width (Nat.digits base n).reverse
  rw [foldl_digits] at hvalue
  unfold numeral
  generalize (Nat.digits base n).reverse.leftpad width 0 = digits at hdigits hne hvalue
  obtain ⟨first, others, rfl⟩ := List.exists_cons_of_ne_nil hne
  obtain ⟨hspace, hminus, hplus, -⟩ :=
    digitByte_plain (Nat.lt_of_lt_of_le (hdigits first List.mem_cons_self) hbase')
  have htrim : ((first :: others).map digitByte ++ rest).dropWhile isSpace =
      (first :: others).map digitByte ++ rest := List.dropWhile_cons_of_neg (by simp [hspace])
  have hhead : ((first :: others).map digitByte ++ rest).head? = some (digitByte first) := rfl
  unfold stoull
  rw [htrim]
  dsimp only
  rw [hhead]
  simp only [Option.some.injEq, hminus, hplus, or_self, if_false]
  rw [dropBasePrefix_digits hbase' hdigits hne hrest, takeWhile_digits hbase' hdigits hrest, hvalue,
    if_neg (by simp only [hne, false_or, Nat.not_le]; exact hn)]

theorem numeral_ne_nil (hwidth : 0 < width) (n : ℕ) : numeral base width n ≠ [] :=
  fun h => leftpad_ne_nil hwidth _ (List.map_eq_nil_iff.mp h)

/-- A number has no blank in it. -/
theorem isSpace_numeral (hbase : 2 ≤ base) (hbase' : base ≤ 16) :
    ∀ b ∈ numeral base width n, isSpace b = false := by
  intro b hb
  obtain ⟨d, hd, rfl⟩ := List.mem_map.mp hb
  exact (digitByte_plain (Nat.lt_of_lt_of_le (mem_digits_lt hbase d hd) hbase')).1

theorem numeral_inj (hbase : 2 ≤ base) (hbase' : base ≤ 16) (hwidth : 0 < width) {m : ℕ}
    (hm : m < 2 ^ 64) (hn : n < 2 ^ 64) : numeral base width m = numeral base width n ↔ m = n := by
  constructor
  · intro h
    have hread := @stoull_numeral base width m hbase hbase' hwidth hm [] (endsNumber_nil base)
    rw [h, stoull_numeral hbase hbase' hwidth hn (endsNumber_nil base)] at hread
    exact (Option.some.inj hread).symm
  · exact fun h => h ▸ rfl

end

end Kasli
