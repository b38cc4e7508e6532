import Mathlib.Data.List.Basic

/-! Strings of bytes. A `std::string` promises nothing about its encoding, so
every string of the program is a list of bytes. ASCII literals of the source are
written as Lean strings and read byte by byte. -/

namespace Kasli

/-- A `std::string`. -/
abbrev Bytes := List UInt8

/-- The byte of an ASCII character. -/
def chr (c : Char) : UInt8 := UInt8.ofNat c.toNat

/-- The bytes of an ASCII literal. -/
def ascii (s : String) : Bytes := s.toList.map chr

/-- Strings are equal when they are found to be. -/
instance (priority := high) lawfulBEqBytes : LawfulBEq Bytes := inferInstance

/-- `c_str`: a C string ends before the first NUL. -/
def cString (s : Bytes) : Bytes := s.takeWhile (· != 0)

/-- `isspace` of the C locale, which is also what `\s` accepts. -/
def isSpace (b : UInt8) : Bool := b == 0x20 || (0x09 ≤ b && b ≤ 0x0D)

/-- `tolower` of the C locale. -/
def toLower (b : UInt8) : UInt8 := if 0x41 ≤ b && b ≤ 0x5A then b + 0x20 else b

section

variable {p : UInt8 → Prop} [DecidablePred p]

/-- What is said of the bytes of a string is decided by going through the string, not through
the 256 bytes. -/
instance (priority := high) decidableForallMem (s : Bytes) : Decidable (∀ b ∈ s, p b) :=
  List.decidableBAll p s

instance (priority := high) decidableForallMemOption (o : Option UInt8) :
    Decidable (∀ b ∈ o, p b) :=
  Option.decidableForallMem o

end

/-- Every byte is below `0x80`. -/
def IsAscii (s : Bytes) : Prop := ∀ b ∈ s, b < 0x80

instance (s : Bytes) : Decidable (IsAscii s) := inferInstanceAs (Decidable (∀ b ∈ s, b < 0x80))

@[simp] theorem isAscii_nil : IsAscii [] := by simp [IsAscii]

@[simp] theorem isAscii_cons (b : UInt8) (s : Bytes) : IsAscii (b :: s) ↔ b < 0x80 ∧ IsAscii s := by
  simp [IsAscii]

@[simp] theorem isAscii_append (s t : Bytes) : IsAscii (s ++ t) ↔ IsAscii s ∧ IsAscii t := by
  simp [IsAscii, or_imp, forall_and]

/-- A property of bytes is checked on the 256 values. -/
theorem forall_byte {p : UInt8 → Prop} (h : ∀ n : Fin 256, p (UInt8.ofFin n))
    (b : UInt8) : p b := by
  have hb := h b.toFin
  rwa [UInt8.ofFin_toFin] at hb

/-! ### Order

Strings are compared as `std::string` compares them, lexicographically. -/

theorem Bytes.lt_irrefl (s : Bytes) : ¬ s < s := List.lt_irrefl s

theorem Bytes.lt_trans {s t u : Bytes} (h : s < t) (h' : t < u) : s < u := List.lt_trans h h'

theorem Bytes.eq_of_not_lt (s t : Bytes) (h : ¬ s < t) (h' : ¬ t < s) : s = t :=
  List.le_antisymm (List.not_lt.mp h') (List.not_lt.mp h)

instance (priority := high) Bytes.irreflLt : Std.Irrefl (α := Bytes) (· < ·) := ⟨Bytes.lt_irrefl⟩

instance (priority := high) Bytes.transLt : Trans (α := Bytes) (β := Bytes) (γ := Bytes) (· < ·)
    (· < ·) (· < ·) :=
  ⟨Bytes.lt_trans⟩

instance (priority := high) Bytes.trichotomousLt : Std.Trichotomous (α := Bytes) (· < ·) :=
  ⟨Bytes.eq_of_not_lt⟩

/-! ### Numbers -/

/-- `std::to_string` of an unsigned number. -/
def decimal (n : ℕ) : Bytes := (Nat.toDigits 10 n).map chr

/-- The byte of a digit. -/
theorem toNat_chr_digit {n : ℕ} {c : Char} (h : c ∈ Nat.toDigits 10 n) :
    (chr c).toNat = c.toNat ∧ 0x30 ≤ c.toNat ∧ c.toNat ≤ 0x39 := by
  have hd := Nat.isDigit_of_mem_toDigits (by decide : 0 < 10) (by decide) h
  simp only [Char.isDigit, Bool.and_eq_true, decide_eq_true_eq] at hd
  have hge : 0x30 ≤ c.toNat := hd.1
  have hle : c.toNat ≤ 0x39 := hd.2
  have hmod : c.toNat % 256 = c.toNat := Nat.mod_eq_of_lt (by omega)
  exact ⟨by rw [chr, UInt8.toNat_ofNat', hmod], hge, hle⟩

theorem digit_of_mem_decimal {n : ℕ} {b : UInt8} (h : b ∈ decimal n) :
    chr '0' ≤ b ∧ b ≤ chr '9' := by
  obtain ⟨c, hc, rfl⟩ := List.mem_map.mp h
  obtain ⟨hb, hge, hle⟩ := toNat_chr_digit hc
  rw [UInt8.le_iff_toNat_le, UInt8.le_iff_toNat_le, hb]
  exact ⟨hge, hle⟩

theorem isAscii_decimal (n : ℕ) : IsAscii (decimal n) := by
  intro b hb
  exact UInt8.lt_of_le_of_lt (digit_of_mem_decimal hb).2 (by decide)

theorem decimal_ne_nil (n : ℕ) : decimal n ≠ [] := by simp [decimal]

theorem decimal_injective : Function.Injective decimal := by
  have hback (n : ℕ) : (decimal n).map (fun b => Char.ofNat b.toNat) = Nat.toDigits 10 n := by
    rw [decimal, List.map_map]
    refine (List.map_congr_left fun c hc => ?_).trans (List.map_id _)
    rw [Function.comp_apply, (toNat_chr_digit hc).1, Char.ofNat_toNat]
    rfl
  intro m n h
  rw [← Nat.ofDigitChars_ten_toDigits (n := m), ← hback, h, hback, Nat.ofDigitChars_ten_toDigits]

end Kasli
