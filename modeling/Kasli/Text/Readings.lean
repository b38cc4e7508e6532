import Kasli.Text.Lines
import Mathlib.Algebra.Group.Nat.Defs
import Mathlib.Data.List.DropRight

/-! What the tools read of the small files of the system: one value without the blanks around it,
and numbers as `std::stoul` and `std::stoull` read them. -/

namespace Kasli

/-! ### Values -/

/-- The blanks that are taken from the beginning of a value. -/
def isIndent (b : UInt8) : Bool := b == chr ' ' || b == chr '\t'

/-- The blanks that are taken from its end. -/
def isTrail (b : UInt8) : Bool := b == chr '\n' || b == chr '\r' || isIndent b

def trim (value : Bytes) : Bytes := (value.rdropWhile isTrail).dropWhile isIndent

/-- `read_text_file`: the first line, and the fallback when nothing is in it or the file cannot be
opened. -/
def readTextFile (text : Option Bytes) (fallback : Bytes) : Bytes :=
  match text with
  | none => fallback
  | some text =>
    let value := trim ((lines text).headD [])
    if value = [] then fallback else value

theorem mem_of_mem_trim {b : UInt8} {value : Bytes} (h : b ∈ trim value) : b ∈ value :=
  (List.rdropWhile_prefix isTrail value).subset ((List.dropWhile_suffix _).subset h)

/-- A value is on one line. -/
theorem newline_notMem_readTextFile {fallback : Bytes} (h : newline ∉ fallback)
    (text : Option Bytes) : newline ∉ readTextFile text fallback := by
  cases text with
  | none => exact h
  | some text =>
    have hhead : newline ∉ (lines text).headD [] := by
      cases hlines : lines text with
      | nil => exact absurd hlines (lines_ne_nil text)
      | cons s l => exact newline_notMem_of_mem_lines (hlines ▸ List.mem_cons_self)
    rw [readTextFile]
    split_ifs
    · exact h
    · exact fun hmem => hhead (mem_of_mem_trim hmem)

/-! ### Numbers -/

/-- The value of a digit, letters from ten on. -/
def digitValue (base : ℕ) (b : UInt8) : Option ℕ :=
  let value :=
    if chr '0' ≤ b ∧ b ≤ chr '9' then some (b.toNat - (chr '0').toNat)
    else if chr 'a' ≤ toLower b ∧ toLower b ≤ chr 'z' then
      some (10 + ((toLower b).toNat - (chr 'a').toNat))
    else none
  value.filter (· < base)

/-- The digits that a text begins with. -/
def leadingDigits (base : ℕ) (s : Bytes) : List ℕ :=
  (s.takeWhile fun b => (digitValue base b).isSome).filterMap (digitValue base)

/-- `0x` before a digit of a hexadecimal number. -/
def dropBasePrefix (base : ℕ) : Bytes → Bytes
  | zero :: x :: digit :: rest =>
    if base = 16 ∧ zero = chr '0' ∧ toLower x = chr 'x' ∧ (digitValue base digit).isSome then
      digit :: rest
    else zero :: x :: digit :: rest
  | s => s

/-- `std::stoull`, which skips spaces before a number and reads no more than its digits. It throws
when there is none or the number is too large; a minus takes it from 2^64. -/
def stoull (base : ℕ) (s : Bytes) : Option ℕ :=
  let s := s.dropWhile isSpace
  let unsigned := if s.head? = some (chr '-') ∨ s.head? = some (chr '+') then s.tail else s
  let digits := leadingDigits base (dropBasePrefix base unsigned)
  let value := digits.foldl (fun value digit => value * base + digit) 0
  if digits = [] ∨ 2 ^ 64 ≤ value then none
  else some (if s.head? = some (chr '-') then (2 ^ 64 - value) % 2 ^ 64 else value)

end Kasli
