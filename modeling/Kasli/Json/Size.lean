import Mathlib.Algebra.BigOperators.Group.List.Basic
import Mathlib.Algebra.GroupWithZero.Nat
import Kasli.Json.Text

/-! The length of a JSON text, counted from the value. A byte of a string takes one, two or
six bytes. -/

namespace Kasli.Json

open Utf8

def escapeSize (b : UInt8) : ℕ :=
  if b = 0x08 ∨ b = 0x09 ∨ b = 0x0A ∨ b = 0x0C ∨ b = 0x0D ∨ b = 0x22 ∨ b = 0x5C then 2
  else if b ≤ 0x1F then 6
  else 1

/-- The length of a string's text between the quotes. -/
def escapedSize (s : Bytes) : ℕ := (s.map escapeSize).sum

def quotedSize (s : Bytes) : ℕ := escapedSize s + 2

theorem length_escapeByte (b : UInt8) : (escapeByte b).length = escapeSize b :=
  forall_byte (p := fun b => (escapeByte b).length = escapeSize b) (by decide +kernel) b

theorem length_quote (s : Bytes) : (quote s).length = quotedSize s := by
  have hescape : (s.flatMap escapeByte).length = escapedSize s := by
    rw [List.length_flatMap]
    simp only [length_escapeByte]
    rfl
  rw [quote, List.length_cons, List.length_append, hescape]
  rfl

@[simp] theorem escapedSize_append (s t : Bytes) :
    escapedSize (s ++ t) = escapedSize s + escapedSize t := by
  rw [escapedSize, List.map_append, List.sum_append]
  rfl

theorem escapeSize_le (b : UInt8) : escapeSize b ≤ 6 :=
  forall_byte (p := fun b => escapeSize b ≤ 6) (by decide +kernel) b

/-- A byte takes at most six. -/
theorem escapedSize_le (s : Bytes) : escapedSize s ≤ 6 * s.length := by
  rw [escapedSize]
  induction s with
  | nil => simp
  | cons b s ih =>
    have hb := escapeSize_le b
    rw [List.map_cons, List.sum_cons, List.length_cons]
    omega

theorem one_le_escapeSize (b : UInt8) : 1 ≤ escapeSize b :=
  forall_byte (p := fun b => 1 ≤ escapeSize b) (by decide +kernel) b

theorem length_le_escapedSize (s : Bytes) : s.length ≤ escapedSize s := by
  have hone : ∀ size ∈ s.map escapeSize, 1 ≤ size := by simp [one_le_escapeSize]
  simpa [escapedSize] using List.length_le_sum_of_one_le _ hone

@[simp] theorem escapedSize_replicate (n : ℕ) (b : UInt8) :
    escapedSize (List.replicate n b) = n * escapeSize b := by
  simp [escapedSize]

/-! ### Arrays and objects -/

/-- The items of an array, and its commas and brackets. -/
def arraySize (sizes : List ℕ) : ℕ := sizes.sum + (sizes.length - 1) + 2

theorem length_renderItems (js : List Json) :
    (renderItems js).length = (js.map fun j => j.render.length).sum + js.length + 1 := by
  induction js with
  | nil => rfl
  | cons j js ih =>
    rw [renderItems, List.length_cons, List.length_append, ih, List.map_cons, List.sum_cons,
      List.length_cons]
    omega

theorem length_render_array (js : List Json) :
    (Json.array js).render.length = arraySize (js.map fun j => j.render.length) := by
  cases js with
  | nil => rfl
  | cons j js =>
    rw [render, List.length_cons, List.length_append, length_renderItems, arraySize,
      List.map_cons, List.sum_cons, List.length_cons, List.length_map]
    omega

theorem length_renderMembers (ms : List (Bytes × Json)) :
    (renderMembers ms).length = (ms.map fun m => quotedSize m.1 + m.2.render.length + 2).sum +
      1 := by
  induction ms with
  | nil => rfl
  | cons m ms ih =>
    rw [renderMembers, List.length_cons, List.length_append, List.length_cons, List.length_append,
      ih, length_quote, List.map_cons, List.sum_cons]
    omega

/-- A member of an object is counted with its colon and with a comma or, for the first, the
opening brace. -/
theorem length_render_object {ms : List (Bytes × Json)} (h : ms ≠ []) :
    (Json.object ms).render.length = (ms.map fun m => quotedSize m.1 + m.2.render.length + 2).sum +
      1 := by
  cases ms with
  | nil => exact absurd rfl h
  | cons m ms =>
    rw [render, List.length_cons, List.length_append, List.length_cons, List.length_append,
      length_renderMembers, length_quote, List.map_cons, List.sum_cons]
    omega

/-! ### Complaints

What `dump` complains of in a string tells a place in it, so the complaint is short unless the
string is very long. -/

/-- A string that is well formed, or not longer than a bound. -/
def IsBrief (n : ℕ) (s : Bytes) : Prop := Valid s ∨ s.length ≤ n

section

variable {n : ℕ}

theorem length_utf8Fault_le {q : State} {b : UInt8} {i : ℕ} {s what : Bytes}
    (h : utf8Fault q b i s = some what) (hlen : i + s.length < 10 ^ 20) : what.length ≤ 100 := by
  have hhex (b : UInt8) : (hexBytes b).length = 2 := rfl
  induction s generalizing q b i with
  | nil =>
    simp only [utf8Fault] at h
    split_ifs at h
    rw [← Option.some.inj h, List.length_append, hhex]
    decide
  | cons c s ih =>
    simp only [utf8Fault] at h
    rw [List.length_cons] at hlen
    split at h
    · have hindex : (decimal i).length ≤ 20 := by
        rw [decimal, List.length_map]
        exact (Nat.length_toDigits_le_iff (by decide) (by decide)).mpr (by omega)
      have htexts : (ascii "[json.exception.type_error.316] invalid UTF-8 byte at index ").length +
        (ascii ": 0x").length ≤ 70 := by decide
      rw [← Option.some.inj h]
      simp only [List.length_append, hhex]
      omega
    · exact ih h (by omega)

/-- What the exception of `dump` says is short. -/
theorem length_of_dump_error {j : Json} {what : Bytes} (hn : n < 10 ^ 20) (hj : j.Each (IsBrief n))
    (h : j.dump = .error what) : what.length ≤ 100 := by
  rw [dump] at h
  split at h
  · cases h
  · next hfault =>
    obtain rfl := Except.error.inj h
    obtain ⟨s, hs, hfault⟩ := List.exists_of_findSome?_eq_some hfault
    rcases hj s hs with hvalid | hlen
    · rw [utf8Fault_eq_none.mpr hvalid] at hfault
      cases hfault
    · exact length_utf8Fault_le hfault (by omega)

end

end Kasli.Json
