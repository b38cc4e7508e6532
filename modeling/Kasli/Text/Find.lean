import Kasli.Text.Bytes

/-! `find` of a string view: the first place at which a text stands. No place before it is one,
which is shown piece by piece. -/

namespace Kasli

/-- The first position from `start` on at which `needle` stands in `s`. -/
def findFrom (s needle : Bytes) (start : ℕ) : Option ℕ :=
  ((List.range (s.length + 1)).drop start).find? fun i => needle <+: s.drop i

def find (s needle : Bytes) : Option ℕ := findFrom s needle 0

/-- `substr(start, stop - start)` -/
def slice (s : Bytes) (start stop : ℕ) : Bytes := (s.drop start).take (stop - start)

section

variable {a b s needle : Bytes} {start i : ℕ}

theorem findFrom_eq_some : findFrom s needle start = some i ↔
    start ≤ i ∧ i ≤ s.length ∧ needle <+: s.drop i ∧ ∀ j, start ≤ j → j < i →
      ¬ needle <+: s.drop j := by
  rw [findFrom, List.range_eq_range', List.drop_range', List.find?_range'_eq_some,
    List.mem_range'_1]
  simp only [decide_eq_true_eq, Bool.not_eq_true', decide_eq_false_iff_not,
    Nat.zero_add, Nat.mul_one]
  constructor
  · rintro ⟨hstands, ⟨hle, hlt⟩, hbefore⟩
    exact ⟨hle, by omega, hstands, hbefore⟩
  · rintro ⟨hle, hlen, hstands, hbefore⟩
    exact ⟨hstands, ⟨hle, by omega⟩, hbefore⟩

/-- What stands before and after what is found. -/
theorem drop_eq_of_findFrom (h : findFrom s needle start = some i) :
    s.drop start = slice s start i ++ (needle ++ s.drop (i + needle.length)) := by
  obtain ⟨hle, -, ⟨b, hb⟩, -⟩ := findFrom_eq_some.mp h
  have hrest : s.drop (i + needle.length) = b := by rw [← List.drop_drop, ← hb, List.drop_left]
  have hdrop : s.drop i = (s.drop start).drop
    (i - start) := by rw [List.drop_drop, Nat.add_sub_cancel' hle]
  rw [hrest, hb, hdrop, slice, List.take_append_drop]

/-- A byte that is found does not stand before. -/
theorem notMem_slice_of_findFrom {c : UInt8} (h : findFrom s [c] start = some i) :
    c ∉ slice s start i := by
  obtain ⟨-, -, -, hbefore⟩ := findFrom_eq_some.mp h
  intro hmem
  obtain ⟨k, hk, hc⟩ := List.mem_iff_getElem.mp hmem
  simp only [slice, List.length_take, List.length_drop] at hk
  simp only [slice, List.getElem_take, List.getElem_drop] at hc
  refine hbefore (start + k) (Nat.le_add_right _ _) (by omega) ?_
  rw [List.drop_eq_getElem_cons (by omega), hc]
  exact ⟨_, rfl⟩

theorem length_slice (hle : start ≤ i) (hlen : i ≤ s.length) :
    (slice s start i).length = i - start := by
  rw [slice, List.length_take, List.length_drop]
  omega

/-! ### Where nothing is found -/

/-- No place in `a` is one at which `needle` stands when `s` follows. -/
def NoStart (needle a s : Bytes) : Prop := ∀ j < a.length, ¬ needle <+: (a ++ s).drop j

theorem noStart_of_notMem {c : UInt8} {n : Bytes} (h : c ∉ a) (s : Bytes) :
    NoStart (c :: n) a s := by
  intro j hj hstands
  obtain ⟨r, hr⟩ := hstands
  rw [List.drop_append_of_le_length (by omega), List.drop_eq_getElem_cons hj] at hr
  exact h ((List.cons.inj hr).1 ▸ List.getElem_mem hj)

theorem noStart_singleton {c : UInt8} (h : ¬ needle <+: c :: s) : NoStart needle [c] s := by
  intro j hj
  obtain rfl : j = 0 := by simpa using hj
  exact h

/-- A byte after which the second one of `needle` does not come. -/
theorem noStart_of_head {c d e : UInt8} {n : Bytes} (h : s.head? ≠ some d) :
    NoStart (c :: d :: n) [e] s :=
  noStart_singleton fun ⟨r, hr⟩ => h <| by
    rw [← (List.cons.inj hr).2]
    rfl

theorem NoStart.append (ha : NoStart needle a (b ++ s)) (hb : NoStart needle b s) :
    NoStart needle (a ++ b) s := by
  intro j hj
  rw [List.append_assoc]
  rcases Nat.lt_or_ge j a.length with hlt | hge
  · exact ha j hlt
  · rw [List.length_append] at hj
    obtain ⟨k, rfl⟩ := Nat.exists_eq_add_of_le hge
    rw [List.drop_append, List.drop_eq_nil_of_le hge, List.nil_append, Nat.add_sub_cancel_left]
    exact hb k (by omega)

/-- What stands after a text in which it does not start is found there. -/
theorem findFrom_of_noStart (h : NoStart needle b s) (hs : needle <+: s) :
    findFrom (a ++ (b ++ s)) needle a.length = some (a.length + b.length) := by
  rw [findFrom_eq_some]
  refine ⟨Nat.le_add_right _ _, by simp only [List.length_append]; omega, ?_, fun j hle hlt => ?_⟩
  · rwa [← List.append_assoc, ← List.length_append, List.drop_left]
  · obtain ⟨k, rfl⟩ := Nat.exists_eq_add_of_le hle
    rw [List.drop_append, List.drop_eq_nil_of_le hle, List.nil_append, Nat.add_sub_cancel_left]
    exact h k (by omega)

theorem find_of_noStart (h : NoStart needle b s) (hs : needle <+: s) :
    find (b ++ s) needle = some b.length := by
  have hfind := @findFrom_of_noStart [] b s needle h hs
  rwa [List.nil_append, List.length_nil, Nat.zero_add] at hfind

theorem slice_append (a b s : Bytes) :
    slice (a ++ (b ++ s)) a.length (a.length + b.length) = b := by
  rw [slice, List.drop_left, Nat.add_sub_cancel_left, List.take_left]

end

end Kasli
