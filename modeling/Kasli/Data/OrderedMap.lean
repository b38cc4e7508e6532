import Mathlib.Data.List.Basic
import Mathlib.Data.List.Induction
import Mathlib.Data.List.Nodup
import Mathlib.Order.Basic

/-! Ordered maps (`std::map`): entries in strictly increasing key order. `emplace`
keeps the entry a key already has, so a map built from a list of pairs takes the
first pair of each key; `assign` overwrites. Looking a key up in the map built from
a list is looking it up in the list. -/

namespace Kasli

set_option linter.unusedSectionVars false

variable {K V : Type*}

/-- Entries in strictly increasing key order. -/
structure OrderedMap (K V : Type*) [LT K] where
  entries : List (K × V)
  sorted : entries.Pairwise fun a b => a.1 < b.1

namespace OrderedMap

/-! ### Association lists -/

section Lookup

variable [DecidableEq K]

/-- The first value of a key in a list of pairs. -/
def lookup (k : K) : List (K × V) → Option V
  | [] => none
  | e :: l => if k = e.1 then some e.2 else lookup k l

@[simp] theorem lookup_nil (k : K) : lookup k ([] : List (K × V)) = none := rfl

theorem lookup_cons (k : K) (e : K × V) (l : List (K × V)) :
    lookup k (e :: l) = if k = e.1 then some e.2 else lookup k l := rfl

theorem lookup_append (k : K) (l l' : List (K × V)) :
    lookup k (l ++ l') = (lookup k l).or (lookup k l') := by
  induction l with
  | nil => rfl
  | cons e l ih =>
    rw [List.cons_append, lookup_cons, lookup_cons]
    split_ifs
    · rfl
    · exact ih

theorem lookup_eq_none_of_notMem {k : K} {l : List (K × V)} (h : ∀ e ∈ l, e.1 ≠ k) :
    lookup k l = none := by
  induction l with
  | nil => rfl
  | cons e l ih =>
    rw [lookup_cons, if_neg fun he => h e (by simp) he.symm]
    exact ih fun e he => h e (List.mem_cons_of_mem _ he)

theorem mem_of_lookup {k : K} {v : V} {l : List (K × V)} (h : lookup k l = some v) :
    (k, v) ∈ l := by
  induction l with
  | nil => cases h
  | cons e l ih =>
    rw [lookup_cons] at h
    split_ifs at h with hk
    · obtain rfl := Option.some.inj h
      subst hk
      exact List.mem_cons_self
    · exact List.mem_cons_of_mem _ (ih h)

theorem lookup_eq_some_of_nodup {l : List (K × V)} (hl : (l.map Prod.fst).Nodup) {k : K} {v : V} :
    lookup k l = some v ↔ (k, v) ∈ l := by
  induction l with
  | nil => simp
  | cons e l ih =>
    obtain ⟨he, hl⟩ := List.nodup_cons.mp hl
    rw [lookup_cons, List.mem_cons]
    split_ifs with h
    · subst h
      have hnot : (e.1, v) ∉ l := fun hmem => he (List.mem_map.mpr ⟨(e.1, v), hmem, rfl⟩)
      simp [hnot, Prod.ext_iff, eq_comm]
    · rw [ih hl]
      simp [Prod.ext_iff, h]

end Lookup

variable [LT K]

@[ext] theorem ext {m m' : OrderedMap K V} (h : m.entries = m'.entries) : m = m' := by
  cases m
  cases m'
  simpa using h

instance [DecidableEq K] [DecidableEq V] : DecidableEq (OrderedMap K V) := fun m m' =>
  decidable_of_iff (m.entries = m'.entries) ⟨ext, fun h => h ▸ rfl⟩

def empty : OrderedMap K V := ⟨[], List.Pairwise.nil⟩

variable [DecidableLT K] [DecidableEq K]

/-- Put `(k, v)` in its place; `old` chooses between a value that is there and `v`. -/
def put (old : V → V → V) (k : K) (v : V) : List (K × V) → List (K × V)
  | [] => [(k, v)]
  | e :: m =>
    if k < e.1 then (k, v) :: e :: m
    else if k = e.1 then (e.1, old e.2 v) :: m
    else e :: put old k v m

theorem mem_put {old : V → V → V} {k : K} {v : V} {m : List (K × V)} {e : K × V}
    (h : e ∈ put old k v m) : e.1 = k ∨ e ∈ m := by
  induction m with
  | nil => simp_all [put]
  | cons d m ih =>
    simp only [put] at h
    split_ifs at h with h₁ h₂
    · rcases List.mem_cons.mp h with rfl | h
      · exact .inl rfl
      · exact .inr h
    · rcases List.mem_cons.mp h with rfl | h
      · exact .inl h₂.symm
      · exact .inr (List.mem_cons_of_mem _ h)
    · rcases List.mem_cons.mp h with rfl | h
      · exact .inr (by simp)
      · exact (ih h).imp id (List.mem_cons_of_mem _)

variable [Std.Irrefl (· < · : K → K → Prop)] [Std.Trichotomous (· < · : K → K → Prop)]
  [Trans (· < · : K → K → Prop) (· < ·) (· < ·)]

theorem lt_of_not_lt {a b : K} (h : ¬ a < b) (hne : a ≠ b) : b < a := by
  by_contra hlt
  exact hne (Std.Trichotomous.trichotomous a b h hlt)

theorem sorted_put (old : V → V → V) (k : K) (v : V) {m : List (K × V)}
    (hm : m.Pairwise fun a b => a.1 < b.1) : (put old k v m).Pairwise fun a b => a.1 < b.1 := by
  induction m with
  | nil => simp [put]
  | cons d m ih =>
    obtain ⟨hd, hm⟩ := List.pairwise_cons.mp hm
    simp only [put]
    split_ifs with h₁ h₂
    · refine List.pairwise_cons.mpr ⟨?_, List.pairwise_cons.mpr ⟨hd, hm⟩⟩
      intro e he
      rcases List.mem_cons.mp he with rfl | he
      · exact h₁
      · exact Trans.trans (r := (· < ·)) (s := (· < ·)) h₁ (hd e he)
    · exact List.pairwise_cons.mpr ⟨hd, hm⟩
    · refine List.pairwise_cons.mpr ⟨?_, ih hm⟩
      intro e he
      rcases mem_put he with rfl | he
      · exact lt_of_not_lt h₁ h₂
      · exact hd e he

/-- `emplace`: a key that is there keeps its value. -/
def emplace (m : OrderedMap K V) (k : K) (v : V) : OrderedMap K V :=
  ⟨put (fun old _ => old) k v m.entries, sorted_put _ k v m.sorted⟩

/-- `insert_or_assign`. -/
def assign (m : OrderedMap K V) (k : K) (v : V) : OrderedMap K V :=
  ⟨put (fun _ new => new) k v m.entries, sorted_put _ k v m.sorted⟩

def ofList (l : List (K × V)) : OrderedMap K V := l.foldl (fun m e => m.emplace e.1 e.2) empty

def find? (m : OrderedMap K V) (k : K) : Option V := lookup k m.entries

/-! ### Looking up -/

/-- Below the first key nothing is found. -/
theorem lookup_eq_none_of_lt {k : K} {d : K × V} {m : List (K × V)} (h : k < d.1)
    (hd : ∀ e ∈ m, d.1 < e.1) : lookup k (d :: m) = none := by
  apply lookup_eq_none_of_notMem
  intro e he heq
  have hlt : k < e.1 := by
    rcases List.mem_cons.mp he with rfl | he
    · exact h
    · exact Trans.trans (r := (· < ·)) (s := (· < ·)) h (hd e he)
  exact Std.Irrefl.irrefl (r := (· < ·)) _ (heq ▸ hlt)

theorem lookup_put (old : V → V → V) (k : K) (v : V) {m : List (K × V)}
    (hm : m.Pairwise fun a b => a.1 < b.1) (k' : K) :
    lookup k' (put old k v m) =
      if k' = k then some (((lookup k m).map fun a => old a v).getD v) else lookup k' m := by
  induction m with
  | nil => simp [put, lookup_cons]
  | cons d m ih =>
    obtain ⟨hd, hm⟩ := List.pairwise_cons.mp hm
    simp only [put]
    by_cases h₁ : k < d.1
    · rw [if_pos h₁, lookup_cons, lookup_eq_none_of_lt h₁ hd]
      rfl
    · rw [if_neg h₁]
      by_cases h₂ : k = d.1
      · rw [if_pos h₂, lookup_cons, lookup_cons k, if_pos h₂, lookup_cons, ← h₂]
        split_ifs
        · rfl
        · rfl
      · rw [if_neg h₂, lookup_cons, ih hm, lookup_cons k, if_neg h₂, lookup_cons]
        by_cases h₃ : k' = k
        · have h₄ : k' ≠ d.1 := fun h => h₂ (h₃ ▸ h)
          rw [if_neg h₄]
          simp [h₃]
        · rw [if_neg h₃, if_neg h₃]

@[simp] theorem find?_empty (k : K) : (empty : OrderedMap K V).find? k = none := rfl

theorem find?_emplace (m : OrderedMap K V) (k k' : K) (v : V) :
    (m.emplace k v).find? k' = if k' = k then some ((m.find? k).getD v) else m.find? k' := by
  simp only [find?, emplace]
  rw [lookup_put _ k v m.sorted, Option.map_id']

theorem find?_assign (m : OrderedMap K V) (k k' : K) (v : V) :
    (m.assign k v).find? k' = if k' = k then some v else m.find? k' := by
  simp only [find?, assign]
  rw [lookup_put _ k v m.sorted]
  split_ifs with h
  · cases lookup k m.entries <;> rfl
  · rfl

/-- An assignment keeps the entries below and above its key. -/
theorem entries_assign (m : OrderedMap K V) (k : K) (v : V) :
    (m.assign k v).entries = m.entries.filter (·.1 < k) ++ (k, v) ::
      m.entries.filter (k < ·.1) := by
  obtain ⟨l, hl⟩ := m
  simp only [assign]
  induction l with
  | nil => rfl
  | cons d l ih =>
    obtain ⟨hd, hl⟩ := List.pairwise_cons.mp hl
    have hnot : ∀ {a b : K}, a < b → ¬ b < a := fun h h' =>
      Std.Irrefl.irrefl (r := (· < ·)) _ (Trans.trans (r := (· < ·)) (s := (· < ·)) h h')
    have hbelow : ∀ e ∈ l, k < d.1 ∨ k = d.1 → k < e.1 := by
      rintro e he (hlt | rfl)
      · exact Trans.trans (r := (· < ·)) (s := (· < ·)) hlt (hd e he)
      · exact hd e he
    have hnone : k < d.1 ∨ k = d.1 → l.filter (·.1 < k) = [] ∧ l.filter (k < ·.1) = l := fun h =>
      ⟨List.filter_eq_nil_iff.mpr fun e he => by simpa using hnot (hbelow e he h),
        List.filter_eq_self.mpr fun e he => by simpa using hbelow e he h⟩
    simp only [put]
    split_ifs with h₁ h₂
    · obtain ⟨hlt, hgt⟩ := hnone (.inl h₁)
      rw [List.filter_cons_of_neg (by simpa using hnot h₁),
        List.filter_cons_of_pos (by simpa using h₁), hlt, hgt]
      rfl
    · obtain ⟨hlt, hgt⟩ := hnone (.inr h₂)
      subst h₂
      have hirrefl := Std.Irrefl.irrefl (r := (· < ·)) d.1
      rw [List.filter_cons_of_neg (by simpa using hirrefl),
        List.filter_cons_of_neg (by simpa using hirrefl), hlt, hgt]
      rfl
    · have hlt := lt_of_not_lt h₁ h₂
      rw [ih hl, List.filter_cons_of_pos (by simpa using hlt),
        List.filter_cons_of_neg (by simpa using h₁)]
      rfl

theorem find?_foldl (m : OrderedMap K V) (l : List (K × V)) (k : K) :
    (l.foldl (fun m e => m.emplace e.1 e.2) m).find? k = (m.find? k).or (lookup k l) := by
  induction l generalizing m with
  | nil => simp
  | cons e l ih =>
    rw [List.foldl_cons, ih, find?_emplace, lookup_cons]
    split_ifs with h
    · subst h
      cases m.find? e.1 <;> rfl
    · rfl

/-- The first pair of a key is the one that counts. -/
theorem find?_ofList (l : List (K × V)) (k : K) : (ofList l).find? k = lookup k l := by
  rw [ofList, find?_foldl, find?_empty, Option.none_or]

theorem mem_entries_iff {m : OrderedMap K V} {k : K} {v : V} :
    (k, v) ∈ m.entries ↔ m.find? k = some v := by
  obtain ⟨l, hl⟩ := m
  simp only [find?]
  induction l with
  | nil => simp
  | cons e l ih =>
    obtain ⟨he, hl⟩ := List.pairwise_cons.mp hl
    rw [List.mem_cons, lookup_cons]
    split_ifs with h
    · subst h
      have hnot : (e.1, v) ∉ l :=
        fun hmem => Std.Irrefl.irrefl (r := (· < ·)) e.1 (he (e.1, v) hmem)
      simp [hnot, Prod.ext_iff, eq_comm]
    · rw [ih hl]
      simp [Prod.ext_iff, h]

theorem mem_of_mem_ofList {l : List (K × V)} {e : K × V} (h : e ∈ (ofList l).entries) : e ∈ l := by
  obtain ⟨k, v⟩ := e
  rw [mem_entries_iff, find?_ofList] at h
  exact mem_of_lookup h

/-- A list with distinct keys has the entries of its map. -/
theorem mem_entries_ofList {l : List (K × V)} (hl : (l.map Prod.fst).Nodup) {e : K × V} :
    e ∈ (ofList l).entries ↔ e ∈ l := by
  obtain ⟨k, v⟩ := e
  rw [mem_entries_iff, find?_ofList, lookup_eq_some_of_nodup hl]

/-! ### Maps with the same lookups -/

theorem nodup_keys (m : OrderedMap K V) : (m.entries.map Prod.fst).Nodup := by
  rw [List.Nodup, List.pairwise_map]
  refine m.sorted.imp fun {a b} hlt heq => ?_
  rw [heq] at hlt
  exact Std.Irrefl.irrefl (r := (· < ·)) _ hlt

theorem eq_of_find? {m m' : OrderedMap K V} (h : ∀ k, m.find? k = m'.find? k) : m = m' := by
  apply ext
  have hmem : ∀ e, e ∈ m.entries ↔ e ∈ m'.entries :=
    fun e => by rw [mem_entries_iff, mem_entries_iff, h]
  have hperm := (List.perm_ext_iff_of_nodup (List.Nodup.of_map _ m.nodup_keys)
    (List.Nodup.of_map _ m'.nodup_keys)).mpr hmem
  refine List.Perm.eq_of_pairwise (fun a b _ _ hab hba => ?_) m.sorted m'.sorted hperm
  exact absurd (Trans.trans (r := (· < ·)) (s := (· < ·)) hab hba)
    (Std.Irrefl.irrefl (r := (· < ·)) _)

/-- A map is built again from its entries. -/
theorem ofList_entries (m : OrderedMap K V) : ofList m.entries = m :=
  eq_of_find? fun k => find?_ofList m.entries k

/-- The map after the assignments, one after another: the last one of a key counts. -/
def ofAssigns (l : List (K × V)) : OrderedMap K V := l.foldl (fun m e => m.assign e.1 e.2) empty

theorem find?_foldl_assign (m : OrderedMap K V) (l : List (K × V)) (k : K) :
    (l.foldl (fun m e => m.assign e.1 e.2) m).find? k = (lookup k l.reverse).or (m.find? k) := by
  induction l using List.reverseRecOn with
  | nil => simp
  | append_singleton l e ih =>
    rw [List.foldl_append, List.foldl_cons, List.foldl_nil, find?_assign, ih, List.reverse_append,
      List.reverse_singleton, List.singleton_append, lookup_cons]
    split_ifs
    · rfl
    · rfl

theorem ofAssigns_entries (m : OrderedMap K V) : ofAssigns m.entries = m := by
  refine eq_of_find? fun k => ?_
  rw [ofAssigns, find?_foldl_assign, find?_empty, Option.or_none]
  have hnodup : (m.entries.reverse.map Prod.fst).Nodup := by
    rw [List.map_reverse]
    exact List.nodup_reverse.mpr m.nodup_keys
  refine Option.ext fun v => ?_
  rw [lookup_eq_some_of_nodup hnodup, List.mem_reverse, mem_entries_iff]

end OrderedMap

end Kasli
