import Mathlib.Data.List.Induction

/-! Machines that take a step on an event, or do not accept it. A run is the list of its
events; what a run preserves is shown for one more event at its end. A machine can also end with a
result; then it does not matter in which pieces its events come. -/

namespace Kasli

variable {S E : Type*}

/-- The state after the events, when each is accepted in its turn. -/
def runs (step : S → E → Option S) (s : S) : List E → Option S
  | [] => some s
  | e :: es =>
    match step s e with
    | none => none
    | some s' => runs step s' es

section

variable {step : S → E → Option S} {s s' : S} {e : E} {es es' : List E}

@[simp] theorem runs_nil (step : S → E → Option S) (s : S) : runs step s [] = some s := rfl

theorem runs_cons_eq_some : runs step s (e :: es) = some s' ↔ ∃ t, step s e = some t ∧
    runs step t es = some s' := by
  rw [runs]
  cases step s e with
  | none => simp
  | some t => simp

theorem runs_append (step : S → E → Option S) (s : S) (es es' : List E) :
    runs step s (es ++ es') = (runs step s es).bind fun t => runs step t es' := by
  induction es generalizing s with
  | nil => rfl
  | cons e es ih =>
    rw [List.cons_append, runs, runs]
    cases step s e with
    | none => rfl
    | some t => exact ih t

theorem runs_concat (step : S → E → Option S) (s : S) (es : List E) (e : E) :
    runs step s (es ++ [e]) = (runs step s es).bind fun t => step t e := by
  rw [runs_append]
  congr 1
  funext t
  rw [runs]
  cases step t e with
  | none => rfl
  | some u => rfl

theorem runs_concat_eq_some : runs step s (es ++ [e]) = some s' ↔
    ∃ t, runs step s es = some t ∧ step t e = some s' := by
  rw [runs_concat, Option.bind_eq_some_iff]

theorem runs_append_eq_some : runs step s (es ++ es') = some s' ↔
    ∃ t, runs step s es = some t ∧ runs step t es' = some s' := by
  rw [runs_append, Option.bind_eq_some_iff]

/-- What holds at the start and is kept by every accepted event holds after every run. -/
theorem runs_induction {P : List E → S → Prop} (h0 : P [] s)
    (hstep : ∀ es t e u, runs step s es = some t → P es t → step t e = some u → P (es ++ [e]) u)
    (h : runs step s es = some s') : P es s' := by
  induction es using List.reverseRecOn generalizing s' with
  | nil =>
    obtain rfl := Option.some.inj h
    exact h0
  | append_singleton es e ih =>
    obtain ⟨t, ht, he⟩ := runs_concat_eq_some.mp h
    exact hstep es t e s' ht (ih ht) he

/-- Every step of a run has a property of the state it is taken in. -/
def Steps (step : S → E → Option S) (s : S) (p : S → E → Prop) (es : List E) : Prop :=
  ∀ before e after t, es = before ++ e :: after → runs step s before = some t → p t e

theorem steps_nil {p : S → E → Prop} : Steps step s p [] :=
  fun before _ _ _ h => by simp at h

theorem steps_cons {p : S → E → Prop} {t : S} (ht : step s e = some t) :
    Steps step s p (e :: es) ↔ p s e ∧ Steps step t p es := by
  constructor
  · intro h
    refine ⟨h [] e es s rfl rfl, fun before f after u hes hu =>
      h (e :: before) f after u (by simp [hes]) ?_⟩
    exact runs_cons_eq_some.mpr ⟨t, ht, hu⟩
  · rintro ⟨hfirst, hrest⟩ before f after u hes hu
    cases before with
    | nil =>
      obtain ⟨rfl, -⟩ := List.cons.inj hes
      obtain rfl := Option.some.inj hu
      exact hfirst
    | cons g before =>
      obtain ⟨rfl, htail⟩ := List.cons.inj hes
      obtain ⟨v, hv, hu⟩ := runs_cons_eq_some.mp hu
      obtain rfl := Option.some.inj (ht.symm.trans hv)
      exact hrest before f after u htail hu

theorem steps_concat {p : S → E → Prop} {t : S} (ht : runs step s es = some t) :
    Steps step s p (es ++ [e]) ↔ Steps step s p es ∧ p t e := by
  constructor
  · intro h
    refine ⟨fun before f after u hes hu => h before f (after ++ [e]) u (by simp [hes]) hu, ?_⟩
    exact h es e [] t rfl ht
  · rintro ⟨hsteps, hlast⟩ before f after u hes hu
    rcases List.eq_nil_or_concat after with rfl | ⟨after, g, rfl⟩
    · obtain ⟨rfl, he⟩ := List.append_inj' hes rfl
      obtain rfl := List.singleton_inj.mp he
      obtain rfl := Option.some.inj (ht.symm.trans hu)
      exact hlast
    · have hes' : es ++ [e] = (before ++ f :: after) ++ [g] := by simpa using hes
      exact hsteps before f after u (List.append_inj' hes' rfl).1 hu

end

/-! ### Reading until a result -/

section

variable {A R : Type*}

/-- One step an item: go on in a state, or end with a result. -/
def scan (step : S → A → S ⊕ R) (s : S) : List A → S ⊕ R
  | [] => .inl s
  | a :: l =>
    match step s a with
    | .inl s' => scan step s' l
    | .inr r => .inr r

variable (step : S → A → S ⊕ R)

theorem scan_cons (s : S) (a : A) (l : List A) : scan step s (a :: l) =
    match step s a with
    | .inl s' => scan step s' l
    | .inr r => .inr r := rfl

theorem scan_append (s : S) (l l' : List A) : scan step s (l ++ l') =
    match scan step s l with
    | .inl s' => scan step s' l'
    | .inr r => .inr r := by
  induction l generalizing s with
  | nil => rfl
  | cons a l ih =>
    rw [List.cons_append, scan_cons, scan_cons]
    cases step s a with
    | inl s' => exact ih s'
    | inr r => rfl

end

end Kasli
