import Kasli.Effect.Run

/-! Two computations side by side. They are related when, after histories that look the
same, they add actions that look the same and end alike: with related values, or with the
same exception. What an action looks like is a parameter. -/

namespace Kasli

/-- Two ends: related values, or one exception. -/
inductive Ends {ε α β : Type} (R : α → β → Prop) : Except ε α → Except ε β → Prop
  | ok {a : α} {b : β} (h : R a b) : Ends R (.ok a) (.ok b)
  | error (e : ε) : Ends R (.error e) (.error e)

theorem ends_refl {ε α : Type} {R : α → α → Prop} (hR : ∀ a, R a a) (x : Except ε α) :
    Ends R x x := by
  cases x with
  | ok a => exact .ok (hR a)
  | error e => exact .error e

theorem Ends.eq {ε α : Type} {x y : Except ε α} (h : Ends Eq x y) : x = y := by
  cases h with
  | ok h => rw [h]
  | error e => rfl

namespace Run

variable {A V ε α β γ δ : Type}

def Related (view : A → V) (R : α → β → Prop) (m : Run A ε α) (m' : Run A ε β) : Prop :=
  ∀ σ σ' : List A, σ.map view = σ'.map view →
    (m.run σ).1.map view = (m'.run σ').1.map view ∧ Ends R (m.run σ).2 (m'.run σ').2

variable {view : A → V} {R : α → β → Prop} {Q : γ → δ → Prop} {m : Run A ε α} {m' : Run A ε β}

theorem related_pure {a : α} {b : β} (h : R a b) : Related view R (pure a : Run A ε α) (pure b) :=
  fun _ _ _ => ⟨rfl, .ok h⟩

theorem related_throw (e : ε) : Related view R (throw e : Run A ε α) (throw e) :=
  fun _ _ _ => ⟨rfl, .error e⟩

theorem related_emit {a b : A} (h : view a = view b) :
    Related view (fun _ _ => True) (emit a : Run A ε Unit) (emit b) :=
  fun _ _ _ => ⟨congrArg (fun v => [v]) h, .ok trivial⟩

theorem related_ask {q : List A → Except ε α} {q' : List A → Except ε β}
    (h : ∀ σ σ' : List A, σ.map view = σ'.map view → Ends R (q σ) (q' σ')) :
    Related view R (ask q) (ask q') :=
  fun σ σ' hσ => ⟨rfl, h σ σ' hσ⟩

theorem Related.bind {f : α → Run A ε γ} {f' : β → Run A ε δ} (hm : Related view R m m')
    (hf : ∀ a b, R a b → Related view Q (f a) (f' b)) : Related view Q (m >>= f) (m' >>= f') := by
  intro σ σ' hσ
  obtain ⟨hadd, hend⟩ := hm σ σ' hσ
  rcases h : m.run σ with ⟨s, x⟩
  rcases h' : m'.run σ' with ⟨s', x'⟩
  rw [h, h'] at hadd hend
  cases hend with
  | error e =>
    rw [run_bind_of_error h, run_bind_of_error h']
    exact ⟨hadd, .error e⟩
  | ok hab =>
    obtain ⟨hadd', hend'⟩ := hf _ _ hab (σ ++ s) (σ' ++ s')
      (by rw [List.map_append, List.map_append, hσ, hadd])
    rw [run_bind_of_ok h, run_bind_of_ok h']
    exact ⟨by rw [List.map_append, List.map_append, hadd, hadd'], hend'⟩

theorem Related.tryCatch {g : ε → Run A ε α} {g' : ε → Run A ε β} (hm : Related view R m m')
    (hg : ∀ e, Related view R (g e) (g' e)) : Related view R (tryCatch m g) (tryCatch m' g') := by
  intro σ σ' hσ
  obtain ⟨hadd, hend⟩ := hm σ σ' hσ
  rcases h : m.run σ with ⟨s, x⟩
  rcases h' : m'.run σ' with ⟨s', x'⟩
  rw [h, h'] at hadd hend
  cases hend with
  | ok hab =>
    rw [run_tryCatch_of_ok h, run_tryCatch_of_ok h']
    exact ⟨hadd, .ok hab⟩
  | error e =>
    obtain ⟨hadd', hend'⟩ := hg e (σ ++ s) (σ' ++ s')
      (by rw [List.map_append, List.map_append, hσ, hadd])
    rw [run_tryCatch_of_error h, run_tryCatch_of_error h']
    exact ⟨by rw [List.map_append, List.map_append, hadd, hadd'], hend'⟩

end Run

end Kasli
