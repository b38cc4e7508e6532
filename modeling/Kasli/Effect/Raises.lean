import Kasli.Effect.Run

/-! What a computation can throw, and what it can return. A composed run throws what one of its
parts throws; a handler throws in place of what it catches. -/

namespace Kasli.Run

variable {A ε α β : Type}

section

variable {p q : ε → Prop} {m : Run A ε α} {f : α → Run A ε β} {g : ε → Run A ε α}

/-- Whatever is thrown has a property, after any history. -/
def Raises (p : ε → Prop) (m : Run A ε α) : Prop :=
  ∀ σ error, (m.run σ).2 = .error error → p error

theorem raises_pure (a : α) : Raises p (pure a : Run A ε α) := fun _ _ h => by cases h

theorem raises_throw {error : ε} (h : p error) : Raises p (throw error : Run A ε α) := by
  intro σ error' hrun
  cases hrun
  exact h

theorem Raises.bind (hm : Raises p m) (hf : ∀ a, Raises p (f a)) : Raises p (m >>= f) := by
  intro σ error herror
  have hrun : (m >>= f).run σ = (((m >>= f).run σ).1, .error error) := Prod.ext rfl herror
  rcases bind_cases hrun with ⟨e, h, he⟩ | ⟨s₁, a, s₂, -, h, -⟩
  · obtain rfl := Except.error.inj he
    exact hm σ error (by rw [h])
  · exact hf a (σ ++ s₁) error (by rw [h])

/-- What is thrown by the handler of an exception that can be thrown. -/
theorem Raises.tryCatch (hm : Raises q m) (hg : ∀ error, q error → Raises p (g error)) :
    Raises p (tryCatch m g) := by
  intro σ error herror
  have hrun : (MonadExcept.tryCatch m g).run σ =
      (((MonadExcept.tryCatch m g).run σ).1, .error error) := Prod.ext rfl herror
  rcases tryCatch_cases hrun with ⟨a, -, ha⟩ | ⟨s₁, e, s₂, h, hc, -⟩
  · cases ha
  · exact hg e (hm σ e (by rw [h])) (σ ++ s₁) error (by rw [hc])

theorem raises_true : Raises (fun _ => True) m := fun _ _ _ => trivial

end

/-! ### Values and exceptions -/

/-- Whatever is returned has the one property and whatever is thrown the other, after any
history. -/
structure Yields (p : α → Prop) (q : ε → Prop) (m : Run A ε α) : Prop where
  returns : ∀ {σ s a}, m.run σ = (s, .ok a) → p a
  throws : ∀ {σ s e}, m.run σ = (s, .error e) → q e

section

variable {p p' : α → Prop} {r : β → Prop} {q q' : ε → Prop} {m : Run A ε α}
  {f : α → Run A ε β} {g : ε → Run A ε α}

theorem yields_pure {a : α} (h : p a) : Yields p q (pure a : Run A ε α) where
  returns hrun := by cases hrun; exact h
  throws hrun := by cases hrun

theorem yields_throw {e : ε} (h : q e) : Yields p q (throw e : Run A ε α) where
  returns hrun := by cases hrun
  throws hrun := by cases hrun; exact h

theorem yields_emit (a : A) : Yields (fun _ => True) q (emit a : Run A ε Unit) where
  returns _ := trivial
  throws hrun := by cases hrun

theorem yields_ask {ask : List A → Except ε α} (hp : ∀ σ a, ask σ = .ok a → p a)
    (hq : ∀ σ e, ask σ = .error e → q e) : Yields p q (Run.ask ask) where
  returns hrun := hp _ _ (Prod.mk.inj hrun).2
  throws hrun := hq _ _ (Prod.mk.inj hrun).2

theorem Yields.imp (h : Yields p q m) (hp : ∀ a, p a → p' a) (hq : ∀ e, q e → q' e) :
    Yields p' q' m where
  returns hrun := hp _ (h.returns hrun)
  throws hrun := hq _ (h.throws hrun)

theorem Yields.bind (hm : Yields p q m) (hf : ∀ a, p a → Yields r q (f a)) :
    Yields r q (m >>= f) where
  returns hrun := by
    rcases bind_cases hrun with ⟨_, -, he⟩ | ⟨_, a, _, hfirst, hrest, -⟩
    · cases he
    · exact (hf a (hm.returns hfirst)).returns hrest
  throws hrun := by
    rcases bind_cases hrun with ⟨e, hfirst, he⟩ | ⟨_, a, _, hfirst, hrest, -⟩
    · obtain rfl := Except.error.inj he
      exact hm.throws hfirst
    · exact (hf a (hm.returns hfirst)).throws hrest

theorem Yields.tryCatch (hm : Yields p q m) (hg : ∀ e, q e → Yields p q' (g e)) :
    Yields p q' (tryCatch m g) where
  returns hrun := by
    rcases tryCatch_cases hrun with ⟨a, hfirst, ha⟩ | ⟨_, e, _, hfirst, hrest, -⟩
    · obtain rfl := Except.ok.inj ha
      exact hm.returns hfirst
    · exact (hg e (hm.throws hfirst)).returns hrest
  throws hrun := by
    rcases tryCatch_cases hrun with ⟨_, -, ha⟩ | ⟨_, e, _, hfirst, hrest, -⟩
    · cases ha
    · exact (hg e (hm.throws hfirst)).throws hrest

end

end Kasli.Run
