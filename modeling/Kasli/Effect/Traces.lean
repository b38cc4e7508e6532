import Mathlib.Computability.Language
import Mathlib.Order.CompletePartialOrder
import Kasli.Effect.Run

/-! What can be read of the runs of a computation: of each action a letter or nothing, and of a run
a word. The words of the runs that return and those of the runs that throw are in two languages,
and the languages of a composed computation are made of those of its parts. -/

namespace Kasli.Run

open Computability

variable {A B ε α β ι : Type} {read : A → Option B} {L L' K K' : Language B} {m : Run A ε α}
  {f : α → Run A ε β} {g : ε → Run A ε α}

/-- After any history, what is read of a run is in `L` when it returns and in `K` when it
throws. -/
structure Traces (read : A → Option B) (L K : Language B) (m : Run A ε α) : Prop where
  ok : ∀ {σ s a}, m.run σ = (s, .ok a) → s.filterMap read ∈ L
  error : ∀ {σ s e}, m.run σ = (s, .error e) → s.filterMap read ∈ K

theorem Traces.mono (hm : Traces read L K m) (hL : L ≤ L') (hK : K ≤ K') : Traces read L' K' m :=
  ⟨fun hrun => hL (hm.ok hrun), fun hrun => hK (hm.error hrun)⟩

theorem traces_pure (a : α) : Traces read 1 0 (pure a : Run A ε α) := by
  constructor
  · intro σ s b hrun
    cases hrun
    rfl
  · intro σ s e hrun
    cases hrun

theorem traces_throw (e : ε) : Traces read 0 1 (throw e : Run A ε α) := by
  constructor
  · intro σ s b hrun
    cases hrun
  · intro σ s e' hrun
    cases hrun
    rfl

theorem Traces.bind (hm : Traces read L K m) (hf : ∀ a, Traces read L' K' (f a)) :
    Traces read (L * L') (K + L * K') (m >>= f) := by
  constructor
  · intro σ s b hrun
    obtain ⟨e, -, he⟩ | ⟨s₁, a, s₂, hfirst, hsecond, rfl⟩ := bind_cases hrun
    · cases he
    · rw [List.filterMap_append]
      exact Language.append_mem_mul (hm.ok hfirst) ((hf a).ok hsecond)
  · intro σ s e hrun
    rw [Language.mem_add]
    obtain ⟨e', hfirst, -⟩ | ⟨s₁, a, s₂, hfirst, hsecond, rfl⟩ := bind_cases hrun
    · exact .inl (hm.error hfirst)
    · rw [List.filterMap_append]
      exact .inr (Language.append_mem_mul (hm.ok hfirst) ((hf a).error hsecond))

theorem Traces.tryCatch (hm : Traces read L K m) (hg : ∀ e, Traces read L' K' (g e)) :
    Traces read (L + K * L') (K * K') (tryCatch m g) := by
  constructor
  · intro σ s a hrun
    rw [Language.mem_add]
    obtain ⟨a', hfirst, -⟩ | ⟨s₁, e, s₂, hfirst, hsecond, rfl⟩ := tryCatch_cases hrun
    · exact .inl (hm.ok hfirst)
    · rw [List.filterMap_append]
      exact .inr (Language.append_mem_mul (hm.error hfirst) ((hg e).ok hsecond))
  · intro σ s e hrun
    obtain ⟨a, -, ha⟩ | ⟨s₁, e', s₂, hfirst, hsecond, rfl⟩ := tryCatch_cases hrun
    · cases ha
    · rw [List.filterMap_append]
      exact Language.append_mem_mul (hm.error hfirst) ((hg e').error hsecond)

/-- Of a run over inputs one word is read for each of them. -/
theorem Traces.history {step : ι → Run A ε α} (hstep : ∀ i, Traces read L L (step i))
    (inputs : List ι) : (history step [] inputs).filterMap read ∈ L ^ inputs.length := by
  induction inputs using List.reverseRecOn with
  | nil => rfl
  | append_singleton inputs i ih =>
    rw [history_concat, List.filterMap_append, List.length_append, List.length_singleton, pow_succ]
    refine Language.append_mem_mul ih ?_
    rcases hrun : (step i).run (Run.history step [] inputs) with ⟨s, e | a⟩
    · exact (hstep i).error hrun
    · exact (hstep i).ok hrun

end Kasli.Run
