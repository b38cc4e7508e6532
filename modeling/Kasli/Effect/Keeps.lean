import Kasli.Effect.Run

/-! Invariants of histories. A computation keeps one that holds of the history after each of its
runs, however the run ends, when it held before. -/

namespace Kasli.Run

variable {A ε α β ι : Type} {I : List A → Prop} {m : Run A ε α} {f : α → Run A ε β}
  {g : ε → Run A ε α}

def Keeps (I : List A → Prop) (m : Run A ε α) : Prop := ∀ σ, I σ → I (σ ++ (m.run σ).1)

theorem keeps_of_nil (h : ∀ σ, (m.run σ).1 = []) : Keeps I m := by
  intro σ hσ
  rw [h, List.append_nil]
  exact hσ

theorem keeps_pure (a : α) : Keeps I (pure a : Run A ε α) := keeps_of_nil fun _ => rfl

theorem keeps_throw (e : ε) : Keeps I (throw e : Run A ε α) := keeps_of_nil fun _ => rfl

theorem Keeps.bind (hm : Keeps I m) (hf : ∀ a, Keeps I (f a)) : Keeps I (m >>= f) := by
  intro σ hσ
  have hfirst := hm σ hσ
  rcases hrun : m.run σ with ⟨s, e | a⟩
  · rw [hrun] at hfirst
    rw [run_bind_of_error hrun]
    exact hfirst
  · rw [hrun] at hfirst
    rw [run_bind_of_ok hrun, ← List.append_assoc]
    exact hf a _ hfirst

theorem Keeps.tryCatch (hm : Keeps I m) (hg : ∀ e, Keeps I (g e)) : Keeps I (tryCatch m g) := by
  intro σ hσ
  have hfirst := hm σ hσ
  rcases hrun : m.run σ with ⟨s, e | a⟩
  · rw [hrun] at hfirst
    rw [run_tryCatch_of_error hrun, ← List.append_assoc]
    exact hg e _ hfirst
  · rw [hrun] at hfirst
    rw [run_tryCatch_of_ok hrun]
    exact hfirst

/-- What every action of a kind keeps is kept by a computation of such actions. -/
theorem Only.keeps {p : A → Prop} (hm : Only p m) (hp : ∀ σ a, p a → I σ → I (σ ++ [a])) :
    Keeps I m := by
  intro σ hσ
  have hall := hm σ
  generalize (m.run σ).1 = s at hall
  induction s using List.reverseRecOn with
  | nil => rwa [List.append_nil]
  | append_singleton s a ih =>
    rw [← List.append_assoc]
    exact hp _ a (hall a (by simp)) (ih fun b hb => hall b (List.mem_append_left _ hb))

/-- Every action of the history has the property, after those that came before it. -/
def AtEach (P : List A → A → Prop) (σ : List A) : Prop :=
  ∀ before a after, σ = before ++ a :: after → P before a

section

variable {P : List A → A → Prop} {σ : List A} {a : A}

theorem atEach_nil : AtEach P [] := fun _ _ _ h => by simp at h

theorem atEach_concat : AtEach P (σ ++ [a]) ↔ AtEach P σ ∧ P σ a := by
  constructor
  · exact fun h => ⟨fun before b after heq => h before b (after ++ [a]) (by simp [heq]),
      h σ a [] rfl⟩
  · rintro ⟨hbefore, hlast⟩ before b after heq
    rcases List.eq_nil_or_concat after with rfl | ⟨after, c, rfl⟩
    · obtain ⟨rfl, hsame⟩ := List.append_inj' heq rfl
      exact List.singleton_inj.mp hsame ▸ hlast
    · rw [List.concat_eq_append, ← List.cons_append, ← List.append_assoc] at heq
      exact hbefore before b after (List.append_inj' heq rfl).1

end

/-- An invariant that every step keeps holds after every run that starts in it. -/
theorem Keeps.history {step : ι → Run A ε α} (hstep : ∀ i, Keeps I (step i)) {σ : List A} (h : I σ)
    (inputs : List ι) : I (history step σ inputs) :=
  history_induction h fun _ i _ _ hI => hstep i _ hI

end Kasli.Run
