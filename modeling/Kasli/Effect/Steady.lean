import Kasli.Effect.Run

/-! Computations that do not look at the history. What they add, as far as it is looked at, and
how they end is the same after every history. -/

namespace Kasli.Run

variable {A V ε α β : Type}

def Steady (view : A → Option V) (m : Run A ε α) : Prop := ∀ σ σ' : List A,
  (m.run σ).1.filterMap view = (m.run σ').1.filterMap view ∧ (m.run σ).2 = (m.run σ').2

variable {view : A → Option V} {m : Run A ε α}

theorem steady_pure (a : α) : Steady view (pure a : Run A ε α) := fun _ _ => ⟨rfl, rfl⟩

theorem steady_emit (a : A) : Steady view (emit a : Run A ε Unit) := fun _ _ => ⟨rfl, rfl⟩

theorem steady_ask (x : Except ε α) : Steady view (ask fun _ => x : Run A ε α) :=
  fun _ _ => ⟨rfl, rfl⟩

theorem Steady.bind {f : α → Run A ε β} (hm : Steady view m) (hf : ∀ a, Steady view (f a)) :
    Steady view (m >>= f) := by
  intro σ σ'
  obtain ⟨hadd, hend⟩ := hm σ σ'
  rcases h : m.run σ with ⟨s, x⟩
  rcases h' : m.run σ' with ⟨s', x'⟩
  rw [h, h'] at hadd hend
  obtain rfl : x = x' := hend
  cases x with
  | error e =>
    rw [run_bind_of_error h, run_bind_of_error h']
    exact ⟨hadd, rfl⟩
  | ok a =>
    obtain ⟨hadd', hend'⟩ := hf a (σ ++ s) (σ' ++ s')
    rw [run_bind_of_ok h, run_bind_of_ok h']
    exact ⟨by rw [List.filterMap_append, List.filterMap_append, hadd, hadd'], hend'⟩

theorem Steady.tryCatch {g : ε → Run A ε α} (hm : Steady view m) (hg : ∀ e, Steady view (g e)) :
    Steady view (tryCatch m g) := by
  intro σ σ'
  obtain ⟨hadd, hend⟩ := hm σ σ'
  rcases h : m.run σ with ⟨s, x⟩
  rcases h' : m.run σ' with ⟨s', x'⟩
  rw [h, h'] at hadd hend
  obtain rfl : x = x' := hend
  cases x with
  | ok a =>
    rw [run_tryCatch_of_ok h, run_tryCatch_of_ok h']
    exact ⟨hadd, rfl⟩
  | error e =>
    obtain ⟨hadd', hend'⟩ := hg e (σ ++ s) (σ' ++ s')
    rw [run_tryCatch_of_error h, run_tryCatch_of_error h']
    exact ⟨by rw [List.filterMap_append, List.filterMap_append, hadd, hadd'], hend'⟩

end Kasli.Run
