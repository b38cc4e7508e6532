import Mathlib.Data.List.Induction

/-! Computations over a history. A computation is given what has happened so far; it
adds actions to that and ends with a value or an exception. What it added stays when
it throws. The outcome may depend on the whole history, so one computation covers
every behaviour of the parts it asks. -/

namespace Kasli

/-- What a computation adds to a history, and how it ends. -/
structure Run (A ε α : Type) where
  run : List A → List A × Except ε α

namespace Run

variable {A ε α β ι : Type}

def ret (a : α) : Run A ε α := ⟨fun _ => ([], .ok a)⟩

def andThen (m : Run A ε α) (f : α → Run A ε β) : Run A ε β := ⟨fun σ =>
  match m.run σ with
  | (s, .ok a) => (s ++ ((f a).run (σ ++ s)).1, ((f a).run (σ ++ s)).2)
  | (s, .error e) => (s, .error e)⟩

def raise (e : ε) : Run A ε α := ⟨fun _ => ([], .error e)⟩

def handle (m : Run A ε α) (f : ε → Run A ε α) : Run A ε α := ⟨fun σ =>
  match m.run σ with
  | (s, .ok a) => (s, .ok a)
  | (s, .error e) => (s ++ ((f e).run (σ ++ s)).1, ((f e).run (σ ++ s)).2)⟩

instance : Monad (Run A ε) where
  pure := ret
  bind := andThen

instance : MonadExceptOf ε (Run A ε) where
  throw := raise
  tryCatch := handle

/-- Do one action. -/
def emit (a : A) : Run A ε Unit := ⟨fun _ => ([a], .ok ())⟩

/-- Ask something whose answer may depend on all that happened. -/
def ask (q : List A → Except ε α) : Run A ε α := ⟨fun σ => ([], q σ)⟩

variable {m : Run A ε α} {f : α → Run A ε β} {g : ε → Run A ε α} {σ s : List A}

/-! ### Evaluation -/

@[simp] theorem run_pure (a : α) (σ : List A) : (pure a : Run A ε α).run σ = ([], .ok a) := rfl

@[simp] theorem run_throw (e : ε) (σ : List A) : (throw e : Run A ε α).run σ = ([], .error e) := rfl

@[simp] theorem run_emit (a : A) (σ : List A) : (emit a : Run A ε Unit).run σ = ([a], .ok ()) := rfl

@[simp] theorem run_ask (q : List A → Except ε α) (σ : List A) : (ask q).run σ = ([], q σ) := rfl

theorem run_bind_of_ok {a : α} (h : m.run σ = (s, .ok a)) :
    (m >>= f).run σ = (s ++ ((f a).run (σ ++ s)).1, ((f a).run (σ ++ s)).2) := by
  change (andThen m f).run σ = _
  simp only [andThen, h]

theorem run_bind_of_error {e : ε} (h : m.run σ = (s, .error e)) :
    (m >>= f).run σ = (s, .error e) := by
  change (andThen m f).run σ = _
  simp only [andThen, h]

theorem run_tryCatch_of_ok {a : α} (h : m.run σ = (s, .ok a)) :
    (tryCatch m g).run σ = (s, .ok a) := by
  change (handle m g).run σ = _
  simp only [handle, h]

theorem run_tryCatch_of_error {e : ε} (h : m.run σ = (s, .error e)) :
    (tryCatch m g).run σ = (s ++ ((g e).run (σ ++ s)).1, ((g e).run (σ ++ s)).2) := by
  change (handle m g).run σ = _
  simp only [handle, h]

@[simp] theorem pure_bind (a : α) (f : α → Run A ε β) : (pure a >>= f : Run A ε β) = f a := by
  change andThen (ret a) f = f a
  simp [andThen, ret]

@[simp] theorem throw_bind (e : ε) (f : α → Run A ε β) :
    ((throw e : Run A ε α) >>= f) = throw e := rfl

@[simp] theorem run_ask_bind (q : List A → Except ε α) (f : α → Run A ε β) (σ : List A) :
    (ask q >>= f).run σ = match q σ with
      | .ok a => (f a).run σ
      | .error e => ([], .error e) := by
  cases h : q σ with
  | ok a => rw [run_bind_of_ok (s := []) (a := a) (by rw [run_ask, h])]; simp
  | error e => rw [run_bind_of_error (s := []) (e := e) (by rw [run_ask, h])]

@[simp] theorem run_emit_bind (a : A) (f : Unit → Run A ε β) (σ : List A) :
    (emit a >>= f).run σ = (a :: ((f ()).run (σ ++ [a])).1, ((f ()).run (σ ++ [a])).2) := rfl

/-! ### What a composed run has done -/

theorem bind_cases {r : Except ε β} (h : (m >>= f).run σ = (s, r)) :
    (∃ e, m.run σ = (s, .error e) ∧ r = .error e) ∨
      ∃ s₁ a s₂, m.run σ = (s₁, .ok a) ∧ (f a).run (σ ++ s₁) = (s₂, r) ∧ s = s₁ ++ s₂ := by
  rcases hm : m.run σ with ⟨s₁, a | a⟩
  · rw [run_bind_of_error hm] at h
    obtain ⟨rfl, rfl⟩ := Prod.mk.inj h
    exact .inl ⟨a, rfl, rfl⟩
  · rw [run_bind_of_ok hm] at h
    obtain ⟨rfl, rfl⟩ := Prod.mk.inj h
    exact .inr ⟨s₁, a, _, rfl, rfl, rfl⟩

theorem tryCatch_cases {r : Except ε α} (h : (tryCatch m g).run σ = (s, r)) :
    (∃ a, m.run σ = (s, .ok a) ∧ r = .ok a) ∨
      ∃ s₁ e s₂, m.run σ = (s₁, .error e) ∧ (g e).run (σ ++ s₁) = (s₂, r) ∧ s = s₁ ++ s₂ := by
  rcases hm : m.run σ with ⟨s₁, a | a⟩
  · rw [run_tryCatch_of_error hm] at h
    obtain ⟨rfl, rfl⟩ := Prod.mk.inj h
    exact .inr ⟨s₁, a, _, rfl, rfl, rfl⟩
  · rw [run_tryCatch_of_ok hm] at h
    obtain ⟨rfl, rfl⟩ := Prod.mk.inj h
    exact .inl ⟨a, rfl, rfl⟩

/-- A composed run depends on its parts only where they run. -/
theorem run_bind_congr {m' : Run A ε α} {f' : α → Run A ε β} (hm : m.run σ = m'.run σ)
    (hf : ∀ s a, m.run σ = (s, .ok a) → (f a).run (σ ++ s) = (f' a).run (σ ++ s)) :
    (m >>= f).run σ = (m' >>= f').run σ := by
  rcases h : m.run σ with ⟨s, e | a⟩
  · rw [run_bind_of_error h, run_bind_of_error (hm.symm.trans h)]
  · rw [run_bind_of_ok h, run_bind_of_ok (hm.symm.trans h), hf s a h]

theorem run_tryCatch_congr {m' : Run A ε α} (hm : m.run σ = m'.run σ) :
    (tryCatch m g).run σ = (tryCatch m' g).run σ := by
  rcases h : m.run σ with ⟨s, e | a⟩
  · rw [run_tryCatch_of_error h, run_tryCatch_of_error (hm.symm.trans h)]
  · rw [run_tryCatch_of_ok h, run_tryCatch_of_ok (hm.symm.trans h)]

/-- All actions of a computation have a property, after any history. -/
def Only (p : A → Prop) (m : Run A ε α) : Prop := ∀ σ, ∀ a ∈ (m.run σ).1, p a

theorem only_pure (p : A → Prop) (a : α) : Only p (pure a : Run A ε α) := by simp [Only]

theorem only_throw (p : A → Prop) (e : ε) : Only p (throw e : Run A ε α) := by simp [Only]

theorem only_ask (p : A → Prop) (q : List A → Except ε α) : Only p (ask q) := by simp [Only]

theorem only_emit {p : A → Prop} {a : A} (h : p a) : Only p (emit a : Run A ε Unit) := by
  simp [Only, h]

theorem Only.bind {p : A → Prop} (hm : Only p m) (hf : ∀ a, Only p (f a)) : Only p (m >>= f) := by
  intro σ b hb
  rcases hr : (m >>= f).run σ with ⟨s, r⟩
  rw [hr] at hb
  rcases bind_cases hr with ⟨e, h, -⟩ | ⟨s₁, a, s₂, h₁, h₂, rfl⟩
  · exact hm σ b (by rw [h]; exact hb)
  · rcases List.mem_append.mp hb with hb | hb
    · exact hm σ b (by rw [h₁]; exact hb)
    · exact hf a (σ ++ s₁) b (by rw [h₂]; exact hb)

theorem Only.tryCatch {p : A → Prop} (hm : Only p m) (hg : ∀ e, Only p (g e)) :
    Only p (tryCatch m g) := by
  intro σ b hb
  rcases hr : (MonadExcept.tryCatch m g).run σ with ⟨s, r⟩
  rw [hr] at hb
  rcases tryCatch_cases hr with ⟨a, h, -⟩ | ⟨s₁, e, s₂, h₁, h₂, rfl⟩
  · exact hm σ b (by rw [h]; exact hb)
  · rcases List.mem_append.mp hb with hb | hb
    · exact hm σ b (by rw [h₁]; exact hb)
    · exact hg e (σ ++ s₁) b (by rw [h₂]; exact hb)

/-- What a composed run adds begins with what its first part adds. -/
theorem bind_adds {p : A → Prop} (hf : ∀ a, Only p (f a)) (σ : List A) :
    ∃ rest, ((m >>= f).run σ).1 = (m.run σ).1 ++ rest ∧ ∀ a ∈ rest, p a := by
  rcases hr : (m >>= f).run σ with ⟨s, r⟩
  rcases bind_cases hr with ⟨e, h, -⟩ | ⟨s₁, a, s₂, h₁, h₂, rfl⟩
  · exact ⟨[], by rw [h, List.append_nil], by simp⟩
  · exact ⟨s₂, by rw [h₁], fun b hb => hf a (σ ++ s₁) b (by rw [h₂]; exact hb)⟩

theorem tryCatch_adds {p : A → Prop} (hg : ∀ e, Only p (g e)) (σ : List A) :
    ∃ rest, ((tryCatch m g).run σ).1 = (m.run σ).1 ++ rest ∧ ∀ a ∈ rest, p a := by
  rcases hr : (tryCatch m g).run σ with ⟨s, r⟩
  rcases tryCatch_cases hr with ⟨a, h, -⟩ | ⟨s₁, e, s₂, h₁, h₂, rfl⟩
  · exact ⟨[], by rw [h, List.append_nil], by simp⟩
  · exact ⟨s₂, by rw [h₁], fun b hb => hg e (σ ++ s₁) b (by rw [h₂]; exact hb)⟩

/-! ### One input after another -/

/-- The history after serving the inputs in turn; an exception ends only its own input. -/
def history (step : ι → Run A ε α) (σ : List A) (inputs : List ι) : List A :=
  inputs.foldl (fun σ i => σ ++ ((step i).run σ).1) σ

@[simp] theorem history_nil (step : ι → Run A ε α) (σ : List A) : history step σ [] = σ := rfl

theorem history_append (step : ι → Run A ε α) (σ : List A) (is js : List ι) :
    history step σ (is ++ js) = history step (history step σ is) js :=
  List.foldl_append ..

theorem history_concat (step : ι → Run A ε α) (σ : List A) (is : List ι) (i : ι) :
    history step σ (is ++ [i]) =
      history step σ is ++ ((step i).run (history step σ is)).1 :=
  history_append step σ is [i]

theorem history_map {κ : Type} (step : ι → Run A ε α) (g : κ → ι) (σ : List A) (inputs : List κ) :
    history step σ (inputs.map g) = history (fun i => step (g i)) σ inputs :=
  List.foldl_map

/-- What holds at the start and is kept by every step holds after every run. -/
theorem history_induction {step : ι → Run A ε α} {P : List A → Prop} {σ : List A} (h0 : P σ)
    {inputs : List ι}
    (hstep : ∀ is i js, inputs = is ++ i :: js → P (history step σ is) →
      P (history step σ is ++ ((step i).run (history step σ is)).1)) :
    P (history step σ inputs) := by
  induction inputs using List.reverseRecOn with
  | nil => exact h0
  | append_singleton is i ih =>
    rw [history_concat]
    refine hstep is i [] rfl (ih fun is' i' js' h => hstep is' i' (js' ++ [i]) ?_)
    simp [h]

end Run

end Kasli
