import Kasli.Data.Machine
import Mathlib.Logic.Function.Basic

/-! Servers on one socket path (`ipc/unix_socket.cpp`). A constructor and a destructor are
sequences of system calls, and the calls of several servers on the same path may come in any
order. Every call names the path, not the socket, so a server that has made up its mind to
remove the path removes whatever is there by then. -/

namespace Kasli.Ipc.Server

/-- Why a `connect` fails. -/
inductive ConnectError
  | connRefused
  | noEntry
  | notSocket
  | prototype
  | other (code : ℕ)
  deriving DecidableEq

def isStaleSocketConnectError : ConnectError → Bool
  | .other _ => false
  | _ => true

inductive Descriptor
  | none
  | opened
  | bound
  | listening
  | closed
  deriving DecidableEq

/-- The system call that a server makes next. A server whose constructor has completed is
`serving`; one that is `gone` has thrown or was destroyed. -/
inductive Call
  | pathExists
  | connect
  | removeStale
  | socket
  | bind
  | chmod
  | listen
  | serving
  | close
  | remove
  | gone
  deriving DecidableEq

structure UnixSocketServer where
  next : Call
  fd : Descriptor
  ownsSocketPath : Bool
  deriving DecidableEq

/-- What the path names: nothing, something that was there before the servers, which answers
a `connect` in its own way, or the socket that a server has bound. -/
inductive PathEntry (I : Type*)
  | absent
  | other (answer : Option ConnectError)
  | socket (server : I)
  deriving DecidableEq

structure World (I : Type*) where
  path : PathEntry I
  server : I → UnixSocketServer

/-- A server makes its next call, which the system may fail, or its destructor is entered. -/
inductive Event (I : Type*)
  | call (server : I) (fails : Bool)
  | destroy (server : I)

variable {I : Type*}

/-- Before any of the servers has made a call. -/
def initial (before : Option (Option ConnectError)) : World I where
  path := before.elim .absent .other
  server _ := { next := .pathExists, fd := .none, ownsSocketPath := false }

/-- The error of a `connect` to the path. A socket that does not listen refuses. -/
def World.connectError (w : World I) : Option ConnectError :=
  match w.path with
  | .absent => some .noEntry
  | .other answer => answer
  | .socket i => if (w.server i).fd = .listening then none else some .connRefused

variable [DecidableEq I]

/-- One call of the server `i`: how it goes on, and what the path names then. -/
def UnixSocketServer.call (i : I) (s : UnixSocketServer) (path : PathEntry I)
    (connectError : Option ConnectError) (fails : Bool) : Option (UnixSocketServer × PathEntry I) :=
  match s.next with
  | .pathExists =>
    some ({ s with next := if fails then .gone else if path = .absent then .socket else .connect },
      path)
  | .connect =>
    some ({ s with next :=
      if fails then .gone else if connectError.any isStaleSocketConnectError then .removeStale
        else .gone }, path)
  | .removeStale => some (if fails then ({ s with next := .gone },
      path) else ({ s with next := .socket }, .absent))
  | .socket => some (if fails then { s with next := .gone }
      else { s with next := .bind, fd := .opened }, path)
  | .bind =>
    some (if fails ∨ path ≠ .absent then ({ s with next := .close }, path)
      else ({ next := .chmod, fd := .bound, ownsSocketPath := true }, .socket i))
  | .chmod => some ({ s with next := if fails ∨ path = .absent then .close else .listen }, path)
  | .listen => some (if fails then { s with next := .close }
      else { s with next := .serving, fd := .listening }, path)
  | .close => some ({ s with next := if s.ownsSocketPath then .remove else .gone, fd := .closed },
      path)
  | .remove =>
    some (if fails then ({ s with next := .gone }, path)
      else ({ s with next := .gone, ownsSocketPath := false }, .absent))
  | .serving | .gone => none

def World.set (w : World I) (i : I) (s : UnixSocketServer) (path : PathEntry I) : World I :=
  { path := path, server := Function.update w.server i s }

def step (w : World I) : Event I → Option (World I)
  | .call i fails => ((w.server i).call i w.path w.connectError fails).map fun r => w.set i r.1 r.2
  | .destroy i =>
    if (w.server i).next = .serving then some (w.set i { w.server i with next := .close } w.path)
      else none

/-! ### Who holds the path and who is about to remove it -/

/-- The path was bound by the server, and neither its cleanup nor its destructor has begun. -/
def UnixSocketServer.Holds (s : UnixSocketServer) : Prop := s.next = .chmod ∨ s.next = .listen ∨
    s.next = .serving

/-- The server has made up its mind to remove the path: its probe was refused, or it cleans up after
itself. -/
def UnixSocketServer.Removes (s : UnixSocketServer) : Prop :=
  s.next = .removeStale ∨ s.next = .remove ∨ s.next = .close ∧ s.ownsSocketPath = true

/-- The flag and the descriptor agree with the call that is next. -/
def UnixSocketServer.Formed (s : UnixSocketServer) : Prop :=
  match s.next with
  | .pathExists | .connect | .removeStale | .socket | .bind => s.ownsSocketPath = false
  | .chmod | .listen => s.fd = .bound
  | .serving => s.fd = .listening
  | _ => True

/-- The step is not one of the two that may lose the path: a `bind` to the free path while
another server is about to remove it, and a probe of a socket that is bound and not listening
yet. -/
def Orderly (w : World I) : Event I → Prop
  | .call i fails =>
    ((w.server i).next = .bind → fails = false → w.path = .absent →
      ∀ j ≠ i, ¬ (w.server j).Removes) ∧
      ((w.server i).next = .connect → fails = false → ∀ j, w.path = .socket j →
        (w.server j).next ≠ .chmod ∧ (w.server j).next ≠ .listen)
  | .destroy _ => True

section Calls

variable {i : I} {s s' : UnixSocketServer} {path path' : PathEntry I}
    {connectError : Option ConnectError} {fails : Bool}

theorem formed_call (hs : s.Formed) (h : s.call i path connectError fails = some (s', path')) :
    s'.Formed := by
  obtain ⟨next, fd, owns⟩ := s
  cases next <;> simp only [UnixSocketServer.call, Option.some.injEq, reduceCtorEq] at h <;>
    split_ifs at h <;> cases h <;> simp_all [UnixSocketServer.Formed]

/-- What a call does to the path. -/
theorem path_call (h : s.call i path connectError fails = some (s', path')) :
    path' = path ∨ path' = .absent ∧ s.Removes ∨ path' = .socket i ∧ path = .absent ∧
      s.next = .bind ∧ fails = false := by
  obtain ⟨next, fd, owns⟩ := s
  cases next <;> simp only [UnixSocketServer.call, Option.some.injEq, reduceCtorEq] at h <;>
    split_ifs at h <;> cases h <;> simp_all [UnixSocketServer.Removes]

/-- A server that holds the path held it before the call or has bound it. -/
theorem holds_call (h : s.call i path connectError fails = some (s', path')) (hs' : s'.Holds) :
    s.Holds ∧ path' = path ∨ s.next = .bind ∧ path = .absent ∧ fails = false ∧
      path' = .socket i := by
  obtain ⟨next, fd, owns⟩ := s
  cases next <;> simp only [UnixSocketServer.call, Option.some.injEq, reduceCtorEq] at h <;>
    split_ifs at h <;> cases h <;> simp_all [UnixSocketServer.Holds]

/-- A server comes to remove the path when it held the path, or when its probe was refused. -/
theorem removes_call (hs : s.Formed) (h : s.call i path connectError fails = some (s', path'))
    (hs' : s'.Removes) : path' = path ∧ (s.Removes ∨ s.Holds ∨
      s.next = .connect ∧ fails = false ∧ connectError.any isStaleSocketConnectError = true) := by
  obtain ⟨next, fd, owns⟩ := s
  cases next <;> simp only [UnixSocketServer.call, Option.some.injEq, reduceCtorEq] at h <;>
    split_ifs at h <;> cases h <;>
    simp_all [UnixSocketServer.Holds, UnixSocketServer.Removes, UnixSocketServer.Formed]

end Calls

/-! ### Runs -/

section Worlds

variable {w w' : World I} {i j : I} {e : Event I} {s : UnixSocketServer} {path : PathEntry I}

@[simp] theorem set_path : (w.set i s path).path = path := rfl

@[simp] theorem server_set_self : (w.set i s path).server i = s := Function.update_self ..

@[simp] theorem server_set_of_ne (h : j ≠ i) : (w.set i s path).server j = w.server j :=
  Function.update_of_ne h ..

theorem step_call_eq_some {fails : Bool} (h : step w (.call i fails) = some w') :
    ∃ s path, (w.server i).call i w.path w.connectError fails = some (s, path) ∧
      w' = w.set i s path := by
  obtain ⟨⟨s, path⟩, hr, rfl⟩ := Option.map_eq_some_iff.mp h
  exact ⟨s, path, hr, rfl⟩

theorem step_destroy_eq_some (h : step w (.destroy i) = some w') :
    (w.server i).next = .serving ∧ w' = w.set i { w.server i with next := .close } w.path := by
  rw [step] at h
  split_ifs at h with hs
  exact ⟨hs, (Option.some.inj h).symm⟩

/-- The flags and the descriptors of all servers agree with their next calls. -/
def Formed (w : World I) : Prop := ∀ i, (w.server i).Formed

theorem formed_step (h : Formed w) (hstep : step w e = some w') : Formed w' := by
  intro j
  cases e with
  | call i fails =>
    obtain ⟨s, path, hcall, rfl⟩ := step_call_eq_some hstep
    by_cases hj : j = i
    · subst hj
      rw [server_set_self]
      exact formed_call (h j) hcall
    · rw [server_set_of_ne hj]
      exact h j
  | destroy i =>
    obtain ⟨-, rfl⟩ := step_destroy_eq_some hstep
    by_cases hj : j = i
    · subst hj
      rw [server_set_self]
      trivial
    · rw [server_set_of_ne hj]
      exact h j

/-- The path names the socket of the server that holds it, and nobody else is about to remove it. -/
structure Owned (w : World I) : Prop where
  formed : Formed w
  path : ∀ i, (w.server i).Holds → w.path = .socket i
  apart : ∀ i j, i ≠ j → (w.server i).Removes → ¬ (w.server j).Holds

omit [DecidableEq I] in
theorem Owned.unique (h : Owned w) (hi : (w.server i).Holds) (hj : (w.server j).Holds) : i = j :=
  PathEntry.socket.inj ((h.path i hi).symm.trans (h.path j hj))

omit [DecidableEq I] in
theorem owned_initial (before : Option (Option ConnectError)) :
    Owned (initial before : World I) where
  formed _ := rfl
  path _ h := by simp [initial, UnixSocketServer.Holds] at h
  apart _ _ _ h := by simp [initial, UnixSocketServer.Removes] at h

omit [DecidableEq I] in
/-- A refused probe has not met a server that holds the path, when it has not met one that is
about to listen. -/
theorem not_holds_of_stale (h : Owned w)
    (hstale : w.connectError.any isStaleSocketConnectError = true)
    (horderly : ∀ j, w.path = .socket j → (w.server j).next ≠ .chmod ∧ (w.server j).next ≠ .listen)
    (j : I) : ¬ (w.server j).Holds := by
  intro hj
  have hpath := h.path j hj
  obtain hnext | hnext | hnext := hj
  · exact (horderly j hpath).1 hnext
  · exact (horderly j hpath).2 hnext
  · have hfd : (w.server j).fd =
      .listening := by simpa [UnixSocketServer.Formed, hnext] using h.formed j
    simp [World.connectError, hpath, hfd] at hstale

theorem owned_call {fails : Bool} (h : Owned w) (horderly : Orderly w (.call i fails))
    (hstep : step w (.call i fails) = some w') : Owned w' := by
  have hformed := formed_step h.formed hstep
  obtain ⟨s, path, hcall, rfl⟩ := step_call_eq_some hstep
  -- a call that changes the path leaves it to nobody else
  have hkept : ∀ j ≠ i, (w.server j).Holds → path = w.path := by
    intro j hj hholds
    obtain hsame | ⟨-, hremoves⟩ | ⟨-, habsent, -⟩ := path_call hcall
    · exact hsame
    · exact absurd hholds (h.apart i j hj.symm hremoves)
    · rw [h.path j hholds] at habsent
      cases habsent
  refine ⟨hformed, fun j hj => ?_, fun k j hkj hk hj => ?_⟩
  · rw [set_path]
    by_cases hji : j = i
    · subst hji
      rw [server_set_self] at hj
      obtain ⟨hold, rfl⟩ | ⟨-, -, -, rfl⟩ := holds_call hcall hj
      · exact h.path j hold
      · rfl
    · rw [server_set_of_ne hji] at hj
      rw [hkept j hji hj]
      exact h.path j hj
  · by_cases hki : k = i
    · -- the server that made the call is about to remove the path
      subst hki
      rw [server_set_self] at hk
      rw [server_set_of_ne hkj.symm] at hj
      obtain ⟨-, hremoves | hholds | ⟨hnext, hfails, hstale⟩⟩ := removes_call (h.formed k) hcall hk
      · exact h.apart k j hkj hremoves hj
      · exact hkj (h.unique hholds hj)
      · exact not_holds_of_stale h hstale (horderly.2 hnext hfails) j hj
    · rw [server_set_of_ne hki] at hk
      by_cases hji : j = i
      · -- the server that made the call holds the path
        subst hji
        rw [server_set_self] at hj
        obtain ⟨hold, -⟩ | ⟨hnext, habsent, hfails, -⟩ := holds_call hcall hj
        · exact h.apart k j hkj hk hold
        · exact horderly.1 hnext hfails habsent k hki hk
      · rw [server_set_of_ne hji] at hj
        exact h.apart k j hkj hk hj

theorem owned_destroy (h : Owned w) (hstep : step w (.destroy i) = some w') : Owned w' := by
  have hformed := formed_step h.formed hstep
  obtain ⟨hserving, rfl⟩ := step_destroy_eq_some hstep
  have hclose : ¬ UnixSocketServer.Holds
    { w.server i with next := .close } := by simp [UnixSocketServer.Holds]
  refine ⟨hformed, fun j hj => ?_, fun k j hkj hk hj => ?_⟩
  · by_cases hji : j = i
    · subst hji
      rw [server_set_self] at hj
      exact absurd hj hclose
    · rw [server_set_of_ne hji] at hj
      exact h.path j hj
  · have hji : j ≠ i := by
      rintro rfl
      rw [server_set_self] at hj
      exact hclose hj
    rw [server_set_of_ne hji] at hj
    by_cases hki : k = i
    · subst hki
      exact hkj (h.unique (.inr (.inr hserving)) hj)
    · rw [server_set_of_ne hki] at hk
      exact h.apart k j hkj hk hj

theorem owned_runs {before : Option (Option ConnectError)} {es : List (Event I)}
    (h : Steps step (initial before) Orderly es) (hrun : runs step (initial before) es = some w) :
    Owned w := by
  refine runs_induction (P := fun es w => Steps step (initial before) Orderly es → Owned w)
    (fun _ => owned_initial before) (fun es t e u ht ih hstep hsteps => ?_) hrun h
  have hlast := (steps_concat ht).mp hsteps
  cases e with
  | call i fails => exact owned_call (ih hlast.1) hlast.2 hstep
  | destroy i => exact owned_destroy (ih hlast.1) hstep

/-- In every run of any number of servers whose steps are all orderly, the path names the socket
of a server from the completion of its constructor until its destructor is entered. -/
theorem path_of_serving {before : Option (Option ConnectError)} {es : List (Event I)}
    (hrun : runs step (initial before) es = some w) (h : Steps step (initial before) Orderly es)
    (hserving : (w.server i).next = .serving) : w.path = .socket i :=
  (owned_runs h hrun).path i (.inr (.inr hserving))

/-! ### What a step that is not orderly leads to -/

theorem formed_runs {before : Option (Option ConnectError)} {es : List (Event I)}
    (hrun : runs step (initial before) es = some w) : Formed w :=
  runs_induction (P := fun _ => Formed) (owned_initial before).formed
    (fun _ _ _ _ _ ih hstep => formed_step ih hstep) hrun

/-- A server that has bound the path can go on to serve. -/
theorem exists_runs_serving (hpath : w.path = .socket i)
    (hnext : (w.server i).next = .chmod ∨ (w.server i).next = .listen) :
    ∃ es w', runs step w es = some w' ∧ (w'.server i).next = .serving ∧
      ∀ j ≠ i, w'.server j = w.server j := by
  have hlisten (v : World I) (hv : (v.server i).next = .listen) :
      step v (.call i false) = some (v.set i
        { v.server i with next := .serving, fd := .listening } v.path) := by
    simp [step, UnixSocketServer.call, hv]
  obtain hnext | hnext := hnext
  · have hchmod : step w (.call i false) =
        some (w.set i { w.server i with next := .listen } w.path) := by
      simp [step, UnixSocketServer.call, hnext, hpath]
    refine ⟨[.call i false, .call i false], _, runs_cons_eq_some.mpr ⟨_, hchmod,
      runs_cons_eq_some.mpr ⟨_, hlisten _ (by simp), rfl⟩⟩, by simp, fun j hj => by simp [hj]⟩
  · exact ⟨[.call i false], _,
      runs_cons_eq_some.mpr ⟨_, hlisten w hnext, rfl⟩, by simp, fun j hj => by simp [hj]⟩

/-- A server that has made up its mind to remove the path can go on to do so. -/
theorem exists_runs_absent (h : (w.server i).Removes) :
    ∃ es w', runs step w es = some w' ∧ w'.path = .absent ∧ ∀ j ≠ i, w'.server j = w.server j := by
  have hremove (v : World I) (hv : (v.server i).next = .remove) :
      step v (.call i false) = some (v.set i
        { v.server i with next := .gone, ownsSocketPath := false } .absent) := by
    simp [step, UnixSocketServer.call, hv]
  obtain hnext | hnext | ⟨hnext, howns⟩ := h
  · have hstale : step w (.call i false) =
        some (w.set i { w.server i with next := .socket } .absent) := by
      simp [step, UnixSocketServer.call, hnext]
    exact ⟨[.call i false], _, runs_cons_eq_some.mpr ⟨_, hstale, rfl⟩, rfl,
      fun j hj => by simp [hj]⟩
  · exact ⟨[.call i false], _, runs_cons_eq_some.mpr ⟨_, hremove w hnext, rfl⟩, rfl,
      fun j hj => by simp [hj]⟩
  · have hclose : step w (.call i false) =
        some (w.set i { w.server i with next := .remove, fd := .closed } w.path) := by
      simp [step, UnixSocketServer.call, hnext, howns]
    exact ⟨[.call i false, .call i false], _, runs_cons_eq_some.mpr ⟨_, hclose,
      runs_cons_eq_some.mpr ⟨_, hremove _ (by simp), rfl⟩⟩, rfl, fun j hj => by simp [hj]⟩

/-- One server serves and another removes the path. -/
theorem exists_lost (hij : i ≠ j) (hpath : w.path = .socket i)
    (hnext : (w.server i).next = .chmod ∨ (w.server i).next = .listen)
    (hremoves : (w.server j).Removes) :
    ∃ es w', runs step w es = some w' ∧ (w'.server i).next = .serving ∧ w'.path ≠ .socket i := by
  obtain ⟨es, v, hv, hserving, hsame⟩ := exists_runs_serving hpath hnext
  rw [← hsame j hij.symm] at hremoves
  obtain ⟨es', u, hu, habsent, hsame'⟩ := exists_runs_absent hremoves
  refine ⟨es ++ es', u, runs_append_eq_some.mpr ⟨v, hv, hu⟩, ?_, ?_⟩
  · rw [hsame' i hij, hserving]
  · simp [habsent]

/-- After a step that is not orderly a server can complete its constructor and lose the path. -/
theorem lost_of_not_orderly {before : Option (Option ConnectError)} {es : List (Event I)}
    (hrun : runs step (initial before) es = some w) (hstep : step w e = some w')
    (h : ¬ Orderly w e) :
    ∃ es' w'' i, runs step w' es' = some w'' ∧ (w''.server i).next = .serving ∧
      w''.path ≠ .socket i := by
  cases e with
  | destroy i => exact absurd trivial h
  | call i fails =>
    obtain hbind | hprobe := not_and_or.mp h
    · simp only [not_forall, not_not] at hbind
      obtain ⟨hnext, rfl, habsent, j, hji, hremoves⟩ := hbind
      have hw' : step w (.call i false) =
          some (w.set i { next := .chmod, fd := .bound, ownsSocketPath := true } (.socket i)) := by
        simp [step, UnixSocketServer.call, hnext, habsent]
      obtain rfl := Option.some.inj (hw'.symm.trans hstep)
      obtain ⟨es', w'', hlost⟩ :=
        exists_lost (w := w.set i ⟨.chmod, .bound, true⟩ (.socket i)) hji.symm rfl
        (.inl (by simp)) (by rwa [server_set_of_ne hji])
      exact ⟨es', w'', i, hlost⟩
    · simp only [not_forall] at hprobe
      obtain ⟨hnext, rfl, j, hpath, hj⟩ := hprobe
      have hstart : (w.server j).next = .chmod ∨ (w.server j).next = .listen := by tauto
      have hji : j ≠ i := by
        rintro rfl
        simp [hnext] at hstart
      have hfd : (w.server j).fd = .bound := by
        have hformed := formed_runs hrun j
        obtain h | h := hstart <;> simpa [UnixSocketServer.Formed, h] using hformed
      have hw' : step w (.call i false) =
          some (w.set i { w.server i with next := .removeStale } w.path) := by
        simp [step, UnixSocketServer.call, hnext, World.connectError, hpath, hfd,
          isStaleSocketConnectError]
      obtain rfl := Option.some.inj (hw'.symm.trans hstep)
      obtain ⟨es', w'', hlost⟩ :=
        exists_lost (w := w.set i { w.server i with next := .removeStale } w.path) hji
        hpath (by rwa [server_set_of_ne hji]) (.inl (by simp))
      exact ⟨es', w'', j, hlost⟩

end Worlds

/-! ### Two servers -/

/-- A first server comes to serve, and a second one finds its path in use. -/
def turnedAway : List (Event Bool) :=
  [.call true false, .call true false, .call true false, .call true false, .call true false,
    .call false false, .call false false]

theorem steps_turnedAway : Steps step (initial none) Orderly turnedAway := by
  refine (steps_cons rfl).mpr ⟨⟨nofun, nofun⟩,
    (steps_cons rfl).mpr ⟨⟨nofun, nofun⟩, (steps_cons rfl).mpr ⟨?_,
    (steps_cons rfl).mpr ⟨⟨nofun, nofun⟩, (steps_cons rfl).mpr ⟨⟨nofun, nofun⟩,
    (steps_cons rfl).mpr ⟨⟨nofun, nofun⟩, (steps_cons rfl).mpr ⟨?_, steps_nil⟩⟩⟩⟩⟩⟩⟩
  · -- the first server binds before the second has begun
    refine ⟨fun _ _ _ j _ => ?_, nofun⟩
    cases j <;> rintro (h | h | ⟨h, -⟩) <;> cases h
  · -- the second probes when the first listens
    refine ⟨nofun, fun _ _ j hj => ?_⟩
    cases hj
    exact ⟨nofun, nofun⟩

theorem path_of_serving_turnedAway : ∃ w, runs step (initial none) turnedAway = some w ∧
    (w.server true).next = .serving ∧ w.path = .socket true := by
  obtain ⟨w, hrun⟩ : ∃ w, runs step (initial none) turnedAway = some w := ⟨_, rfl⟩
  have hserving : (w.server true).next = .serving := by
    rw [← Option.some.inj hrun]
    rfl
  exact ⟨w, hrun, hserving, path_of_serving hrun steps_turnedAway hserving⟩

/-- Both servers find a stale path. One removes it, binds and serves, and then the other removes
what it takes for the stale path. -/
theorem path_lost : ¬ ∀ (before : Option (Option ConnectError)) (es : List (Event Bool))
    (w : World Bool) (i : Bool),
    runs step (initial before) es = some w → (w.server i).next = .serving → w.path = .socket i := by
  intro h
  have hlost := h (some (some .connRefused))
    [.call true false, .call false false, .call true false, .call false false, .call true false,
      .call true false, .call true false, .call true false, .call true false,
      .call false false] _ true rfl rfl
  cases hlost

end Kasli.Ipc.Server
