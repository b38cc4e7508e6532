import Kasli.Data.Machine
import Kasli.Tools.Package

/-! Running a fixed command (`run_fixed_command` of `tools/package_tool.cpp`), system call by
system call. The events of a run are the calls of the parent with what each returns: any
sequence of reads, waits and clock readings. The child's end is noticed while the pipe is
still drained, and both have to be over before the loop ends. -/

namespace Kasli.Tools.Package

open Core

def maxPackageCommandOutputBytes : ℕ := 4 * 1024 * 1024

/-- Five seconds, in the ticks of the clock. -/
def packageCommandTimeout : ℕ := 5000

/-- How a child ended. -/
inductive WaitStatus
  | exited (code : ℕ)
  | signaled (signal : ℕ)
  deriving DecidableEq

/-- What one `read` with a buffer of 8192 bytes gives. -/
structure Chunk where
  bytes : Bytes
  pos : 0 < bytes.length
  le : bytes.length ≤ 8192
  deriving DecidableEq

inductive ReadResult
  | data (chunk : Chunk)
  | eof
  | interrupted
  | again
  | failed
  deriving DecidableEq

inductive WaitResult
  | child (status : WaitStatus)
  | running
  | interrupted
  | failed
  deriving DecidableEq

/-- A system call of the parent and its result. -/
inductive Event
  | pipe (ok : Bool)
  | fork (ok : Bool)
  | closeWrite
  | closeRead
  | read (result : ReadResult)
  | waitNoHang (result : WaitResult)
  | waitBlocking (result : WaitResult)
  | clock (now : ℕ)
  | poll
  | kill
  deriving DecidableEq

/-- The next call of the parent. -/
inductive Point
  | piping
  | forking
  | unforkedRead
  | unforkedWrite
  | forked
  | starting
  | reading
  | waiting
  | timing
  | polling
  | killing (error : Bytes)
  | closing (error : Bytes)
  | reaping (error : Bytes)
  | abandoning
  | finishing
  | returned (result : PackageCommandResult)
  deriving DecidableEq

structure Supervision where
  point : Point
  deadline : ℕ
  output : Bytes
  pipeClosed : Bool
  childDone : Bool
  status : WaitStatus
  deriving DecidableEq

namespace Supervision

def start : Supervision :=
  { point := .piping, deadline := 0, output := [], pipeClosed := false, childDone := false,
    status := .exited 0 }

def failure (exitCode : Int) (error : Bytes) : PackageCommandResult :=
  { ok := false, exitCode, output := [], error }

def exitCode : WaitStatus → ℕ
  | .exited code => code
  | .signaled signal => 128 + signal

/-- The result once the child was reaped and the pipe is at its end. -/
def result (s : Supervision) : PackageCommandResult :=
  if exitCode s.status ≠ 0 then failure (exitCode s.status)
    (ascii "package inventory command failed")
  else { ok := true, exitCode := exitCode s.status, output := s.output, error := [] }

/-- After the inner loop the child is waited for, unless it was reaped in an earlier round. -/
def drained (s : Supervision) : Supervision :=
  { s with point := if s.childDone then .timing else .waiting }

/-- One call of the parent. -/
def step (s : Supervision) (e : Event) : Option Supervision :=
  match s.point, e with
  | .piping, .pipe false =>
    some { s with point := .returned (failure (-1)
      (ascii "failed to create package inventory pipe")) }
  | .piping, .pipe true => some { s with point := .forking }
  | .forking, .fork false => some { s with point := .unforkedRead }
  | .forking, .fork true => some { s with point := .forked }
  | .unforkedRead, .closeRead => some { s with point := .unforkedWrite }
  | .unforkedWrite, .closeWrite =>
    some { s with point := .returned (failure (-1)
      (ascii "failed to start package inventory command")) }
  | .forked, .closeWrite => some { s with point := .starting }
  | .starting, .clock now =>
      some { s with point := .reading, deadline := now + packageCommandTimeout }
  | .reading, .read (.data chunk) =>
    if s.output.length + chunk.bytes.length > maxPackageCommandOutputBytes then
      some { s with point := .killing (ascii "package inventory command output exceeded limit") }
    else some { s with output := s.output ++ chunk.bytes }
  | .reading, .read .eof => some { s with pipeClosed := true }.drained
  | .reading, .read .interrupted => some s
  | .reading, .read .again => some s.drained
  | .reading, .read .failed =>
    some { s with point := .killing (ascii "failed to read package inventory command output") }
  | .waiting, .waitNoHang (.child status) =>
      some { s with point := .timing, childDone := true, status }
  | .waiting, .waitNoHang .running => some { s with point := .timing }
  | .waiting, .waitNoHang .interrupted => some { s with point := .timing }
  | .waiting, .waitNoHang .failed => some { s with point := .abandoning }
  | .timing, .clock now =>
    if now ≥ s.deadline then some { s with point := .killing (ascii
      "package inventory command timed out") }
    else if s.pipeClosed && s.childDone then some { s with point := .finishing }
    else some { s with point := .polling }
  | .polling, .poll => some { s with point := .reading }
  | .killing error, .kill => some { s with point := .closing error }
  | .closing error, .closeRead => some { s with point := .reaping error }
  | .reaping error, .waitBlocking _ => some { s with point := .returned (failure (-1) error) }
  | .abandoning, .closeRead =>
    some { s with point := .returned (failure (-1)
      (ascii "failed to wait for package inventory command")) }
  | .finishing, .closeRead => some { s with point := .returned s.result }
  | _, _ => none

/-! ### What one call can do -/

/-- A wait returned the child. -/
def IsReap : Event → Prop
  | .waitNoHang (.child _) => True
  | .waitBlocking (.child _) => True
  | _ => False

/-- The call leads to an exit that kills the child: the output exceeds its limit, reading fails,
or the time is over. -/
def Exits (s : Supervision) : Event → Prop
  | .read (.data chunk) => s.output.length + chunk.bytes.length > maxPackageCommandOutputBytes
  | .read .failed => True
  | .clock now => s.point = .timing ∧ now ≥ s.deadline
  | _ => False

def isReturned : Point → Bool
  | .returned _ => true
  | _ => false

def isKilling : Point → Bool
  | .killing _ => true
  | _ => false

section

variable {s s' : Supervision} {e : Event}

/-- A step that does not return sets the flag when a wait returned the child, and otherwise
keeps it. -/
theorem step_flag (h : step s e = some s') (hpoint : isReturned s'.point = false) :
    isReturned s.point = false ∧
      ((∃ status, e = .waitNoHang (.child status) ∧ s'.childDone = true ∧ s'.status = status) ∨
        (¬ IsReap e ∧ s'.childDone = s.childDone ∧ s'.status = s.status)) := by
  unfold step at h
  split at h
  all_goals grind [isReturned, IsReap, drained]

theorem step_killing_iff (h : step s e = some s') : isKilling s'.point = true ↔ Exits s e := by
  unfold step at h
  split at h
  all_goals grind [isKilling, Exits, drained]

theorem step_kill_iff (h : step s e = some s') : e = .kill ↔ isKilling s.point = true := by
  unfold step at h
  split at h
  all_goals grind [isKilling, drained]

/-- A step that adds to the output stays within the limit, and only the end of the pipe closes
it. -/
theorem step_output (h : step s e = some s')
    (hmax : s.output.length ≤ maxPackageCommandOutputBytes) :
    s'.output.length ≤ maxPackageCommandOutputBytes ∧
      (s'.pipeClosed = true → s.pipeClosed = true ∨ e = .read .eof) := by
  unfold step at h
  split at h
  all_goals grind [drained]

end

/-! ### What a run has done -/

/-- The bytes that were read, in order. -/
def chunks (events : List Event) : Bytes :=
  events.flatMap fun
    | .read (.data chunk) => chunk.bytes
    | _ => []

/-- The flag says whether a wait returned the child. -/
structure FlagInv (events : List Event) (s : Supervision) : Prop where
  flag : s.childDone = true → Event.waitNoHang (.child s.status) ∈ events
  noFlag : s.childDone = false → ∀ e ∈ events, ¬ IsReap e

theorem FlagInv.concat {events : List Event} {s s' : Supervision} {e : Event} (h : FlagInv events s)
    (he : ¬ IsReap e) (hflag : s'.childDone = s.childDone) (hstatus : s'.status = s.status) :
    FlagInv (events ++ [e]) s' := by
  constructor
  · intro hdone
    rw [hstatus]
    exact List.mem_append_left _ (h.flag (hflag.symm.trans hdone))
  · intro hdone f hf
    rcases List.mem_append.mp hf with hf | hf
    · exact h.noFlag (hflag.symm.trans hdone) f hf
    · rw [List.mem_singleton.mp hf]
      exact he

/-- Until the command returns the flag says whether the child was reaped. -/
theorem flagInv {events : List Event} {s : Supervision} (h : runs step start events = some s)
    (hpoint : isReturned s.point = false) : FlagInv events s := by
  revert hpoint
  refine runs_induction (P := fun events s => isReturned s.point = false → FlagInv events s) ?_ ?_ h
  · exact fun _ => ⟨nofun, fun _ e he => nomatch he⟩
  · intro events t e u _ ih hstep hpoint
    obtain ⟨hbefore, ⟨status, rfl, hdone, hstatus⟩ | ⟨he, hdone, hstatus⟩⟩ := step_flag hstep hpoint
    · refine ⟨fun _ => ?_, fun hnot => absurd (hdone.symm.trans hnot) (by decide)⟩
      rw [hstatus]
      exact List.mem_append_right _ (List.mem_singleton_self _)
    · exact (ih hbefore).concat he hdone hstatus

/-- Where a step was taken the command had not returned. -/
theorem isReturned_of_step {s s' : Supervision} {e : Event} (h : step s e = some s') :
    isReturned s.point = false := by
  cases hs : s.point with
  | returned result =>
    unfold step at h
    rw [hs] at h
    cases h
  | _ => rfl

/-! ### Signals -/

/-- A signal is sent to the child after a wait returned it. -/
def SignalsReaped (events : List Event) : Prop :=
  ∃ before after, events = before ++ .kill :: after ∧ ∃ e ∈ before, IsReap e

/-- No exit that kills is taken once the child is reaped. -/
def Calm (s : Supervision) (e : Event) : Prop := s.childDone = true → ¬ Exits s e

/-- In a calm run the child is not yet reaped where it is about to be killed. -/
theorem not_childDone_of_killing {events : List Event} {s : Supervision}
    (h : runs step start events = some s)
    (hcalm : Steps step start Calm events) (hkilling : isKilling s.point = true) :
    s.childDone = false := by
  rcases List.eq_nil_or_concat events with rfl | ⟨events, e, rfl⟩
  · obtain rfl := Option.some.inj h
    exact absurd hkilling (by decide)
  · rw [List.concat_eq_append] at h hcalm
    obtain ⟨t, ht, hstep⟩ := runs_concat_eq_some.mp h
    have hexits := (step_killing_iff hstep).mp hkilling
    have hlast := ((steps_concat ht).mp hcalm).2
    have hpoint : isReturned s.point = false := by
      cases hs : s.point with
      | returned result => rw [hs] at hkilling; cases hkilling
      | _ => rfl
    obtain ⟨-, ⟨status, rfl, -, -⟩ | ⟨-, hdone, -⟩⟩ := step_flag hstep hpoint
    · cases hexits
    · rw [hdone]
      cases hd : t.childDone with
      | true => exact absurd hexits (hlast hd)
      | false => rfl

/-- A run without such an exit never signals a reaped child; and a command that returned without
signalling a reaped child took no such exit. -/
theorem signals_iff_exit {events : List Event} {s : Supervision}
    (h : runs step start events = some s) :
    (Steps step start Calm events → ¬ SignalsReaped events) ∧
      (isReturned s.point = true → ¬ SignalsReaped events → Steps step start Calm events) := by
  constructor
  · rintro hcalm ⟨before, after, rfl, e, he, hreap⟩
    obtain ⟨t, ht, hrest⟩ := runs_append_eq_some.mp h
    obtain ⟨u, hu, -⟩ := runs_cons_eq_some.mp hrest
    have hbefore : Steps step start Calm before := fun first f rest t' hes ht' =>
      hcalm first f (rest ++ .kill :: after) t' (by rw [hes]; simp) ht'
    have hdone := not_childDone_of_killing ht hbefore ((step_kill_iff hu).mp rfl)
    exact (flagInv ht (isReturned_of_step hu)).noFlag hdone e he hreap
  · intro hreturned hsafe before e after t hes ht hdone hexits
    subst hes
    apply hsafe
    obtain ⟨t', ht', hrest⟩ := runs_append_eq_some.mp h
    obtain rfl := Option.some.inj (ht.symm.trans ht')
    obtain ⟨u, hu, hrest⟩ := runs_cons_eq_some.mp hrest
    have hkilling := (step_killing_iff hu).mpr hexits
    have hmem := (flagInv ht (isReturned_of_step hu)).flag hdone
    cases after with
    | nil =>
      obtain rfl := Option.some.inj hrest
      cases hs : u.point with
      | killing error => rw [hs] at hreturned; cases hreturned
      | _ => rw [hs] at hkilling; cases hkilling
    | cons f after =>
      obtain ⟨v, hv, -⟩ := runs_cons_eq_some.mp hrest
      obtain rfl := (step_kill_iff hv).mpr hkilling
      exact ⟨before ++ [e], after, by simp, _, List.mem_append_left _ hmem, trivial⟩

/-- The calls up to the first read. -/
def launch : List Event := [.pipe true, .fork true, .closeWrite, .clock 0]

/-- A command that ends in time takes no such exit. -/
theorem signals_iff_exit_in_time : Steps step start Calm
    (launch ++ [.read .eof, .waitNoHang (.child (.exited 0)), .clock 1, .closeRead]) := by
  refine (signals_iff_exit rfl).2 rfl ?_
  rintro ⟨before, after, h, -⟩
  have hkill : Event.kill ∈ launch ++ [.read .eof, .waitNoHang (.child (.exited 0)), .clock 1,
      .closeRead] := by
    rw [h]
    simp
  exact absurd hkill (by decide)

/-- The child is reaped, and then the time is found to be over. -/
theorem signals_reaped : ∃ s, runs step start
      (launch ++ [.read .eof, .waitNoHang (.child (.exited 0)), .clock 5000, .kill, .closeRead,
        .waitBlocking .failed]) = some s ∧
    SignalsReaped (launch ++ [.read .eof, .waitNoHang (.child (.exited 0)), .clock 5000,
      .kill, .closeRead, .waitBlocking .failed]) :=
  ⟨_, rfl, launch ++ [.read .eof, .waitNoHang (.child (.exited 0)), .clock 5000],
    [.closeRead, .waitBlocking .failed], rfl, .waitNoHang (.child (.exited 0)), by decide, trivial⟩

/-! ### Results -/

/-- A wait that blocks returns a child that was sent the signal and was not reaped before. -/
def KilledChildReaped (events : List Event) : Prop :=
  ∀ before result after, events = before ++ .waitBlocking result :: after → .kill ∈ before →
    (∀ e ∈ before, ¬ IsReap e) → ∃ status, result = .child status

/-- What was done before a call. -/
def PointInv (events : List Event) (s : Supervision) : Prop :=
  match s.point with
  | .piping | .forking | .unforkedRead => .fork true ∉ events ∧ events.count .closeRead = 0
  | .unforkedWrite => .fork true ∉ events
  | .closing _ => events.count .closeRead = 0 ∧ .kill ∈ events
  | .reaping _ => events.count .closeRead = 1 ∧ .kill ∈ events
  | .abandoning => events.count .closeRead = 0 ∧ .waitNoHang .failed ∈ events
  | .finishing => events.count .closeRead = 0 ∧ s.pipeClosed = true ∧ s.childDone = true
  | .returned _ => True
  | _ => events.count .closeRead = 0

/-- The command is about to return a failure, or has returned. -/
def isExit : Point → Bool
  | .killing _ | .closing _ | .reaping _ | .returned _ => true
  | _ => false

/-- The output is what was read, within its limit, unless the command gave up; the pipe is
closed at its end. -/
structure OutputInv (events : List Event) (s : Supervision) : Prop where
  output : isExit s.point = false → s.output = chunks events
  le : s.output.length ≤ maxPackageCommandOutputBytes
  eof : s.pipeClosed = true → .read .eof ∈ events
  point : PointInv events s

theorem chunks_concat (events : List Event) (e : Event) :
    chunks (events ++ [e]) = chunks events ++ chunks [e] :=
  List.flatMap_append ..

/-- A call that does not give up keeps all that it reads. -/
theorem step_chunks {s s' : Supervision} {e : Event} (h : step s e = some s')
    (hexit : isExit s'.point = false) :
    isExit s.point = false ∧ s'.output = s.output ++ chunks [e] := by
  unfold step at h
  split at h
  all_goals grind [drained, chunks, isExit]

/-- A call leaves the next one where it should be. -/
theorem PointInv.step {events : List Event} {s s' : Supervision} {e : Event}
    (hpoint : PointInv events s) (h : step s e = some s') : PointInv (events ++ [e]) s' := by
  unfold Supervision.step at h
  split at h
  all_goals grind [PointInv, drained]

theorem outputInv {events : List Event} {s : Supervision} (h : runs step start events = some s) :
    OutputInv events s := by
  refine runs_induction ?_ ?_ h
  · exact { output := fun _ => rfl, le := Nat.zero_le _, eof := nofun,
            point := by simp [PointInv, start] }
  intro events t e u _ ih hstep
  obtain ⟨houtput, hle, heof, hpoint⟩ := ih
  obtain ⟨hmax, hclosed⟩ := step_output hstep hle
  refine ⟨?_, hmax, ?_, hpoint.step hstep⟩
  · intro hexit
    obtain ⟨hbefore, hadd⟩ := step_chunks hstep hexit
    rw [chunks_concat, ← houtput hbefore, hadd]
  · intro hu
    rcases hclosed hu with ht | rfl
    · exact List.mem_append_left _ (heof ht)
    · exact List.mem_append_right _ (List.mem_singleton_self _)

/-- What is true of a result when the command returns it. -/
structure Outcome (events : List Event) (result : PackageCommandResult) : Prop where
  complete : result.ok = true → .read .eof ∈ events ∧ result.output = chunks events ∧
    result.output.length ≤ maxPackageCommandOutputBytes ∧ .waitNoHang (.child (.exited 0)) ∈ events
  empty : result.ok = false → result.output = []
  closed : events.count .closeRead = 1
  waited : (∃ e ∈ events, IsReap e) ∨ .waitNoHang .failed ∈ events

/-- The step that returns. -/
theorem step_returned {s s' : Supervision} {e : Event} (h : step s e = some s')
    {result : PackageCommandResult} (hr : s'.point = .returned result) :
    (s.point = .piping ∧ e = .pipe false) ∨ (s.point = .unforkedWrite ∧ e = .closeWrite) ∨
      (∃ error wait, s.point = .reaping error ∧ e = .waitBlocking wait ∧
        result = failure (-1) error) ∨
      (s.point = .abandoning ∧ e = .closeRead ∧
        result = failure (-1) (ascii "failed to wait for package inventory command")) ∨
      (s.point = .finishing ∧ e = .closeRead ∧ result = s.result) := by
  unfold step at h
  split at h
  all_goals grind [drained]

theorem exitCode_eq_zero {status : WaitStatus} (h : exitCode status = 0) : status = .exited 0 := by
  cases status with
  | exited code => exact congrArg _ h
  | signaled signal => simp [exitCode] at h

/-- After a successful fork every result is complete or an error without output; the read end
was closed once and the child was waited for. -/
theorem outcome_of_runs {events : List Event} {s : Supervision}
    (h : runs step start events = some s)
    {result : PackageCommandResult} (hreturned : s.point = .returned result)
    (hfork : .fork true ∈ events) (hkilled : KilledChildReaped events) : Outcome events result := by
  rcases List.eq_nil_or_concat events with rfl | ⟨events, e, rfl⟩
  · cases hfork
  rw [List.concat_eq_append] at h hfork hkilled ⊢
  obtain ⟨t, ht, hstep⟩ := runs_concat_eq_some.mp h
  obtain ⟨houtput, hle, heof, hpoint⟩ := outputInv ht
  have hflag := flagInv ht (isReturned_of_step hstep)
  unfold PointInv at hpoint
  rcases step_returned hstep hreturned
    with ⟨hp, rfl⟩ | ⟨hp, rfl⟩ | ⟨error, wait, hp, rfl, rfl⟩ | ⟨hp, rfl, rfl⟩ | ⟨hp, rfl, rfl⟩
  · -- no pipe
    rw [hp] at hpoint
    simp [hpoint.1] at hfork
  · -- no child
    rw [hp] at hpoint
    simp [hpoint] at hfork
  · -- killed
    rw [hp] at hpoint
    refine ⟨nofun, fun _ => rfl, by simp [List.count_append, hpoint.1], .inl ?_⟩
    by_cases hreaped : ∃ f ∈ events, IsReap f
    · obtain ⟨f, hf, hreap⟩ := hreaped
      exact ⟨f, List.mem_append_left _ hf, hreap⟩
    · have hno : ∀ f ∈ events, ¬ IsReap f := fun f hf hreap => hreaped ⟨f, hf, hreap⟩
      obtain ⟨status, rfl⟩ := hkilled events wait [] rfl hpoint.2 hno
      exact ⟨_, List.mem_append_right _ (List.mem_singleton_self _), trivial⟩
  · -- not waited for
    rw [hp] at hpoint
    exact ⟨nofun, fun _ => rfl, by simp [List.count_append, hpoint.1], .inr (List.mem_append_left _ hpoint.2)⟩
  · -- finished
    rw [hp] at hpoint
    obtain ⟨hcount, hpipe, hdone⟩ := hpoint
    have hreap := hflag.flag hdone
    refine ⟨?_, ?_, by simp [List.count_append, hcount], .inl ⟨_, List.mem_append_left _ hreap, trivial⟩⟩
    · intro hok
      have hstatus : t.status = .exited 0 := by
        by_contra hne
        have hcode : exitCode t.status ≠ 0 := fun h0 => hne (exitCode_eq_zero h0)
        rw [result, if_pos hcode] at hok
        cases hok
      have hresult : t.result.output = t.output := by
        rw [result, hstatus]
        rfl
      rw [hresult, chunks_concat, ← houtput (by rw [hp]; rfl)]
      refine ⟨List.mem_append_left _ (heof hpipe), by simp [chunks], hle, List.mem_append_left _ ?_⟩
      rw [← hstatus]
      exact hreap
    · intro hok
      rw [result] at hok ⊢
      split_ifs at hok ⊢
      rfl

/-- A command that prints one byte and ends. -/
theorem outcome_of_runs_one : Outcome
    (launch ++ [.read (.data ⟨[chr 'x'], by decide, by decide⟩), .read .eof,
      .waitNoHang (.child (.exited 0)), .clock 1, .closeRead])
      { ok := true, exitCode := 0, output := [chr 'x'], error := [] } :=
  outcome_of_runs rfl rfl (by decide) fun before wait after h => by
    have hnot : ∀ wait, Event.waitBlocking wait ∉
        launch ++ [.read (.data ⟨[chr 'x'], by decide, by decide⟩), .read .eof,
          .waitNoHang (.child (.exited 0)), .clock 1, .closeRead] := by simp [launch]
    exact absurd (by rw [h]; simp) (hnot wait)

end Supervision

end Kasli.Tools.Package
