import Mathlib.Algebra.GroupWithZero.Nat
import Kasli.Data.Machine
import Kasli.Text.Bytes

/-! Lines over a socket (`ipc/unix_socket.cpp`). The system calls are scripts: what each
`send` and each `read` in turn comes to. Writing a line puts it and a newline on the
stream, in whatever portions it is taken; reading a line depends only on the bytes that
arrive and on how the stream ends, not on the portions they arrive in. -/

namespace Kasli.Ipc

def maxUnixSocketLineBytes : ℕ := 1024 * 1024

/-- What a call of `send` comes to: a number of bytes, `EINTR`, or another error. -/
inductive SendResult
  | wrote (count : ℕ)
  | interrupted
  | failed (error : Bytes)
  deriving DecidableEq

/-- What a call of `read` comes to: some bytes (none at the end of the stream), `EINTR`,
`ECONNRESET`, or another error. -/
inductive ReadResult
  | bytes (chunk : Bytes)
  | interrupted
  | reset
  | failed (error : Bytes)
  deriving DecidableEq

/-- How a function ends, or that it waits for another call to return. -/
inductive Outcome (α : Type)
  | returned (value : α)
  | threw (what : Bytes)
  | waiting
  deriving DecidableEq

/-! ### Writing -/

/-- The bytes put on the stream, and the outcome. -/
def writeAll : List SendResult → Bytes → Bytes × Outcome Unit
  | [], data => ([], if data = [] then .returned () else .waiting)
  | result :: script, data =>
    if data = [] then ([], .returned ())
    else
      match result with
      | .interrupted => writeAll script data
      | .failed error => ([], .threw (ascii "write failed: " ++ error))
      | .wrote count =>
        if count = 0 then ([], .threw (ascii "write failed: wrote zero bytes"))
        else
          let rest := writeAll script (data.drop count)
          (data.take count ++ rest.1, rest.2)

def writeLine (script : List SendResult) (data : Bytes) : Bytes × Outcome Unit :=
  if data.length > maxUnixSocketLineBytes then ([], .threw (ascii "unix socket line is too large"))
  else if chr '\n' ∈ data then
    ([], .threw (ascii "unix socket line payload must not contain a newline"))
  else writeAll script (data ++ [chr '\n'])

/-- The call wrote something or was interrupted. -/
def SendResult.Proceeds : SendResult → Prop
  | .wrote count => 0 < count
  | .interrupted => True
  | .failed _ => False

def SendResult.count : SendResult → ℕ
  | .wrote count => count
  | _ => 0

/-- How many bytes the calls are ready to take. -/
def capacity (script : List SendResult) : ℕ := (script.map SendResult.count).sum

/-- The portions do not matter: the data is written as far as the calls take it, and once they
have taken all of it the function returns. -/
theorem writeAll_of_proceeds {script : List SendResult} (h : ∀ r ∈ script, r.Proceeds)
    (data : Bytes) : writeAll script data =
      (data.take (capacity script),
        if data.length ≤ capacity script then .returned () else .waiting) := by
  induction script generalizing data with
  | nil =>
    cases data with
    | nil => rfl
    | cons b data => rfl
  | cons r script ih =>
    have hrest := ih fun r' hr' => h r' (List.mem_cons_of_mem _ hr')
    have hr := h r List.mem_cons_self
    have hcap : capacity (r :: script) = r.count + capacity script := by simp [capacity]
    by_cases hdata : data = []
    · simp [writeAll, hdata]
    cases r with
    | interrupted => simp only [writeAll, if_neg hdata, hrest, hcap, SendResult.count, Nat.zero_add]
    | failed error => exact hr.elim
    | wrote count =>
      have hpos : count ≠ 0 := Nat.pos_iff_ne_zero.mp hr
      have hle : data.length - count ≤ capacity script ↔
        data.length ≤ count + capacity script := by omega
      simp only [writeAll, if_neg hdata, if_neg hpos, hrest, hcap, SendResult.count, List.take_add,
        List.length_drop, hle]

/-- Whatever the calls come to, a first part of the data is written, and all of it when the
function returns. -/
theorem writeAll_isPrefix (script : List SendResult) (data : Bytes) :
    (writeAll script data).1 <+: data ∧
      ((writeAll script data).2 = .returned () → (writeAll script data).1 = data) := by
  induction script generalizing data with
  | nil =>
    by_cases hdata : data = []
    · simp [writeAll, hdata]
    · simp [writeAll, hdata]
  | cons r script ih =>
    by_cases hdata : data = []
    · simp [writeAll, hdata]
    cases r with
    | interrupted =>
      simp only [writeAll, if_neg hdata]
      exact ih data
    | failed error => simp [writeAll, hdata]
    | wrote count =>
      by_cases hzero : count = 0
      · simp [writeAll, hdata, hzero]
      simp only [writeAll, if_neg hdata, if_neg hzero]
      obtain ⟨hpre, hall⟩ := ih (data.drop count)
      constructor
      · conv_rhs => rw [← List.take_append_drop count data]
        exact (List.prefix_append_right_inj _).mpr hpre
      · intro hreturned
        rw [hall hreturned, List.take_append_drop]

theorem writeLine_isPrefix (script : List SendResult) (data : Bytes) :
    (writeLine script data).1 <+: data ++ [chr '\n'] ∧
      ((writeLine script data).2 = .returned () →
        (writeLine script data).1 = data ++ [chr '\n']) := by
  rw [writeLine]
  split_ifs
  · exact ⟨List.nil_prefix, nofun⟩
  · exact ⟨List.nil_prefix, nofun⟩
  · exact writeAll_isPrefix script _

/-! ### Reading -/

def missingFraming (role : Bytes) : Bytes :=
  ascii "unix socket " ++ role ++ ascii " is missing newline framing"

def lineTooLarge (role : Bytes) :
    Bytes := ascii "unix socket " ++ role ++ ascii " line is too large"

/-- One byte of the buffer. -/
def takeByte (role data : Bytes) (b : UInt8) : Bytes ⊕ Outcome Bytes :=
  if b = chr '\n' then .inr (.returned data)
  else if data.length ≥ maxUnixSocketLineBytes then .inr (.threw (lineTooLarge role))
  else .inl (data ++ [b])

/-- The loop of `read_line`, entered with the bytes `data`. -/
def readFrom (role data : Bytes) : List ReadResult → Outcome Bytes
  | [] => .waiting
  | .interrupted :: script => readFrom role data script
  | .reset :: _ => .threw (missingFraming role)
  | .failed error :: _ => .threw (ascii "read failed: " ++ error)
  | .bytes [] :: _ => .threw (missingFraming role)
  | .bytes (b :: chunk) :: script =>
    match scan (takeByte role) data (b :: chunk) with
    | .inl data' => readFrom role data' script
    | .inr outcome => outcome

def readLine (role : Bytes) (script : List ReadResult) : Outcome Bytes := readFrom role [] script

/-- The bytes that arrive before the stream ends or fails. -/
def arrived : List ReadResult → Bytes
  | [] => []
  | .interrupted :: script => arrived script
  | .reset :: _ => []
  | .failed _ :: _ => []
  | .bytes [] :: _ => []
  | .bytes (b :: chunk) :: script => b :: chunk ++ arrived script

/-- What `read_line` does when it has read all of it. -/
def ending (role : Bytes) : List ReadResult → Outcome Bytes
  | [] => .waiting
  | .interrupted :: script => ending role script
  | .reset :: _ => .threw (missingFraming role)
  | .failed error :: _ => .threw (ascii "read failed: " ++ error)
  | .bytes [] :: _ => .threw (missingFraming role)
  | .bytes (_ :: _) :: script => ending role script

/-- The portions do not matter: the bytes are looked at one after another. -/
theorem readFrom_eq (role data : Bytes) (script : List ReadResult) : readFrom role data script =
    match scan (takeByte role) data (arrived script) with
    | .inl _ => ending role script
    | .inr outcome => outcome := by
  induction script generalizing data with
  | nil => rfl
  | cons r script ih =>
    rcases r with ⟨_ | ⟨b, chunk⟩⟩ | _ | _ | error
    · rfl
    · rw [readFrom, arrived, scan_append]
      rcases scan (takeByte role) data (b :: chunk) with data' | outcome
      · exact ih data'
      · rfl
    · exact ih data
    · rfl
    · rfl

/-- The bytes before the first newline. -/
def firstLine (s : Bytes) : Bytes := s.takeWhile (· != chr '\n')

/-- What the bytes decide: the line is returned if it ends and is not too long, and else it is
too long or goes on. -/
theorem scan_takeByte (role : Bytes) {data : Bytes} (hdata : data.length ≤ maxUnixSocketLineBytes)
    (s : Bytes) : scan (takeByte role) data s =
      if maxUnixSocketLineBytes < data.length + (firstLine s).length then .inr
        (.threw (lineTooLarge role))
      else if chr '\n' ∈ s then .inr (.returned (data ++ firstLine s))
      else .inl (data ++ s) := by
  induction s generalizing data with
  | nil =>
    have hle : ¬ maxUnixSocketLineBytes < data.length +
      (firstLine []).length := by simpa [firstLine] using hdata
    rw [if_neg hle]
    simp [scan]
  | cons b s ih =>
    rw [scan_cons, takeByte]
    by_cases hb : b = chr '\n'
    · have hline : firstLine (b :: s) = [] := by simp [firstLine, hb]
      rw [if_pos hb, hline, List.length_nil, Nat.add_zero, if_neg (by omega), if_pos (by simp [hb]),
        List.append_nil]
    have hline : firstLine (b :: s) = b :: firstLine s := by simp [firstLine, hb]
    have hmem : chr '\n' ∈ b :: s ↔ chr '\n' ∈ s := by simp [Ne.symm hb]
    rw [if_neg hb, hline, List.length_cons]
    by_cases hfull : data.length ≥ maxUnixSocketLineBytes
    · rw [if_pos hfull, if_pos (by omega)]
    · have hlen : (data ++ [b]).length = data.length + 1 := by simp
      rw [if_neg hfull]
      dsimp only
      rw [ih (by omega), hlen]
      simp only [hmem, List.append_assoc, List.singleton_append, Nat.add_assoc, Nat.add_comm 1]

/-- Reading a line: only the first line and the end of the stream count. -/
theorem readLine_eq (role : Bytes) (script : List ReadResult) : readLine role script =
    if maxUnixSocketLineBytes < (firstLine (arrived script)).length then .threw (lineTooLarge role)
    else if chr '\n' ∈ arrived script then .returned (firstLine (arrived script))
    else ending role script := by
  rw [readLine, readFrom_eq, scan_takeByte role (by simp)]
  simp only [List.length_nil, Nat.zero_add, List.nil_append]
  split_ifs
  · rfl
  · rfl
  · rfl

theorem firstLine_append {line later : Bytes} (h : chr '\n' ∉ line) :
    firstLine (line ++ chr '\n' :: later) = line := by
  rw [firstLine, List.takeWhile_append_of_pos]
  · simp
  · intro b hb
    simpa using ne_of_mem_of_not_mem hb h

/-- A line and its newline are at the start of what arrived. -/
theorem firstLine_isPrefix {s : Bytes} (h : chr '\n' ∈ s) : firstLine s ++ [chr '\n'] <+: s := by
  obtain ⟨line, later, rfl, hnot⟩ := List.eq_append_cons_of_mem h
  rw [firstLine_append hnot]
  exact ⟨later, by simp⟩

theorem notMem_firstLine (s : Bytes) : chr '\n' ∉ firstLine s := fun h => by
  simpa using List.all_eq_true.mp List.all_takeWhile _ h

/-- Without a newline among the first bytes the first line is that long. -/
theorem length_firstLine_of_notMem {s : Bytes} {n : ℕ} (h : chr '\n' ∉ s.take n)
    (hn : n ≤ s.length) : n ≤ (firstLine s).length := by
  have hall : ∀ b ∈ s.take n, (b != chr '\n') = true := fun b hb => by
    simpa using ne_of_mem_of_not_mem hb h
  have hlong : firstLine s = s.take n ++ firstLine (s.drop n) := by
    conv_lhs => rw [← List.take_append_drop n s, firstLine, List.takeWhile_append_of_pos hall]
    rfl
  rw [hlong, List.length_append, List.length_take]
  omega

theorem ending_not_returned (role : Bytes) (script : List ReadResult) (line : Bytes) :
    ending role script ≠ .returned line := by
  induction script with
  | nil => simp [ending]
  | cons r script ih =>
    rcases r with ⟨_ | ⟨b, chunk⟩⟩ | _ | _ | error
    · simp [ending]
    · exact ih
    · exact ih
    · simp [ending]
    · simp [ending]

/-- When the stream has ended, reading its rest throws. -/
theorem ending_threw (role : Bytes) {script : List ReadResult}
    (h : ∃ r ∈ script, r ≠ .interrupted ∧ ∀ b chunk, r ≠ .bytes (b :: chunk)) :
    ∃ what, ending role script = .threw what := by
  induction script with
  | nil =>
    obtain ⟨r, hr, -⟩ := h
    cases hr
  | cons r script ih =>
    obtain ⟨r', hmem, hterm⟩ := h
    rcases List.mem_cons.mp hmem with rfl | hr'
    · rcases r' with ⟨_ | ⟨b, chunk⟩⟩ | _ | _ | error
      · exact ⟨_, rfl⟩
      · exact absurd rfl (hterm.2 b chunk)
      · exact absurd rfl hterm.1
      · exact ⟨_, rfl⟩
      · exact ⟨_, rfl⟩
    · rcases r with ⟨_ | ⟨b, chunk⟩⟩ | _ | _ | error
      · exact ⟨_, rfl⟩
      · exact ih ⟨r', hr', hterm⟩
      · exact ih ⟨r', hr', hterm⟩
      · exact ⟨_, rfl⟩
      · exact ⟨_, rfl⟩

/-! ### Lines over a stream -/

/-- A line is written in whatever portions it is taken, and read back in whatever portions it
arrives; a payload that is no line is not written at all; and what is read from any stream is
its first line, if it ends and is not too long. -/
theorem line_framing :
    (∀ (payload : Bytes) (sends : List SendResult), chr '\n' ∉ payload →
      payload.length ≤ maxUnixSocketLineBytes → (∀ r ∈ sends, r.Proceeds) →
      (payload.length + 1 ≤ capacity sends →
        writeLine sends payload = (payload ++ [chr '\n'], .returned ())) ∧
      (capacity sends ≤ payload.length →
        writeLine sends payload = ((payload ++ [chr '\n']).take (capacity sends), .waiting))) ∧
    (∀ (role payload later : Bytes) (reads : List ReadResult), chr '\n' ∉ payload →
      payload.length ≤ maxUnixSocketLineBytes → arrived reads = payload ++ [chr '\n'] ++ later →
      readLine role reads = .returned payload) ∧
    (∀ (payload : Bytes) (sends : List SendResult),
      maxUnixSocketLineBytes < payload.length ∨ chr '\n' ∈ payload →
      ∃ what, writeLine sends payload = ([], .threw what)) ∧
    ∀ (role : Bytes) (reads : List ReadResult),
      (∀ line, readLine role reads = .returned line → line ++ [chr '\n'] <+: arrived reads ∧
        chr '\n' ∉ line ∧ line.length ≤ maxUnixSocketLineBytes) ∧
      (maxUnixSocketLineBytes + 1 ≤ (arrived reads).length →
        chr '\n' ∉ (arrived reads).take (maxUnixSocketLineBytes + 1) →
        ∃ what, readLine role reads = .threw what) ∧
      ((∃ r ∈ reads, r ≠ .interrupted ∧ ∀ b chunk, r ≠ .bytes (b :: chunk)) →
        chr '\n' ∉ arrived reads → ∃ what, readLine role reads = .threw what) := by
  refine ⟨fun payload sends hnot hlen hproceeds => ?_,
    fun role payload later reads hnot hlen harrived => ?_, fun payload sends hbad => ?_,
    fun role reads => ⟨fun line hline => ?_, fun hlong hnot => ?_,
      fun hend hnot => ?_⟩⟩
  · rw [writeLine, if_neg (by omega), if_neg hnot, writeAll_of_proceeds hproceeds,
      List.length_append, List.length_singleton]
    constructor
    · intro henough
      rw [if_pos henough, List.take_of_length_le (by simpa using henough)]
    · intro hfew
      rw [if_neg (by omega)]
  · have hline : firstLine (arrived reads) = payload := by
      rw [harrived, List.append_assoc]
      exact firstLine_append hnot
    rw [readLine_eq, hline, if_neg (by omega), if_pos (by simp [harrived])]
  · rw [writeLine]
    split_ifs with hlong hmem
    · exact ⟨_, rfl⟩
    · exact ⟨_, rfl⟩
    · exact (hbad.elim hlong hmem).elim
  · rw [readLine_eq] at hline
    split_ifs at hline with hlong hmem
    · obtain rfl := Outcome.returned.inj hline
      exact ⟨firstLine_isPrefix hmem, notMem_firstLine _, by omega⟩
    · exact absurd hline (ending_not_returned role reads line)
  · have hlen := length_firstLine_of_notMem hnot hlong
    rw [readLine_eq, if_pos (by omega)]
    exact ⟨_, rfl⟩
  · rw [readLine_eq]
    split_ifs
    · exact ⟨_, rfl⟩
    · exact ending_threw role hend

end Kasli.Ipc
