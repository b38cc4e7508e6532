import Kasli.Data.Selection
import Mathlib.Data.List.Induction
import Kasli.Core.Redact

/-! Evidence bodies (`append_bounded` of the tools). A body is made by appending texts; one
that does not fit is cut, and what is in the body makes room for the marker. However the
text comes in pieces, and although appending goes on after a cut, the body is the whole
text within its cap. Unsigned subtraction and `substr` are checked: they give no result
where the program would wrap around or throw. -/

namespace Kasli.Tools

open Core

def truncatedMarker : Bytes := ascii "truncated=true\n"

/-- Only spaces, tabs, CR and LF. -/
def isBlank (value : Bytes) : Bool := value.all fun b => b == 0x20 || b == 0x09 || b ==
    0x0D || b == 0x0A

/-! ### Checked operations -/

/-- `a - b` of unsigned numbers, unless it wraps around. -/
def sub? (a b : ℕ) : Option ℕ := if b ≤ a then some (a - b) else none

/-- `substr`, unless it throws. -/
def substr? (s : Bytes) (pos n : ℕ) : Option Bytes :=
  if pos ≤ s.length then some ((s.drop pos).take n) else none

/-- `std::string::resize`; new bytes are zero. -/
def resize (s : Bytes) (n : ℕ) : Bytes := s.take n ++ List.replicate (n - s.length) 0

theorem sub?_of_le {a b : ℕ} (h : b ≤ a) : sub? a b = some (a - b) := if_pos h

theorem substr?_zero (s : Bytes) (n : ℕ) : substr? s 0 n = some (s.take n) := if_pos (Nat.zero_le _)

theorem resize_of_le {s : Bytes} {n : ℕ} (h : n ≤ s.length) : resize s n = s.take n := by
  rw [resize, Nat.sub_eq_zero_of_le h, List.replicate_zero, List.append_nil]

/-! ### Appending -/

/-- A body and whether it was cut. -/
structure Body where
  text : Bytes
  truncated : Bool
  deriving DecidableEq

namespace Body

def empty : Body := ⟨[], false⟩

/-- What stays before the marker when `text` does not fit. -/
def makeRoom? (cap : ℕ) (body text : Bytes) : Option Bytes := do
  let remaining ← sub? cap body.length
  if remaining > truncatedMarker.length then
    return body ++ (← substr? text 0 (← sub? remaining truncatedMarker.length))
  else if body.length + truncatedMarker.length > cap then
    return resize body (← sub? cap truncatedMarker.length)
  else
    return body

def appendBounded (cap : ℕ) (body : Body) (text : Bytes) : Option Body :=
  if body.text.length + text.length ≤ cap then
    some { body with text := body.text ++ text }
  else do
    return { text := (← makeRoom? cap body.text text) ++ truncatedMarker, truncated := true }

/-- The body that the text so far has made. -/
def ofText (cap : ℕ) (text : Bytes) :
    Body := ⟨capped truncatedMarker cap text, decide (cap < text.length)⟩

variable {cap : ℕ}

theorem ofText_of_le {text : Bytes} (h : text.length ≤ cap) : ofText cap text = ⟨text, false⟩ := by
  rw [ofText, capped_of_le h, decide_eq_false (by omega)]

theorem ofText_of_lt {text : Bytes} (h : cap < text.length) :
    ofText cap text = ⟨text.take (cap - truncatedMarker.length) ++ truncatedMarker, true⟩ := by
  rw [ofText, capped_of_lt h, decide_eq_true h]

/-- Once the text is too long, more of it changes nothing. -/
theorem ofText_append_of_lt {text : Bytes} (h : cap < text.length) (more : Bytes) :
    ofText cap (text ++ more) = ofText cap text := by
  have hlong : cap < (text ++ more).length := by rw [List.length_append]; omega
  rw [ofText, ofText, capped_append_of_lt h, decide_eq_true h, decide_eq_true hlong]

theorem ofText_nil (cap : ℕ) : ofText cap [] = empty := ofText_of_le (Nat.zero_le _)

/-- Nothing wraps around when room is made in a body within the cap. -/
theorem makeRoom?_of_le (hcap : truncatedMarker.length ≤ cap) {body : Bytes}
    (hbody : body.length ≤ cap) (text : Bytes) :
    makeRoom? cap body text = some ((body ++ text).take (cap - truncatedMarker.length)) := by
  unfold makeRoom?
  by_cases hlong : cap - body.length > truncatedMarker.length
  · -- the text is cut
    have htake : cap - truncatedMarker.length = body.length +
        (cap - body.length - truncatedMarker.length) := by
      omega
    simp only [sub?_of_le hbody, sub?_of_le (Nat.le_of_lt hlong), hlong, if_true, substr?_zero,
      Option.bind_eq_bind, Option.bind_some]
    rw [htake, List.take_length_add_append]
    rfl
  · have hle : cap - truncatedMarker.length ≤ body.length := by omega
    rw [List.take_append_of_le_length hle]
    by_cases hfull : body.length + truncatedMarker.length > cap
    · -- the body is cut
      simp only [sub?_of_le hbody, sub?_of_le hcap, hlong, hfull, if_true, if_false,
        resize_of_le hle, Option.bind_eq_bind, Option.bind_some]
      rfl
    · have heq : cap - truncatedMarker.length = body.length := by omega
      simp only [sub?_of_le hbody, hlong, hfull, if_false, heq, List.take_length,
        Option.bind_eq_bind, Option.bind_some]
      rfl

theorem appendBounded_of_lt (hcap : truncatedMarker.length ≤ cap) {body : Body}
    (hbody : body.text.length ≤ cap)
    {text : Bytes} (h : cap < body.text.length + text.length) : appendBounded cap body text =
      some ⟨(body.text ++ text).take (cap - truncatedMarker.length) ++ truncatedMarker, true⟩ := by
  rw [appendBounded, if_neg (by omega), makeRoom?_of_le hcap hbody]
  rfl

/-- An append to the body of a text gives the body of the longer text. -/
theorem appendBounded_ofText (hcap : truncatedMarker.length ≤ cap) (text more : Bytes) :
    appendBounded cap (ofText cap text) more = some (ofText cap (text ++ more)) := by
  rcases Nat.lt_or_ge cap text.length with hcut | hfits
  · -- the text was cut before
    have hlength : (text.take (cap - truncatedMarker.length) ++ truncatedMarker).length = cap := by
      rw [List.length_append, List.length_take]
      omega
    rw [ofText_append_of_lt hcut, ofText_of_lt hcut]
    by_cases hmore : more = []
    · subst hmore
      rw [appendBounded, if_pos (by simp only [hlength, List.length_nil]; omega), List.append_nil]
    · have hpos := List.length_pos_of_ne_nil hmore
      rw [appendBounded_of_lt hcap (by simp only [hlength]; omega) (by simp only [hlength]; omega)]
      rw [List.append_assoc, List.take_left' (by rw [List.length_take]; omega)]
  · rw [ofText_of_le hfits]
    rcases Nat.lt_or_ge cap (text.length + more.length) with hlong | hboth
    · have hcut : cap < (text ++ more).length := by rwa [List.length_append]
      rw [appendBounded_of_lt hcap hfits hlong, ofText_of_lt hcut]
    · have hle : (text ++ more).length ≤ cap := by rwa [List.length_append]
      rw [appendBounded, if_pos hboth, ofText_of_le hle]

/-! ### Formatters -/

/-- Texts appended one after another. -/
def appendAll (cap : ℕ) (body : Body) (texts : List Bytes) : Option Body :=
  texts.foldlM (appendBounded cap) body

/-- The loop over the rows, which returns from the formatter as soon as the body was cut. -/
def appendRows (cap : ℕ) (body : Body) : List Bytes → Option (Body × Bool)
  | [] => some (body, false)
  | row :: rows => do
    let body ← appendBounded cap body row
    if body.truncated then return (body, true) else appendRows cap body rows

/-- A formatter: header lines, rows, and the marker when there are more rows than were read. -/
def formatRows (cap : ℕ) (header rows : List Bytes) (hasMoreRows : Bool) : Option Bytes := do
  let body ← appendAll cap empty header
  let (body, returned) ← appendRows cap body rows
  if returned then return body.text
  if hasMoreRows then return (← appendBounded cap body truncatedMarker).text
  return body.text

/-- The text that a formatter writes when nothing is cut. -/
def rowsText (header rows : List Bytes) (hasMoreRows : Bool) : Bytes :=
  header.flatten ++ rows.flatten ++ if hasMoreRows then truncatedMarker else []

theorem appendAll_ofText (hcap : truncatedMarker.length ≤ cap) (text : Bytes) (texts : List Bytes) :
    appendAll cap (ofText cap text) texts = some (ofText cap (text ++ texts.flatten)) := by
  induction texts generalizing text with
  | nil => rw [List.flatten_nil, List.append_nil]; rfl
  | cons more texts ih =>
    rw [appendAll, List.foldlM_cons, appendBounded_ofText hcap, Option.bind_eq_bind,
      Option.bind_some, List.flatten_cons, ← List.append_assoc]
    exact ih (text ++ more)

theorem appendRows_ofText (hcap : truncatedMarker.length ≤ cap) (text : Bytes) (rows : List Bytes) :
    ∃ returned, appendRows cap (ofText cap text) rows =
      some (ofText cap (text ++ rows.flatten), returned) ∧
      (returned = true → cap < (text ++ rows.flatten).length) := by
  induction rows generalizing text with
  | nil => exact ⟨false, by rw [List.flatten_nil, List.append_nil]; rfl, by simp⟩
  | cons row rows ih =>
    rw [appendRows, appendBounded_ofText hcap, Option.bind_eq_bind, Option.bind_some,
      List.flatten_cons, ← List.append_assoc]
    rcases Nat.lt_or_ge cap (text ++ row).length with hcut | hfits
    · -- the rows that are left out change nothing
      have hlong : cap < (text ++ row ++ rows.flatten).length := by rw [List.length_append]; omega
      refine ⟨true, ?_, fun _ => hlong⟩
      rw [ofText_append_of_lt hcut, ofText_of_lt hcut]
      rfl
    · have htruncated : (ofText cap (text ++ row)).truncated = false := by rw [ofText_of_le hfits]
      rw [htruncated]
      exact ih (text ++ row)

/-- A formatter returns its whole text within the cap, and nothing in it goes out of range. -/
theorem formatRows_eq (hcap : truncatedMarker.length ≤ cap) (header rows : List Bytes)
    (hasMoreRows : Bool) : formatRows cap header rows hasMoreRows =
      some (capped truncatedMarker cap (rowsText header rows hasMoreRows)) := by
  obtain ⟨returned, hrows, hcut⟩ := appendRows_ofText hcap header.flatten rows
  rw [formatRows, ← ofText_nil, appendAll_ofText hcap, List.nil_append, Option.bind_eq_bind,
    Option.bind_some, hrows, Option.bind_eq_bind, Option.bind_some, rowsText]
  cases returned with
  | true =>
    rw [capped_append_of_lt (hcut rfl)]
    rfl
  | false =>
    cases hasMoreRows with
    | true =>
      simp only [Bool.false_eq_true, if_false, if_true, appendBounded_ofText hcap, Option.bind_some]
      rfl
    | false =>
      simp only [Bool.false_eq_true, if_false, List.append_nil]
      rfl

end Body

/-- The header of a counted list. -/
def countHeader (count none : Bytes) (rows : ℕ) : List Bytes :=
  [count ++ decimal rows ++ ascii "\n"] ++ if rows = 0 then [none] else []

/-- `rows` within the limit in the order they come, and whether there were more. -/
def collect {R : Type} (limit : ℕ) (rows : List R) : List R × Bool :=
  rows.foldl (fun kept row => if kept.1.length < limit then (kept.1 ++ [row], kept.2) else (kept.1,
    true)) ([], false)

/-- The first rows, and whether there were more. -/
theorem collect_eq {R : Type} (limit : ℕ) (rows : List R) :
    collect limit rows = (rows.take limit, decide (limit < rows.length)) := by
  induction rows using List.reverseRecOn with
  | nil => simp [collect]
  | append_singleton rows row ih =>
    have hstep : collect limit (rows ++ [row]) = if (collect limit rows).1.length < limit then
        ((collect limit rows).1 ++ [row],
          (collect limit rows).2) else ((collect limit rows).1, true) := by
      rw [collect, List.foldl_concat]
      rfl
    rw [hstep, ih, List.length_take, List.length_append, List.length_singleton]
    rcases Nat.lt_or_ge rows.length limit with hroom | hfull
    · rw [if_pos (by omega), List.take_of_length_le (by omega),
        List.take_of_length_le (by simp; omega), decide_eq_false (by omega),
        decide_eq_false (by omega)]
    · rw [if_neg (by omega), List.take_append_of_le_length hfull,
        decide_eq_true (by omega : limit < rows.length + 1)]

end Kasli.Tools
