import Kasli.Tools.Bodies

/-! What the evidence of the journal has of a fixture: the entries of the unit in the order of
the file, fifty at most, and then that there are more, or how many lines are no entries.
Entries of other units leave no trace. -/

namespace Kasli.Tools.Journal

open Core

section

variable (parse : Bytes → Option Json) (unit : Bytes)

/-- The unit of an entry; one without a unit has an empty one. -/
def unitOf (entry : Json) : Bytes := jsonStringValue entry (ascii "_SYSTEMD_UNIT")

/-- The entries of the unit, in the order of the file. -/
def matching (input : List Bytes) : List Json :=
  (input.filterMap (entryOf parse)).filter fun entry => unitOf entry = unit

/-- How many lines are no JSON objects. -/
def invalid (input : List Bytes) : ℕ := input.countP fun line => (entryOf parse line).isNone

/-- What stands after the entries when there are `n` and `invalid` lines are none. -/
def closing (n invalid : ℕ) : Bytes :=
  if n > maxEntries then truncatedMarker else if invalid > 0 then skippedLine invalid else []

/-- The text of a fixture: the first fifty entries of the unit and what closes them. -/
def scopedText (input : List Bytes) : Bytes :=
  ((matching parse unit input).take maxEntries).flatMap fixtureLine ++
    closing (matching parse unit input).length (invalid parse input)

variable {parse unit}

theorem matching_cons_none {line : Bytes} (h : entryOf parse line = none) (rest : List Bytes) :
    matching parse unit (line :: rest) = matching parse unit rest := by
  rw [matching, List.filterMap_cons_none h, matching]

theorem matching_cons_some {line : Bytes} {entry : Json} (h : entryOf parse line = some entry)
    (rest : List Bytes) : matching parse unit (line :: rest) =
      if unitOf entry = unit then entry ::
          matching parse unit rest else matching parse unit rest := by
  rw [matching, List.filterMap_cons_some h, List.filter_cons, matching]
  simp only [decide_eq_true_eq]

theorem invalid_cons (line : Bytes) (rest : List Bytes) :
    invalid parse (line :: rest) = invalid parse rest +
      if (entryOf parse line).isNone then 1 else 0 :=
  List.countP_cons

/-- The text from a line on, with `n` entries and `skipped` invalid lines before it. -/
theorem fixtureText_eq {n : ℕ} (hn : n ≤ maxEntries) (skipped : ℕ) (input : List Bytes) :
    fixtureText parse unit n skipped input =
      ((matching parse unit input).take (maxEntries - n)).flatMap fixtureLine ++
        closing (n + (matching parse unit input).length) (skipped + invalid parse input) := by
  induction input generalizing n skipped with
  | nil =>
    have hclosed : ¬ n + (matching parse unit []).length > maxEntries := by
      simp only [matching, List.filterMap_nil, List.filter_nil, List.length_nil]
      omega
    rw [fixtureText, closing, if_neg hclosed]
    simp [matching, invalid]
  | cons line rest ih =>
    rw [fixtureText, invalid_cons]
    cases h : entryOf parse line with
    | none =>
      rw [matching_cons_none h, ih hn]
      simp only [Option.isNone_none, if_true, Nat.add_assoc, Nat.add_comm 1]
    | some entry =>
      rw [matching_cons_some h]
      simp only [Option.isNone_some, Bool.false_eq_true, if_false, Nat.add_zero]
      change (if unitOf entry ≠ unit then _ else _) = _
      by_cases hunit : unitOf entry = unit
      swap
      · rw [if_pos hunit, if_neg hunit, ih hn]
      rw [if_neg (not_not.mpr hunit), if_pos hunit]
      by_cases hfull : n ≥ maxEntries
      · -- the loop ends here, and the rest is not read
        obtain rfl : n = maxEntries := by omega
        rw [if_pos hfull, Nat.sub_self, List.take_zero, closing, if_pos (by simp)]
        rfl
      · have hroom : maxEntries - n = maxEntries - (n + 1) + 1 := by omega
        rw [if_neg hfull, ih (by omega), hroom, List.take_succ_cons, List.flatMap_cons,
          List.append_assoc, List.length_cons]
        simp only [Nat.add_assoc, Nat.add_comm 1]

theorem fixtureText_eq_scopedText (input : List Bytes) :
    fixtureText parse unit 0 0 input = scopedText parse unit input := by
  rw [fixtureText_eq (Nat.zero_le _), scopedText, Nat.sub_zero, Nat.zero_add, Nat.zero_add]

/-! ### Edits of other units -/

variable (parse unit) in
/-- The line is an entry, and not one of the unit. -/
def Foreign (line : Bytes) : Prop := ∃ entry, entryOf parse line = some entry ∧ unitOf entry ≠ unit

variable (parse unit) in
/-- The lines are the same but for lines of other units, which may be inserted, deleted and
altered. -/
inductive Edited : List Bytes → List Bytes → Prop
  | nil : Edited [] []
  | same (line : Bytes) {l l' : List Bytes} (h : Edited l l') : Edited (line :: l) (line :: l')
  | inserted {line : Bytes} (hline : Foreign parse unit line) {l l' : List Bytes}
      (h : Edited l l') :
    Edited l (line :: l')
  | deleted {line : Bytes} (hline : Foreign parse unit line) {l l' : List Bytes} (h : Edited l l') :
    Edited (line :: l) l'
  | altered {line line' : Bytes} (hline : Foreign parse unit line)
      (hline' : Foreign parse unit line')
    {l l' : List Bytes} (h : Edited l l') : Edited (line :: l) (line' :: l')

/-- A line of another unit is in neither list. -/
theorem Foreign.skip {line : Bytes} (h : Foreign parse unit line) (rest : List Bytes) :
    matching parse unit (line :: rest) = matching parse unit rest ∧
      invalid parse (line :: rest) = invalid parse rest := by
  obtain ⟨entry, hentry, hunit⟩ := h
  rw [matching_cons_some hentry, if_neg hunit, invalid_cons, hentry]
  exact ⟨rfl, rfl⟩

/-- An edit of other units changes neither the entries of the unit nor the number of invalid
lines. -/
theorem Edited.matching_eq {l l' : List Bytes} (h : Edited parse unit l l') :
    matching parse unit l = matching parse unit l' ∧ invalid parse l = invalid parse l' := by
  induction h with
  | nil => exact ⟨rfl, rfl⟩
  | same line h ih =>
    refine ⟨?_, by rw [invalid_cons, invalid_cons, ih.2]⟩
    cases hentry : entryOf parse line with
    | none => rw [matching_cons_none hentry, matching_cons_none hentry, ih.1]
    | some entry => rw [matching_cons_some hentry, matching_cons_some hentry, ih.1]
  | inserted hline h ih =>
    exact ⟨ih.1.trans (hline.skip _).1.symm, ih.2.trans (hline.skip _).2.symm⟩
  | deleted hline h ih => exact ⟨(hline.skip _).1.trans ih.1, (hline.skip _).2.trans ih.2⟩
  | altered hline hline' h ih =>
    exact ⟨(hline.skip _).1.trans (ih.1.trans (hline'.skip _).1.symm),
      (hline.skip _).2.trans (ih.2.trans (hline'.skip _).2.symm)⟩

end

/-! ### The evidence -/

section

variable (parse : Bytes → Option Json) (path timestamp : Bytes) {request : ToolRequest}

/-- A query for a unit of a fixture that can be opened has one record. -/
theorem journalFixtureCall_eq (hunit : isBlank (Systemd.unitParam request) = false) (text : Bytes) :
    journalFixtureCall parse path (some text) timestamp request =
      some (okResponse request (ascii "journal.query") (ascii "journal fixture queried")
        (ascii "bounded journal entries for " ++ Systemd.unitParam request)
        (capped truncatedMarker maxBodyBytes
          (scopedText parse (Systemd.unitParam request) (getLines text))) timestamp) := by
  have hbody : fixtureBody parse (Systemd.unitParam request) (getLines text) =
      some (capped truncatedMarker maxBodyBytes
        (scopedText parse (Systemd.unitParam request) (getLines text))) := by
    rw [← fixtureText_eq_scopedText]
    exact (BodyInput.journalFixture parse (Systemd.unitParam request) (getLines text)).format_eq
  unfold journalFixtureCall
  simp only [hunit, Bool.false_eq_true, if_false, hbody]
  rfl

/-- The evidence of a query is that of its unit: edits of other entries leave it as it is, and
it is the text of the first fifty entries of the unit, closed by the marker or the number of
invalid lines, within its limit. -/
theorem journal_scoped (hunit : isBlank (Systemd.unitParam request) = false) :
    (∀ text text', Edited parse (Systemd.unitParam request) (getLines text) (getLines text') →
      journalFixtureCall parse path (some text) timestamp request =
        journalFixtureCall parse path (some text') timestamp request) ∧
    ∀ text, ∃ body, BoundedForm (16 * 1024)
      (scopedText parse (Systemd.unitParam request) (getLines text)) body ∧
      journalFixtureCall parse path (some text) timestamp request =
        some (okResponse request (ascii "journal.query") (ascii "journal fixture queried")
          (ascii "bounded journal entries for " ++ Systemd.unitParam request) body timestamp) := by
  constructor
  · intro text text' h
    obtain ⟨hmatching, hinvalid⟩ := h.matching_eq
    rw [journalFixtureCall_eq parse path timestamp hunit,
      journalFixtureCall_eq parse path timestamp hunit, scopedText, scopedText, hmatching, hinvalid]
  · exact fun text => ⟨_, boundedForm_capped marker_le _,
      journalFixtureCall_eq parse path timestamp hunit text⟩

end

def sshRequest : ToolRequest :=
  { id := ascii "r1", toolName := ascii "journal.query", risk := .readOnly,
    params := .ofList [(ascii "unit", ascii "ssh.service")] }

/-- A parser that knows the empty object. -/
def emptyObject (line : Bytes) : Option Json :=
  if line = ascii "{}" then some (.object []) else none

/-- An entry without a unit is taken out of the fixture. -/
theorem journal_scoped_ssh : journalFixtureCall emptyObject (ascii "journal.jsonl")
    (some (ascii "{}\n")) [] sshRequest =
    journalFixtureCall emptyObject (ascii "journal.jsonl") (some []) [] sshRequest :=
  (journal_scoped emptyObject (ascii "journal.jsonl") [] (by decide)).1 _ _
    (.deleted ⟨.object [], rfl, by decide⟩ .nil)

end Kasli.Tools.Journal
