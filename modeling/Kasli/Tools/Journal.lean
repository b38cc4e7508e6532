import Kasli.Text.Lines
import Kasli.Tools.Systemd

/-! The journal tools (`tools/journal_tool.cpp`): entries of one unit, from a fixture of JSON
lines or from the live journal, at most fifty of them. -/

namespace Kasli.Tools.Journal

open Core

def maxEntries : ℕ := 50
def maxBodyBytes : ℕ := 16 * 1024

/-- `json_string_value` -/
def jsonStringValue (entry : Json) (key : Bytes) : Bytes :=
  match entry with
  | .object members =>
    match OrderedMap.lookup key members with
    | some (.string value) => value
    | _ => []
  | _ => []

/-- The marker is only appended to a body that was not cut. -/
def appendTruncationMarker (body : Body) : Option Body := do
  if body.truncated then return body
  else return { (← Body.appendBounded maxBodyBytes body truncatedMarker) with truncated := true }

def missingUnitResponse (request : ToolRequest) : ToolResponse :=
  errorResponse request (ascii "journal.query requires a non-empty unit parameter")

/-! ### The fixture -/

/-- A line of an entry. -/
def fixtureLine (entry : Json) : Bytes :=
  jsonStringValue entry (ascii "PRIORITY") ++ ascii " " ++
    redactLikelySecret (jsonStringValue entry (ascii "MESSAGE")) ++ ascii "\n"

section

variable (parse : Bytes → Option Json) (unit : Bytes)

/-- A line that is a JSON object; `parse` gives nothing where the parser discards the line. -/
def entryOf (line : Bytes) : Option Json :=
  match parse line with
  | some (.object members) => some (.object members)
  | _ => none

/-- The loop over the lines, with the entries and the invalid lines so far. -/
def fixtureLoop (body : Body) (entries skipped : ℕ) : List Bytes → Option (Body × ℕ)
  | [] => some (body, skipped)
  | line :: rest =>
    match entryOf parse line with
    | none => fixtureLoop body entries (skipped + 1) rest
    | some entry =>
      if jsonStringValue entry (ascii "_SYSTEMD_UNIT") ≠ unit then fixtureLoop body
        entries skipped rest
      else if entries ≥ maxEntries then do return (← appendTruncationMarker body, skipped)
      else do
        let body ← Body.appendBounded maxBodyBytes body (fixtureLine entry)
        if body.truncated then return (body,
          skipped) else fixtureLoop body (entries + 1) skipped rest

def skippedLine (skipped : ℕ) :
    Bytes := ascii "skipped_invalid_entries=" ++ decimal skipped ++ ascii "\n"

def fixtureBody (input : List Bytes) : Option Bytes := do
  let (body, skipped) ← fixtureLoop parse unit .empty 0 0 input
  if skipped > 0 ∧ !body.truncated then
    return (← Body.appendBounded maxBodyBytes body (skippedLine skipped)).text
  else return body.text

end

/-- `JournalFixtureTool::call`; a fixture that cannot be opened has no text. -/
def journalFixtureCall (parse : Bytes → Option Json) (path : Bytes) (fixture : Option Bytes)
    (timestamp : Bytes) (request : ToolRequest) : Option ToolResponse :=
  let unit := Systemd.unitParam request
  if isBlank unit then return missingUnitResponse request
  else
    match fixture with
    | none => return errorResponse request (ascii "failed to open journal fixture: " ++ path)
    | some text => do
      let body ← fixtureBody parse unit (getLines text)
      return okResponse request (ascii "journal.query") (ascii "journal fixture queried")
        (ascii "bounded journal entries for " ++ unit) body timestamp

/-! ### The live journal -/

/-- The two fields of an entry as the journal gives them, each with its name. -/
structure JournalEntry where
  priority : Option Bytes
  message : Option Bytes

/-- The value of a field, without its name. -/
def fieldValue (name : Bytes) (field : Option Bytes) : Bytes :=
  match field with
  | some field => if name <+: field then field.drop name.length else []
  | none => []

def liveLine (entry : JournalEntry) : Bytes :=
  fieldValue (ascii "PRIORITY=") entry.priority ++ ascii " " ++
    redactLikelySecret (fieldValue (ascii "MESSAGE=") entry.message) ++ ascii "\n"

/-- The loop over the entries, the last one first. After the entries there are no more, or reading
fails and there is no body. -/
def liveLoop (fails : Bool) (body : Body) (entries : ℕ) : List JournalEntry → Option (Option Body)
  | [] => some (if fails then none else some body)
  | entry :: rest =>
    if entries ≥ maxEntries then do return some (← appendTruncationMarker body)
    else do
      let body ← Body.appendBounded maxBodyBytes body (liveLine entry)
      if body.truncated then return some body else liveLoop fails body (entries + 1) rest

/-- What the journal does with a query for a unit. -/
inductive JournalReply
  | notBuilt
  | notOpened
  | noMatch
  | noSeek
  | entries (read : List JournalEntry) (fails : Bool)

/-- `LiveJournalTool::call`; the match for the unit is a C string. -/
def liveJournalCall (reply : Bytes → JournalReply) (timestamp : Bytes) (request : ToolRequest) :
    Option ToolResponse :=
  let unit := Systemd.unitParam request
  if isBlank unit then return missingUnitResponse request
  else
    match reply (cString unit) with
    | .notBuilt => return errorResponse request (ascii "journal support was not built")
    | .notOpened => return errorResponse request (ascii "failed to open journal")
    | .noMatch => return errorResponse request (ascii "failed to add journal unit match")
    | .noSeek => return errorResponse request (ascii "failed to seek journal")
    | .entries read fails => do
      match ← liveLoop fails .empty 0 read with
      | none => return errorResponse request (ascii "failed to read journal")
      | some body =>
        return okResponse request (ascii "journal.query") (ascii "journal queried")
          (ascii "bounded recent journal entries for " ++ unit) body.text timestamp

end Kasli.Tools.Journal
