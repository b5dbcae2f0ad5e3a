import RowPipeline.Json.Printer
import RowPipeline.Log.Event

/-!
Log entries, the line of JSON that each is written as, and logs that drop what is not serious
enough.
-/

namespace RowPipeline

structure LogEntry where
  severity : Severity
  event : String
  fields : List (String × String)
  deriving DecidableEq, Repr

namespace LogEntry

def isControl (character : Char) : Bool :=
  character.toNat < 0x20 || (0x7f ≤ character.toNat && character.toNat < 0xa0)

def hexDigits (value : Nat) : List Char :=
  [Json.hexDigit (value / 4096), Json.hexDigit (value / 256 % 16), Json.hexDigit (value / 16 % 16),
    Json.hexDigit (value % 16)]

/-- The form of one character inside a string of a log line. All control characters are escaped,
also those above the printable ones. -/
def escape (character : Char) : List Char :=
  match character with
  | '"' => ['\\', '"']
  | '\\' => ['\\', '\\']
  | '\n' => ['\\', 'n']
  | '\r' => ['\\', 'r']
  | '\t' => ['\\', 't']
  | other => if isControl other then '\\' :: 'u' :: hexDigits other.toNat else [other]

def quoted (text : String) : List Char := '"' :: text.toList.flatMap escape ++ ['"']

def member (name value : String) : List Char := quoted name ++ ':' :: quoted value

def sortedFields (entry : LogEntry) : List (String × String) :=
  entry.fields.mergeSort fun left right => left.1 ≤ right.1

/-- One JSON object: the event, the severity and then the fields in order of their names. -/
def lineCharacters (entry : LogEntry) : List Char :=
  '{' :: member "event" entry.event ++ ',' :: member "severity" entry.severity.name ++
    entry.sortedFields.flatMap (fun (name, value) => ',' :: member name value) ++ ['}', '\n']

def line (entry : LogEntry) : String := String.ofList entry.lineCharacters

/-- Errors are written to a stream of their own. -/
def isForErrorStream (entry : LogEntry) : Bool := entry.severity == .error

end LogEntry

structure Log where
  minimum : Severity
  newest : List LogEntry
  deriving Repr

namespace Log

def empty : Log := ⟨.info, []⟩

def write (log : Log) (entry : LogEntry) : Log :=
  if log.minimum.level ≤ entry.severity.level then { log with newest := entry :: log.newest }
  else log

def record (log : Log) (severity : Severity) (event : Event) (fields : List (String × String)) :
    Log :=
  log.write ⟨severity, event.name, fields⟩

/-- Reports an event at the severity it has by itself. -/
def report (log : Log) (event : Event) (fields : List (String × String)) : Log :=
  log.record event.severity event fields

def entries (log : Log) : List LogEntry := log.newest.reverse

def standardLines (log : Log) : List String :=
  (log.entries.filter (!·.isForErrorStream)).map (·.line)

def errorLines (log : Log) : List String := (log.entries.filter (·.isForErrorStream)).map (·.line)

end Log

end RowPipeline
