import MapGate.Text.Ascii
import MapGate.Text.List
import MapGate.Text.Number

/-!
# Log messages

Messages have a level and come from a part of the program. Which of them are
shown is said by directives: a level for all parts, or for one part and those
below it. The most specific directive counts, and of equals the last.
-/

namespace MapGate

/-- How important a message is. -/
inductive LogLevel where
  | error
  | warn
  | info
  | debug
  | trace
  deriving DecidableEq

/-- The rank of a level; the most important comes first. -/
def LogLevel.rank : LogLevel → Nat
  | error => 1
  | warn => 2
  | info => 3
  | debug => 4
  | trace => 5

/-- The name of a level. -/
def LogLevel.name : LogLevel → String
  | error => "ERROR"
  | warn => "WARN"
  | info => "INFO"
  | debug => "DEBUG"
  | trace => "TRACE"

/-- A message. -/
structure LogMessage where
  level : LogLevel
  /-- The part of the program that it comes from. -/
  part : String
  text : String
  fields : List (String × String)
  deriving DecidableEq

/-- What is shown of the messages of a part: those up to a rank. -/
structure LogDirective where
  /-- The part, or nothing for all. -/
  part : String
  rank : Nat
  deriving DecidableEq

namespace LogDirective

/-- The rank that a word sets. -/
def rank? (word : String) : Option Nat :=
  match Text.lower word with
  | "off" => some 0
  | "error" => some 1
  | "warn" => some 2
  | "info" => some 3
  | "debug" => some 4
  | "trace" => some 5
  | _ => (Text.number? 10 word.toList).filter (· ≤ 5)

/-- Reads a directive. A part alone shows all of its messages. -/
def ofText? (text : String) : Option LogDirective :=
  match rank? text with
  | some rank => some ⟨"", rank⟩
  | none =>
    match Text.splitFirst? '=' text.toList with
    | none => some ⟨text, 5⟩
    | some (part, word) =>
      if part.isEmpty then none
      else if word.isEmpty then some ⟨String.ofList part, 5⟩
      else (rank? (String.ofList word)).map (⟨String.ofList part, ·⟩)

/-- Whether a directive is about a part. -/
def covers (directive : LogDirective) (part : String) : Bool :=
  directive.part.toList.isPrefixOf part.toList

end LogDirective

/-- The directives that say what is shown. -/
structure LogFilter where
  directives : List LogDirective

namespace LogFilter

/-- Reads directives with commas between them. Those that cannot be read are left
out, and if none is left errors are shown. -/
def ofText (text : String) : LogFilter :=
  let directives := ((Text.splitOn ',' text).filter (· ≠ "")).filterMap LogDirective.ofText?
  ⟨if directives.isEmpty then [⟨"", 1⟩] else directives⟩

/-- The later of two directives unless the earlier is more specific. -/
def moreSpecific (found? : Option LogDirective) (directive : LogDirective) : Option LogDirective :=
  match found? with
  | some found =>
    if directive.part.length < found.part.length then some found else some directive
  | none => some directive

/-- Whether a message is shown. -/
def shows (filter : LogFilter) (message : LogMessage) : Bool :=
  match (filter.directives.filter (·.covers message.part)).foldl moreSpecific none with
  | some directive => message.level.rank ≤ directive.rank
  | none => false

end LogFilter

end MapGate
