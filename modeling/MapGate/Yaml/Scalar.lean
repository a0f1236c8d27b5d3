import MapGate.Text.Percent
import MapGate.Yaml.Cursor

/-!
# Scalars

A scalar is a text in one of five styles. Plain and quoted scalars may run over
several lines: a single line break then counts as a space, and of several the
first is dropped. Block scalars take whole lines, literally or folded.

Every reader takes a bound on its steps, for which the length of the whole text
is always enough.
-/

namespace MapGate.Yaml

/-- How a scalar is written. -/
inductive Style where
  | plain
  | singleQuoted
  | doubleQuoted
  | literal
  | folded
  deriving DecidableEq

/-- A scalar while it is read. -/
structure Partial where
  /-- What is certain, the last character first. -/
  out : List Char := []
  /-- Blanks since then, the last first. -/
  blanks : List Char := []
  /-- Whether a line has ended since then. -/
  onNewLine : Bool := false
  /-- The first line break since then, unless it was escaped. -/
  break? : Option Char := none
  /-- The line breaks after it, the last first. -/
  moreBreaks : List Char := []

namespace Partial

/-- What the blanks and line breaks come to, the last character first. -/
def gap (p : Partial) : List Char :=
  if !p.onNewLine then p.blanks
  else match p.break? with
    | some '\n' => if p.moreBreaks.isEmpty then [' '] else p.moreBreaks
    | some c => p.moreBreaks ++ [c]
    | none => p.moreBreaks

/-- Takes up blanks and line breaks into what is certain. -/
def flush (p : Partial) : Partial := { out := p.gap ++ p.out }

/-- Takes a character that is neither blank nor a line break. -/
def push (p : Partial) (c : Char) : Partial := { out := c :: (p.gap ++ p.out) }

/-- Takes a blank, which does not count at the start of a line. -/
def pushBlank (p : Partial) (c : Char) : Partial :=
  if p.onNewLine then p else { p with blanks := c :: p.blanks }

/-- Takes a line break. -/
def pushBreak (p : Partial) (c : Char) : Partial :=
  if p.onNewLine then { p with moreBreaks := c :: p.moreBreaks }
  else { p with blanks := [], onNewLine := true, break? := some c }

/-- Whether a blank or a line break came last. -/
def afterGap (p : Partial) : Bool := p.onNewLine || !p.blanks.isEmpty

/-- The text so far, without blanks and line breaks at its end. -/
def text (p : Partial) : String := String.ofList p.out.reverse

end Partial

/-! ## Plain scalars -/

/-- The characters that end a plain scalar inside brackets. -/
def isFlowIndicator (c : Char) : Bool :=
  c == ',' || c == '[' || c == ']' || c == '{' || c == '}'

/-- Reads a plain scalar. Outside brackets its lines are indented by at least
`indent`. The result also tells whether the scalar ended on a new line. -/
def readPlain? (inFlow : Bool) (indent : Nat) :
    (fuel : Nat) → Cursor → Partial → Option (String × Bool × Cursor)
  | 0, _, _ => none
  | fuel + 1, c, p =>
    let stop := some (p.text, p.onNewLine, c)
    match c.peek? with
    | none => stop
    | some d =>
      if isBlank d then
        if p.onNewLine && decide (c.column < indent) && d == '\t' then none
        else readPlain? inFlow indent fuel c.next (p.pushBlank d)
      else if isBreak d then readPlain? inFlow indent fuel c.next (p.pushBreak d)
      else if p.afterGap && !inFlow && decide (c.column < indent) then stop
      else if c.atDocumentMark || (p.afterGap && d == '#') then stop
      else if inFlow && d == ':' && ((c.rest[1]?).any fun e => isFlowIndicator e || e == '?') then
        none
      else if (d == ':' && c.blankOrEndAt 1) || (inFlow && isFlowIndicator d) then stop
      else readPlain? inFlow indent fuel c.next (p.push d)

/-! ## Quoted scalars -/

/-- The number that `n` hexadecimal digits write. -/
def readHex? (n : Nat) (c : Cursor) : Option (Nat × Cursor) :=
  let digits := c.rest.take n
  if digits.length = n then
    (digits.foldlM (fun m d => (Text.hexValue? d).map (m * 16 + ·)) 0).map (·, c.skip n)
  else none

/-- The character of a number that is written in `n` hexadecimal digits. -/
def readCode? (n : Nat) (c : Cursor) : Option (Char × Cursor) := do
  let (code, c) ← readHex? n c
  if code.isValidChar then some (Char.ofNat code, c) else none

/-- The character that is written after a backslash. -/
def readEscape? (c : Cursor) : Option (Char × Cursor) :=
  match c.peek? with
  | some '0' => some ('\x00', c.next)
  | some 'a' => some ('\x07', c.next)
  | some 'b' => some ('\x08', c.next)
  | some 't' | some '\t' => some ('\t', c.next)
  | some 'n' => some ('\n', c.next)
  | some 'v' => some ('\x0b', c.next)
  | some 'f' => some ('\x0c', c.next)
  | some 'r' => some ('\r', c.next)
  | some 'e' => some ('\x1b', c.next)
  | some ' ' => some (' ', c.next)
  | some '"' => some ('"', c.next)
  | some '/' => some ('/', c.next)
  | some '\\' => some ('\\', c.next)
  | some 'N' => some ('\u0085', c.next)
  | some '_' => some ('\u00a0', c.next)
  | some 'L' => some ('\u2028', c.next)
  | some 'P' => some ('\u2029', c.next)
  | some 'x' => readCode? 2 c.next
  | some 'u' => readCode? 4 c.next
  | some 'U' => readCode? 8 c.next
  | _ => none

/-- Reads a quoted scalar after its opening quote. -/
def readQuoted? (quote : Char) : (fuel : Nat) → Cursor → Partial → Option (String × Cursor)
  | 0, _, _ => none
  | fuel + 1, c, p =>
    match c.peek? with
    | none => none
    | some d =>
      if isBlank d then readQuoted? quote fuel c.next (p.pushBlank d)
      else if isBreak d then readQuoted? quote fuel c.next (p.pushBreak d)
      else if c.atDocumentMark then none
      else if d == quote then
        if quote == '\'' && c.rest[1]? == some '\'' then
          readQuoted? quote fuel (c.skip 2) (p.push '\'')
        else some (p.flush.text, c.next)
      else if quote == '"' && d == '\\' then
        if (c.rest[1]?).any isBreak then
          readQuoted? quote fuel (c.skip 2) { p.flush with onNewLine := true }
        else
          match readEscape? c.next with
          | some (e, c) => readQuoted? quote fuel c (p.push e)
          | none => none
      else readQuoted? quote fuel c.next (p.push d)

/-! ## Block scalars -/

/-- What is done with the line breaks at the end of a block scalar. -/
inductive Chomping where
  | strip
  | clip
  | keep
  deriving DecidableEq

/-- The sign for the treatment of line breaks at the end. -/
def chompingOf? : Char → Option Chomping
  | '-' => some .strip
  | '+' => some .keep
  | _ => none

/-- Reads the sign and the indentation after the indicator of a block scalar,
in either order. A zero is not accepted. -/
def readBlockHeader? (c : Cursor) : Option (Chomping × Nat × Cursor) :=
  let digit? (c : Cursor) : Option Nat :=
    c.peek?.bind fun d => if d.isDigit then some (d.toNat - '0'.toNat) else none
  match c.peek?.bind chompingOf? with
  | some chomping =>
    match digit? c.next with
    | some 0 => none
    | some n => some (chomping, n, c.next.next)
    | none => some (chomping, 0, c.next)
  | none =>
    match digit? c with
    | some 0 => none
    | some n =>
      match c.next.peek?.bind chompingOf? with
      | some chomping => some (chomping, n, c.next.next)
      | none => some (.clip, n, c.next)
    | none => some (.clip, 0, c)

/-- Passes the indentation and the empty lines before a line of a block scalar.
An `indent` of zero is not known yet; then `widest` is the widest indentation
so far. The line breaks come last first. -/
def readIndentation? (indent : Nat) :
    (fuel : Nat) → Cursor → (widest : Nat) → (breaks : List Char) →
    Option (Nat × List Char × Cursor)
  | 0, _, _, _ => none
  | fuel + 1, c, widest, breaks =>
    match c.peek? with
    | none => some (max widest c.column, breaks, c)
    | some d =>
      if (indent = 0 ∨ c.column < indent) ∧ d = ' ' then
        readIndentation? indent fuel c.next widest breaks
      else if (indent = 0 ∨ c.column < indent) ∧ d = '\t' then none
      else if isBreak d then
        readIndentation? indent fuel c.next (max widest c.column) (d :: breaks)
      else some (max widest c.column, breaks, c)

/-- Reads the lines of a block scalar. `lineBreak` ended the last line, `breaks`
are those of the empty lines since, the last first, and `blankLine` tells
whether the last line started with a blank. -/
def readBlockLines? (isLiteral : Bool) (indent : Nat) :
    (fuel : Nat) → Cursor → (out lineBreak breaks : List Char) → (blankLine : Bool) →
    Option (List Char × List Char × List Char × Cursor)
  | 0, _, _, _, _, _ => none
  | fuel + 1, c, out, lineBreak, breaks, blankLine =>
    match c.peek? with
    | none => some (out, lineBreak, breaks, c)
    | some d =>
      if c.column ≠ indent then some (out, lineBreak, breaks, c)
      else
        let folds := !isLiteral && lineBreak == ['\n'] && !blankLine && !isBlank d
        let gap := if folds then (if breaks.isEmpty then [' '] else breaks) else breaks ++ lineBreak
        let (line, c) := c.span (!isBreak ·)
        let lineBreak := c.peek?.toList
        match readIndentation? indent fuel c.next 0 [] with
        | some (_, breaks, c) =>
          readBlockLines? isLiteral indent fuel c (line.reverse ++ (gap ++ out)) lineBreak breaks
            (isBlank d)
        | none => none

/-- Reads a block scalar after its indicator. `parent` is the indentation of
what it stands in. -/
def readBlock? (isLiteral : Bool) (parent : Int) (fuel : Nat) (c : Cursor) :
    Option (String × Cursor) := do
  let (chomping, increment, c) ← readBlockHeader? c
  let c ← c.endLine?
  let given := if increment = 0 then 0 else (max parent 0).toNat + increment
  let (widest, breaks, c) ← readIndentation? given fuel c 0 []
  let indent := if given = 0 then max (max widest (parent + 1).toNat) 1 else given
  let (out, lineBreak, breaks, c) ← readBlockLines? isLiteral indent fuel c [] [] breaks false
  let out := if chomping = .strip then out else lineBreak ++ out
  let out := if chomping = .keep then breaks ++ out else out
  some (String.ofList out.reverse, c)

end MapGate.Yaml
