import MapGate.Yaml.Property
import MapGate.Yaml.Scalar

/-!
# Tokens

The tokens of a text, with the structure that indentation gives made explicit:
each block has a start and an end. A key is recognized only by the colon after
it, so its token is put in front of what was read before.
-/

namespace MapGate.Yaml

/-- A token. -/
inductive Token where
  | directive (directive : Directive)
  | documentStart
  | documentEnd
  | blockSequenceStart
  | blockMappingStart
  | blockEnd
  | flowSequenceStart
  | flowSequenceEnd
  | flowMappingStart
  | flowMappingEnd
  | blockEntry
  | flowEntry
  | key
  | value
  | alias (name : String)
  | anchor (name : String)
  | tag (handle suffix : String)
  | scalar (style : Style) (text : String)
  deriving DecidableEq

/-- A place at which a key may turn out to start. -/
structure KeyPlace where
  /-- Whether nothing but a key may stand there. -/
  required : Bool
  /-- How many tokens come before. -/
  tokens : Nat
  cursor : Cursor

/-- The tokens read so far, and what the next ones depend on. -/
structure Scanner where
  cursor : Cursor
  /-- The tokens, the last first. -/
  tokens : List Token := []
  /-- How many tokens there are. -/
  count : Nat := 0
  /-- The columns of the open blocks, the innermost first. -/
  indents : List Nat := []
  /-- Whether a key may start at the next token. -/
  keyAllowed : Bool := true
  /-- Where a key may have started, outside brackets. -/
  key? : Option KeyPlace := none
  /-- Where a key may have started, for each open bracket, the innermost
  first. -/
  flowKeys : List (Option KeyPlace) := []

namespace Scanner

/-- Whether a bracket is open. -/
def inFlow (s : Scanner) : Bool := !s.flowKeys.isEmpty

/-- The column of the innermost block, or -1 outside all blocks. -/
def indent (s : Scanner) : Int :=
  match s.indents with
  | column :: _ => column
  | [] => -1

/-- Adds a token. -/
def push (s : Scanner) (token : Token) : Scanner :=
  { s with tokens := token :: s.tokens, count := s.count + 1 }

/-- Adds a token so that `before` tokens come before it. -/
def insert (s : Scanner) (before : Nat) (token : Token) : Scanner :=
  let k := s.count - before
  { s with tokens := s.tokens.take k ++ token :: s.tokens.drop k, count := s.count + 1 }

/-- Moves on to a place. -/
def goto (s : Scanner) (cursor : Cursor) : Scanner := { s with cursor }

/-- Where a key may have started inside the innermost bracket, or outside of
all. -/
def currentKey? (s : Scanner) : Option KeyPlace :=
  match s.flowKeys with
  | key? :: _ => key?
  | [] => s.key?

/-- Changes where a key may have started. -/
def setKey (s : Scanner) (key? : Option KeyPlace) : Scanner :=
  match s.flowKeys with
  | _ :: outer => { s with flowKeys := key? :: outer }
  | [] => { s with key? }

/-- Gives up that a key has started. -/
def dropKey? (s : Scanner) : Option Scanner :=
  match s.currentKey? with
  | some place => if place.required then none else some (s.setKey none)
  | none => some s

/-- Notes that a key may start here, if one is allowed. -/
def noteKey? (s : Scanner) : Option Scanner :=
  if s.keyAllowed then do
    let required := !s.inFlow && s.indent == (s.cursor.column : Int)
    let s ← s.dropKey?
    some (s.setKey (some ⟨required, s.count, s.cursor⟩))
  else some s

/-- Whether a key that started at a place may still go on: on the same line and
for at most 1024 characters. -/
def isFresh (s : Scanner) (place : KeyPlace) : Bool :=
  place.cursor.line == s.cursor.line && s.cursor.index ≤ place.cursor.index + 1024

/-- The place of a key, unless the key would have gone on for too long. -/
def refresh? (s : Scanner) : Option KeyPlace → Option (Option KeyPlace)
  | none => some none
  | some place =>
    if s.isFresh place then some (some place)
    else if place.required then none
    else some none

/-- Gives up all keys that would have gone on for too long. -/
def refreshKeys? (s : Scanner) : Option Scanner := do
  let key? ← s.refresh? s.key?
  let flowKeys ← s.flowKeys.mapM s.refresh?
  some { s with key?, flowKeys }

/-- Ends the blocks that are indented deeper than a column. -/
def closeBlocks (column : Int) : (indents : List Nat) → Scanner → Scanner
  | [], s => { s with indents := [] }
  | top :: outer, s =>
    if column < top then closeBlocks column outer ({ s with indents := outer }.push .blockEnd)
    else { s with indents := top :: outer }

/-- Ends the blocks that are indented deeper than a column. Inside brackets
indentation does not count. -/
def unindent (s : Scanner) (column : Int) : Scanner :=
  if s.inFlow then s else closeBlocks column s.indents s

/-- Starts a block at a column, if it is deeper than the innermost one. -/
def openBlock (s : Scanner) (column before : Nat) (token : Token) : Scanner :=
  if s.inFlow || decide ((column : Int) ≤ s.indent) then s
  else { s with indents := column :: s.indents }.insert before token

/-- Passes blanks, comments and line breaks. After a line break a key may
start. -/
def skipGap : (fuel : Nat) → Scanner → Scanner
  | 0, s => s
  | fuel + 1, s =>
    let c := s.cursor.skipWhile fun d => d == ' ' || (d == '\t' && (s.inFlow || !s.keyAllowed))
    let c := c.skipComment
    if c.peek?.any isBreak then
      skipGap fuel { s with cursor := c.next, keyAllowed := s.keyAllowed || !s.inFlow }
    else { s with cursor := c }

/-! ## Single tokens -/

/-- Reads a directive. -/
def scanDirective? (s : Scanner) : Option Scanner := do
  let s ← (s.unindent (-1)).dropKey?
  let (directive, c) ← readDirective? s.cursor
  some ({ s with keyAllowed := false, cursor := c }.push (.directive directive))

/-- Reads the start or the end of a document. -/
def scanDocumentMark? (s : Scanner) : Option Scanner := do
  let s ← (s.unindent (-1)).dropKey?
  let token := if s.cursor.peek? = some '-' then Token.documentStart else .documentEnd
  some ({ s with keyAllowed := false, cursor := s.cursor.skip 3 }.push token)

/-- Reads an opening bracket. -/
def scanOpening? (s : Scanner) (token : Token) : Option Scanner := do
  let s ← s.noteKey?
  some ({ s with
    flowKeys := none :: s.flowKeys, keyAllowed := true, cursor := s.cursor.next }.push token)

/-- Reads a closing bracket. -/
def scanClosing? (s : Scanner) (token : Token) : Option Scanner := do
  let s ← s.dropKey?
  some ({ s with
    flowKeys := s.flowKeys.tail, keyAllowed := false, cursor := s.cursor.next }.push token)

/-- Reads a comma between entries. -/
def scanFlowEntry? (s : Scanner) : Option Scanner := do
  let s ← s.dropKey?
  some ({ s with keyAllowed := true, cursor := s.cursor.next }.push .flowEntry)

/-- Reads the indicator of a block entry or of a key, which may start a block. -/
def scanBlockIndicator? (s : Scanner) (start token : Token) (keyAllowed : Bool) :
    Option Scanner := do
  if !s.inFlow && !s.keyAllowed then none
  else
    let s ← (s.openBlock s.cursor.column s.count start).dropKey?
    some ({ s with keyAllowed, cursor := s.cursor.next }.push token)

/-- Reads the colon after a key. -/
def scanValue? (s : Scanner) : Option Scanner :=
  match s.currentKey? with
  | some place =>
    let s := s.insert place.tokens .key
    let s := (s.openBlock place.cursor.column place.tokens .blockMappingStart).setKey none
    some ({ s with keyAllowed := false, cursor := s.cursor.next }.push .value)
  | none =>
    if !s.inFlow && !s.keyAllowed then none
    else
      let s := s.openBlock s.cursor.column s.count .blockMappingStart
      some ({ s with keyAllowed := !s.inFlow, cursor := s.cursor.next }.push .value)

/-- Reads an anchor, an alias, a tag, or a scalar that is no block. -/
def scanNode? (s : Scanner) (read : Cursor → Option (Token × Cursor)) : Option Scanner := do
  let s ← s.noteKey?
  let (token, c) ← read s.cursor
  some ({ s with keyAllowed := false, cursor := c }.push token)

/-- Reads a plain scalar. -/
def scanPlain? (fuel : Nat) (s : Scanner) : Option Scanner := do
  let s ← s.noteKey?
  let (text, newLine, c) ← readPlain? s.inFlow (s.indent + 1).toNat fuel s.cursor {}
  some ({ s with keyAllowed := newLine, cursor := c }.push (.scalar .plain text))

/-- Reads a block scalar. -/
def scanBlock? (fuel : Nat) (s : Scanner) (style : Style) : Option Scanner := do
  let s ← s.dropKey?
  let (text, c) ← readBlock? (style == .literal) s.indent fuel s.cursor.next
  some ({ s with keyAllowed := true, cursor := c }.push (.scalar style text))

/-- The characters that no plain scalar starts with. -/
def isIndicator (c : Char) : Bool := "-?:,[]\x7b\x7d#&*!|>'\"%@\x60".toList.contains c

/-- Reads a quoted scalar. -/
def scanQuoted? (fuel : Nat) (s : Scanner) (style : Style) (quote : Char) : Option Scanner :=
  s.scanNode? fun c => (readQuoted? quote fuel c.next {}).map fun (t, c) => (.scalar style t, c)

/-- Reads the token that starts with a character. -/
def scanToken? (fuel : Nat) (s : Scanner) (d : Char) : Option Scanner :=
  let c := s.cursor
  if c.column = 0 ∧ d = '%' then s.scanDirective?
  else if c.atDocumentMark then s.scanDocumentMark?
  else if d = '[' then s.scanOpening? .flowSequenceStart
  else if d = '{' then s.scanOpening? .flowMappingStart
  else if d = ']' then s.scanClosing? .flowSequenceEnd
  else if d = '}' then s.scanClosing? .flowMappingEnd
  else if d = ',' then s.scanFlowEntry?
  else if d = '-' ∧ c.blankOrEndAt 1 then
    s.scanBlockIndicator? .blockSequenceStart .blockEntry true
  else if d = '?' ∧ (s.inFlow ∨ c.blankOrEndAt 1) then
    s.scanBlockIndicator? .blockMappingStart .key (!s.inFlow)
  else if d = ':' ∧ (s.inFlow ∨ c.blankOrEndAt 1) then s.scanValue?
  else if d = '*' then s.scanNode? fun c => (readName? c.next).map fun (n, c) => (.alias n, c)
  else if d = '&' then s.scanNode? fun c => (readName? c.next).map fun (n, c) => (.anchor n, c)
  else if d = '!' then
    s.scanNode? fun c => (readTag? s.inFlow c).map fun (handle, t, c) => (.tag handle t, c)
  else if d = '|' ∧ !s.inFlow then scanBlock? fuel s .literal
  else if d = '>' ∧ !s.inFlow then scanBlock? fuel s .folded
  else if d = '\'' then scanQuoted? fuel s .singleQuoted d
  else if d = '"' then scanQuoted? fuel s .doubleQuoted d
  else if (!isIndicator d && !isBlank d) || (d == '-' && !(c.rest[1]?).any isBlank) ||
      (!s.inFlow && (d == '?' || d == ':')) then scanPlain? fuel s
  else none

/-- Reads all tokens that are left. -/
def run? (fuel : Nat) : (steps : Nat) → Scanner → Option (List Token)
  | 0, _ => none
  | steps + 1, s => do
    let s ← (skipGap fuel s).refreshKeys?
    let s := s.unindent s.cursor.column
    match s.cursor.peek? with
    | none =>
      let s ← (s.unindent (-1)).dropKey?
      some s.tokens.reverse
    | some d => run? fuel steps (← scanToken? fuel s d)

end Scanner

/-- The tokens of a text. A byte order mark at the very start does not count. -/
def tokens? (text : List Char) : Option (List Token) :=
  let text := match text with
    | '\uFEFF' :: l => l
    | l => l
  if text.all isAllowed then
    let l := unifyBreaks text
    let bound := l.length + 2
    Scanner.run? bound bound { cursor := { rest := l } }
  else none

end MapGate.Yaml
