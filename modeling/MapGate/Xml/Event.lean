import MapGate.Text.Ascii
import MapGate.Text.List
import MapGate.Xml.Fault

/-!
# Events of a document

The pieces of a document in their order. Each piece of markup starts with `<`
and has an end of its own kind; what stands between is text. End tags are
matched with start tags here. What a tag says besides its name, and the
entities of a text, are left unread.
-/

namespace MapGate.Xml

/-- A start tag: its name, and what follows the name up to the end of the tag. -/
structure Tag where
  name : String
  rest : List Char
  deriving DecidableEq

/-- A piece of a document. -/
inductive Event where
  | start (tag : Tag)
  /-- A tag that is start and end at once. -/
  | empty (tag : Tag)
  | close (name : String)
  | text (written : List Char)
  | cdata (content : String)
  | comment (content : String)
  | declaration (content : String)
  | doctype
  | instruction
  deriving DecidableEq

/-- The blanks that separate the parts of a tag. -/
def isSpace (c : Char) : Bool := c == ' ' || c == '\t' || c == '\r' || c == '\n'

/-- The blanks that may follow the name of an end tag. -/
def isTrailingSpace (c : Char) : Bool := isSpace c || c == '\x0c'

/-- Cuts a list at the first `>` outside quotes, which is dropped. `quote?` is
the quote that is open, and `content` holds what was passed in reverse. -/
def cutTag? (quote? : Option Char) (content : List Char) :
    List Char → Option (List Char × List Char)
  | [] => none
  | c :: cs =>
    match quote? with
    | none =>
      if c = '>' then some (content.reverse, cs)
      else cutTag? (if c = '"' ∨ c = '\'' then some c else none) (c :: content) cs
    | some q => cutTag? (if c = q then none else some q) (c :: content) cs

/-- Cuts a list at the first `>` for which there is no `<`, which is dropped.
`depth` counts the `<` that are open. -/
def cutDoctype? (depth : Nat) (content : List Char) :
    List Char → Option (List Char × List Char)
  | [] => none
  | c :: cs =>
    if c = '>' then
      if depth = 0 then some (content.reverse, cs)
      else cutDoctype? (depth - 1) (c :: content) cs
    else cutDoctype? (if c = '<' then depth + 1 else depth) (c :: content) cs

/-- What follows a keyword, in whatever case the keyword is written. -/
def stripKeyword? (keyword : String) (l : List Char) : Option (List Char) :=
  if (l.take keyword.length).map Char.toUpper = keyword.toList then
    some (l.drop keyword.length)
  else none

/-- The name of an end tag, by what stands between `</` and `>`. -/
def closedName (content : List Char) : String :=
  let name := (content.reverse.dropWhile isTrailingSpace).reverse
  String.ofList (if name.isEmpty then content else name)

/-- The tag with the given content, which ends in a slash if it has no end
tag. -/
def tagEvent (content : List Char) : Event :=
  let tag (content : List Char) : Tag :=
    ⟨String.ofList (content.takeWhile (!isSpace ·)), content.dropWhile (!isSpace ·)⟩
  if content.getLast? = some '/' then .empty (tag content.dropLast) else .start (tag content)

/-- What stands between `<?` and `>`: the declaration, or an instruction that
means nothing here. Its second question mark does not follow the first. -/
def instruction? (content : List Char) : Option Event :=
  if content.length < 2 ∨ content.getLast? ≠ some '?' then none
  else match Text.stripPrefixChars? "xml".toList content with
    | some (c :: _ :: _) =>
      some (if isSpace c then .declaration (String.ofList content.dropLast) else .instruction)
    | _ => some .instruction

/-- Reads what follows `<!`: a comment, character data or a document type. -/
def readBang? (l : List Char) : Except Fault (Event × List Char) :=
  match Text.stripPrefixChars? "--".toList l with
  | some l =>
    match Text.splitAtChars? "-->".toList l with
    | some (content, rest) => .ok (.comment (String.ofList content), rest)
    | none => .error .markup
  | none =>
    match stripKeyword? "[CDATA[" l with
    | some l =>
      match Text.splitAtChars? "]]>".toList l with
      | some (content, rest) => .ok (.cdata (String.ofList content), rest)
      | none => .error .markup
    | none =>
      match stripKeyword? "DOCTYPE" l with
      | some l =>
        match cutDoctype? 0 [] l with
        | some (content, rest) =>
          if content.all isSpace then .error .emptyDoctype else .ok (.doctype, rest)
        | none => .error .markup
      | none => .error .markup

/-- Reads what follows `<`. -/
def readMarkup (l : List Char) : Except Fault (Event × List Char) :=
  match l with
  | '!' :: l => readBang? l
  | '/' :: l => .ok (.close (closedName (l.takeWhile (· ≠ '>'))), (l.dropWhile (· ≠ '>')).drop 1)
  | '?' :: l =>
    match instruction? (l.takeWhile (· ≠ '>')) with
    | some event => .ok (event, (l.dropWhile (· ≠ '>')).drop 1)
    | none => .error .markup
  | l =>
    match cutTag? none [] l with
    | some (content, rest) => .ok (tagEvent content, rest)
    | none => .error .markup

/-- Reads the first piece of a list. A `<` that ends the document is not
counted as a piece. -/
def readEvent : List Char → Except Fault (Option (Event × List Char))
  | [] => .ok none
  | c :: cs =>
    if c ≠ '<' then
      .ok (some (.text ((c :: cs).takeWhile (· ≠ '<')), (c :: cs).dropWhile (· ≠ '<')))
    else if cs.isEmpty then .ok none
    else (readMarkup cs).map some

theorem length_cutTag? {quote? : Option Char} {seen l content rest : List Char}
    (h : cutTag? quote? seen l = some (content, rest)) : rest.length < l.length := by
  induction l generalizing quote? seen with
  | nil => simp [cutTag?] at h
  | cons c cs ih =>
    rw [List.length_cons]
    cases quote? with
    | none =>
      rw [cutTag?] at h
      split at h
      · cases h; omega
      · have := ih h; omega
    | some q =>
      rw [cutTag?] at h
      have := ih h
      omega

theorem length_cutDoctype? {depth : Nat} {seen l content rest : List Char}
    (h : cutDoctype? depth seen l = some (content, rest)) : rest.length < l.length := by
  induction l generalizing depth seen with
  | nil => simp [cutDoctype?] at h
  | cons c cs ih =>
    rw [cutDoctype?] at h
    rw [List.length_cons]
    split at h
    · split at h
      · cases h; omega
      · have := ih h; omega
    · have := ih h; omega

theorem length_stripPrefixChars? {p l rest : List Char}
    (h : Text.stripPrefixChars? p l = some rest) : rest.length ≤ l.length := by
  rw [Text.eq_append_of_stripPrefixChars? h]; simp

theorem length_splitAtChars? {mark l before rest : List Char}
    (h : Text.splitAtChars? mark l = some (before, rest)) : rest.length ≤ l.length := by
  rw [Text.eq_append_of_splitAtChars? h]; simp only [List.length_append]; omega

theorem length_stripKeyword? {keyword : String} {l rest : List Char}
    (h : stripKeyword? keyword l = some rest) : rest.length ≤ l.length := by
  unfold stripKeyword? at h
  split at h
  · cases h; simp
  · cases h

theorem length_readBang? {l rest : List Char} {event : Event}
    (h : readBang? l = .ok (event, rest)) : rest.length ≤ l.length := by
  unfold readBang? at h
  split at h
  · rename_i h₁
    split at h
    · rename_i h₂
      cases h
      exact Nat.le_trans (length_splitAtChars? h₂) (length_stripPrefixChars? h₁)
    · cases h
  · split at h
    · rename_i h₁
      split at h
      · rename_i h₂
        cases h
        exact Nat.le_trans (length_splitAtChars? h₂) (length_stripKeyword? h₁)
      · cases h
    · split at h
      · rename_i h₁
        split at h
        · rename_i h₂
          split at h
          · cases h
          · cases h
            exact Nat.le_trans (Nat.le_of_lt (length_cutDoctype? h₂)) (length_stripKeyword? h₁)
        · cases h
      · cases h

theorem length_drop_dropWhile (p : Char → Bool) (l : List Char) :
    ((l.dropWhile p).drop 1).length ≤ l.length := by
  have := (List.dropWhile_sublist p (l := l)).length_le
  rw [List.length_drop]; omega

theorem length_readMarkup {l rest : List Char} {event : Event}
    (h : readMarkup l = .ok (event, rest)) : rest.length ≤ l.length := by
  unfold readMarkup at h
  split at h
  · exact Nat.le_succ_of_le (length_readBang? h)
  · cases h; exact Nat.le_succ_of_le (length_drop_dropWhile ..)
  · split at h
    · cases h; exact Nat.le_succ_of_le (length_drop_dropWhile ..)
    · cases h
  · split at h
    · rename_i h₁; cases h; exact Nat.le_of_lt (length_cutTag? h₁)
    · cases h

/-- A piece takes up a part of the list. -/
theorem length_readEvent {l rest : List Char} {event : Event}
    (h : readEvent l = .ok (some (event, rest))) : rest.length < l.length := by
  cases l with
  | nil => simp [readEvent] at h
  | cons c cs =>
    rw [readEvent] at h
    split at h
    · rename_i hc
      cases h
      rw [List.dropWhile_cons_of_pos (by simpa using hc)]
      exact Nat.lt_succ_of_le (List.dropWhile_sublist _).length_le
    · split at h
      · cases h
      · match e : readMarkup cs, h with
        | .ok (event, rest), h =>
          simp only [Except.map, Except.ok.injEq, Option.some.injEq, Prod.mk.injEq] at h
          rw [← h.2]
          exact Nat.lt_succ_of_le (length_readMarkup e)

/-- The pieces of a document up to the first fault in its markup. `opened` are
the names of the open elements, the innermost first. -/
def eventsFrom (opened : List String) (l : List Char) : List Event × Option Fault :=
  match h : readEvent l with
  | .error fault => ([], some fault)
  | .ok none => ([], none)
  | .ok (some (event, rest)) =>
    have := length_readEvent h
    match event, opened with
    | .start tag, _ =>
      let (events, fault?) := eventsFrom (tag.name :: opened) rest
      (event :: events, fault?)
    | .close name, innermost :: outer =>
      if name = innermost then
        let (events, fault?) := eventsFrom outer rest
        (event :: events, fault?)
      else ([], some .endTag)
    | .close _, [] => ([], some .endTag)
    | _, _ =>
      let (events, fault?) := eventsFrom opened rest
      (event :: events, fault?)
termination_by l.length

/-- The pieces of a text up to the first fault in its markup. A byte order mark
at the very start does not count. -/
def events (text : List Char) : List Event × Option Fault :=
  eventsFrom [] (match text with
    | '\uFEFF' :: l => l
    | l => l)

end MapGate.Xml
