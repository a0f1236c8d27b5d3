import MapGate.Yaml.Token

/-!
# Nodes

A document is a tree of scalars, sequences and mappings. A node may have an
anchor, and a later place may stand for the node by its anchor. Anchors are
numbered; the number of an anchor is the count of different anchor names before
it, and a number that occurs twice means the later node.
-/

namespace MapGate.Yaml

/-- A part of a document. -/
inductive Node where
  | scalar (anchor? : Option Nat) (tag? : Option String) (style : Style) (text : String)
  | sequence (anchor? : Option Nat) (tag? : Option String) (items : List Node)
  | mapping (anchor? : Option Nat) (tag? : Option String) (entries : List (Node × Node))
  /-- Stands for the node with an anchor. -/
  | alias (anchor : Nat)

namespace Node

/-- What stands where nothing is written. -/
def nothing : Node := .scalar none none .plain ""

mutual

/-- The nodes with anchors inside a node, in their order. -/
def anchored : Node → List (Nat × Node)
  | .scalar anchor? tag? style text =>
    anchor?.toList.map fun n => (n, .scalar anchor? tag? style text)
  | .sequence anchor? tag? items =>
    (anchor?.toList.map fun n => (n, .sequence anchor? tag? items)) ++ anchoredItems items
  | .mapping anchor? tag? entries =>
    (anchor?.toList.map fun n => (n, .mapping anchor? tag? entries)) ++ anchoredEntries entries
  | .alias _ => []

/-- The nodes with anchors inside some items. -/
def anchoredItems : List Node → List (Nat × Node)
  | [] => []
  | item :: items => item.anchored ++ anchoredItems items

/-- The nodes with anchors inside some entries. -/
def anchoredEntries : List (Node × Node) → List (Nat × Node)
  | [] => []
  | (key, value) :: entries => key.anchored ++ value.anchored ++ anchoredEntries entries

end

end Node

/-- The tokens that are left, and the anchors so far with their numbers, one for
each name. -/
structure Reader where
  tokens : List Token
  anchors : List (String × Nat)

namespace Reader

/-- The reader at later tokens. -/
def goto (r : Reader) (tokens : List Token) : Reader := { r with tokens }

/-- Notes an anchor and gives its number. -/
def bind (r : Reader) (name : String) : Nat × Reader :=
  let n := r.anchors.length
  (n, { r with anchors := (name, n) :: r.anchors.filter (·.1 ≠ name) })

end Reader

/-- The type that a tag stands for, by the abbreviations in force. -/
def resolveTag? (expansions : List (String × String)) (handle suffix : String) : Option String :=
  if handle = "" then some suffix else (expansions.lookup handle).map (· ++ suffix)

/-- Anchor and tag in front of a node, in either order. -/
def readProperties? (expansions : List (String × String)) (r : Reader) :
    Option (Option String × Option String × Reader) :=
  match r.tokens with
  | .anchor name :: .tag handle suffix :: rest | .tag handle suffix :: .anchor name :: rest => do
    let tag ← resolveTag? expansions handle suffix
    some (some name, some tag, r.goto rest)
  | .anchor name :: rest => some (some name, none, r.goto rest)
  | .tag handle suffix :: rest => do
    let tag ← resolveTag? expansions handle suffix
    some (none, some tag, r.goto rest)
  | _ => some (none, none, r)

mutual

/-- Reads a node. Blocks are possible outside brackets, and in a block mapping
also sequences without an indentation of their own. -/
def readNode? (expansions : List (String × String)) (block unindented : Bool) (fuel : Nat)
    (r : Reader) : Option (Node × Reader) :=
  match fuel with
  | 0 => none
  | fuel + 1 =>
    match r.tokens with
    | .alias name :: rest => (r.anchors.lookup name).map fun n => (.alias n, r.goto rest)
    | _ => do
      let (name?, tag?, r) ← readProperties? expansions r
      let (anchor?, r) := match name? with
        | some name => let (n, r) := r.bind name; (some n, r)
        | none => (none, r)
      let sequence := fun (items, r) => (Node.sequence anchor? tag? items, r)
      let mapping := fun (entries, r) => (Node.mapping anchor? tag? entries, r)
      match r.tokens with
      | .scalar style text :: rest => some (.scalar anchor? tag? style text, r.goto rest)
      | .flowSequenceStart :: rest =>
        (readFlowSequence? expansions true fuel (r.goto rest)).map sequence
      | .flowMappingStart :: rest =>
        (readFlowMapping? expansions true fuel (r.goto rest)).map mapping
      | token :: rest =>
        if unindented && token == .blockEntry then
          (readUnindented? expansions fuel r).map sequence
        else if block && token == .blockSequenceStart then
          (readBlockSequence? expansions fuel (r.goto rest)).map sequence
        else if block && token == .blockMappingStart then
          (readBlockMapping? expansions fuel (r.goto rest)).map mapping
        else if name?.isSome || tag?.isSome then some (.scalar anchor? tag? .plain "", r)
        else none
      | [] =>
        if name?.isSome || tag?.isSome then some (.scalar anchor? tag? .plain "", r) else none

/-- Reads a node, or nothing where one of the tokens `ends` comes next. -/
def readNodeUnless? (ends : List Token) (expansions : List (String × String))
    (block unindented : Bool) (fuel : Nat) (r : Reader) : Option (Node × Reader) :=
  match fuel with
  | 0 => none
  | fuel + 1 =>
    if r.tokens.head?.any (ends.contains ·) then some (.nothing, r)
    else readNode? expansions block unindented fuel r

/-- Reads the entries of a block sequence up to its end. -/
def readBlockSequence? (expansions : List (String × String)) (fuel : Nat) (r : Reader) :
    Option (List Node × Reader) :=
  match fuel with
  | 0 => none
  | fuel + 1 =>
    match r.tokens with
    | .blockEntry :: rest => do
      let (item, r) ← readNodeUnless? [.blockEntry, .blockEnd] expansions true false fuel
        (r.goto rest)
      let (items, r) ← readBlockSequence? expansions fuel r
      some (item :: items, r)
    | .blockEnd :: rest => some ([], r.goto rest)
    | _ => none

/-- Reads the entries of a sequence that is not indented. -/
def readUnindented? (expansions : List (String × String)) (fuel : Nat) (r : Reader) :
    Option (List Node × Reader) :=
  match fuel with
  | 0 => none
  | fuel + 1 =>
    match r.tokens with
    | .blockEntry :: rest => do
      let (item, r) ← readNodeUnless? [.blockEntry, .key, .value, .blockEnd] expansions true false
        fuel (r.goto rest)
      let (items, r) ← readUnindented? expansions fuel r
      some (item :: items, r)
    | _ => some ([], r)

/-- Reads the entries of a block mapping up to its end. -/
def readBlockMapping? (expansions : List (String × String)) (fuel : Nat) (r : Reader) :
    Option (List (Node × Node) × Reader) :=
  match fuel with
  | 0 => none
  | fuel + 1 =>
    match r.tokens with
    | .key :: rest => do
      let ends : List Token := [.key, .value, .blockEnd]
      let (key, r) ← readNodeUnless? ends expansions true true fuel (r.goto rest)
      let (value, r) ← match r.tokens with
        | .value :: rest => readNodeUnless? ends expansions true true fuel (r.goto rest)
        | _ => some (.nothing, r)
      let (entries, r) ← readBlockMapping? expansions fuel r
      some ((key, value) :: entries, r)
    | .blockEnd :: rest => some ([], r.goto rest)
    | _ => none

/-- Reads the entries of a sequence in brackets up to its end. -/
def readFlowSequence? (expansions : List (String × String)) (first : Bool) (fuel : Nat)
    (r : Reader) : Option (List Node × Reader) :=
  match fuel with
  | 0 => none
  | fuel + 1 =>
    match r.tokens with
    | .flowSequenceEnd :: rest => some ([], r.goto rest)
    | _ => do
      let r ← if first then some r
        else match r.tokens with
          | .flowEntry :: rest => some (r.goto rest)
          | _ => none
      match r.tokens with
      | .flowSequenceEnd :: rest => some ([], r.goto rest)
      | .key :: rest =>
        let (pair, r) ← readFlowPair? expansions fuel (r.goto rest)
        let (items, r) ← readFlowSequence? expansions false fuel r
        some (.mapping none none [pair] :: items, r)
      | _ =>
        let (item, r) ← readNode? expansions false false fuel r
        let (items, r) ← readFlowSequence? expansions false fuel r
        some (item :: items, r)

/-- Reads a key and its value as an entry of a sequence. Where no key is
written, the token in its place is passed. -/
def readFlowPair? (expansions : List (String × String)) (fuel : Nat) (r : Reader) :
    Option ((Node × Node) × Reader) :=
  match fuel with
  | 0 => none
  | fuel + 1 => do
    let (key, r) ← match r.tokens with
      | .value :: rest | .flowEntry :: rest | .flowSequenceEnd :: rest =>
        some (Node.nothing, r.goto rest)
      | _ => readNode? expansions false false fuel r
    let (value, r) ← match r.tokens with
      | .value :: rest =>
        readNodeUnless? [.flowEntry, .flowSequenceEnd] expansions false false fuel (r.goto rest)
      | _ => some (.nothing, r)
    some ((key, value), r)

/-- Reads the entries of a mapping in braces up to its end. -/
def readFlowMapping? (expansions : List (String × String)) (first : Bool) (fuel : Nat)
    (r : Reader) : Option (List (Node × Node) × Reader) :=
  match fuel with
  | 0 => none
  | fuel + 1 =>
    match r.tokens with
    | .flowMappingEnd :: rest => some ([], r.goto rest)
    | _ => do
      let r ← if first then some r
        else match r.tokens with
          | .flowEntry :: rest => some (r.goto rest)
          | _ => none
      match r.tokens with
      | .flowMappingEnd :: rest => some ([], r.goto rest)
      | .key :: rest =>
        let (key, r) ← readNodeUnless? [.value, .flowEntry, .flowMappingEnd] expansions false false
          fuel (r.goto rest)
        let (value, r) ← match r.tokens with
          | .value :: rest =>
            readNodeUnless? [.flowEntry, .flowMappingEnd] expansions false false fuel (r.goto rest)
          | _ => some (.nothing, r)
        let (entries, r) ← readFlowMapping? expansions false fuel r
        some ((key, value) :: entries, r)
      | _ =>
        let (key, r) ← readNode? expansions false false fuel r
        let (entries, r) ← readFlowMapping? expansions false fuel r
        some ((key, .nothing) :: entries, r)

end

/-- A document: its root, if anything is written, and the nodes with anchors. -/
structure Document where
  root? : Option Node
  anchors : List (Nat × Node)

namespace Document

/-- The abbreviations that are always in force. -/
def standardExpansions : List (String × String) := [("!", "!"), ("!!", "tag:yaml.org,2002:")]

/-- The abbreviations that directives give. A version is given at most once and
has to be known, and no abbreviation is given twice. -/
def expansions? : (versionSeen : Bool) → (given : List (String × String)) → List Directive →
    Option (List (String × String))
  | _, given, [] => some given
  | versionSeen, given, .version major minor :: rest =>
    if versionSeen || major != 1 || (minor != 1 && minor != 2) then none
    else expansions? true given rest
  | versionSeen, given, .tag handle expansion :: rest =>
    if (given.lookup handle).isSome then none
    else expansions? versionSeen ((handle, expansion) :: given) rest

/-- The directives at the start of some tokens. -/
def spanDirectives : List Token → List Directive × List Token
  | .directive d :: rest => let (ds, rest) := spanDirectives rest; (d :: ds, rest)
  | rest => ([], rest)

/-- Whether a document that has started is empty before some tokens. -/
def isEmptyBefore : List Token → Bool
  | [] | .directive _ :: _ | .documentStart :: _ | .documentEnd :: _ => true
  | _ => false

/-- The document of some tokens, which hold no other. -/
def ofTokens? (tokens : List Token) : Option Document :=
  if tokens.isEmpty then some ⟨none, []⟩
  else do
    let fuel := 4 * tokens.length + 8
    let (directives, rest) := spanDirectives tokens
    let given ← expansions? false [] directives
    let node := fun rest => readNode? (given ++ standardExpansions) true false fuel ⟨rest, []⟩
    let (root, r) ← match rest with
      | .documentStart :: rest =>
        if isEmptyBefore rest then some (Node.nothing, ⟨rest, []⟩) else node rest
      | _ => if directives.isEmpty then node rest else none
    if (r.tokens.dropWhile (· == .documentEnd)).isEmpty then some ⟨some root, root.anchored⟩
    else none

/-- The document of a text. -/
def ofText? (text : String) : Option Document := do ofTokens? (← tokens? text.toList)

/-- The node that a node stands for. -/
def target? (document : Document) : Node → Option Node
  | .alias n => (document.anchors.reverse.find? (·.1 == n)).map (·.2)
  | node => some node

end Document

end MapGate.Yaml
