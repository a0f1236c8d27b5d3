import MapGate.Text.List

/-!
# Links in capability documents

A capability document tells clients where to send requests. A link is an
`http` or `https` address after one of the openings that announce it, up to the
next quotation mark or tag; it counts here if it has a `MAP` parameter.
`pieces` cuts a document into its links and what lies between them, and loses
nothing.
-/

namespace MapGate.Capabilities

/-- What announces a link. -/
def openings : List (List Char) :=
  ["xlink:href=\"".toList, "onlineResource=\"".toList, "<OnlineResource>".toList]

/-- What comes before the name of a parameter. -/
def parameterMarks : List (List Char) := ["?".toList, "&amp;".toList, "&".toList]

/-- Whether characters start with the name of the `MAP` parameter, in any case, and
an equals sign. -/
def startsWithMap (l : List Char) : Bool :=
  "map=".toList.isPrefixOf (l.map Char.toLower)

/-- Whether a `MAP` parameter starts here. -/
def mapStarts (l : List Char) : Bool :=
  parameterMarks.any fun mark =>
    match Text.stripPrefixChars? mark l with
    | some rest => startsWithMap rest
    | none => false

/-- Whether a `MAP` parameter starts anywhere. -/
def hasMap : List Char → Bool
  | [] => false
  | c :: cs => mapStarts (c :: cs) || hasMap cs

/-- Whether an address is one of a web server with a `MAP` parameter. -/
def isMapLink (l : List Char) : Bool :=
  ["http://".toList, "https://".toList].any fun scheme =>
    match Text.stripPrefixChars? scheme l with
    | some rest => hasMap rest
    | none => false

/-- Whether a character can be part of a link. -/
def isLinkChar (c : Char) : Bool := c ≠ '"' && c ≠ '<'

/-- The opening and the link that characters start with. -/
def opened? (l : List Char) : Option (List Char × List Char) :=
  openings.findSome? fun opening =>
    match Text.stripPrefixChars? opening l with
    | some rest =>
      let link := rest.takeWhile isLinkChar
      if isMapLink link then some (opening, link) else none
    | none => none

/-- A part of a document. -/
inductive Piece where
  | text (chars : List Char)
  | link (chars : List Char)
  deriving DecidableEq

/-- The characters of a piece. -/
def Piece.chars : Piece → List Char
  | text chars => chars
  | link chars => chars

/-- The pieces of some characters, of which the first `skip` are in a piece
already. -/
def piecesFrom : (skip : Nat) → List Char → List Piece
  | _, [] => []
  | skip + 1, _ :: cs => piecesFrom skip cs
  | 0, c :: cs =>
    match opened? (c :: cs) with
    | some (opening, link) =>
      .text opening :: .link link :: piecesFrom (opening.length + link.length - 1) cs
    | none => .text [c] :: piecesFrom 0 cs

/-- The pieces of a document. -/
def pieces (document : String) : List Piece := piecesFrom 0 document.toList

/-- The link that a piece is. -/
def Piece.link? : Piece → Option String
  | text _ => none
  | link chars => some (String.ofList chars)

/-- The links of a document in their order. -/
def links (document : String) : List String := (pieces document).filterMap Piece.link?

end MapGate.Capabilities
