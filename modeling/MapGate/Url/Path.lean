import MapGate.Text.List
import MapGate.Url.Encoding

/-!
# Paths of URLs

A path is a list of segments, each after a slash. The segments `.` and `..`,
also in encoded form, are no names but steps, and are taken when a path is
read. A URL that has a path without any slash in front keeps it as it is.
-/

namespace MapGate.Url

/-- The path of a URL. -/
inductive Path where
  | segments (names : List (List Char))
  | rootless (text : List Char)
  deriving DecidableEq

/-- The text of a path. -/
def Path.renderChars : Path → List Char
  | segments names => names.flatMap ('/' :: ·)
  | rootless text => text

/-- Whether a character separates segments; after a special scheme a backslash
does as well. -/
def isSlash (isSpecial : Bool) (c : Char) : Bool := c = '/' || (isSpecial && c = '\\')

/-- Whether a segment stays where it is. -/
def isDot (segment : List Char) : Bool :=
  [".".toList, "%2e".toList].contains (segment.map Char.toLower)

/-- Whether a segment leads one step up. -/
def isDotDot (segment : List Char) : Bool :=
  ["..".toList, ".%2e".toList, "%2e.".toList, "%2e%2e".toList].contains
    (segment.map Char.toLower)

/-- Whether a segment is a letter with a colon or a bar, which names a drive. -/
def isDrive : List Char → Bool
  | [c, d] => c.isAlpha && (d = ':' || d = '|')
  | _ => false

/-- The names passed so far, the last one first, after one step up. No step leads
out of a drive. -/
def stepUp : List (List Char) → List (List Char)
  | [] => []
  | name :: names => if isDrive name then name :: names else names

/-- Takes the steps in some segments; `passed` holds the names before them, the
last one first. A step at the end leaves an empty name. -/
def resolve (passed : List (List Char)) : List (List Char) → List (List Char)
  | [] => passed.reverse
  | segment :: rest =>
    if isDotDot segment then
      resolve (if rest.isEmpty then [] :: stepUp passed else stepUp passed) rest
    else if isDot segment then resolve (if rest.isEmpty then [] :: passed else passed) rest
    else resolve (segment :: passed) rest

/-- The segments of a text, of which the first slash may be left out. -/
def splitPath (isSpecial : Bool) (l : List Char) : List (List Char) :=
  let l := match l with
    | c :: rest => if isSlash isSpecial c then rest else l
    | [] => []
  l.splitOnP (isSlash isSpecial)

/-- The name of a drive with a colon; any other name as it is. -/
def tidyDrive (name : List Char) : List Char :=
  match name with
  | [c, _] => if isDrive name then [c, ':'] else name
  | _ => name

/-- The segments of a file path, which has no empty names in front, and drives
written with a colon. -/
def tidyFile (names : List (List Char)) : List (List Char) :=
  match names.dropWhile (·.isEmpty) with
  | [] => [[]]
  | names => names.map tidyDrive

/-- Reads the path after a special scheme. -/
def Path.ofSpecial (isFile : Bool) (l : List Char) : Path :=
  let names := resolve [] ((splitPath true l).map (Text.percentEncode keepsInPath))
  segments (if isFile then tidyFile names else names)

/-- Reads the path after another scheme; it has slashes unless it is empty. -/
def Path.ofOther (l : List Char) : Path :=
  if l.isEmpty then segments []
  else segments (resolve [] ((splitPath false l).map (Text.percentEncode keepsInPath)))

end MapGate.Url
