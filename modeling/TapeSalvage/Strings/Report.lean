import TapeSalvage.Text.Blank
import TapeSalvage.Text.Upper

/-!
Reports of the texts of an adventure. A line that tells the player where he is begins a group, and
the lines after it belong to that place; lines before the first place form a group of their own.
-/
namespace TapeSalvage.Strings

/-- Writes doubled quotes once. -/
def singleQuotes : List Char → List Char
  | '"' :: '"' :: rest => '"' :: singleQuotes rest
  | c :: rest => c :: singleQuotes rest
  | [] => []

/-- Drops a quote after a full stop at the end, unless the stop is one of three. The text is given
last character first. -/
def dropStrayQuote : List Char → List Char
  | '"' :: '.' :: '.' :: '.' :: rest => '"' :: '.' :: '.' :: '.' :: rest
  | '"' :: '.' :: rest => '.' :: rest
  | other => other

def clean (line : String) : String :=
  let squeezed := Text.squeeze (singleQuotes line.toList)
  String.ofList (dropStrayQuote squeezed.reverse).reverse

def placeOpenings : List String := ["YOU ARE ", "YOU HAVE ENTERED", "YOU ARE IN "]

def namesPlace (openings : List String) (line : String) : Bool :=
  let capitals := Text.upper line.toList
  openings.any fun opening => opening.toList.isPrefixOf capitals

/-- A place and the lines that belong to it; lines before the first place have none. -/
structure Group where
  place : Option String
  lines : List String
  deriving DecidableEq

/-- Takes in one line in front of what follows it: the lines that still look for their place, and
the groups after them. -/
def groupStep (openings : List String) (line : String) (state : List String × List Group) :
    List String × List Group :=
  if namesPlace openings line then ([], ⟨some line, state.1⟩ :: state.2)
  else (line :: state.1, state.2)

def groupTrimmed (openings lines : List String) : List Group :=
  let (leading, groups) := lines.foldr (groupStep openings) ([], [])
  if leading.isEmpty then groups else ⟨none, leading⟩ :: groups

def trimmedLines (lines : List String) : List String :=
  (lines.map fun line => String.ofList (Text.trim line.toList)).filter (· ≠ "")

def group (openings lines : List String) : List Group := groupTrimmed openings (trimmedLines lines)

def Group.title (group : Group) : String := group.place.getD "GLOBAL / SYSTEM TEXT"

/-- A group as text: its title, its lines set in by two spaces, and an empty row. -/
def Group.text (group : Group) : String :=
  group.title ++ "\n" ++ String.join (group.lines.map fun line => "  " ++ line ++ "\n") ++ "\n"

def report (groups : List Group) : String := String.join (groups.map Group.text)

end TapeSalvage.Strings
