/-!
Blank characters and what is done with them: words are the maximal runs without a blank,
`squeeze` joins the words of a text by single spaces, and `trim` cuts the blanks at both ends.
-/
namespace TapeSalvage.Text

/-- The blank characters: tab to carriage return, the space separators of Unicode, the line and
paragraph separators, and the zero-width no-break space. -/
def isBlank (c : Char) : Bool :=
  let code := c.toNat
  (9 ≤ code && code ≤ 13) || code == 0x20 || code == 0xA0 || code == 0x1680 ||
    (0x2000 ≤ code && code ≤ 0x200A) || code == 0x2028 || code == 0x2029 || code == 0x202F ||
    code == 0x205F || code == 0x3000 || code == 0xFEFF

/-- One step of the split into words, from the end of the text: the word that is being read and
the words after it. -/
def wordStep (c : Char) (state : List Char × List (List Char)) : List Char × List (List Char) :=
  if isBlank c then
    ([], if state.1.isEmpty then state.2 else state.1 :: state.2)
  else
    (c :: state.1, state.2)

def words (text : List Char) : List (List Char) :=
  let (first, others) := text.foldr wordStep ([], [])
  if first.isEmpty then others else first :: others

def squeeze (text : List Char) : List Char := [' '].intercalate (words text)

def trim (text : List Char) : List Char :=
  ((text.dropWhile isBlank).reverse.dropWhile isBlank).reverse

example : squeeze " a \t b ".toList = "a b".toList := by decide
example : trim " a \t b ".toList = "a \t b".toList := by decide

end TapeSalvage.Text
