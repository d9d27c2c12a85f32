import TapeSalvage.Bytes
import TapeSalvage.Text.Blank
import TapeSalvage.Text.Written

/-!
The text of a line. Outside quotes a byte with its top bit set is a keyword; inside quotes, and
for all other bytes, the character set of the machine decides. A quote is always written and turns
quoting on or off.
-/
namespace TapeSalvage.Listing

def firstKeyword : Nat := 0x80

def keywords : List String :=
  ["END", "FOR", "NEXT", "DATA", "INPUT#", "INPUT", "DIM", "READ",
   "LET", "GOTO", "RUN", "IF", "RESTORE", "GOSUB", "RETURN", "REM",
   "STOP", "ON", "WAIT", "LOAD", "SAVE", "VERIFY", "DEF", "POKE",
   "PRINT#", "PRINT", "CONT", "LIST", "CLR", "CMD", "SYS", "OPEN",
   "CLOSE", "GET", "NEW", "TAB(", "TO", "FN", "SPC(", "THEN",
   "NOT", "STEP", "+", "-", "*", "/", "^", "AND",
   "OR", ">", "=", "<", "SGN", "INT", "ABS", "USR",
   "FRE", "POS", "SQR", "RND", "LOG", "EXP", "COS", "SIN",
   "TAN", "ATN", "PEEK", "LEN", "STR$", "VAL", "ASC", "CHR$",
   "LEFT$", "RIGHT$", "MID$", "GO"]

def keyword? (byte : UInt8) : Option String :=
  if byte.toNat < firstKeyword then none else keywords[byte.toNat - firstKeyword]?

inductive Style where
  /-- Printable characters only; blanks are squeezed. -/
  | strict
  /-- Cursor moves become spaces and shifted letters capitals; spacing is kept. -/
  | layout
  deriving DecidableEq

def glyph (style : Style) (byte : UInt8) : List Char :=
  if byte = 0xA0 then [' ']
  else if style = .layout && (byte = 0x11 || byte = 0x1D || byte = 0x9D) then [' ']
  else if style = .layout && byte = 0x90 then []
  else if style = .layout && 0xC1 ≤ byte && byte ≤ 0xDA then [Char.ofNat (byte.toNat - 0x80)]
  else if 0x20 ≤ byte && byte ≤ 0x7E then [Char.ofNat byte.toNat]
  else ['.']

/-- The text of a byte with its top bit set outside quotes: its keyword, or else its number in
braces. -/
def token (byte : UInt8) : List Char :=
  match keyword? byte with
  | some keyword => keyword.toList
  | none => '\x7b' :: (Text.hex 2 byte.toNat).toList ++ ['\x7d']

def spell (style : Style) (isQuoted : Bool) (byte : UInt8) : List Char :=
  if byte = 0x22 then ['"']
  else if !isQuoted && 0x80 ≤ byte then token byte
  else glyph style byte

/-- Where the rendering of a line stands: whether it is inside quotes, and the text so far, last
character first. -/
structure Pen where
  isQuoted : Bool
  written : List Char

def Pen.write (style : Style) (pen : Pen) (byte : UInt8) : Pen where
  isQuoted := pen.isQuoted ^^ byte == 0x22
  written := (spell style pen.isQuoted byte).reverseAux pen.written

/-- The text of the bytes before the first zero byte, as it is spelt. -/
def spellLine (style : Style) (body : Bytes) : List Char :=
  let line := body.takeWhile (· != 0)
  (line.foldl (Pen.write style) ⟨false, []⟩).written.reverse

def lineText (style : Style) (body : Bytes) : String :=
  let text := spellLine style body
  String.ofList <| match style with
    | .strict => Text.squeeze text
    | .layout => text

example : lineText .strict [0x99, 0x22, 0x99, 0x22, 0xFF] = "PRINT\".\"\x7bFF\x7d" := by cbv

end TapeSalvage.Listing
