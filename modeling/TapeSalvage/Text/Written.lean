import TapeSalvage.Amount

/-!
Values as they are written. A number is written in decimal with the fewest digits that are nearer to
it than to any other amount: up to twenty-one places before the point and six zeros behind it are
written out, and beyond that an exponent stands for them. Or it is written with two decimal places,
or in hexadecimal. A quoted text stays on one line.
-/
namespace TapeSalvage.Text

open Binary (lastPlace leadingPlace)

/-- Whether rounding a candidate gives the value. Below a power of two numbers stand twice as close
as above it, unless the last place cannot go down. -/
def roundsTo (value candidate : Rat) : Bool :=
  let unit := power 2 (lastPlace value)
  let isEven := (value / unit).num % 2 == 0
  let isClose := value == power 2 (leadingPlace value) && -1074 < lastPlace value
  let reach := if candidate < value && isClose then unit / 4 else unit / 2
  let distance := (value - candidate).abs
  distance < reach || (isEven && distance == reach)

/-- The value in units of ten to the power of `scale`, if a multiple of that unit rounds to it: the
nearest such multiple, and the even one of two equally near. -/
def inUnits? (value : Rat) (scale : Int) : Option Nat :=
  let unit := power 10 scale
  let count := (value / unit).floor.toNat
  let rest := value - count * unit
  let isLow := roundsTo value (count * unit)
  let isHigh := roundsTo value ((count + 1 : Nat) * unit)
  let isLowNearer := 2 * rest < unit || (2 * rest == unit && count % 2 == 0)
  if isLow && (isLowNearer || !isHigh) then some count
  else if isHigh then some (count + 1)
  else none

structure Digits where
  count : Nat
  scale : Int

/-- The fewest digits of a value, where the given ones will do and at most `limit` of them may be
left out. -/
def Digits.shorten (value : Rat) : (limit : Nat) → Digits → Digits
  | 0, digits => digits
  | limit + 1, digits =>
    match inUnits? value (digits.scale + 1) with
    | some count => shorten value limit ⟨count, digits.scale + 1⟩
    | none => digits

/-- The fewest digits of a positive binary fraction. All its digits are as many behind the decimal
point as behind the binary one. -/
def Digits.shortest (value : Rat) : Digits :=
  let places := value.den.log2
  let all := (value * power 10 places).floor.toNat
  shorten value all.log2 ⟨all, -(places : Int)⟩

def Digits.layout (digits : Digits) : List Char :=
  let chars := Nat.toDigits 10 digits.count
  let point : Int := chars.length + digits.scale
  if 0 ≤ digits.scale ∧ point ≤ 21 then chars ++ List.replicate digits.scale.toNat '0'
  else if 0 < point ∧ point ≤ 21 then chars.take point.toNat ++ '.' :: chars.drop point.toNat
  else if -6 < point ∧ point ≤ 0 then '0' :: '.' :: List.replicate point.natAbs '0' ++ chars
  else
    let fraction := if chars.length = 1 then [] else '.' :: chars.drop 1
    let sign := if point ≤ 0 then '-' else '+'
    chars.take 1 ++ fraction ++ 'e' :: sign :: Nat.toDigits 10 (point - 1).natAbs

def decimal (value : Rat) : String :=
  if value = 0 then "0"
  else
    let sign := if value < 0 then ['-'] else []
    String.ofList (sign ++ (Digits.shortest value.abs).layout)

def amountText : Amount → String
  | .finite value => decimal value
  | .infinite isNegative => if isNegative then "-Infinity" else "Infinity"
  | .undefined => "NaN"

example : decimal (-45035996273704952) = "-45035996273704950" := by decide +kernel
example : decimal (5 / 32) = "0.15625" := by decide +kernel

/-- The nearest number of hundredths to a number that is not negative; a tie goes up. -/
def hundredths (value : Rat) : Nat := (value * 100 + 1 / 2).floor.toNat

def hundredthsText (count : Nat) : String :=
  let places := String.ofList ((Nat.toDigits 10 (count % 100)).leftpad 2 '0')
  s!"{count / 100}.{places}"

def twoPlaces (value : Rat) : String :=
  if value < 0 then "-" ++ hundredthsText (hundredths (-value))
  else hundredthsText (hundredths value)

example : twoPlaces (721 / 8) = "90.13" := by cbv

def hexDigits (value : Nat) : List Char := (Nat.toDigits 16 value).map Char.toUpper

/-- A number in hexadecimal, at least `width` characters wide. The sign of a negative number is one
of them, so that the zeros stand before it. -/
def hex (width : Nat) (value : Int) : String :=
  let sign := if value < 0 then ['-'] else []
  String.ofList ((sign ++ hexDigits value.natAbs).leftpad width '0')

example : hex 4 4097 = "1001" := by cbv
example : hex 4 (-1) = "00-1" := by cbv

/-- A control character as a backslash, a `u` and four lower-case hexadecimal digits. -/
def codeEscape (c : Char) : List Char :=
  '\\' :: 'u' :: (Nat.toDigits 16 c.toNat).leftpad 4 '0'

def quotedChar (c : Char) : List Char :=
  if c = '"' then ['\\', '"']
  else if c = '\\' then ['\\', '\\']
  else if c = '\n' then ['\\', 'n']
  else if c = '\r' then ['\\', 'r']
  else if c = '\t' then ['\\', 't']
  else if c.toNat = 8 then ['\\', 'b']
  else if c.toNat = 12 then ['\\', 'f']
  else if c.toNat < 32 then codeEscape c
  else [c]

/-- A text in double quotes, with escapes for quotes, backslashes and control characters. -/
def quoted (text : String) : String :=
  String.ofList ('"' :: text.toList.flatMap quotedChar ++ ['"'])

example : quoted "a\"\x01\n" = "\"a\\\"\\u0001\\n\"" := by cbv

end TapeSalvage.Text
