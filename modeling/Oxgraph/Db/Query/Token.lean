import Oxgraph.Db.Value
import Oxgraph.Lib.Words

/-! Query text: how it splits into tokens, and how a token reads as a number or a value. -/

namespace Oxgraph

-- Texts.

/-- Whether a character is Unicode white space. -/
def isWhitespace (char : Char) : Bool :=
  let point := char.toNat
  (0x09 ≤ point && point ≤ 0x0D) || point = 0x20 || point = 0x85 || point = 0xA0 ||
    point = 0x1680 || (0x2000 ≤ point && point ≤ 0x200A) || point = 0x2028 || point = 0x2029 ||
    point = 0x202F || point = 0x205F || point = 0x3000

/-- Drops leading and trailing white space. -/
def trim (text : String) : String :=
  String.ofList ((text.toList.dropWhile isWhitespace).reverse.dropWhile isWhitespace).reverse

/-- The maximal runs of characters that are no white space, from an unfinished run on. -/
def splitRuns : List Char → List Char → List (List Char)
  | run, [] => if run.isEmpty then [] else [run]
  | run, char :: rest =>
    if isWhitespace char then
      if run.isEmpty then splitRuns [] rest else run :: splitRuns [] rest
    else splitRuns (run ++ [char]) rest

/-- Splits a text at its white space. -/
def splitWhitespace (text : String) : List String :=
  (splitRuns [] text.toList).map String.ofList

/-- Maps ASCII letters to upper case, and every other character to itself. -/
def toAsciiUppercase (text : String) : String := String.ofList (text.toList.map Char.toUpper)

-- Numbers.

/-- The number that decimal digits spell, most significant first. -/
def parseDigits (digits : List Char) : Option Nat :=
  if digits.isEmpty then none
  else digits.foldlM (fun total char =>
    if '0' ≤ char ∧ char ≤ '9' then some (total * 10 + (char.toNat - '0'.toNat)) else none) 0

/-- Parses an unsigned integer below a bound, which may carry a plus sign. -/
def parseUnsigned (bound : Nat) (text : String) : Option Nat :=
  let digits := match text.toList with
    | '+' :: digits => digits
    | digits => digits
  (parseDigits digits).filter fun number => number < bound

/-- Parses a signed 64-bit integer, which may carry a sign. -/
def parseI64 (text : String) : Option Int64 :=
  match text.toList with
  | '-' :: digits =>
    ((parseDigits digits).filter fun number => number ≤ 2 ^ 63).map fun number =>
      Int64.ofInt (-number)
  | '+' :: digits =>
    ((parseDigits digits).filter fun number => number < 2 ^ 63).map fun number =>
      Int64.ofInt number
  | digits =>
    ((parseDigits digits).filter fun number => number < 2 ^ 63).map fun number =>
      Int64.ofInt number

-- Values.

-- The single and the double quotation mark.
def singleQuote : Char := Char.ofNat 0x27
def doubleQuote : Char := Char.ofNat 0x22

/-- The characters between a leading and a trailing mark. -/
def between (mark : Char) : List Char → Option (List Char)
  | [] => none
  | first :: rest => if first = mark ∧ rest.getLast? = some mark then some rest.dropLast else none

/-- Parses a quoted text; the error is the token itself. -/
def parseQuoted (token : String) : Except String String :=
  match (between singleQuote token.toList).or (between doubleQuote token.toList) with
  | some quoted => .ok (String.ofList quoted)
  | none => .error token

/-- Parses a property value literal: a boolean, an integer, or a quoted text. -/
def parseValueToken (token : String) : Except String PropertyValue :=
  let trimmed := trim token
  if trimmed = "true" then .ok (.boolean true)
  else if trimmed = "false" then .ok (.boolean false)
  else
    match parseI64 trimmed with
    | some number => .ok (.integer number)
    | none => (parseQuoted trimmed).map .text

end Oxgraph
