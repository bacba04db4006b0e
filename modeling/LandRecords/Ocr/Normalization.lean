import LandRecords.Base.Backtracking
import Mathlib

/-! Canonical field values of OCR text: the patterns by which the value of a field is found in a
raw reading, each with its own labels, and the reading without superfluous whitespace otherwise. -/
namespace LandRecords.Ocr

open Pattern

/-- What is left open of the character tables: the decimal digits and the lower case of a text. -/
structure CharacterTables where
  isDecimal : Char → Bool
  lower : Text → Text

/-- `str.isspace`. -/
def isSpace (c : Char) : Bool :=
  let n := c.toNat
  (9 ≤ n && n ≤ 13) || (28 ≤ n && n ≤ 32) || n == 0x85 || n == 0xa0 || n == 0x1680 ||
    (0x2000 ≤ n && n ≤ 0x200a) || n == 0x2028 || n == 0x2029 || n == 0x202f || n == 0x205f ||
    n == 0x3000

/-- `str.strip`. -/
def strip (text : Text) : Text := (text.dropWhile isSpace).rdropWhile isSpace

/-- `re.sub(r"\s+", " ", text)`. -/
def collapseSpaces : Text → Text
  | [] => []
  | c :: text =>
      if isSpace c then
        if text.head?.any isSpace then collapseSpaces text else ' ' :: collapseSpaces text
      else c :: collapseSpaces text

def foldCase (c : Char) : Char :=
  let n := c.toNat
  if 65 ≤ n && n ≤ 90 then Char.ofNat (n + 32)
  else if n == 0x130 || n == 0x131 then 'i'
  else if n == 0x17f then 's'
  else if n == 0x212a then 'k'
  else c

def sameIgnoringCase (c d : Char) : Bool := foldCase d == c

def isDigit (c : Char) : Bool := 48 ≤ c.toNat && c.toNat ≤ 57

/-- `[0-9a-zA-Z/\-]`. -/
def isAsciiIdentifier (c : Char) : Bool :=
  isDigit c || (97 ≤ c.toNat && c.toNat ≤ 122) || (65 ≤ c.toNat && c.toNat ≤ 90) || c == '/' ||
    c == '-'

/-- `[0-9a-zA-Z/\-]` ignoring case. -/
def isIdentifier (c : Char) : Bool := isAsciiIdentifier (foldCase c)

def literal (letters : String) : Pattern := word sameIgnoringCase letters.toList

def spaces : Pattern := many isSpace

/-! ## Fields with a labelled number -/

def labelledNumber (labels : List String) (numberWord : Pattern) : Pattern :=
  seq (oneOf (labels.map literal)) (seq spaces (seq (opt numberWord) (seq spaces
    (group (some1 isIdentifier)))))

/-- `no\.?`. -/
def noWord : Pattern := seq (literal "no") (opt (literal "."))

def surveyPattern : Pattern :=
  labelledNumber ["khasra", "survey", "plot", "gata"] (oneOf [noWord, literal "num", literal "#"])

def khataPattern : Pattern :=
  labelledNumber ["khatauni", "khata", "account"] (oneOf [noWord, literal "num", literal "#"])

def mutationPattern : Pattern :=
  labelledNumber ["mutation", "intakal", "order"] (oneOf [noWord, literal "ref", literal "#"])

/-! ## Other fields -/

/-- `([0-9]+/[0-9]+)`. -/
def sharePattern : Pattern :=
  group (seq (some1 isDigit) (seq (char (· == '/')) (some1 isDigit)))

/-- `sq\.?\s*m`. -/
def squareMetre : Pattern := seq (literal "sq") (seq (opt (literal ".")) (seq spaces (literal "m")))

def areaPattern : Pattern :=
  group (seq (some1 fun c => isDigit c || c == '.') (seq spaces (oneOf
    [literal "hectare", literal "ha", literal "acre", literal "bigha", literal "biswa", squareMetre,
      seq (literal "square meter") (opt (literal "s"))])))

section Dates

variable (tables : CharacterTables)

def decimals : ℕ → Pattern
  | 0 => empty
  | n + 1 => seq (char tables.isDecimal) (decimals n)

/-- `[/.-]`. -/
def dateSeparator : Pattern := char fun c => c == '/' || c == '.' || c == '-'

def datePattern (first second third : ℕ) : Pattern :=
  seq (group (decimals tables first)) (seq dateSeparator (seq (group (decimals tables second))
    (seq dateSeparator (group (decimals tables third)))))

def normalizeDate (cleaned : Text) : Option Text :=
  match search (datePattern tables 2 2 4) cleaned with
  | some [day, month, year] => some (Text.join ['-'] [year, month, day])
  | _ =>
      match search (datePattern tables 4 2 2) cleaned with
      | some [year, month, day] => some (Text.join ['-'] [year, month, day])
      | _ => none

end Dates

def firstGroup (p : Pattern) (text : Text) : Option Text := (search p text).bind List.head?

def fieldValue (tables : CharacterTables) (fieldName cleaned : Text) : Option Text :=
  if fieldName = "survey_number".toList then firstGroup surveyPattern cleaned
  else if fieldName = "khata_number".toList then firstGroup khataPattern cleaned
  else if fieldName = "share_fraction".toList then firstGroup sharePattern cleaned
  else if fieldName = "area".toList then (firstGroup areaPattern cleaned).map tables.lower
  else if fieldName = "mutation_reference".toList then firstGroup mutationPattern cleaned
  else if fieldName = "date".toList then normalizeDate tables cleaned
  else none

/-- No value for an empty reading, the one found, or the cleaned reading. -/
def normalizeFieldCanonical (tables : CharacterTables) (fieldName rawValue : Text) : Option Text :=
  if rawValue = [] then none
  else
    let cleaned := strip rawValue
    some ((fieldValue tables fieldName cleaned).getD (collapseSpaces cleaned))

end LandRecords.Ocr
