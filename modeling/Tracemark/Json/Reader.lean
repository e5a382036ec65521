import Tracemark.Fault

/-!
# Reading JSON

A reader that keeps the order of members, where a repeated key keeps its first
place and takes its last value. The reading functions return the characters that
are left, and a refusal counts the characters left where it arose; its place in
the text follows from that number. Lists and objects can be nested up to a depth,
and a whole number has a largest number of digits.
-/

set_option autoImplicit false

namespace Tracemark.Json

inductive Problem where
  | expectedValue
  | expectedKey
  | expectedColon
  | expectedComma
  | extraData
  | unterminatedText
  | controlCharacter
  | badEscape
  | badUnitEscape
  | byteOrderMark
  | deepList
  | deepObject
  | manyDigits (count : Nat)
deriving Repr, DecidableEq

/-- A problem and the number of characters that were left when it arose. -/
structure Refusal where
  problem : Problem
  left : Nat
deriving Repr, DecidableEq

/-- The refusal of a problem at the front of the given text. -/
def refuse {α : Type} (problem : Problem) (input : List Char) : Except Refusal α :=
  .error ⟨problem, input.length⟩

def isGap (c : Char) : Bool :=
  c == ' ' || c == '\t' || c == '\n' || c == '\r'

def skipGap (input : List Char) : List Char :=
  input.dropWhile isGap

def hexValue? (c : Char) : Option Nat :=
  if '0' ≤ c && c ≤ '9' then some (c.toNat - 0x30)
  else if 'a' ≤ c && c ≤ 'f' then some (c.toNat - 0x61 + 10)
  else if 'A' ≤ c && c ≤ 'F' then some (c.toNat - 0x41 + 10)
  else none

/-- The UTF-16 unit that four hexadecimal digits spell. -/
def unit? (a b c d : Char) : Option Nat := do
  let first ← hexValue? a
  let second ← hexValue? b
  let third ← hexValue? c
  let fourth ← hexValue? d
  return ((first * 16 + second) * 16 + third) * 16 + fourth

def simpleEscape? (c : Char) : Option Char :=
  if c == '"' || c == '\\' || c == '/' then some c
  else if c == 'b' then some (Char.ofNat 0x08)
  else if c == 'f' then some (Char.ofNat 0x0C)
  else if c == 'n' then some '\n'
  else if c == 'r' then some '\r'
  else if c == 't' then some '\t'
  else none

/-- The character of a single unit; a surrogate that stands alone has none and is
read as the replacement character. -/
def charOfUnit (unit : Nat) : Char :=
  if 0xD800 ≤ unit && unit ≤ 0xDFFF then Char.ofNat 0xFFFD else Char.ofNat unit

/-- A part of a JSON string: a character, or a UTF-16 unit that an escape gives. -/
inductive Piece where
  | char (character : Char)
  | unit (code : Nat)
deriving Repr, DecidableEq

/-- The text of the pieces: a high and a low surrogate beside each other are one
character. -/
def joinPieces : List Piece → List Char
  | [] => []
  | .unit high :: .unit low :: rest =>
      if 0xD800 ≤ high && high ≤ 0xDBFF && 0xDC00 ≤ low && low ≤ 0xDFFF then
        Char.ofNat (0x10000 + (high - 0xD800) * 0x400 + (low - 0xDC00)) :: joinPieces rest
      else charOfUnit high :: joinPieces (.unit low :: rest)
  | .unit code :: rest => charOfUnit code :: joinPieces rest
  | .char character :: rest => character :: joinPieces rest

/-- Puts a piece in front of those that were read. -/
def consPiece (piece : Piece) (step : Except Refusal (List Piece × List Char)) :
    Except Refusal (List Piece × List Char) :=
  step.map fun (pieces, rest) => (piece :: pieces, rest)

/-- The pieces of a JSON string after its opening quote; `opened` is the number of
characters left at that quote. -/
def readPieces (opened : Nat) : List Char → Except Refusal (List Piece × List Char)
  | [] => .error ⟨.unterminatedText, opened⟩
  | '"' :: rest => .ok ([], rest)
  | '\\' :: [] => .error ⟨.unterminatedText, opened⟩
  | '\\' :: 'u' :: a :: b :: c :: d :: rest =>
      match unit? a b c d with
      | some code =>
          if rest.isEmpty then refuse .badUnitEscape ('u' :: a :: b :: c :: d :: rest)
          else consPiece (.unit code) (readPieces opened rest)
      | none => refuse .badUnitEscape ('u' :: a :: b :: c :: d :: rest)
  | '\\' :: c :: rest =>
      if c == 'u' then refuse .badUnitEscape (c :: rest)
      else
        match simpleEscape? c with
        | none => refuse .badEscape ('\\' :: c :: rest)
        | some character => consPiece (.char character) (readPieces opened rest)
  | c :: rest =>
      if c.toNat ≤ 0x1F then refuse .controlCharacter (c :: rest)
      else consPiece (.char c) (readPieces opened rest)

/-- The rest of a JSON string after its opening quote. -/
def readText (opened : Nat) (input : List Char) : Except Refusal (List Char × List Char) :=
  (readPieces opened input).map fun (pieces, rest) => (joinPieces pieces, rest)

def isDigit (c : Char) : Bool :=
  '0' ≤ c && c ≤ '9'

def digitsValue (digits : List Char) : Nat :=
  digits.foldl (fun number digit => number * 10 + (digit.toNat - 0x30)) 0

/-- The digits of a whole part: a zero alone, or digits that do not begin with
one. -/
def wholeDigits? : List Char → Option (List Char × List Char)
  | '0' :: rest => some (['0'], rest)
  | input =>
      let digits := input.takeWhile isDigit
      if digits.isEmpty then none else some (digits, input.dropWhile isDigit)

def fraction : List Char → List Char × List Char
  | '.' :: rest =>
      let digits := rest.takeWhile isDigit
      if digits.isEmpty then ([], '.' :: rest) else (digits, rest.dropWhile isDigit)
  | input => ([], input)

def exponent (input : List Char) : Option Int × List Char :=
  match input with
  | mark :: rest =>
      if mark == 'e' || mark == 'E' then
        let (negative, unsigned) :=
          match rest with
          | '-' :: more => (true, more)
          | '+' :: more => (false, more)
          | more => (false, more)
        let digits := unsigned.takeWhile isDigit
        if digits.isEmpty then (none, input)
        else
          let size : Int := digitsValue digits
          (some (if negative then -size else size), unsigned.dropWhile isDigit)
      else (none, input)
  | [] => (none, input)

/-- The largest number of digits of a whole number. -/
def digitLimit : Nat := 4300

def depthLimit : Nat := 985

def readNumber (input : List Char) : Except Refusal (Value × List Char) :=
  let (negative, unsigned) :=
    match input with
    | '-' :: rest => (true, rest)
    | rest => (false, rest)
  match wholeDigits? unsigned with
  | none => refuse .expectedValue input
  | some (whole, afterWhole) =>
      let (decimals, afterDecimals) := fraction afterWhole
      let (power, rest) := exponent afterDecimals
      if decimals.isEmpty && power.isNone then
        if digitLimit < whole.length then refuse (.manyDigits whole.length) input
        else
          let size : Int := digitsValue whole
          .ok (.int (if negative then -size else size), rest)
      else
        let shift : Int := power.getD 0 - (decimals.length : Int)
        .ok (.real (.ofDecimal negative (digitsValue (whole ++ decimals)) shift), rest)

def keywords : List (String × Value) :=
  [("null", .null), ("true", .bool true), ("false", .bool false), ("NaN", .real .undefined),
    ("Infinity", .real (.infinite false)), ("-Infinity", .real (.infinite true))]

def keyword? (input : List Char) : Option (Value × List Char) :=
  keywords.findSome? fun (word, value) =>
    if word.toList.isPrefixOf input then some (value, input.drop word.length) else none

mutual

/-- A value at the front of the text, which is not blank. The first number bounds
the work, the second one the depth. -/
def readValue : Nat → Nat → List Char → Except Refusal (Value × List Char)
  | 0, _, input => refuse .expectedValue input
  | fuel + 1, depth, input =>
      match input with
      | '"' :: rest => (readText input.length rest).map fun (text, left) =>
          (.text (String.ofList text), left)
      | '[' :: rest =>
          match depth, skipGap rest with
          | 0, _ => refuse .deepList input
          | _ + 1, ']' :: left => .ok (.list [], left)
          | below + 1, first =>
              (readItems fuel below first).map fun (items, left) => (.list items, left)
      | '{' :: rest =>
          match depth, skipGap rest with
          | 0, _ => refuse .deepObject input
          | _ + 1, '}' :: left => .ok (.object [], left)
          | below + 1, first =>
              (readMembers fuel below [] first).map fun (members, left) => (.object members, left)
      | _ =>
          match keyword? input with
          | some found => .ok found
          | none => readNumber input

def readItems : Nat → Nat → List Char → Except Refusal (List Value × List Char)
  | 0, _, input => refuse .expectedValue input
  | fuel + 1, depth, input => do
      let (item, rest) ← readValue fuel depth input
      match skipGap rest with
      | ']' :: left => return ([item], left)
      | ',' :: more =>
          let (items, left) ← readItems fuel depth (skipGap more)
          return (item :: items, left)
      | other => refuse .expectedComma other

def readMembers : Nat → Nat → Members → List Char → Except Refusal (Members × List Char)
  | 0, _, _, input => refuse .expectedKey input
  | fuel + 1, depth, members, input => do
      match input with
      | '"' :: afterQuote =>
          let (key, afterKey) ← readText input.length afterQuote
          match skipGap afterKey with
          | ':' :: afterColon =>
              let (value, rest) ← readValue fuel depth (skipGap afterColon)
              let grown := Members.put (String.ofList key) value members
              match skipGap rest with
              | '}' :: left => return (grown, left)
              | ',' :: more => readMembers fuel depth grown (skipGap more)
              | other => refuse .expectedComma other
          | other => refuse .expectedColon other
      | _ => refuse .expectedKey input

end

def readAll (input : List Char) : Except Refusal Value := do
  if input.head? == some (Char.ofNat 0xFEFF) then refuse .byteOrderMark input
  else
    let (value, rest) ← readValue (input.length + 1) depthLimit (skipGap input)
    match skipGap rest with
    | [] => return value
    | extra => refuse .extraData extra

structure Place where
  position : Nat
  line : Nat
  column : Nat
deriving Repr, DecidableEq

/-- The place of a position: lines and columns count from one. -/
def placeAt (input : List Char) (position : Nat) : Place :=
  let before := input.take position
  let lastLine := (before.reverse.takeWhile (· != '\n')).length
  ⟨position, before.count '\n' + 1, lastLine + 1⟩

def Problem.message : Problem → String
  | .expectedValue => "Expecting value"
  | .expectedKey => "Expecting property name enclosed in double quotes"
  | .expectedColon => "Expecting ':' delimiter"
  | .expectedComma => "Expecting ',' delimiter"
  | .extraData => "Extra data"
  | .unterminatedText => "Unterminated string starting at"
  | .controlCharacter => "Invalid control character at"
  | .badEscape => "Invalid \\escape"
  | .badUnitEscape => "Invalid \\uXXXX escape"
  | .byteOrderMark => "Unexpected UTF-8 BOM (decode using utf-8-sig)"
  | .deepList => "maximum recursion depth exceeded while decoding a JSON array from a unicode string"
  | .deepObject =>
      "maximum recursion depth exceeded while decoding a JSON object from a unicode string"
  | .manyDigits count =>
      s!"Exceeds the limit ({digitLimit} digits) for integer string conversion: " ++
        s!"value has {count} digits; use sys.set_int_max_str_digits() to increase the limit"

/-- Is the problem a limit of the reader, so that the place in the text is not
told? -/
def Problem.isLimit : Problem → Bool
  | .deepList => true
  | .deepObject => true
  | .manyDigits _ => true
  | _ => false

def Refusal.message (input : List Char) (refusal : Refusal) : String :=
  let place := placeAt input (input.length - refusal.left)
  if refusal.problem.isLimit then refusal.problem.message
  else s!"{refusal.problem.message}: line {place.line} column {place.column} (char {place.position})"

def Refusal.fault (refusal : Refusal) : Fault :=
  match refusal.problem with
  | .deepList => .tooDeep
  | .deepObject => .tooDeep
  | .manyDigits _ => .numberTooLong refusal.problem.message
  | _ => .notJson

def read (text : String) : Except String Value :=
  (readAll text.toList).mapError (Refusal.message text.toList)

end Tracemark.Json
