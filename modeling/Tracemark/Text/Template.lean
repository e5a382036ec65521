import Tracemark.Text.Digit
import Tracemark.Text.Quoted

/-!
# Templates

A template is a text with fields in braces. A field has a name, possibly a
conversion after an exclamation mark, and possibly a specification after a colon
that says how the value is laid out. A doubled brace stands for itself.
-/

set_option autoImplicit false

namespace Tracemark.Text.Template

/-- Why a template or a specification is refused. -/
inductive Problem where
  | loneOpen
  | loneClose
  | openInName
  | missingConversion
  | afterConversion
  | unclosedSpecification
  | unclosedField
  | unknownConversion (c : Char)
  | emptyAccess
  | missingBracket
  | afterBracket
  | tooDeep
  | tooManyDigits
  | missingPrecision
  | bothSeparators
  | separator (mark code : Char)
  | badSpecification (specification : String)
  | unknownCode (c : Char)
  | signGiven
  | spaceGiven
  | zeroGiven
  | alternateGiven
  | equalsGiven
deriving Repr, DecidableEq

/-- A character in a problem's message: itself if its code lies between the space
and a limit, and otherwise its code. -/
def shownBelow (limit : Nat) (c : Char) : String :=
  if 32 < c.toNat && c.toNat < limit then c.toString
  else "\\x" ++ String.ofList (Nat.toDigits 16 c.toNat)

def shownCode (c : Char) : String :=
  shownBelow 128 c

def shownConversion (c : Char) : String :=
  shownBelow 127 c

namespace Problem

def message : Problem → String
  | .loneOpen => "Single '\x7b' encountered in format string"
  | .loneClose => "Single '\x7d' encountered in format string"
  | .openInName => "unexpected '\x7b' in field name"
  | .missingConversion => "end of string while looking for conversion specifier"
  | .afterConversion => "expected ':' after conversion specifier"
  | .unclosedSpecification => "unmatched '\x7b' in format spec"
  | .unclosedField => "expected '\x7d' before end of string"
  | .unknownConversion c => "Unknown conversion specifier " ++ shownConversion c
  | .emptyAccess => "Empty attribute in format string"
  | .missingBracket => "Missing ']' in format string"
  | .afterBracket => "Only '.' or '[' may follow ']' in format field specifier"
  | .tooDeep => "Max string recursion exceeded"
  | .tooManyDigits => "Too many decimal digits in format string"
  | .missingPrecision => "Format specifier missing precision"
  | .bothSeparators => "Cannot specify both ',' and '_'."
  | .separator mark code =>
      let markText := mark.toString
      let codeText := shownCode code
      s!"Cannot specify '{markText}' with '{codeText}'."
  | .badSpecification specification =>
      s!"Invalid format specifier '{specification}' for object of type 'str'"
  | .unknownCode c =>
      let code := shownCode c
      s!"Unknown format code '{code}' for object of type 'str'"
  | .signGiven => "Sign not allowed in string format specifier"
  | .spaceGiven => "Space not allowed in string format specifier"
  | .zeroGiven => "Negative zero coercion (z) not allowed in string format specifier"
  | .alternateGiven => "Alternate form (#) not allowed in string format specifier"
  | .equalsGiven => "'=' alignment not allowed in string format specifier"

end Problem

structure Field where
  name : List Char
  conversion : Option Char := none
  specification : List Char := []
deriving Repr, DecidableEq

inductive Piece where
  | literal (text : List Char)
  | field (field : Field)
deriving Repr, DecidableEq

/-- Where the reader of a template is. Names and specifications are collected in
reverse. -/
inductive Mode where
  /-- Between fields. -/
  | text
  /-- In the name of a field; `bracketed` between square brackets. -/
  | name (bracketed : Bool) (collected : List Char)
  /-- After the exclamation mark. -/
  | conversion (name : List Char)
  /-- After the conversion. -/
  | converted (name : List Char) (conversion : Char)
  /-- In the specification, with the number of open braces. -/
  | specification (name : List Char) (conversion : Option Char) (depth : Nat)
      (collected : List Char)
deriving Repr, DecidableEq

def before (piece : Piece) (rest : List Piece × Option Problem) : List Piece × Option Problem :=
  (piece :: rest.1, rest.2)

def scan : Mode → List Char → List Piece × Option Problem
  | .text, [] => ([], none)
  | .text, '\x7b' :: '\x7b' :: rest => before (.literal ['\x7b']) (scan .text rest)
  | .text, '\x7d' :: '\x7d' :: rest => before (.literal ['\x7d']) (scan .text rest)
  | .text, '\x7d' :: _ => ([], some .loneClose)
  | .text, ['\x7b'] => ([], some .loneOpen)
  | .text, '\x7b' :: rest => scan (.name false []) rest
  | .text, c :: rest => before (.literal [c]) (scan .text rest)
  | .name _ _, [] => ([], some .unclosedField)
  | .name true collected, c :: rest => scan (.name (c != ']') (c :: collected)) rest
  | .name false collected, c :: rest =>
      if c == '\x7b' then ([], some .openInName)
      else if c == '[' then scan (.name true (c :: collected)) rest
      else if c == '\x7d' then before (.field { name := collected.reverse }) (scan .text rest)
      else if c == ':' then scan (.specification collected.reverse none 1 []) rest
      else if c == '!' then scan (.conversion collected.reverse) rest
      else scan (.name false (c :: collected)) rest
  | .conversion _, [] => ([], some .missingConversion)
  | .conversion name, c :: rest => scan (.converted name c) rest
  | .converted _ _, [] => ([], some .unclosedSpecification)
  | .converted name conversion, c :: rest =>
      if c == '\x7d' then
        before (.field { name := name, conversion := some conversion }) (scan .text rest)
      else if c == ':' then scan (.specification name (some conversion) 1 []) rest
      else ([], some .afterConversion)
  | .specification _ _ _ _, [] => ([], some .unclosedSpecification)
  | .specification name conversion depth collected, c :: rest =>
      if c == '\x7b' then scan (.specification name conversion (depth + 1) (c :: collected)) rest
      else if c == '\x7d' then
        if depth == 1 then
          before (.field ⟨name, conversion, collected.reverse⟩) (scan .text rest)
        else scan (.specification name conversion (depth - 1) (c :: collected)) rest
      else scan (.specification name conversion depth (c :: collected)) rest

def pieces (template : List Char) : List Piece × Option Problem :=
  scan .text template

inductive Alignment where
  | left
  | right
  | center
  | equals
deriving Repr, DecidableEq

def alignment? (c : Char) : Option Alignment :=
  match c with
  | '<' => some .left
  | '>' => some .right
  | '^' => some .center
  | '=' => some .equals
  | _ => none

/-- The fill character and the alignment at the start of a specification. -/
def takeAlignment (specification : List Char) : Option Char × Option Alignment × List Char :=
  match specification with
  | fill :: mark :: rest =>
      match alignment? mark, alignment? fill with
      | some alignment, _ => (some fill, some alignment, rest)
      | none, some alignment => (none, some alignment, mark :: rest)
      | none, none => (none, none, specification)
  | [mark] =>
      match alignment? mark with
      | some alignment => (none, some alignment, [])
      | none => (none, none, specification)
  | [] => (none, none, [])

def takeMark (mark : Char) (text : List Char) : Bool × List Char :=
  match text with
  | c :: rest => if c == mark then (true, rest) else (false, text)
  | [] => (false, [])

/-- The largest number that a specification may hold. -/
def largestNumber : Nat := Nat.pow 2 63 - 1

def takeNumber (text : List Char) : Except Problem (Option Nat × List Char) :=
  let digits := text.takeWhile isDigit
  let rest := text.dropWhile isDigit
  if digits.isEmpty then .ok (none, text)
  else if largestNumber < numberOf digits then .error .tooManyDigits
  else .ok (some (numberOf digits), rest)

/-- The width for which there is no memory, nor for any larger one. -/
def widthLimit : Nat := Nat.pow 2 32

structure Layout where
  fill : Char := ' '
  alignment : Alignment := .left
  width : Nat := 0
  precision : Option Nat := none
deriving Repr, DecidableEq

def takeSeparator (text : List Char) : Except Problem (Option Char × List Char) :=
  let (comma, afterComma) := takeMark ',' text
  let (low, afterLow) := takeMark '_' afterComma
  if comma && low then .error .bothSeparators
  else if low && (takeMark ',' afterLow).1 then .error .bothSeparators
  else .ok (if comma then some ',' else if low then some '_' else none, afterLow)

def takePrecision (text : List Char) : Except Problem (Option Nat × List Char) :=
  match text with
  | '.' :: rest =>
      match takeNumber rest with
      | .error problem => .error problem
      | .ok (none, _) => .error .missingPrecision
      | .ok (some number, left) => .ok (some number, left)
  | _ => .ok (none, text)

def allowsSeparator (mark code : Char) : Bool :=
  ['d', 'e', 'f', 'g', 'E', 'G', '%', 'F'].contains code ||
    (mark == '_' && ['b', 'o', 'x', 'X'].contains code)

def layout (specification : List Char) : Except Problem Layout := do
  let (fill, alignment, rest) := takeAlignment specification
  let (sign, rest) :=
    match rest with
    | c :: left => if c == '+' || c == '-' || c == ' ' then (some c, left) else (none, rest)
    | [] => (none, [])
  let (zero, rest) := takeMark 'z' rest
  let (alternate, rest) := takeMark '#' rest
  let (padded, rest) := if fill.isNone then takeMark '0' rest else (false, rest)
  let (width, rest) ← takeNumber rest
  let (mark, rest) ← takeSeparator rest
  let (precision, rest) ← takePrecision rest
  let code ←
    match rest with
    | [] => .ok 's'
    | [c] => .ok c
    | _ => .error (.badSpecification (String.ofList specification))
  match mark with
  | some separator =>
      if allowsSeparator separator code then pure () else throw (.separator separator code)
  | none => pure ()
  if code != 's' then throw (.unknownCode code)
  match sign with
  | some ' ' => throw .spaceGiven
  | some _ => throw .signGiven
  | none => pure ()
  if zero then throw .zeroGiven
  if alternate then throw .alternateGiven
  if alignment == some .equals then throw .equalsGiven
  return {
    fill := if padded then '0' else fill.getD ' '
    alignment := alignment.getD .left
    width := width.getD 0
    precision := precision }

/-- A text in its layout: cut to the precision, and filled up to the width. -/
def arrange (layout : Layout) (text : List Char) : List Char :=
  let kept :=
    match layout.precision with
    | some places => text.take places
    | none => text
  let missing := layout.width - kept.length
  let inFront :=
    match layout.alignment with
    | .right => missing
    | .center => missing / 2
    | _ => 0
  List.replicate inFront layout.fill ++ kept ++ List.replicate (missing - inFront) layout.fill

/-- The number that a text continues, if it consists of digits. Digits that make it
too large are a problem, whatever follows them. -/
def continueNumber (number : Nat) : List Char → Except Problem (Option Nat)
  | [] => .ok (some number)
  | c :: rest =>
      match digitValue? c with
      | none => .ok none
      | some digit =>
          let longer := number * 10 + digit
          if largestNumber < longer then .error .tooManyDigits else continueNumber longer rest

/-- The number that a text is, if it is one. -/
def readIndex (text : List Char) : Except Problem (Option Nat) :=
  if text.isEmpty then .ok none else continueNumber 0 text

inductive Access where
  | member (name : List Char)
  | item (key : List Char)
deriving Repr, DecidableEq

def startsAccess (c : Char) : Bool :=
  c == '.' || c == '['

/-- What the reader of accesses is at. -/
inductive AccessMode where
  /-- At the start of an access. -/
  | between
  /-- In the name of a member. -/
  | member (collected : List Char)
  /-- Between square brackets. -/
  | item (collected : List Char)
deriving Repr, DecidableEq

def accesses : AccessMode → List Char → List Access × Option Problem
  | .between, [] => ([], none)
  | .between, c :: rest =>
      if c == '.' then accesses (.member []) rest
      else if c == '[' then accesses (.item []) rest
      else ([], some .afterBracket)
  | .member collected, [] =>
      if collected.isEmpty then ([], some .emptyAccess) else ([.member collected.reverse], none)
  | .member collected, c :: rest =>
      if startsAccess c then
        if collected.isEmpty then ([], some .emptyAccess)
        else
          let (later, problem) :=
            if c == '.' then accesses (.member []) rest else accesses (.item []) rest
          (.member collected.reverse :: later, problem)
      else accesses (.member (c :: collected)) rest
  | .item _, [] => ([], some .missingBracket)
  | .item collected, c :: rest =>
      if c == ']' then
        if collected.isEmpty then ([], some .emptyAccess)
        else
          let (later, problem) := accesses .between rest
          (.item collected.reverse :: later, problem)
      else accesses (.item (c :: collected)) rest

def splitName (name : List Char) : List Char × List Char :=
  (name.takeWhile fun c => !startsAccess c, name.dropWhile fun c => !startsAccess c)

end Tracemark.Text.Template
