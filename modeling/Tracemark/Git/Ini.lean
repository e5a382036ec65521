import Tracemark.Fault
import Tracemark.Text.Blank
import Tracemark.Text.Case
import Tracemark.Text.Search

/-!
# Files of sections and options

A file consists of sections, each headed by a name in brackets, that hold options
with values. A deeper indented line continues the value before it. Options of the
section `DEFAULT` hold for every section. In a value, a percent sign refers to
another option.
-/

set_option autoImplicit false

namespace Tracemark.Git.Ini

/-- A value as it is read: its lines, or nothing when there is no separator. -/
abbrev Lines := Option (List (List Char))

abbrev Options (α : Type) := List (String × α)

def putOption {α : Type} (name : String) (value : α) : Options α → Options α
  | [] => [(name, value)]
  | entry :: rest =>
      if entry.1 == name then (name, value) :: rest else entry :: putOption name value rest

def option? {α : Type} (options : Options α) (name : String) : Option α :=
  (options.find? fun entry => entry.1 == name).map (·.2)

/-- The name of the section that holds for all sections. -/
def defaultSection : String := "DEFAULT"

/-- The name of an option in its one spelling. -/
def spelling (name : List Char) : String :=
  Text.lower (String.ofList name)

/-- What the reader remembers between two lines: the sections, the section and the
option it is in, how far that option is indented, and whether a line was not
understood. -/
structure ReadState where
  sections : List (String × Options Lines)
  current : Option String
  option : Option String
  indent : Nat
  misread : Bool
deriving Repr

namespace ReadState

/-- The options of a section read so far. -/
def optionsOf (state : ReadState) (name : String) : Options Lines :=
  ((state.sections.find? fun entry => entry.1 == name).map (·.2)).getD []

/-- Replaces the options of a section; a new section comes last. -/
def putOptions (state : ReadState) (name : String) (options : Options Lines) : ReadState :=
  { state with sections := putOption name options state.sections }

def currentValue? (state : ReadState) : Option (String × String × Lines) := do
  let name ← state.current
  let option ← state.option
  let value ← option? (state.optionsOf name) option
  return (name, option, value)

def extend (state : ReadState) (name option : String) (lines : List (List Char))
    (line : List Char) : ReadState :=
  state.putOptions name (putOption option (some (lines ++ [line])) (state.optionsOf name))

end ReadState

/-- The name in a section line: what is between the first and the last bracket, if
it is not empty. -/
def sectionName? : List Char → Option (List Char)
  | '[' :: rest =>
      match Text.findLast? [']'] rest with
      | some index => if index == 0 then none else some (rest.take index)
      | none => none
  | _ => none

def isSeparator (c : Char) : Bool :=
  c == '=' || c == ':'

def optionLine (text : List Char) : List Char × Option (List Char) :=
  let name := Text.dropTail Text.isBlank (text.takeWhile fun c => !isSeparator c)
  match text.dropWhile fun c => !isSeparator c with
  | [] => (name, none)
  | _ :: value => (name, some (Text.trim value))

/-- Reads a line that is neither blank nor a comment nor a continuation. `full` is
the line as it stands in the file and `text` the line without blanks around it. -/
def readHead (file : String) (number : Nat) (full text : List Char) (state : ReadState) :
    Except Fault ReadState :=
  match sectionName? text with
  | some name =>
      let known := state.putOptions (String.ofList name) (state.optionsOf (String.ofList name))
      .ok { known with current := some (String.ofList name), option := none }
  | none =>
      match state.current with
      | none => .error (.noSection file number (String.ofList full))
      | some current =>
          let (name, value) := optionLine text
          let option := spelling name
          let lines : Lines := value.map fun line => [line]
          let grown := state.putOptions current (putOption option lines (state.optionsOf current))
          .ok { grown with
            option := if option.isEmpty then none else some option
            misread := state.misread || name.isEmpty }

def readLine (file : String) (number : Nat) (full : List Char) (state : ReadState) :
    Except Fault ReadState :=
  let text := Text.trim full
  match text with
  | [] =>
      match state.currentValue? with
      | some (name, option, some lines) => .ok (state.extend name option lines [])
      | _ => .ok state
  | first :: _ =>
      if first == '#' || first == ';' then .ok state
      else
        let indent := (full.takeWhile Text.isBlank).length
        match state.currentValue? with
        | some (name, option, value) =>
            if state.indent < indent then
              match value with
              | some lines => .ok (state.extend name option lines text)
              | none => .error .noSuchMember
            else readHead file number full text { state with indent := indent }
        | none => readHead file number full text { state with indent := indent }

/-- Reads lines, which are counted from the given number on. -/
def readLines (file : String) : Nat → List (List Char) → ReadState → Except Fault ReadState
  | _, [], state => .ok state
  | number, line :: rest, state => do
      readLines file (number + 1) rest (← readLine file number line state)

def linesOf : List Char → List (List Char)
  | [] => []
  | c :: rest =>
      if c == '\n' then ['\n'] :: linesOf rest
      else
        match linesOf rest with
        | [] => [[c]]
        | line :: more => (c :: line) :: more

abbrev Sections := List (String × Options (Option (List Char)))

/-- A value as one text, without blanks at its end. -/
def joinLines (lines : Lines) : Option (List Char) :=
  lines.map fun texts => Text.dropTail Text.isBlank (List.intercalate ['\n'] texts)

def read (file : String) (text : List Char) : Except Fault Sections := do
  let state ← readLines file 1 (linesOf text) ⟨[], none, none, 0, false⟩
  if state.misread then throw .badLines
  else
    return state.sections.map fun (name, options) =>
      (name, options.map fun (option, lines) => (option, joinLines lines))

/-- The options that hold in a section: its own, then those that hold for all. -/
def optionsIn? (sections : Sections) (name : String) : Option (Options (Option (List Char))) :=
  let all := ((sections.find? fun entry => entry.1 == defaultSection).map (·.2)).getD []
  if name == defaultSection then some all
  else (sections.find? fun entry => entry.1 == name).map fun entry => entry.2 ++ all

/-- The option that a value refers to after a percent sign and an opening
parenthesis, and the rest of the value. -/
def referenceIn? (text : List Char) : Option (List Char × List Char) :=
  let name := text.takeWhile (· != ')')
  match text.dropWhile (· != ')') with
  | ')' :: 's' :: rest => if name.isEmpty then none else some (name, rest)
  | _ => none

/-- What a substitution happens in: the section, the option, and the options that
can be referred to. -/
structure Substitution where
  sectionName : String
  option : String
  raw : List Char
  options : Options (Option (List Char))
deriving Repr

/-- Replaces the references in a value; `inner` replaces those in a value that is
referred to. The number is at least the length of the value. -/
def substituteWith (context : Substitution) (inner : List Char → Except Fault (List Char)) :
    Nat → List Char → Except Fault (List Char)
  | _, [] => .ok []
  | 0, _ :: _ => .ok []
  | steps + 1, c :: rest =>
      if c != '%' then (substituteWith context inner steps rest).map (c :: ·)
      else
        match rest with
        | '%' :: more => (substituteWith context inner steps more).map ('%' :: ·)
        | '(' :: more =>
            match referenceIn? more with
            | none =>
                .error (.badReference (String.ofList (c :: rest)))
            | some (name, after) =>
                match option? context.options (spelling name) with
                | none =>
                    .error (.unknownSubstitution context.option context.sectionName
                      (spelling name) (String.ofList context.raw))
                | some none => .error (.mismatch (.notContainer "NoneType"))
                | some (some value) => do
                    let replaced ← if value.contains '%' then inner value else .ok value
                    let tail ← substituteWith context inner steps after
                    return replaced ++ tail
        | _ => .error (.badSubstitution (String.ofList (c :: rest)))

/-- Replaces the references in a value. The number bounds how deeply values refer to
values. -/
def substitute (context : Substitution) : Nat → List Char → Except Fault (List Char)
  | 0, value => substituteWith context (fun _ => .error .deepSubstitution) (value.length + 1) value
  | depth + 1, value =>
      substituteWith context (substitute context depth) (value.length + 1) value

/-- How deeply values may refer to values. -/
def substitutionDepth : Nat := 9

/-- The value of an option in a section: nothing if there is no such option, and
possibly nothing if it has no value. -/
def value? (sections : Sections) (name option : String) :
    Except Fault (Option (Option (List Char))) :=
  match optionsIn? sections name with
  | none => .ok none
  | some options =>
      match option? options option with
      | none => .ok none
      | some none => .ok (some none)
      | some (some raw) =>
          (substitute ⟨name, option, raw, options⟩ substitutionDepth raw).map
            fun text => some (some text)

end Tracemark.Git.Ini
