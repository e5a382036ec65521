import Tracemark.Text.Template
import Tracemark.Text.Utf8
import Tracemark.Value.Written

/-!
# Faults

The causes for which an operation can fail, and their wording. A fault says what
was wrong with the input; which faults an operation can end in is part of its
own description.
-/

set_option autoImplicit false

namespace Tracemark

/-- A value of the wrong kind for what is done with it. Kinds are named as in
`Value.kindName`. -/
inductive Mismatch where
  /-- The value cannot be gone through item by item. -/
  | notIterable (kind : String)
  /-- The value cannot hold another one. -/
  | notContainer (kind : String)
  /-- The items of the value cannot be replaced. -/
  | notAssignable (kind : String)
  /-- The value cannot be indexed by that kind of key. -/
  | badIndex (container kind : String)
  /-- The value cannot be indexed at all. -/
  | notIndexable (kind : String)
  /-- A record is given by something that has no members. -/
  | notMapping (record kind : String)
  /-- A record has no member of that name. -/
  | unknownMember (record member : String)
  /-- Members that a record needs are missing. -/
  | missingMembers (record : String) (members : List String)
  /-- The value cannot be looked up in a set. -/
  | notHashable (kind : String)
  /-- The value does not fit the operation. -/
  | unfit
deriving Repr, DecidableEq

/-- Names in quotes as an enumeration: with `and` before the last, and a comma
before that when there are more than two. -/
def enumerated (names : List String) : String :=
  let quotedNames := names.map fun name => s!"'{name}'"
  match quotedNames.reverse with
  | [] => ""
  | [only] => only
  | [second, first] => s!"{first} and {second}"
  | last :: before => String.intercalate ", " before.reverse ++ s!", and {last}"

namespace Mismatch

def message : Mismatch → String
  | .notIterable kind => s!"'{kind}' object is not iterable"
  | .notContainer kind => s!"argument of type '{kind}' is not iterable"
  | .notAssignable kind => s!"'{kind}' object does not support item assignment"
  | .badIndex container kind =>
      if container == "str" then s!"string indices must be integers, not '{kind}'"
      else s!"{container} indices must be integers or slices, not {kind}"
  | .notIndexable kind => s!"'{kind}' object is not subscriptable"
  | .notMapping record kind => s!"{record}() argument after ** must be a mapping, not {kind}"
  | .unknownMember record member =>
      s!"{record}.__init__() got an unexpected keyword argument '{member}'"
  | .missingMembers record members =>
      let noun := if members.length == 1 then "argument" else "arguments"
      s!"{record}.__init__() missing {members.length} required positional {noun}: {enumerated members}"
  | .notHashable kind => s!"unhashable type: '{kind}'"
  | .unfit => ""

end Mismatch

inductive Fault where
  /-- A mapping has no such key. -/
  | missingKey (key : Value)
  /-- A value has the wrong kind. -/
  | mismatch (cause : Mismatch)
  /-- A value has the wrong kind in a section of settings on comments. -/
  | invalidStyle (cause : Mismatch)
  /-- A value lacks an operation that only another kind of value has. -/
  | noSuchMember
  /-- An index lies outside a list. -/
  | outOfRange
  /-- Bytes that should be a text are not UTF-8. -/
  | undecodable (cause : Utf8.Fault)
  /-- A file or directory does not exist. -/
  | missingFile
  /-- A directory stands where a file is expected. -/
  | isDirectory
  /-- A file stands where a directory is expected. -/
  | notDirectory
  /-- A file or directory exists already. -/
  | alreadyExists
  /-- A path, or one of its components, is longer than files can be named. -/
  | nameTooLong
  /-- A path holds the null character. -/
  | nullCharacter
  /-- A length or number is too large to be used. -/
  | tooLarge
  /-- No memory can be had for a length. -/
  | outOfMemory
  /-- A length is negative. -/
  | negativeLength
  /-- A number has no digits. -/
  | emptyNumber
  /-- A text describes no style of a console. -/
  | unknownStyle
  /-- A tag closes a style that is not open. -/
  | unmatchedTag
  /-- A text is not JSON. -/
  | notJson
  /-- Lists and objects are nested deeper than they can be read. -/
  | tooDeep
  /-- A number has more digits than can be read. -/
  | numberTooLong (reason : String)
  /-- No grammar is known for a kind of comment. -/
  | unknownLanguage (name : Value)
  /-- A path does not lie below another. -/
  | notBelow (path base : String)
  /-- A path without a last component cannot change its suffix. -/
  | emptyName (path : String)
  /-- A sequence has fewer items than are taken from it. -/
  | tooFewItems (expected given : Nat)
  /-- A sequence has more items than are taken from it. -/
  | tooManyItems (expected : Nat)
  /-- An option line stands before any section line. -/
  | noSection (file : String) (line : Nat) (text : String)
  /-- Lines that are neither section, option nor continuation. -/
  | badLines
  /-- A percent sign starts no substitution. -/
  | badSubstitution (rest : String)
  /-- A reference to an option is not complete. -/
  | badReference (rest : String)
  /-- A substitution names an option that does not exist. -/
  | unknownSubstitution (option sectionName name raw : String)
  /-- Substitutions are nested too deeply. -/
  | deepSubstitution
  /-- A template cannot be filled. -/
  | badTemplate (problem : Text.Template.Problem)
  /-- A directive does not name its project. -/
  | noProject
  /-- A directive names both a file and a directory. -/
  | fileAndDirectory
  /-- A command refuses its input. -/
  | rejected (reason : String)
  /-- The documentation build refuses its input. -/
  | refused (reason : String)
  /-- Division by zero. -/
  | divisionByZero
deriving Repr

namespace Fault

/-- A fault in words; empty for the faults that are told by their kind alone. -/
def message : Fault → String
  | .missingKey key => key.written
  | .mismatch cause => cause.message
  | .invalidStyle cause => s!"Invalid oneline comment style configuration: {cause.message}"
  | .noSuchMember => ""
  | .outOfRange => ""
  | .undecodable cause => cause.message
  | .missingFile => ""
  | .isDirectory => ""
  | .notDirectory => ""
  | .alreadyExists => ""
  | .nameTooLong => ""
  | .nullCharacter => "embedded null byte"
  | .tooLarge => ""
  | .outOfMemory => ""
  | .negativeLength => "read length must be non-negative or -1"
  | .emptyNumber => "invalid literal for int() with base 10: ''"
  | .unknownStyle => ""
  | .unmatchedTag => ""
  | .notJson => ""
  | .tooDeep => ""
  | .numberTooLong reason => reason
  | .unknownLanguage name => s!"Unsupported comment style: {name.shown}"
  | .notBelow path base =>
      s!"{Text.quoted path} is not in the subpath of {Text.quoted base} " ++
        "OR one path is relative and the other is absolute."
  | .emptyName path => s!"PosixPath({Text.quoted path}) has an empty name"
  | .tooFewItems expected given => s!"not enough values to unpack (expected {expected}, got {given})"
  | .tooManyItems expected => s!"too many values to unpack (expected {expected})"
  | .noSection file line text =>
      s!"File contains no section headers.\nfile: PosixPath({Text.quoted file}), line: {line}\n{Text.quoted text}"
  | .badLines => ""
  | .badSubstitution rest => s!"'%' must be followed by '%' or '(', found: {Text.quoted rest}"
  | .badReference rest => s!"bad interpolation variable reference {Text.quoted rest}"
  | .unknownSubstitution option sectionName name raw =>
      s!"Bad value substitution: option {Text.quoted option} in section {Text.quoted sectionName} contains " ++
        s!"an interpolation key {Text.quoted name} which is not a valid option name. Raw value: {Text.quoted raw}"
  | .deepSubstitution => ""
  | .badTemplate problem => problem.message
  | .noProject => "Project option must be set."
  | .fileAndDirectory => "Either file or directory options can be set."
  | .rejected reason => reason
  | .refused reason => reason
  | .divisionByZero => "division by zero"

end Fault

end Tracemark
