import Tracemark.Console.Color
import Tracemark.Text.Blank

/-!
# Styles of a console

A style is described by words: effects, which can be negated, a colour, the
colour behind the text, and the address of a link. Styles that mean the same are
described alike in a normal form. Some styles have a name.
-/

set_option autoImplicit false

namespace Tracemark.Console

def themeNames : List String :=
  ["none", "reset", "dim", "bright", "bold", "strong", "code", "italic", "emphasize", "underline",
  "blink", "blink2", "reverse", "strike", "black", "red", "green", "yellow", "magenta", "cyan",
  "white", "inspect.attr", "inspect.attr.dunder", "inspect.callable", "inspect.async_def",
  "inspect.def", "inspect.class", "inspect.error", "inspect.equals", "inspect.help",
  "inspect.doc", "inspect.value.border", "live.ellipsis", "layout.tree.row", "layout.tree.column",
  "logging.keyword", "logging.level.notset", "logging.level.debug", "logging.level.info",
  "logging.level.warning", "logging.level.error", "logging.level.critical", "log.level",
  "log.time", "log.message", "log.path", "repr.ellipsis", "repr.indent", "repr.error", "repr.str",
  "repr.brace", "repr.comma", "repr.ipv4", "repr.ipv6", "repr.eui48", "repr.eui64",
  "repr.tag_start", "repr.tag_name", "repr.tag_contents", "repr.tag_end", "repr.attrib_name",
  "repr.attrib_equal", "repr.attrib_value", "repr.number", "repr.number_complex",
  "repr.bool_true", "repr.bool_false", "repr.none", "repr.url", "repr.uuid", "repr.call",
  "repr.path", "repr.filename", "rule.line", "rule.text", "json.brace", "json.bool_true",
  "json.bool_false", "json.null", "json.number", "json.str", "json.key", "prompt",
  "prompt.choices", "prompt.default", "prompt.invalid", "prompt.invalid.choice", "pretty",
  "scope.border", "scope.key", "scope.key.special", "scope.equals", "table.header",
  "table.footer", "table.cell", "table.title", "table.caption", "traceback.error",
  "traceback.border.syntax_error", "traceback.border", "traceback.text", "traceback.title",
  "traceback.exc_type", "traceback.exc_value", "traceback.offset", "bar.back", "bar.complete",
  "bar.finished", "bar.pulse", "progress.description", "progress.filesize",
  "progress.filesize.total", "progress.download", "progress.elapsed", "progress.percentage",
  "progress.remaining", "progress.data.speed", "progress.spinner", "status.spinner", "tree",
  "tree.line", "markdown.paragraph", "markdown.text", "markdown.em", "markdown.emph",
  "markdown.strong", "markdown.code", "markdown.code_block", "markdown.block_quote",
  "markdown.list", "markdown.item", "markdown.item.bullet", "markdown.item.number", "markdown.hr",
  "markdown.h1.border", "markdown.h1", "markdown.h2", "markdown.h3", "markdown.h4", "markdown.h5",
  "markdown.h6", "markdown.h7", "markdown.link", "markdown.link_url", "markdown.s",
  "iso8601.date", "iso8601.time", "iso8601.timezone"]

/-- The effects of a style, in the order of the normal form. -/
inductive Effect where
  | bold
  | dim
  | italic
  | underline
  | blink
  | blink2
  | reverse
  | conceal
  | strike
  | underline2
  | frame
  | encircle
  | overline
deriving Repr, DecidableEq

namespace Effect

def all : List Effect :=
  [.bold, .dim, .italic, .underline, .blink, .blink2, .reverse, .conceal, .strike, .underline2,
    .frame, .encircle, .overline]

def name : Effect → String
  | .bold => "bold"
  | .dim => "dim"
  | .italic => "italic"
  | .underline => "underline"
  | .blink => "blink"
  | .blink2 => "blink2"
  | .reverse => "reverse"
  | .conceal => "conceal"
  | .strike => "strike"
  | .underline2 => "underline2"
  | .frame => "frame"
  | .encircle => "encircle"
  | .overline => "overline"

def shortNames : List (String × Effect) :=
  [("d", .dim), ("b", .bold), ("i", .italic), ("u", .underline), ("r", .reverse),
    ("c", .conceal), ("s", .strike), ("uu", .underline2), ("o", .overline)]

def ofName? (name : String) : Option Effect :=
  match all.find? fun effect => effect.name == name with
  | some effect => some effect
  | none => shortNames.lookup name

end Effect

structure Style where
  effects : List (Effect × Bool) := []
  color : Option String := none
  background : Option String := none
  link : Option String := none
deriving Repr, DecidableEq

namespace Style

/-- Reads a word that needs no other, an effect or a colour, into a style. -/
def readWord (style : Style) (word : String) : Except Fault Style :=
  match Effect.ofName? word with
  | some effect => .ok { style with effects := (effect, true) :: style.effects }
  | none => do
      if ← isColor word then return { style with color := some word }
      else throw .unknownStyle

def readWords (style : Style) : List String → Except Fault Style
  | [] => .ok style
  | [single] =>
      let word := Text.lower single
      if word == "on" || word == "not" || word == "link" then .error .unknownStyle
      else readWord style word
  | first :: second :: rest => do
      let word := Text.lower first
      if word == "on" then
        if ← isColor second then
          readWords { style with background := some (Text.lower second) } rest
        else throw .unknownStyle
      else if word == "not" then
        match Effect.ofName? second with
        | some effect =>
            readWords { style with effects := (effect, false) :: style.effects } rest
        | none => throw .unknownStyle
      else if word == "link" then readWords { style with link := some second } rest
      else readWords (← readWord style word) (second :: rest)
def ofText (text : String) : Except Fault Style :=
  if Text.trim text.toList == "none".toList then .ok {}
  else readWords {} ((Text.words text.toList).map String.ofList)

/-- The words of an effect in the normal form. The word that was read last
counts. -/
def effectWords (style : Style) (effect : Effect) : List String :=
  match style.effects.lookup effect with
  | some true => [effect.name]
  | some false => ["not", effect.name]
  | none => []

def toText (style : Style) : String :=
  let words := Effect.all.flatMap style.effectWords ++ style.color.toList ++
    (style.background.map fun color => ["on", color]).getD [] ++
    (style.link.map fun address => ["link", address]).getD []
  if words.isEmpty then "none" else String.intercalate " " words

/-- The normal form of a description; what describes no style is its own, without
blanks around it and in lower case. -/
def normalForm (text : String) : Except Fault String :=
  match ofText text with
  | .ok style => .ok style.toText
  | .error .unknownStyle => .ok (Text.lower (String.ofList (Text.trim text.toList)))
  | .error fault => .error fault

/-- Refuses what is no style: nothing is one, and so are names and descriptions. -/
def check : Value → Except Fault Unit
  | .null => .ok ()
  | .text description =>
      if themeNames.contains description then .ok () else (ofText description).map fun _ => ()
  | .list _ => .error (.mismatch (.notHashable "list"))
  | .object _ => .error (.mismatch (.notHashable "dict"))
  | _ => .error .noSuchMember

end Style

end Tracemark.Console
