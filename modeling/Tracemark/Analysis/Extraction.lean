import Tracemark.Analysis.Entry
import Tracemark.Analysis.Settings
import Tracemark.Block
import Tracemark.Git.WebLink
import Tracemark.Reference
import Tracemark.Syntax.Scope

/-!
# Extraction

What a comment holds is extracted in three parts: references, needs and a block.
An extraction tells what was gathered, and the fault that ended it if there is
one; what was gathered before a fault is kept.
-/

set_option autoImplicit false

namespace Tracemark.Analysis

/-- A comment of a source file. A comment without a file is not looked at. -/
structure Comment where
  cursor : Syntax.Cursor
  file : Option Path
deriving Repr

namespace Comment

def startRow (comment : Comment) : Nat :=
  comment.cursor.node.data.startRow

def text (comment : Comment) : Except Fault (List Char) :=
  match Utf8.decode comment.cursor.node.data.text with
  | .ok characters => .ok characters
  | .error cause => .error (.undecodable cause)

end Comment

/-- What was gathered, and the fault that ended it. -/
structure Extraction where
  references : List Entry := []
  needs : List Entry := []
  blocks : List Entry := []
  warnings : List Warning := []
  log : List Log.Record := []
  fault : Option Fault := none
deriving Repr

namespace Extraction

/-- One extraction after another; after a fault there is no other. -/
def followedBy (first : Extraction) (second : Unit → Extraction) : Extraction :=
  match first.fault with
  | some _ => first
  | none =>
      let next := second ()
      { references := first.references ++ next.references
        needs := first.needs ++ next.needs
        blocks := first.blocks ++ next.blocks
        warnings := first.warnings ++ next.warnings
        log := first.log ++ next.log
        fault := next.fault }

end Extraction

/-- Where links come from: the working directory, the address of the remote, the
revision, and the directory that files are seen from. -/
structure LinkSource where
  working : Path
  address : Option String
  revision : Option String
  project : Path
deriving Repr

/-- The link to a line of a file. Without a revision it is the address. -/
def LinkSource.link [Libraries] (source : LinkSource) (file : Path) (line : Nat) :
    List Log.Record × Except Fault (Option String) :=
  match source.address, source.revision with
  | some address, some revision =>
      if address.isEmpty || revision.isEmpty then ([], .ok (some address))
      else
        let (log, link) :=
          Git.webLink source.working address revision source.project file (toString line)
        (log, link.map some)
  | address, _ => ([], .ok address)

/-- What the entries of a comment have in common. -/
structure CommentPlace where
  source : LinkSource
  file : Path
  startRow : Nat
  scope : Option Syntax.Node
deriving Repr

namespace CommentPlace

def entry [Libraries] (place : CommentPlace) (row startColumn endColumn : Nat) (payload : Payload) :
    List Log.Record × Except Fault Entry :=
  let fileRow := place.startRow + row
  let (log, link) := place.source.link place.file (fileRow + 1)
  (log, link.map fun address =>
    ⟨place.file, address, fileRow, startColumn, endColumn, place.scope, payload⟩)

end CommentPlace

/-- What a row of a comment holds: a mark that is no need, or a piece of content
between two columns. -/
inductive Finding where
  | warning (warning : Warning)
  | piece (row startColumn endColumn : Nat) (payload : Payload)
deriving Repr

structure Gathered where
  entries : List Entry := []
  warnings : List Warning := []
  log : List Log.Record := []
  fault : Option Fault := none
deriving Repr

namespace CommentPlace

/-- Makes entries of findings, one after the other, up to the first entry that
cannot be made. The given fault ended the search for findings. -/
def gather [Libraries] (place : CommentPlace) (ending : Option Fault) : List Finding → Gathered
  | [] => { fault := ending }
  | .warning warning :: rest =>
      let later := place.gather ending rest
      { later with warnings := warning :: later.warnings }
  | .piece row startColumn endColumn payload :: rest =>
      match place.entry row startColumn endColumn payload with
      | (log, .error fault) => { log := log, fault := some fault }
      | (log, .ok entry) =>
          let later := place.gather ending rest
          { later with entries := entry :: later.entries, log := log ++ later.log }

def gatherTrail [Libraries] (place : CommentPlace) (trail : Trail Finding) : Gathered :=
  place.gather trail.fault trail.found

end CommentPlace

def Gathered.extraction (gathered : Gathered) (keep : List Entry → Extraction) : Extraction :=
  let kept : Extraction := if gathered.fault.isSome then {} else keep gathered.entries
  { kept with warnings := gathered.warnings, log := gathered.log, fault := gathered.fault }

def referenceFindings (markers : Value) (text : List Char) : Trail Finding :=
  let trail := Reference.scan markers text
  { found := trail.found.map fun reference =>
      .piece reference.row reference.startColumn reference.endColumn
        (.reference reference.ids reference.marker)
    fault := trail.fault }

/-- The lines of a comment in which needs are looked for. A comment of one line
gets a line feed at its end. -/
def markLines (text : List Char) : List (List Char) :=
  match Text.lines text with
  | [only] => [only.full ++ ['\n']]
  | several => several.map Text.Line.full

/-- What a line of a comment is read as: nothing, a warning, or a need with its
row. -/
inductive LineReading where
  | warning (row : Nat) (cause : OneLine.Warning)
  | need (row : Nat) (need : OneLine.Need)
deriving Repr

def readLine (style : OneLine.Style) (row : Nat) (line : List Char) : Trail LineReading :=
  match OneLine.read style line with
  | .error fault => .failed fault
  | .ok .nothing => {}
  | .ok (.warning cause) => { found := [.warning row cause] }
  | .ok (.need need) => { found := [.need row need] }

def readNeeds (style : OneLine.Style) (text : List Char) : Trail LineReading :=
  Trail.along (fun (line, row) => readLine style row line) (markLines text).zipIdx

/-- The warnings among the readings of a comment; without a file there are none. -/
def warningsOf (file : Option Path) (startRow : Nat) (readings : List LineReading) : List Warning :=
  match file with
  | none => []
  | some path =>
      readings.filterMap fun reading =>
        match reading with
        | .warning row cause => some ⟨path, startRow + row + 1, cause⟩
        | .need .. => none

def needsOf (readings : List LineReading) : List (OneLine.Need × Nat) :=
  readings.filterMap fun reading =>
    match reading with
    | .need row need => some (need, row)
    | .warning .. => none

def needFindings (style : OneLine.Style) (file : Path) (startRow : Nat) (text : List Char) :
    Trail Finding :=
  let trail := readNeeds style text
  { found := trail.found.map fun reading =>
      match reading with
      | .warning row cause => .warning ⟨file, startRow + row + 1, cause⟩
      | .need row need => .piece row need.startColumn need.endColumn (.need need.fields)
    fault := trail.fault }

def blockFindings (settings : Block.Settings) (text : List Char) : Trail Finding :=
  match settings.startSequence.asText, settings.endSequence.asText with
  | .error fault, _ => .failed fault
  | _, .error fault => .failed fault
  | .ok startSequence, .ok endSequence =>
      { found := (Block.find? startSequence endSequence text).toList.map fun block =>
          .piece block.row block.startIndex block.endIndex
            (.block (String.ofList block.documented)) }

def extractComment [Libraries] (settings : Settings) (source : LinkSource) (language : Language)
    (comment : Comment) : Extraction :=
  match comment.text with
  | .error fault => { fault := some fault }
  | .ok text =>
      match text, comment.file with
      | [], _ => {}
      | _, none => {}
      | _, some file =>
          let place : CommentPlace :=
            ⟨source, file, comment.startRow, comment.cursor.scope language⟩
          let references : Trail Finding :=
            if settings.wantReferences.truthy then
              referenceFindings settings.references.markers text
            else {}
          let needs : Trail Finding :=
            if settings.wantNeeds.truthy then
              needFindings settings.style file comment.startRow text
            else {}
          let blocks : Trail Finding :=
            if settings.wantBlocks.truthy then blockFindings settings.blocks text else {}
          (place.gatherTrail references).extraction (fun entries => { references := entries })
            |>.followedBy fun _ =>
              (place.gatherTrail needs).extraction (fun entries => { needs := entries })
                |>.followedBy fun _ =>
                  (place.gatherTrail blocks).extraction fun entries => { blocks := entries }

def extractAll [Libraries] (settings : Settings) (source : LinkSource) (language : Language) :
    List Comment → Extraction
  | [] => {}
  | comment :: rest =>
      (extractComment settings source language comment).followedBy fun _ =>
        extractAll settings source language rest

end Tracemark.Analysis
