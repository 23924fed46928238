import TagOutline.Notice
import TagOutline.Outline.Draft
import TagOutline.Outline.Report
import TagOutline.Tag.Source
import TagOutline.Text.Blank

/-!
# Outlines

A text of tags read as an outline: a list of containers, each with its attributes and its children,
each of these with its own attributes. Nothing closes a container but the next one or the end of
the text, and attributes go to what was opened last.

The parser takes one tag at a time. A tag that opens a child where no container is open is an
error; other tags that are out of place are passed over with a notice. An error stops a run at its
tag, and another run goes on behind it.
-/

namespace TagOutline

/-- Why a tag cannot be taken. -/
inductive OutlineError where
  /-- A child is opened where no container is open. `content` is the line without its blanks. -/
  | orphanChild (line : Int) (content : String)
  /-- The class of the open container takes no children. -/
  | childless (missing : MissingMember)
  deriving DecidableEq

/-- The report on a child without a container. -/
def orphanReport (line : Int) (content : String) : Report :=
  ⟨.structural, "child declared before any container", line, content⟩

def OutlineError.message : OutlineError → String
  | .orphanChild line content => (orphanReport line content).text
  | .childless missing => missing.message

/-- What attributes are written to. -/
inductive Focus where
  | none
  /-- The open container, which has no children yet. -/
  | container (c : ContainerDraft)
  /-- The last child `d` of the open container, whose other children are those of `c`. -/
  | child (c : ContainerDraft) (d : ChildDraft)
  deriving DecidableEq, Inhabited

namespace Focus

/-- The open container with all its children. -/
def container? : Focus → Option ContainerDraft
  | .none => Option.none
  | .container c => some c
  | .child c d => some (c.addChild d)

/-- The name of what attributes are written to. -/
def targetName? : Focus → Option String
  | .none => Option.none
  | .container c => some c.name
  | .child _ d => some d.name

/-- Writes an attribute, if there is anything to write it to. -/
def write (f : Focus) (w : Write) : Focus :=
  match f with
  | .none => .none
  | .container c => .container (c.write w)
  | .child c d => .child c (d.write w)

/-- Opens a child in the open container, if there is one. -/
def openChild (f : Focus) (name : String) : Focus :=
  match f.container? with
  | Option.none => .none
  | some c => .child c (.new name)

end Focus

/-- A parser at work: its options, the text, the containers that are finished, and what is open. -/
structure Parser where
  options : OutlineOptions
  source : Source
  finished : List ContainerDraft
  focus : Focus

/-- What a tag led to. -/
structure ParserStep where
  parser : Parser
  notices : List Notice
  error : Option OutlineError

namespace Parser

/-- A parser that has read nothing of a text. -/
def ofText (options : OutlineOptions) (text : String) : Parser :=
  ⟨options, .ofText text, [], .none⟩

/-- Closes the open container, if there is one. -/
def close (p : Parser) : Parser :=
  { p with finished := p.finished ++ p.focus.container?.toList, focus := .none }

def openContainer (p : Parser) (t : Tag) : ParserStep :=
  ⟨{ p.close with focus := .container (.new t.value) }, [.containerOpened t.line t.value], none⟩

def openChild (p : Parser) (t : Tag) : ParserStep :=
  match p.focus with
  | .none => ⟨p, [], some (.orphanChild t.line (Text.trimmed (p.source.line t.line)))⟩
  | focus =>
    if p.options.containerClass.isContainer then
      ⟨{ p with focus := focus.openChild t.value }, [], none⟩
    else ⟨p, [], some (.childless ⟨p.options.containerClass, "add_child"⟩)⟩

def writeAttribute (p : Parser) (t : Tag) : ParserStep :=
  match p.focus with
  | .none => ⟨p, [.strayAttribute t.line t.key], none⟩
  | focus => ⟨{ p with focus := focus.write (t.key, t.value) }, [], none⟩

/-- Takes a tag that was read from the text. -/
def step (p : Parser) (t : Tag) : ParserStep :=
  let p := { p with source := p.source.readTo t }
  match p.options.role t.key with
  | .opensContainer => p.openContainer t
  | .opensChild => p.openChild t
  | .bare => ⟨p, [.bareSigil t.line], none⟩
  | .attribute => p.writeAttribute t

/-- The end of the text. -/
def finish (p : Parser) : Parser :=
  { p.close with source := p.source.finished }

/-- Takes tags up to the first error, and the end of the text after the last of them. -/
def takeAll (p : Parser) : List Tag → ParserStep
  | [] => ⟨p.finish, [], none⟩
  | t :: ts =>
    let s := p.step t
    match s.error with
    | some e => ⟨s.parser, s.notices, some e⟩
    | none =>
      let r := s.parser.takeAll ts
      ⟨r.parser, s.notices ++ r.notices, r.error⟩

/-- Takes all that is left of the text. -/
def run (p : Parser) : ParserStep :=
  p.takeAll p.source.ahead

/-- The finished containers as entities. -/
def entities (p : Parser) : List Entity :=
  p.finished.map (ContainerDraft.toEntity p.options)

/-- Every step of a run, with the tag that it took. The last one is the end of the text, unless an
error came before. -/
def trace (p : Parser) : List Tag → List (Option Tag × ParserStep)
  | [] => [(none, ⟨p.finish, [], none⟩)]
  | t :: ts =>
    let s := p.step t
    (some t, s) :: if s.error.isSome then [] else s.parser.trace ts

end Parser

namespace ParserStep

/-- The finished containers of a run, or its error. -/
def drafts (s : ParserStep) : Logged OutlineError (List ContainerDraft) :=
  ⟨s.notices, match s.error with
    | some e => .error e
    | none => .ok s.parser.finished⟩

/-- The finished containers of a run as entities, or its error. -/
def entities (s : ParserStep) : Logged OutlineError (List Entity) :=
  ⟨s.notices, match s.error with
    | some e => .error e
    | none => .ok s.parser.entities⟩

end ParserStep

/-- The outline of a text, as drafts. -/
def draft (options : OutlineOptions) (text : String) : Logged OutlineError (List ContainerDraft) :=
  (Parser.ofText options text).run.drafts

/-- The outline of a text. -/
def outline (options : OutlineOptions) (text : String) : Logged OutlineError (List Entity) :=
  (Parser.ofText options text).run.entities

end TagOutline
