import TagOutline.Dialect
import TagOutline.Text.Digit

/-!
# Command lines

A command line names patterns for the files to read and has options: the format and the dialect,
the paths of a configuration and of an output file, and a switch for all notices. Options may be
shortened to any beginning that only one of them has, and may stand before or after the patterns,
which have to stand together. What follows `--` is a pattern whatever it looks like.

The arguments are first told apart and then taken from left to right; the first fault ends the
reading, and so does a wish for help.
-/

namespace TagOutline.CommandLine

inductive OutputFormat where
  | json
  | html
  deriving DecidableEq, Repr

def OutputFormat.name : OutputFormat → String
  | .json => "json"
  | .html => "html"

/-- What a command line asks for. -/
structure Arguments where
  patterns : List String
  format : OutputFormat
  dialect : Option Dialect
  configPath : String
  outputPath : String
  verbose : Bool
  deriving DecidableEq

/-- The options. -/
inductive Switch where
  | help
  | format
  | dialect
  | config
  | output
  | verbose
  deriving DecidableEq, Repr

namespace Switch

def all : List Switch :=
  [.help, .format, .dialect, .config, .output, .verbose]

def spelling : Switch → String
  | .help => "--help"
  | .format => "--format"
  | .dialect => "--dialect"
  | .config => "--config"
  | .output => "--output"
  | .verbose => "--verbose"

/-- All spellings of an option. -/
def label : Switch → String
  | .help => "-h/--help"
  | s => s.spelling

def takesValue : Switch → Bool
  | .help => false
  | .verbose => false
  | _ => true

def ofSpelling? (text : String) : Option Switch :=
  if text = "-h" then some .help else all.find? fun s => s.spelling == text

/-- The options whose spelling begins so. -/
def beginning (text : String) : List Switch :=
  all.filter fun s => s.spelling.startsWith text

end Switch

/-- Why a command line is refused. -/
inductive UsageError where
  /-- An option is shortened so that several begin so. -/
  | ambiguous (argument : String) (matching : List Switch)
  | expectedValue (switch : Switch)
  /-- A value was given to an option that has none. -/
  | ignoredValue (switch : Switch) (value : String)
  | invalidChoice (switch : Switch) (value : String) (choices : List String)
  | missingPatterns
  | unrecognized (arguments : List String)
  deriving DecidableEq

def UsageError.message : UsageError → String
  | .ambiguous argument matching =>
    s!"ambiguous option: {argument} could match " ++
      ", ".intercalate (matching.map Switch.spelling)
  | .expectedValue switch => s!"argument {switch.label}: expected one argument"
  | .ignoredValue switch value =>
    s!"argument {switch.label}: ignored explicit argument {Text.quoted value}"
  | .invalidChoice switch value choices =>
    s!"argument {switch.label}: invalid choice: {Text.quoted value} (choose from " ++
      ", ".intercalate (choices.map Text.quoted) ++ ")"
  | .missingPatterns => "the following arguments are required: patterns"
  | .unrecognized arguments => "unrecognized arguments: " ++ " ".intercalate arguments

/-! ### Telling arguments apart -/

/-- An argument by what it is. -/
inductive Argument where
  /-- A pattern, or the value of the option before it. -/
  | operand (text : String)
  /-- The mark after which all arguments are patterns. -/
  | separator
  /-- An option, with the value that is written in the same argument. -/
  | option (switch : Switch) (value : Option String)
  /-- The short option for help with more characters behind it. -/
  | cluster (more : List Char)
  /-- What looks like an option and is none. -/
  | unknown (text : String)
  deriving DecidableEq

/-- Whether what follows a minus sign makes a number: digits, or digits with a point among them
that is not the last. A line end behind it is passed over. -/
def isNumeral (cs : List Char) : Bool :=
  let written := if cs.getLast? = some '\n' then cs.dropLast else cs
  match written.dropWhile Text.isDigit with
  | [] => !written.isEmpty
  | '.' :: ds => !ds.isEmpty && ds.all Text.isDigit
  | _ => false

/-- The parts of an argument before and after the first equals sign. -/
def splitValue (text : String) : String × Option String :=
  let cs := text.toList
  let before := String.ofList (cs.takeWhile (· ≠ '='))
  match cs.dropWhile (· ≠ '=') with
  | [] => (before, none)
  | _ :: after => (before, some (String.ofList after))

/-- An argument that starts with a minus sign and is no option. -/
def otherDashed (text : String) : Argument :=
  let cs := text.toList
  if isNumeral (cs.drop 1) || cs.contains ' ' then .operand text else .unknown text

/-- An argument that starts with two minus signs and is not the spelling of an option. -/
def shortened (text : String) : Except UsageError Argument :=
  let (spelling, value) := splitValue text
  match Switch.beginning spelling with
  | [] => .ok (otherDashed text)
  | [switch] => .ok (.option switch value)
  | several => .error (.ambiguous text several)

/-- What an argument in front of the separator is. -/
def classify (text : String) : Except UsageError Argument :=
  match Switch.ofSpelling? text with
  | some switch => .ok (.option switch none)
  | none =>
    match text.toList with
    | '-' :: second :: more =>
      match splitValue text with
      | (spelling, some value) =>
        match Switch.ofSpelling? spelling with
        | some switch => .ok (.option switch (some value))
        | none =>
          if second = '-' then shortened text
          else if second = 'h' then .ok (.cluster more)
          else .ok (otherDashed text)
      | (_, none) =>
        if second = '-' then shortened text
        else if second = 'h' then .ok (.cluster more)
        else .ok (otherDashed text)
    | _ => .ok (.operand text)

/-- What each argument is. -/
def classifyAll : List String → Except UsageError (List Argument)
  | [] => .ok []
  | text :: texts =>
    if text = "--" then .ok (.separator :: texts.map .operand)
    else
      match classify text with
      | .error e => .error e
      | .ok a => (classifyAll texts).map (a :: ·)

/-! ### Taking arguments -/

/-- How far the patterns have been taken. -/
inductive PatternsState where
  | awaited
  | underway
  | complete
  deriving DecidableEq

/-- What has been taken from a command line. -/
structure Progress where
  arguments : Arguments
  patterns : PatternsState
  /-- The arguments that nothing was done with, the last one first. -/
  extras : List String

def Progress.start : Progress :=
  ⟨⟨[], .json, none, "", "", false⟩, .awaited, []⟩

/-- What a command line that is not refused wants. -/
inductive Request where
  | help
  | run (arguments : Arguments)
  deriving DecidableEq

namespace Progress

/-- An argument that nothing is done with. -/
def leave (p : Progress) (text : String) : Progress :=
  { p with extras := text :: p.extras }

/-- Takes a pattern. Patterns that come after others and an option are left. -/
def takeOperand (p : Progress) (text : String) : Progress :=
  match p.patterns with
  | .complete => p.leave text
  | _ =>
    { p with
      arguments := { p.arguments with patterns := p.arguments.patterns ++ [text] }
      patterns := .underway }

def takeSeparator (p : Progress) : Progress :=
  match p.patterns with
  | .complete => p.leave "--"
  | _ => p

/-- An option ends the row of patterns. -/
def endPatterns (p : Progress) : Progress :=
  match p.patterns with
  | .underway => { p with patterns := .complete }
  | _ => p

/-- Sets an option that has a value. -/
def setValue (p : Progress) (switch : Switch) (value : String) : Except UsageError Progress :=
  match switch with
  | .format =>
    match [OutputFormat.json, .html].find? fun f => f.name == value with
    | some format => .ok { p with arguments := { p.arguments with format } }
    | none => .error (.invalidChoice .format value ["json", "html"])
  | .dialect =>
    match Dialect.ofName? value with
    | some d => .ok { p with arguments := { p.arguments with dialect := some d } }
    | none => .error (.invalidChoice .dialect value ["form", "node"])
  | .config => .ok { p with arguments := { p.arguments with configPath := value } }
  | .output => .ok { p with arguments := { p.arguments with outputPath := value } }
  | _ => .ok p

/-- Sets the option that has no value and is not the one for help. -/
def setVerbose (p : Progress) : Progress :=
  { p with arguments := { p.arguments with verbose := true } }

/-- What is wanted once all arguments were taken. -/
def finish (p : Progress) : Except UsageError Request :=
  if p.arguments.patterns.isEmpty then .error .missingPatterns
  else if p.extras.isEmpty then .ok (.run p.arguments)
  else .error (.unrecognized p.extras.reverse)

end Progress

/-- The characters behind the short option for help. More of the same option may follow; anything
else is not looked at, unless it is given as a value. -/
def cluster (asValue : Bool) : List Char → Except UsageError Request
  | [] => if asValue then .error (.ignoredValue .help "") else .ok .help
  | c :: cs =>
    if asValue ∨ c = '-' then .error (.ignoredValue .help (String.ofList (c :: cs)))
    else if c ≠ 'h' then .ok .help
    else
      match cs with
      | '=' :: value => .error (.ignoredValue .help (String.ofList value))
      | _ => cluster false cs

/-- Takes arguments from left to right. -/
def takeAll (p : Progress) : List Argument → Except UsageError Request
  | [] => p.finish
  | .operand text :: rest => takeAll (p.takeOperand text) rest
  | .separator :: rest => takeAll p.takeSeparator rest
  | .unknown text :: rest => takeAll (p.endPatterns.leave text) rest
  | .cluster more :: _ => cluster false more
  | .option switch (some value) :: rest =>
    if switch.takesValue then
      match p.endPatterns.setValue switch value with
      | .error e => .error e
      | .ok p => takeAll p rest
    else .error (.ignoredValue switch value)
  | .option .help none :: _ => .ok .help
  | .option .verbose none :: rest => takeAll p.endPatterns.setVerbose rest
  | .option switch none :: .operand value :: rest =>
    match p.endPatterns.setValue switch value with
    | .error e => .error e
    | .ok p => takeAll p rest
  | .option switch none :: _ => .error (.expectedValue switch)

/-- What a command line asks for. -/
def parse (texts : List String) : Except UsageError Request :=
  match classifyAll texts with
  | .error e => .error e
  | .ok arguments => takeAll .start arguments

/-! ### Usage -/

def programName : String :=
  "node-parser"

/-- How the program is called. -/
def usage : String :=
  "usage: node-parser [-h] [--format \x7bjson,html\x7d] [--dialect \x7bform,node\x7d]\n" ++
  "                   [--config CONFIG_PATH] [--output OUTPUT_PATH] [--verbose]\n" ++
  "                   patterns [patterns ...]\n"

/-- The help on all arguments. -/
def help : String :=
  usage ++
  "\n从源码块注释中提取 form/node 定义\n\n" ++
  "positional arguments:\n" ++
  "  patterns              待解析文件的glob模式\n\n" ++
  "options:\n" ++
  "  -h, --help            show this help message and exit\n" ++
  "  --format \x7bjson,html\x7d  输出格式\n" ++
  "  --dialect \x7bform,node\x7d\n" ++
  "                        标签方言，覆盖配置文件中的设置\n" ++
  "  --config CONFIG_PATH  配置文件路径\n" ++
  "  --output OUTPUT_PATH  输出文件路径\n" ++
  "  --verbose             打印调试信息\n"

/-- What is shown when a command line is refused. -/
def refusal (e : UsageError) : String :=
  s!"{usage}{programName}: error: {e.message}\n"

end TagOutline.CommandLine
