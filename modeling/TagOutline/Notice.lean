import TagOutline.Data.Display

/-!
# Notices

What the program tells about its work besides its results. A notice has a level, from errors to
details, and a text. It is shown when its level is not above the print level. `Logged` is the
outcome of work that gives notices: all of them in order, and a result or an error. Which of them
are shown is decided afterwards, so it has no influence on the result.
-/

namespace TagOutline

/-- How much a notice matters; the lower the rank the more. -/
inductive Level where
  | error
  | warning
  | info
  | debug
  deriving DecidableEq, Repr

namespace Level

def rank : Level → Int
  | .error => 0
  | .warning => 1
  | .info => 2
  | .debug => 3

def ofRank? (n : Int) : Option Level :=
  [Level.error, .warning, .info, .debug].find? fun level => level.rank == n

def name : Level → String
  | .error => "ERROR"
  | .warning => "WARNING"
  | .info => "INFO"
  | .debug => "DEBUG"

/-- The terminal code that starts a level's colour. -/
def colour : Level → String
  | .error => "\x1b[91m"
  | .warning => "\x1b[93m"
  | .info => "\x1b[94m"
  | .debug => "\x1b[92m"

/-- The terminal code that ends a colour. -/
def plainColour : String :=
  "\x1b[0m"

/-- What stands in front of a notice: the name of its level in colour. Ranks that belong to no
level are shown without colour. -/
def banner (rank : Int) : String :=
  match ofRank? rank with
  | some level => s!"{level.colour}[{level.name}] {plainColour}"
  | none => s!"{plainColour}[UNKNOWN] {plainColour}"

end Level

/-- The text of a notice of any rank with several parts: nothing if the rank is above the print
level, otherwise the banner and the parts with `separator` between them, and then `ending`. -/
def shownParts (printLevel rank : Int) (parts : List Value) (separator ending : String) : String :=
  if rank ≤ printLevel then
    separator.intercalate (Level.banner rank :: parts.map Value.plain) ++ ending
  else ""

/-- Something worth telling. -/
inductive Notice where
  /-- A sigil without a key after it was passed over. -/
  | bareSigil (line : Int)
  /-- An attribute before the first container was passed over. -/
  | strayAttribute (line : Int) (key : String)
  | containerOpened (line : Int) (name : String)
  | patternUnmatched (pattern : String)
  | fileFailed (path report : String)
  | fileParsed (path : String) (containers : Nat)
  /-- There is no configuration file, and none was asked for. -/
  | configMissing
  | configLoaded (path : String)
  | totalParsed (containers : Nat)
  deriving DecidableEq

namespace Notice

def level : Notice → Level
  | .bareSigil _ => .warning
  | .strayAttribute .. => .warning
  | .containerOpened .. => .debug
  | .patternUnmatched _ => .warning
  | .fileFailed .. => .error
  | .fileParsed .. => .info
  | .configMissing => .info
  | .configLoaded _ => .info
  | .totalParsed _ => .info

def text : Notice → String
  | .bareSigil line => s!"Line {decimal line}: Bare tag sigil without key, ignored"
  | .strayAttribute line key =>
    s!"Line {decimal line}: Attribute '{key}' declared before any container, ignored"
  | .containerOpened line name => s!"Line {decimal line}: open container '{name}'"
  | .patternUnmatched pattern => s!"Pattern '{pattern}' matched no files"
  | .fileFailed path report => s!"解析文件失败 [{path}]: {report}"
  | .fileParsed path containers => s!"{path}: {containers} container(s)"
  | .configMissing => "未找到配置文件，使用默认配置"
  | .configLoaded path => s!"已加载配置文件: {path}"
  | .totalParsed containers => s!"共解析出 {containers} 个容器"

/-- Whether a notice is shown at a print level. -/
def isShown (printLevel : Int) (n : Notice) : Bool :=
  n.level.rank ≤ printLevel

/-- The line that shows a notice. -/
def display (n : Notice) : String :=
  s!"{Level.banner n.level.rank} {n.text}\n"

/-- What is shown of some notices at a print level. -/
def shown (printLevel : Int) (notices : List Notice) : String :=
  String.join ((notices.filter (isShown printLevel)).map display)

end Notice

/-- A result or an error, and the notices given on the way to it. -/
structure Logged (ε α : Type) where
  notices : List Notice
  result : Except ε α

namespace Logged

variable {ε ε' α β : Type}

/-- A result without notices. -/
def ofExcept (result : Except ε α) : Logged ε α :=
  ⟨[], result⟩

/-- Goes on with a result. The notices of both parts are kept; an error ends the work. -/
def bind (x : Logged ε α) (f : α → Logged ε β) : Logged ε β :=
  match x.result with
  | .error e => ⟨x.notices, .error e⟩
  | .ok a => ⟨x.notices ++ (f a).notices, (f a).result⟩

instance : Monad (Logged ε) where
  pure a := ⟨[], .ok a⟩
  bind := bind

/-- Puts errors in other words. -/
def mapError (f : ε → ε') (x : Logged ε α) : Logged ε' α :=
  ⟨x.notices, x.result.mapError f⟩

end Logged

end TagOutline
