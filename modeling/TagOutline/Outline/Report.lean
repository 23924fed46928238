import TagOutline.Data.Display

/-!
# Reports of faulty tags

The wording of a fault found in a text of tags: with the number of the line and the line itself,
with the number alone, or with neither. Faults in the structure of an outline are told apart from
others by their heading.
-/

namespace TagOutline

inductive ReportKind where
  /-- Any fault found while tags are analysed. -/
  | analysis
  /-- The tags do not make up an outline. -/
  | structural
  deriving DecidableEq, Repr

/-- A fault with its place. A line number below one says that the place is not known. -/
structure Report where
  kind : ReportKind
  message : String
  line : Int
  content : String
  deriving DecidableEq

/-- The heading of a report that shows the line. -/
def ReportKind.heading : ReportKind → String
  | .analysis => "Tag Analysis Error at Line"
  | .structural => "Parser Error at Line"

/-- The heading of a report that gives the number alone. -/
def ReportKind.shortHeading : ReportKind → String
  | .analysis => "Line"
  | .structural => "Parser Error at Line"

/-- What stands before a message without a place. -/
def ReportKind.lead : ReportKind → String
  | .analysis => ""
  | .structural => "Parser Error: "

/-- The full wording of a report. -/
def Report.text (r : Report) : String :=
  if 0 < r.line then
    if r.content.isEmpty then s!"{r.kind.shortHeading} {decimal r.line}: {r.message}"
    else
      s!"{r.kind.heading} {decimal r.line}\nLine Content: {r.content}\nError: {r.message}\n"
  else r.kind.lead ++ r.message

end TagOutline
