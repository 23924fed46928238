import TagOutline.Outline.Parser
import TagOutline.Script.Tree

/-!
# Outlines of scripts

The outline of a script is that of its block comments, each read by itself, one after another.
Line comments hold no tags. The first comment that is no outline ends the reading. The comments are
those of the tree that a parser makes of the script.
-/

namespace TagOutline

/-- What `read` finds in texts, one after another, up to the first error. -/
def findInTexts {α : Type} (read : String → Logged OutlineError (List α)) :
    List String → Logged OutlineError (List α)
  | [] => pure []
  | text :: texts => do
    let first ← read text
    let others ← findInTexts read texts
    return first ++ others

section

variable (parse : ByteArray → Script.SyntaxNode) (options : OutlineOptions) (text : String)

/-- The outline of a script, as drafts. -/
def scriptDraft : Logged OutlineError (List ContainerDraft) :=
  findInTexts (draft options) (Script.blockComments parse text)

/-- The outline of a script. -/
def scriptOutline : Logged OutlineError (List Entity) :=
  findInTexts (outline options) (Script.blockComments parse text)

end

end TagOutline
