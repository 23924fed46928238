import TagOutline.Notice
import TagOutline.Outline.Options

/-!
# Configurations

What can be configured: the dialect of the tags, the attributes that the rendering leaves out, the
indent of the rendering, and the print level.
-/

namespace TagOutline

/-- A configuration. -/
structure Config where
  dialect : Dialect
  ignored : List String
  indent : String
  printLevel : Int
  deriving DecidableEq

namespace Config

/-- The configuration where nothing is configured. -/
def standard : Config :=
  { dialect := .form
    ignored := ["desc", "description"]
    indent := "  "
    printLevel := Level.rank .warning }

/-- The options for reading outlines. -/
def outlineOptions (c : Config) : OutlineOptions :=
  .ofDialect c.dialect

/-- The style of the rendering. -/
def renderStyle (c : Config) : RenderStyle :=
  ⟨c.dialect.containerTag, c.dialect.childTag, c.indent, c.ignored.map .text⟩

end Config

end TagOutline
