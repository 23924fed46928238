import TagOutline.Config.Loader
import TagOutline.Pool
import TagOutline.Script.Tree

/-!
# Hosts

What a run relies on besides its arguments and the files: a parser of scripts, a loader of
configurations, and the schedule by which files are read at the same time.
-/

namespace TagOutline.CommandLine

structure Host where
  parse : ByteArray → Script.SyntaxNode
  loader : Loader
  schedule : Schedule

end TagOutline.CommandLine
