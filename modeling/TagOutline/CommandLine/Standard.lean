import TagOutline.CommandLine.Host
import TagOutline.Config.Validation
import TagOutline.Script.ScannedTree

/-!
# The standard host

A host that goes without other programs: scripts are scanned instead of parsed, configurations are
validated field by field, and files are read one after another.
-/

namespace TagOutline.CommandLine

def Host.standard : Host :=
  { parse := Script.scannedTree
    loader := ⟨990, Config.validate⟩
    schedule := .inTurn }

end TagOutline.CommandLine
