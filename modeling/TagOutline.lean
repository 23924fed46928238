import TagOutline.Main
import TagOutline.Proofs.Archive.Failure
import TagOutline.Proofs.CommandLine.History
import TagOutline.Proofs.Config.Setup
import TagOutline.Proofs.Entity.Conversion
import TagOutline.Proofs.Entity.Isolation
import TagOutline.Proofs.Entity.Text
import TagOutline.Proofs.Files.Expansion
import TagOutline.Proofs.Outline.Built
import TagOutline.Proofs.Outline.Conservation
import TagOutline.Proofs.Outline.Layout
import TagOutline.Proofs.Outline.Rendering
import TagOutline.Proofs.Outline.Repetition
import TagOutline.Proofs.Outline.Translation
import TagOutline.Proofs.Script.Position
import TagOutline.Proofs.Entity.Attributes
import TagOutline.Proofs.Outline.Names
import TagOutline.Proofs.Tag.Grammar
import TagOutline.Proofs.Console.Levels
import TagOutline.Proofs.Entity.LastWrite
import TagOutline.Proofs.Tag.Stream
