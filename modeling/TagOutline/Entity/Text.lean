import TagOutline.Entity.Record
import TagOutline.Json.Reader
import TagOutline.Json.Writer

/-!
# Entities as JSON texts

The record of an entity as a JSON text, and an entity of a wanted class read from one. Entities of
the base class are written but not read.
-/

namespace TagOutline

/-- Why an entity cannot be read from a text. -/
inductive ReadError where
  | noReader (cls : EntityClass)
  | syntactic (text : String) (fault : Json.Fault)
  | record (error : RecordError)

def ReadError.message : ReadError → String
  | .noReader cls => s!"type object '{cls.label}' has no attribute 'from_dict'"
  | .syntactic text fault => fault.message text
  | .record error => error.message

namespace Entity

/-- Reads an entity of a class, unless it is the base class. -/
def rebuild (cls : EntityClass) (v : Value) : Except ReadError Entity :=
  if cls = .base then .error (.noReader cls)
  else (ofValue cls v).mapError .record

/-- The JSON text of an entity. -/
def toJson (indent : Option Int) (e : Entity) : String :=
  Json.write indent e.toValue

/-- The entity that a JSON text gives. -/
def ofJson (cls : EntityClass) (text : String) : Except ReadError Entity :=
  if cls = .base then .error (.noReader cls)
  else
    match Json.read text with
    | .error fault => .error (.syntactic text fault)
    | .ok v => rebuild cls v

end Entity

end TagOutline
