import TagOutline.Dialect
import TagOutline.Entity.Record

/-!
# Archive documents

The record that an outline is stored as: its dialect and the records of its containers. Where a
document names no dialect, it is read in the dialect of forms; where it names no containers, it has
none.
-/

namespace TagOutline.Archive

/-- Why a value is not the document of an outline. -/
inductive DocumentError where
  | notARecord (found : Value)
  | dialect (error : UnknownDialect)
  | entity (error : RecordError)

def DocumentError.message : DocumentError → String
  | .notARecord found => s!"'{found.typeName}' object has no attribute 'get'"
  | .dialect error => error.message
  | .entity error => error.message

/-- The document of an outline. -/
def document (dialect : Dialect) (containers : List Entity) : Value :=
  .record
    [(.text "dialect", .text dialect.name),
      (.text "containers", .list (Entity.toValues containers))]

/-- The dialect that a document names. -/
def dialectOf (fields : Fields Value) : Except UnknownDialect Dialect :=
  match Value.present? "dialect" fields with
  | none => .ok .form
  | some v => Dialect.ofValue v

/-- The elements of the containers that a document gives. -/
def containerElements (fields : Fields Value) : Except RecordError (List Value) :=
  match Value.present? "containers" fields with
  | none => .ok []
  | some v =>
    match v.elements? with
    | none => .error (.noElements v)
    | some elements => .ok elements

/-- The outline of a document, in the classes of its dialect. -/
def ofDocument : Value → Except DocumentError (List Entity)
  | .record fields =>
    match dialectOf fields with
    | .error error => .error (.dialect error)
    | .ok dialect =>
      match containerElements fields with
      | .error error => .error (.entity error)
      | .ok elements =>
        (elements.mapM (Entity.ofValue dialect.containerClass)).mapError .entity
  | v => .error (.notARecord v)

end TagOutline.Archive
