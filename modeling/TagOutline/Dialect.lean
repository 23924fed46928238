import TagOutline.Entity.Html

/-!
# Dialects

The two vocabularies of tags: forms with inputs, and nodes with properties. A dialect fixes the
tags that open containers and children, and the classes of the entities that they become.
-/

namespace TagOutline

/-- A vocabulary of tags. -/
inductive Dialect where
  | form
  | node
  deriving DecidableEq, Repr, Inhabited

/-- A value that names no dialect. -/
structure UnknownDialect where
  found : Value

def UnknownDialect.message (e : UnknownDialect) : String :=
  s!"{e.found.literal} is not a valid TagDialect"

namespace Dialect

def name : Dialect → String
  | .form => "form"
  | .node => "node"

def ofName? (name : String) : Option Dialect :=
  [form, node].find? fun d => d.name == name

def ofValue (v : Value) : Except UnknownDialect Dialect :=
  match v with
  | .text name =>
    match ofName? name with
    | some d => .ok d
    | none => .error ⟨v⟩
  | _ => .error ⟨v⟩

def containerTag : Dialect → String
  | .form => "form"
  | .node => "node"

def childTag : Dialect → String
  | .form => "input"
  | .node => "property"

def containerClass : Dialect → EntityClass
  | .form => .form
  | .node => .node

def childClass : Dialect → EntityClass
  | .form => .input
  | .node => .property

/-- A dialect is known by its name. -/
@[simp] theorem ofName?_name (d : Dialect) : ofName? d.name = some d := by
  cases d <;> rfl

/-- The children of a dialect's containers have the class that the containers rebuild them with. -/
theorem childClass_containerClass (d : Dialect) : d.containerClass.childClass = d.childClass := by
  cases d <;> rfl

end Dialect

end TagOutline
