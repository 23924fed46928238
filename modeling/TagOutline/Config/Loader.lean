import TagOutline.Config.Basic

/-!
# Loaders of configurations

What a program relies on to load a configuration. The reader of JSON has room for lists and objects
nested only so deep, and which values are configurations, and what is said against the others, is up
to a validator. Whatever the validator is, it gives a configuration of one of the dialects, or
rejects the value.
-/

namespace TagOutline

/-- Something that is wrong with a value: what it is, where, and what was found there. -/
structure Issue where
  code : String
  message : String
  place : List String
  found : Value

/-- What a validator says of a value that is no configuration: all issues, and a report on them. -/
structure Rejection where
  issues : List Issue
  report : String

structure Loader where
  /-- How deep lists and objects may be nested in a file. -/
  depth : Nat
  /-- The configuration that a value gives. -/
  validate : Value → Except Rejection Config

end TagOutline
