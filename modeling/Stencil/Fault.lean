/-!
# Faults — the ways in which an operation on resources fails

A fault says what went wrong; its text always names the source, the resource or the
keys at fault.
-/

namespace Stencil

/-- The faults of the library. -/
inductive Fault where
  /-- A value of the wrong kind was handed over. -/
  | argument (message : String)
  /-- A source is no document, or no document of the shape that was asked for. -/
  | unreadable (label reason : String)
  /-- The content of a resource breaks a rule. -/
  | rule (message : String)
  /-- An entry of a resource list is malformed. -/
  | resource (message : String)
  /-- A name is used twice in one list; `parent` names the enclosing resources, the
      outermost first with slashes between them. -/
  | duplicateName (name : String) (parent : Option String)
  /-- A settings file or a keyword source cannot be used. -/
  | settings (message : String)
  /-- Anything else. -/
  | other (message : String)
deriving Repr, DecidableEq

/-- Where a name is used twice; nothing at the top level. -/
def parentNote : Option String → String
  | none => ""
  | some parent => s!" in resource '{parent}'"

/-- The text of a fault. -/
def Fault.message : Fault → String
  | argument message => "Invalid argument: " ++ message
  | unreadable label reason =>
    "Error parsing JSON from metadata file: " ++ label ++ ": " ++ reason
  | rule message => "Validation failed: " ++ message
  | resource message => "Invalid resource definition: " ++ message
  | duplicateName name parent => s!"Duplicate resource name '{name}'" ++ parentNote parent
  | settings message => "Configuration error: " ++ message
  | other message => message

end Stencil
