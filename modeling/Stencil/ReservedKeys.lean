import Stencil.Document.Rendering
import Stencil.Fault
import Stencil.Journaled

/-!
# Reserved keys — settings that must not stand inline

Some settings are deployed through a kind of resource of their own. Finding one of their
keys at the top of a settings object is a fault that lists all such keys, in the order
of the settings. Settings that are no object have no keys.
-/

namespace Stencil

/-- The reserved keys at the top of a document, in its order. -/
def Document.keysAmong (reserved : List String) : Document → List String
  | .object members => (Members.names members).filter reserved.contains
  | _ => []

/-- What is said about reserved keys that were found. -/
def reservedKeysMessage (kind : String) (found : List String) : String :=
  "The following keys " ++ (Document.array (found.map Document.string)).indented ++
    " were found in " ++ kind ++ ". They should be set separately."

/-- Fails if settings of some kind hold reserved keys. -/
def rejectReservedKeys (kind : String) (reserved : List String) (settings : Document) :
    Journaled Fault Unit :=
  match settings.keysAmong reserved with
  | [] => .ok ()
  | found => do
    .report [.reservedKeys kind found.length]
    .fail (.rule (reservedKeysMessage kind found))

end Stencil
