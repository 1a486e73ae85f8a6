import Stencil.Digest.Sha256
import Stencil.Document.Rendering
import Stencil.Fault

/-!
# Digests — whether content has changed

A digest is the SHA-256 hash of the exact UTF-8 bytes of a text, as sixty-four lowercase
hexadecimal digits. Only text has a digest: a document of any other kind is refused
instead of being hashed in some written form.
-/

namespace Stencil

/-- A word as eight hexadecimal digits. -/
def hexWord (word : UInt32) : List Char :=
  (List.range 8).map fun i => hexDigit ((word.toNat >>> (4 * (7 - i))) % 16)

/-- The digest of a text. -/
def digest (text : String) : String :=
  String.ofList ((Sha256.hash text.toUTF8).words.flatMap hexWord)

/-- The name of a kind of documents in messages about arguments. -/
def Document.Kind.noun : Document.Kind → String
  | .null => "null"
  | .boolean => "boolean"
  | .number => "number"
  | .string => "string"
  | .array => "array"
  | .object => "object"

/-- The digest of a document, which must be a string. -/
def Document.digest : Document → Except Fault String
  | .string text => .ok (Stencil.digest text)
  | other =>
    .error (.argument
      ("Must provide data as a string to generate a checksum, got " ++ other.kind.noun))

/-- Two texts have the same digest. -/
def sameDigest (first second : String) : Bool :=
  digest first == digest second

end Stencil
