/-!
# Errors of the wire format

Why a value cannot be written or a text cannot be read.
-/

namespace Templating.Wire

/-- Why a value cannot be written or a text cannot be read. -/
inductive Error where
  /-- No loader is registered for a tag. -/
  | unknownType (tag : String)
  /-- A template was written by another version. -/
  | version (expected got : String)
  /-- The text is malformed at a position, counted in bytes. -/
  | malformed (offset : Nat) (message : String)
  /-- A value of this type has no written form. -/
  | notSerializable (typeName : String)
deriving DecidableEq, Inhabited

/-- The wording of an error. -/
def Error.message : Error → String
  | .unknownType tag => "can't load object of type " ++ tag
  | .version expected got => "invalid version, expected " ++ expected ++ ", got " ++ got
  | .malformed offset message => s!"broken UL4ON stream at offset {offset}: " ++ message
  | .notSerializable typeName => "can't serialize object of type " ++ typeName

end Templating.Wire
