/-!
# Problems of a JSON text

A text is read in one pass from left to right, and the first problem decides.
-/

namespace DreamLexer.Json

/-- Why a text does not say what is wanted. -/
inductive Problem where
  /-- The text ends too soon. -/
  | endsEarly
  /-- The text is no JSON. -/
  | malformed
  /-- The text is JSON up to here, but not of the shape that is wanted. -/
  | wrongShape
deriving DecidableEq

end DreamLexer.Json
