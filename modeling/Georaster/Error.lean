/-!
# Errors

An operation on rasters fails for one of four causes: two rasters of different dimensions, a
bad argument, a configuration that the pixel type cannot carry (a nodata value it cannot
hold), or a condition found while computing. Each cause has one text (`RasterError.message`)
and one structural description (`RasterError.describe`).

Some misuses are not errors that a caller can handle but aborts (`Fault.abort`): asking the
index of an invalid cell, marking nodata where none can be stored, reading past the end of a
buffer. An operation that can abort returns a `Fault`, which is either of the two.
-/

namespace Georaster

/-- Why an operation on rasters failed. -/
inductive RasterError where
  /-- Two rasters differ in size; the sizes are given as (rows, columns). -/
  | sizeMismatch (size₁ size₂ : Nat × Nat)
  /-- An argument is not acceptable. -/
  | invalidArgument (detail : String)
  /-- A configuration cannot be used, such as a nodata value the pixel type cannot hold. -/
  | invalidConfiguration (detail : String)
  /-- A condition found while computing. -/
  | runtime (detail : String)
  deriving DecidableEq, Repr

namespace RasterError

/-- The text of the error. -/
def message : RasterError → String
  | sizeMismatch (r1, c1) (r2, c2) =>
    s!"Raster dimensions do not match ({r1}x{c1}) <-> ({r2}x{c2})"
  | invalidArgument d => "Invalid argument: " ++ d
  | invalidConfiguration d => "Invalid configuration: " ++ d
  | runtime d => "Runtime error: " ++ d

/-- Whether the caller is to blame: a size mismatch or an invalid argument. -/
def isInvalidArgument : RasterError → Bool
  | sizeMismatch _ _ | invalidArgument _ => true
  | _ => false

/-- The name of the cause. -/
def kind : RasterError → String
  | sizeMismatch _ _ => "SizeMismatch"
  | invalidArgument _ => "InvalidArgument"
  | invalidConfiguration _ => "InvalidConfiguration"
  | runtime _ => "Runtime"

/-- A character of a quoted string, escaped: quote, backslash and control characters. -/
def escapeChar (c : Char) : String :=
  if c = '"' then "\\\""
  else if c = '\\' then "\\\\"
  else if c = '\n' then "\\n"
  else if c = '\r' then "\\r"
  else if c = '\t' then "\\t"
  else if c.toNat = 0 then "\\0"
  else if c.toNat < 32 ∨ c.toNat = 127 then
    "\\u" ++ "\x7b" ++ String.ofList (Nat.toDigits 16 c.toNat) ++ "\x7d"
  else c.toString

/-- A string in double quotes with its special characters escaped. -/
def quote (s : String) : String :=
  "\"" ++ String.join (s.toList.map escapeChar) ++ "\""

/-- The structure of the error: the cause and its fields. -/
def describe : RasterError → String
  | sizeMismatch (r1, c1) (r2, c2) =>
    s!"SizeMismatch \x7b size1: ({r1}, {c1}), size2: ({r2}, {c2}) \x7d"
  | e@(invalidArgument d) | e@(invalidConfiguration d) | e@(runtime d) =>
    e.kind ++ "(" ++ quote d ++ ")"

end RasterError

/-- How an operation that can abort ended without a result. -/
inductive Fault where
  /-- The operation reported an error. -/
  | error (e : RasterError)
  /-- The operation aborted with the given text. -/
  | abort (text : String)
  deriving DecidableEq, Repr

/-- The result of an operation that can fail or abort. -/
abbrev Outcome (α : Type) := Except Fault α

/-- The text that an index past the end of a buffer of length `len` aborts with. -/
def outOfBounds (len index : Nat) : String :=
  s!"index out of bounds: the len is {len} but the index is {index}"

/-- A result that can only fail, as one that can also abort. -/
def Outcome.ofExcept {α : Type} : Except RasterError α → Outcome α
  | .ok a => .ok a
  | .error e => .error (.error e)

end Georaster
