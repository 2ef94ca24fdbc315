import WireModel.Text.Rune
import WireModel.Value.Basic
import WireModel.Spec.Error

/-!
# Decode errors

How decoding a structured value can fail, and where: the innermost declaration being decoded, and
the path of field names, list positions and map keys that leads from the root to the faulty value.
-/

namespace WireModel

/-- The ways in which decoding fails. -/
inductive Failure where
  /-- A key that must be there is not. -/
  | missingField
  /-- A discriminator names no variant. -/
  | unknownVariant
  /-- A number does not parse or does not fit. -/
  | malformedNumeric
  /-- An element of a byte sequence is no byte. -/
  | malformedBytes
  /-- A value has another shape than its type. -/
  | typeMismatch
  deriving DecidableEq, Inhabited

namespace Failure

/-- All failures, in the order of reports. -/
def taxonomy : List Failure :=
  [missingField, unknownVariant, malformedNumeric, malformedBytes, typeMismatch]

/-- The name of a failure. -/
def name : Failure → Text
  | missingField => "missing required field"
  | unknownVariant => "unknown variant"
  | malformedNumeric => "malformed numeric"
  | malformedBytes => "malformed bytes"
  | typeMismatch => "type mismatch"

end Failure

/-- A failure with its place. -/
structure DecodeError where
  failure : Failure
  /-- The innermost declaration being decoded; empty if there is none. -/
  decl : Text := []
  /-- The way from the root of the decoded value to the faulty one. -/
  path : List Text := []
  detail : Text := []
  deriving DecidableEq, Inhabited

namespace DecodeError

/-- The path as one text. -/
def pathText (e : DecodeError) : Text := Text.join "." e.path

/-- The wording of an error. -/
def message (e : DecodeError) : Text :=
  messageMark ++ e.failure.name ++
  CompileError.part " decoding " e.decl "" ++
  (if e.path.isEmpty then e.pathText else " at " ++ e.pathText) ++
  CompileError.part ": " e.detail ""

/-- The error seen from the declaration around it. The innermost declaration stays. -/
def inDecl (decl : Text) (e : DecodeError) : DecodeError :=
  if e.decl == [] then { e with decl } else e

/-- The error seen from the value that holds the faulty one under a field name, position or key. -/
def inField (field : Text) (e : DecodeError) : DecodeError := { e with path := field :: e.path }

/-- The error of a value with another shape than `want`. -/
def mismatch (want : Text) (got : Value) : DecodeError :=
  { failure := .typeMismatch, detail := "expected " ++ want ++ ", got " ++ got.kindName }

/-- The error of a number. -/
def numeric (detail : Text) : DecodeError := { failure := .malformedNumeric, detail }

/-- The error of a discriminator that names no variant of a declaration. -/
def unknownVariant (decl tag : Text) : DecodeError :=
  { failure := .unknownVariant, decl, detail := tag.quote }

end DecodeError

/-! ## Errors on their way up

A decode error may be handed on by code that puts its own words around it. The words are fixed
when they are added, while the place inside goes on being completed. -/

/-- An error on its way up. -/
inductive Report where
  /-- An error that has nothing to do with decoding. -/
  | foreign (text : Text)
  | decode (e : DecodeError)
  /-- Words put around an error, with the message they made. -/
  | around (message : Text) (inner : Report)
  deriving Inhabited

namespace Report

/-- The wording of a report. -/
def message : Report → Text
  | foreign t => t
  | decode e => e.message
  | around m _ => m

/-- The decode error inside. -/
def error? : Report → Option DecodeError
  | foreign _ => none
  | decode e => some e
  | around _ r => r.error?

/-- The report with the decode error inside changed. -/
def mapError (f : DecodeError → DecodeError) : Report → Report
  | foreign t => foreign t
  | decode e => decode (f e)
  | around m r => around m (r.mapError f)

/-- The report seen from the declaration around it. -/
def inDecl (decl : Text) (r : Report) : Report := r.mapError (·.inDecl decl)

/-- The report seen from the value that holds the faulty one. A foreign error becomes a mismatch
there. -/
def inField (field : Text) (r : Report) : Report :=
  match r.error? with
  | some _ => r.mapError (·.inField field)
  | none => decode { failure := .typeMismatch, path := [field], detail := r.message }

/-- The report with words in front. -/
def wrap (words : Text) (r : Report) : Report := around (words ++ ": " ++ r.message) r

end Report

end WireModel
