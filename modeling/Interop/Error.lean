import Interop.Text.Position

/-! What can be wrong with a form that was read, and with its place in the source. -/

namespace Interop

/-- How a form falls short of the shape it should have. -/
inductive ShapeFault where
  | notAList
  /-- There is no target or no member. -/
  | incompleteAccess
  /-- Something follows a member that is a list. -/
  | afterListMember
  | emptyMemberCall
  | methodName (found : String)
  /-- An assignment that does not have exactly a target and a value. -/
  | assignment
deriving DecidableEq, Repr

def ShapeFault.message : ShapeFault → String
  | .notAList => "expected a list"
  | .incompleteAccess => "member access needs a target and a member"
  | .afterListMember => "a list member must be the last element"
  | .emptyMemberCall => "empty member call"
  | .methodName found => "method name must be a symbol, found " ++ found
  | .assignment => "set! takes a target and a value"

/-- Every error but the last is the fault of the source and has a place there. -/
inductive InteropError where
  | malformedForm (fault : ShapeFault) (span : Span)
  | missingMember (type member : String) (span : Span)
  | invalidByRef (operand : String) (span : Span)
  | invalidTypeArg (arg : String) (span : Span)
  | unresolvedType (name : String) (span : Span)
  | unresolvedSymbol (name : String) (span : Span)
  | unsupportedForm (form : String) (span : Span)
  | invalidAssignTarget (target : String) (span : Span)
  /-- A value was to be converted to the type of no value. -/
  | voidParameter
deriving DecidableEq, Repr

namespace InteropError

def span? : InteropError → Option Span
  | .malformedForm _ span | .missingMember _ _ span | .invalidByRef _ span
  | .invalidTypeArg _ span | .unresolvedType _ span | .unresolvedSymbol _ span
  | .unsupportedForm _ span | .invalidAssignTarget _ span => some span
  | .voidParameter => none

def isInternal (e : InteropError) : Bool := e.span?.isNone

def message : InteropError → String
  | .malformedForm fault span =>
    "malformed member access at " ++ toString span ++ ": " ++ fault.message
  | .missingMember type member span =>
    "no field, property or zero-arity method `" ++ member ++ "` on " ++ type ++ " at "
      ++ toString span
  | .invalidByRef operand span =>
    "by-ref argument `" ++ operand ++ "` is not a local binding at " ++ toString span
  | .invalidTypeArg arg span => "invalid type argument `" ++ arg ++ "` at " ++ toString span
  | .unresolvedType name span => "unable to resolve type `" ++ name ++ "` at " ++ toString span
  | .unresolvedSymbol name span =>
    "unsupported form at " ++ toString span ++ ": unable to resolve symbol " ++ name
  | .unsupportedForm form span => "unsupported form at " ++ toString span ++ ": " ++ form
  | .invalidAssignTarget target span => "cannot assign to " ++ target ++ " at " ++ toString span
  | .voidParameter => "internal invariant violated: System.Void cannot be a parameter type"

end InteropError

end Interop
