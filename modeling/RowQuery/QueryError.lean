import RowQuery.Reading

/-!
# Errors of requests

Why a request, a filter or a list of sort keys cannot be used.

## Main definitions

* `QueryError`: the causes.
* `QueryError.message`: their wording.
-/

namespace RowQuery

/-- Why a request, a filter or a list of sort keys cannot be used. Paths lead from the root of the
filter, written `$`, to a node. -/
inductive QueryError where
  | missingDeserializer (property raw path : String)
  /-- The operator is in no registry; `overridden` tells whether the node had one of its own. -/
  | unknownOperator (operator path : String) (overridden : Bool)
  | propertyNotFound (property schema : String)
  | notNullable (property type context : String)
  | invalidNode (path reason : String)
  | deserialize (property raw target path : String) (source : ReadFault)
  | unsupportedOperand (operator property path reason : String)
  | json (fault : Json.Fault)
  deriving DecidableEq, Repr

namespace QueryError

/-- The wording of an error. The source of a failed reading is told by the error it carries. -/
def message : QueryError → String
  | missingDeserializer property raw path =>
    "Cannot deserialize value " ++ Text.quote raw ++ " for property '" ++ property ++ "' at "
      ++ path ++ ": no value deserializer is configured. Set a default deserializer in the "
      ++ "compiler configuration or provide one on the filter node (or one of its ancestors)."
  | unknownOperator operator path overridden =>
    "Unknown operator '" ++ operator ++ "' at " ++ path ++ ": not found in the node override "
      ++ "registry (" ++ (if overridden then "set, no match" else "not set")
      ++ ") nor in the default operator registry"
  | propertyNotFound property schema =>
    "Property '" ++ property ++ "' not found on type " ++ schema
  | notNullable property type context =>
    "Property '" ++ property ++ "' of type " ++ type ++ " is not nullable (" ++ context ++ ")"
  | invalidNode path reason => "Invalid filter node at " ++ path ++ ": " ++ reason
  | deserialize property raw target path _ =>
    "Failed to deserialize " ++ Text.quote raw ++ " as " ++ target ++ " for property '" ++ property
      ++ "' at " ++ path
  | unsupportedOperand operator property path reason =>
    "Operator '" ++ operator ++ "' cannot be applied to property '" ++ property ++ "' at " ++ path
      ++ ": " ++ reason
  | json fault => (ReadFault.json fault).message

/-- The path that an error carries, if it carries one of its own. -/
def path? : QueryError → Option String
  | missingDeserializer _ _ path | unknownOperator _ path _ | invalidNode path _
  | deserialize _ _ _ path _ | unsupportedOperand _ _ path _ => some path
  | propertyNotFound _ _ | notNullable _ _ _ | json _ => none

end QueryError

end RowQuery
