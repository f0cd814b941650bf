import Supergraph.Conflict

namespace Supergraph

open GraphQL

inductive ErrorCode
  | duplicateSubgraphName
  | invalidSubgraphName
  | invalidGraphQL
  | typeKindMismatch
  | fieldTypeMismatch
  | fieldArgumentTypeMismatch
  | fieldArgumentDefaultMismatch
  | requiredArgumentMissingInSomeSubgraph
  | requiredInputFieldMissingInSomeSubgraph
  | emptyMergedInputType
deriving DecidableEq, Inhabited

def ErrorCode.text : ErrorCode → String
  | .duplicateSubgraphName => "DUPLICATE_SUBGRAPH_NAME"
  | .invalidSubgraphName => "INVALID_SUBGRAPH_NAME"
  | .invalidGraphQL => "INVALID_GRAPHQL"
  | .typeKindMismatch => "TYPE_KIND_MISMATCH"
  | .fieldTypeMismatch => "FIELD_TYPE_MISMATCH"
  | .fieldArgumentTypeMismatch => "FIELD_ARGUMENT_TYPE_MISMATCH"
  | .fieldArgumentDefaultMismatch => "FIELD_ARGUMENT_DEFAULT_MISMATCH"
  | .requiredArgumentMissingInSomeSubgraph => "REQUIRED_ARGUMENT_MISSING_IN_SOME_SUBGRAPH"
  | .requiredInputFieldMissingInSomeSubgraph => "REQUIRED_INPUT_FIELD_MISSING_IN_SOME_SUBGRAPH"
  | .emptyMergedInputType => "EMPTY_MERGED_INPUT_TYPE"

def Conflict.code : Conflict → ErrorCode
  | .typeKind .. => .typeKindMismatch
  | .fieldType .. => .fieldTypeMismatch
  | .argumentType .. => .fieldArgumentTypeMismatch
  | .argumentDefault .. => .fieldArgumentDefaultMismatch
  | .requiredArgument .. => .requiredArgumentMissingInSomeSubgraph
  | .requiredInputField .. => .requiredInputFieldMissingInSomeSubgraph
  | .emptyInputType _ => .emptyMergedInputType

inductive CompositionError
  | duplicateName (name : String)
  | unrepresentableName (name : String)
  | collidingNames (first second : String) (enumValue : Name)
  | invalidSchema (subgraph : String) (detail : Option String)
  | conflict (conflict : Conflict)
deriving DecidableEq, Inhabited

structure ErrorReport where
  code : ErrorCode
  message : String
deriving DecidableEq, Inhabited

def ErrorReport.render (r : ErrorReport) : String := r.code.text ++ ": " ++ r.message

namespace CompositionError

def code : CompositionError → ErrorCode
  | .duplicateName _ => .duplicateSubgraphName
  | .unrepresentableName _ => .invalidSubgraphName
  | .collidingNames .. => .invalidSubgraphName
  | .invalidSchema .. => .invalidGraphQL
  | .conflict c => c.code

def message : CompositionError → String
  | .duplicateName name => "A subgraph named " ++ name ++ " already exists"
  | .unrepresentableName name =>
    "Subgraph \"" ++ name ++ "\" cannot be represented as a join__Graph enum value"
  | .collidingNames first second enumValue =>
    "Subgraphs \"" ++ first ++ "\" and \"" ++ second
      ++ "\" would both be represented by the join__Graph enum value " ++ enumValue.text
  | .invalidSchema subgraph none => "[" ++ subgraph ++ "]"
  | .invalidSchema subgraph (some detail) => "[" ++ subgraph ++ "] " ++ detail
  | .conflict c => c.message

def report (e : CompositionError) : ErrorReport := ⟨e.code, e.message⟩

end CompositionError

end Supergraph
