import Ferretd.Errors

/-!
# Values shared by ordinary and debugger execution

Caller parameters, runtime options, encoded output and durable failure details.  The
source copies all of them into and out of snapshots.
-/

namespace Ferretd

/-- A dynamic parameter value.  `other` stands for every value that
`Parameters.cloneValue` passes through unchanged. -/
inductive Value where
  | other (code : Nat)
  | slice (items : List Value)
  | object (fields : List (String × Value))

/-- Caller parameters: the entries of a Go map with string keys. -/
abbrev Parameters := List (String × Value)

mutual

/-- `Parameters.cloneValue`: containers are copied, other values are kept. -/
def Value.clone : Value → Value
  | .other code => .other code
  | .slice items => .slice (cloneItems items)
  | .object fields => .object (cloneFields fields)

def cloneItems : List Value → List Value
  | [] => []
  | item :: rest => item.clone :: cloneItems rest

def cloneFields : List (String × Value) → List (String × Value)
  | [] => []
  | (key, value) :: rest => (key, value.clone) :: cloneFields rest

end

def Parameters.clone (parameters : Parameters) : Parameters :=
  cloneFields parameters

structure RuntimeOptions where
  outputContentType : String
  workingDirectory : String

structure Output where
  contentType : String
  content : List UInt8

structure Position where
  line : UInt32
  character : UInt32

/-- `apisource.Position`: lines and byte columns counted from one, as the runtime
reports them; a column of zero is no column. -/
structure SourcePosition where
  line : Int
  column : Int
deriving DecidableEq

structure Range where
  start : Position
  stop : Position

structure RelatedInformation where
  uri : String
  range : Range
  message : String

structure Diagnostic where
  uri : String
  message : String
  severity : UInt8
  range : Range
  source : String
  code : String
  relatedInformation : List RelatedInformation

structure RuntimeFailure where
  message : String
  diagnostics : List Diagnostic

end Ferretd
