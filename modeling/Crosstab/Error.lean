import Crosstab.Operation
import Crosstab.Scalar
import Crosstab.Text.Escaped

/-!
# Errors

What can go wrong, by cause. Each category has its causes as an inductive type and one function that
words them; `Error` joins the categories.
-/

namespace Crosstab

/-- A list of columns that is no schema, or a column or row that a table does not have. -/
inductive SchemaError
  | emptyId
  | duplicateId (id : String)
  | noMetadata (id : String)
  | unknownType (name : String)
  | unknownColumn (id : String)
  | shortRow (row width : Nat)
  | rowOutOfRange (row : Nat)
  deriving DecidableEq

def SchemaError.message : SchemaError → String
  | emptyId => "Empty column id"
  | duplicateId id => s!"Duplicate column id '{id}'"
  | noMetadata id => s!"No metadata for column '{id}'"
  | unknownType name => s!"Unrecognized column type '{name}'"
  | unknownColumn id => s!"Unknown column '{id}'"
  | shortRow row width => s!"Row {row} has {width} values"
  | rowOutOfRange row => s!"Row {row} out of range"

/-- A value or an expression of the wrong type. -/
inductive TypeError
  | notInteger (text : String)
  | notReal (text : String)
  | notBoolean (text : String)
  | noConversion (value : Scalar) (target : DataType)
  | constant (value : Scalar) (actual declared : DataType)
  | operandCount (op : Operation) (count : Nat)
  | notBooleanOperand (op : Operation) (actual : DataType)
  | incomparable (left right : DataType)
  | notNumeric (op : Operation) (left right : DataType)
  | predicate (actual : DataType)
  | cannotStore (actual declared : DataType) (column : String)
  deriving DecidableEq

def TypeError.message : TypeError → String
  | notInteger text => s!"Cannot parse integer: {text}"
  | notReal text => s!"Cannot parse real: {text}"
  | notBoolean text => s!"Cannot parse boolean: {text}"
  | noConversion value target => s!"Cannot convert {value.display} to {target.name}"
  | constant value actual declared =>
    s!"Constant {value.display} of type {actual.name} declared as {declared.name}"
  | operandCount op count => s!"{op.label} does not take {count} operand(s)"
  | notBooleanOperand op actual => s!"{op.label} expects boolean operands, got {actual.name}"
  | incomparable left right => s!"Cannot compare {left.name} with {right.name}"
  | notNumeric op left right =>
    s!"{op.label} expects numeric operands, got {left.name} and {right.name}"
  | predicate actual => s!"filter: predicate has type {actual.name}"
  | cannotStore actual declared column =>
    s!"extend: value of type {actual.name} cannot be stored in {declared.name} column '{column}'"

/-- A query or a pivot tree that cannot be built. -/
inductive BuildError
  | emptyTableName
  | emptyProjection
  | unknownColumn (context : Operator) (column : String)
  | rowNumberInPredicate
  | emptyGrouping
  | cannotAggregate (func : Aggregate) (input : DataType)
  | emptySort
  | columnExists (column : String)
  | columns (context : Operator) (cause : SchemaError)
  | indexOutOfRange (index : Nat)
  | columnCounts (left right : Nat)
  | columnIds (left right : String)
  | columnTypes (column : String) (left right : DataType)
  | noKeys
  | keyTypes (key : String) (left right : DataType)
  | unknownOperand (column : String)
  | rowNumberWithoutKey
  | unknownRowNumberKey (column : String)
  | reservedColumn (id : String)
  | unknownPivot (column : String)
  | duplicatePivot (column : String)
  | unknownLeaf (column : String)
  | unknownSortKey (column : String)
  | unknownAggregation (column : String)
  | mixedValues (func : Aggregate) (column : String) (output input : DataType)
  | pathTooLong (length levels : Nat)
  | rankDepth (depth levels : Nat)
  | nothingToShow
  | unknownTable (name : String)
  deriving DecidableEq

def BuildError.message : BuildError → String
  | emptyTableName => "table: empty table name"
  | emptyProjection => "project: empty column list"
  | unknownColumn context column => s!"{context.tag}: unknown column '{column}'"
  | rowNumberInPredicate => "filter: row_number is not allowed in a predicate"
  | emptyGrouping => "groupBy: no group or aggregate columns"
  | cannotAggregate func input => s!"Cannot apply {func.label} to a {input.name} column"
  | emptySort => "sort: empty sort key"
  | columnExists column => s!"extend: column '{column}' already exists"
  | columns context cause => s!"{context.tag}: Schema Error: {cause.message}"
  | indexOutOfRange index => s!"mapColumnsByIndex: index {index} out of range"
  | columnCounts left right => s!"concat: column counts differ ({left} vs {right})"
  | columnIds left right => s!"concat: column '{left}' vs '{right}'"
  | columnTypes column left right =>
    s!"concat: column '{column}' has types {left.name} and {right.name}"
  | noKeys => "join: no key columns"
  | keyTypes key left right => s!"join: key '{key}' has types {left.name} and {right.name}"
  | unknownOperand column => s!"Unknown column '{column}' in expression"
  | rowNumberWithoutKey => "row_number requires a sort key"
  | unknownRowNumberKey column => s!"Unknown sort column '{column}' in row_number"
  | reservedColumn id => s!"pivot base uses reserved column name '{id}'"
  | unknownPivot column => s!"unknown pivot column '{column}'"
  | duplicatePivot column => s!"duplicate pivot column '{column}'"
  | unknownLeaf column => s!"unknown leaf column '{column}'"
  | unknownSortKey column => s!"sort key column '{column}' is not in the pivot base"
  | unknownAggregation column => s!"aggregation for unknown column '{column}'"
  | mixedValues func column output input =>
    s!"{func.label} of '{column}' yields {output.name}, " ++
      s!"which cannot be shown alongside its {input.name} values"
  | pathTooLong length levels => s!"path of length {length} exceeds {levels} pivot levels"
  | rankDepth depth levels => s!"sort depth {depth} outside 1..={levels}"
  | nothingToShow => "pivot tree has no rows to show"
  | unknownTable name => s!"Unknown table '{name}'"

/-- A query or an expression that has no SQL text. -/
inductive CompileError
  | unknownColumn (column : String)
  | emptyIdentifier
  | nulInIdentifier (name : String)
  | notFinite (value : Double)
  | nulInText
  | noOperands (op : Operation)
  | noOperand (op : Operation)
  | operandCount (op : Operation) (count : Nat)
  | joinWithoutKeys
  deriving DecidableEq

def CompileError.message : CompileError → String
  | unknownColumn column => s!"Unknown column '{column}'"
  | emptyIdentifier => "Empty identifier"
  | nulInIdentifier name => s!"Identifier contains NUL: {Text.escaped name}"
  | notFinite value => s!"Non-finite constant {value.plain}"
  | nulInText => "String constant contains NUL"
  | noOperands op => s!"{op.label} without operands"
  | noOperand op => s!"{op.label} without operand"
  | operandCount op count => s!"{op.label} takes 2 operands, got {count}"
  | joinWithoutKeys => "Join without key columns"

/-- A stored cell that does not fit its column. -/
inductive CellError
  | type (cause : TypeError)
  | blob (target : DataType)
  | real (value : Double) (target : DataType)
  deriving DecidableEq

def CellError.message : CellError → String
  | type cause => s!"Type Error: {cause.message}"
  | blob target => s!"Cannot convert blob to {target.name}"
  | real value target => s!"Cannot convert Real({value.literal}) to {target.name}"

/-- A statement that an engine could not run to its end. -/
inductive EngineError
  | cell (column : String) (cause : CellError)
  /-- A row of another width than the schema. -/
  | width (found expected : Nat)
  /-- The answer to a count is no count. -/
  | rowCount (found : String)
  /-- The engine's own words. -/
  | reported (message : String)
  /-- The engine refused the statement, in words that are not kept. -/
  | refused
  deriving DecidableEq

def EngineError.message? : EngineError → Option String
  | cell column cause => some s!"Column '{column}': {cause.message}"
  | width found expected => some s!"Result has {found} columns, schema expects {expected}"
  | rowCount found => some s!"Unexpected row count {found}"
  | reported message => some message
  | refused => none

/-- Something outside that cannot be read. -/
inductive IoError
  | noSuchFile (path : String)
  /-- A NUL in the path, so that no file can have it. -/
  | nulInPath (path : String)
  | emptyText
  | rowTooLong (row fields expected : Nat)
  /-- A database that cannot be opened, for a reason that is not kept. -/
  | cannotOpen
  deriving DecidableEq

def IoError.message? : IoError → Option String
  | noSuchFile path => some s!"{path}: No such file or directory (os error 2)"
  | nulInPath path => some s!"{path}: file name contained an unexpected NUL byte"
  | emptyText => some "Empty CSV"
  | rowTooLong row fields expected =>
    some s!"Row {row} has {fields} fields, expected {expected}"
  | cannotOpen => none

/-- A JSON text that does not describe what was asked for. -/
inductive JsonError
  /-- It is no JSON text, or one of another shape. -/
  | malformed
  | columnIndex (key : String)
  | schema (cause : SchemaError)
  | type (cause : TypeError)
  | build (cause : BuildError)
  deriving DecidableEq

/-- The wording of a JSON error, where it is more than that the text has the wrong shape. -/
def JsonError.message? : JsonError → Option String
  | malformed => none
  | columnIndex key => some s!"invalid column index '{key}'"
  | schema cause => some s!"Schema Error: {cause.message}"
  | type cause => some s!"Type Error: {cause.message}"
  | build cause => some s!"Query Build Error: {cause.message}"

inductive Error
  | schema (cause : SchemaError)
  | type (cause : TypeError)
  | build (cause : BuildError)
  | compile (cause : CompileError)
  | eval (cause : EngineError) (query : String)
  | io (cause : IoError)
  | json (cause : JsonError)
  deriving DecidableEq

/-- The full wording, where it is kept. -/
def Error.message? : Error → Option String
  | schema cause => some s!"Schema Error: {cause.message}"
  | type cause => some s!"Type Error: {cause.message}"
  | build cause => some s!"Query Build Error: {cause.message}"
  | compile cause => some s!"Compile Error: {cause.message}"
  | eval cause query => cause.message?.map fun m => s!"Eval Error: {m} (query: {query})"
  | io cause => cause.message?.map fun m => s!"IO Error: {m}"
  | json cause => cause.message?

instance : Coe SchemaError Error := ⟨.schema⟩
instance : Coe TypeError Error := ⟨.type⟩
instance : Coe BuildError Error := ⟨.build⟩
instance : Coe CompileError Error := ⟨.compile⟩

end Crosstab
