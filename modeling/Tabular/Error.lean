import Tabular.Raw.Basic
import Tabular.Value.Basic
import Tabular.Token.Basic

/-!
Everything that can go wrong, by cause, with the one wording of each, and what a computation that
can fail has done if it succeeded.
-/
namespace Tabular

inductive ErrorKind where
  | typeMismatch | schemaMismatch | nullConstraintViolation | duplicateKey | duplicateTable
  | primaryKeyRequired | rowNotFound | fieldNotFound | tableNotFound | ambiguousSelect
  | ambiguousOperator | danglingOperator | arityMismatch | unknownFunction | syntaxError
  | configuration
  deriving DecidableEq

inductive Error where
  /-- No affinity goes by this type name. -/
  | unknownType (name : String)
  /-- A raw value has no form in the storage class. -/
  | notStorable (value : Raw) (target : StorageClass)
  | notNumeric (value : Raw)
  /-- Bytes that spell no document of the kind asked for. -/
  | unreadableObject
  | notAnObject (value : Value)
  | incomparable (left right : Value)
  | notAutoincrement (column : String) (affinity : Affinity)
  | strictColumn (column : String) (affinity : Affinity) (value : Raw)
  /-- No key is left above the last one issued. -/
  | keysExhausted (table : String)
  | notSummable (function : AggregateFunction) (value : Value)
  | conditionInArithmetic (condition : String)
  | misfitOperands (op : TestOp) (left right : String)
  | noRange
  | patternNotText (pattern : Value)
  | patternNotLiteral (operand : String)
  | notCondition (operand : String)
  | notComputable (op : ArithmeticOp) (left right : Value)
  | blankColumnName
  | blankTableName
  | noColumns (table : String)
  | repeatedColumn (column table : String)
  | unknownKeyColumn (key table : String)
  | implicitKeyTaken (column table : String)
  | missingCell (column : String)
  | unknownCell (column : String)
  /-- A row that was built for other columns. -/
  | foreignRow (table : String)
  | staleRow (table : String)
  | fixedKey (column table : String)
  | unknownColumn (table column : String)
  | misnamedTable (table under : String)
  | nullCell (column : String)
  | duplicateKey (table : String) (key : Value)
  | duplicateTable (table : String)
  | keyRequired (column : String)
  | rowNotFound (table : String) (key : Raw)
  | fieldNotFound (field : String)
  | tableNotFound (table : String)
  | starNotAlone
  | mixedSelection
  /-- A keyword operator meets a predicate that already has an operator. -/
  | operatorTaken (keyword field : String)
  | operatorOnCondition (keyword : String)
  | operatorAlone (keyword : String)
  | arityMismatch (left right : Nat)
  | unknownFunction (name : String)
  | unsupportedCharacter (c : Char)
  | loneBang
  | unterminatedText
  | integerTooLarge (text : String)
  | integerTooSmall (text : String)
  | malformedReal (text : String)
  | expectedField (found : Token)
  | expectedComparison (found : Token)
  | expectedValue (found : Token)
  | missingValue
  | malformedCall (text : String)
  | starArgument (function : AggregateFunction)
  | emptyItem
  | emptySelection
  | unknownDirection (text : String)
  | unreadableSettings
  | blankKeyName
  deriving DecidableEq

namespace Error

open ErrorKind in
def kind : Error → ErrorKind
  | .unknownType _ | .notStorable .. | .notNumeric _ | .unreadableObject | .notAnObject _
  | .incomparable .. | .notAutoincrement .. | .strictColumn .. | .keysExhausted _ | .notSummable ..
  | .conditionInArithmetic _ | .misfitOperands .. | .noRange | .patternNotText _
  | .patternNotLiteral _ | .notCondition _ | .notComputable .. => typeMismatch
  | .blankColumnName | .blankTableName | .noColumns _ | .repeatedColumn .. | .unknownKeyColumn ..
  | .implicitKeyTaken .. | .missingCell _ | .unknownCell _ | .foreignRow _ | .staleRow _
  | .fixedKey .. | .unknownColumn .. | .misnamedTable .. => schemaMismatch
  | .nullCell _ => nullConstraintViolation
  | .duplicateKey .. => ErrorKind.duplicateKey
  | .duplicateTable _ => ErrorKind.duplicateTable
  | .keyRequired _ => primaryKeyRequired
  | .rowNotFound .. => ErrorKind.rowNotFound
  | .fieldNotFound _ => ErrorKind.fieldNotFound
  | .tableNotFound _ => ErrorKind.tableNotFound
  | .starNotAlone | .mixedSelection => ambiguousSelect
  | .operatorTaken .. => ambiguousOperator
  | .operatorOnCondition _ | .operatorAlone _ => danglingOperator
  | .arityMismatch .. => ErrorKind.arityMismatch
  | .unknownFunction _ => ErrorKind.unknownFunction
  | .unsupportedCharacter _ | .loneBang | .unterminatedText | .integerTooLarge _
  | .integerTooSmall _ | .malformedReal _ | .expectedField _ | .expectedComparison _
  | .expectedValue _ | .missingValue | .malformedCall _ | .starArgument _ | .emptyItem
  | .emptySelection | .unknownDirection _ => syntaxError
  | .unreadableSettings | .blankKeyName => configuration

def naming (v : Raw) : String := v.typeName ++ " value " ++ v.describe

def detail : Error → String
  | .unknownType name => "unknown column type " ++ Text.quoted name
  | .notStorable v target => naming v ++ " cannot be stored as " ++ target.name
  | .notNumeric v => naming v ++ " has no NUMERIC representation"
  | .unreadableObject => "serialization failed"
  | .notAnObject v => v.typeName ++ " is not a serialized blob"
  | .incomparable v w => "cannot order " ++ v.typeName ++ " against " ++ w.typeName
  | .notAutoincrement column a =>
    "autoincrement column " ++ column ++ " must be INTEGER, not " ++ a.name
  | .strictColumn column a v =>
    "column " ++ column ++ " is strict " ++ a.name ++ " and rejects " ++ naming v
  | .keysExhausted table => "autoincrement keys exhausted for table " ++ table
  | .notSummable f v => f.name ++ " needs numeric values, got " ++ v.typeName
  | .conditionInArithmetic c => "condition " ++ c ++ " cannot be used in arithmetic"
  | .misfitOperands op l r =>
    "invalid operands for " ++ op.symbol ++ ": " ++ l ++ " and " ++ r
  | .noRange => "BETWEEN needs a low AND high range"
  | .patternNotText v => "LIKE pattern must be TEXT, got " ++ v.typeName
  | .patternNotLiteral operand => "LIKE pattern must be a literal, got " ++ operand
  | .notCondition operand => operand ++ " is not a condition"
  | .notComputable op v w =>
    "cannot apply " ++ op.symbol ++ " to " ++ v.typeName ++ " and " ++ w.typeName
  | .blankColumnName => "column name cannot be empty"
  | .blankTableName => "table name cannot be empty"
  | .noColumns table => "table " ++ table ++ " must declare at least one column"
  | .repeatedColumn column table => "column " ++ column ++ " declared twice in table " ++ table
  | .unknownKeyColumn key table => "primary key " ++ key ++ " is not a column of table " ++ table
  | .implicitKeyTaken column table =>
    "column " ++ column ++ " clashes with the implicit primary key of table " ++ table
  | .missingCell column => "missing value for column " ++ column
  | .unknownCell column => "column " ++ column ++ " is not part of the schema"
  | .foreignRow table => "row columns do not match the schema of table " ++ table
  | .staleRow table => "row no longer matches the schema of table " ++ table
  | .fixedKey column table =>
    "primary key " ++ column ++ " of table " ++ table ++ " cannot be updated"
  | .unknownColumn table column => "table " ++ table ++ " has no column " ++ column
  | .misnamedTable table under => "cannot store table " ++ table ++ " under the name " ++ under
  | .nullCell column => column
  | .duplicateKey table key => "duplicate primary key " ++ key.shown ++ " in table " ++ table
  | .duplicateTable table => "table " ++ table ++ " already exists"
  | .keyRequired column =>
    "primary key " ++ column ++ " is required: only INTEGER keys are generated"
  | .rowNotFound table key => "no row with primary key " ++ key.describe ++ " in table " ++ table
  | .fieldNotFound field => field
  | .tableNotFound table => table
  | .starNotAlone => "* cannot be combined with other fields"
  | .mixedSelection => "aggregates cannot be mixed with plain fields"
  | .operatorTaken keyword field =>
    keyword ++ " cannot apply to " ++ field ++ ": it already has an operator"
  | .operatorOnCondition keyword => keyword ++ " cannot apply to a prebuilt condition"
  | .operatorAlone keyword => keyword ++ " has no predicate to apply to"
  | .arityMismatch l r =>
    "left has " ++ Decimal.natText l ++ " values, right has " ++ Decimal.natText r
  | .unknownFunction name => name
  | .unsupportedCharacter c => "character " ++ Text.quotedChar c ++ " is not supported"
  | .loneBang => "expected '=' after '!'"
  | .unterminatedText => "unterminated string"
  | .integerTooLarge s =>
    "bad number " ++ Text.quoted s ++ ": number too large to fit in target type"
  | .integerTooSmall s =>
    "bad number " ++ Text.quoted s ++ ": number too small to fit in target type"
  | .malformedReal s => "bad number " ++ Text.quoted s ++ ": invalid float literal"
  | .expectedField t => "expected a field name, found " ++ t.describe
  | .expectedComparison t => "expected a comparison operator, found " ++ t.describe
  | .expectedValue t => "expected a value, found " ++ t.describe
  | .missingValue => "expected a value after the operator"
  | .malformedCall s => "malformed aggregate call " ++ Text.quoted s
  | .starArgument f => f.name ++ "(*) is not supported"
  | .emptyItem => "empty select item"
  | .emptySelection => "SELECT needs at least one item"
  | .unknownDirection s => "invalid sort direction " ++ Text.quoted s
  | .unreadableSettings => "unreadable document"
  | .blankKeyName => "rowid_column cannot be empty"

def heading : ErrorKind → String
  | .typeMismatch => "type mismatch: "
  | .schemaMismatch => "schema mismatch: "
  | .nullConstraintViolation => "NOT NULL constraint failed: "
  | .fieldNotFound => "no such field: "
  | .tableNotFound => "no such table: "
  | .ambiguousSelect => "ambiguous select: "
  | .ambiguousOperator => "ambiguous operator: "
  | .danglingOperator => "dangling operator: "
  | .arityMismatch => "arity mismatch: "
  | .unknownFunction => "unknown function: "
  | .syntaxError => "syntax error: "
  | .configuration => "invalid configuration: "
  | _ => ""

def message (e : Error) : String := heading e.kind ++ e.detail

end Error

namespace Except

variable {ε α β : Type}

theorem bind_eq_ok_iff {x : Except ε α} {f : α → Except ε β} {b : β} :
    (x >>= f) = .ok b ↔ ∃ a, x = .ok a ∧ f a = .ok b := by
  cases x <;> simp [bind, Except.bind]

theorem map_eq_ok_iff {x : Except ε α} {f : α → β} {b : β} :
    x.map f = .ok b ↔ ∃ a, x = .ok a ∧ f a = b := by
  cases x <;> simp [Except.map]

theorem pure_eq_ok_iff {a b : α} : (pure a : Except ε α) = .ok b ↔ a = b := by
  simp [pure, Except.pure]

end Except

end Tabular
