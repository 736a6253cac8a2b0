import Coffer.Access.Permission
import Coffer.Language.Lexing
import Coffer.Number.Numeral
import Coffer.Number.RealText
import Coffer.Text.Quoting

namespace Coffer

/-! # Errors

Every way in which a request can fail, by cause. A cause belongs to one kind, and
`Error.message` words it for the caller. Parts of a statement that a message shows
are held as the text they are shown in.
-/

/-- The kinds of errors that callers can tell apart. -/
inductive ErrorKind where
  | config | internal | io | parse | unknownStatementType | validation
  | tableNotFound | tableAlreadyExists | indexNotFound | indexAlreadyExists | columnNotFound
  | columnCountMismatch | invalidParameterCount | permissionDenied | constraint
  | decryptionFailure | snapshot | transaction | unsupported | value
  deriving DecidableEq, Repr

inductive Error where
  -- The text is no statement.
  | lexical (fault : Language.LexicalFault)
  | integer (fault : Numeral.IntegerFault)
  | endOfInput
  | expectedToken (wanted found : Language.Token)
  | expectedEnd (found : Language.Token)
  | expectedIdentifier (found : Language.Token)
  | expectedNumber (found : Language.Token)
  | expectedAtom (found : Language.Token)
  | expectedNumberAfterSign (found : String)
  | unexpectedToken (found : String)
  | unexpectedKeyword (found : Language.Keyword)
  | unexpectedAfterNot (found : Language.Token)
  | uniqueObject (kind : String)
  | compositeKey
  | unknownType (name : String)
  | unknownPrivilege (word : String)
  | unknownResolution (word : String)
  | numberRange (text : String)
  | negatedRange (number : Int64)
  | unknownCommand (line : String)
  | unknownStatement (word : String)
  -- The statement contradicts itself.
  | contradictoryNull (column : String)
  | columnSetTwice (column : String)
  | missingTable
  | strayHaving
  | emptyColumnList
  | unevenRows
  | tableWithoutColumns (table : String)
  | repeatedColumn (column : String)
  | misplacedAutoincrement (column : String)
  | indexWithoutColumns (index : String)
  | columnCount (columns values : Nat)
  -- The schema would be ill-formed.
  | reservedColumn (table column : String)
  | noPrimaryKey (table : String)
  | severalPrimaryKeys (table : String)
  | duplicateColumn (column table : String)
  | nullablePrimaryKey (column : String)
  | autoincrementType (column table : String)
  | nullDefault (column : String)
  | addedPrimaryKey (column : String)
  | addedUniqueColumn (column : String)
  -- Names that do not resolve.
  | tableNotFound (table : String)
  | tableExists (table : String)
  | indexNotFound (index : String)
  | indexExists (index : String)
  | columnNotFound (column : String)
  | ambiguousColumn (column : String)
  | duplicateTable (table : String)
  | columnGivenTwice (column : String)
  -- The query has no plan.
  | notOperand (expression : String)
  | notConstant (expression : String)
  | strayStar
  | starInAggregate
  | starWithoutTable
  | aggregateInWhere
  | aggregateNotAllowed (call : String)
  | groupByAggregate (expression : String)
  | nestedAggregate (call : String)
  | aggregateArguments (function : String)
  | orderPosition (position : Int64)
  | unknownFunction (function : String)
  | functionInPredicate (call : String)
  | patternNotConstant (expression : String)
  | patternTooLarge
  | unsupportedCreate (kind : String)
  | unsupportedDrop (kind : String)
  | unplannedStatement (verb : String)
  | unresolvable (expression : String)
  -- Rows that a table refuses.
  | notUnique (table columns : String)
  | notNull (table column : String)
  | notFinite (value : Binary64) (table column : String)
  | noRow (position : Nat) (table : String)
  | missingPrimaryKey (table : String)
  -- The request does not fit the database's state.
  | denied (permission : Permission)
  | parameterCount (expected actual : Nat)
  | parameterNotFinite (value : Binary64)
  | transactionActive
  | noTransaction
  | notQueryResult
  | noValue
  | emptyUsername
  | emptyGrantee
  | unknownRole (role : String)
  -- The snapshot cannot be read.
  | snapshotTruncated
  | headerTruncated
  | invalidHeader
  | snapshotVersion (version : Nat)
  | snapshotAlgorithm (algorithm : String)
  | snapshotEncrypted
  | decryptionFailure
  | invalidCompression
  | invalidPayload
  | foreignSchema (relation schema : String)
  | unknownRowColumn (relation column : String)
  | invalidRow (relation reason : String)
  | sharedKey (relation column : String)
  | userRole (role : String)
  -- The program is not set up.
  | oddHex
  | hexDigit (found : Char) (position : Nat)
  | keyLength (bytes : Nat)
  | settings
  | argumentNeeds (argument what : String)
  | unknownArgument (argument : String)
  | fileAccess
  deriving DecidableEq, Repr

namespace Error

/-- The kind a cause belongs to. -/
def kind : Error → ErrorKind
  | .lexical _ | .integer _ | .endOfInput | .expectedToken .. | .expectedEnd _
  | .expectedIdentifier _ | .expectedNumber _ | .expectedAtom _ | .expectedNumberAfterSign _
  | .unexpectedToken _ | .unexpectedKeyword _ | .unexpectedAfterNot _ | .uniqueObject _
  | .compositeKey | .unknownType _ | .unknownPrivilege _ | .unknownResolution _
  | .numberRange _ | .negatedRange _ | .unknownCommand _ => .parse
  | .unknownStatement _ => .unknownStatementType
  | .contradictoryNull _ | .columnSetTwice _ | .notFinite .. | .parameterNotFinite _
  | .notQueryResult | .noValue | .patternTooLarge => .value
  | .missingTable | .strayHaving | .emptyColumnList | .unevenRows | .tableWithoutColumns _
  | .repeatedColumn _ | .misplacedAutoincrement _ | .indexWithoutColumns _
  | .reservedColumn .. | .noPrimaryKey _ | .severalPrimaryKeys _ | .duplicateColumn ..
  | .nullablePrimaryKey _ | .autoincrementType .. | .nullDefault _ | .addedPrimaryKey _
  | .ambiguousColumn _ | .duplicateTable _ | .columnGivenTwice _
  | .notOperand _ | .notConstant _ | .strayStar | .starInAggregate | .starWithoutTable
  | .aggregateInWhere | .aggregateNotAllowed _ | .groupByAggregate _ | .nestedAggregate _
  | .aggregateArguments _ | .orderPosition _
  | .emptyUsername | .emptyGrantee | .unknownRole _ => .validation
  | .columnCount .. => .columnCountMismatch
  | .tableNotFound _ => .tableNotFound
  | .tableExists _ => .tableAlreadyExists
  | .indexNotFound _ => .indexNotFound
  | .indexExists _ => .indexAlreadyExists
  | .columnNotFound _ => .columnNotFound
  | .addedUniqueColumn _ | .unknownFunction _ | .functionInPredicate _ | .patternNotConstant _
  | .unsupportedCreate _ | .unsupportedDrop _ => .unsupported
  | .unplannedStatement _ | .unresolvable _ | .noRow ..
  | .missingPrimaryKey _ => .internal
  | .notUnique .. | .notNull .. => .constraint
  | .denied _ => .permissionDenied
  | .parameterCount .. => .invalidParameterCount
  | .transactionActive | .noTransaction => .transaction
  | .decryptionFailure => .decryptionFailure
  | .snapshotTruncated | .headerTruncated | .invalidHeader | .snapshotVersion _
  | .snapshotAlgorithm _ | .snapshotEncrypted | .invalidCompression | .invalidPayload
  | .foreignSchema .. | .unknownRowColumn .. | .invalidRow .. | .sharedKey ..
  | .userRole _ => .snapshot
  | .oddHex | .hexDigit .. | .keyLength _ | .settings | .argumentNeeds ..
  | .unknownArgument _ => .config
  | .fileAccess => .io

def lexicalMessage : Language.LexicalFault → String
  | .unexpectedCharacter found => s!"Unexpected character {found}"
  | .openString => "Unexpected end of string literal"
  | .openIdentifier => "Unexpected end of quoted identifier"

/-- The wording of a fault in a whole number. -/
def integerMessage : Numeral.IntegerFault → String
  | .empty => "cannot parse integer from empty string"
  | .invalidDigit => "invalid digit found in string"
  | .tooLarge => "number too large to fit in target type"
  | .tooSmall => "number too small to fit in target type"

def message : Error → String
  | .lexical fault => lexicalMessage fault
  | .integer fault => integerMessage fault
  | .endOfInput => "Unexpected end of input"
  | .expectedToken wanted found => s!"Expected token {wanted.text}, found {found.text}"
  | .expectedEnd found => s!"Expected end of tokens, found {found.text}"
  | .expectedIdentifier found => s!"Expected identifier, found {found.text}"
  | .expectedNumber found => s!"Expected number, found {found.text}"
  | .expectedAtom found => s!"Expected expression atom, found {found.text}"
  | .expectedNumberAfterSign found => s!"Expected number after sign, found {found}"
  | .unexpectedToken found => s!"Unexpected token {found}"
  | .unexpectedKeyword found => s!"Unexpected keyword {found.spelling}"
  | .unexpectedAfterNot found => s!"Unexpected token {found.text} after NOT"
  | .uniqueObject kind => s!"UNIQUE is not valid for CREATE {kind}"
  | .compositeKey => "Composite primary keys are not supported"
  | .unknownType name => s!"Unknown column type {name}"
  | .unknownPrivilege word => s!"Unknown privilege {word}"
  | .unknownResolution word => s!"Unknown conflict resolution {word}"
  | .numberRange text => s!"Number {text} is out of range"
  | .negatedRange number => s!"Number -({integerText number.toInt}) is out of range"
  | .unknownCommand line => s!"Unknown command {line}"
  | .unknownStatement word => s!"Unknown statement type: {word}"
  | .contradictoryNull column => s!"Column {column} can't be both not nullable and nullable"
  | .columnSetTwice column => s!"Duplicate column {column}"
  | .missingTable => "SELECT is missing a table reference"
  | .strayHaving => "HAVING requires GROUP BY or an aggregate"
  | .emptyColumnList => "INSERT column list is empty"
  | .unevenRows => "VALUES rows must all have the same length"
  | .tableWithoutColumns table => s!"Table {table} has no columns"
  | .repeatedColumn column => s!"Duplicate column {column}"
  | .misplacedAutoincrement column =>
    s!"AUTOINCREMENT is only allowed on an INTEGER PRIMARY KEY, not {column}"
  | .indexWithoutColumns index => s!"Index {index} has no columns"
  | .columnCount columns values =>
    s!"Column count mismatch: {integerText columns} columns, {integerText values} values"
  | .reservedColumn table column => s!"Table {table} has an {column} column but no primary key"
  | .noPrimaryKey table => s!"Table {table} has no primary key"
  | .severalPrimaryKeys table => s!"Table {table} has multiple primary keys"
  | .duplicateColumn column table => s!"Duplicate column {column} in table {table}"
  | .nullablePrimaryKey column => s!"Primary key {column} cannot be nullable"
  | .autoincrementType column table =>
    s!"AUTOINCREMENT column {column} in table {table} must be an INTEGER PRIMARY KEY"
  | .nullDefault column => s!"Default value of column {column} cannot be NULL"
  | .addedPrimaryKey column => s!"Cannot add PRIMARY KEY column {column}"
  | .addedUniqueColumn column =>
    s!"Unsupported: Cannot add a PRIMARY KEY or UNIQUE column {column}"
  | .tableNotFound table => s!"Table {table} does not exist"
  | .tableExists table => s!"Table {table} already exists"
  | .indexNotFound index => s!"Index {index} does not exist"
  | .indexExists index => s!"Index {index} already exists"
  | .columnNotFound column => s!"Column {column} does not exist"
  | .ambiguousColumn column => s!"Ambiguous column name {column}"
  | .duplicateTable table => s!"Duplicate table name {table}"
  | .columnGivenTwice column => s!"Column {column} given multiple times"
  | .notOperand expression => s!"Expected a column or a value, found {expression}"
  | .notConstant expression => s!"Expression {expression} must be constant"
  | .strayStar => "* is not valid in a predicate"
  | .starInAggregate => "* is not allowed in an aggregate query"
  | .starWithoutTable => "SELECT * requires a FROM table"
  | .aggregateInWhere => "Aggregate functions are not allowed in WHERE"
  | .aggregateNotAllowed call => s!"Aggregate {call} is not allowed here"
  | .groupByAggregate expression => s!"Cannot group by aggregate {expression}"
  | .nestedAggregate call => s!"Nested aggregate in {call}"
  | .aggregateArguments function => s!"{function} takes exactly one argument"
  | .orderPosition position => s!"ORDER BY position {integerText position.toInt} is out of range"
  | .unknownFunction function => s!"Unsupported: function {function}"
  | .functionInPredicate call => s!"Unsupported: function {call} in a predicate"
  | .patternNotConstant expression =>
    s!"Unsupported: LIKE with a non-constant pattern {expression}"
  | .patternTooLarge => "Compiled regex exceeds size limit of 10485760 bytes."
  | .unsupportedCreate kind => s!"Unsupported: CREATE {kind}"
  | .unsupportedDrop kind => s!"Unsupported: DROP {kind}"
  | .unplannedStatement verb => s!"Unexpected {verb} statement"
  | .unresolvable expression => s!"Cannot resolve {expression}"
  | .notUnique table columns => s!"UNIQUE constraint failed: {table}.{columns}"
  | .notNull table column => s!"NOT NULL constraint failed: {table}.{column}"
  | .notFinite value table column =>
    s!"Non-finite value {RealLayout.sql.text value} for column {table}.{column}"
  | .noRow position table => s!"No row at {integerText position} in table {table}"
  | .missingPrimaryKey table => s!"Table {table} has no primary key"
  | .denied permission => s!"Permission denied: {permission.name}"
  | .parameterCount expected actual =>
    s!"Invalid parameter count: expected {integerText expected}, got {integerText actual}"
  | .parameterNotFinite value => s!"Non-finite parameter {RealLayout.sql.text value}"
  | .transactionActive => "A transaction is already active"
  | .noTransaction => "No active transaction"
  | .notQueryResult => "Not a query result"
  | .noValue => "No value returned"
  | .emptyUsername => "Username cannot be empty"
  | .emptyGrantee => "Grantee cannot be empty"
  | .unknownRole role => s!"Unknown role {role}"
  | .snapshotTruncated => "Snapshot is truncated"
  | .headerTruncated => "Snapshot header is truncated"
  | .invalidHeader => "Invalid snapshot header"
  | .snapshotVersion version => s!"Unsupported snapshot version {integerText version}"
  | .snapshotAlgorithm algorithm => s!"Unsupported snapshot algorithm {algorithm}"
  | .snapshotEncrypted => "Snapshot is encrypted but no key is configured"
  | .decryptionFailure => "Snapshot decryption failed"
  | .invalidCompression => "Invalid snapshot compression"
  | .invalidPayload => "Invalid snapshot payload"
  | .foreignSchema relation schema => s!"Relation {relation} holds the schema of table {schema}"
  | .unknownRowColumn relation column => s!"Row in {relation} has unknown column {column}"
  | .invalidRow relation reason => s!"Row in {relation} is invalid: {reason}"
  | .sharedKey relation column =>
    s!"Rows in {relation} share a value in unique column {column}"
  | .userRole role => s!"User has unknown role {role}"
  | .oddHex => "Odd number of digits"
  | .hexDigit found position =>
    s!"Invalid character {Text.quotedCharacter found} at position {integerText position}"
  | .keyLength bytes => s!"Encryption key must be 32 bytes, got {integerText bytes}"
  | .settings => "Invalid configuration"
  | .argumentNeeds argument what => s!"{argument} needs {what}"
  | .unknownArgument argument => s!"Unknown argument {argument}"
  | .fileAccess => "File access failed"

end Error

end Coffer
