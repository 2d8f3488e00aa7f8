import RowEngine.Id
import RowEngine.Schema

/-!
What can go wrong in the engine, as causes. Each cause carries what is needed to
word it, and `Error.message` is the only place where it is put into words.
-/
namespace RowEngine

/-- Why a list of columns, or a row for a scan, is refused. -/
inductive SchemaFault where
  | noTypes
  | noNames
  | lengthMismatch (types names : Nat)
  | noColumns
  | rowMismatch (index : Nat) (row scan : Schema)
  deriving DecidableEq, Repr

namespace SchemaFault

def message : SchemaFault → String
  | .noTypes => "at least one field type is required"
  | .noNames => "at least one field name slot is required"
  | .lengthMismatch types names => toString types ++ " types but " ++ toString names ++ " names"
  | .noColumns => "at least one field is required"
  | .rowMismatch index row scan =>
      "row " ++ toString index ++ " is [" ++ row.display ++ "], scan produces [" ++
        scan.display ++ "]"

end SchemaFault

/-- The column that was asked for and is not there. -/
inductive ColumnQuery where
  | named (name : Option String)
  | position (index size : Nat)
  deriving DecidableEq, Repr

namespace ColumnQuery

def message : ColumnQuery → String
  | .named name => name.getD "null"
  | .position index size =>
      "index " ++ toString index ++ " (descriptor has " ++ toString size ++ " fields)"

end ColumnQuery

/-- The table that was asked for and is not there. -/
inductive TableQuery where
  | byId (table : TableId)
  | byName (name : String)
  deriving DecidableEq, Repr

namespace TableQuery

def message : TableQuery → String
  | .byId table => table.display
  | .byName name => name

end TableQuery

/-- What a file or a buffer manager refuses. `scripted` is the text that a test
collaborator was told to fail with. -/
inductive StorageFault where
  | lockPoisoned
  | poolFull (capacity : Nat) (page : PageId)
  | shapeMismatch (row : Schema) (table : TableId) (stored : Schema)
  | diskFull
  | startFailed (label : String)
  | scripted (text : String)
  deriving DecidableEq, Repr

namespace StorageFault

def message : StorageFault → String
  | .lockPoisoned => "lock poisoned"
  | .poolFull capacity page =>
      "buffer pool full: " ++ toString capacity ++ " dirty pages, cannot dirty page " ++
        page.display
  | .shapeMismatch row table stored =>
      "tuple shape [" ++ row.display ++ "] does not fit table " ++ table.display ++ " [" ++
        stored.display ++ "]"
  | .diskFull => "disk full"
  | .startFailed label => label ++ " open failed"
  | .scripted text => text

end StorageFault

/-- Why a configuration is refused. -/
inductive ConfigFault where
  | zeroPageSize
  | zeroPoolPages
  | pageTooSmall (pageSize width : Nat)
  deriving DecidableEq, Repr

namespace ConfigFault

def message : ConfigFault → String
  | .zeroPageSize => "page_size must be positive"
  | .zeroPoolPages => "buffer_pool_pages must be positive"
  | .pageTooSmall pageSize width =>
      "page_size " ++ toString pageSize ++ " cannot hold a " ++ toString width ++ "-byte tuple"

end ConfigFault

/-- Why a value has no canonical encoding to hash. -/
inductive HashFault where
  | keyNotString
  deriving DecidableEq, Repr

namespace HashFault

def message : HashFault → String
  | .keyNotString => "key must be a string"

end HashFault

/-- The errors of schemas, rows, storage and hashing. -/
inductive Error where
  | invalidSchema (fault : SchemaFault)
  | noSuchField (query : ColumnQuery)
  | indexOutOfRange (index size : Nat)
  | typeMismatch (index : Nat) (expected found : FieldType)
  | valueTooLong (index bytes : Nat)
  | noSuchTable (query : TableQuery)
  | storage (fault : StorageFault)
  | transactionAborted (transaction : TransactionId)
  | config (fault : ConfigFault)
  | hash (fault : HashFault)
  deriving DecidableEq, Repr

namespace Error

def message : Error → String
  | .invalidSchema fault => "Invalid schema: " ++ fault.message
  | .noSuchField query => "No such field: " ++ query.message
  | .indexOutOfRange index size =>
      "Field index " ++ toString index ++ " out of range for tuple with " ++ toString size ++
        " fields"
  | .typeMismatch index expected found =>
      "Type mismatch at field " ++ toString index ++ ": expected " ++ expected.display ++
        ", found " ++ found.display
  | .valueTooLong index bytes =>
      "Value at field " ++ toString index ++ " is " ++ toString bytes ++
        " bytes, longer than the " ++ toString FieldType.maxStringBytes ++ "-byte maximum"
  | .noSuchTable query => "No such table: " ++ query.message
  | .storage fault => "Storage error: " ++ fault.message
  | .transactionAborted transaction => "Transaction " ++ transaction.display ++ " aborted"
  | .config fault => "Invalid configuration: " ++ fault.message
  | .hash fault => "Hashing error: " ++ fault.message

/-- Whether the enclosing transaction has to stop. -/
def isTransactionAborted : Error → Bool
  | .transactionAborted _ => true
  | _ => false

end Error

/-- How a call fails: it refuses for a reason, or it breaks off. -/
inductive Failure (ε : Type) where
  | error (cause : ε)
  | crashed
  deriving DecidableEq, Repr

end RowEngine
