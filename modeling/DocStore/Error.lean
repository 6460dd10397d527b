/-
What can go wrong.

* `Error` — the causes; `Error.message` — each in words;
* `Error.isConflict`, `Error.isNotFound` — the two questions that callers ask of a failure;
* `UpdateError` — the failures of a read-modify-write, which its modifier may also abort.
-/

import DocStore.FieldPath.Parser
import DocStore.Text.Quoted

set_option autoImplicit false

namespace DocStore

/-- Why an operation failed. -/
inductive Error
  /-- There is no such document, table or index. -/
  | notFound
  /-- The document is not at the counter that the caller expected. -/
  | counterChanged
  /-- A slot is not at the counter that a compare-and-swap expected. -/
  | swapMismatch
  /-- Bytes do not hold a document of the wanted shape. -/
  | decode
  /-- A value cannot be written. -/
  | encode
  /-- A range has no further entry. -/
  | endOfRange
  /-- A text is no name of a table or an index. -/
  | badIdentifier (name : String)
  /-- The name is taken. -/
  | alreadyExists (name : String)
  /-- A text is no path. -/
  | invalidPath (reason : FieldPath.ParseError)
  /-- All attempts on a key were lost to other writers. -/
  | retryLimitExceeded (key : String) (attempts : UInt32)
  /-- A configuration cannot be read or written. -/
  | config
  /-- The storage failed. -/
  | storage (reason : String)
  /-- A file cannot be written. -/
  | io
  deriving DecidableEq

namespace Error

/-- Why an operation failed, in words. -/
def message : Error → String
  | .notFound => "not found"
  | .counterChanged => "counter changed"
  | .swapMismatch => "compare-and-swap mismatch"
  | .decode => "decode error"
  | .encode => "encode error"
  | .endOfRange => "end of range"
  | .badIdentifier name => "bad identifier: " ++ Quoted.quote name
  | .alreadyExists name => "already exists: " ++ name
  | .invalidPath reason => "invalid field path: " ++ reason.message
  | .retryLimitExceeded key attempts =>
      "retry limit exceeded for key " ++ Quoted.quote key ++ " after " ++ toString attempts.toNat
        ++ " attempts"
  | .config => "configuration error"
  | .storage reason => "storage error: " ++ reason
  | .io => "I/O error"

/-- Whether another writer was faster. -/
def isConflict : Error → Bool
  | .counterChanged => true
  | .swapMismatch => true
  | _ => false

/-- Whether what was asked for does not exist. -/
def isNotFound : Error → Bool
  | .notFound => true
  | _ => false

end Error

/-- Why a read-modify-write failed. -/
inductive UpdateError
  /-- The modifier gave up, for this reason. -/
  | aborted (reason : String)
  /-- The store failed. -/
  | store (e : Error)
  deriving DecidableEq

/-- Why a read-modify-write failed, in words. -/
def UpdateError.message : UpdateError → String
  | .aborted reason => "update aborted: " ++ reason
  | .store e => e.message

end DocStore
