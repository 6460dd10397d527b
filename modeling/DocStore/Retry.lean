/-
How often an operation is tried that other writers can disturb.

* `RetryPolicy` — the configured limit and delays; without a limit an operation is tried until it
  succeeds;
* `Attempts`, `Attempts.begin` — the count of one operation, which is asked before each attempt.

The delays say how long to wait between attempts and have no influence on any result.
-/

import DocStore.Error
import DocStore.Text.Utf8

set_option autoImplicit false

namespace DocStore

/-- How an operation is retried after it lost to another writer. -/
structure RetryPolicy where
  /-- How many attempts an operation has; none for as many as it takes. -/
  maxAttempts : Option UInt32
  /-- The delay before the first retry, in milliseconds; it doubles with every further one. -/
  baseDelayMs : UInt64
  /-- The greatest delay, in milliseconds. -/
  maxDelayMs : UInt64
  deriving DecidableEq

namespace RetryPolicy

/-- As many attempts as it takes, without delay. -/
def unbounded : RetryPolicy :=
  ⟨none, 0, 0⟩

end RetryPolicy

/-- The attempts of one operation on a key. -/
structure Attempts where
  /-- How many there may be. -/
  limit : Option UInt32
  /-- The key that the operation writes. -/
  key : Bytes
  /-- How many there have been. -/
  made : UInt32

/-- No attempt on a key has been made yet. -/
def RetryPolicy.attempts (policy : RetryPolicy) (key : Bytes) : Attempts :=
  ⟨policy.maxAttempts, key, 0⟩

namespace Attempts

/-- Counts one more attempt. -/
def counted (attempts : Attempts) : Attempts :=
  { attempts with made := attempts.made + 1 }

/-- Begins another attempt, if there may be one. -/
def begin (attempts : Attempts) : Except Error Attempts :=
  match attempts.limit with
  | some limit =>
      if limit ≤ attempts.made then
        .error (.retryLimitExceeded (Utf8.lossy attempts.key) attempts.made)
      else .ok attempts.counted
  | none => .ok attempts.counted

end Attempts

end DocStore
