/-
The configuration of a database.

* `Config` — the settings; `Config.default` — those that hold when nothing is configured.
-/

import DocStore.Retry

set_option autoImplicit false

namespace DocStore

/-- The settings of a database. -/
structure Config where
  /-- How operations are retried. -/
  retry : RetryPolicy
  deriving DecidableEq

/-- The settings that hold when nothing is configured. -/
def Config.default : Config :=
  ⟨.unbounded⟩

end DocStore
