/-
Configurations as TOML documents.

* `Config.ofToml?` — the configuration that a document defines; what it does not mention is as in
  `Config.default`, and what is no setting is ignored;
* `Config.parse` — the same from the text of a document;
* `Config.text` — a document that defines a configuration;
* `Config.defaultText` — a document with comments, for a user to begin with.

A document has signed integers of 64 bits only, so a delay of `2 ^ 63` milliseconds or more has no
text.
-/

import DocStore.Config
import DocStore.Error
import DocStore.Toml.Text

set_option autoImplicit false

namespace DocStore

/-! ### Reading -/

/-- The natural number below a bound that a value is. -/
def Toml.Value.natural? (bound : Nat) : Toml.Value → Option Nat
  | .integer n => if 0 ≤ n.toInt ∧ n.toInt < bound then some n.toInt.toNat else none
  | _ => none

namespace RetryPolicy

/-- The value of a setting that may be missing, as a number below a bound. -/
def setting? (bound : Nat) : Option Toml.Value → Option (Option Nat)
  | none => some none
  | some value => (value.natural? bound).map some

/-- The policy with these settings; without a limit there is none, and without a delay it is 0. -/
def ofSettings? (maxAttempts baseDelayMs maxDelayMs : Option Toml.Value) : Option RetryPolicy :=
  match setting? UInt32.size maxAttempts, setting? UInt64.size baseDelayMs,
      setting? UInt64.size maxDelayMs with
  | some limit, some base, some greatest =>
      some ⟨limit.map UInt32.ofNat, UInt64.ofNat (base.getD 0), UInt64.ofNat (greatest.getD 0)⟩
  | _, _, _ => none

/-- The policy that a value defines.  A table has the settings by name, and an array has them in
their order.  A point in time has none of them. -/
def ofToml? : Toml.Value → Option RetryPolicy
  | .table _ entries =>
      ofSettings? (Toml.find? "max_attempts" entries) (Toml.find? "base_delay_ms" entries)
        (Toml.find? "max_delay_ms" entries)
  | .array items => ofSettings? items[0]? items[1]? items[2]?
  | .moment _ => some unbounded
  | _ => none

end RetryPolicy

namespace Config

/-- The configuration that a document defines. -/
def ofToml? (document : Toml.Entries) : Option Config :=
  match Toml.find? "retry" document with
  | none => some default
  | some value => (RetryPolicy.ofToml? value).map Config.mk

/-- The configuration that a text defines. -/
def parse (text : String) : Except Error Config :=
  match (Toml.parse? text).bind ofToml? with
  | some config => .ok config
  | none => .error .config

/-! ### Writing -/

/-- A line that gives a number to a key. -/
def line (key : String) (n : Nat) : String :=
  key ++ " = " ++ toString n ++ "\n"

/-- The least delay, in milliseconds, that does not fit the integers of a document. -/
def delayLimit : Nat :=
  0x8000000000000000

/-- The text of a configuration, if its delays fit the integers of a document. -/
def text (config : Config) : Except Error String :=
  let retry := config.retry
  if retry.baseDelayMs.toNat < delayLimit ∧ retry.maxDelayMs.toNat < delayLimit then
    let limit := match retry.maxAttempts with
      | some n => line "max_attempts" n.toNat
      | none => ""
    .ok ("[retry]\n" ++ limit ++ line "base_delay_ms" retry.baseDelayMs.toNat
      ++ line "max_delay_ms" retry.maxDelayMs.toNat)
  else .error .config

/-- The lines of `Config.defaultText`. -/
def defaultLines : List String :=
  ["# folio configuration",
    "#",
    "# Compare-and-swap retry policy, used by document writes, read-modify-write",
    "# updates and index bucket maintenance.",
    "[retry]",
    "# Attempts per operation before giving up. Omit to retry forever (default).",
    "# max_attempts = 64",
    "",
    "# Exponential backoff between attempts, in milliseconds. 0 = retry at once.",
    "base_delay_ms = 0",
    "max_delay_ms = 0"]

/-- A document that defines the default configuration, and explains it. -/
def defaultText : String :=
  String.join (defaultLines.map (· ++ "\n"))

end Config

end DocStore
