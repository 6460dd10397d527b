/-
Operations on documents, one after another.

What an operation means is said here without its calls: what comes of it when it is alone with the
documents, and what they are after it.

* `DocumentRequest.apply` — the outcome of an operation that is alone, and the documents after it;
* `DocumentRequest.exhausted?` — the outcome of an operation that has lost all its attempts;
* `DocumentRequest.Allows` — the outcomes that an operation may have: its own, that of lost
  attempts, which changes nothing, and for a deletion at an expected counter also that the counter
  has changed, when the document is missing;
* `Sequential` — operations that follow one another;
* `DocumentRequest.Allows.unchanged` — **an operation that reports a failure has changed nothing.**
-/

import DocStore.Proofs.Run.Requests

set_option autoImplicit false

namespace DocStore

/-- The outcome of writing a document, and the documents after it. -/
def Store.written (documents : Store) (key : String) (value : Value) :
    Except Error Counter × Store :=
  match value.encode? with
  | some data => (.ok (documents.set (Utf8.encode key) data).1,
      (documents.set (Utf8.encode key) data).2)
  | none => (.error .encode, documents)

namespace DocumentRequest

/-! ### One operation -/

/-- The outcome of an operation that is alone, and the documents after it. -/
def apply (documents : Store) : DocumentRequest → DocumentOutcome × Store
  | .get key shape =>
      match documents.get? (Utf8.encode key) with
      | some stored => (.read (stored.decode shape), documents)
      | none => (.read (.error .notFound), documents)
  | .set key value =>
      let (result, after) := documents.written key value
      (.written result, after)
  | .setIf key value expected =>
      if value.encode?.isSome ∧ documents.liveCounter? (Utf8.encode key) ≠ some expected then
        (.written (.error .counterChanged), documents)
      else
        let (result, after) := documents.written key value
        (.written result, after)
  | .delete key => (.deleted (.ok ()), documents.delete (Utf8.encode key))
  | .deleteIf key expected =>
      match documents.liveCounter? (Utf8.encode key) with
      | some counter =>
          if counter = expected then (.deleted (.ok ()), documents.delete (Utf8.encode key))
          else (.deleted (.error .counterChanged), documents)
      | none => (.deleted (.ok ()), documents)
  | .update key modifier =>
      match documents.get? (Utf8.encode key) with
      | none => (.updated (.error (.store .notFound)), documents)
      | some stored =>
          match stored.decode modifier.shape with
          | .error e => (.updated (.error (.store e)), documents)
          | .ok current =>
              match modifier.apply current.value with
              | .error reason => (.updated (.error (.aborted reason)), documents)
              | .ok value =>
                  let (result, after) := documents.written key value
                  (.updated (result.mapError .store), after)

/-- The outcome of an operation that has lost all its attempts, so many as the limit says.  With an
expected counter there is one attempt, which is lost only where there is none at all. -/
def exhausted? (limit : UInt32) : DocumentRequest → Option DocumentOutcome
  | .get _ _ => none
  | .set key value =>
      if value.encode?.isSome then some (.written (.error (.retryLimitExceeded key limit)))
      else none
  | .setIf key value _ =>
      if value.encode?.isSome ∧ limit = 0 then
        some (.written (.error (.retryLimitExceeded key limit)))
      else none
  | .delete key => some (.deleted (.error (.retryLimitExceeded key limit)))
  | .deleteIf key _ =>
      if limit = 0 then some (.deleted (.error (.retryLimitExceeded key limit))) else none
  | .update key _ => some (.updated (.error (.store (.retryLimitExceeded key limit))))

/-- The outcomes that an operation may have, with the documents after each. -/
inductive Allows (policy : RetryPolicy) (request : DocumentRequest) (documents : Store) :
    DocumentOutcome → Store → Prop
  /-- Its own. -/
  | alone : Allows policy request documents (request.apply documents).1
      (request.apply documents).2
  /-- All attempts are lost. -/
  | exhausted {limit : UInt32} {outcome : DocumentOutcome}
      (limited : policy.maxAttempts = some limit)
      (lost : request.exhausted? limit = some outcome) :
      Allows policy request documents outcome documents
  /-- A document that is to be deleted at a counter is missing. -/
  | missed {key : String} {expected : Counter} (asked : request = .deleteIf key expected)
      (missing : documents.get? (Utf8.encode key) = none) :
      Allows policy request documents (.deleted (.error .counterChanged)) documents

end DocumentRequest

/-! ### One after another -/

/-- Operations of a history that follow one another, with their outcomes, and the documents before
the first and after the last. -/
inductive Sequential {α : Type} (policy : RetryPolicy)
    (history : List (Event DocumentRequest α)) (before : Store) :
    List (Nat × DocumentOutcome) → Store → Prop
  /-- There is none. -/
  | nil : Sequential policy history before [] before
  /-- One follows. -/
  | append {order : List (Nat × DocumentOutcome)} {documents after : Store} {operation : Nat}
      {request : DocumentRequest} {outcome : DocumentOutcome}
      (earlier : Sequential policy history before order documents)
      (invoked : history[operation]? = some (.invoked request))
      (allowed : request.Allows policy documents outcome after) :
      Sequential policy history before (order ++ [(operation, outcome)]) after

theorem Sequential.mono {α : Type} {policy : RetryPolicy}
    {history later : List (Event DocumentRequest α)} {before after : Store}
    {order : List (Nat × DocumentOutcome)} (h : Sequential policy history before order after)
    (extended : history <+: later) : Sequential policy later before order after := by
  induction h with
  | nil => exact .nil
  | append earlier invoked allowed ih =>
      exact ih.append (System.getElem?_of_prefix extended invoked) allowed

/-! ### Failures -/

/-- Whether an outcome is a failure. -/
def DocumentOutcome.isFailure : DocumentOutcome → Bool
  | .read result => !result.isOk
  | .written result => !result.isOk
  | .deleted result => !result.isOk
  | .updated result => !result.isOk

/-- A write that fails has not happened. -/
theorem Store.written_of_failure {documents : Store} {key : String} {value : Value}
    (failure : (documents.written key value).1.isOk = false) :
    (documents.written key value).2 = documents := by
  unfold written at failure ⊢
  split
  · rename_i data hd
    simp only [hd] at failure
    cases failure
  · rfl

/-- An operation that is alone and reports a failure has changed nothing. -/
theorem DocumentRequest.apply_of_failure {request : DocumentRequest} {documents : Store}
    (failure : (request.apply documents).1.isFailure) :
    (request.apply documents).2 = documents := by
  cases request with
  | get key shape =>
      simp only [apply]
      split <;> rfl
  | set key value =>
      refine Store.written_of_failure (?_ : (documents.written key value).1.isOk = false)
      simpa [apply, DocumentOutcome.isFailure] using failure
  | setIf key value expected =>
      simp only [apply] at failure ⊢
      split
      · rfl
      · rename_i hc
        rw [if_neg hc] at failure
        refine Store.written_of_failure (?_ : (documents.written key value).1.isOk = false)
        simpa [DocumentOutcome.isFailure] using failure
  | delete key => cases failure
  | deleteIf key expected =>
      simp only [apply] at failure ⊢
      split
      · split
        · rename_i hc he
          simp only [hc, he, if_true] at failure
          cases failure
        · rfl
      · rfl
  | update key modifier =>
      -- only the last of the four outcomes comes after a write
      simp only [apply] at failure ⊢
      split
      · rfl
      · rename_i stored hs
        split
        · rfl
        · rename_i current hd
          split
          · rfl
          · rename_i value hv
            simp only [hs, hd, hv] at failure
            refine Store.written_of_failure ?_
            cases hr : (documents.written key value).1 with
            | ok counter =>
                rw [hr] at failure
                cases failure
            | error e => rfl

/-- **An operation that reports a failure has changed nothing.** -/
theorem DocumentRequest.Allows.unchanged {policy : RetryPolicy} {request : DocumentRequest}
    {documents after : Store} {outcome : DocumentOutcome}
    (h : request.Allows policy documents outcome after) (failure : outcome.isFailure) :
    after = documents := by
  cases h with
  | exhausted limited lost => rfl
  | missed asked missing => rfl
  | alone => exact apply_of_failure failure

end DocStore
