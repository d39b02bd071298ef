import JobAgg.Foundation.Checked

/-! # Atomic JSON store

One JSON file behind a lock, as in `atomic_json_store.py`: a transaction reads
and validates the document, changes it in memory and writes it back by replacing
the file. A write can fail while the temporary file is written; after the
replacement the file reads back as written.
-/

namespace JobAgg.StorageBudget

inductive Failure
  | storageBudgetError (message : String)
  | storageBudgetDeferred (message : String)
  | atomicJsonStoreError (message : String)
  | keyError
  | osError
  deriving DecidableEq, Repr

/-- `encodedBytes` is the length of the encoded document. -/
structure AtomicJsonStore (Document : Type) where
  validator : Document → Except Failure Unit
  encodedBytes : Document → ℕ
  maximumBytes : ℕ

namespace AtomicJsonStore

variable {Document Outcome : Type}

/-- `ValueError` and its subclasses become a store error. -/
def invalid : Failure → Failure
  | .storageBudgetError _ => .atomicJsonStoreError "JSON store is invalid."
  | .storageBudgetDeferred _ => .atomicJsonStoreError "JSON store is invalid."
  | failure => failure

/-- `_read_unlocked`; a missing file reads as the default document `none`. -/
def readUnlocked (store : AtomicJsonStore Document) :
    Option Document → Except Failure (Option Document)
  | none => .ok none
  | some document => do
    require (decide (store.encodedBytes document ≤ store.maximumBytes))
      (.atomicJsonStoreError "JSON store exceeds the size limit.")
    (store.validator document).mapError invalid
    return some document

/-- What `_write_unlocked` checks before it touches the file. -/
def encode (store : AtomicJsonStore Document) (document : Document) : Except Failure Unit := do
  (store.validator document).mapError invalid
  require (decide (0 < store.encodedBytes document ∧
    store.encodedBytes document ≤ store.maximumBytes))
    (.atomicJsonStoreError "JSON store exceeds the size limit.")

/-- `_write_unlocked`: the file after it, and its outcome. `fault` is a failure
before `os.replace`. -/
def writeUnlocked (store : AtomicJsonStore Document) (file : Option Document)
    (document : Document) (fault : Bool) : Option Document × Except Failure Unit :=
  match store.encode document with
  | .error failure => (file, .error failure)
  | .ok () =>
    if fault then (file, .error (.atomicJsonStoreError "JSON store write failed."))
    else (some document, .ok ())

/-- `mutate`: the mutation returns its outcome, and the document if it changed. -/
def mutate (store : AtomicJsonStore Document) (file : Option Document) (fault : Bool)
    (mutation : Option Document → Except Failure (Outcome × Option Document)) :
    Option Document × Except Failure Outcome :=
  match store.readUnlocked file >>= mutation with
  | .error failure => (file, .error failure)
  | .ok (outcome, none) => (file, .ok outcome)
  | .ok (outcome, some document) =>
    let (written, done) := store.writeUnlocked file document fault
    (written, done.map fun _ => outcome)

variable {store : AtomicJsonStore Document} {file : Option Document} {fault : Bool}
  {mutation : Option Document → Except Failure (Outcome × Option Document)} {outcome : Outcome}

theorem encode_eq_ok {document : Document} (encoded : store.encode document = .ok ()) :
    store.validator document = .ok () := by
  unfold encode at encoded
  rcases bind_eq_ok.mp encoded with ⟨_, validated, _⟩
  exact mapError_eq_ok.mp validated

theorem readUnlocked_eq_ok {document : Option Document}
    (read : store.readUnlocked file = .ok document) : document = file := by
  cases file with
  | none =>
    simp only [readUnlocked, Except.ok.injEq] at read
    exact read.symm
  | some stored =>
    simp only [readUnlocked, require_bind_eq_ok] at read
    rcases bind_eq_ok.mp read.2 with ⟨_, _, returned⟩
    exact (pure_eq_ok.mp returned).symm

theorem mutate_of_error {failure : Failure}
    (raised : (store.mutate file fault mutation).2 = .error failure) :
    (store.mutate file fault mutation).1 = file := by
  unfold mutate writeUnlocked at raised ⊢
  cases computed : store.readUnlocked file >>= mutation with
  | error _ => rfl
  | ok result =>
    rcases result with ⟨outcome, _ | document⟩
    · rfl
    · cases encoded : store.encode document with
      | error _ => simp only [encoded]
      | ok _ =>
        cases fault with
        | true => simp only [encoded, if_true]
        | false => simp [computed, encoded, Except.map] at raised

theorem mutate_of_ok (done : (store.mutate file fault mutation).2 = .ok outcome) :
    ∃ changed, mutation file = .ok (outcome, changed) ∧
      (store.mutate file fault mutation).1 = changed.or file ∧
      ∀ document ∈ changed, store.validator document = .ok () := by
  unfold mutate writeUnlocked at done ⊢
  cases computed : store.readUnlocked file >>= mutation with
  | error failure => simp [computed] at done
  | ok result =>
    rcases bind_eq_ok.mp computed with ⟨document, read, mutated⟩
    rw [readUnlocked_eq_ok read] at mutated
    rcases result with ⟨returned, _ | written⟩
    · simp only [computed, Except.ok.injEq] at done
      exact ⟨none, done ▸ mutated, rfl, by simp⟩
    · cases encoded : store.encode written with
      | error failure => simp [computed, encoded, Except.map] at done
      | ok _ =>
        cases fault with
        | true => simp [computed, encoded, Except.map] at done
        | false =>
          simp only [computed, encoded, Bool.false_eq_true, if_false, Except.map,
            Except.ok.injEq] at done
          refine ⟨some written, done ▸ mutated, by simp [encoded], ?_⟩
          simpa using encode_eq_ok encoded

end AtomicJsonStore

end JobAgg.StorageBudget
