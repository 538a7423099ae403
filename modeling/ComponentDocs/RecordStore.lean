import ComponentDocs.Record

/-!
# Record stores

The records made so far, each under its key and with the fingerprint of what it was made from.
Records stay until they are discarded; a store never looks at files.
-/

namespace ComponentDocs

/-- A record with the fingerprint of what it was made from. -/
structure StoredRecord (φ : Type) where
  key : String
  record : ComponentRecord
  fingerprint : φ
  deriving DecidableEq, Repr

/-- Records in the order in which their keys were first stored. -/
structure RecordStore (φ : Type) where
  entries : List (StoredRecord φ) := []
  deriving DecidableEq, Repr

namespace RecordStore

variable {φ : Type}

/-- What is stored under a key. -/
def find? (store : RecordStore φ) (key : String) : Option (StoredRecord φ) :=
  store.entries.find? (·.key = key)

/-- The record under a key. -/
def get? (store : RecordStore φ) (key : String) : Option ComponentRecord :=
  (store.find? key).map StoredRecord.record

/-- Whether there is a record under a key. -/
def contains (store : RecordStore φ) (key : String) : Bool := (store.find? key).isSome

/-- The store with a record under a key, in the place of the record that was there. -/
def insert (store : RecordStore φ) (key : String) (record : ComponentRecord) (fingerprint : φ) :
    RecordStore φ :=
  let entry : StoredRecord φ := ⟨key, record, fingerprint⟩
  if store.contains key then
    ⟨store.entries.map fun other => if other.key = key then entry else other⟩
  else ⟨store.entries ++ [entry]⟩

/-- Whether a record under a key was made from something else than the fingerprint says. -/
def isStale [BEq φ] (store : RecordStore φ) (key : String) (fingerprint : φ) : Bool :=
  match store.find? key with
  | some entry => entry.fingerprint != fingerprint
  | none => false

/-- The store without the record under a key. -/
def erase (store : RecordStore φ) (key : String) : RecordStore φ :=
  ⟨store.entries.filter (·.key ≠ key)⟩

/-- The keys in order. -/
def keys (store : RecordStore φ) : List String := store.entries.map StoredRecord.key

/-- The records in order. -/
def records (store : RecordStore φ) : List ComponentRecord :=
  store.entries.map StoredRecord.record

/-- The number of records. -/
def size (store : RecordStore φ) : Nat := store.entries.length

end RecordStore

end ComponentDocs
