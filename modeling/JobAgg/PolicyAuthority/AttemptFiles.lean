import JobAgg.Foundation.Groups
import JobAgg.Foundation.Run
import JobAgg.PolicyAuthority.SharedPolicy

/-! # The attempt files and their batch projection

The file-based `SharedPolicy` of `pipelines/worker_policy.py`, as its directory of
attempt files, the index of their names, and the events that an owner batch keeps in
memory. A scan gives the files in any order. The file of a reservation and the index
are two writes, and a process can end between them.
-/

namespace JobAgg.PolicyAuthority.AttemptFiles

abbrev Groups := List (String × List SharedEvent)

/-- The store on disk, and the batch of the process that owns it. -/
structure Store where
  files : List (String × SharedEvent)
  index : List String
  batch : Option Groups := none

/-- The arguments of `reserve`. -/
structure Reservation where
  attemptId : String
  sourceId : String
  kind : Kind
  startedAt : ℚ
  workspace : String
  taskId : String

def Reservation.event (reservation : Reservation) : SharedEvent where
  attemptId := reservation.attemptId
  sourceId := reservation.sourceId
  kind := reservation.kind
  startedAt := reservation.startedAt
  workspace := reservation.workspace
  taskId := reservation.taskId

/-- `re.fullmatch(r"[0-9a-f]{64}\.json", name)`. -/
def isAttemptFile (name : String) : Bool :=
  isSha256 (String.ofList (name.toList.take 64)) && name.toList.drop 64 == ".json".toList

def details (events : List SharedEvent) : List SharedEvent :=
  events.filter fun event => event.kind == .detail

def snapshotGroups (order : List (String × SharedEvent)) : Groups :=
  sortGroups SharedEvent.startedAt
    (grouped SharedEvent.sourceId (details (order.map Prod.snd)))

/-- The history, read from a scan; unindexed reservation files are included. -/
def eventSnapshot (store : Store) (order : List (String × SharedEvent)) :
    Except String Groups := do
  require (store.index.all isAttemptFile && decide store.index.Nodup)
    "Malformed shared attempt history index"
  require (store.index.all fun name => order.any (·.1 == name))
    "Shared attempt history removed; no quota reset permitted"
  return snapshotGroups order

def beginBatch (store : Store) (order : List (String × SharedEvent)) : Except String Store := do
  let events ← eventSnapshot store order
  return { store with batch := some events }

/-- `_batch_update`: the changed event replaces its earlier state and sorts in. -/
def updateGroups (event : SharedEvent) (groups : Groups) : Groups :=
  if event.kind = .detail then
    let rows := (lookup event.sourceId groups).getD []
    assign event.sourceId (orderBy SharedEvent.startedAt
      (rows.filter (fun row => row.attemptId != event.attemptId) ++ [event])) groups
  else groups

def batchUpdate (store : Store) (event : SharedEvent) : Store :=
  { store with batch := store.batch.map (updateGroups event) }

def finishBatch (store : Store) (order : List (String × SharedEvent)) : Except String Store := do
  match store.batch with
  | none => return store
  | some events =>
    let actual ← eventSnapshot store order
    require (sameEntries actual events) "Shared policy evidence changed during owner batch"
    return { store with batch := none }

section Writers

variable (hash : String → String)

def attemptFile (attemptId : String) : String := hash attemptId ++ ".json"

def writeReservation (store : Store) (reservation : Reservation) : Except String Store := do
  let name := attemptFile hash reservation.attemptId
  require (!store.files.any (·.1 == name)) "Durable shared attempt already exists"
  return { store with files := store.files ++ [(name, reservation.event)] }

/-- The second write: `sorted({*index, name})`. -/
def writeIndex (store : Store) (name : String) : Store :=
  { store with index := orderBy id (store.index ++ [name]).dedup }

def reserve (store : Store) (reservation : Reservation) : Except String Store := do
  let written ← writeReservation hash store reservation
  return batchUpdate (writeIndex written (attemptFile hash reservation.attemptId))
    reservation.event

def finish (store : Store) (attemptId status : String) (now : ℚ) : Except String Store :=
  let name := attemptFile hash attemptId
  match lookup name store.files with
  | none => .error "No such file or directory"
  | some event =>
    let finished := { event with finishedAt := some now, status := status }
    .ok (batchUpdate { store with files := assign name finished store.files } finished)

/-- A first store, from the attempts of reviewed prior writers. -/
def initialized (attempts : List SharedEvent) : Store :=
  let files := attempts.foldl (fun files event =>
    assign (attemptFile hash event.attemptId) { event with kind := .detail } files) []
  { files, index := orderBy id (files.map Prod.fst) }

inductive Call
  | reserve (reservation : Reservation)
  | finish (attemptId status : String) (now : ℚ)

def call (store : Store) : Call → Except String Store
  | .reserve reservation => reserve hash store reservation
  | .finish attemptId status now => finish hash store attemptId status now

def after (store : Store) (request : Call) : Store := (call hash store request).toOption.getD store

/-- What happens to a store. -/
inductive Action
  | call (request : Call)
  | crash
  | crashInReserve (reservation : Reservation)
  | beginBatch (order : List (String × SharedEvent))
  | finishBatch (order : List (String × SharedEvent))

/-- The end of a process, which loses its batch. -/
def crashed (store : Store) : Store := { store with batch := none }

def Step (store : Store) (action : Action) (next : Store) : Prop :=
  match action with
  | .call request => next = after hash store request
  | .crash => next = crashed store
  | .crashInReserve reservation =>
    ∃ written, writeReservation hash store reservation = .ok written ∧ next = crashed written
  | .beginBatch order => order.Perm store.files ∧ beginBatch store order = .ok next
  | .finishBatch order =>
    order.Perm store.files ∧ next = (finishBatch store order).toOption.getD (crashed store)

end Writers

end JobAgg.PolicyAuthority.AttemptFiles
