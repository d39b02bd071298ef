import JobAgg.CommitmentLog.MembershipCache
import JobAgg.CommitmentLog.PlainLog

/-! # The cache is coherent

The two counters only grow, and the database is the same whenever both are. So a membership
whose stamp is current is the one that would be rebuilt, whatever other connections commit and
whatever is rolled back. -/

namespace JobAgg.CommitmentLog

open EpochVault

variable {Digest : Type} [DecidableEq Digest] {library : LogLibrary Digest} {vault : VaultKey}

/-- What can happen to a connection while others commit. -/
structure Passes (library : LogLibrary Digest) (before after : Connection Digest) : Prop where
  version : before.dataVersion ≤ after.dataVersion
  same : after.dataVersion = before.dataVersion → after.database = before.database
  changes : after.totalChanges = before.totalChanges
  run : ∃ events, Run (LogStep library) before.database events after.database

namespace Passes

variable {before middle after : Connection Digest}

theorem refl (connection : Connection Digest) : Passes library connection connection :=
  ⟨le_rfl, fun _ => rfl, rfl, [], .nil _⟩

theorem trans (early : Passes library before middle) (late : Passes library middle after) :
    Passes library before after where
  version := early.version.trans late.version
  same same := by
    have first := early.version
    have second := late.version
    rw [late.same (by omega), early.same (by omega)]
  changes := late.changes.trans early.changes
  run := by
    obtain ⟨one, first⟩ := early.run
    obtain ⟨two, second⟩ := late.run
    exact ⟨one ++ two, first.append second⟩

end Passes

namespace Connection

variable {connection : Connection Digest}

theorem other_passes (call : LogCall Digest) :
    Passes library connection (connection.other library call) ∧
      (connection.other library call).cache = connection.cache := by
  rw [other]
  cases performed : call.perform library connection.database with
  | error reason => exact ⟨.refl _, rfl⟩
  | ok committed =>
    refine ⟨⟨Nat.le_succ _, ?_, rfl, [⟨call, .ok committed.answer⟩], .single ?_⟩, rfl⟩
    · intro same
      dsimp only at same
      omega
    · rw [LogStep, performed]
      exact ⟨rfl, rfl⟩

theorem others_passes (calls : List (LogCall Digest)) :
    Passes library connection (connection.others library calls) ∧
      (connection.others library calls).cache = connection.cache := by
  induction calls generalizing connection with
  | nil => exact ⟨.refl _, rfl⟩
  | cons call rest induction =>
    obtain ⟨first, kept⟩ := @other_passes _ _ library connection call
    obtain ⟨later, still⟩ := @induction (connection.other library call)
    exact ⟨first.trans later, still.trans kept⟩

end Connection

/-! ## Coherence -/

/-- The stamp of the cache lies in the past, and while it is current every membership in the
cache is the one that would be rebuilt. -/
structure Coherent (library : LogLibrary Digest) (connection : Connection Digest) : Prop where
  past : ∀ stamp, connection.cache.stamp = some stamp →
    stamp.1 ≤ connection.dataVersion ∧ stamp.2 ≤ connection.totalChanges
  right : connection.cache.stamp = some connection.stamp →
    connection.cache.Holds fun vault value =>
      rebuildMembership library vault connection.database = .ok value

namespace Coherent

variable {before after connection : Connection Digest}

theorem opened (db : Database Digest) (dataVersion : Nat) :
    Coherent library (Connection.opened db dataVersion) where
  past _ impossible := by cases impossible
  right impossible := by cases impossible

theorem advance (coherent : Coherent library before) (cache : after.cache = before.cache)
    (version : before.dataVersion ≤ after.dataVersion)
    (changes : before.totalChanges ≤ after.totalChanges)
    (same : after.stamp = before.stamp → after.database = before.database) :
    Coherent library after where
  past stamp found := by
    rw [cache] at found
    obtain ⟨first, second⟩ := coherent.past stamp found
    exact ⟨first.trans version, second.trans changes⟩
  right current := by
    rw [cache] at current
    obtain ⟨first, second⟩ := coherent.past _ current
    dsimp only [Connection.stamp] at first second
    have unmoved : after.stamp = before.stamp :=
      Prod.ext (le_antisymm first version) (le_antisymm second changes)
    rw [unmoved] at current
    rw [cache, same unmoved]
    exact coherent.right current

theorem passes (coherent : Coherent library before) (passes : Passes library before after)
    (cache : after.cache = before.cache) : Coherent library after := by
  apply coherent.advance cache passes.version passes.changes.ge
  intro same
  exact passes.same (congrArg Prod.fst same)

theorem undo (coherent : Coherent library connection) (undone : Nat) :
    Coherent library (connection.undo undone) :=
  coherent.advance rfl le_rfl (Nat.le_add_right _ _) fun _ => rfl

theorem commit (coherent : Coherent library connection) {Answer : Type}
    {committed : Committed Digest Answer}
    (unchanged : committed.changes = 0 → committed.database = connection.database) :
    Coherent library (connection.commit committed) := by
  refine @advance _ _ _ connection (connection.commit committed) coherent rfl le_rfl
    (Nat.le_add_right _ _) ?_
  intro same
  have counted := congrArg Prod.snd same
  dsimp only [Connection.stamp, Connection.commit] at counted
  exact unchanged (by omega)

theorem refreshed (coherent : Coherent library connection) :
    Coherent library connection.refreshed where
  past stamp found := by
    rw [Connection.refreshed, StampedCache.forStamp_stamp, Option.some.injEq] at found
    subst found
    exact ⟨le_rfl, le_rfl⟩
  right current := by
    intro entry listed
    obtain ⟨stamped, listed⟩ := StampedCache.mem_forStamp listed
    exact coherent.right stamped entry listed

theorem touch (coherent : Coherent library connection) (vault : VaultKey) :
    Coherent library { connection with cache := connection.cache.touch vault } where
  past := coherent.past
  right current := (coherent.right current).touch

theorem remember (coherent : Coherent library connection) {value : Membership Digest}
    {stamp : Nat × Nat} (version : stamp.1 ≤ connection.dataVersion)
    (changes : stamp.2 ≤ connection.totalChanges)
    (right : connection.stamp = stamp →
      rebuildMembership library vault connection.database = .ok value) :
    Coherent library (connection.remember library vault value stamp) where
  past other found := by
    cases found
    exact ⟨version, changes⟩
  right current := by
    have same : connection.stamp = stamp := (Option.some.inj current).symm
    intro entry listed
    rcases StampedCache.mem_remember listed with rfl | ⟨stamped, listed⟩
    · exact right same
    · rw [← same] at stamped
      exact coherent.right stamped entry listed

end Coherent

/-! ## What `membership` answers -/

/-- What one attempt or all of them come to: an answer that is a membership is the one that
would be rebuilt now, and where no other connection committed so is every answer. -/
structure Answers (library : LogLibrary Digest) (vault : VaultKey)
    (before after : Connection Digest) (answer : Except String (Membership Digest)) : Prop where
  right : ∀ value, answer = .ok value →
    rebuildMembership library vault after.database = .ok value
  undisturbed : after.dataVersion = before.dataVersion →
    answer = rebuildMembership library vault after.database

namespace Connection

variable {connection after : Connection Digest} {answer : Except String (Membership Digest)}

/-- One attempt: what the connection goes through, and what it answers. An attempt that answers
nothing was disturbed. -/
structure Attempted (library : LogLibrary Digest) (vault : VaultKey)
    (connection after : Connection Digest)
    (answer : Option (Except String (Membership Digest))) : Prop where
  passes : Passes library connection after
  coherent : Coherent library after
  answers : ∀ value, answer = some value → Answers library vault connection after value
  disturbed : answer = none → connection.dataVersion < after.dataVersion

theorem rebuilt_spec (coherent : Coherent library connection) (meanwhile : Interference Digest) :
    Attempted library vault connection (connection.rebuilt library vault meanwhile).1
      (connection.rebuilt library vault meanwhile).2 := by
  obtain ⟨one, oneCache⟩ := @others_passes _ _ library connection meanwhile.first
  obtain ⟨two, twoCache⟩ :=
    @others_passes _ _ library (connection.others library meanwhile.first) meanwhile.second
  obtain ⟨three, threeCache⟩ := @others_passes _ _ library
    ((connection.others library meanwhile.first).others library meanwhile.second) meanwhile.third
  obtain ⟨four, fourCache⟩ := @others_passes _ _ library (((connection.others library
    meanwhile.first).others library meanwhile.second).others library meanwhile.third) meanwhile.last
  rw [rebuilt]
  generalize connection.others library meanwhile.first = first at *
  generalize first.others library meanwhile.second = second at *
  generalize second.others library meanwhile.third = third at *
  generalize third.others library meanwhile.last = last at *
  have whole := ((one.trans two).trans three).trans four
  have stays := coherent.passes whole (fourCache.trans (threeCache.trans (twoCache.trans oneCache)))
  -- as long as no other connection committed, the three queries saw one database
  have still (same : last.dataVersion = connection.dataVersion) :
      rebuildMembershipFrom library vault first.database second.database third.database =
        rebuildMembership library vault last.database := by
    have firstVersion := one.version
    have secondVersion := two.version
    have thirdVersion := three.version
    have lastVersion := four.version
    have thirdSame := four.same (by omega)
    have secondSame := three.same (by omega)
    have firstSame := two.same (by omega)
    rw [rebuildMembership, thirdSame, secondSame, firstSame]
  split
  case h_1 reason failed =>
    refine ⟨whole, stays, ?_, fun impossible => absurd impossible (by simp)⟩
    intro value same
    cases same
    exact ⟨fun other impossible => absurd impossible (by simp),
      fun same => by rw [← still same, failed]⟩
  case h_2 value made =>
    split
    case isTrue same =>
      have version := congrArg Prod.fst same
      have right : rebuildMembership library vault last.database = .ok value := by
        rw [← still version, made]
      refine ⟨⟨whole.version, whole.same, whole.changes, whole.run⟩, ?_, ?_,
        fun impossible => absurd impossible (by simp)⟩
      · apply stays.remember whole.version whole.changes.ge
        exact fun _ => right
      · intro other same
        cases same
        exact ⟨fun other same => by cases same; exact right, fun _ => right.symm⟩
    case isFalse changed =>
      refine ⟨whole, stays, fun _ impossible => absurd impossible (by simp), fun _ => ?_⟩
      apply lt_of_le_of_ne whole.version
      intro same
      exact changed (Prod.ext same.symm whole.changes)

theorem attempt_spec (coherent : Coherent library connection) (meanwhile : Interference Digest) :
    Attempted library vault connection (connection.attempt library vault meanwhile).1
      (connection.attempt library vault meanwhile).2 := by
  rw [attempt]
  split
  case h_1 value found =>
    have right := (coherent.refreshed.right StampedCache.forStamp_stamp).lookup found
    refine ⟨⟨le_rfl, fun _ => rfl, rfl, [], .nil _⟩, coherent.refreshed.touch vault, ?_, nofun⟩
    intro other same
    cases same
    exact ⟨fun other same => by cases same; exact right, fun _ => right.symm⟩
  case h_2 missing =>
    have spec := @rebuilt_spec _ _ library vault _ coherent.refreshed meanwhile
    exact ⟨⟨spec.passes.version, spec.passes.same, spec.passes.changes, spec.passes.run⟩,
      spec.coherent, fun value same => ⟨(spec.answers value same).right,
        (spec.answers value same).undisturbed⟩, spec.disturbed⟩

theorem attempts_spec (coherent : Coherent library connection)
    (schedule : List (Interference Digest)) (after : Connection Digest)
    (answer : Except String (Membership Digest))
    (attempted : connection.attempts library vault schedule = (after, answer)) :
    Passes library connection after ∧ Coherent library after ∧
      (∀ value, answer = .ok value → rebuildMembership library vault after.database = .ok value) ∧
      (schedule ≠ [] → after.dataVersion = connection.dataVersion →
        answer = rebuildMembership library vault after.database) := by
  induction schedule generalizing connection with
  | nil =>
    cases attempted
    exact ⟨.refl _, coherent, nofun, fun impossible => absurd rfl impossible⟩
  | cons meanwhile rest induction =>
    have spec := @attempt_spec _ _ library vault _ coherent meanwhile
    rw [attempts] at attempted
    split at attempted
    case h_1 next value found =>
      rw [found] at spec
      cases attempted
      have answers := spec.answers _ rfl
      exact ⟨spec.passes, spec.coherent, answers.right, fun _ => answers.undisturbed⟩
    case h_2 next found =>
      rw [found] at spec
      obtain ⟨passes, stays, right, -⟩ := induction spec.coherent attempted
      have later := spec.disturbed rfl
      have version := passes.version
      exact ⟨spec.passes.trans passes, stays, right, fun _ same => by omega⟩

theorem membership_spec (coherent : Coherent library connection) {schedule : Schedule Digest}
    (answered : connection.membership library vault schedule = (after, answer)) :
    Passes library connection after ∧ Coherent library after ∧
      Answers library vault connection after answer := by
  obtain ⟨passes, stays, right, undisturbed⟩ := attempts_spec coherent _ _ _ answered
  exact ⟨passes, stays, right, undisturbed (List.cons_ne_nil _ _)⟩

theorem rebuilt_none : (connection.rebuilt library vault .none).2.isSome = true ∧
    (connection.rebuilt library vault .none).1.dataVersion = connection.dataVersion := by
  rw [rebuilt]
  split
  case h_1 reason failed => exact ⟨rfl, rfl⟩
  case h_2 value made =>
    split
    case isTrue same => exact ⟨rfl, rfl⟩
    case isFalse other => exact absurd rfl other

theorem quiet_membership
    (answered : connection.membership library vault .quiet = (after, answer)) :
    after.dataVersion = connection.dataVersion := by
  have once : (connection.attempt library vault .none).2.isSome = true ∧
      (connection.attempt library vault .none).1.dataVersion = connection.dataVersion := by
    rw [attempt]
    split
    case h_1 value found => exact ⟨rfl, rfl⟩
    case h_2 missing => exact rebuilt_none
  rw [membership, Schedule.quiet, attempts] at answered
  split at answered
  case h_1 next value found =>
    rw [found] at once
    cases answered
    exact once.2
  case h_2 next found =>
    rw [found] at once
    cases once.1

theorem quiet_spec (coherent : Coherent library connection)
    (answered : connection.membership library vault .quiet = (after, answer)) :
    Coherent library after ∧ after.database = connection.database ∧
      after.dataVersion = connection.dataVersion ∧
      after.totalChanges = connection.totalChanges ∧
      answer = rebuildMembership library vault connection.database := by
  obtain ⟨passes, stays, answers⟩ := membership_spec coherent answered
  have version := quiet_membership answered
  have same := passes.same version
  refine ⟨stays, same, version, passes.changes, ?_⟩
  rw [answers.undisturbed version, same]

end Connection

/-! ## Transactions -/

theorem LogCall.transact_of_not_consults {call : LogCall Digest} {db : Database Digest}
    (apart : call.consults library db = false)
    (one other : Except String (Membership Digest)) :
    call.transact library one db = call.transact library other db := by
  cases call with
  | append vault view registryRoot publicB64 initialEpoch => rfl
  | putDelivery vault epoch issuerId packet =>
    rw [LogCall.transact, LogCall.transact, CommitmentLog.putDelivery, CommitmentLog.putDelivery]
    rw [LogCall.consults, Bool.and_eq_false_iff] at apart
    cases checked : deliveryBody library vault epoch issuerId packet
        (db.activationAt vault epoch) with
    | error reason => rfl
    | ok recipient =>
      rw [checked] at apart
      have inactive (answer : Except String (Membership Digest)) :
          requireActive vault [issuerId, recipient] answer db = .ok () := by
        rcases apart with impossible | inactive
        · cases impossible
        · rw [Option.isSome_eq_false_iff, Option.isNone_iff_eq_none] at inactive
          rw [requireActive.eq_def, inactive]
      rw [ok_bind, ok_bind, inactive, inactive]
  | acceptActivation vault proof registry device =>
    rw [LogCall.transact, LogCall.transact, CommitmentLog.acceptActivation, CommitmentLog.acceptActivation]
    rw [LogCall.consults] at apart
    cases durable : library.durable with
    | false => rfl
    | true =>
      cases found : (db.read vault).getLast? with
      | none => rfl
      | some last =>
        rw [durable, found] at apart
        dsimp only
        cases held : db.activation vault with
        | none => rfl
        | some current =>
          rw [held] at apart
          have same : current.proof.root = proof.root := by simpa using apart
          rw [Option.filter_some, if_pos (beq_iff_eq.mpr same)]
  | acceptEnrollment vault proof issuerId =>
    rw [LogCall.transact, LogCall.transact, CommitmentLog.acceptEnrollment, CommitmentLog.acceptEnrollment]
    rw [LogCall.consults] at apart
    rw [apart]
    rfl

namespace Connection

variable {connection after : Connection Digest}

theorem transact_spec (coherent : Coherent library connection) {call : LogCall Digest}
    {commits : Bool} {undone : Nat} {answer : Except String (LogAnswer Digest)}
    (done : connection.transact library call commits undone = (after, answer)) :
    Coherent library after ∧
      ((∃ committed, call.perform library connection.database = .ok committed ∧
          after.database = committed.database ∧ answer = .ok committed.answer) ∨
        ∃ reason, answer = .error reason ∧ after.database = connection.database ∧
          (commits = true → call.perform library connection.database = .error reason)) := by
  have known : ∃ inside members, (if call.consults library connection.database then
      connection.membership library call.vault .quiet
      else (connection, .error commitmentConflict)) = (inside, members) ∧
      Coherent library inside ∧ inside.database = connection.database ∧
      call.transact library members inside.database =
        call.perform library connection.database := by
    cases asks : call.consults library connection.database with
    | true =>
      obtain ⟨stays, same, -, -, right⟩ := quiet_spec coherent rfl
      exact ⟨_, _, rfl, stays, same, by rw [same, right, LogCall.perform]⟩
    | false =>
      exact ⟨_, _, rfl, coherent, rfl, LogCall.transact_of_not_consults asks _ _⟩
  obtain ⟨inside, members, found, stays, same, performed⟩ := known
  rw [transact, found] at done
  dsimp only at done
  rw [performed] at done
  split at done
  case h_1 reason failed =>
    cases done
    exact ⟨stays.undo undone, .inr ⟨reason, rfl, same, fun _ => failed⟩⟩
  case h_2 committed ran =>
    cases commits with
    | true =>
      cases done
      have unchanged := (LogCall.transact_writes ran).unchanged
      rw [← same] at unchanged
      exact ⟨stays.commit unchanged, .inl ⟨committed, ran, rfl, rfl⟩⟩
    | false =>
      cases done
      exact ⟨stays.undo undone, .inr ⟨_, rfl, same, nofun⟩⟩

end Connection

/-! ## Enrollments -/

theorem rebuildMembership_enrolled {db : Database Digest} (kept : Kept library vault (db.vaultLog vault))
    {proof : Enrollment Digest} {current : Membership Digest} {registry : Registry}
    (known : rebuildMembership library vault db = .ok current)
    (verified : verifyEnrollmentAttestation library proof current.registry current.context =
      .ok registry) :
    rebuildMembership library vault { db with enrollments := db.enrollments ++
      [⟨vault, proof.activationId, proof.nextRegistryGeneration, proof.root, proof⟩] } =
        .ok (current.enroll registry proof) := by
  rw [kept.toOrdered.rebuildMembership] at known
  have next := kept.enroll known verified
  rw [← Database.vaultLog_enrolled] at next
  rw [next.toOrdered.rebuildMembership, Database.vaultLog_enrolled]
  exact kept.membership_addEnrollment known verified

namespace Connection

variable {connection after : Connection Digest}

theorem learn_coherent (coherent : Coherent library connection) {proof : Enrollment Digest}
    {members : Except String (Membership Digest)} {appended : Bool} {stamp : Nat × Nat}
    (version : stamp.1 ≤ connection.dataVersion) (changes : stamp.2 ≤ connection.totalChanges)
    (right : connection.stamp = stamp → appended = true → ∀ current registry, members = .ok current →
      verifyEnrollmentAttestation library proof current.registry current.context = .ok registry →
      rebuildMembership library vault connection.database = .ok (current.enroll registry proof)) :
    Coherent library (connection.learn library vault proof members appended stamp) ∧
      (connection.learn library vault proof members appended stamp).database =
        connection.database := by
  rw [learn.eq_def]
  split
  case h_1 current =>
    split
    case h_1 registry verified =>
      refine ⟨coherent.remember version changes ?_, rfl⟩
      exact fun same => right same rfl current registry rfl verified
    case h_2 reason failed => exact ⟨coherent, rfl⟩
  case h_2 other => exact ⟨coherent, rfl⟩

/-- `accept` decides like a transaction that rebuilds the membership, at a database that other
connections left on the way. -/
theorem accept_spec (coherent : Coherent library connection) {proof : Enrollment Digest}
    {issuerId : String} {course : Course Digest} {answer : Except String Bool}
    (kept : ∀ events db, Run (LogStep library) connection.database events db →
      Kept library vault (db.vaultLog vault))
    (done : connection.accept library vault proof issuerId course = (after, answer)) :
    Coherent library after ∧
      ((∃ events, Run (LogStep library) connection.database events after.database) ∧
        ∀ appended, answer = .ok appended → ∃ version committed early late,
          Run (LogStep library) connection.database early version ∧
          (LogCall.acceptEnrollment vault proof issuerId).perform library version =
            .ok committed ∧ committed.answer = .enrolled appended ∧
          Run (LogStep library) committed.database late after.database) := by
  rw [accept] at done
  split at done
  case isFalse volatile =>
    cases done
    exact ⟨coherent, ⟨[], .nil _⟩, nofun⟩
  case isTrue durable =>
    split at done
    case h_1 warm reason found =>
      obtain ⟨passes, stays, -⟩ := membership_spec coherent found
      cases done
      exact ⟨stays, passes.run, nofun⟩
    case h_2 warm value found =>
      obtain ⟨warmed, stays, -⟩ := membership_spec coherent found
      obtain ⟨waited, waitedCache⟩ := @others_passes _ _ library warm course.before
      have ready := stays.passes waited waitedCache
      have begun := warmed.trans waited
      generalize warm.others library course.before = start at done begun ready
      generalize inner : start.membership library vault .quiet = result at done
      obtain ⟨inside, members⟩ := result
      obtain ⟨calm, same, version, total, right⟩ := quiet_spec ready inner
      rw [← same] at right
      obtain ⟨early, before⟩ := begun.run
      rw [← same] at before
      dsimp only at done
      split at done
      case h_1 reason failed =>
        cases done
        exact ⟨calm.undo _, ⟨early, before⟩, nofun⟩
      case h_2 committed accepted =>
        rw [right] at accepted
        have performed : (LogCall.acceptEnrollment vault proof issuerId).perform library
            inside.database = .ok (committed.answering .enrolled) := by
          rw [LogCall.perform, LogCall.transact, LogCall.vault, accepted]
          rfl
        have stepped : LogStep library inside.database
            ⟨.acceptEnrollment vault proof issuerId, .ok (.enrolled committed.answer)⟩
              committed.database := by
          rw [LogStep, performed]
          exact ⟨rfl, rfl⟩
        split at done
        case isFalse stopped =>
          cases done
          exact ⟨calm.undo _, ⟨early, before⟩, nofun⟩
        case isTrue commits =>
          have unchanged := (acceptEnrollment_writes accepted).unchanged
          have committedCoherent : Coherent library (inside.commit committed) :=
            calm.commit unchanged
          obtain ⟨later, laterCache⟩ :=
            @others_passes _ _ library (inside.commit committed) course.after
          have settled := committedCoherent.passes later laterCache
          obtain ⟨late, rest⟩ := later.run
          have learned := @learn_coherent _ _ library vault _ settled proof members
            committed.answer (inside.commit committed).stamp later.version later.changes.ge ?_
          · cases done
            refine ⟨learned.1, ?_, ?_⟩
            · rw [learned.2]
              exact ⟨_, before.append (.cons stepped rest)⟩
            · intro appended same
              cases same
              refine ⟨_, _, early, late, before, performed, rfl, ?_⟩
              rw [learned.2]
              exact rest
          · intro unmoved appended current registry known verified
            rw [later.same (congrArg Prod.fst unmoved)]
            rcases acceptEnrollment_spec accepted with rfl | ⟨_, _, _, _, rfl⟩
            · cases appended
            · apply rebuildMembership_enrolled (kept early _ before) _ verified
              rw [← right, known]

end Connection

/-! ## Runs of a connection -/

/-- What a connection keeps: its cache is coherent, and transactions that rebuild every
membership lead to its database. -/
structure Steady (library : LogLibrary Digest) (connection : Connection Digest) : Prop where
  coherent : Coherent library connection
  reached : ∃ events, Run (LogStep library) .empty events connection.database

theorem Steady.kept (injective : Function.Injective library.registryDigest)
    {connection : Connection Digest} (steady : Steady library connection)
    {events : List (LogEvent Digest)} {db : Database Digest}
    (run : Run (LogStep library) connection.database events db) :
    Kept library vault (db.vaultLog vault) := by
  obtain ⟨before, reached⟩ := steady.reached
  exact kept_of_run injective (reached.append run) vault

theorem OperationStep.steady (injective : Function.Injective library.registryDigest)
    {before after : Connection Digest} {operation : Operation Digest}
    (step : OperationStep library before operation after) (steady : Steady library before) :
    Steady library after := by
  have coherent := steady.coherent
  obtain ⟨events, reached⟩ := steady.reached
  rw [OperationStep] at step
  subst step
  cases operation with
  | membership vault schedule =>
    obtain ⟨passes, stays, -⟩ :=
      @Connection.membership_spec _ _ library vault _ _ _ coherent schedule rfl
    obtain ⟨more, run⟩ := passes.run
    exact ⟨stays, _, reached.append run⟩
  | accept vault proof issuerId course =>
    obtain ⟨stays, ⟨more, run⟩, -⟩ := @Connection.accept_spec _ _ library vault _ _ coherent
      proof issuerId course _ (fun _ _ run => steady.kept injective run) rfl
    exact ⟨stays, _, reached.append run⟩
  | transact call commits undone =>
    obtain ⟨stays, done⟩ :=
      @Connection.transact_spec _ _ library _ _ coherent call commits undone _ rfl
    rcases done with ⟨committed, performed, same, -⟩ | ⟨reason, -, same, -⟩
    · refine ⟨stays, events ++ [⟨call, .ok committed.answer⟩], reached.append (.single ?_)⟩
      rw [LogStep, performed]
      exact ⟨same, rfl⟩
    · rw [← same] at reached
      exact ⟨stays, events, reached⟩
  | rollback undone => exact ⟨coherent.undo undone, events, reached⟩
  | others calls =>
    obtain ⟨passes, kept⟩ := @Connection.others_passes _ _ library before calls
    obtain ⟨more, run⟩ := passes.run
    exact ⟨coherent.passes passes kept, _, reached.append run⟩

/-- Whatever a connection went through, its transactions, its enrollments, what was rolled back
and what others committed: a membership that it answers is the one that would be rebuilt from the
database as it then is; where no other connection commits meanwhile the whole answer is, errors
included; its transactions and enrollments decide as if they rebuilt it; and on every database
that it comes to a membership can be rebuilt for each vault with an activation. -/
theorem membership_coherent (injective : Function.Injective library.registryDigest)
    {events : List (LogEvent Digest)} {db : Database Digest} {dataVersion : Nat}
    {operations : List (Operation Digest)} {connection : Connection Digest}
    (reached : Run (LogStep library) .empty events db)
    (run : Run (OperationStep library) (.opened db dataVersion) operations connection) :
    (∀ vault schedule after answer,
      connection.membership library vault schedule = (after, answer) →
        (∀ value, answer = .ok value →
          rebuildMembership library vault after.database = .ok value) ∧
        (after.dataVersion = connection.dataVersion →
          answer = rebuildMembership library vault connection.database)) ∧
    (∀ call commits undone after answer,
      connection.transact library call commits undone = (after, answer) →
        (∃ committed, call.perform library connection.database = .ok committed ∧
          after.database = committed.database ∧ answer = .ok committed.answer) ∨
        ∃ reason, answer = .error reason ∧ after.database = connection.database ∧
          (commits = true → call.perform library connection.database = .error reason)) ∧
    (∀ vault proof issuerId course after appended,
      connection.accept library vault proof issuerId course = (after, .ok appended) →
        ∃ version committed early late,
          Run (LogStep library) connection.database early version ∧
          (LogCall.acceptEnrollment vault proof issuerId).perform library version =
            .ok committed ∧ committed.answer = .enrolled appended ∧
          Run (LogStep library) committed.database late after.database) ∧
    ∀ vault record, connection.database.activation vault = some record →
      ∃ membership, rebuildMembership library vault connection.database = .ok membership := by
  have steady : Steady library connection := by
    apply run.invariant (Steady library)
    · exact fun before operation after step steady => step.steady injective steady
    · exact ⟨.opened db dataVersion, events, reached⟩
  refine ⟨?_, ?_, ?_, ?_⟩
  · intro vault schedule after answer answered
    obtain ⟨passes, -, answers⟩ := Connection.membership_spec steady.coherent answered
    refine ⟨answers.right, fun same => ?_⟩
    rw [answers.undisturbed same, passes.same same]
  · intro call commits undone after answer done
    exact (Connection.transact_spec steady.coherent done).2
  · intro vault proof issuerId course after appended done
    have spec := Connection.accept_spec steady.coherent
      (fun _ _ run => steady.kept injective run) done
    exact spec.2.2 appended rfl
  · intro vault record held
    have kept : Kept library vault (connection.database.vaultLog vault) :=
      steady.kept injective (.nil _)
    rw [kept.toOrdered.activation] at held
    obtain ⟨membership, made, -⟩ := kept.known record held
    exact ⟨membership, by rw [kept.toOrdered.rebuildMembership, made]⟩

/-- A connection that answered once and rolled something back answers the same membership
again. -/
theorem membership_coherent_plain : ∃ db connection value,
    Run (OperationStep plainLog) (.opened db 1) [.membership plainVault .quiet, .rollback 3]
      connection ∧
    (connection.membership plainLog plainVault .quiet).2 = .ok value ∧
    rebuildMembership plainLog plainVault connection.database = .ok value := by
  obtain ⟨db, events, requests, active⟩ := plainRun
  obtain ⟨calls, reached⟩ := calls_of_requests requests
  have run : Run (OperationStep plainLog) (.opened db 1)
      [.membership plainVault .quiet, .rollback 3]
      (((Connection.opened db 1).membership plainLog plainVault .quiet).1.undo 3) :=
    .cons rfl (.single rfl)
  obtain ⟨answers, -, -, rebuilds⟩ :=
    membership_coherent plainLibrary_collisionFree.registries reached run
  have kept : (((Connection.opened db 1).membership plainLog plainVault .quiet).1.undo 3).database =
      db := (Connection.quiet_spec (.opened db 1) rfl).2.1
  obtain ⟨record, held⟩ := Option.isSome_iff_exists.mp active
  rw [← kept] at held
  obtain ⟨value, made⟩ := rebuilds plainVault record held
  refine ⟨db, _, value, run, ?_, made⟩
  rw [← made]
  exact (answers plainVault .quiet _ _ rfl).2 (Connection.quiet_membership rfl)

end JobAgg.CommitmentLog
