import JobAgg.StorageCompression.ArtifactStream

/-! # Finished streams

A stream is complete when its generator returned, which it does behind its last checks, or when
it was abandoned. Only a call of `next` behind a failure or a close makes it complete as well. -/

namespace JobAgg.StorageCompression

open ArtifactStream

variable {sha256 : List UInt8 → String} {reader : Reader} {descriptor : ObjectDescriptor}
  {stream : ArtifactStream} {calls earlier : List Call} {blocks : List (List UInt8)}

structure Binds (reader : Reader) (descriptor : ObjectDescriptor) : Prop where
  bytes : reader.expectedBytes = some descriptor.logicalBytes
  sha256 : reader.expectedSha256 = some descriptor.logicalSha256

theorem binds_openReader (descriptor : ObjectDescriptor) (file : PhysicalFile)
    (maxOutputBytes : Nat) (representation : Representation) :
    Binds (openReader descriptor file maxOutputBytes representation) descriptor := by
  cases representation with
  | identity => exact ⟨rfl, rfl⟩
  | compressed => exact ⟨rfl, rfl⟩
  | legacyHot => exact ⟨rfl, rfl⟩
  | coldArchive => exact ⟨rfl, rfl⟩

def Delivered (reader : Reader) (blocks : List (List UInt8)) : Prop :=
  ∀ index block, blocks[index]? = some block → reader.file.read index = .ok block

/-- All blocks of the file are delivered and are what the descriptor says. -/
structure Verified (sha256 : List UInt8 → String) (reader : Reader)
    (descriptor : ObjectDescriptor) (stream : ArtifactStream) (blocks : List (List UInt8)) :
    Prop where
  returned : stream.iterator = .returned blocks
  delivered : Delivered reader blocks
  ended : reader.file.read blocks.length = .ok []
  consumed : stream.consumed = blocks.flatten.length
  bytes : blocks.flatten.length = descriptor.logicalBytes
  sha256 : sha256 blocks.flatten = descriptor.logicalSha256

/-- `abandon` was called before any byte was delivered. -/
def Abandoned (sha256 : List UInt8 → String) (reader : Reader) (calls : List Call) : Prop :=
  ∃ earlier later, calls = earlier ++ .abandon :: later ∧ (after sha256 reader earlier).consumed = 0

/-- What a generator says about the stream that it belongs to -/
def Sound (sha256 : List UInt8 → String) (reader : Reader) (descriptor : ObjectDescriptor)
    (stream : ArtifactStream) : Prop :=
  match stream.iterator with
  | .fresh => stream.consumed = 0
  | .suspended blocks => Delivered reader blocks ∧ stream.consumed = blocks.flatten.length
  | .returned blocks => Verified sha256 reader descriptor stream blocks
  | .spent => True

theorem delivered_nil : Delivered reader [] := by
  intro index block found
  rw [List.getElem?_nil] at found
  cases found

theorem Delivered.concat {block : List UInt8} (delivered : Delivered reader blocks)
    (read : reader.file.read blocks.length = .ok block) : Delivered reader (blocks ++ [block]) := by
  intro index other found
  rcases Nat.lt_or_ge index blocks.length with inside | behind
  · rw [List.getElem?_append_left inside] at found
    exact delivered index other found
  · rw [List.getElem?_append_right behind] at found
    obtain ⟨first, same⟩ := List.getElem?_eq_some_iff.mp found
    rw [List.length_singleton] at first
    obtain rfl : index = blocks.length := by omega
    rw [List.getElem_singleton] at same
    rw [← same, read]

inductive Turn (sha256 : List UInt8 → String) (reader : Reader) (descriptor : ObjectDescriptor)
    (blocks : List (List UInt8)) : Iterator × Resumed → Prop where
  | raised (error : String) : Turn sha256 reader descriptor blocks (.spent, .raised error)
  | returned (ended : reader.file.read blocks.length = .ok [])
      (bytes : blocks.flatten.length = descriptor.logicalBytes)
      (hash : sha256 blocks.flatten = descriptor.logicalSha256) :
      Turn sha256 reader descriptor blocks (.returned blocks, .stopped)
  | block (block : List UInt8) (read : reader.file.read blocks.length = .ok block) :
      Turn sha256 reader descriptor blocks (.suspended (blocks ++ [block]), .block block)

theorem turn_of_advance (binds : Binds reader descriptor) (blocks : List (List UInt8)) :
    Turn sha256 reader descriptor blocks (reader.advance sha256 blocks) := by
  rw [Reader.advance]
  split
  case h_1 error read => exact .raised error
  case h_2 ended =>
    split
    case h_1 error failed => exact .raised error
    case h_2 finished =>
      obtain ⟨-, -, finished⟩ := bind_eq_ok.mp finished
      rw [require_bind_eq_ok, require_eq_ok, binds.bytes, binds.sha256, Option.all_some,
        Option.all_some, beq_iff_eq, beq_iff_eq] at finished
      exact .returned ended finished.1.symm finished.2.symm
  case h_3 byte bytes read =>
    split
    case isTrue => exact .block _ read
    case isFalse => exact .raised _

/-- What a call of `next` does with the stream -/
inductive NextStep (sha256 : List UInt8 → String) (reader : Reader)
    (descriptor : ObjectDescriptor) (stream : ArtifactStream) : ArtifactStream → Prop where
  | raised (unreturned : ∀ blocks, stream.iterator ≠ .returned blocks) :
      NextStep sha256 reader descriptor stream { stream with iterator := .spent }
  | ended (blocks : List (List UInt8)) (delivered : Delivered reader blocks)
      (consumed : stream.consumed = blocks.flatten.length)
      (ended : reader.file.read blocks.length = .ok [])
      (bytes : blocks.flatten.length = descriptor.logicalBytes)
      (hash : sha256 blocks.flatten = descriptor.logicalSha256) :
      NextStep sha256 reader descriptor stream
        { stream with iterator := .returned blocks, complete := true }
  | block (unreturned : ∀ blocks, stream.iterator ≠ .returned blocks)
      (blocks : List (List UInt8)) (block : List UInt8) (delivered : Delivered reader blocks)
      (consumed : stream.consumed = blocks.flatten.length)
      (read : reader.file.read blocks.length = .ok block) :
      NextStep sha256 reader descriptor stream
        { stream with
          iterator := .suspended (blocks ++ [block])
          consumed := stream.consumed + block.length }
  | revived (spent : stream.iterator = .spent) :
      NextStep sha256 reader descriptor stream { stream with complete := true }

theorem nextStep (binds : Binds reader descriptor)
    (sound : Sound sha256 reader descriptor stream) :
    NextStep sha256 reader descriptor stream (stream.next sha256 reader).1 := by
  have advanced : ∀ blocks, (∀ others, stream.iterator ≠ .returned others) →
      Delivered reader blocks → stream.consumed = blocks.flatten.length →
      reader.resume sha256 stream.iterator = reader.advance sha256 blocks →
      NextStep sha256 reader descriptor stream (stream.next sha256 reader).1 := by
    intro blocks unreturned delivered consumed resumed
    have turn := @turn_of_advance sha256 _ _ binds blocks
    rw [ArtifactStream.next, resumed]
    generalize reader.advance sha256 blocks = turned at turn
    cases turn with
    | raised error => exact .raised unreturned
    | returned ended bytes hash => exact .ended blocks delivered consumed ended bytes hash
    | block block read => exact .block unreturned blocks block delivered consumed read
  cases state : stream.iterator with
  | fresh =>
    have unreturned : ∀ others, stream.iterator ≠ .returned others := by
      intro others same
      rw [state] at same
      cases same
    rw [Sound, state] at sound
    cases admitted : reader.admits with
    | error error =>
      rw [ArtifactStream.next, state, Reader.resume, admitted]
      exact .raised unreturned
    | ok =>
      cases verified : reader.file.verify with
      | error error =>
        rw [ArtifactStream.next, state, Reader.resume, admitted, verified]
        exact .raised unreturned
      | ok =>
        refine advanced [] unreturned delivered_nil sound ?_
        rw [state, Reader.resume, admitted, verified]
  | suspended blocks =>
    have unreturned : ∀ others, stream.iterator ≠ .returned others := by
      intro others same
      rw [state] at same
      cases same
    rw [Sound, state] at sound
    exact advanced blocks unreturned sound.1 sound.2 (by rw [state, Reader.resume])
  | returned blocks =>
    rw [Sound, state] at sound
    rw [ArtifactStream.next, state, Reader.resume]
    exact .ended blocks sound.delivered sound.consumed sound.ended sound.bytes sound.sha256
  | spent =>
    have step := @NextStep.revived sha256 reader descriptor stream state
    rw [ArtifactStream.next, state, Reader.resume]
    dsimp only
    rwa [← state]

theorem sound_of_next (binds : Binds reader descriptor)
    (sound : Sound sha256 reader descriptor stream) :
    Sound sha256 reader descriptor (stream.next sha256 reader).1 := by
  have step := nextStep binds sound
  generalize (stream.next sha256 reader).1 = later at step
  cases step with
  | raised unreturned => exact trivial
  | ended blocks delivered consumed ended bytes hash =>
    exact ⟨rfl, delivered, ended, consumed, bytes, hash⟩
  | block unreturned blocks block delivered consumed read =>
    refine ⟨delivered.concat read, ?_⟩
    change stream.consumed + block.length = _
    rw [List.flatten_append, List.length_append, List.flatten_singleton, consumed]
  | revived spent =>
    rw [Sound]
    dsimp only
    rw [spent]
    exact trivial

theorem sound_of_close (sound : Sound sha256 reader descriptor stream) :
    Sound sha256 reader descriptor stream.close := by
  rw [ArtifactStream.close]
  split
  case isTrue =>
    cases state : stream.iterator with
    | fresh => exact trivial
    | suspended blocks => exact trivial
    | returned blocks =>
      rw [Sound, state] at sound
      exact ⟨rfl, sound.delivered, sound.ended, sound.consumed, sound.bytes, sound.sha256⟩
    | spent => exact trivial
  case isFalse => exact sound

theorem Sound.withComplete (sound : Sound sha256 reader descriptor stream) (complete : Bool) :
    Sound sha256 reader descriptor { stream with complete := complete } := by
  rw [Sound] at sound ⊢
  dsimp only
  split
  case h_1 state => rwa [state] at sound
  case h_2 blocks state => rwa [state] at sound
  case h_3 blocks state =>
    rw [state] at sound
    exact ⟨state, sound.delivered, sound.ended, sound.consumed, sound.bytes, sound.sha256⟩
  case h_4 => exact trivial

theorem after_concat (calls : List Call) (last : Call) :
    after sha256 reader (calls ++ [last]) =
      ArtifactStream.call sha256 reader (after sha256 reader calls) last := by
  rw [after, List.foldl_append]
  rfl

theorem sound_after (binds : Binds reader descriptor) (calls : List Call) :
    Sound sha256 reader descriptor (after sha256 reader calls) := by
  induction calls using List.reverseRecOn with
  | nil => exact rfl
  | append_singleton earlier last induction =>
    rw [after_concat]
    cases last with
    | next => exact sound_of_next binds induction
    | close => exact sound_of_close induction
    | abandon =>
      rw [ArtifactStream.call, ArtifactStream.abandon]
      split
      · exact induction
      · exact (sound_of_close induction).withComplete true

theorem close_of_complete (complete : stream.complete = true) : stream.close = stream := by
  rw [ArtifactStream.close, complete]
  rfl

theorem complete_close : stream.close.complete = stream.complete := by
  rw [ArtifactStream.close]
  split
  · rfl
  · rfl

theorem complete_of_next (complete : stream.complete = true) :
    (stream.next sha256 reader).1.complete = true := by
  rw [ArtifactStream.next]
  split
  · exact complete
  · rfl
  · exact complete

theorem complete_call {last : Call} (complete : stream.complete = true) :
    (ArtifactStream.call sha256 reader stream last).complete = true := by
  cases last with
  | next => exact complete_of_next complete
  | close => rwa [ArtifactStream.call, complete_close]
  | abandon =>
    rw [ArtifactStream.call, ArtifactStream.abandon]
    split
    · exact complete
    · rfl

theorem Abandoned.concat {last : Call} (abandoned : Abandoned sha256 reader calls) :
    Abandoned sha256 reader (calls ++ [last]) := by
  obtain ⟨earlier, later, rfl, consumed⟩ := abandoned
  exact ⟨earlier, later ++ [last], by rw [List.append_assoc, List.cons_append], consumed⟩

theorem Abandoned.complete (abandoned : Abandoned sha256 reader calls) :
    (after sha256 reader calls).complete = true := by
  obtain ⟨earlier, later, rfl, consumed⟩ := abandoned
  induction later using List.reverseRecOn with
  | nil =>
    rw [after_concat, ArtifactStream.call, ArtifactStream.abandon, if_neg (not_not_intro consumed)]
  | append_singleton more last induction =>
    rw [← List.cons_append, ← List.append_assoc, after_concat]
    exact complete_call induction

/-- The stream is what it says when it is complete. -/
def Rightful (sha256 : List UInt8 → String) (reader : Reader) (descriptor : ObjectDescriptor)
    (calls : List Call) : Prop :=
  (∃ blocks, Verified sha256 reader descriptor (after sha256 reader calls) blocks) ∨
    Abandoned sha256 reader calls

/-- Whenever the stream is complete, and whenever its context is left without an exception, all
of it is delivered and verified or it was abandoned in front of the first byte. -/
structure Trustworthy (sha256 : List UInt8 → String) (reader : Reader)
    (descriptor : ObjectDescriptor) (calls : List Call) : Prop where
  complete : ∀ earlier, earlier <+: calls → (after sha256 reader earlier).complete = true →
    Rightful sha256 reader descriptor earlier
  exits : ∀ earlier, earlier <+: calls →
    (after sha256 reader earlier).exit.2 = .error "ArtifactReadIncompleteError" ∨
      Rightful sha256 reader descriptor earlier

/-- `next` is not called on a stream whose generator failed or was closed, unless the stream is
complete. -/
def NeverRevived (sha256 : List UInt8 → String) (reader : Reader) (calls : List Call) : Prop :=
  ∀ earlier, earlier ++ [.next] <+: calls →
    (after sha256 reader earlier).iterator ≠ .spent ∨ (after sha256 reader earlier).complete = true

theorem rightful_of_next (binds : Binds reader descriptor)
    (usable : (after sha256 reader earlier).iterator ≠ .spent ∨
      (after sha256 reader earlier).complete = true)
    (before : (after sha256 reader earlier).complete = true →
      Rightful sha256 reader descriptor earlier)
    (complete : (after sha256 reader (earlier ++ [.next])).complete = true) :
    Rightful sha256 reader descriptor (earlier ++ [.next]) := by
  have step := nextStep binds (@sound_after sha256 reader descriptor binds earlier)
  have same : after sha256 reader (earlier ++ [.next]) =
      ((after sha256 reader earlier).next sha256 reader).1 := after_concat earlier .next
  rw [same] at complete
  rw [Rightful, same]
  generalize ((after sha256 reader earlier).next sha256 reader).1 = later at step complete
  -- without an end of the generator, the stream was complete because it was abandoned
  have kept : (∀ blocks, (after sha256 reader earlier).iterator ≠ .returned blocks) →
      (after sha256 reader earlier).complete = true →
      Abandoned sha256 reader (earlier ++ [.next]) := by
    intro unreturned wasComplete
    rcases before wasComplete with ⟨blocks, verified⟩ | abandoned
    · exact absurd verified.returned (unreturned blocks)
    · exact abandoned.concat
  cases step with
  | raised unreturned => exact .inr (kept unreturned complete)
  | ended blocks delivered consumed ended bytes hash =>
    exact .inl ⟨blocks, rfl, delivered, ended, consumed, bytes, hash⟩
  | block unreturned blocks block delivered consumed read =>
    exact .inr (kept unreturned complete)
  | revived spent =>
    refine .inr (kept ?_ (usable.resolve_left (not_not_intro spent)))
    intro blocks returned
    rw [spent] at returned
    cases returned

theorem rightful_of_neverRevived (binds : Binds reader descriptor)
    (usable : NeverRevived sha256 reader calls) (inCalls : earlier <+: calls)
    (complete : (after sha256 reader earlier).complete = true) :
    Rightful sha256 reader descriptor earlier := by
  induction earlier using List.reverseRecOn with
  | nil => cases complete
  | append_singleton before last induction =>
    have rightful := induction ((List.prefix_append before [last]).trans inCalls)
    cases last with
    | next => exact rightful_of_next binds (usable before inCalls) rightful complete
    | close =>
      have same : after sha256 reader (before ++ [.close]) =
          (after sha256 reader before).close := after_concat before .close
      rw [same, complete_close] at complete
      rcases rightful complete with verified | abandoned
      · rw [Rightful, same, close_of_complete complete]
        exact .inl verified
      · exact .inr abandoned.concat
    | abandon =>
      have same : after sha256 reader (before ++ [.abandon]) =
          (after sha256 reader before).abandon.1 := after_concat before .abandon
      by_cases consumed : (after sha256 reader before).consumed = 0
      · exact .inr ⟨before, [], rfl, consumed⟩
      · rw [ArtifactStream.abandon, if_pos consumed] at same
        rw [same] at complete
        rcases rightful complete with verified | abandoned
        · rw [Rightful, same]
          exact .inl verified
        · exact .inr abandoned.concat

theorem not_rightful_of_revived (spent : (after sha256 reader earlier).iterator = .spent)
    (incomplete : (after sha256 reader earlier).complete = false) :
    (after sha256 reader (earlier ++ [.next])).complete = true ∧
      ¬ Rightful sha256 reader descriptor (earlier ++ [.next]) := by
  have same : after sha256 reader (earlier ++ [.next]) =
      { after sha256 reader earlier with complete := true } := by
    rw [after_concat, ArtifactStream.call, ArtifactStream.next, spent, Reader.resume]
    dsimp only
    rw [← spent]
  constructor
  · rw [same]
  · rintro (⟨blocks, verified⟩ | ⟨before, later, whole, consumed⟩)
    · have returned := verified.returned
      rw [same] at returned
      exact absurd (spent.symm.trans returned) (by intro equal; cases equal)
    · have calledEarlier : Abandoned sha256 reader earlier := by
        obtain ⟨rest, last, split⟩ := List.eq_nil_or_concat later |>.elim
          (fun empty => by
            rw [empty] at whole
            have lasts := congrArg List.getLast? whole
            rw [List.getLast?_concat, List.getLast?_concat] at lasts
            cases lasts)
          (fun found => found)
        rw [split, List.concat_eq_append, ← List.cons_append, ← List.append_assoc] at whole
        exact ⟨before, rest, (List.append_inj' whole rfl).1, consumed⟩
      rw [calledEarlier.complete] at incomplete
      cases incomplete

/-- A stream is only complete when it should be exactly when no spent generator is asked for
more. -/
theorem finished_stream_verified_iff (sha256 : List UInt8 → String)
    (descriptor : ObjectDescriptor) (file : PhysicalFile) (maxOutputBytes : Nat)
    (representation : Representation) (calls : List Call) :
    Trustworthy sha256 (openReader descriptor file maxOutputBytes representation) descriptor
        calls ↔
      NeverRevived sha256 (openReader descriptor file maxOutputBytes representation) calls := by
  have binds := binds_openReader descriptor file maxOutputBytes representation
  generalize openReader descriptor file maxOutputBytes representation = reader at binds ⊢
  constructor
  · intro trustworthy earlier inCalls
    by_contra revived
    rw [not_or, not_not, Bool.not_eq_true] at revived
    obtain ⟨complete, wrong⟩ :=
      @not_rightful_of_revived sha256 reader descriptor earlier revived.1 revived.2
    exact wrong (trustworthy.complete _ inCalls complete)
  · intro usable
    have rightful : ∀ earlier, earlier <+: calls →
        (after sha256 reader earlier).complete = true →
        Rightful sha256 reader descriptor earlier :=
      fun earlier inCalls => rightful_of_neverRevived binds usable inCalls
    refine ⟨rightful, fun earlier inCalls => ?_⟩
    cases complete : (after sha256 reader earlier).complete with
    | true => exact .inr (rightful earlier inCalls complete)
    | false =>
      rw [ArtifactStream.exit, complete]
      exact .inl rfl

def plainDescriptor : ObjectDescriptor :=
  ⟨"ba7816bf8f01cfea414140de5dae2223b00361a396177a9cb410ff61f20015ad", 3⟩

def plainFile : PhysicalFile where
  verify := .ok ()
  read := fun index => .ok (if index = 0 then [97, 98, 99] else [])
  unchanged := .ok ()

/-- The hash of the one text that is read -/
def plainSha256 (_ : List UInt8) : String :=
  "ba7816bf8f01cfea414140de5dae2223b00361a396177a9cb410ff61f20015ad"

/-- A stream that was closed before anything was read is complete after another `next`. -/
theorem closed_stream_complete : ¬ Trustworthy plainSha256
    (openReader plainDescriptor plainFile 1024 .legacyHot) plainDescriptor [.close, .next] := by
  intro trustworthy
  have revived := @not_rightful_of_revived plainSha256
    (openReader plainDescriptor plainFile 1024 .legacyHot) plainDescriptor [.close]
    (by decide) (by decide)
  exact revived.2 (trustworthy.complete _ List.prefix_rfl revived.1)

end JobAgg.StorageCompression
