import JobAgg.Foundation.Checked
import JobAgg.Foundation.Dict
import JobAgg.Foundation.Table
import Mathlib.Data.Prod.Lex

/-! # Encrypted patch operations

An operation carries one opaque envelope of one object. Whatever comes from outside or
from a file is read field by field and refused as a whole with a single error; what an
accepted operation follows is its author's previous operation, the last revision of its
object and the last operation of all. -/

namespace JobAgg.SyncQueue

/-- `_error()` -/
def invalid : String := "encrypted patch queue state is invalid"

def patchFormat : String := "atlasvault-encrypted-patch-operation"
def patchVersion : Nat := 1
def opaqueEnvelopeFormat : String := "atlasvault-opaque-ciphertext-envelope"
def maximumQueueOperations : Nat := 65536
def maximumEnvelopeFieldBytes : Nat := 96 * 1024 * 1024
def maximumInteger : Nat := 2 ^ 63 - 1

/-- `_text` -/
def isText (text : String) (maximum : Nat) : Bool :=
  text != "" && decide (text.length ≤ maximum)

/-- `_identifier`: one to 128 letters of `A-Za-z0-9._~-` -/
def isIdentifier (text : String) : Bool :=
  isText text 128 &&
    text.toList.all fun letter =>
      letter.isAlphanum || letter == '.' || letter == '_' || letter == '~' || letter == '-'

/-- `_integer` -/
def isInteger (value : Nat) : Bool :=
  decide (1 ≤ value) && decide (value ≤ maximumInteger)

def isLowerHex (letter : Char) : Bool :=
  letter.isDigit || (decide ('a' ≤ letter) && decide (letter ≤ 'f'))

/-- `_canonical_uuid`: lower case, eight, four, four, four and twelve digits -/
def isCanonicalUuid (text : String) : Bool :=
  text.length == 36 &&
    text.toList.zipIdx.all fun (letter, index) =>
      if index ∈ [8, 13, 18, 23] then letter == '-' else isLowerHex letter

def base64Value (letter : Char) : Option Nat :=
  if letter.isUpper then some (letter.toNat - 'A'.toNat)
  else if letter.isLower then some (letter.toNat - 'a'.toNat + 26)
  else if letter.isDigit then some (letter.toNat - '0'.toNat + 52)
  else if letter == '+' then some 62
  else if letter == '/' then some 63
  else none

/-- How many bytes a text encodes that encoding them gives back: the unused low bits of
the last letter are zero and the padding is complete. -/
def canonicalBase64Length (text : String) : Option Nat :=
  let letters := text.toList
  let body := letters.takeWhile (· != '=')
  let padding := letters.length - body.length
  let lastBits := (body.getLast?.bind base64Value).getD 0
  if letters.length % 4 == 0 && decide (padding ≤ 2) &&
      (letters.drop body.length).all (· == '=') &&
      body.all (fun letter => (base64Value letter).isSome) &&
      lastBits % 4 ^ padding == 0 then
    some (letters.length / 4 * 3 - padding)
  else none

/-- `_canonical_base64` -/
def isCanonicalBase64 (text : String) (exactBytes : Option Nat) (minimumBytes : Nat) : Bool :=
  isText text (maximumEnvelopeFieldBytes * 2) &&
    match canonicalBase64Length text with
    | none => false
    | some bytes =>
      decide (minimumBytes ≤ bytes) && decide (bytes ≤ maximumEnvelopeFieldBytes) &&
        exactBytes.all (bytes == ·)

/-! ## Envelopes and operations -/

structure Envelope where
  format : String := opaqueEnvelopeFormat
  version : Nat
  objectId : String
  revision : String
  parentRevision : Option String
  keyEpoch : Nat
  nonceB64 : String
  ciphertextB64 : String
  aadB64 : String
  signatureB64 : String
  tombstone : Bool
  contentSha256 : String
deriving DecidableEq, Repr

structure Operation where
  operationId : String
  operationType : String
  authorDeviceId : String
  authorSequence : Nat
  lamport : Nat
  envelope : Envelope
  format : String := patchFormat
  version : Nat := patchVersion
deriving DecidableEq, Repr

/-- The hashes the queues rely on: the digest of an operation's canonical JSON, and that
of the bytes a ciphertext encodes. -/
structure Library (Digest : Type) where
  fingerprint : Operation → Digest
  contentSha256 : String → String

variable {Digest : Type}

/-- `OpaqueCiphertextEnvelope.from_dict` -/
def Envelope.isValid (library : Library Digest) (envelope : Envelope) : Bool :=
  envelope.format == opaqueEnvelopeFormat &&
  isInteger envelope.version &&
  envelope.parentRevision.all isIdentifier &&
  isCanonicalBase64 envelope.ciphertextB64 none 16 &&
  isSha256 envelope.contentSha256 &&
  library.contentSha256 envelope.ciphertextB64 == envelope.contentSha256 &&
  isIdentifier envelope.objectId &&
  isIdentifier envelope.revision &&
  isInteger envelope.keyEpoch &&
  isCanonicalBase64 envelope.nonceB64 (some 12) 1 &&
  isCanonicalBase64 envelope.aadB64 none 1 &&
  isCanonicalBase64 envelope.signatureB64 none 1

/-- `EncryptedPatchOperation.from_dict` -/
def Operation.isValid (library : Library Digest) (operation : Operation) : Bool :=
  operation.format == patchFormat && operation.version == patchVersion &&
  operation.envelope.isValid library &&
  operation.operationType == (if operation.envelope.tombstone then "delete" else "upsert") &&
  isCanonicalUuid operation.operationId &&
  isIdentifier operation.authorDeviceId &&
  isInteger operation.authorSequence &&
  isInteger operation.lamport

/-- `(lamport, author_device_id, author_sequence, operation_id)`, compared as a tuple -/
abbrev OrderKey : Type := Nat ×ₗ String ×ₗ Nat ×ₗ String

def Operation.orderKey (operation : Operation) : OrderKey :=
  toLex (operation.lamport,
    toLex (operation.authorDeviceId, toLex (operation.authorSequence, operation.operationId)))

def Operation.sequenceKey (operation : Operation) : String ×ₗ Nat :=
  toLex (operation.authorDeviceId, operation.authorSequence)

def isOrderKey (order : OrderKey) : Bool :=
  let (lamport, rest) := ofLex order
  let (device, rest) := ofLex rest
  let (sequence, operationId) := ofLex rest
  isInteger lamport && isIdentifier device && isInteger sequence && isCanonicalUuid operationId

/-- `operations == sorted(operations)` -/
def inOrder (operations : List Operation) : Bool :=
  operations == orderBy Operation.orderKey operations

/-- `len({item.operation_id for item in operations}) == len(operations)` -/
def distinctIds (operations : List Operation) : Bool :=
  decide (operations.map Operation.operationId).Nodup

theorem Operation.orderKey_of_isValid {library : Library Digest} {operation : Operation}
    (valid : operation.isValid library = true) : isOrderKey operation.orderKey = true := by
  simp only [isValid, Bool.and_eq_true] at valid
  simp only [isOrderKey, orderKey, ofLex_toLex, Bool.and_eq_true]
  exact ⟨⟨⟨valid.2, valid.1.1.2⟩, valid.1.2⟩, valid.1.1.1.2⟩

theorem Operation.fields_of_isValid {library : Library Digest} {operation : Operation}
    (valid : operation.isValid library = true) :
    isCanonicalUuid operation.operationId = true ∧
      isIdentifier operation.authorDeviceId = true ∧
      isInteger operation.authorSequence = true ∧
      isIdentifier operation.envelope.objectId = true ∧
      isIdentifier operation.envelope.revision = true := by
  simp only [isValid, Envelope.isValid, Bool.and_eq_true] at valid
  obtain ⟨⟨⟨⟨⟨⟨-, envelope⟩, -⟩, identity⟩, device⟩, sequence⟩, -⟩ := valid
  exact ⟨identity, device, sequence, envelope.1.1.1.1.1.2, envelope.1.1.1.1.2⟩

theorem Operation.envelope_of_isValid {library : Library Digest} {operation : Operation}
    (valid : operation.isValid library = true) : operation.envelope.isValid library = true := by
  simp only [isValid, Bool.and_eq_true] at valid
  exact valid.1.1.1.1.1.2

theorem inOrder_of_increasing {operations : List Operation}
    (increasing : operations.Pairwise fun first second => first.orderKey < second.orderKey) :
    inOrder operations = true := by
  rw [inOrder, beq_iff_eq]
  exact (orderBy_eq_self (increasing.imp le_of_lt)).symm

/-! ## A plain library -/

def plainSha256 : String := String.ofList (List.replicate 64 '0')

def plainLibrary : Library Operation where
  fingerprint := id
  contentSha256 := fun _ => plainSha256

/-- The operation with this number of one author, on one object, continuing the one
before it. -/
def plainOperation (number : Nat) (tombstone : Bool) : Operation where
  operationId := "00000000-0000-4000-8000-00000000000" ++ String.ofList [number.digitChar]
  operationType := if tombstone then "delete" else "upsert"
  authorDeviceId := "device-a"
  authorSequence := number
  lamport := number
  envelope := {
    version := 1
    objectId := "object-a"
    revision := "revision-" ++ String.ofList [number.digitChar]
    parentRevision :=
      if number = 1 then none
      else some ("revision-" ++ String.ofList [(number - 1).digitChar])
    keyEpoch := 1
    nonceB64 := "AAAAAAAAAAAAAAAA"
    ciphertextB64 := "AAAAAAAAAAAAAAAAAAAAAA=="
    aadB64 := "AAAA"
    signatureB64 := "AAAA"
    tombstone := tombstone
    contentSha256 := plainSha256 }

end JobAgg.SyncQueue
