import JobAgg.Foundation.JsonText
import JobAgg.SemanticHistory.Store

/-! # Hashes without collisions

What the assumption that SHA-256 is injective says of a codec, and a codec with it in
which every text is its own hash.
-/

namespace JobAgg.SemanticHistory

/-- SHA-256 collides on none of the texts. -/
structure Codec.Injective (codec : Codec) : Prop where
  object : Function.Injective codec.objectId
  subject : Function.Injective codec.subjectId
  version : ∀ {subjectId kind entityKey objectId subjectId' kind' entityKey' objectId' : String}
    {blob blob' : Json}, codec.versionId subjectId kind entityKey objectId blob =
      codec.versionId subjectId' kind' entityKey' objectId' blob' →
    subjectId = subjectId' ∧ kind = kind' ∧ entityKey = entityKey' ∧ objectId = objectId' ∧
      blob = blob'
  coverage : Function.Injective codec.coverageId
  sha256 : Function.Injective codec.sha256

/-- The text of a node, an identity, a version or a coverage record as a JSON value. -/
def Node.toJson : Node → Json
  | .map pairs => .object [("items", .array (pairs.map fun pair =>
    .array [.string pair.1, .string pair.2])), ("type", .string "map")]
  | .list ids => .object [("items", .array (ids.map .string)), ("type", .string "list")]
  | .value atom => .object [("type", .string "value"), ("value", atom.toJson)]

def Identity.toJson (identity : Identity) : Json :=
  .object [("external_id", identity.externalId), ("origin_job_key", identity.originJobKey),
    ("source_id", identity.sourceId)]

def Artifact.toJson (artifact : Artifact) : Json :=
  .object [("kind", .string artifact.kind), ("path", .string artifact.path),
    ("sha256", .string artifact.sha256), ("size_bytes", .number artifact.sizeBytes.repr),
    ("source_id", artifact.sourceId), ("version_ids", .array (artifact.versionIds.map .string))]

def Coverage.toJson (coverage : Coverage) : Json :=
  .object [("artifacts", .array (coverage.artifacts.map Artifact.toJson)),
    ("database", .string coverage.database),
    ("operation_keys", .array (coverage.operationKeys.map .string)),
    ("policy_epoch", .string coverage.policyEpoch), ("subject_id", .string coverage.subjectId),
    ("subject_kind", .string coverage.subjectKind),
    ("version_ids", .array (coverage.versionIds.map .string))]

def Node.textLength : Node → ℕ
  | .map pairs => 25 + (pairs.map fun pair => pair.1.length + 73).sum
  | .list ids => 26 + 67 * ids.length
  | .value _ => 64

/-- Every text is its own hash; identities and coverage records are of one length. -/
def plainCodec : Codec where
  objectId node := node.toJson.text
  objectLength := Node.textLength
  subjectId identity := identity.toJson.text
  subjectLength _ := 256
  versionId subjectId kind entityKey objectId blob := (Json.array
    [.string subjectId, .string kind, .string entityKey, .string objectId, blob]).text
  coverageId coverage := coverage.toJson.text
  coverageLength _ := 256
  valueHash value := value.text
  sha256 content := (Json.array (content.map fun byte => .number byte.toNat.repr)).text
  loads _ := none
  same left right := decide (left.sortKeys = right.sortKeys)
  loads_distinctKeys := by simp

theorem map_string_injective : Function.Injective (List.map Json.string) :=
  List.map_injective_iff.mpr fun _ _ => Json.string.inj

theorem atom_toJson_injective : Function.Injective Atom.toJson := by
  intro left right same
  cases left <;> cases right <;> simp_all [Atom.toJson]

theorem node_toJson_injective : Function.Injective Node.toJson := by
  intro left right same
  cases left with
  | map pairs =>
    cases right with
    | map others =>
      have pairsSame : pairs.map (fun pair => Json.array [.string pair.1, .string pair.2]) =
          others.map fun pair => Json.array [.string pair.1, .string pair.2] := by
        simpa [Node.toJson] using same
      have injective : Function.Injective fun pair : String × String =>
          Json.array [.string pair.1, .string pair.2] := by
        intro pair other equal
        ext1 <;> simp_all
      rw [List.map_injective_iff.mpr injective pairsSame]
    | _ => simp [Node.toJson] at same
  | list ids =>
    cases right with
    | list others =>
      have idsSame : ids.map Json.string = others.map Json.string := by
        simpa [Node.toJson] using same
      rw [map_string_injective idsSame]
    | _ => simp [Node.toJson] at same
  | value atom =>
    cases right with
    | value other =>
      have atomSame : atom.toJson = other.toJson := by simpa [Node.toJson] using same
      rw [atom_toJson_injective atomSame]
    | _ => simp [Node.toJson] at same

theorem artifact_toJson_injective : Function.Injective Artifact.toJson := by
  intro left right same
  simp only [Artifact.toJson, Json.object.injEq, List.cons.injEq, Prod.mk.injEq,
    Json.string.injEq, Json.number.injEq, Json.array.injEq, true_and, and_true] at same
  rcases same with ⟨kind, path, sha256, size, source, versions⟩
  cases left
  cases right
  simp only [Artifact.mk.injEq]
  exact ⟨path, sha256, Nat.repr_injective size, kind, source, map_string_injective versions⟩

theorem coverage_toJson_injective : Function.Injective Coverage.toJson := by
  intro left right same
  simp only [Coverage.toJson, Json.object.injEq, List.cons.injEq, Prod.mk.injEq,
    Json.string.injEq, Json.array.injEq, true_and, and_true] at same
  rcases same with ⟨artifacts, database, operations, epoch, subject, kind, versions⟩
  cases left
  cases right
  simp only [Coverage.mk.injEq]
  exact ⟨kind, subject, epoch, database, map_string_injective versions,
    List.map_injective_iff.mpr artifact_toJson_injective artifacts,
    map_string_injective operations⟩

theorem plainCodec_injective : plainCodec.Injective where
  object left right same := node_toJson_injective (Json.text_inj.mp same)
  subject left right same := by
    have equal := Json.text_inj.mp same
    simp only [Identity.toJson, Json.object.injEq, List.cons.injEq, Prod.mk.injEq, true_and,
      and_true] at equal
    cases left
    cases right
    simp_all
  version same := by simpa [plainCodec, Json.text_inj] using same
  coverage left right same := coverage_toJson_injective (Json.text_inj.mp same)
  sha256 left right same := by
    have equal := Json.text_inj.mp same
    simp only [Json.array.injEq] at equal
    apply List.map_injective_iff.mpr _ equal
    intro byte other bytes
    exact UInt8.toNat_inj.mp (Nat.repr_injective (Json.number.inj bytes))

end JobAgg.SemanticHistory
