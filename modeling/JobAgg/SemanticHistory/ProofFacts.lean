import JobAgg.Foundation.Collapse
import JobAgg.Foundation.JsonEquality
import JobAgg.SemanticHistory.Preserve

/-! # The facts of a proof chain

A proof without its occurrence fields is a fact, and the proofs before it are the chain of
its `previous_verification`. `_proof` gives the chain with a fact left out where Python finds
it equal to the one before. -/

namespace JobAgg.SemanticHistory

/-- A chain link without what `_proof` sets aside -/
def factOf (fields : Fields) : Json :=
  .object (without ("previous_verification" :: occurrence) fields)

mutual

/-- The facts along a chain, the newest first; what is no dictionary ends it. -/
def facts : Json → List Json
  | .object fields => factOf fields :: factsBefore fields
  | .null => []
  | value => [value]

def factsBefore : Fields → List Json
  | [] => []
  | (name, value) :: fields =>
    if name = "previous_verification" then facts value else factsBefore fields

end

/-- The facts of a chain as JSON, with adjacent repetitions collapsed -/
def history (value : Json) : List Json :=
  ((facts value).map Json.sortKeys).destutter (· ≠ ·)

/-- Neighbouring facts are equal in Python only if they are equal as JSON. -/
def Distinguished (value : Json) : Prop :=
  Unconfused Json.pythonEqual Json.sortKeys (facts value)

variable {codec : Codec} {fields others : Fields} {value : Json}

theorem lookup_without {names : List String} {name : String} (kept : name ∉ names) :
    lookup name (without names fields) = lookup name fields := by
  induction fields with
  | nil => rfl
  | cons field fields induction =>
    rw [without] at induction ⊢
    by_cases listed : field.1 ∈ names
    · have different : field.1 ≠ name := fun same => kept (same ▸ listed)
      rw [List.filter_cons_of_neg (by simpa using listed), lookup_cons, if_neg different,
        induction]
    · rw [List.filter_cons_of_pos (by simpa using listed), lookup_cons, lookup_cons, induction]

theorem lookup_without_of_mem {names : List String} {name : String} (dropped : name ∈ names) :
    lookup name (without names fields) = none := by
  rw [← Option.not_isSome_iff_eq_none, lookup_isSome, List.any_eq_true]
  rintro ⟨field, member, same⟩
  have kept := (List.mem_filter.mp member).2
  rw [beq_iff_eq.mp same] at kept
  simp [dropped] at kept

theorem without_without {names also : List String} (within : names ⊆ also) :
    without also (without names fields) = without also fields := by
  rw [without, without, List.filter_filter]
  apply List.filter_congr
  intro field _
  by_cases dropped : field.1 ∈ also
  · simp [dropped]
  · have kept : field.1 ∉ names := fun listed => dropped (within listed)
    simp [dropped, kept]

/-- A dictionary without any of the names -/
def Lacks (names : List String) (fields : Fields) : Prop :=
  ∀ field ∈ fields, field.1 ∉ names

theorem lacks_without (names : List String) (fields : Fields) :
    Lacks names (without names fields) := by
  intro field member
  simpa using (List.mem_filter.mp member).2

theorem without_eq_self {names : List String} (lacks : Lacks names fields) :
    without names fields = fields := by
  rw [without, List.filter_eq_self]
  intro field member
  simpa using lacks field member

theorem without_append_single {names : List String} {name : String} {value : Json}
    (dropped : name ∈ names) :
    without names (fields ++ [(name, value)]) = without names fields := by
  simp [without, dropped]

theorem assign_without {names : List String} {name : String} (dropped : name ∈ names) :
    assign name value (without names fields) = without names fields ++ [(name, value)] :=
  assign_of_lookup_none (lookup_without_of_mem dropped)

/-! ## The facts of a value -/

theorem factsBefore_eq : factsBefore fields = facts (Json.get "previous_verification" fields) := by
  induction fields with
  | nil => rfl
  | cons field fields induction =>
    obtain ⟨name, value⟩ := field
    rw [factsBefore, Json.get, lookup_cons]
    dsimp only
    split
    · rfl
    · exact induction

theorem proofPrevious_eq :
    proofPrevious codec fields = proof codec (Json.get "previous_verification" fields) := by
  induction fields with
  | nil => rfl
  | cons field fields induction =>
    obtain ⟨name, value⟩ := field
    rw [proofPrevious, Json.get, lookup_cons]
    dsimp only
    split
    · rfl
    · exact induction

theorem factsBefore_append_single (lacks : Lacks ["previous_verification"] fields) :
    factsBefore (fields ++ [("previous_verification", value)]) = facts value := by
  have absent : lookup "previous_verification" fields = none := by
    rw [← Option.not_isSome_iff_eq_none, lookup_isSome, List.any_eq_true]
    rintro ⟨field, member, same⟩
    exact lacks field member (List.mem_singleton.mpr (beq_iff_eq.mp same))
  rw [factsBefore_eq, Json.get, lookup_append, absent, Option.none_or, lookup_cons, if_pos rfl]
  rfl

mutual

theorem distinctKeys_facts : ∀ {value : Json}, value.DistinctKeys →
    ∀ fact ∈ facts value, fact.DistinctKeys
  | .object fields => by
    intro distinct fact member
    rw [facts] at member
    rcases List.mem_cons.mp member with rfl | earlier
    · exact Json.distinctKeys_filter distinct
    · exact distinctKeys_factsBefore
        (Json.distinctFields_iff.mpr (Json.distinctKeys_object.mp distinct).2) fact earlier
  | .null => fun _ fact member => absurd member List.not_mem_nil
  | .array _ => by
    intro distinct fact member
    rw [List.mem_singleton.mp member]
    exact distinct
  | .bool _ => fun _ fact member => List.mem_singleton.mp member ▸ trivial
  | .number _ => fun _ fact member => List.mem_singleton.mp member ▸ trivial
  | .string _ => fun _ fact member => List.mem_singleton.mp member ▸ trivial

theorem distinctKeys_factsBefore : ∀ {fields : Fields}, Json.DistinctFields fields →
    ∀ fact ∈ factsBefore fields, fact.DistinctKeys
  | [] => fun _ _ member => absurd member List.not_mem_nil
  | (name, value) :: fields => by
    intro distinct fact member
    rw [Json.DistinctFields] at distinct
    rw [factsBefore] at member
    split at member
    · exact distinctKeys_facts distinct.1 fact member
    · exact distinctKeys_factsBefore distinct.2 fact member

end

theorem map_facts_of_same : ∀ {value other : Json}, value.DistinctKeys → other.DistinctKeys →
    Json.Same value other → (facts value).map Json.sortKeys = (facts other).map Json.sortKeys
  | .object fields, other => by
    intro distinct also same
    obtain ⟨others, rfl⟩ := Json.exists_of_same_object same
    have distinctFields := Json.distinctKeys_object.mp distinct
    have alsoDistinct := Json.distinctKeys_object.mp also
    have fact : Json.Same (factOf fields) (factOf others) :=
      @Json.same_filter _ _ (fun name => !("previous_verification" :: occurrence).contains name)
        distinctFields.1 same
    have earlier := Json.same_get "previous_verification" distinctFields.1 alsoDistinct.1 same
    rw [facts, facts, List.map_cons, List.map_cons, fact, factsBefore_eq, factsBefore_eq]
    congr 1
    cases found : lookup "previous_verification" fields with
    | none =>
      rw [Json.get, found, Option.getD_none] at earlier ⊢
      rw [Json.eq_of_same_of_sorted (by simp) (by simp) earlier]
    | some previous =>
      have smaller : sizeOf previous < sizeOf fields := by
        have listed := List.sizeOf_lt_of_mem (mem_of_lookup_eq_some found)
        simp only [Prod.mk.sizeOf_spec] at listed
        omega
      have previousDistinct := distinctFields.2 _ (mem_of_lookup_eq_some found)
      rw [Json.get, found, Option.getD_some] at earlier ⊢
      exact map_facts_of_same previousDistinct
        (Json.distinctKeys_get "previous_verification" also) earlier
  | .array items, other => by
    intro _ _ same
    obtain ⟨others, rfl, equal⟩ := Json.exists_of_same_array same
    simp [facts, Json.sortKeys, equal]
  | .null, _ => fun _ _ same => by rw [Json.eq_of_same_of_sorted (by simp) (by simp) same]
  | .bool _, _ => fun _ _ same => by rw [Json.eq_of_same_of_sorted (by simp) (by simp) same]
  | .number _, _ => fun _ _ same => by rw [Json.eq_of_same_of_sorted (by simp) (by simp) same]
  | .string _, _ => fun _ _ same => by rw [Json.eq_of_same_of_sorted (by simp) (by simp) same]
termination_by value => sizeOf value

/-! ## What `_proof` keeps -/

theorem occurrence_subset :
    ["previous_verification"] ⊆ "previous_verification" :: occurrence :=
  fun _ member => List.mem_cons.mpr (.inl (List.mem_singleton.mp member))

mutual

theorem lacks_proof : ∀ {value : Json} {fields : Fields}, proof codec value = .object fields →
    Lacks occurrence fields
  | .object entries, fields => by
    intro made field member listed
    have bare := lacks_without ("previous_verification" :: occurrence) entries
    have unnamed : "previous_verification" ∉ occurrence := by decide
    rw [proof] at made
    split at made
    · cases made
      exact bare field member (List.mem_cons_of_mem _ listed)
    · rename_i previous found
      split at made
      · cases made
        exact lacks_proofPrevious found field member listed
      · cases made
        rcases mem_assign member with rfl | old
        · exact unnamed listed
        · exact bare field old (List.mem_cons_of_mem _ listed)
    · cases made
      rcases mem_assign member with rfl | old
      · exact unnamed listed
      · exact bare field old (List.mem_cons_of_mem _ listed)
  | .null, _ => by
    intro made
    cases made
  | .array _, _ => by
    intro made
    cases made
  | .bool _, _ => by
    intro made
    cases made
  | .number _, _ => by
    intro made
    cases made
  | .string _, _ => by
    intro made
    cases made

theorem lacks_proofPrevious : ∀ {entries fields : Fields},
    proofPrevious codec entries = .object fields → Lacks occurrence fields
  | [], _ => by
    intro made
    cases made
  | (name, value) :: entries, fields => by
    intro made
    rw [proofPrevious] at made
    split at made
    · exact lacks_proof made
    · exact lacks_proofPrevious made

end

theorem without_proof {entries : Fields} (made : proof codec value = .object entries) :
    without ["previous_verification"] entries =
      without ("previous_verification" :: occurrence) entries := by
  rw [without, without]
  apply List.filter_congr
  intro field member
  have bare := lacks_proof made field member
  by_cases same : field.1 = "previous_verification"
  · simp [same]
  · simp [same, bare]

theorem proof_object : proof codec (.object fields) =
    match proof codec (Json.get "previous_verification" fields) with
    | .null => factOf fields
    | .object previous =>
      if codec.same (factOf fields) (factOf previous) then .object previous
      else .object (without ("previous_verification" :: occurrence) fields ++
        [("previous_verification", .object previous)])
    | previous => .object (without ("previous_verification" :: occurrence) fields ++
        [("previous_verification", previous)]) := by
  rw [proof, proofPrevious_eq]
  cases made : proof codec (Json.get "previous_verification" fields) with
  | null => rfl
  | object previous =>
    dsimp only
    rw [without_proof made, assign_without List.mem_cons_self]
    rfl
  | _ =>
    dsimp only
    rw [assign_without List.mem_cons_self]

theorem proof_proof : ∀ value : Json, proof codec (proof codec value) = proof codec value
  | .object fields => by
    have bare := lacks_without ("previous_verification" :: occurrence) fields
    have unlinked : Lacks ["previous_verification"]
        (without ("previous_verification" :: occurrence) fields) := fun field member listed =>
      bare field member (occurrence_subset listed)
    have kept : ∀ previous, factOf (without ("previous_verification" :: occurrence) fields ++
        [("previous_verification", previous)]) = factOf fields := fun previous => by
      rw [factOf, without_append_single List.mem_cons_self, without_without fun _ => id]
      rfl
    have linked : ∀ previous, Json.get "previous_verification"
        (without ("previous_verification" :: occurrence) fields ++
          [("previous_verification", previous)]) = previous := fun previous => by
      rw [Json.get, lookup_append, lookup_without_of_mem List.mem_cons_self, Option.none_or,
        lookup_cons, if_pos rfl]
      rfl
    have again : proof codec (proof codec (Json.get "previous_verification" fields)) =
        proof codec (Json.get "previous_verification" fields) := by
      rw [Json.get]
      cases found : lookup "previous_verification" fields with
      | none => rfl
      | some previous =>
        have listed := List.sizeOf_lt_of_mem (mem_of_lookup_eq_some found)
        have smaller : sizeOf previous < sizeOf fields := by
          simp only [Prod.mk.sizeOf_spec] at listed
          omega
        rw [Option.getD_some]
        exact proof_proof previous
    rw [@proof_object codec fields]
    cases made : proof codec (Json.get "previous_verification" fields) with
    | null =>
      dsimp only
      rw [factOf, proof_object, Json.get, lookup_without_of_mem List.mem_cons_self]
      dsimp only [Option.getD_none, proof]
      rw [factOf, without_without fun _ => id]
    | object previous =>
      rw [made] at again
      dsimp only
      split
      · exact again
      · rename_i different
        rw [proof_object, linked, again]
        dsimp only
        rw [kept, if_neg different, without_append_single List.mem_cons_self,
          without_without fun _ => id]
    | _ =>
      rw [made] at again
      dsimp only
      rw [proof_object, linked, again]
      dsimp only
      rw [without_append_single List.mem_cons_self, without_without fun _ => id]
  | .null => rfl
  | .array _ => rfl
  | .bool _ => rfl
  | .number _ => rfl
  | .string _ => rfl
termination_by value => sizeOf value

theorem facts_proof (python : codec.same = Json.pythonEqual) :
    ∀ value : Json, facts (proof codec value) = collapseBy Json.pythonEqual (facts value)
  | .object fields => by
    have bare := lacks_without ("previous_verification" :: occurrence) fields
    have unlinked : Lacks ["previous_verification"]
        (without ("previous_verification" :: occurrence) fields) := fun field member listed =>
      bare field member (occurrence_subset listed)
    have linked : ∀ previous, facts (.object
        (without ("previous_verification" :: occurrence) fields ++
          [("previous_verification", previous)])) = factOf fields :: facts previous := by
      intro previous
      rw [facts, factsBefore_append_single unlinked, factOf,
        without_append_single List.mem_cons_self, without_without fun _ => id]
      rfl
    have earlier : facts (proof codec (Json.get "previous_verification" fields)) =
        collapseBy Json.pythonEqual (facts (Json.get "previous_verification" fields)) := by
      rw [Json.get]
      cases found : lookup "previous_verification" fields with
      | none => rfl
      | some previous =>
        have listed := List.sizeOf_lt_of_mem (mem_of_lookup_eq_some found)
        have smaller : sizeOf previous < sizeOf fields := by
          simp only [Prod.mk.sizeOf_spec] at listed
          omega
        rw [Option.getD_some]
        exact facts_proof python previous
    rw [proof_object, facts, collapseBy, factsBefore_eq, ← earlier, python]
    cases made : proof codec (Json.get "previous_verification" fields) with
    | null =>
      dsimp only [facts]
      rw [factOf, facts, factsBefore_eq, Json.get,
        lookup_without_of_mem List.mem_cons_self, factOf, without_without fun _ => id]
      rfl
    | object previous =>
      dsimp only
      rw [facts]
      dsimp only
      split
      · rw [facts]
      · rw [linked, facts]
    | _ =>
      dsimp only
      rw [linked]
      rfl
  | .null => rfl
  | .array _ => rfl
  | .bool _ => rfl
  | .number _ => rfl
  | .string _ => rfl
termination_by value => sizeOf value

theorem map_facts_proof_iff (python : codec.same = Json.pythonEqual)
    (distinct : value.DistinctKeys) :
    (facts (proof codec value)).map Json.sortKeys = history value ↔ Distinguished value := by
  rw [facts_proof python, history]
  apply map_collapseBy_eq_destutter_iff
  · intro one inFacts other alsoInFacts same
    exact Json.pythonEqual_of_same (distinctKeys_facts distinct one inFacts)
      (distinctKeys_facts distinct other alsoInFacts) same
  · exact fun _ _ _ => Json.pythonEqual_trans

theorem distinguished_proof (python : codec.same = Json.pythonEqual) (value : Json) :
    Distinguished (proof codec value) := by
  rw [Distinguished, facts_proof python]
  exact unconfused_collapseBy

theorem history_proof (python : codec.same = Json.pythonEqual) (distinct : value.DistinctKeys) :
    history (proof codec value) = (facts (proof codec value)).map Json.sortKeys := by
  rw [← (map_facts_proof_iff python (distinctKeys_proof distinct)).mpr
    (distinguished_proof python value), proof_proof]

end JobAgg.SemanticHistory
