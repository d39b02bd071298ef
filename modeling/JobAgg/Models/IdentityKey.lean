import JobAgg.Foundation.Calendar
import JobAgg.Foundation.Lines
import JobAgg.Foundation.Words

/-! # Identity of a vacancy

A vacancy is stored under a text that is joined from its organization and its external id, or
where it has none from its organization and a digest of what else is known. The parts are joined
as they are, so that a separator inside a part moves the place where they are taken apart. -/

namespace JobAgg.Models

variable (casefold sha256 : List Char → List Char)

/-- `datetime | date` -/
inductive ClosingDate where
  | datetime (value : Moment)
  | date (value : Date)
deriving DecidableEq

def ClosingDate.day : ClosingDate → Date
  | .datetime value => value.date
  | .date value => value

/-- The fields of a `JobRecord` that its identity is made of -/
structure JobRecord where
  sourceId : List Char
  orgId : List Char
  title : List Char
  externalId : Option (List Char)
  location : Option (List Char)
  closesAt : Option ClosingDate
deriving DecidableEq

def identityPart : Option (List Char) → List Char
  | none => []
  | some value => unwords (words (casefold value))

def sourceVacancyIdPart : Option (List Char) → List Char
  | none => []
  | some value => unwords (words (stripSpace value))

def identityDate : Option ClosingDate → List Char
  | none => []
  | some value => value.day.text

namespace JobRecord

/-- `if self.external_id` -/
def hasExternalId (record : JobRecord) : Bool :=
  record.externalId.getD [] != []

def orgKey (record : JobRecord) : List Char :=
  identityPart casefold (some (if record.orgId ≠ [] then record.orgId else record.sourceId))

def titlePart (record : JobRecord) : List Char := identityPart casefold (some record.title)

def locationPart (record : JobRecord) : List Char := identityPart casefold record.location

def fallback (record : JobRecord) : List Char :=
  ['|'].intercalate [record.orgKey casefold, record.titlePart casefold,
    record.locationPart casefold, identityDate record.closesAt]

/-- What stands behind the organization -/
def vacancyPart (record : JobRecord) : List Char :=
  if record.hasExternalId then sourceVacancyIdPart record.externalId
  else "fallback:".toList ++ sha256 (record.fallback casefold)

def identityKey (record : JobRecord) : List Char :=
  record.orgKey casefold ++ ':' :: record.vacancyPart casefold sha256

end JobRecord

def SameVacancy (one two : JobRecord) : Prop :=
  one.hasExternalId = two.hasExternalId ∧ one.orgKey casefold = two.orgKey casefold ∧
    if one.hasExternalId then
      sourceVacancyIdPart one.externalId = sourceVacancyIdPart two.externalId
    else one.titlePart casefold = two.titlePart casefold ∧
      one.locationPart casefold = two.locationPart casefold ∧
      one.closesAt.map ClosingDate.day = two.closesAt.map ClosingDate.day

instance (one two : JobRecord) : Decidable (SameVacancy casefold one two) :=
  inferInstanceAs (Decidable (_ ∧ _ ∧ ite _ _ _))

/-- The texts of one record are those of the other with a separator in another place: a `:` of
the organization, a `|` of the title, or an external id that is spelled like a fallback. -/
inductive Confusable (one two : JobRecord) : Prop where
  | organization (later : SplitsLater ':' (one.orgKey casefold) (one.vacancyPart casefold sha256)
      (two.orgKey casefold) (two.vacancyPart casefold sha256))
  | spelled (first : one.hasExternalId = true) (second : two.hasExternalId = false)
      (organization : one.orgKey casefold = two.orgKey casefold)
      (spelled : sourceVacancyIdPart one.externalId =
        "fallback:".toList ++ sha256 (two.fallback casefold))
  | title (first : one.hasExternalId = false) (second : two.hasExternalId = false)
      (organization : one.orgKey casefold = two.orgKey casefold)
      (later : SplitsLater '|' (one.titlePart casefold) (one.locationPart casefold)
        (two.titlePart casefold) (two.locationPart casefold))
      (closing : one.closesAt.map ClosingDate.day = two.closesAt.map ClosingDate.day)

variable {casefold sha256} {one two : JobRecord}

theorem notMem_identityDate (closing : Option ClosingDate) : '|' ∉ identityDate closing := by
  cases closing with
  | none => exact List.not_mem_nil
  | some value => exact Date.notMem_text (by decide) (by decide)

theorem identityDate_inj {first second : Option ClosingDate} :
    identityDate first = identityDate second ↔
      first.map ClosingDate.day = second.map ClosingDate.day := by
  have written : ∀ value : ClosingDate, [] ≠ value.day.text := by
    intro value empty
    have length := value.day.length_text
    rw [← empty] at length
    cases length
  cases first with
  | none =>
    cases second with
    | none => exact iff_of_true rfl rfl
    | some value => exact iff_of_false (written value) (Option.some_ne_none _).symm
  | some value =>
    cases second with
    | none => exact iff_of_false (written value).symm (Option.some_ne_none _)
    | some other =>
      rw [identityDate, identityDate, Date.text_inj, Option.map_some, Option.map_some,
        Option.some.injEq]

theorem fallback_eq (record : JobRecord) : record.fallback casefold =
    record.orgKey casefold ++ '|' :: ((record.titlePart casefold ++
      '|' :: record.locationPart casefold) ++ '|' :: identityDate record.closesAt) := by
  simp [JobRecord.fallback, List.intercalate]

theorem fallback_eq_iff (organization : one.orgKey casefold = two.orgKey casefold) :
    one.fallback casefold = two.fallback casefold ↔
      one.closesAt.map ClosingDate.day = two.closesAt.map ClosingDate.day ∧
        ((one.titlePart casefold = two.titlePart casefold ∧
            one.locationPart casefold = two.locationPart casefold) ∨
          SplitsLater '|' (one.titlePart casefold) (one.locationPart casefold)
            (two.titlePart casefold) (two.locationPart casefold) ∨
          SplitsLater '|' (two.titlePart casefold) (two.locationPart casefold)
            (one.titlePart casefold) (one.locationPart casefold)) := by
  rw [fallback_eq, fallback_eq, organization, List.append_right_inj, List.cons_inj_right]
  constructor
  · intro same
    rcases separated_eq_iff.mp same with ⟨texts, dates⟩ | later | later
    · exact ⟨identityDate_inj.mp dates, separated_eq_iff.mp texts⟩
    · exact absurd later.mem (notMem_identityDate _)
    · exact absurd later.mem (notMem_identityDate _)
  · rintro ⟨dates, texts⟩
    rw [separated_eq_iff.mpr texts, identityDate_inj.mpr dates]

theorem vacancyPart_of_external (external : one.hasExternalId = true) :
    one.vacancyPart casefold sha256 = sourceVacancyIdPart one.externalId := if_pos external

theorem vacancyPart_of_fallback (without : one.hasExternalId = false) :
    one.vacancyPart casefold sha256 = "fallback:".toList ++ sha256 (one.fallback casefold) :=
  if_neg (by rw [without]; exact Bool.false_ne_true)

theorem Confusable.same_key (confusable : Confusable casefold sha256 one two) :
    one.identityKey casefold sha256 = two.identityKey casefold sha256 := by
  rw [JobRecord.identityKey, JobRecord.identityKey, separated_eq_iff]
  cases confusable with
  | organization later => exact .inr (.inl later)
  | spelled first second organization spelled =>
    rw [vacancyPart_of_external first, vacancyPart_of_fallback second]
    exact .inl ⟨organization, spelled⟩
  | title first second organization later closing =>
    rw [vacancyPart_of_fallback first, vacancyPart_of_fallback second,
      (fallback_eq_iff organization).mpr ⟨closing, .inr (.inl later)⟩]
    exact .inl ⟨organization, rfl⟩

theorem Confusable.not_same (confusable : Confusable casefold sha256 one two) :
    ¬ SameVacancy casefold one two := by
  rintro ⟨kinds, organizations, texts⟩
  cases confusable with
  | organization later => exact later.ne organizations
  | spelled first second organization spelled =>
    rw [first, second] at kinds
    cases kinds
  | title first second organization later closing =>
    rw [first, if_neg Bool.false_ne_true] at texts
    exact later.ne texts.1

theorem SameVacancy.symm (same : SameVacancy casefold one two) : SameVacancy casefold two one := by
  obtain ⟨kinds, organizations, texts⟩ := same
  refine ⟨kinds.symm, organizations.symm, ?_⟩
  rw [← kinds]
  split
  case isTrue external =>
    rw [if_pos external] at texts
    exact texts.symm
  case isFalse without =>
    rw [if_neg without] at texts
    exact ⟨texts.1.symm, texts.2.1.symm, texts.2.2.symm⟩

theorem same_or_confusable
    (apart : sha256 (one.fallback casefold) = sha256 (two.fallback casefold) →
      one.fallback casefold = two.fallback casefold)
    (same : one.identityKey casefold sha256 = two.identityKey casefold sha256) :
    SameVacancy casefold one two ∨ Confusable casefold sha256 one two ∨
      Confusable casefold sha256 two one := by
  rw [JobRecord.identityKey, JobRecord.identityKey] at same
  rcases separated_eq_iff.mp same with ⟨organizations, parts⟩ | later | later
  · cases first : one.hasExternalId with
    | true =>
      rw [vacancyPart_of_external first] at parts
      cases second : two.hasExternalId with
      | true =>
        rw [vacancyPart_of_external second] at parts
        exact .inl ⟨first.trans second.symm, organizations, by rw [if_pos first]; exact parts⟩
      | false =>
        rw [vacancyPart_of_fallback second] at parts
        exact .inr (.inl (.spelled first second organizations parts))
    | false =>
      rw [vacancyPart_of_fallback first] at parts
      cases second : two.hasExternalId with
      | true =>
        rw [vacancyPart_of_external second] at parts
        exact .inr (.inr (.spelled second first organizations.symm parts.symm))
      | false =>
        rw [vacancyPart_of_fallback second] at parts
        have texts := apart (List.append_cancel_left parts)
        obtain ⟨dates, same | later | later⟩ := (fallback_eq_iff organizations).mp texts
        · refine .inl ⟨first.trans second.symm, organizations, ?_⟩
          rw [first, if_neg Bool.false_ne_true]
          exact ⟨same.1, same.2, dates⟩
        · exact .inr (.inl (.title first second organizations later dates))
        · exact .inr (.inr (.title second first organizations.symm later dates.symm))
  · exact .inr (.inl (.organization later))
  · exact .inr (.inr (.organization later))

/-- A key tells two records apart exactly when their texts cannot be confused. -/
theorem identity_key_injective_iff (casefold sha256 : List Char → List Char) (one two : JobRecord)
    (apart : sha256 (one.fallback casefold) = sha256 (two.fallback casefold) →
      one.fallback casefold = two.fallback casefold) :
    (one.identityKey casefold sha256 = two.identityKey casefold sha256 →
        SameVacancy casefold one two) ↔
      ¬ Confusable casefold sha256 one two ∧ ¬ Confusable casefold sha256 two one := by
  constructor
  · intro injective
    constructor
    · intro confusable
      exact confusable.not_same (injective confusable.same_key)
    · intro confusable
      exact confusable.not_same (injective confusable.same_key.symm).symm
  · rintro ⟨first, second⟩ same
    rcases same_or_confusable apart same with vacancy | confusable | confusable
    · exact vacancy
    · exact absurd confusable first
    · exact absurd confusable second

def regionalOffice : JobRecord where
  sourceId := []
  orgId := "a:b".toList
  title := "officer".toList
  externalId := some "c".toList
  location := none
  closesAt := none

def headOffice : JobRecord where
  sourceId := []
  orgId := "a".toList
  title := "officer".toList
  externalId := some "b:c".toList
  location := none
  closesAt := none

/-- `str.casefold`, of an ASCII text -/
def plainCasefold (text : List Char) : List Char := text.map Char.toLower

def plainSha256 (text : List Char) : List Char :=
  if text = "a:b|officer||".toList then
    "7087bc6ea3a23f027d051fce8813430c97339a162ac9f6a5d11226c188831d33".toList
  else "f5fdf5722d67693fe638958c0bb125ed40d8551d710b7ea5f00160c2328ac575".toList

theorem offices_share_key :
    regionalOffice.identityKey plainCasefold plainSha256 =
        headOffice.identityKey plainCasefold plainSha256 ∧
      ¬ SameVacancy plainCasefold regionalOffice headOffice := by
  decide

theorem offices_confusable :
    ¬ (¬ Confusable plainCasefold plainSha256 regionalOffice headOffice ∧
      ¬ Confusable plainCasefold plainSha256 headOffice regionalOffice) := by
  rw [← identity_key_injective_iff plainCasefold plainSha256 regionalOffice headOffice
    (by decide)]
  intro injective
  exact offices_share_key.2 (injective offices_share_key.1)

end JobAgg.Models
