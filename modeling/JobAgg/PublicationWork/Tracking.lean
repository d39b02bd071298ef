import JobAgg.PublicationWork.Selection

/-! # Version tracking

The version and current tables, apart from everything else, change by marks and
by disposition updates only. Every current row keeps the newest version recorded
for its unit, and the watermark of the triggers picks out exactly what a trigger
has just recorded, so that a trigger is a sequence of marks.
-/

namespace JobAgg.PublicationWork

theorem le_maxVersion {versions : List ℕ} {version : ℕ} (member : version ∈ versions) :
    version ≤ maxVersion versions := by
  induction versions with
  | nil => simp at member
  | cons first rest induction =>
    rcases List.mem_cons.mp member with rfl | inRest
    · exact le_max_left _ _
    · exact (induction inRest).trans (le_max_right _ _)

theorem maxVersion_le {versions : List ℕ} {bound : ℕ}
    (bounded : ∀ version ∈ versions, version ≤ bound) : maxVersion versions ≤ bound := by
  induction versions with
  | nil => exact Nat.zero_le _
  | cons first rest induction =>
    refine max_le (bounded first List.mem_cons_self) (induction ?_)
    exact fun version member => bounded version (List.mem_cons_of_mem _ member)

/-- The newest version recorded for the unit of the row is the row's own. -/
structure IsLatest (versions : List VersionRow) (row : CurrentRow) : Prop where
  recorded : ∃ version ∈ versions, version.unit = row.unit ∧ version.version = row.version
  newest : ∀ version ∈ versions, version.unit = row.unit → version.version ≤ row.version

structure Tracked (versions : List VersionRow) (current : List CurrentRow) : Prop where
  distinct : (current.map CurrentRow.unit).Nodup
  latest : ∀ row ∈ current, IsLatest versions row
  covered : ∀ version ∈ versions, ∃ row ∈ current, row.unit = version.unit

variable {versions : List VersionRow} {current : List CurrentRow} {store : Store}

namespace Tracked

theorem nil : Tracked [] [] where
  distinct := by simp
  latest := by simp
  covered := by simp

theorem watermark (tracked : Tracked versions current) :
    maxVersion (current.map CurrentRow.version) =
      maxVersion (versions.map VersionRow.version) := by
  apply le_antisymm
  · apply maxVersion_le
    intro version member
    rcases List.mem_map.mp member with ⟨row, rowMember, rfl⟩
    rcases (tracked.latest row rowMember).recorded with ⟨recorded, recordedMember, _, equal⟩
    rw [← equal]
    exact le_maxVersion (List.mem_map_of_mem recordedMember)
  · apply maxVersion_le
    intro version member
    rcases List.mem_map.mp member with ⟨recorded, recordedMember, rfl⟩
    rcases tracked.covered recorded recordedMember with ⟨row, rowMember, sameUnit⟩
    exact ((tracked.latest row rowMember).newest recorded recordedMember sameUnit.symm).trans
      (le_maxVersion (List.mem_map_of_mem rowMember))

theorem upsert {row : VersionRow} (tracked : Tracked versions current)
    (newer : ∀ version ∈ versions, version.version < row.version) :
    Tracked (versions ++ [row]) (upsertCurrent current row) := by
  have keptLatest : ∀ old ∈ current, old.unit ≠ row.unit → IsLatest (versions ++ [row]) old := by
    intro old member different
    have latest := tracked.latest old member
    rcases latest.recorded with ⟨recorded, recordedMember, equal⟩
    refine ⟨⟨recorded, List.mem_append_left _ recordedMember, equal⟩, ?_⟩
    intro version versionMember sameUnit
    rcases List.mem_append.mp versionMember with earlier | new
    · exact latest.newest version earlier sameUnit
    · rw [List.mem_singleton.mp new] at sameUnit
      exact absurd sameUnit.symm different
  have rowLatest : ∀ updated : CurrentRow, updated.unit = row.unit →
      updated.version = row.version → IsLatest (versions ++ [row]) updated := by
    intro updated sameUnit sameVersion
    refine ⟨⟨row, by simp, sameUnit.symm, sameVersion.symm⟩, ?_⟩
    intro version member _
    rw [sameVersion]
    rcases List.mem_append.mp member with earlier | new
    · exact (newer version earlier).le
    · rw [List.mem_singleton.mp new]
  cases present : current.any (·.unit == row.unit) with
  | true =>
    simp only [upsertCurrent, present, if_true]
    have sameUnits : (updateWhere (·.unit == row.unit) (CurrentRow.carry row) current).map
        CurrentRow.unit = current.map CurrentRow.unit :=
      map_updateWhere_of_stable fun _ _ _ => rfl
    have unitOf : ∀ old ∈ current, ∃ updated ∈ updateWhere (·.unit == row.unit)
        (CurrentRow.carry row) current, updated.unit = old.unit := by
      intro old member
      apply List.mem_map.mp
      rw [sameUnits]
      exact List.mem_map_of_mem member
    refine ⟨sameUnits ▸ tracked.distinct, ?_, ?_⟩
    · intro updated member
      rcases mem_updateWhere.mp member with ⟨old, oldMember, rfl⟩
      by_cases same : old.unit = row.unit
      · rw [if_pos (by simpa using same)]
        exact rowLatest (old.carry row) same rfl
      · rw [if_neg (by simpa using same)]
        exact keptLatest old oldMember same
    · intro version member
      rcases List.mem_append.mp member with earlier | new
      · rcases tracked.covered version earlier with ⟨old, oldMember, sameUnit⟩
        rcases unitOf old oldMember with ⟨updated, updatedMember, equal⟩
        exact ⟨updated, updatedMember, equal.trans sameUnit⟩
      · rcases List.any_eq_true.mp present with ⟨old, oldMember, sameUnit⟩
        rcases unitOf old oldMember with ⟨updated, updatedMember, equal⟩
        refine ⟨updated, updatedMember, ?_⟩
        rw [List.mem_singleton.mp new, equal]
        simpa using sameUnit
  | false =>
    have absent : ∀ old ∈ current, old.unit ≠ row.unit := by simpa using present
    simp only [upsertCurrent, present, Bool.false_eq_true, if_false]
    refine ⟨?_, ?_, ?_⟩
    · simpa [List.nodup_append, tracked.distinct] using absent
    · intro updated member
      rcases List.mem_append.mp member with old | new
      · exact keptLatest updated old (absent updated old)
      · rw [List.mem_singleton.mp new]
        exact rowLatest _ rfl rfl
    · intro version member
      rcases List.mem_append.mp member with earlier | new
      · rcases tracked.covered version earlier with ⟨old, oldMember, sameUnit⟩
        exact ⟨old, List.mem_append_left _ oldMember, sameUnit⟩
      · rw [List.mem_singleton.mp new]
        exact ⟨_, List.mem_append_right _ (List.mem_singleton_self _), rfl⟩

theorem updateWhere {selects : CurrentRow → Bool} {update : CurrentRow → CurrentRow}
    (tracked : Tracked versions current)
    (sameUnit : ∀ row, (update row).unit = row.unit)
    (sameVersion : ∀ row, (update row).version = row.version) :
    Tracked versions (updateWhere selects update current) := by
  refine ⟨?_, ?_, ?_⟩
  · rw [map_updateWhere_of_stable fun row _ _ => sameUnit row]
    exact tracked.distinct
  · intro updated member
    rcases mem_updateWhere.mp member with ⟨old, oldMember, rfl⟩
    have latest := tracked.latest old oldMember
    split
    · exact ⟨by simpa [sameUnit, sameVersion] using latest.recorded,
        by simpa [sameUnit, sameVersion] using latest.newest⟩
    · exact latest
  · intro version member
    rcases tracked.covered version member with ⟨old, oldMember, equal⟩
    refine ⟨_, mem_updateWhere.mpr ⟨old, oldMember, rfl⟩, ?_⟩
    split
    · rw [sameUnit, equal]
    · exact equal

end Tracked

theorem lt_nextVersion {dirty : DirtyUnit} {changedAt : ℚ} {operation : String} :
    ∀ version ∈ versions,
      version.version < (nextVersion versions dirty changedAt operation).version := by
  intro version member
  exact Nat.lt_succ_of_le (le_maxVersion (List.mem_map_of_mem member))

/-- Some marks, as the two tables see them. -/
inductive Marked (versions : List VersionRow) (current : List CurrentRow) :
    List VersionRow → List CurrentRow → Prop
  | none : Marked versions current versions current
  | mark {recorded : List VersionRow} {carried : List CurrentRow} {row : VersionRow} :
      Marked versions current recorded carried →
      (∀ version ∈ recorded, version.version < row.version) →
      Marked versions current (recorded ++ [row]) (upsertCurrent carried row)

namespace Marked

variable {recorded later : List VersionRow} {carried last : List CurrentRow}

theorem trans (first : Marked versions current recorded carried)
    (second : Marked recorded carried later last) : Marked versions current later last := by
  induction second with
  | none => exact first
  | mark _ newer induction => exact .mark induction newer

theorem tracked (marked : Marked versions current recorded carried)
    (tracked : Tracked versions current) : Tracked recorded carried := by
  induction marked with
  | none => exact tracked
  | mark _ newer induction => exact induction.upsert newer

theorem subset (marked : Marked versions current recorded carried) : versions ⊆ recorded := by
  induction marked with
  | none => exact List.Subset.refl _
  | mark _ _ induction => exact List.subset_append_of_subset_left _ induction

theorem acknowledged (marked : Marked versions current recorded carried) {row : CurrentRow}
    (member : row ∈ carried) (cleared : row.disposition = .acknowledged) : row ∈ current := by
  induction marked with
  | none => exact member
  | @mark recorded carried newest _ _ induction =>
    apply induction
    unfold upsertCurrent at member
    split at member
    · rcases mem_updateWhere.mp member with ⟨old, oldMember, rfl⟩
      split at cleared
      · simp [CurrentRow.carry] at cleared
      · rename_i other
        rw [if_neg other]
        exact oldMember
    · rcases List.mem_append.mp member with kept | added
      · exact kept
      · rw [List.mem_singleton.mp added] at cleared
        simp at cleared

end Marked

def RecordedAbove (bound : ℕ) (unit : String) (versions : List VersionRow) : Prop :=
  ∃ version ∈ versions, version.unit = unit ∧ bound < version.version

theorem RecordedAbove.mono {bound : ℕ} {unit : String} {later : List VersionRow}
    (above : RecordedAbove bound unit versions) (subset : versions ⊆ later) :
    RecordedAbove bound unit later := by
  rcases above with ⟨version, member, rest⟩
  exact ⟨version, subset member, rest⟩

namespace Store

/-- `next` differs from `store` in the version and current tables by marks. -/
def Marks (store next : Store) : Prop :=
  Marked store.versions store.current next.versions next.current

theorem Marks.foldl {Item : Type*} {step : Store → Item → Store}
    (marks : ∀ store item, Marks store (step store item)) (items : List Item) :
    store.Marks (items.foldl step store) := by
  induction items generalizing store with
  | nil => exact .none
  | cons item items induction => exact (marks store item).trans induction

theorem marks_mark (dirty : DirtyUnit) (changedAt : ℚ) (operation : String) :
    store.Marks (store.mark dirty changedAt operation) :=
  .mark .none lt_nextVersion

theorem recordedAbove_mark (dirty : DirtyUnit) (changedAt : ℚ) (operation : String) {bound : ℕ}
    (bounded : bound ≤ maxVersion (store.versions.map VersionRow.version)) :
    RecordedAbove bound dirty.unit (store.mark dirty changedAt operation).versions :=
  ⟨_, List.mem_append_right _ (List.mem_singleton_self _), rfl, Nat.lt_succ_of_le bounded⟩

end Store

/-- The rows that `AUTOINCREMENT` makes of a list of units. -/
def numbered (changedAt : ℚ) (operation : String) :
    List VersionRow → List DirtyUnit → List VersionRow
  | _, [] => []
  | versions, dirty :: units =>
    let row := nextVersion versions dirty changedAt operation
    row :: numbered changedAt operation (versions ++ [row]) units

section Trigger

variable {changedAt : ℚ} {operation : String} {units : List DirtyUnit}

theorem foldl_nextVersion :
    units.foldl
      (fun versions dirty => versions ++ [nextVersion versions dirty changedAt operation])
      versions = versions ++ numbered changedAt operation versions units := by
  induction units generalizing versions with
  | nil => simp [numbered]
  | cons dirty units induction => simp [numbered, induction]

theorem lt_of_mem_numbered :
    ∀ row ∈ numbered changedAt operation versions units,
      maxVersion (versions.map VersionRow.version) < row.version := by
  induction units generalizing versions with
  | nil => simp [numbered]
  | cons dirty units induction =>
    intro row member
    rcases List.mem_cons.mp member with rfl | later
    · exact Nat.lt_succ_self _
    · apply lt_of_le_of_lt _ (induction row later)
      apply maxVersion_le
      intro version versionMember
      apply le_maxVersion
      rw [List.map_append]
      exact List.mem_append_left _ versionMember

theorem map_unit_numbered :
    (numbered changedAt operation versions units).map VersionRow.unit =
      units.map DirtyUnit.unit := by
  induction units generalizing versions with
  | nil => rfl
  | cons dirty units induction => simp [numbered, induction, nextVersion]

theorem Marked.numbered :
    Marked versions current
      (versions ++ numbered changedAt operation versions units)
      ((numbered changedAt operation versions units).foldl upsertCurrent current) := by
  induction units generalizing versions current with
  | nil => simpa [PublicationWork.numbered] using Marked.none
  | cons dirty units induction =>
    have newer : ∀ version ∈ versions,
        version.version < (nextVersion versions dirty changedAt operation).version :=
      lt_nextVersion
    simpa [PublicationWork.numbered] using (Marked.none.mark newer).trans induction

theorem Store.dirtyTrigger_eq (tracked : Tracked store.versions store.current) :
    store.dirtyTrigger units changedAt operation =
      { store with
        versions := store.versions ++ numbered changedAt operation store.versions units
        current := (numbered changedAt operation store.versions units).foldl upsertCurrent
          store.current } := by
  have fresh : (store.versions ++ numbered changedAt operation store.versions units).filter
      (fun row => decide (maxVersion (store.current.map CurrentRow.version) < row.version)) =
        numbered changedAt operation store.versions units := by
    rw [tracked.watermark, List.filter_append]
    have earlier : store.versions.filter (fun row =>
        decide (maxVersion (store.versions.map VersionRow.version) < row.version)) = [] := by
      rw [List.filter_eq_nil_iff]
      intro row member
      simpa using le_maxVersion (List.mem_map_of_mem member)
    have later : (numbered changedAt operation store.versions units).filter (fun row =>
        decide (maxVersion (store.versions.map VersionRow.version) < row.version)) =
          numbered changedAt operation store.versions units := by
      rw [List.filter_eq_self]
      intro row member
      simpa using lt_of_mem_numbered row member
    rw [earlier, later, List.nil_append]
  unfold Store.dirtyTrigger
  simp only [foldl_nextVersion, fresh]

theorem Store.marks_dirtyTrigger (tracked : Tracked store.versions store.current) :
    store.Marks (store.dirtyTrigger units changedAt operation) := by
  rw [Store.dirtyTrigger_eq tracked]
  exact Marked.numbered

theorem Store.recordedAbove_dirtyTrigger (changedAt : ℚ) (operation : String)
    (tracked : Tracked store.versions store.current) {dirty : DirtyUnit}
    (member : dirty ∈ units) {bound : ℕ}
    (bounded : bound ≤ maxVersion (store.versions.map VersionRow.version)) :
    RecordedAbove bound dirty.unit (store.dirtyTrigger units changedAt operation).versions := by
  rw [Store.dirtyTrigger_eq tracked]
  have unitMember : dirty.unit ∈
      (numbered changedAt operation store.versions units).map VersionRow.unit := by
    rw [map_unit_numbered]
    exact List.mem_map_of_mem member
  rcases List.mem_map.mp unitMember with ⟨row, rowMember, sameUnit⟩
  exact ⟨row, List.mem_append_right _ rowMember, sameUnit,
    bounded.trans_lt (lt_of_mem_numbered row rowMember)⟩

end Trigger

end JobAgg.PublicationWork
