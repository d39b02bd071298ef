import Mathlib.Data.List.Destutter

/-! # Collapsing repetitions

A list is collapsed from its end: an item that equals the head of the collapsed rest is
left out. With an equality that is coarser than that of the keys, items that differ may be
lost; the list keeps every key exactly when no two neighbours are confused. -/

namespace JobAgg

variable {Item Key : Type} (same : Item → Item → Bool)

/-- Of neighbours that are the same, the last one stays. -/
def collapseBy : List Item → List Item
  | [] => []
  | item :: items =>
    match collapseBy items with
    | [] => [item]
    | head :: tail => if same item head then head :: tail else item :: head :: tail

/-- No two neighbours are taken for the same although their keys differ. -/
def Unconfused (key : Item → Key) (items : List Item) : Prop :=
  items.IsChain fun first second => same first second = true → key first = key second

variable {same} {key : Item → Key} {first second : Item} {items : List Item}

theorem exists_collapseBy_cons (items : List Item) (reflexive : same second second = true) :
    ∃ head tail, collapseBy same (second :: items) = head :: tail ∧ same second head = true := by
  rw [collapseBy]
  split
  · exact ⟨second, [], rfl, reflexive⟩
  · rename_i head tail _
    by_cases absorbed : same second head = true
    · rw [if_pos absorbed]
      exact ⟨head, tail, rfl, absorbed⟩
    · rw [if_neg absorbed]
      exact ⟨second, head :: tail, rfl, reflexive⟩

theorem mem_of_mem_collapseBy {item : Item} (member : item ∈ collapseBy same items) :
    item ∈ items := by
  induction items with
  | nil => exact member
  | cons head items induction =>
    rw [collapseBy] at member
    split at member
    · rw [List.mem_singleton.mp member]
      exact List.mem_cons_self
    · rename_i kept rest collapsed
      rw [collapsed] at induction
      split at member
      · exact List.mem_cons_of_mem _ (induction member)
      · rcases List.mem_cons.mp member with rfl | later
        · exact List.mem_cons_self
        · exact List.mem_cons_of_mem _ (induction later)

theorem isChain_collapseBy :
    (collapseBy same items).IsChain fun first second => same first second = false := by
  induction items with
  | nil => exact .nil
  | cons head items induction =>
    rw [collapseBy]
    split
    · exact .singleton head
    · rename_i kept rest collapsed
      rw [collapsed] at induction
      split
      · exact induction
      · rename_i different
        exact .cons_cons (Bool.not_eq_true _ ▸ different) induction

theorem unconfused_collapseBy : Unconfused same key (collapseBy same items) := by
  refine isChain_collapseBy.imp ?_
  intro first second different confused
  rw [different] at confused
  cases confused

variable [DecidableEq Key]

theorem destutter_map_cons_cons :
    ((first :: second :: items).map key).destutter (· ≠ ·) =
      if key first = key second then ((second :: items).map key).destutter (· ≠ ·)
      else key first :: ((second :: items).map key).destutter (· ≠ ·) := by
  rw [List.map_cons, List.map_cons, List.destutter_cons_cons, List.destutter_cons']
  by_cases equal : key first = key second
  · rw [if_neg (not_not_intro equal), if_pos equal, equal]
  · rw [if_pos equal, if_neg equal]

theorem head?_destutter_cons (key : Item → Key) (second : Item) (items : List Item) :
    (((second :: items).map key).destutter (· ≠ ·)).head? = some (key second) := by
  rw [List.map_cons, List.destutter_cons']
  induction items with
  | nil => rfl
  | cons item items induction =>
    rw [List.map_cons, List.destutter'_cons]
    split
    · rfl
    · exact induction

section Coarser

variable (coarser : ∀ one ∈ items, ∀ other ∈ items, key one = key other → same one other = true)
  (transitive : ∀ one middle other, same one middle = true → same middle other = true →
    same one other = true)

include coarser transitive

theorem length_collapseBy_le :
    (collapseBy same items).length ≤ ((items.map key).destutter (· ≠ ·)).length := by
  induction items with
  | nil => exact le_rfl
  | cons first items induction =>
    cases items with
    | nil => exact le_rfl
    | cons second items =>
      have below := induction fun one inRest other alsoInRest =>
        coarser one (List.mem_cons_of_mem _ inRest) other (List.mem_cons_of_mem _ alsoInRest)
      obtain ⟨head, tail, collapsed, absorbed⟩ := exists_collapseBy_cons items
        (coarser second (by simp) second (by simp) rfl)
      rw [destutter_map_cons_cons, collapseBy, collapsed]
      rw [collapsed] at below
      dsimp only
      by_cases dropped : same first head = true
      · rw [if_pos dropped]
        split
        · exact below
        · exact below.trans (Nat.le_succ _)
      · have different : key first ≠ key second := fun equal =>
          dropped (transitive _ _ _ (coarser first (by simp) second (by simp) equal) absorbed)
        rw [if_neg dropped, if_neg different]
        exact Nat.succ_le_succ below

theorem map_collapseBy_eq_destutter_iff :
    (collapseBy same items).map key = (items.map key).destutter (· ≠ ·) ↔
      Unconfused same key items := by
  induction items with
  | nil => exact ⟨fun _ => .nil, fun _ => rfl⟩
  | cons first items induction =>
    cases items with
    | nil => exact ⟨fun _ => .singleton first, fun _ => rfl⟩
    | cons second items =>
      have coarserRest : ∀ one ∈ second :: items, ∀ other ∈ second :: items,
          key one = key other → same one other = true := fun one inRest other alsoInRest =>
        coarser one (List.mem_cons_of_mem _ inRest) other (List.mem_cons_of_mem _ alsoInRest)
      have rest := induction coarserRest
      have shorter := length_collapseBy_le coarserRest transitive
      obtain ⟨head, tail, collapsed, absorbed⟩ := exists_collapseBy_cons items
        (coarserRest second (by simp) second (by simp) rfl)
      have headListed : head ∈ second :: items :=
        mem_of_mem_collapseBy (collapsed ▸ List.mem_cons_self)
      have firstSecond := coarser first (by simp) second (by simp)
      rw [destutter_map_cons_cons, collapseBy, collapsed, Unconfused, List.isChain_cons_cons,
        ← Unconfused, ← rest, collapsed]
      rw [collapsed, ← List.length_map (f := key)] at shorter
      dsimp only
      by_cases dropped : same first head = true
      · rw [if_pos dropped]
        constructor
        · intro kept
          by_cases equal : key first = key second
          · rw [if_pos equal] at kept
            exact ⟨fun _ => equal, kept⟩
          · rw [if_neg equal] at kept
            rw [kept, List.length_cons] at shorter
            omega
        · rintro ⟨unconfused, kept⟩
          have heads := head?_destutter_cons key second items
          rw [← kept, List.map_cons, List.head?_cons, Option.some_inj] at heads
          have back := coarserRest head headListed second (by simp) heads
          rw [if_pos (unconfused (transitive _ _ _ dropped back)), kept]
      · have different : key first ≠ key second := fun equal =>
          dropped (transitive _ _ _ (firstSecond equal) absorbed)
        rw [if_neg dropped, if_neg different, List.map_cons, List.cons_inj_right]
        constructor
        · intro kept
          exact ⟨fun confused => absurd (transitive _ _ _ confused absorbed) dropped, kept⟩
        · exact fun both => both.2

end Coarser

end JobAgg
