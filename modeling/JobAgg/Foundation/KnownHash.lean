import JobAgg.Foundation.Table
import Mathlib.Data.String.Basic

/-! # A hash that is known at some texts

Examples are evaluated with a hash that has its real value at the texts they meet. At all
other texts it spells the text out behind a mark that no known value begins with.
-/

namespace JobAgg

def spelled (bytes : List UInt8) : String :=
  String.ofList ('?' :: bytes.map fun byte => Char.ofNat byte.toNat)

def knownHash (known : List (List UInt8 × String)) (bytes : List UInt8) : String :=
  match known.find? (·.1 == bytes) with
  | some entry => entry.2
  | none => spelled bytes

theorem spelled_injective : Function.Injective spelled := by
  intro one other same
  have letters := (List.cons_inj_right _).mp (String.ofList_inj.mp same)
  have injective : Function.Injective fun byte : UInt8 => Char.ofNat byte.toNat := by
    intro first second equal
    have numbers := congrArg Char.toNat equal
    have small : ∀ byte : UInt8, (Char.ofNat byte.toNat).toNat = byte.toNat := by
      intro byte
      have bound := byte.toNat_lt
      have valid : byte.toNat.isValidChar := .inl (by omega)
      rw [Char.ofNat, dif_pos valid]
      rfl
    simp only [small] at numbers
    exact UInt8.toNat_inj.mp numbers
  exact List.map_injective_iff.mpr injective letters

theorem knownHash_injective {known : List (List UInt8 × String)}
    (distinct : (known.map Prod.snd).Nodup)
    (marked : ∀ entry ∈ known, entry.2.toList.head? ≠ some '?') :
    Function.Injective (knownHash known) := by
  have apart : ∀ entry ∈ known, ∀ bytes, entry.2 ≠ spelled bytes := by
    intro entry member bytes same
    apply marked entry member
    rw [same, spelled, String.toList_ofList]
    rfl
  intro one other same
  rw [knownHash, knownHash] at same
  cases first : known.find? (·.1 == one) with
  | none =>
    rw [first] at same
    cases second : known.find? (·.1 == other) with
    | none =>
      rw [second] at same
      exact spelled_injective same
    | some entry =>
      rw [second] at same
      exact absurd same.symm (apart entry (List.mem_of_find?_eq_some second) one)
  | some entry =>
    rw [first] at same
    have here : entry.1 = one := by simpa using List.find?_some first
    cases second : known.find? (·.1 == other) with
    | none =>
      rw [second] at same
      exact absurd same (apart entry (List.mem_of_find?_eq_some first) other)
    | some later =>
      rw [second] at same
      have there : later.1 = other := by simpa using List.find?_some second
      have equal := eq_of_key_eq distinct (List.mem_of_find?_eq_some first)
        (List.mem_of_find?_eq_some second) same
      rw [← here, ← there, equal]

end JobAgg
