import Mathlib
import JobAgg.HttpCheckpoint.Redirects

/-! # Headers of a chain of redirects

A private header goes on to the next hop only when the scheme, the host and the port are kept.
The host that is left is compared in small letters and the host that is next as it is written, so
that they are the same when all hosts are written in small letters. -/

namespace JobAgg.HttpCheckpoint

variable {lower : List Char → List Char} {header : Header} {headers given later : List Header}
  {capture : Capture} {url target location : Url} {depth : Nat} {admits : Admits}
  {locations : List Url}

theorem toLower_of_large {letter : Char} (large : 128 ≤ letter.toNat) : letter.toLower = letter := by
  rw [Char.toLower, dif_neg]
  intro between
  have bound : letter.toNat ≤ 90 := between.2
  omega

theorem toUpper_of_large {letter : Char} (large : 128 ≤ letter.toNat) : letter.toUpper = letter := by
  rw [Char.toUpper, dif_neg]
  intro between
  have bound : letter.toNat ≤ 122 := between.2
  omega

theorem toLower_again (letter : Char) :
    letter.toLower.toLower = letter.toLower ∧ letter.toUpper.toLower = letter.toLower := by
  rcases Nat.lt_or_ge letter.toNat 128 with small | large
  · have all : ∀ number < 128,
        (Char.ofNat number).toLower.toLower = (Char.ofNat number).toLower ∧
          (Char.ofNat number).toUpper.toLower = (Char.ofNat number).toLower := by
      decide
    have found := all letter.toNat small
    rwa [Char.ofNat_toNat] at found
  · rw [toLower_of_large large, toUpper_of_large large, toLower_of_large large]
    exact ⟨rfl, rfl⟩

theorem lowerName_capitalizeName (name : List Char) :
    lowerName (capitalizeName name) = lowerName name := by
  cases name with
  | nil => rfl
  | cons first rest =>
    rw [capitalizeName, lowerName, lowerName, List.map_cons, List.map_cons, List.map_map,
      (toLower_again first).2]
    congr 1
    apply List.map_congr_left
    intro letter _
    exact (toLower_again letter).1

/-! ## What a request carries -/

def Carries (provenance : Provenance) (headers : List Header) : Prop :=
  ∃ header ∈ headers, header.provenance = provenance ∧ header.isPublic = false

theorem mem_setHeader {other : Header} (listed : other ∈ setHeader header headers) :
    other = header ∨ other ∈ headers := by
  induction headers with
  | nil => exact .inl (List.mem_singleton.mp listed)
  | cons first rest induction =>
    rw [setHeader] at listed
    split at listed
    · rcases List.mem_cons.mp listed with same | inRest
      · exact .inl same
      · exact .inr (List.mem_cons_of_mem _ inRest)
    · rcases List.mem_cons.mp listed with same | inRest
      · exact .inr (same ▸ List.mem_cons_self)
      · rcases induction inRest with same | inRest
        · exact .inl same
        · exact .inr (List.mem_cons_of_mem _ inRest)

theorem mem_updateHeaders (listed : header ∈ updateHeaders headers later) :
    header ∈ headers ∨ header ∈ later := by
  induction later generalizing headers with
  | nil => exact .inl listed
  | cons first rest induction =>
    rcases induction listed with inHeaders | inRest
    · rcases mem_setHeader inHeaders with rfl | before
      · exact .inr List.mem_cons_self
      · exact .inl before
    · exact .inr (List.mem_cons_of_mem _ inRest)

theorem mem_addHeaders {sent : List Header} (listed : header ∈ addHeaders sent headers) :
    header ∈ sent ∨ ∃ source ∈ headers, header.provenance = source.provenance ∧
      header.isPublic = source.isPublic := by
  induction headers generalizing sent with
  | nil => exact .inl listed
  | cons first rest induction =>
    rcases induction listed with inSent | ⟨source, inRest, same⟩
    · rcases mem_setHeader inSent with rfl | before
      · refine .inr ⟨first, List.mem_cons_self, rfl, ?_⟩
        rw [Header.isPublic, Header.isPublic, lowerName_capitalizeName]
      · exact .inl before
    · exact .inr ⟨source, List.mem_cons_of_mem _ inRest, same⟩

theorem mem_requestHeaders (listed : header ∈ capture.requestHeaders url given) :
    ∃ source, (source ∈ capture.client.fixedHeaders ∨ source ∈ capture.transportDefaults url ∨
      source ∈ given) ∧ header.provenance = source.provenance ∧
        header.isPublic = source.isPublic := by
  rcases mem_addHeaders listed with empty | ⟨source, inHeaders, same⟩
  · cases empty
  · refine ⟨source, ?_, same⟩
    rcases mem_updateHeaders inHeaders with before | inGiven
    · rcases mem_updateHeaders before with inFixed | inDefaults
      · exact .inl inFixed
      · exact .inr (.inl inDefaults)
    · exact .inr (.inr inGiven)

theorem provenance_of_fixed (listed : header ∈ capture.client.fixedHeaders) :
    header.provenance = .fixed := by
  rw [Client.fixedHeaders, List.mem_cons, List.mem_cons, List.mem_singleton] at listed
  rcases listed with rfl | rfl | rfl
  · rfl
  · rfl
  · rfl

theorem mem_transportDefaults (listed : header ∈ capture.transportDefaults url) :
    header.provenance = .default ∧
      (header.isPublic = false → some url.origin = capture.defaultHeaderOrigin) := by
  have all : ∀ header ∈ capture.client.defaultHeaders.map fun entry =>
      (⟨entry.1, entry.2, .default⟩ : Header), header.provenance = .default := by
    intro header inDefaults
    obtain ⟨entry, -, rfl⟩ := List.mem_map.mp inDefaults
    rfl
  simp only [Capture.transportDefaults] at listed
  split at listed
  case isTrue elsewhere =>
    obtain ⟨inDefaults, isPublic⟩ := List.mem_filter.mp listed
    refine ⟨all header inDefaults, fun isPrivate => ?_⟩
    rw [isPublic] at isPrivate
    cases isPrivate
  case isFalse home => exact ⟨all header listed, fun _ => not_not.mp home⟩

theorem carries_default (sent : Carries .default (capture.requestHeaders url given)) :
    Carries .default given ∨ some url.origin = capture.defaultHeaderOrigin := by
  obtain ⟨header, listed, fromDefaults, isPrivate⟩ := sent
  obtain ⟨source, inHeaders, provenance, isPublic⟩ := mem_requestHeaders listed
  rw [fromDefaults] at provenance
  rcases inHeaders with inFixed | inDefaults | inGiven
  · rw [provenance_of_fixed inFixed] at provenance
    cases provenance
  · exact .inr ((mem_transportDefaults inDefaults).2 (isPublic ▸ isPrivate))
  · exact .inl ⟨source, inGiven, provenance.symm, isPublic ▸ isPrivate⟩

/-! ## One redirect -/

/-- The host of a URL is written in small letters, also behind a `%`. -/
def WrittenLower (lower : List Char → List Char) (url : Url) : Prop :=
  url.host lower = url.hostname.getD []

theorem origin_of_keeps (written : WrittenLower lower url)
    (keeps : keepsDestination lower url target = true) : target.origin = url.origin := by
  rw [keepsDestination, decide_eq_true_eq] at keeps
  obtain ⟨scheme, host, port⟩ := keeps
  have hostname : url.hostname = target.hostname := by
    rw [written] at host
    cases named : url.hostname with
    | none =>
      rw [named] at host
      exact absurd host.symm target.named
    | some hostname =>
      rw [named] at host
      exact host
  rw [Url.origin, Url.origin, scheme, hostname, port]

theorem Carries.of_next {provenance : Provenance} {sent next : List Header}
    (kept : ∀ header ∈ next, header ∈ sent ∧
      (header.isPublic = true ∨ keepsDestination lower url target = true))
    (carried : Carries provenance next) :
    Carries provenance sent ∧ keepsDestination lower url target = true := by
  obtain ⟨header, listed, same, isPrivate⟩ := carried
  obtain ⟨inSent, isPublic | keeps⟩ := kept header listed
  · rw [isPrivate] at isPublic
    cases isPublic
  · exact ⟨⟨header, inSent, same, isPrivate⟩, keeps⟩

/-! ## Whole chains -/

/-- How a request goes on -/
inductive Chain (lower : List Char → List Char) (capture : Capture) :
    Url → List Header → List Hop → Prop where
  | refused (url : Url) (given : List Header) : Chain lower capture url given []
  | last (url : Url) (given : List Header) :
      Chain lower capture url given [⟨url, capture.requestHeaders url given⟩]
  | redirected (url : Url) (given : List Header) (target : Url) (next : List Header)
      (hops : List Hop) (encrypted : url.scheme = https → target.scheme = https)
      (kept : ∀ header ∈ next, header ∈ capture.requestHeaders url given ∧
        (header.isPublic = true ∨ keepsDestination lower url target = true))
      (written : WrittenLower lower target)
      (rest : Chain lower capture target next hops) :
      Chain lower capture url given (⟨url, capture.requestHeaders url given⟩ :: hops)

namespace Chain

variable {hops : List Hop} {hop other : Hop} {index before : Nat}

theorem first (chain : Chain lower capture url given hops) (found : hops[0]? = some hop) :
    hop = ⟨url, capture.requestHeaders url given⟩ := by
  cases chain with
  | refused => cases found
  | last =>
    rw [List.getElem?_cons_zero, Option.some.injEq] at found
    exact found.symm
  | redirected target next hops encrypted kept written rest =>
    rw [List.getElem?_cons_zero, Option.some.injEq] at found
    exact found.symm

theorem defaults (chain : Chain lower capture url given hops) (written : WrittenLower lower url)
    (home : Carries .default given → some url.origin = capture.defaultHeaderOrigin)
    (listed : hop ∈ hops) (carried : Carries .default hop.headers) :
    some hop.url.origin = capture.defaultHeaderOrigin := by
  have here : ∀ {url given}, (Carries .default given →
      some url.origin = capture.defaultHeaderOrigin) →
      Carries .default (capture.requestHeaders url given) →
      some url.origin = capture.defaultHeaderOrigin := by
    intro url given home carried
    rcases carries_default carried with fromGiven | origin
    · exact home fromGiven
    · exact origin
  induction chain with
  | refused => cases listed
  | last url given =>
    rw [List.mem_singleton] at listed
    subst listed
    exact here home carried
  | redirected url given target next hops encrypted kept targetWritten rest induction =>
    rcases List.mem_cons.mp listed with rfl | inRest
    · exact here home carried
    · refine induction targetWritten (fun nextCarries => ?_) inRest
      obtain ⟨sentCarries, keeps⟩ := nextCarries.of_next kept
      rw [origin_of_keeps written keeps]
      exact here home sentCarries

theorem encrypted (chain : Chain lower capture url given hops)
    (found : hops[index]? = some hop) (next : hops[index + 1]? = some other)
    (scheme : hop.url.scheme = https) : other.url.scheme = https := by
  induction chain generalizing index with
  | refused => cases found
  | last => cases next
  | redirected url given target headers hops encrypted kept written rest induction =>
    cases index with
    | zero =>
      rw [List.getElem?_cons_zero, Option.some.injEq] at found
      subst found
      rw [List.getElem?_cons_succ] at next
      rw [rest.first next]
      exact encrypted scheme
    | succ index => exact induction found next

end Chain

end JobAgg.HttpCheckpoint
