import JobAgg.Foundation.Base32
import JobAgg.Foundation.Separators

/-! # Recovery keys as text

A recovery key is written in base32 with a checksum, in groups of four letters behind a name.
It is read in either case and with any runs of hyphens and spaces between the groups. -/

namespace JobAgg.VaultCrypto

def recoveryKeyBytes : Nat := 32
def recoveryChecksumBytes : Nat := 5
def recoveryBase32Symbols : Nat := 60

def recoveryTextPrefix : List Char := "AVRK1".toList

def recoveryChecksumDomain : List UInt8 :=
  "atlasvault-recovery-key-v1:".toList.map fun letter => UInt8.ofNat letter.toNat

def invalidRecoveryKey : String := "invalid recovery key"

abbrev Sha256 := List UInt8 → Vector UInt8 32

variable (sha256 : Sha256)

def recoveryChecksum (recoveryKey : List UInt8) : List UInt8 :=
  (sha256 (recoveryChecksumDomain ++ recoveryKey)).toList.take recoveryChecksumBytes

def encodeRecoveryKey (recoveryKey : List UInt8) : Except String (List Char) := do
  require (recoveryKey.length == recoveryKeyBytes) invalidRecoveryKey
  let symbols :=
    (b32encode (recoveryKey ++ recoveryChecksum sha256 recoveryKey)).rdropWhile (· == '=')
  require (symbols.length == recoveryBase32Symbols) invalidRecoveryKey
  return recoveryTextPrefix ++ '-' :: ['-'].intercalate (groupsOf 4 symbols)

/-- `value.encode("ascii")` -/
def isAscii (value : List Char) : Bool := value.all fun letter => decide (letter.toNat < 128)

def isBlank (letter : Char) : Bool :=
  letter == ' ' || letter == '\t' || letter == '\r' || letter == '\n'

/-- `value.strip(" \t\r\n")` -/
def strip (value : List Char) : List Char := (value.dropWhile isBlank).rdropWhile isBlank

/-- `str.upper`, of an ASCII text -/
def upper (value : List Char) : List Char := value.map Char.toUpper

/-- `[- ]` -/
def isSeparator (letter : Char) : Bool := letter == '-' || letter == ' '

def parseRecoveryKey (value : List Char) : Except String (List UInt8) := do
  require (isAscii value) invalidRecoveryKey
  let normalized := strip value
  require (!normalized.contains '=') invalidRecoveryKey
  let parts := splitRuns isSeparator (upper normalized)
  require (parts.length == 16 && parts.head? == some recoveryTextPrefix &&
    parts.tail.all fun group => group.length == 4) invalidRecoveryKey
  let symbols := parts.tail.flatten
  require (symbols.length == recoveryBase32Symbols &&
    symbols.all fun letter => (base32Value letter).isSome) invalidRecoveryKey
  let decoded ← (b32decode (symbols ++ "====".toList)).mapError fun _ => invalidRecoveryKey
  require (decoded.length == recoveryKeyBytes + recoveryChecksumBytes) invalidRecoveryKey
  let canonicalSymbols := (b32encode decoded).rdropWhile (· == '=')
  require (canonicalSymbols == symbols) invalidRecoveryKey
  let recoveryKey := decoded.take recoveryKeyBytes
  let checksum := decoded.drop recoveryKeyBytes
  require (checksum == recoveryChecksum sha256 recoveryKey) invalidRecoveryKey
  return recoveryKey

/-- A text as it is compared: trimmed, in upper case, with one hyphen for each run of hyphens
and spaces -/
def canonicalText (value : List Char) : List Char :=
  collapseRuns isSeparator '-' (upper (strip value))

/-! ## Encoded keys -/

variable {sha256} {key : List UInt8} {text value : List Char} {parts : List (List Char)}

theorem length_recoveryChecksum : (recoveryChecksum sha256 key).length = 5 := by
  rw [recoveryChecksum, List.length_take, Vector.length_toList]
  rfl

/-- The groups of an encoded key, and the bytes that they spell -/
structure Grouped (sha256 : Sha256) (key : List UInt8) (parts : List (List Char)) : Prop where
  length : parts.length = 15
  groups : ∀ group ∈ parts, group.length = 4
  sized : key.length = 32
  spelled : parts.flatten = base32Symbols (key ++ recoveryChecksum sha256 key)

theorem length_symbols (sized : key.length = 32) :
    (base32Symbols (key ++ recoveryChecksum sha256 key)).length = 60 := by
  rw [length_base32Symbols, List.length_append, length_recoveryChecksum, sized]

theorem Grouped.groupsOf_symbols (grouped : Grouped sha256 key parts) :
    groupsOf 4 (base32Symbols (key ++ recoveryChecksum sha256 key)) = parts := by
  rw [← grouped.spelled]
  exact groupsOf_flatten (by omega) grouped.groups

theorem encodeRecoveryKey_eq_ok : encodeRecoveryKey sha256 key = .ok text ↔
    ∃ parts, Grouped sha256 key parts ∧ text = ['-'].intercalate (recoveryTextPrefix :: parts) := by
  have joined : ∀ parts, Grouped sha256 key parts →
      recoveryTextPrefix ++ '-' :: ['-'].intercalate parts =
        ['-'].intercalate (recoveryTextPrefix :: parts) := by
    intro parts grouped
    have some : parts ≠ [] := by
      rintro rfl
      exact absurd grouped.length (by decide)
    rw [List.intercalate_cons_of_ne_nil some, List.append_assoc, List.singleton_append]
  rw [encodeRecoveryKey, require_bind_eq_ok, rdropWhile_b32encode, beq_iff_eq]
  dsimp only
  rw [require_bind_eq_ok, pure_eq_ok, beq_iff_eq]
  constructor
  · rintro ⟨sized, symbols, rfl⟩
    obtain ⟨parts, length, groups, spelled⟩ :=
      exists_groups (symbols.trans (show 60 = 15 * 4 from rfl))
    have grouped : Grouped sha256 key parts := ⟨length, groups, sized, spelled⟩
    rw [grouped.groupsOf_symbols]
    exact ⟨parts, grouped, joined parts grouped⟩
  · rintro ⟨parts, grouped, rfl⟩
    rw [grouped.groupsOf_symbols]
    exact ⟨grouped.sized, length_symbols grouped.sized, joined parts grouped⟩

theorem Grouped.value_of_mem (grouped : Grouped sha256 key parts) {group : List Char}
    (listed : group ∈ parts) {letter : Char} (inGroup : letter ∈ group) :
    ∃ value, base32Value letter = some value := by
  apply base32Value_of_mem
  rw [← grouped.spelled]
  exact List.mem_flatten.mpr ⟨group, listed, inGroup⟩

theorem Grouped.length_flatten (grouped : Grouped sha256 key parts) :
    parts.flatten.length = 60 := by
  rw [grouped.spelled]
  exact length_symbols grouped.sized

theorem Grouped.padded (grouped : Grouped sha256 key parts) :
    parts.flatten ++ "====".toList = b32encode (key ++ recoveryChecksum sha256 key) := by
  rw [b32encode, length_symbols grouped.sized, grouped.spelled]
  rfl

theorem parseRecoveryKey_eq_ok : parseRecoveryKey sha256 value = .ok key ↔
    isAscii value = true ∧ ∃ parts, Grouped sha256 key parts ∧
      splitRuns isSeparator (upper (strip value)) = recoveryTextPrefix :: parts := by
  rw [parseRecoveryKey, require_bind_eq_ok, require_bind_eq_ok, require_bind_eq_ok,
    require_bind_eq_ok, bind_eq_ok, Bool.and_eq_true, Bool.and_eq_true,
    Bool.and_eq_true, beq_iff_eq, beq_iff_eq, beq_iff_eq]
  constructor
  · rintro ⟨ascii, -, ⟨⟨count, name⟩, groups⟩, -, decoded, -, rest⟩
    rw [require_bind_eq_ok, require_bind_eq_ok, require_bind_eq_ok, pure_eq_ok, beq_iff_eq,
      beq_iff_eq, beq_iff_eq, rdropWhile_b32encode] at rest
    obtain ⟨size, canonical, checksum, rfl⟩ := rest
    obtain ⟨head, parts, split⟩ := List.exists_cons_of_ne_nil (@splitRuns_ne_nil _ isSeparator
      (upper (strip value)))
    rw [split, List.head?_cons, Option.some.injEq] at name
    rw [split, List.tail_cons, List.all_eq_true] at groups
    rw [split, List.length_cons] at count
    rw [split, List.tail_cons] at canonical
    refine ⟨ascii, parts, ⟨by omega, ?_, ?_, ?_⟩, by rw [split, name]⟩
    · intro group listed
      exact beq_iff_eq.mp (groups group listed)
    · rw [List.length_take, size]
      rfl
    · rw [← checksum, List.take_append_drop, canonical]
  · rintro ⟨ascii, parts, grouped, split⟩
    have unpadded : (!(strip value).contains '=') = true := by
      rw [Bool.not_eq_true', ← Bool.not_eq_true, List.contains_iff_mem]
      intro listed
      have raised : '=' ∈ upper (strip value) := List.mem_map.mpr ⟨'=', listed, by decide⟩
      have other : isSeparator '=' = false := by decide
      obtain ⟨part, member, inPart⟩ := exists_part_of_mem raised other
      rw [split] at member
      rcases List.mem_cons.mp member with rfl | inGroups
      · exact absurd inPart (by decide)
      · obtain ⟨number, found⟩ := grouped.value_of_mem inGroups inPart
        exact absurd found (by decide +revert)
    have symbols : parts.flatten.all (fun letter => (base32Value letter).isSome) = true := by
      rw [List.all_eq_true]
      intro letter listed
      obtain ⟨group, member, inGroup⟩ := List.mem_flatten.mp listed
      obtain ⟨number, found⟩ := grouped.value_of_mem member inGroup
      rw [found]
      rfl
    have groups : parts.all (fun group => group.length == 4) = true := by
      rw [List.all_eq_true]
      intro group listed
      exact beq_iff_eq.mpr (grouped.groups group listed)
    have front : (key ++ recoveryChecksum sha256 key).take recoveryKeyBytes = key :=
      List.take_left' grouped.sized
    have back : (key ++ recoveryChecksum sha256 key).drop recoveryKeyBytes =
        recoveryChecksum sha256 key :=
      List.drop_left' grouped.sized
    rw [split, List.tail_cons, List.length_cons, grouped.length, grouped.length_flatten]
    refine ⟨ascii, unpadded, ⟨⟨rfl, rfl⟩, groups⟩, ⟨rfl, symbols⟩,
      key ++ recoveryChecksum sha256 key, ?_, ?_⟩
    · rw [grouped.padded, mapError_eq_ok]
      exact b32decode_b32encode _
    · rw [require_bind_eq_ok, require_bind_eq_ok, require_bind_eq_ok, pure_eq_ok, beq_iff_eq,
        beq_iff_eq, beq_iff_eq, rdropWhile_b32encode, front, back]
      refine ⟨?_, grouped.spelled.symm, rfl, rfl⟩
      rw [List.length_append, grouped.sized, length_recoveryChecksum]
      rfl

/-! ## Comparing texts -/

theorem canonicalText_eq : canonicalText value =
    ['-'].intercalate (splitRuns isSeparator (upper (strip value))) :=
  collapseRuns_eq _

theorem parseRecoveryKey_iff : parseRecoveryKey sha256 value = .ok key ↔
    isAscii value = true ∧ encodeRecoveryKey sha256 key = .ok (canonicalText value) := by
  rw [parseRecoveryKey_eq_ok, encodeRecoveryKey_eq_ok, canonicalText_eq, and_congr_right_iff]
  intro _
  constructor
  · rintro ⟨parts, grouped, split⟩
    exact ⟨parts, grouped, by rw [split]⟩
  · rintro ⟨parts, grouped, same⟩
    refine ⟨parts, grouped, ?_⟩
    have left : ∀ part ∈ splitRuns isSeparator (upper (strip value)), '-' ∉ part := by
      intro part listed inPart
      exact absurd (unseparated_of_mem part listed '-' inPart) (by decide)
    have right : ∀ part ∈ recoveryTextPrefix :: parts, '-' ∉ part := by
      intro part listed inPart
      rcases List.mem_cons.mp listed with rfl | inGroups
      · exact absurd inPart (by decide)
      · obtain ⟨number, found⟩ := grouped.value_of_mem inGroups inPart
        exact absurd found (by decide +revert)
    rw [← List.splitOn_intercalate '-' left splitRuns_ne_nil, same,
      List.splitOn_intercalate '-' right (List.cons_ne_nil _ _)]

def isPlainLetter (letter : Char) : Bool :=
  !isBlank letter && letter.toUpper == letter && decide (letter.toNat < 128)

theorem isPlainLetter_of_value {letter : Char} {number : Nat}
    (found : base32Value letter = some number) :
    isPlainLetter letter = true ∧ isSeparator letter = false := by
  obtain ⟨bounded, rfl⟩ := base32Value_cases found
  have all : ∀ number < 32, isPlainLetter (base32Letter number) = true ∧
      isSeparator (base32Letter number) = false := by
    decide
  exact all number bounded

theorem canonicalText_encoded (encoded : encodeRecoveryKey sha256 key = .ok text) :
    isAscii text = true ∧ canonicalText text = text := by
  obtain ⟨parts, grouped, rfl⟩ := encodeRecoveryKey_eq_ok.mp encoded
  have letters : ∀ part ∈ recoveryTextPrefix :: parts, ∀ letter ∈ part,
      isPlainLetter letter = true ∧ isSeparator letter = false := by
    intro part listed letter inPart
    rcases List.mem_cons.mp listed with rfl | inGroups
    · have name : recoveryTextPrefix.all (fun letter =>
          isPlainLetter letter && !isSeparator letter) = true := by
        decide
      have plain := List.all_eq_true.mp name letter inPart
      rwa [Bool.and_eq_true, Bool.not_eq_true'] at plain
    · obtain ⟨number, found⟩ := grouped.value_of_mem inGroups inPart
      exact isPlainLetter_of_value found
  have plain : ∀ letter ∈ ['-'].intercalate (recoveryTextPrefix :: parts),
      isBlank letter = false ∧ letter.toUpper = letter ∧ letter.toNat < 128 := by
    intro letter listed
    have isPlain : isPlainLetter letter = true := by
      rcases mem_intercalate listed with rfl | ⟨part, member, inPart⟩
      · decide
      · exact (letters part member letter inPart).1
    rw [isPlainLetter, Bool.and_eq_true, Bool.and_eq_true, Bool.not_eq_true', beq_iff_eq,
      decide_eq_true_iff] at isPlain
    exact ⟨isPlain.1.1, isPlain.1.2, isPlain.2⟩
  have whole : ∀ part ∈ recoveryTextPrefix :: parts,
      part ≠ [] ∧ ∀ letter ∈ part, isSeparator letter = false := by
    intro part listed
    refine ⟨?_, fun letter inPart => (letters part listed letter inPart).2⟩
    rcases List.mem_cons.mp listed with rfl | inGroups
    · decide
    · rintro rfl
      exact absurd (grouped.groups [] inGroups) (by decide)
  have marked : isSeparator '-' = true := by decide
  have split := splitRuns_intercalate marked (List.cons_ne_nil _ _) whole
  have canonical : collapseRuns isSeparator '-' (['-'].intercalate (recoveryTextPrefix :: parts)) =
      ['-'].intercalate (recoveryTextPrefix :: parts) := by
    rw [collapseRuns_eq, split]
  generalize ['-'].intercalate (recoveryTextPrefix :: parts) = text at plain canonical
  have unstripped : strip text = text := by
    have front : text.dropWhile isBlank = text := by
      rw [List.dropWhile_eq_self_iff]
      intro some blank
      rw [(plain _ (List.getElem_mem some)).1] at blank
      cases blank
    rw [strip, front, List.rdropWhile_eq_self_iff]
    intro some blank
    rw [(plain _ (List.getLast_mem some)).1] at blank
    cases blank
  have raised : upper text = text :=
    (List.map_congr_left fun letter listed => (plain letter listed).2.1).trans text.map_id
  refine ⟨?_, ?_⟩
  · rw [isAscii, List.all_eq_true]
    intro letter listed
    exact decide_eq_true (plain letter listed).2.2
  · rw [canonicalText, unstripped, raised, canonical]

theorem parseRecoveryKey_error {reason : String}
    (failed : parseRecoveryKey sha256 value = .error reason) : reason = invalidRecoveryKey := by
  rw [parseRecoveryKey] at failed
  rcases require_bind_eq_error failed with same | failed
  · exact same
  rcases require_bind_eq_error failed with same | failed
  · exact same
  rcases require_bind_eq_error failed with same | failed
  · exact same
  rcases require_bind_eq_error failed with same | failed
  · exact same
  rcases bind_eq_error failed with undecoded | ⟨decoded, -, failed⟩
  · generalize b32decode _ = result at undecoded
    cases result with
    | error => exact (Except.error.inj undecoded).symm
    | ok => cases undecoded
  rcases require_bind_eq_error failed with same | failed
  · exact same
  rcases require_bind_eq_error failed with same | failed
  · exact same
  rcases require_bind_eq_error failed with same | failed
  · exact same
  cases failed

/-- Every key is read back from its text, and whatever text is read as a key is, as it is
compared, the text of that key. Any other text is refused as no recovery key. -/
theorem recoveryKey_text (sha256 : Sha256) :
    (∀ key : List UInt8, key.length = 32 →
      ∃ text, encodeRecoveryKey sha256 key = .ok text ∧ parseRecoveryKey sha256 text = .ok key) ∧
    ∀ value : List Char, parseRecoveryKey sha256 value = .error invalidRecoveryKey ∨
      ∃ key : List UInt8, key.length = 32 ∧ parseRecoveryKey sha256 value = .ok key ∧
        encodeRecoveryKey sha256 key = .ok (canonicalText value) := by
  constructor
  · intro key sized
    have symbols : (base32Symbols (key ++ recoveryChecksum sha256 key)).length = 15 * 4 :=
      length_symbols sized
    obtain ⟨parts, length, groups, spelled⟩ := exists_groups symbols
    have encoded := encodeRecoveryKey_eq_ok.mpr ⟨parts, ⟨length, groups, sized, spelled⟩, rfl⟩
    obtain ⟨ascii, canonical⟩ := canonicalText_encoded encoded
    exact ⟨_, encoded, parseRecoveryKey_iff.mpr ⟨ascii, canonical.symm ▸ encoded⟩⟩
  · intro value
    rcases result : parseRecoveryKey sha256 value with reason | key
    · left
      rw [parseRecoveryKey_error result]
    · obtain ⟨-, encoded⟩ := parseRecoveryKey_iff.mp result
      obtain ⟨parts, grouped, -⟩ := encodeRecoveryKey_eq_ok.mp encoded
      exact .inr ⟨key, grouped.sized, rfl, encoded⟩

/-- The digest of the domain and thirty-two zeros -/
def plainSha256 : Sha256 := fun _ =>
  #v[42, 20, 148, 36, 206, 98, 222, 179, 9, 85, 108, 49, 75, 80, 188, 17, 231, 96, 115, 208, 7, 97,
    154, 215, 118, 140, 78, 102, 202, 51, 101, 224]

/-- The zero key, typed with blanks around it, in lower case and with two separators -/
theorem recoveryKey_text_zero :
    (∃ text, encodeRecoveryKey plainSha256 (List.replicate 32 0) = .ok text ∧
      parseRecoveryKey plainSha256 text = .ok (List.replicate 32 0)) ∧
    canonicalText ("\tavrk1 -AAAA-AAAA-AAAA-AAAA-AAAA-AAAA-AAAA-AAAA-AAAA-AAAA-AAAA-AAAA-AAAC-" ++
      "UFEU--etha \n").toList = ("AVRK1-AAAA-AAAA-AAAA-AAAA-AAAA-AAAA-AAAA-AAAA-AAAA-AAAA-AAAA-" ++
      "AAAA-AAAC-UFEU-ETHA").toList := by
  refine ⟨(recoveryKey_text plainSha256).1 _ (List.length_replicate), ?_⟩
  decide

end JobAgg.VaultCrypto
