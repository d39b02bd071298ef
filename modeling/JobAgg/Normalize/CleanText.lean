import JobAgg.Foundation.CharacterReferences
import JobAgg.Foundation.Separators
import JobAgg.Foundation.Words

/-! # Text without markup

Markup is replaced by spaces, then references by their letters, and then markup once more, for
pages that are encoded as a whole. -/

namespace JobAgg.Normalize

/-- `\w` and the names of the HTML standard -/
structure TextLibrary where
  isWord : Char → Bool
  html5 : List Char → Option (List Char)

def lowered (letter : Char) : Char :=
  if letter.toNat = 0x130 then 'i'
  else if letter.toNat = 0x212a then 'k'
  else letter.toLower

/-- `re.I`, of a small letter of a pattern -/
def ignoresCase (plain letter : Char) : Bool :=
  lowered letter == plain || (plain == 'i' && letter.toNat == 0x131) ||
    (plain == 's' && letter.toNat == 0x17f)

def startsWithName (name text : List Char) : Bool :=
  decide (name.length ≤ text.length) && (name.zipWith ignoresCase text).all id

/-- `</\1\s*>`: the length of an end tag of what was matched as a name -/
def closingTag (name text : List Char) : Option Nat :=
  let rest := text.drop (2 + name.length)
  let spaces := (rest.takeWhile isSpace).length
  if text.take 2 = ['<', '/'] ∧
      ((text.drop 2).take name.length).map lowered = name.map lowered ∧
      rest[spaces]? = some '>' then some (2 + name.length + spaces + 1)
  else none

/-- `_SCRIPT_OR_STYLE_RE`: the length of a block that starts a text -/
def scriptOrStyle (isWord : Char → Bool) : List Char → Option Nat
  | '<' :: rest =>
    ["script".toList, "style".toList].findSome? fun plain =>
      let name := rest.take plain.length
      let after := rest.drop plain.length
      if startsWithName plain rest ∧ after.head?.all (!isWord ·) then do
        let opening ← after.findIdx? (· == '>')
        let body := after.drop (opening + 1)
        let closing ← findWithin (closingTag name) body
        return 1 + name.length + opening + 1 + closing
      else none
  | _ => none

/-- `_HTML_COMMENT_RE` -/
def htmlComment (text : List Char) : Option Nat :=
  if text.take 4 = "<!--".toList then
    (findWithin (fun rest => if rest.take 3 = "-->".toList then some 3 else none)
      (text.drop 4)).map (4 + ·)
  else none

def htmlTags : List (List Char) :=
  ("a abbr acronym address applet area article aside audio b base basefont bdi bdo " ++
    "big blockquote body br button canvas caption center cite code col colgroup data " ++
    "datalist dd del details dfn dialog dir div dl dt em embed fieldset figcaption " ++
    "figure font footer form frame frameset h1 h2 h3 h4 h5 h6 head header hgroup hr " ++
    "html i iframe img input ins kbd label legend li link main map mark menu meta " ++
    "meter nav noframes noscript object ol optgroup option output p param picture " ++
    "pre progress q rp rt ruby s samp script search section select slot small source " ++
    "span strike strong style sub summary sup svg table tbody td template textarea " ++
    "tfoot th thead time title tr track tt u ul var video wbr path g use symbol").toList.splitOn ' '

/-- `_TAG_RE` -/
def tag : List Char → Option Nat
  | '<' :: rest =>
    let slash := if rest.head? = some '/' then 1 else 0
    htmlTags.findSome? fun name =>
      let after := rest.drop (slash + name.length)
      let inside := (after.takeWhile fun letter => letter != '<' && letter != '>').length
      if startsWithName name (rest.drop slash) ∧
          after.head?.any (fun letter => isSpace letter || letter == '/' || letter == '>') ∧
          after[inside]? = some '>' then
        some (1 + slash + name.length + inside + 1)
      else none
  | _ => none

/-- Blocks, comments and tags replaced by spaces -/
def withoutMarkup (isWord : Char → Bool) (text : List Char) : List Char :=
  replaceMatches tag [' '] (replaceMatches htmlComment [' ']
    (replaceMatches (scriptOrStyle isWord) [' '] text))

def cleanText (library : TextLibrary) :
    Option (List Char) → Except String (Option (List Char))
  | none => .ok none
  | some value => do
    let text ← unescape library.html5 (withoutMarkup library.isWord value)
    let text := withoutMarkup library.isWord text
    let text := stripSpace (collapseRuns isSpace ' ' text)
    return if text = [] then none else some text

variable {library : TextLibrary} {value : List Char}

theorem cleanText_isOk_iff : (∃ cleaned, cleanText library (some value) = .ok cleaned) ↔
    ∀ count, isLongReference ((withoutMarkup library.isWord value).drop count) = false := by
  rw [← @unescape_isOk_iff library.html5]
  constructor
  · rintro ⟨cleaned, done⟩
    obtain ⟨text, read, -⟩ := bind_eq_ok.mp done
    exact ⟨text, read⟩
  · rintro ⟨text, read⟩
    exact ⟨_, bind_eq_ok.mpr ⟨text, read, rfl⟩⟩

end JobAgg.Normalize
