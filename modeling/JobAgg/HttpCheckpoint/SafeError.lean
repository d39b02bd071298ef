import JobAgg.Foundation.Words
import JobAgg.HttpCheckpoint.UrlText

/-! # Diagnostics without secrets

`safe_url` takes the values of sensitive parameters out of a URL, and `safe_error` does so with
the URLs that it finds in the text of an exception. -/

namespace JobAgg.HttpCheckpoint

/-- `[^\s<>"']` -/
def isUrlLetter (letter : Char) : Bool := !isSpace letter && letter ∉ ['<', '>', '"', '\'']

def smallSchemes : List (List Char) := ["http".toList, "https".toList]

/-- The length of a match of `https?://[^\s<>"']+` at the start of a text, of which letters are
compared as they are folded -/
def urlLength (fold : Char → Char) (text : List Char) : Option Nat :=
  let scheme := text.takeWhile (· ≠ ':')
  let rest := text.drop scheme.length
  if smallSchemes.contains (scheme.map fold) ∧ rest.take 3 = [':', '/', '/'] then
    let tail := (rest.drop 3).takeWhile isUrlLetter
    if tail = [] then none else some (scheme.length + 3 + tail.length)
  else none

/-- A letter of a text that is in no URL, or a URL -/
inductive Piece where
  | letter (letter : Char)
  | url (url : List Char)
deriving DecidableEq

/-- The pieces of a text behind letters of a URL that are skipped: its URLs are the matches from
the left, with a scheme in any case -/
def piecesFrom : Nat → List Char → List Piece
  | _, [] => []
  | skipped + 1, _ :: rest => piecesFrom skipped rest
  | 0, letter :: rest =>
    match urlLength Char.toLower (letter :: rest) with
    | none => .letter letter :: piecesFrom 0 rest
    | some size => .url ((letter :: rest).take size) :: piecesFrom (size - 1) rest

def pieces (text : List Char) : List Piece := piecesFrom 0 text

variable {text other rest : List Char} {letter : Char} {size skipped : Nat}

section Shouted

variable {scheme value : List Char}

end Shouted

end JobAgg.HttpCheckpoint
