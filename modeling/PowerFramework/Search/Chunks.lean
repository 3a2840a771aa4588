import PowerFramework.Lib.PythonValue
import PowerFramework.Lib.Sha256
import PowerFramework.Lib.Splitlines
import PowerFramework.Lib.Utf8
/-!
# Chunks

`SemanticChunker.chunk` in headers mode, and the ids under which the index keeps the chunks of a
note.
-/

namespace PowerFramework.Search

open Lib Lib.Json Lib.Splitlines

/-! ## The body -/

/-- A match of `HEADER_PATTERN`: where it starts, and its second group. -/
structure HeaderMatch where
  start : Nat
  name : List Char
  deriving DecidableEq, Repr

/-- `text.strip()` -/
def stripBlanks (text : List Char) : List Char :=
  (text.dropWhile isWhitespace).rdropWhile isWhitespace

/-- `_chunk_section_identity` -/
def chunkSectionIdentity (chunkText : List Char) (ordinal : Nat) : List Char :=
  let numbered := "section-".toList ++ (toString ordinal).toList
  match (splitlines chunkText).find? fun line => (line.dropWhile isWhitespace).head? = some '#' with
  | some line =>
      let name := stripBlanks (line.dropWhile (· = '#'))
      if name = [] then numbered else name
  | none => numbered

def nul : Char := Char.ofNat 0

section
variable [PythonText]

/-- `" ".join(text.split()).casefold()` -/
def normalized (text : List Char) : List Char :=
  (PythonText.casefold (String.ofList
    ([' '].intercalate ((text.splitOnP isWhitespace).filter (· ≠ []))))).toList

end

end PowerFramework.Search
