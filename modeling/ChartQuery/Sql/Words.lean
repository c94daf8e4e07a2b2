import ChartQuery.Sql.Lexeme
import ChartQuery.Text.Blank

/-!
# The rules on words of masked query text

A custom query may not use the words that change data or reach outside the database, call functions
that read files, read a file in place of a table, or hold too many selections.

## Main definitions

* `wordRuns cs`: the runs of word characters of a text, each with the text behind it
* `isPlainWord run`: the run is a word, of ASCII name characters of which the first is no digit
* `WordFault`: a breach of the rules
* `checkWords cs`: the first breach of the rules in masked query text
-/

namespace ChartQuery.Sql

open Text (isWordChar isBlank apostrophe)

/-! ## Words -/

/-- The runs of word characters of a text of at most `fuel` characters. -/
def wordRunsWithin : Nat → List Char → List (List Char × List Char)
  | _, [] => []
  | 0, _ :: _ => []
  | fuel + 1, c :: r =>
    if isWordChar c then
      (c :: r.takeWhile isWordChar, r.dropWhile isWordChar) ::
        wordRunsWithin fuel (r.dropWhile isWordChar)
    else wordRunsWithin fuel r

/-- The runs of word characters of a text, each with the text behind it. -/
def wordRuns (cs : List Char) : List (List Char × List Char) := wordRunsWithin cs.length cs

/-- The run is a word: ASCII name characters, of which the first is no digit. -/
def isPlainWord : List Char → Bool
  | [] => false
  | c :: r => isNameChar c && !c.isDigit && r.all isNameChar

/-- A word in capitals. -/
def capitals (w : List Char) : String := String.ofList (w.map Char.toUpper)

/-- The words of a text in capitals, each with the text behind it. -/
def words (cs : List Char) : List (String × List Char) :=
  ((wordRuns cs).filter fun (w, _) => isPlainWord w).map fun (w, rest) => (capitals w, rest)

/-! ## Rules -/

/-- The words that a custom query may not contain. -/
def blockedWords : List String :=
  ["INSERT", "UPDATE", "DELETE", "DROP", "ALTER", "CREATE", "TRUNCATE", "EXEC", "EXECUTE", "MERGE",
    "GRANT", "REVOKE", "DENY", "OPENROWSET", "OPENDATASOURCE", "BULK", "BACKUP", "RESTORE",
    "SHUTDOWN", "KILL", "DBCC", "CHECKPOINT", "ATTACH", "DETACH", "COPY", "INSTALL", "LOAD",
    "PRAGMA"]

/-- The beginnings of words that a custom query may not contain: those of system procedures. -/
def blockedBeginnings : List String := ["XP_", "SP_"]

/-- The functions that a custom query may not call. -/
def blockedFunctions : List String := ["GLOB", "GETENV", "QUERY", "QUERY_TABLE"]

/-- The most selections in a custom query. -/
def maxSelects : Nat := 10

/-- The word may not stand in a custom query. -/
def isBlockedWord (w : String) : Bool :=
  blockedWords.contains w || blockedBeginnings.any fun b => b.toList.isPrefixOf w.toList

/-- The function may not be called in a custom query: it is listed, reads files or scans them. -/
def isBlockedFunction (f : String) : Bool :=
  blockedFunctions.contains f || "READ_".toList.isPrefixOf f.toList ||
    "_SCAN".toList.isSuffixOf f.toList

/-- The text goes on with an opening parenthesis, after any blanks. -/
def opensCall (rest : List Char) : Bool :=
  match rest.dropWhile isBlank with
  | c :: _ => c == '('
  | [] => false

/-- The text goes on with at least one blank and then a string. -/
def opensString (rest : List Char) : Bool :=
  match rest with
  | c :: r =>
    isBlank c &&
      match r.dropWhile isBlank with
      | a :: b :: _ => a == apostrophe && b == apostrophe
      | _ => false
  | [] => false

/-- A letter as the word that introduces a source of rows is compared: the dotted and the dotless i
count as the plain one. -/
def foldLetter (c : Char) : Char :=
  if c.toNat = 0x130 || c.toNat = 0x131 then 'I' else c.toUpper

/-- The run introduces a source of rows. -/
def introducesSource (run : List Char) : Bool :=
  let w := run.map foldLetter
  w == "FROM".toList || w == "JOIN".toList

/-- A breach of the rules on custom queries. -/
inductive WordFault where
  | word (w : String)
  | function (f : String)
  | readsFile
  | tooManySelects
  deriving DecidableEq, Repr

/-- What a breach of the rules says. -/
def WordFault.message : WordFault → String
  | word w => "Keyword not allowed: " ++ w
  | function f => "Function not allowed: " ++ f
  | readsFile => "Reading files is not allowed"
  | tooManySelects =>
    "Query complexity too high. Maximum " ++ toString maxSelects ++ " SELECT statements allowed"

/-- The first breach of the rules in masked query text: blocked words come first, then function
calls, files read in place of tables, and the number of selections. -/
def checkWords (cs : List Char) : Option WordFault :=
  let ws := words cs
  match ws.find? fun (w, _) => isBlockedWord w with
  | some (w, _) => some (.word w)
  | none =>
    match ws.find? fun (w, rest) => isBlockedFunction w && opensCall rest with
    | some (f, _) => some (.function f)
    | none =>
      if (wordRuns cs).any fun (run, rest) => introducesSource run && opensString rest then
        some .readsFile
      else if maxSelects < ws.countP fun (w, _) => w == "SELECT" then some .tooManySelects
      else none

end ChartQuery.Sql
