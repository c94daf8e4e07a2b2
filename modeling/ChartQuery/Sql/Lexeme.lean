import ChartQuery.Name
import ChartQuery.Text.WordChar

/-!
# Strings, quoted names and comments in query text

A query text is cut into strings, quoted names, comments and single characters of code, in one pass
from the left. Masking then hides the contents of strings and comments, so that only code is left to
be checked.

## Main definitions

* `Lexeme`: a piece of query text of one of four kinds
* `scan cs`: the pieces of a query text
* `mask s`: the query text with its strings emptied, its comments blanked and the words of its
  quoted names kept

## Main results

* `scan_text`: the pieces of a query text make up the text
-/

namespace ChartQuery.Sql

open Text (apostrophe doubleQuote isWordChar)

/-- The kinds of pieces of a query text. -/
inductive LexemeKind where
  | code
  | string
  | name
  | comment
  deriving DecidableEq, Repr

/-- A piece of query text, with the characters it consists of. -/
structure Lexeme where
  kind : LexemeKind
  text : List Char
  deriving DecidableEq, Repr

/-! ## The ends of quoted text and comments -/

/-- The characters up to the quote that closes a quoted text, and the rest. A doubled quote belongs
to the text, unless the text would then never be closed. -/
def closeQuoted (q : Char) : List Char → Option (List Char × List Char)
  | [] => none
  | c :: r =>
    if c = q then
      match r with
      | [] => some ([c], [])
      | d :: r' =>
        if d = q then
          match closeQuoted q r' with
          | some (body, rest) => some (c :: d :: body, rest)
          | none => some ([c], d :: r')
        else some ([c], d :: r')
    else (closeQuoted q r).map fun (body, rest) => (c :: body, rest)

/-- The characters up to the end of the first occurrence of a mark, and the rest. -/
def through (mark : List Char) : List Char → Option (List Char × List Char)
  | [] => none
  | c :: r =>
    if mark.isPrefixOf (c :: r) then some ((c :: r).take mark.length, (c :: r).drop mark.length)
    else (through mark r).map fun (body, rest) => (c :: body, rest)

/-- A run of word characters may tag a string: it is empty, or starts with an ASCII letter or an
underscore. -/
def isTag : List Char → Bool
  | [] => true
  | c :: _ => isNameChar c && !c.isDigit

/-- The tag between two dollar signs, the first of which stands in front, and the rest behind the
second. -/
def dollarTag? (r : List Char) : Option (List Char × List Char) :=
  match r.dropWhile isWordChar with
  | '$' :: rest =>
    if isTag (r.takeWhile isWordChar) then some (r.takeWhile isWordChar, rest) else none
  | _ => none

/-- The rest of a string in dollar tags behind its first dollar sign. -/
def closeDollar (r : List Char) : Option (List Char × List Char) := do
  let (tag, rest) ← dollarTag? r
  let mark := '$' :: tag ++ ['$']
  let (body, rest) ← through mark rest
  some (tag ++ '$' :: body, rest)

theorem closeQuoted_append {q : Char} {cs body rest : List Char}
    (h : closeQuoted q cs = some (body, rest)) : body ++ rest = cs := by
  fun_induction closeQuoted q cs generalizing body rest with
  | case1 => simp at h
  | case2 =>
    simp only [Option.some.injEq, Prod.mk.injEq] at h
    simp [← h.1, ← h.2]
  | case3 r' b t hb ih =>
    simp only [Option.some.injEq, Prod.mk.injEq] at h
    simp [← h.1, ← h.2, ih hb]
  | case4 =>
    simp only [Option.some.injEq, Prod.mk.injEq] at h
    simp [← h.1, ← h.2]
  | case5 =>
    simp only [Option.some.injEq, Prod.mk.injEq] at h
    simp [← h.1, ← h.2]
  | case6 c r _ ih =>
    obtain ⟨⟨b, t⟩, hb, he⟩ := Option.map_eq_some_iff.1 h
    simp only [Prod.mk.injEq] at he
    rw [← he.1, ← he.2, List.cons_append, ih hb]

theorem through_append {mark cs body rest : List Char}
    (h : through mark cs = some (body, rest)) : body ++ rest = cs := by
  induction cs generalizing body rest with
  | nil => simp [through] at h
  | cons c r ih =>
    rw [through] at h
    split at h
    · simp only [Option.some.injEq, Prod.mk.injEq] at h
      rw [← h.1, ← h.2, List.take_append_drop]
    · obtain ⟨⟨b, t⟩, hb, he⟩ := Option.map_eq_some_iff.1 h
      simp only [Prod.mk.injEq] at he
      rw [← he.1, ← he.2, List.cons_append, ih hb]

theorem dollarTag?_append {r tag rest : List Char} (h : dollarTag? r = some (tag, rest)) :
    tag ++ '$' :: rest = r := by
  have hr := List.takeWhile_append_dropWhile (p := isWordChar) (l := r)
  simp only [dollarTag?] at h
  split at h
  · rename_i t hd
    split at h
    · simp only [Option.some.injEq, Prod.mk.injEq] at h
      rw [← hr, hd, h.1, h.2]
    · simp at h
  · simp at h

theorem closeDollar_append {r body rest : List Char} (h : closeDollar r = some (body, rest)) :
    body ++ rest = r := by
  obtain ⟨⟨tag, t⟩, ht, h⟩ := Option.bind_eq_some_iff.1 h
  obtain ⟨⟨b, u⟩, hb, he⟩ := Option.bind_eq_some_iff.1 h
  simp only [Option.some.injEq, Prod.mk.injEq] at he
  rw [← he.1, ← he.2, ← dollarTag?_append ht, ← through_append hb]
  simp

/-! ## Scanning -/

/-- The string, quoted name or comment that starts with a character, and the rest. -/
def marked? (c : Char) (r : List Char) : Option (Lexeme × List Char) :=
  if c = apostrophe then
    (closeQuoted apostrophe r).map fun (body, rest) => (⟨.string, c :: body⟩, rest)
  else if c = '$' then
    (closeDollar r).map fun (body, rest) => (⟨.string, c :: body⟩, rest)
  else if c = doubleQuote then
    (closeQuoted doubleQuote r).map fun (body, rest) => (⟨.name, c :: body⟩, rest)
  else if c = '-' then
    match r with
    | '-' :: r' =>
      some (⟨.comment, c :: '-' :: r'.takeWhile (· != '\n')⟩, r'.dropWhile (· != '\n'))
    | _ => none
  else if c = '/' then
    match r with
    | '*' :: r' =>
      (through ['*', '/'] r').map fun (body, rest) => (⟨.comment, c :: '*' :: body⟩, rest)
    | _ => none
  else none

/-- The piece in front of a text that starts with a character, and the rest. -/
def lexeme (c : Char) (r : List Char) : Lexeme × List Char :=
  (marked? c r).getD (⟨.code, [c]⟩, r)

theorem marked?_append {c : Char} {r rest : List Char} {l : Lexeme}
    (h : marked? c r = some (l, rest)) : l.text ++ rest = c :: r := by
  unfold marked? at h
  split at h
  · obtain ⟨⟨b, t⟩, hb, he⟩ := Option.map_eq_some_iff.1 h
    simp only [Prod.mk.injEq] at he
    rw [← he.1, ← he.2, List.cons_append, closeQuoted_append hb]
  split at h
  · obtain ⟨⟨b, t⟩, hb, he⟩ := Option.map_eq_some_iff.1 h
    simp only [Prod.mk.injEq] at he
    rw [← he.1, ← he.2, List.cons_append, closeDollar_append hb]
  split at h
  · obtain ⟨⟨b, t⟩, hb, he⟩ := Option.map_eq_some_iff.1 h
    simp only [Prod.mk.injEq] at he
    rw [← he.1, ← he.2, List.cons_append, closeQuoted_append hb]
  split at h
  · split at h
    · simp only [Option.some.injEq, Prod.mk.injEq] at h
      rw [← h.1, ← h.2]
      simp [List.takeWhile_append_dropWhile]
    · simp at h
  split at h
  · split at h
    · obtain ⟨⟨b, t⟩, hb, he⟩ := Option.map_eq_some_iff.1 h
      simp only [Prod.mk.injEq] at he
      rw [← he.1, ← he.2]
      simp [through_append hb]
    · simp at h
  · simp at h

theorem lexeme_append (c : Char) (r : List Char) :
    (lexeme c r).1.text ++ (lexeme c r).2 = c :: r := by
  unfold lexeme
  cases h : marked? c r with
  | none => simp
  | some p => exact marked?_append h

theorem marked?_text_pos {c : Char} {r rest : List Char} {l : Lexeme}
    (h : marked? c r = some (l, rest)) : 0 < l.text.length := by
  unfold marked? at h
  repeat' split at h
  all_goals
    first
    | obtain ⟨⟨b, t⟩, hb, he⟩ := Option.map_eq_some_iff.1 h
      simp only [Prod.mk.injEq] at he
      simp [← he.1]
    | (simp only [Option.some.injEq, Prod.mk.injEq] at h
       simp [← h.1])
    | simp at h

theorem lexeme_rest_length (c : Char) (r : List Char) : (lexeme c r).2.length ≤ r.length := by
  have h := congrArg List.length (lexeme_append c r)
  have hpos : 0 < (lexeme c r).1.text.length := by
    unfold lexeme
    cases h : marked? c r with
    | none => simp
    | some p => exact marked?_text_pos h
  simp only [List.length_append, List.length_cons] at h
  omega

/-- The pieces of a text of at most `fuel` characters. -/
def scanWithin : Nat → List Char → List Lexeme
  | _, [] => []
  | 0, _ :: _ => []
  | fuel + 1, c :: r => (lexeme c r).1 :: scanWithin fuel (lexeme c r).2

/-- The pieces of a query text. -/
def scan (cs : List Char) : List Lexeme := scanWithin cs.length cs

theorem scanWithin_text {fuel : Nat} {cs : List Char} (h : cs.length ≤ fuel) :
    (scanWithin fuel cs).flatMap Lexeme.text = cs := by
  induction fuel generalizing cs with
  | zero =>
    cases cs with
    | nil => rfl
    | cons c r => simp at h
  | succ fuel ih =>
    cases cs with
    | nil => rfl
    | cons c r =>
      have hr := lexeme_rest_length c r
      simp only [List.length_cons] at h
      rw [scanWithin, List.flatMap_cons, ih (by omega), lexeme_append]

/-- The pieces of a query text make up the text. -/
theorem scan_text (cs : List Char) : (scan cs).flatMap Lexeme.text = cs :=
  scanWithin_text (Nat.le_refl _)

/-! ## Masking -/

/-- A character of a quoted name as masking shows it. -/
def nameCharOrBlank (c : Char) : Char := if isNameChar c then c else ' '

/-- What masking leaves of a piece: code as it is, empty quotes for a string, a blank for a comment,
and of a quoted name its name characters, with blanks around it and for all others. -/
def Lexeme.masked (l : Lexeme) : List Char :=
  match l.kind with
  | .code => l.text
  | .string => [apostrophe, apostrophe]
  | .name => ' ' :: l.text.map nameCharOrBlank ++ [' ']
  | .comment => [' ']

/-- The characters of a query text after masking. -/
def maskChars (cs : List Char) : List Char := (scan cs).flatMap Lexeme.masked

/-- The query text after masking. -/
def mask (s : String) : String := String.ofList (maskChars s.toList)

end ChartQuery.Sql
