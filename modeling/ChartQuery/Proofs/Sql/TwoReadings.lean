import ChartQuery.Proofs.Sql.Beginnings
import Mathlib.Data.List.Infix

/-!
# Two readings of a query text

Masking and the database each cut a query text into pieces, by rules of their own. Both end plain
strings, quoted names, comments that hold no other and strings in dollar tags at the same place; all
else that the database reads, masking takes for code, unless a dollar sign within a word opens a
string for it. So the two readings agree on every piece but those of six kinds, which are named
here.

## Main definitions

* `Piece`, `pieces? cs`, `Cuts cs ps`: the pieces into which the database cuts a text
* `Piece.isMisread p`: masking may end the piece elsewhere, or join it to its neighbour
* `Shows p m`: what masking shows of a piece

## Main results

* `tokens?_eq`: the tokens of a text are those of its pieces
* `isShown_of_step`: masking shows every piece that it does not misread
-/

namespace ChartQuery.Sql

open Text (apostrophe doubleQuote isWordChar isBlank)

/-! ## Pieces -/

/-- A piece of query text as the database cuts it: what it counts for, its first character with the
text behind that, and the text behind the piece. -/
structure Piece where
  token : Option Token
  first : Char
  behind : List Char
  rest : List Char
  deriving DecidableEq

/-- The pieces of a text of at most `fuel` characters. -/
def piecesWithin? : Nat → List Char → Option (List Piece)
  | _, [] => some []
  | 0, _ :: _ => none
  | fuel + 1, c :: r => do
    let (token, rest) ← step c r
    let more ← piecesWithin? fuel rest
    some (⟨token, c, r, rest⟩ :: more)

/-- The pieces of a text, unless a string, a name or a comment is not closed. -/
def pieces? (cs : List Char) : Option (List Piece) := piecesWithin? cs.length cs

theorem tokensWithin?_eq (fuel : Nat) (cs : List Char) :
    tokensWithin? fuel cs = (piecesWithin? fuel cs).map fun ps => ps.filterMap Piece.token := by
  -- Induction on the fuel: both take the same step, and fail together.
  induction fuel generalizing cs with
  | zero => cases cs <;> rfl
  | succ fuel ih =>
    cases cs with
    | nil => rfl
    | cons c r =>
      rw [tokensWithin?, piecesWithin?]
      cases step c r with
      | none => rfl
      | some s =>
        obtain ⟨token, rest⟩ := s
        simp only [Option.bind_eq_bind, Option.bind_some, ih]
        cases piecesWithin? fuel rest with
        | none => rfl
        | some ps => cases token <;> rfl

/-- The tokens of a text are those of its pieces. -/
theorem tokens?_eq (s : String) :
    tokens? s = (pieces? s.toList).map fun ps => ps.filterMap Piece.token :=
  tokensWithin?_eq _ _

/-- The database cuts a text into pieces, one step after the other. -/
inductive Cuts : List Char → List Piece → Prop
  | nil : Cuts [] []
  | cons {c : Char} {r rest : List Char} {token : Option Token} {ps : List Piece}
    (hstep : step c r = some (token, rest)) (hrest : Cuts rest ps) :
    Cuts (c :: r) (⟨token, c, r, rest⟩ :: ps)

theorem cuts_of_piecesWithin? {fuel : Nat} {cs : List Char} {ps : List Piece}
    (h : piecesWithin? fuel cs = some ps) : Cuts cs ps := by
  induction fuel generalizing cs ps with
  | zero =>
    cases cs with
    | nil =>
      obtain rfl : [] = ps := Option.some.inj h
      exact .nil
    | cons c r => simp [piecesWithin?] at h
  | succ fuel ih =>
    cases cs with
    | nil =>
      obtain rfl : [] = ps := Option.some.inj h
      exact .nil
    | cons c r =>
      obtain ⟨⟨token, rest⟩, hstep, h⟩ := Option.bind_eq_some_iff.1 h
      obtain ⟨more, hmore, he⟩ := Option.bind_eq_some_iff.1 h
      obtain rfl : _ :: more = ps := Option.some.inj he
      exact .cons hstep (ih hmore)

/-! ## Misread pieces -/

namespace Piece

variable (p : Piece)

/-- A string with escapes that does not end where a plain one would. -/
def escapesQuote : Bool :=
  (p.first == 'e' || p.first == 'E') && p.behind.head? == some apostrophe &&
    (closeQuoted apostrophe (p.behind.drop 1)).map (·.2) != some p.rest

/-- A word in which a dollar sign opens a string for masking. -/
def opensDollar : Bool :=
  match p.token with
  | some (.word w) => w.toList.tails.any fun
    | '$' :: v => (closeDollar (v ++ p.rest)).isSome
    | _ => false
  | _ => false

/-- A comment that holds another one. -/
def nestsComment : Bool :=
  p.first == '/' && p.behind.head? == some '*' &&
    (through ['*', '/'] (p.behind.drop 1)).map (·.2) != some p.rest

/-- A comment that ends with a carriage return inside of a line. -/
def endsWithinLine : Bool :=
  p.first == '-' && p.behind.head? == some '-' &&
    match p.rest with
    | '\r' :: c :: _ => c != '\n'
    | _ => false

/-- A string in dollar tags whose tag is none for masking. -/
def foreignTag : Bool :=
  p.first == '$' && (stringTag? p.behind).isSome && (dollarTag? p.behind).isNone

/-- A number directly in front of a word. -/
def touchesWord : Bool :=
  match p.token with
  | some (.number n) => n.toList.getLast?.all isWordChar && p.rest.head?.any startsWord
  | _ => false

/-- Masking may end the piece elsewhere, or join it to its neighbour. -/
def isMisread : Bool :=
  p.escapesQuote || p.opensDollar || p.nestsComment || p.endsWithinLine || p.foreignTag ||
    p.touchesWord

/-- A blank without any width, which masking does not take for a blank. -/
def isThin : Bool := isTokenBlank p.first && !isBlank p.first

end Piece

/-! ## Where strings and names end -/

/-- Masking ends a string or a quoted name where the database ends it. -/
theorem closeQuoted_of_quotedContent? {q : Char} {cs body rest : List Char}
    (h : quotedContent? q cs = some (body, rest)) :
    ∃ text, closeQuoted q cs = some (text, rest) ∧ (q ∉ body → text = body ++ [q]) := by
  -- Both readings run through the text alike, and keep different parts of it.
  fun_induction quotedContent? q cs generalizing body rest with
  | case1 => simp at h
  | case2 =>
    -- the text ends with the quote
    simp only [Option.some.injEq, Prod.mk.injEq] at h
    obtain ⟨rfl, rfl⟩ := h
    exact ⟨_, by simp [closeQuoted], fun _ => rfl⟩
  | case3 r' ih =>
    -- a doubled quote stands for one within the content
    obtain ⟨⟨b, t⟩, hb, he⟩ := Option.map_eq_some_iff.1 h
    obtain ⟨rfl, rfl⟩ := Prod.mk.inj he
    obtain ⟨text, htext, -⟩ := ih hb
    exact ⟨_, by simp [closeQuoted, htext]; rfl, fun hq => absurd List.mem_cons_self hq⟩
  | case4 d r' hd =>
    -- a quote with something else behind it ends the content
    simp only [Option.some.injEq, Prod.mk.injEq] at h
    obtain ⟨rfl, rfl⟩ := h
    exact ⟨_, by simp [closeQuoted, hd], fun _ => rfl⟩
  | case5 c r hc ih =>
    -- any other character belongs to the content
    obtain ⟨⟨b, t⟩, hb, he⟩ := Option.map_eq_some_iff.1 h
    obtain ⟨rfl, rfl⟩ := Prod.mk.inj he
    obtain ⟨text, htext, hbody⟩ := ih hb
    refine ⟨c :: text, ?_, fun hq => ?_⟩
    · rw [closeQuoted.eq_def]
      simp [hc, htext]
    · rw [hbody fun h => hq (List.mem_cons_of_mem _ h), List.cons_append]

/-- What opens a string in dollar tags for masking opens it for the database. -/
theorem stringTag?_of_dollarTag? {r : List Char} {p : List Char × List Char}
    (h : dollarTag? r = some p) : stringTag? r = some p := by
  obtain ⟨tag, rest⟩ := p
  have hr := dollarTag?_append h
  unfold dollarTag? at h
  split at h
  case h_2 => simp at h
  rename_i t hd
  split at h
  case isFalse => simp at h
  rename_i htag
  simp only [Option.some.injEq, Prod.mk.injEq] at h
  obtain ⟨rfl, rfl⟩ := h
  -- The run of word characters ends with a dollar sign, which continues no tag either.
  have hall : ∀ c ∈ r.takeWhile isWordChar, continuesTag c = true := fun c hc =>
    continuesTag_of_isWordChar (List.mem_takeWhile_imp hc)
  have hdollar : ∀ c ∈ ('$' :: t).head?, continuesTag c = false := by
    rintro _ ⟨⟩
    decide
  have hrun := takeWhile_run hall hdollar
  rw [hr] at hrun
  have hstart : (r.takeWhile isWordChar).head?.all startsWord = true := by
    revert htag
    cases r.takeWhile isWordChar with
    | nil => simp
    | cons c w =>
      intro htag
      simp [isTag] at htag
      simp [startsWord, htag]
  simp only [stringTag?, hrun, hstart, if_true]

/-! ## What masking shows of a piece -/

/-- The character neither quotes a name nor separates statements. -/
def isQuiet (c : Char) : Bool := c != doubleQuote && c != ';'

/-- What masking shows of a piece: a word or a symbol as it is, a quoted name between blanks, blanks
alone of a piece that counts for nothing; and what it shows does not run into a word behind the
piece, nor holds a double quote, nor a semicolon unless that is the piece. -/
structure Shows (p : Piece) (m : List Char) : Prop where
  edge : (∀ b ∈ p.rest.head?, startsWord b = false) ∨
    ∃ a, m.getLast? = some a ∧ isWordChar a = false
  word : ∀ w, p.token = some (.word w) → m = w.toList ∧ ∀ b ∈ p.rest.head?, continuesWord b = false
  name : ∀ f, p.token = some (.name f) → (∀ c ∈ f.toList, isNameChar c = true) →
    m = ' ' :: ' ' :: (f.toList ++ [' ', ' '])
  gap : p.token = none → p.isThin = false → ∀ a ∈ m, isBlank a = true
  symbol : ∀ s, p.token = some (.symbol s) → m = s.toList
  quiet : (∀ a ∈ m, isQuiet a = true) ∨ m = [';'] ∧ p.token = some (.symbol ";")

/-- The text is the masked form of another, which may have lost a carriage return in front of the
end of its line: masking counts that to a comment, the database does not. -/
def MaskedAs (masked cs : List Char) : Prop :=
  masked = maskChars cs ∨
    ∃ cs', cs = '\r' :: cs' ∧ (∀ b ∈ cs'.head?, b = '\n') ∧ masked = maskChars cs'

/-- A masked text shows a piece, and behind it the text behind the piece. -/
def IsShown (p : Piece) (masked : List Char) : Prop :=
  ∃ m masked', masked = m ++ masked' ∧ MaskedAs masked' p.rest ∧ Shows p m

section Kinds

variable {c : Char} {r rest : List Char}

theorem maskedAs_of_ne {masked : List Char} (h : MaskedAs masked (c :: r)) (hc : c ≠ '\r') :
    masked = maskChars (c :: r) := by
  rcases h with h | ⟨cs', he, -, -⟩
  · exact h
  · exact absurd (List.cons.inj he).1 hc

theorem isShown_blank {masked : List Char} (hc : isTokenBlank c = true)
    (h : MaskedAs masked (c :: r)) : IsShown ⟨none, c, r, r⟩ masked := by
  have hall : ∀ n ∈ tokenBlanks, Char.ofNat n ∉ markChars := by decide +kernel
  have hmark : c ∉ markChars := by
    rw [← Char.ofNat_toNat c]
    exact hall _ (mem_tokenBlanks hc)
  rcases h with rfl | ⟨cs', he, hhead, rfl⟩
  -- the blank itself is shown
  · refine ⟨[c], maskChars r, maskChars_of_not_marked? (marked?_of_notMem hmark r), .inl rfl, ?_⟩
    refine ⟨.inr ⟨c, rfl, isWordChar_of_isTokenBlank hc⟩, by simp, by simp, ?_, by simp, .inl ?_⟩
    · intro _ hthin a ha
      rw [List.mem_singleton.1 ha]
      simpa [Piece.isThin, hc] using hthin
    · have hquiet : ∀ n ∈ tokenBlanks, isQuiet (Char.ofNat n) = true := by decide +kernel
      intro a ha
      rw [List.mem_singleton.1 ha, ← Char.ofNat_toNat c]
      exact hquiet _ (mem_tokenBlanks hc)
  -- the blank is the carriage return that masking has counted to a comment
  · obtain ⟨rfl, rfl⟩ := List.cons.inj he
    refine ⟨[], maskChars r, rfl, .inl rfl, .inl fun b hb => ?_, by simp, by simp, by simp, by simp,
      .inl (by simp)⟩
    rw [hhead b hb]
    decide

theorem isShown_string {body : List Char} (h : quotedContent? apostrophe r = some (body, rest))
    (s : String) :
    IsShown ⟨some (.string s), apostrophe, r, rest⟩ (maskChars (apostrophe :: r)) := by
  obtain ⟨text, htext, -⟩ := closeQuoted_of_quotedContent? h
  have hmark : marked? apostrophe r = some (⟨.string, apostrophe :: text⟩, rest) := by
    simp [marked?, htext]
  refine ⟨[apostrophe, apostrophe], maskChars rest, maskChars_of_marked? hmark, .inl rfl, ?_⟩
  exact ⟨.inr ⟨apostrophe, rfl, by decide⟩, by simp, by simp, by simp, by simp, .inl (by decide)⟩

theorem isQuiet_of_continuesWord {c : Char} (h : continuesWord c = true) : isQuiet c = true := by
  have hquote : continuesWord doubleQuote = false := by decide
  have hsemicolon : continuesWord ';' = false := by decide
  simp only [isQuiet, Bool.and_eq_true, bne_iff_ne]
  constructor
  · rintro rfl
    rw [hquote] at h
    exact absurd h (by decide)
  · rintro rfl
    rw [hsemicolon] at h
    exact absurd h (by decide)

theorem isQuiet_nameCharOrBlank (c : Char) : isQuiet (nameCharOrBlank c) = true := by
  rw [nameCharOrBlank]
  split
  · rename_i hc
    exact isQuiet_of_continuesWord (by simp [continuesWord, hc])
  · decide

theorem isShown_name {body : List Char} (h : quotedContent? doubleQuote r = some (body, rest)) :
    IsShown ⟨some (.name (String.ofList body)), doubleQuote, r, rest⟩
      (maskChars (doubleQuote :: r)) := by
  obtain ⟨text, htext, hbody⟩ := closeQuoted_of_quotedContent? h
  have hne : doubleQuote ≠ apostrophe ∧ doubleQuote ≠ '$' := by decide
  have hmark : marked? doubleQuote r = some (⟨.name, doubleQuote :: text⟩, rest) := by
    simp [marked?, htext, hne]
  refine ⟨_, maskChars rest, maskChars_of_marked? hmark, .inl rfl, ?_⟩
  have hquiet : ∀ a ∈ ' ' :: (doubleQuote :: text).map nameCharOrBlank ++ [' '],
      isQuiet a = true := by
    intro a ha
    rcases List.mem_append.1 ha with ha | ha
    · rcases List.mem_cons.1 ha with rfl | ha
      · decide
      · obtain ⟨c, -, rfl⟩ := List.mem_map.1 ha
        exact isQuiet_nameCharOrBlank c
    · rw [List.mem_singleton.1 ha]
      decide
  refine ⟨.inr ⟨' ', List.getLast?_concat, by decide⟩, by simp, ?_, by simp, by simp, .inl hquiet⟩
  rintro _ ⟨⟩ hchars
  rw [String.toList_ofList] at hchars ⊢
  -- A plain name holds no quote, so that masking keeps all of it and blanks the quotes around it.
  have hquote : doubleQuote ∉ body := fun hq => absurd (hchars _ hq) (by decide)
  have hshown : body.map nameCharOrBlank = body :=
    (List.map_congr_left fun d hd => if_pos (hchars d hd)).trans (List.map_id' body)
  have hblank : nameCharOrBlank doubleQuote = ' ' := by decide
  rw [hbody hquote, Lexeme.masked]
  simp only [List.map_cons, List.map_append, hshown, hblank, List.map_nil, List.append_assoc,
    List.cons_append, List.nil_append]

theorem isShown_comment {masked : List Char} (h : maskChars (c :: r) = ' ' :: masked)
    (hrest : MaskedAs masked rest) :
    IsShown ⟨none, c, r, rest⟩ (maskChars (c :: r)) := by
  refine ⟨[' '], masked, h, hrest, .inr ⟨' ', rfl, by decide⟩, by simp, by simp, ?_, by simp,
    .inl (by decide)⟩
  intro _ _ a ha
  rw [List.mem_singleton.1 ha]
  decide

/-- A comment to the end of its line ends for masking where it ends for the database, or behind the
carriage return in front of the line feed. -/
theorem isShown_lineComment
    (h : (Piece.mk none '-' ('-' :: r) (r.dropWhile (!endsLine ·))).endsWithinLine = false) :
    IsShown ⟨none, '-', '-' :: r, r.dropWhile (!endsLine ·)⟩ (maskChars ('-' :: '-' :: r)) := by
  have hmark : marked? '-' ('-' :: r) =
      some (⟨.comment, '-' :: '-' :: r.takeWhile (· != '\n')⟩, r.dropWhile (· != '\n')) := by
    simp [marked?, apostrophe, doubleQuote]
  refine isShown_comment (maskChars_of_marked? hmark) ?_
  -- What the database skips holds no line feed, so masking skips it too.
  have hskip : r.dropWhile (· != '\n') = (r.dropWhile (!endsLine ·)).dropWhile (· != '\n') := by
    conv_lhs => rw [← List.takeWhile_append_dropWhile (p := (!endsLine ·)) (l := r)]
    refine List.dropWhile_append_of_pos fun d hd => ?_
    have hd' := List.mem_takeWhile_imp hd
    simp only [endsLine, Bool.not_eq_true', Bool.or_eq_false_iff] at hd'
    simpa using hd'.1
  rw [hskip]
  cases hrest : r.dropWhile (!endsLine ·) with
  | nil => exact .inl rfl
  | cons a t =>
    have hends : endsLine a = true := by
      simpa using head?_dropWhile (congrArg List.head? hrest)
    rw [endsLine, Bool.or_eq_true, beq_iff_eq, beq_iff_eq] at hends
    rcases hends with rfl | rfl
    -- the line feed ends the comment for both
    · exact .inl (by simp)
    -- a carriage return stands in front of the line feed, since it does not end within a line
    · have ht : ∀ b ∈ t.head?, b = '\n' := by
        rw [hrest] at h
        intro b hb
        cases t with
        | nil => simp at hb
        | cons d t =>
          obtain rfl : d = b := by simpa using hb
          simpa [Piece.endsWithinLine] using h
      refine .inr ⟨t, rfl, ht, ?_⟩
      cases t with
      | nil => rfl
      | cons d t =>
        obtain rfl := ht d rfl
        rfl

theorem isShown_blockComment (h : closeComment 1 r = some rest)
    (hnest : (Piece.mk none '/' ('*' :: r) rest).nestsComment = false) :
    IsShown ⟨none, '/', '*' :: r, rest⟩ (maskChars ('/' :: '*' :: r)) := by
  have hthrough : (through ['*', '/'] r).map (·.2) = some rest := by
    simpa [Piece.nestsComment] using hnest
  -- The comment holds no other one, so that both readings end it at the first mark.
  obtain ⟨⟨body, rest'⟩, hbody, rfl⟩ := Option.map_eq_some_iff.1 hthrough
  have hmark : marked? '/' ('*' :: r) = some (⟨.comment, '/' :: '*' :: body⟩, rest') := by
    simp [marked?, apostrophe, doubleQuote, hbody]
  exact isShown_comment (maskChars_of_marked? hmark) (.inl rfl)

theorem marked?_dollar (r : List Char) :
    marked? '$' r = (closeDollar r).map fun p => (⟨.string, '$' :: p.1⟩, p.2) := by
  simp [marked?, apostrophe]

/-- A string in tags that are tags for masking as well ends at the same mark. -/
theorem isShown_tagged {tag text body : List Char} {s : String}
    (hs : stringTag? r = some (tag, text))
    (hbody : through ('$' :: tag ++ ['$']) text = some (body, rest))
    (htag : (Piece.mk (some (.string s)) '$' r rest).foreignTag = false) :
    IsShown ⟨some (.string s), '$', r, rest⟩ (maskChars ('$' :: r)) := by
  have hd : dollarTag? r = some (tag, text) := by
    cases hd : dollarTag? r with
    | none => simp [Piece.foreignTag, hs, hd] at htag
    | some p => rw [← stringTag?_of_dollarTag? hd, hs]
  have hclose : closeDollar r = some (tag ++ '$' :: body, rest) := by
    simp only [closeDollar, hd, Option.bind_eq_bind, Option.bind_some, hbody]
  have hmark : marked? '$' r = some (⟨.string, '$' :: (tag ++ '$' :: body)⟩, rest) := by
    rw [marked?_dollar, hclose]
    rfl
  refine ⟨[apostrophe, apostrophe], maskChars rest, maskChars_of_marked? hmark, .inl rfl, ?_⟩
  exact ⟨.inr ⟨apostrophe, rfl, by decide⟩, by simp, by simp, by simp, by simp, .inl (by decide)⟩

/-- A dollar sign that opens no string for the database opens none for masking. -/
theorem marked?_dollar_eq_none (htag : stringTag? r = none) : marked? '$' r = none := by
  have hclose : closeDollar r = none := by
    cases hd : dollarTag? r with
    | none => simp [closeDollar, hd]
    | some p => simp [stringTag?_of_dollarTag? hd] at htag
  rw [marked?_dollar, hclose, Option.map_none]

theorem startsWord_head?_dropWhile :
    ∀ b ∈ (r.dropWhile continuesTag).head?, startsWord b = false := fun _ hb =>
  startsWord_of_not_continuesTag (head?_dropWhile hb)

theorem isShown_parameter (htag : stringTag? r = none) :
    IsShown ⟨some (.parameter (String.ofList (r.takeWhile continuesTag))), '$', r,
      r.dropWhile continuesTag⟩ (maskChars ('$' :: r)) := by
  have hcode : ∀ u d v, r.takeWhile continuesTag = u ++ d :: v →
      marked? d (v ++ r.dropWhile continuesTag) = none := fun u d v hv => by
    have hmem : d ∈ r.takeWhile continuesTag := by simp [hv]
    exact marked?_of_notMem (notMem_markChars (List.mem_takeWhile_imp hmem)) _
  have hshown : maskChars ('$' :: r) =
      '$' :: (r.takeWhile continuesTag ++ maskChars (r.dropWhile continuesTag)) := by
    rw [maskChars_of_not_marked? (marked?_dollar_eq_none htag), ← maskChars_code hcode,
      List.takeWhile_append_dropWhile]
  refine ⟨'$' :: r.takeWhile continuesTag, maskChars (r.dropWhile continuesTag), hshown, .inl rfl,
    .inl startsWord_head?_dropWhile, by simp, by simp, by simp, by simp, .inl fun a ha => ?_⟩
  rcases List.mem_cons.1 ha with rfl | ha
  · decide
  · exact isQuiet_of_continuesWord (continuesWord_of_continuesTag (List.mem_takeWhile_imp ha))

theorem isShown_dollar (htag : stringTag? r = none) (hnil : r.takeWhile continuesTag = []) :
    IsShown ⟨some (.symbol "$"), '$', r, r⟩ (maskChars ('$' :: r)) := by
  have hr : r.dropWhile continuesTag = r := by
    simpa [hnil] using List.takeWhile_append_dropWhile (p := continuesTag) (l := r)
  have hedge := startsWord_head?_dropWhile (r := r)
  rw [hr] at hedge
  refine ⟨['$'], maskChars r, maskChars_of_not_marked? (marked?_dollar_eq_none htag), .inl rfl,
    .inl hedge, by simp, by simp, by simp, ?_, .inl (by decide)⟩
  rintro _ ⟨⟩
  rfl

/-- A dollar sign within a word is code where it opens no string for masking. -/
theorem marked?_of_opensDollar {w u v : List Char} {d : Char}
    (h : (Piece.mk (some (.word (String.ofList w))) c r rest).opensDollar = false)
    (hw : ∀ a ∈ w, continuesWord a = true) (he : w = u ++ d :: v) :
    marked? d (v ++ rest) = none := by
  have hd : continuesWord d = true := hw d (by simp [he])
  by_cases hdollar : d = '$'
  · subst hdollar
    have htail : '$' :: v ∈ w.tails := by
      rw [List.mem_tails, he]
      exact List.suffix_append _ _
    have hclose : closeDollar (v ++ rest) = none := by
      simp only [Piece.opensDollar, String.toList_ofList, List.any_eq_false] at h
      simpa using h _ htail
    simp [marked?, apostrophe, hclose]
  · have htag : continuesTag d = true := by simpa [continuesWord, continuesTag, hdollar] using hd
    exact marked?_of_notMem (notMem_markChars htag) _

theorem isShown_word (hc : startsWord c = true)
    (h : (Piece.mk (some (.word (String.ofList (c :: r.takeWhile continuesWord)))) c r
      (r.dropWhile continuesWord)).opensDollar = false) :
    IsShown ⟨some (.word (String.ofList (c :: r.takeWhile continuesWord))), c, r,
      r.dropWhile continuesWord⟩ (maskChars (c :: r)) := by
  have hw : ∀ a ∈ c :: r.takeWhile continuesWord, continuesWord a = true := by
    intro a ha
    rcases List.mem_cons.1 ha with rfl | ha
    · exact continuesWord_of_continuesTag (continuesTag_of_startsWord hc)
    · exact List.mem_takeWhile_imp ha
  have hedge : ∀ b ∈ (r.dropWhile continuesWord).head?, continuesWord b = false := fun b hb =>
    head?_dropWhile hb
  have hshown : maskChars (c :: r) =
      c :: r.takeWhile continuesWord ++ maskChars (r.dropWhile continuesWord) := by
    rw [← maskChars_code fun u d v => marked?_of_opensDollar h hw, List.cons_append,
      List.takeWhile_append_dropWhile]
  refine ⟨_, _, hshown, .inl rfl, .inl fun b hb => ?_, ?_, by simp, by simp, by simp,
    .inl fun a ha => isQuiet_of_continuesWord (hw a ha)⟩
  · refine startsWord_of_not_continuesTag ?_
    by_contra htag
    have hb' := hedge b hb
    rw [continuesWord_of_continuesTag (by simpa using htag)] at hb'
    exact absurd hb' (by decide)
  · rintro _ ⟨⟩
    exact ⟨(String.toList_ofList).symm, hedge⟩

theorem isShown_escaped {s : String} (hc : c = 'e' ∨ c = 'E')
    (h : (Piece.mk (some (.string s)) c (apostrophe :: r) rest).escapesQuote = false) :
    IsShown ⟨some (.string s), c, apostrophe :: r, rest⟩ (maskChars (c :: apostrophe :: r)) := by
  have hmark : c ∉ markChars := by rcases hc with rfl | rfl <;> decide
  have hclose : (closeQuoted apostrophe r).map (·.2) = some rest := by
    rcases hc with rfl | rfl <;> simpa [Piece.escapesQuote] using h
  obtain ⟨⟨body, rest'⟩, hbody, rfl⟩ := Option.map_eq_some_iff.1 hclose
  have hquote : marked? apostrophe r = some (⟨.string, apostrophe :: body⟩, rest') := by
    simp [marked?, hbody]
  have hshown : maskChars (c :: apostrophe :: r) =
      [c, apostrophe, apostrophe] ++ maskChars rest' := by
    rw [maskChars_of_not_marked? (marked?_of_notMem hmark _), maskChars_of_marked? hquote]
    rfl
  refine ⟨_, _, hshown, .inl rfl, .inr ⟨apostrophe, rfl, by decide⟩, by simp, by simp, by simp,
    by simp, .inl ?_⟩
  rcases hc with rfl | rfl <;> decide

theorem maskChars_of_notMem {text : List Char} (h : ∀ d ∈ text, d ∉ markChars) (cs : List Char) :
    maskChars (text ++ cs) = text ++ maskChars cs :=
  maskChars_code fun _ d _ he => marked?_of_notMem (h d (by simp [he])) _

theorem digitRun_append (afterDigit : Bool) (cs : List Char) :
    (digitRun afterDigit cs).1 ++ (digitRun afterDigit cs).2 = cs := by
  induction cs generalizing afterDigit with
  | nil => rfl
  | cons c r ih =>
    rw [digitRun]
    split
    · exact congrArg (c :: ·) (ih c.isDigit)
    · rfl

/-- A run of digits holds digits, with underscores between them. -/
theorem digitRun_chars (afterDigit : Bool) (cs : List Char) :
    ∀ d ∈ (digitRun afterDigit cs).1, d.isDigit = true ∨ d = '_' := by
  induction cs generalizing afterDigit with
  | nil => simp [digitRun]
  | cons c r ih =>
    rw [digitRun]
    split
    · rename_i hc
      intro d hd
      rcases List.mem_cons.1 hd with rfl | hd
      · simp only [Bool.or_eq_true, Bool.and_eq_true, beq_iff_eq] at hc
        exact hc.imp_right fun h => h.1.1
      · exact ih c.isDigit d hd
    · simp

theorem digitRun_notMem (afterDigit : Bool) (cs : List Char) :
    ∀ d ∈ (digitRun afterDigit cs).1, d ∉ markChars := by
  have hall : markChars.all (fun a => !a.isDigit && a != '_') = true := by decide
  intro d hd hmark
  have hne := List.all_eq_true.1 hall d hmark
  rw [Bool.and_eq_true, Bool.not_eq_true', bne_iff_ne] at hne
  rcases digitRun_chars afterDigit cs d hd with h | h
  · rw [hne.1] at h
    exact absurd h (by decide)
  · exact hne.2 h

theorem isQuiet_digitRun (afterDigit : Bool) (cs : List Char) :
    ∀ d ∈ (digitRun afterDigit cs).1, isQuiet d = true := by
  intro d hd
  rcases digitRun_chars afterDigit cs d hd with h | rfl
  · have hne : ∀ a : Char, a.isDigit = false → d ≠ a := by
      rintro a ha rfl
      rw [ha] at h
      exact absurd h (by decide)
    simp [isQuiet, hne doubleQuote (by decide), hne ';' (by decide)]
  · decide

theorem isQuiet_exponentRun (cs : List Char) : ∀ d ∈ (exponentRun cs).1, isQuiet d = true := by
  cases cs with
  | nil => simp [exponentRun]
  | cons e r =>
    rw [exponentRun]
    dsimp only
    split
    · rename_i he
      rw [Bool.and_eq_true, Bool.or_eq_true, beq_iff_eq, beq_iff_eq] at he
      intro d hd
      rcases List.mem_append.1 hd with hd | hd
      · rcases List.mem_cons.1 hd with rfl | hd
        · rcases he.1 with rfl | rfl <;> decide
        · have hsign := (List.mem_filter.1 hd).2
          rw [Bool.or_eq_true, beq_iff_eq, beq_iff_eq] at hsign
          rcases hsign with rfl | rfl <;> decide
      · exact isQuiet_digitRun _ _ d hd
    · simp

/-- Masking shows digits as they are. -/
theorem maskChars_digitRun (afterDigit : Bool) (cs : List Char) :
    maskChars cs = (digitRun afterDigit cs).1 ++ maskChars (digitRun afterDigit cs).2 := by
  rw [← maskChars_of_notMem (digitRun_notMem afterDigit cs), digitRun_append]

theorem marked?_dash (h : r.head? ≠ some '-') : marked? '-' r = none := by
  cases r with
  | nil => simp [marked?, apostrophe, doubleQuote]
  | cons d r =>
    have hd : d ≠ '-' := fun he => h (congrArg some he)
    simp [marked?, apostrophe, doubleQuote, hd]

/-- A sign in front of digits is code. -/
theorem maskChars_signed {s : Char} (hs : s = '+' ∨ s = '-') (h : (digitRun false r).1 ≠ []) :
    maskChars (s :: r) = s :: ((digitRun false r).1 ++ maskChars (digitRun false r).2) := by
  have hmark : marked? s r = none := by
    rcases hs with rfl | rfl
    · exact marked?_of_notMem (by decide) _
    · refine marked?_dash fun hhead => ?_
      obtain ⟨d, ds, hds⟩ := List.exists_cons_of_ne_nil h
      have hr := digitRun_append false r
      rw [hds, List.cons_append] at hr
      rw [← hr] at hhead
      obtain rfl : d = '-' := by simpa using hhead
      exact digitRun_notMem false r '-' (by simp [hds]) (by decide)
  rw [maskChars_of_not_marked? hmark, maskChars_digitRun false r]

/-- Masking shows an exponent as it is: a digit follows its sign. -/
theorem maskChars_exponentRun (cs : List Char) :
    maskChars cs = (exponentRun cs).1 ++ maskChars (exponentRun cs).2 := by
  cases cs with
  | nil => rfl
  | cons e r =>
    rw [exponentRun]
    dsimp only
    split
    · rename_i he
      rw [Bool.and_eq_true, Bool.or_eq_true, beq_iff_eq, beq_iff_eq] at he
      obtain ⟨he, hdigits⟩ := he
      have hmark : e ∉ markChars := by rcases he with rfl | rfl <;> decide
      rw [maskChars_of_not_marked? (marked?_of_notMem hmark _)]
      cases r with
      | nil => simp [digitRun] at hdigits
      | cons s r =>
        by_cases hs : s = '+' ∨ s = '-'
        · have hsign : ([s].filter fun s => s == '+' || s == '-') = [s] := by simpa using hs
          simp only [List.take_succ_cons, List.take_zero, hsign, List.length_singleton,
            List.drop_succ_cons, List.drop_zero] at hdigits ⊢
          rw [maskChars_signed hs (by simpa using hdigits)]
          rfl
        · have hsign : ([s].filter fun s => s == '+' || s == '-') = [] := by simpa using hs
          simp only [List.take_succ_cons, List.take_zero, hsign, List.length_nil, List.drop_zero]
          rw [maskChars_digitRun false (s :: r)]
          rfl
    · rfl

/-- Masking shows a number as it is. -/
theorem exists_text_of_numberStep {token : Option Token}
    (h : numberStep (c :: r) = some (token, rest)) :
    ∃ text, token = some (.number (String.ofList text)) ∧
      maskChars (c :: r) = text ++ maskChars rest ∧ ∀ d ∈ text, isQuiet d = true := by
  simp only [numberStep, Option.some.injEq, Prod.mk.injEq] at h
  obtain ⟨rfl, rfl⟩ := h
  have hwhole := isQuiet_digitRun false (c :: r)
  refine ⟨_, rfl, ?_, ?_⟩
  -- The digits in front are shown, then the fraction and the exponent, if there are any.
  · rw [maskChars_digitRun false (c :: r)]
    generalize digitRun false (c :: r) = run
    obtain ⟨whole, cs⟩ := run
    rw [List.append_assoc, List.append_assoc]
    congr 1
    dsimp only
    split
    · rename_i t
      rw [maskChars_of_not_marked? (marked?_of_notMem (by decide) _), maskChars_digitRun false t,
        List.cons_append, ← maskChars_exponentRun]
    · rw [List.nil_append, ← maskChars_exponentRun]
  · intro d hd
    rcases List.mem_append.1 hd with hd | hd
    · rcases List.mem_append.1 hd with hd | hd
      · exact hwhole d hd
      · split at hd
        · rcases List.mem_cons.1 hd with rfl | hd
          · decide
          · exact isQuiet_digitRun _ _ d hd
        · simp at hd
    · exact isQuiet_exponentRun _ d hd

theorem isShown_number {token : Option Token} (h : numberStep (c :: r) = some (token, rest))
    (htouch : (Piece.mk token c r rest).touchesWord = false) :
    IsShown ⟨token, c, r, rest⟩ (maskChars (c :: r)) := by
  obtain ⟨text, rfl, hshown, hquiet⟩ := exists_text_of_numberStep h
  refine ⟨text, maskChars rest, hshown, .inl rfl, ?_, by simp, by simp, by simp, by simp,
    .inl hquiet⟩
  simp only [Piece.touchesWord, String.toList_ofList, Bool.and_eq_false_iff] at htouch
  rcases htouch with htouch | htouch
  -- the number ends with no word character, or no word begins behind it
  · refine .inr ?_
    cases hlast : text.getLast? with
    | none => simp [hlast] at htouch
    | some a => exact ⟨a, rfl, by simpa [hlast] using htouch⟩
  · refine .inl fun b hb => ?_
    rw [Option.mem_def] at hb
    simpa [hb] using htouch

theorem marked?_slash (h : r.head? ≠ some '*') : marked? '/' r = none := by
  cases r with
  | nil => simp [marked?, apostrophe, doubleQuote]
  | cons d r =>
    have hd : d ≠ '*' := fun he => h (congrArg some he)
    simp [marked?, apostrophe, doubleQuote, hd]

/-- A symbol is code: none of those with several characters opens a comment, not even with what
follows it. -/
theorem maskChars_symbol {s : String} (hs : s ∈ longSymbols) {cs : List Char}
    (hcomment : opensComment ((s.toList ++ cs).drop (s.length - 1)) = false) :
    maskChars (s.toList ++ cs) = s.toList ++ maskChars cs := by
  have hall : ∀ s ∈ longSymbols, s.toList.all (fun d => !markChars.contains d) = true ∨
      s = "->>" ∨ s = "->" ∨ s = "//" := by
    decide +kernel
  have hplain (d : Char) (h : d ∉ markChars) (t : List Char) :
      maskChars (d :: t) = d :: maskChars t :=
    maskChars_of_not_marked? (marked?_of_notMem h t)
  have hdash (d : Char) (h : d ≠ '-') (t : List Char) :
      maskChars ('-' :: d :: t) = '-' :: maskChars (d :: t) :=
    maskChars_of_not_marked? (marked?_dash fun he => h (Option.some.inj he))
  have hslash (t : List Char) (h : t.head? ≠ some '*') :
      maskChars ('/' :: t) = '/' :: maskChars t :=
    maskChars_of_not_marked? (marked?_slash h)
  -- Three symbols begin with a character that may open a comment with what is behind it.
  rcases hall s hs with h | rfl | rfl | rfl
  · exact maskChars_of_notMem (fun d hd => by simpa using List.all_eq_true.1 h d hd) cs
  · have hchars : "->>".toList = ['-', '>', '>'] := by decide
    rw [hchars]
    show maskChars ('-' :: '>' :: '>' :: cs) = '-' :: '>' :: '>' :: maskChars cs
    rw [hdash '>' (by decide), hplain '>' (by decide), hplain '>' (by decide)]
  · have hchars : "->".toList = ['-', '>'] := by decide
    rw [hchars]
    show maskChars ('-' :: '>' :: cs) = '-' :: '>' :: maskChars cs
    rw [hdash '>' (by decide), hplain '>' (by decide)]
  · have hchars : "//".toList = ['/', '/'] ∧ "//".length = 2 := by decide
    rw [hchars.1, hchars.2] at hcomment
    rw [hchars.1]
    have hstar : cs.head? ≠ some '*' := by
      intro h
      obtain ⟨t, rfl⟩ : ∃ t, cs = '*' :: t := by
        cases cs with
        | nil => simp at h
        | cons d t => exact ⟨t, by rw [Option.some.inj h]⟩
      simp [opensComment] at hcomment
    show maskChars ('/' :: '/' :: cs) = '/' :: '/' :: maskChars cs
    rw [hslash ('/' :: cs) (by simp), hslash cs hstar]

/-- What begins a symbol opens nothing for masking. -/
theorem IsSymbolic.marked?_eq (hc : IsSymbolic c r) : marked? c r = none := by
  have hquote := hc.quote
  simp only [List.mem_cons, List.not_mem_nil, or_false, not_or] at hquote
  by_cases hdash : c = '-'
  · subst hdash
    refine marked?_dash fun hhead => ?_
    obtain ⟨t, rfl⟩ := List.head?_eq_some_iff.1 hhead
    exact absurd hc.comment (by simp [opensComment])
  by_cases hslash : c = '/'
  · subst hslash
    refine marked?_slash fun hhead => ?_
    obtain ⟨t, rfl⟩ := List.head?_eq_some_iff.1 hhead
    exact absurd hc.comment (by simp [opensComment])
  exact marked?_of_notMem (by simp [markChars, hquote, hdash, hslash]) r

/-- A word character begins a word or a number. -/
theorem IsSymbolic.isWordChar_eq (hc : IsSymbolic c r) : isWordChar c = false := by
  have hnumber := hc.number
  have hword := hc.word
  simp only [startsNumber, Bool.or_eq_false_iff] at hnumber
  simp only [startsWord, hnumber.1, Bool.not_false, Bool.and_true] at hword
  by_contra hchar
  have htag := continuesTag_of_isWordChar (by simpa using hchar)
  rw [continuesTag, hword] at htag
  exact absurd htag (by decide)

theorem isShown_symbol {token : Option Token} (hc : IsSymbolic c r)
    (h : symbolStep c r = some (token, rest)) :
    IsShown ⟨token, c, r, rest⟩ (maskChars (c :: r)) := by
  have hlast : ∀ s ∈ longSymbols,
      s.toList.getLast?.any (fun a => !isWordChar a) = true ∧ s.toList.all isQuiet = true := by
    decide +kernel
  unfold symbolStep at h
  dsimp only at h
  split at h
  · rename_i s hs
    simp only [Option.some.injEq, Prod.mk.injEq] at h
    obtain ⟨rfl, rfl⟩ := h
    have hmem := List.mem_of_find?_eq_some hs
    have hfits := List.find?_some hs
    rw [Bool.and_eq_true, List.isPrefixOf_iff_prefix, Bool.not_eq_true'] at hfits
    obtain ⟨⟨t, ht⟩, hcomment⟩ := hfits
    have hrest : (c :: r).drop s.length = t := by
      rw [← ht, ← String.length_toList, List.drop_left]
    rw [hrest]
    rw [← ht] at hcomment
    obtain ⟨hany, hquiet⟩ := hlast s hmem
    obtain ⟨a, ha, haw⟩ := (Option.any_eq_true _ _).1 hany
    refine ⟨s.toList, maskChars t, ?_, .inl rfl, .inr ⟨a, ha, by simpa using haw⟩,
      by simp, by simp, by simp, ?_, .inl (List.all_eq_true.1 hquiet)⟩
    · rw [← ht, maskChars_symbol hmem hcomment]
    · rintro _ ⟨⟩
      rfl
  · simp only [Option.some.injEq, Prod.mk.injEq] at h
    obtain ⟨rfl, rfl⟩ := h
    refine ⟨[c], maskChars r, maskChars_of_not_marked? hc.marked?_eq, .inl rfl,
      .inr ⟨c, rfl, hc.isWordChar_eq⟩, by simp, by simp, by simp, ?_, ?_⟩
    · rintro _ ⟨⟩
      rw [String.toList_ofList]
    · by_cases hsemicolon : c = ';'
      · subst hsemicolon
        exact .inr ⟨rfl, rfl⟩
      · have hquote : c ≠ doubleQuote := fun he => hc.quote (by simp [he])
        exact .inl (by simp [isQuiet, hquote, hsemicolon])

end Kinds

/-- Masking shows every piece that it does not misread. -/
theorem isShown_of_step {c : Char} {r rest masked : List Char} {token : Option Token}
    (h : step c r = some (token, rest)) (hread : (Piece.mk token c r rest).isMisread = false)
    (hmasked : MaskedAs masked (c :: r)) : IsShown ⟨token, c, r, rest⟩ masked := by
  simp only [Piece.isMisread, Bool.or_eq_false_iff] at hread
  obtain ⟨⟨⟨⟨⟨hescapes, hdollar⟩, hnest⟩, hline⟩, htag⟩, htouch⟩ := hread
  by_cases hreturn : c = '\r'
  · -- A carriage return is a blank, the only piece that masking may have counted to a comment.
    subst hreturn
    obtain ⟨rfl, rfl⟩ := Prod.mk.inj (Option.some.inj h)
    exact isShown_blank (by decide) hmasked
  obtain rfl := maskedAs_of_ne hmasked hreturn
  cases begins_of_step h with
  | blank hc => exact isShown_blank hc hmasked
  | string h => exact isShown_string h _
  | name _ h => exact isShown_name h
  | lineComment => exact isShown_lineComment hline
  | blockComment h => exact isShown_blockComment h hnest
  | tagged hs h => exact isShown_tagged hs h htag
  | parameter hs => exact isShown_parameter hs
  | dollar hs hnil => exact isShown_dollar hs hnil
  | escaped hc => exact isShown_escaped hc hescapes
  | word hc => exact isShown_word hc hdollar
  | number _ h => exact isShown_number h htouch
  | symbol hc h => exact isShown_symbol hc h

end ChartQuery.Sql
