import ChartQuery.Proofs.Sql.TwoReadings

/-!
# Query texts one behind the other

The database reads a text from the left, and no piece that it has closed is opened again by what
follows, if that starts with a separator: a character that continues neither a word nor a number nor
a symbol and doubles no quote. So the tokens of two texts, one behind the other, are those of the
first and then those of the second. Only a comment to the end of its line goes on where the
separator does not end the line.

## Main definitions

* `separators`: characters that continue no piece
* `Parts b cs`: a character keeps a text apart from what follows

## Main results

* `step_append`: the database takes the same step where more text follows
* `tokens?_append`: the tokens of two texts, one behind the other
-/

namespace ChartQuery.Sql

open Text (apostrophe doubleQuote backslash hexValue?)

/-- Characters that continue no piece of query text: a line feed, a blank, a comma and a closing
parenthesis. -/
def separators : List Char := ['\n', ' ', ',', ')']

/-- A separator keeps a text apart from what follows, where it ends a comment to the end of its
line, or there is none. -/
structure Parts (b : Char) (cs : List Char) : Prop where
  mem : b ∈ separators
  line : endsLine b = true ∨ '-' ∉ cs

/-! ## Runs of characters -/

section Runs

variable {b : Char} {u : List Char}

/-- A run of characters ends where it ended before, if the next character does not belong to it. -/
theorem takeWhile_append_cons {p : Char → Bool} (hb : p b = false) (r : List Char) :
    (r ++ b :: u).takeWhile p = r.takeWhile p ∧
      (r ++ b :: u).dropWhile p = r.dropWhile p ++ b :: u := by
  induction r with
  | nil => simp [hb]
  | cons c r ih =>
    rw [List.cons_append, List.takeWhile_cons, List.takeWhile_cons, List.dropWhile_cons,
      List.dropWhile_cons]
    split
    · exact ⟨congrArg (c :: ·) ih.1, ih.2⟩
    · exact ⟨rfl, rfl⟩

theorem head?_append_cons {r : List Char} {a : Char} (h : b ≠ a) :
    (r ++ b :: u).head? = some a ↔ r.head? = some a := by
  cases r with
  | nil => simp [h]
  | cons c r => simp

theorem quotedContent?_append {q : Char} (hq : b ≠ q) {r body rest : List Char}
    (h : quotedContent? q r = some (body, rest)) :
    quotedContent? q (r ++ b :: u) = some (body, rest ++ b :: u) := by
  fun_induction quotedContent? q r generalizing body rest with
  | case1 => simp at h
  | case2 =>
    -- the quote is the last character, and the next one does not double it
    simp only [Option.some.injEq, Prod.mk.injEq] at h
    obtain ⟨rfl, rfl⟩ := h
    simp [quotedContent?, hq]
  | case3 r' ih =>
    obtain ⟨⟨b', t⟩, hb', he⟩ := Option.map_eq_some_iff.1 h
    obtain ⟨rfl, rfl⟩ := Prod.mk.inj he
    simp [quotedContent?, ih hb']
  | case4 d r' hd =>
    simp only [Option.some.injEq, Prod.mk.injEq] at h
    obtain ⟨rfl, rfl⟩ := h
    simp [quotedContent?, hd]
  | case5 c r hc ih =>
    obtain ⟨⟨b', t⟩, hb', he⟩ := Option.map_eq_some_iff.1 h
    obtain ⟨rfl, rfl⟩ := Prod.mk.inj he
    rw [List.cons_append, quotedContent?.eq_def]
    simp [hc, ih hb']

theorem closeComment_append {depth : Nat} {cs rest : List Char} (t : List Char)
    (h : closeComment depth cs = some rest) : closeComment depth (cs ++ t) = some (rest ++ t) := by
  fun_induction closeComment depth cs with
  | case1 cs =>
    obtain rfl := Option.some.inj h
    simp [closeComment]
  | case2 => simp at h
  | case3 => simp at h
  | case4 depth c d r hclose ih => simpa [closeComment, hclose] using ih h
  | case5 depth c d r hclose hopen ih =>
    rw [List.cons_append, List.cons_append, closeComment, if_neg hclose, if_pos hopen]
    exact ih h
  | case6 depth c d r hclose hopen ih =>
    rw [List.cons_append, List.cons_append, closeComment, if_neg hclose, if_neg hopen]
    exact ih h

theorem length_le_of_through {mark cs : List Char} {p : List Char × List Char}
    (h : through mark cs = some p) : mark.length ≤ cs.length := by
  induction cs generalizing p with
  | nil => simp [through] at h
  | cons c r ih =>
    rw [through] at h
    split at h
    · rename_i hprefix
      exact (List.isPrefixOf_iff_prefix.1 hprefix).length_le
    · obtain ⟨q, hq, -⟩ := Option.map_eq_some_iff.1 h
      exact Nat.le_trans (ih hq) (Nat.le_succ _)

/-- A mark is found where it was found before. -/
theorem through_append_of_eq_some {mark cs body rest : List Char} (t : List Char)
    (h : through mark cs = some (body, rest)) :
    through mark (cs ++ t) = some (body, rest ++ t) := by
  induction cs generalizing body rest with
  | nil => simp [through] at h
  | cons c r ih =>
    -- The text is long enough for the mark, so that what follows does not complete one earlier.
    have hlen := length_le_of_through h
    have hprefix : mark.isPrefixOf (c :: (r ++ t)) = mark.isPrefixOf (c :: r) := by
      rw [Bool.eq_iff_iff, List.isPrefixOf_iff_prefix, List.isPrefixOf_iff_prefix]
      constructor
      · intro hp
        exact List.prefix_of_prefix_length_le hp (List.prefix_append (c :: r) t) hlen
      · intro hp
        exact hp.trans (List.prefix_append (c :: r) t)
    rw [through] at h
    rw [List.cons_append, through, hprefix]
    split at h
    · rename_i hp
      simp only [Option.some.injEq, Prod.mk.injEq] at h
      obtain ⟨rfl, rfl⟩ := h
      rw [if_pos hp, ← List.cons_append, List.take_append_of_le_length hlen,
        List.drop_append_of_le_length hlen]
    · rename_i hp
      obtain ⟨⟨body', rest'⟩, hq, he⟩ := Option.map_eq_some_iff.1 h
      obtain ⟨rfl, rfl⟩ := Prod.mk.inj he
      rw [if_neg hp, ih hq]
      rfl

end Runs

/-! ## Pieces -/

section Pieces

variable {b : Char} {u : List Char}

/-- The number behind a backslash ends where it ended before. -/
theorem numberedChar?_append (hb : hexValue? b = none) (base most : Nat) (cs : List Char) :
    numberedChar? base most (cs ++ b :: u) =
      (numberedChar? base most cs).map fun p => (p.1, p.2 ++ b :: u) := by
  have hdigit : (hexValue? b).any (· < base) = false := by simp [hb]
  have hrun := (takeWhile_append_cons (p := fun c => (hexValue? c).any (· < base)) (u := u)
    hdigit cs).1
  have hlen : ((cs.takeWhile fun c => (hexValue? c).any (· < base)).take most).length ≤
      cs.length :=
    Nat.le_trans (List.length_take_le' _ _) (List.takeWhile_prefix _).length_le
  simp only [numberedChar?, hrun]
  split
  · rfl
  · rw [Option.map_some, List.drop_append_of_le_length hlen]

theorem escapedChar_append (hb : hexValue? b = none) (d : Char) (r : List Char) :
    escapedChar d (r ++ b :: u) = ((escapedChar d r).1, (escapedChar d r).2 ++ b :: u) := by
  have hnumbered : ∀ base most cs,
      numberedChar? base most (cs ++ b :: u) =
        (numberedChar? base most cs).map fun p => (p.1, p.2 ++ b :: u) :=
    numberedChar?_append hb
  have hget : ∀ (x : Option (Char × List Char)) (p : Char × List Char),
      (x.map fun p => (p.1, p.2 ++ b :: u)).getD (p.1, p.2 ++ b :: u) =
        ((x.getD p).1, (x.getD p).2 ++ b :: u) := by
    intro x p
    cases x <;> rfl
  simp only [escapedChar, ← List.cons_append, hnumbered]
  rw [← hget]
  congr 1
  repeat' split
  all_goals rfl

/-- A string with escapes ends where it ended before. -/
theorem Unescapes.append (hb : b ≠ apostrophe) (hhex : hexValue? b = none)
    {cs body rest : List Char} (h : Unescapes cs body rest) :
    Unescapes (cs ++ b :: u) body (rest ++ b :: u) := by
  induction h with
  | close hr => exact .close fun hhead => hr ((head?_append_cons hb).1 hhead)
  | doubled _ ih => exact .doubled ih
  | @escape d r _ _ _ ih =>
    have hchar := escapedChar_append (u := u) hhex d r
    rw [List.cons_append, List.cons_append, ← congrArg Prod.fst hchar]
    exact .escape (by rwa [hchar])
  | plain hslash hquote _ ih => exact .plain hslash hquote ih

/-- Digits end where they ended before. -/
theorem digitRun_append_cons (hdigit : b.isDigit = false) (hline : b ≠ '_') (afterDigit : Bool)
    (cs : List Char) :
    digitRun afterDigit (cs ++ b :: u) =
      ((digitRun afterDigit cs).1, (digitRun afterDigit cs).2 ++ b :: u) := by
  induction cs generalizing afterDigit with
  | nil => simp [digitRun, hdigit, hline]
  | cons c r ih =>
    have hhead : (r ++ b :: u).head?.any Char.isDigit = r.head?.any Char.isDigit := by
      cases r <;> simp [hdigit]
    rw [List.cons_append, digitRun, digitRun, hhead]
    split
    · rw [ih c.isDigit]
    · rfl

/-- An exponent ends where it ended before. -/
theorem exponentRun_append_cons (hb : b ∈ separators) (cs : List Char) :
    exponentRun (cs ++ b :: u) = ((exponentRun cs).1, (exponentRun cs).2 ++ b :: u) := by
  have hall : ∀ b ∈ separators, b.isDigit = false ∧ b ≠ '_' ∧ b ≠ 'e' ∧ b ≠ 'E' ∧
      (b == '+' || b == '-') = false := by decide
  obtain ⟨hdigit, hline, he, hE, hsign⟩ := hall b hb
  cases cs with
  | nil => simp [exponentRun, he, hE]
  | cons e r =>
    have htake : ((r ++ b :: u).take 1).filter (fun s => s == '+' || s == '-') =
        (r.take 1).filter fun s => s == '+' || s == '-' := by
      cases r with
      | nil => simp [hsign]
      | cons s r => rfl
    have hlen : ((r.take 1).filter fun s => s == '+' || s == '-').length ≤ r.length :=
      Nat.le_trans (List.length_filter_le _ _) (List.length_take_le' _ _)
    rw [List.cons_append]
    simp only [exponentRun, htake, List.drop_append_of_le_length hlen,
      digitRun_append_cons hdigit hline]
    split <;> rfl

theorem numberStep_append (hb : b ∈ separators) (cs : List Char) :
    numberStep (cs ++ b :: u) = (numberStep cs).map fun p => (p.1, p.2 ++ b :: u) := by
  have hall : ∀ b ∈ separators, b.isDigit = false ∧ b ≠ '_' ∧ b ≠ '.' := by decide
  obtain ⟨hdigit, hline, hpoint⟩ := hall b hb
  simp only [numberStep, digitRun_append_cons hdigit hline]
  cases (digitRun false cs).2 with
  | nil =>
    have hrun := exponentRun_append_cons (u := u) hb []
    rw [List.nil_append] at hrun
    simp [hpoint, hrun]
  | cons c r =>
    by_cases hc : c = '.'
    · subst hc
      simp [digitRun_append_cons hdigit hline, exponentRun_append_cons hb]
    · have hrun := exponentRun_append_cons (u := u) hb (c :: r)
      rw [List.cons_append] at hrun
      simp [hc, hrun]

theorem opensComment_append (hb : b ∈ separators) (cs : List Char) :
    opensComment (cs ++ b :: u) = opensComment cs := by
  have hall : ∀ b ∈ separators, b ≠ '-' ∧ b ≠ '/' ∧ b ≠ '*' := by decide
  obtain ⟨hdash, hslash, hstar⟩ := hall b hb
  match cs with
  | [] => simp [opensComment, hdash, hslash]
  | [c] => simp [opensComment, hdash, hstar]
  | c :: d :: r =>
    rw [List.cons_append, List.cons_append, opensComment.eq_def, opensComment.eq_def]
    split <;> simp_all

/-- What holds no separator is in front of a text if it is in front of what precedes the
separator. -/
theorem isPrefixOf_append_cons {s : List Char} (hs : b ∉ s) (cs : List Char) :
    s.isPrefixOf (cs ++ b :: u) = s.isPrefixOf cs := by
  rw [Bool.eq_iff_iff, List.isPrefixOf_iff_prefix, List.isPrefixOf_iff_prefix]
  constructor
  · intro hp
    rcases Nat.le_total s.length cs.length with hlen | hlen
    · exact List.prefix_of_prefix_length_le hp (List.prefix_append cs _) hlen
    · -- A longer text in front would reach over the separator.
      obtain ⟨t, rfl⟩ := List.prefix_of_prefix_length_le (List.prefix_append cs _) hp hlen
      have hp' := (List.prefix_append_right_inj cs).1 hp
      cases t with
      | nil => simp
      | cons d t =>
        obtain rfl := (List.cons_prefix_cons.1 hp').1
        simp at hs
  · intro hp
    exact hp.trans (List.prefix_append cs _)

theorem symbolStep_append (hb : b ∈ separators) (c : Char) (r : List Char) :
    symbolStep c (r ++ b :: u) = (symbolStep c r).map fun p => (p.1, p.2 ++ b :: u) := by
  have hall : ∀ b ∈ separators, ∀ s ∈ longSymbols, b ∉ s.toList := by decide +kernel
  -- The same symbols fit, and none of them reaches further than before.
  have hfits : ∀ s ∈ longSymbols,
      (s.toList.isPrefixOf (c :: (r ++ b :: u)) &&
        !opensComment ((c :: (r ++ b :: u)).drop (s.length - 1))) =
      (s.toList.isPrefixOf (c :: r) && !opensComment ((c :: r).drop (s.length - 1))) := by
    intro s hs
    rw [← List.cons_append, isPrefixOf_append_cons (hall b hb s hs)]
    cases hp : s.toList.isPrefixOf (c :: r) with
    | false => rfl
    | true =>
      have hlen := (List.isPrefixOf_iff_prefix.1 hp).length_le
      rw [String.length_toList] at hlen
      rw [List.drop_append_of_le_length (by omega), opensComment_append hb]
  have hfind := congrArg List.head? (List.filter_congr hfits)
  rw [List.head?_filter, List.head?_filter] at hfind
  simp only [symbolStep]
  rw [hfind]
  cases hs : longSymbols.find? _ with
  | none => rfl
  | some s =>
    have hp := List.find?_some hs
    rw [Bool.and_eq_true, List.isPrefixOf_iff_prefix] at hp
    have hlen := hp.1.length_le
    rw [String.length_toList] at hlen
    simp only [Option.map_some, ← List.cons_append, List.drop_append_of_le_length hlen]

theorem stringTag?_append (hb : b ∈ separators) (r : List Char) :
    stringTag? (r ++ b :: u) = (stringTag? r).map fun p => (p.1, p.2 ++ b :: u) := by
  have hall : ∀ b ∈ separators, continuesTag b = false ∧ b ≠ '$' := by decide
  obtain ⟨htag, hdollar⟩ := hall b hb
  obtain ⟨htake, hdrop⟩ := takeWhile_append_cons (u := u) htag r
  simp only [stringTag?, htake, hdrop]
  cases r.dropWhile continuesTag with
  | nil => simp [hdollar]
  | cons d t =>
    by_cases hd : d = '$'
    · subst hd
      simp only [List.cons_append]
      split <;> rfl
    · simp [hd]

theorem startsNumber_append (hb : b ∈ separators) (c : Char) (r : List Char) :
    startsNumber c (r ++ b :: u) = startsNumber c r := by
  have hall : ∀ b ∈ separators, b.isDigit = false := by decide
  cases r <;> simp [startsNumber, hall b hb]

theorem IsSymbolic.append {c : Char} {r : List Char} (hb : b ∈ separators) (h : IsSymbolic c r) :
    IsSymbolic c (r ++ b :: u) where
  blank := h.blank
  quote := h.quote
  comment := by rw [← List.cons_append, opensComment_append hb, h.comment]
  word := h.word
  number := by rw [startsNumber_append hb, h.number]

/-- A text begins as before where more text follows behind a separator. -/
theorem Begins.append {c : Char} {r rest : List Char} {token : Option Token}
    (hb : Parts b (c :: r)) (h : Begins c r token rest) :
    Begins c (r ++ b :: u) token (rest ++ b :: u) := by
  have hall : ∀ b ∈ separators, b ≠ apostrophe ∧ b ≠ doubleQuote ∧ hexValue? b = none ∧
      continuesTag b = false ∧ continuesWord b = false := by decide
  obtain ⟨hquote, hname, hhex, htag, hword⟩ := hall b hb.mem
  -- The kind stays, since what tells it stands in front, and the separator continues no piece.
  cases h with
  | blank hc => exact .blank hc
  | string h => exact .string (quotedContent?_append hquote h)
  | name hne h => exact .name hne (quotedContent?_append hname h)
  | lineComment r =>
    -- The text holds the dashes of the comment, so that the separator ends the line.
    have hends : endsLine b = true := hb.line.resolve_right (by simp)
    rw [← (takeWhile_append_cons (p := (!endsLine ·)) (by simp [hends]) r).2]
    exact .lineComment _
  | blockComment h => exact .blockComment (closeComment_append _ h)
  | tagged hs h =>
    refine .tagged ?_ (through_append_of_eq_some _ h)
    rw [stringTag?_append hb.mem, hs, Option.map_some]
  | parameter hs hne =>
    obtain ⟨htake, hdrop⟩ := takeWhile_append_cons (u := u) htag r
    rw [← htake, ← hdrop]
    exact .parameter (by rw [stringTag?_append hb.mem, hs, Option.map_none]) (by rwa [htake])
  | dollar hs hnil =>
    refine .dollar (by rw [stringTag?_append hb.mem, hs, Option.map_none]) ?_
    rw [(takeWhile_append_cons htag r).1, hnil]
  | escaped hc h => exact .escaped hc (h.append hquote hhex)
  | word hc hplain =>
    obtain ⟨htake, hdrop⟩ := takeWhile_append_cons (u := u) hword r
    rw [← htake, ← hdrop]
    exact .word hc (by rwa [head?_append_cons hquote])
  | number hc h =>
    refine .number (by rwa [startsNumber_append hb.mem]) ?_
    rw [← List.cons_append, numberStep_append hb.mem, h, Option.map_some]
  | symbol hc h =>
    refine .symbol (hc.append hb.mem) ?_
    rw [symbolStep_append hb.mem, h, Option.map_some]

/-- **The database takes the same step where more text follows** behind a separator. -/
theorem step_append {c : Char} {r rest : List Char} {token : Option Token}
    (hb : Parts b (c :: r)) (h : step c r = some (token, rest)) :
    step c (r ++ b :: u) = some (token, rest ++ b :: u) :=
  ((begins_of_step h).append hb).step_eq

end Pieces

/-! ## What is left behind a piece -/

section Rest

theorem quotedContent?_suffix {q : Char} {cs body rest : List Char}
    (h : quotedContent? q cs = some (body, rest)) : rest <:+ cs := by
  obtain ⟨text, htext, -⟩ := closeQuoted_of_quotedContent? h
  rw [← closeQuoted_append htext]
  exact List.suffix_append text rest

theorem closeComment_suffix {depth : Nat} {cs rest : List Char}
    (h : closeComment depth cs = some rest) : rest <:+ cs := by
  fun_induction closeComment depth cs with
  | case1 cs =>
    obtain rfl := Option.some.inj h
    exact List.suffix_refl _
  | case2 => simp at h
  | case3 => simp at h
  | case4 _ _ _ _ _ ih => exact (ih h).trans (List.suffix_append [_, _] _)
  | case5 _ _ _ _ _ _ ih => exact (ih h).trans (List.suffix_append [_, _] _)
  | case6 _ _ _ _ _ _ ih => exact (ih h).trans (List.suffix_cons _ _)

theorem Unescapes.suffix {cs body rest : List Char} (h : Unescapes cs body rest) :
    rest <:+ cs := by
  induction h with
  | close => exact List.suffix_cons _ _
  | doubled _ ih => exact ih.trans (List.suffix_append [_, _] _)
  | escape _ ih => exact ih.trans ((escapedChar_suffix _ _).trans (List.suffix_cons _ _))
  | plain _ _ _ ih => exact ih.trans (List.suffix_cons _ _)

theorem digitRun_suffix (afterDigit : Bool) (cs : List Char) :
    (digitRun afterDigit cs).2 <:+ cs :=
  ⟨_, digitRun_append afterDigit cs⟩

theorem exponentRun_suffix (cs : List Char) : (exponentRun cs).2 <:+ cs := by
  cases cs with
  | nil => exact List.suffix_refl _
  | cons e r =>
    simp only [exponentRun]
    split
    · exact ((digitRun_suffix false _).trans (List.drop_suffix _ r)).trans (List.suffix_cons e r)
    · exact List.suffix_refl _

theorem numberStep_suffix {cs rest : List Char} {token : Option Token}
    (h : numberStep cs = some (token, rest)) : rest <:+ cs := by
  simp only [numberStep, Option.some.injEq, Prod.mk.injEq] at h
  obtain ⟨-, rfl⟩ := h
  refine (exponentRun_suffix _).trans (List.IsSuffix.trans ?_ (digitRun_suffix false cs))
  split
  case h_1 t hpoint =>
    rw [hpoint]
    exact (digitRun_suffix false t).trans (List.suffix_cons '.' t)
  case h_2 => exact List.suffix_refl _

theorem symbolStep_suffix {c : Char} {r rest : List Char} {token : Option Token}
    (h : symbolStep c r = some (token, rest)) : rest <:+ c :: r := by
  simp only [symbolStep] at h
  split at h
  case h_1 =>
    obtain ⟨-, rfl⟩ := Prod.mk.inj (Option.some.inj h)
    exact List.drop_suffix _ _
  case h_2 =>
    obtain ⟨-, rfl⟩ := Prod.mk.inj (Option.some.inj h)
    exact List.suffix_cons c r

theorem stringTag?_suffix {r tag text : List Char} (h : stringTag? r = some (tag, text)) :
    text <:+ r := by
  simp only [stringTag?] at h
  split at h
  case h_2 => simp at h
  case h_1 t hdrop =>
    obtain ⟨-, he⟩ := Option.ite_none_right_eq_some.1 h
    obtain ⟨-, rfl⟩ := Prod.mk.inj (Option.some.inj he)
    refine (List.suffix_cons '$' t).trans ?_
    rw [← hdrop]
    exact List.dropWhile_suffix continuesTag

/-- What is left behind a piece is the end of the text. -/
theorem Begins.suffix {c : Char} {r rest : List Char} {token : Option Token}
    (h : Begins c r token rest) : rest <:+ c :: r := by
  have hcons {t : List Char} (ht : t <:+ r) : t <:+ c :: r := ht.trans (List.suffix_cons c r)
  cases h with
  | blank => exact hcons (List.suffix_refl r)
  | string h => exact hcons (quotedContent?_suffix h)
  | name _ h => exact hcons (quotedContent?_suffix h)
  | lineComment r => exact hcons ((List.dropWhile_suffix _).trans (List.suffix_cons '-' r))
  | blockComment h => exact hcons ((closeComment_suffix h).trans (List.suffix_cons '*' _))
  | tagged htag h => exact hcons (.trans ⟨_, through_append h⟩ (stringTag?_suffix htag))
  | parameter => exact hcons (List.dropWhile_suffix _)
  | dollar => exact hcons (List.suffix_refl r)
  | escaped _ h => exact hcons (h.suffix.trans (List.suffix_cons _ _))
  | word => exact hcons (List.dropWhile_suffix _)
  | number _ h => exact numberStep_suffix h
  | symbol _ h => exact symbolStep_suffix h

end Rest

/-! ## Tokens -/

section Tokens

variable {b : Char} {u : List Char}

theorem tokensWithin?_mono {fuel fuel' : Nat} (hfuel : fuel ≤ fuel') {cs : List Char}
    {ts : List Token} (h : tokensWithin? fuel cs = some ts) : tokensWithin? fuel' cs = some ts := by
  induction fuel generalizing fuel' cs ts with
  | zero =>
    cases cs with
    | nil => simpa [tokensWithin?] using h
    | cons c r => simp [tokensWithin?] at h
  | succ fuel ih =>
    obtain ⟨fuel', rfl⟩ : ∃ n, fuel' = n + 1 := ⟨fuel' - 1, by omega⟩
    cases cs with
    | nil => simpa [tokensWithin?] using h
    | cons c r =>
      obtain ⟨⟨token, rest⟩, hstep, h⟩ := Option.bind_eq_some_iff.1 h
      obtain ⟨more, hmore, he⟩ := Option.bind_eq_some_iff.1 h
      rw [tokensWithin?, hstep]
      simp only [Option.bind_eq_bind, Option.bind_some, ih (by omega : fuel ≤ fuel') hmore]
      exact he

theorem Parts.of_step {c : Char} {r rest : List Char} {token : Option Token}
    (hb : Parts b (c :: r)) (h : step c r = some (token, rest)) : Parts b rest := by
  refine ⟨hb.mem, hb.line.imp_right ?_⟩
  intro hnot hmem
  exact hnot ((begins_of_step h).suffix.subset hmem)

theorem tokensWithin?_append {fuel fuel' : Nat} {cs : List Char} {ts us : List Token}
    (hb : Parts b cs) (h : tokensWithin? fuel cs = some ts)
    (hu : tokensWithin? fuel' (b :: u) = some us) :
    tokensWithin? (fuel + fuel') (cs ++ b :: u) = some (ts ++ us) := by
  -- Induction on the fuel: each step is taken as before, until the separator is reached.
  induction fuel generalizing cs ts with
  | zero =>
    cases cs with
    | nil =>
      obtain rfl : [] = ts := by simpa [tokensWithin?] using h
      simpa using hu
    | cons c r => simp [tokensWithin?] at h
  | succ fuel ih =>
    cases cs with
    | nil =>
      obtain rfl : [] = ts := by simpa [tokensWithin?] using h
      exact tokensWithin?_mono (by omega) hu
    | cons c r =>
      obtain ⟨⟨token, rest⟩, hstep, h⟩ := Option.bind_eq_some_iff.1 h
      obtain ⟨more, hmore, he⟩ := Option.bind_eq_some_iff.1 h
      obtain rfl : token.toList ++ more = ts := Option.some.inj he
      rw [List.cons_append, Nat.succ_add, tokensWithin?, step_append hb hstep]
      simp only [Option.bind_eq_bind, Option.bind_some, ih (hb.of_step hstep) hmore,
        List.append_assoc]

/-- **The tokens of two texts, one behind the other**, are those of the first and those of the
second, where a separator parts them. -/
theorem tokens?_append {s t : String} {ts us : List Token}
    (hb : ∃ b, t.toList.head? = some b ∧ Parts b s.toList) (hs : tokens? s = some ts)
    (ht : tokens? t = some us) : tokens? (s ++ t) = some (ts ++ us) := by
  obtain ⟨b, hhead, hb⟩ := hb
  obtain ⟨u, hu⟩ := List.head?_eq_some_iff.1 hhead
  rw [tokens?] at hs ht ⊢
  rw [String.toList_append, List.length_append]
  rw [hu] at ht ⊢
  exact tokensWithin?_append hb hs ht

end Tokens

end ChartQuery.Sql
