import ChartQuery.Proofs.Sql.JoinedText

/-!
# Masking texts one behind the other

Masking takes a string or a comment that is never closed for code. A text that follows may close it
after all, and then the two texts are masked otherwise together than apart. A text that is inert
closes neither; it may close a quoted name. So a text in front of an inert one is masked as it is
alone, unless masking it leaves a double quote open.

## Main definitions

* `IsInert cs`: a text that closes no string and no comment

## Main results

* `through_append_of_not_infix`: a mark is found in two texts if it is found in the first
* `maskChars_append_iff`: two texts are masked apart exactly if the first leaves no quote open
-/

namespace ChartQuery.Sql

open Text (apostrophe doubleQuote isWordChar)

/-! ## Marks -/

section Marks

variable {mark a b : List Char}

/-- A mark that stands in neither of two texts does not reach over their border, if one of the
characters there does not belong to it. -/
theorem not_infix_append (ha : ¬ mark <:+: a) (hb : ¬ mark <:+: b)
    (hborder : (∀ c ∈ a.getLast?, c ∉ mark) ∨ ∀ c ∈ b.head?, c ∉ mark) : ¬ mark <:+: a ++ b := by
  induction a with
  | nil => exact hb
  | cons d a ih =>
    intro h
    rw [List.cons_append, List.infix_cons_iff] at h
    rcases h with hp | h
    · rw [← List.cons_append] at hp
      rcases Nat.le_total mark.length (d :: a).length with hlen | hlen
      · have hp' := List.prefix_of_prefix_length_le hp (List.prefix_append _ b) hlen
        exact ha hp'.isInfix
      · -- The mark holds the first text and the first character of the second.
        obtain ⟨t, rfl⟩ := List.prefix_of_prefix_length_le (List.prefix_append _ b) hp hlen
        have ht := (List.prefix_append_right_inj (d :: a)).1 hp
        cases t with
        | nil => exact ha (by simp)
        | cons e t =>
          obtain ⟨b, rfl⟩ : ∃ b', b = e :: b' := by
            obtain ⟨v, rfl⟩ := ht
            exact ⟨_, rfl⟩
          rcases hborder with hborder | hborder
          · have hlast := List.getLast?_eq_some_getLast (List.cons_ne_nil d a)
            exact hborder _ hlast (List.mem_append_left _ (List.getLast_mem _))
          · exact hborder e rfl (by simp)
    · refine ih (fun h' => ha (h'.trans (List.suffix_cons d a).isInfix)) ?_ h
      refine hborder.imp_left fun hlast c hc => hlast c ?_
      rw [List.getLast?_cons, hc]
      rfl

theorem through_eq_none_iff (hmark : mark ≠ []) {cs : List Char} :
    through mark cs = none ↔ ¬ mark <:+: cs := by
  induction cs with
  | nil => simp [through, hmark]
  | cons c r ih =>
    rw [through, List.infix_cons_iff, ← List.isPrefixOf_iff_prefix]
    split
    · rename_i h
      simp [h]
    · rename_i h
      simp [h, ih]

/-- A mark is found in two texts where it is found in the first, if it is not found in the second or
at their border. -/
theorem through_append_of_not_infix (hmark : mark ≠ []) (hb : ¬ mark <:+: b)
    (hborder : ∀ c ∈ b.head?, c ∉ mark) :
    through mark (a ++ b) = (through mark a).map fun p => (p.1, p.2 ++ b) := by
  cases ha : through mark a with
  | some p => exact through_append_of_eq_some b ha
  | none =>
    have hnot := not_infix_append ((through_eq_none_iff hmark).1 ha) hb (.inr hborder)
    exact (through_eq_none_iff hmark).2 hnot

end Marks

/-! ## Inert texts -/

/-- A text that closes no string and no comment which a text in front of it leaves open: it holds
neither an apostrophe nor a slash, nor two dollar signs around a tag. -/
structure IsInert (cs : List Char) : Prop where
  apostrophe : apostrophe ∉ cs
  slash : '/' ∉ cs
  tag : ∀ tag : List Char, (∀ c ∈ tag, isWordChar c = true) → ¬ '$' :: (tag ++ ['$']) <:+: cs

/-- The character may stand in a dollar tag or at its ends. -/
def isTagChar (c : Char) : Bool := isWordChar c || c == '$'

namespace IsInert

variable {a b : List Char}

theorem notMem_tag {tag : List Char} (htag : ∀ c ∈ tag, isWordChar c = true) {c : Char}
    (hc : isTagChar c = false) : c ∉ '$' :: (tag ++ ['$']) := by
  rw [isTagChar, Bool.or_eq_false_iff, beq_eq_false_iff_ne] at hc
  intro hmem
  simp only [List.mem_cons, List.mem_append, List.not_mem_nil, or_false] at hmem
  rcases hmem with h | h | h
  · exact hc.2 h
  · rw [htag c h] at hc
    exact absurd hc.1 (by decide)
  · exact hc.2 h

/-- Inert texts stay inert when joined at a character that belongs to no tag. -/
theorem append (ha : IsInert a) (hb : IsInert b)
    (hborder : (∀ c ∈ a.getLast?, isTagChar c = false) ∨ ∀ c ∈ b.head?, isTagChar c = false) :
    IsInert (a ++ b) where
  apostrophe := by simp [ha.apostrophe, hb.apostrophe]
  slash := by simp [ha.slash, hb.slash]
  tag tag htag := by
    refine not_infix_append (ha.tag tag htag) (hb.tag tag htag) ?_
    have hnone : ∀ {o : Option Char}, (∀ c ∈ o, isTagChar c = false) →
        ∀ c ∈ o, c ∉ '$' :: (tag ++ ['$']) :=
      fun h c hc => notMem_tag htag (h c hc)
    exact hborder.imp hnone hnone

/-- One dollar sign is none too many. -/
theorem of_count (hquote : Text.apostrophe ∉ a) (hslash : '/' ∉ a) (hdollar : a.count '$' ≤ 1) :
    IsInert a where
  apostrophe := hquote
  slash := hslash
  tag tag _ h := by
    have hcount := h.sublist.count_le '$'
    rw [List.count_cons_self, List.count_append, List.count_singleton_self] at hcount
    omega

end IsInert

/-! ## Ends of strings and names -/

section Ends

variable {q : Char} {cs u : List Char}

theorem closeQuoted_eq_none_iff : closeQuoted q cs = none ↔ q ∉ cs := by
  fun_induction closeQuoted q cs with
  | case1 => simp
  | case2 => simp
  | case3 => simp
  | case4 => simp
  | case5 => simp
  | case6 c r hc ih => simp [ih, Ne.symm hc]

/-- A text without the quote closes nothing. -/
theorem closeQuoted_append_of_notMem (hu : q ∉ u) :
    closeQuoted q (cs ++ u) = (closeQuoted q cs).map fun p => (p.1, p.2 ++ u) := by
  fun_induction closeQuoted q cs with
  | case1 => simpa using closeQuoted_eq_none_iff.2 hu
  | case2 =>
    -- The quote is the last character of the first text.
    cases u with
    | nil => simp [closeQuoted]
    | cons d u =>
      have hd : d ≠ q := fun h => hu (by simp [h])
      simp [closeQuoted, hd]
  | case3 r' body rest hbody ih =>
    rw [hbody] at ih
    simp [closeQuoted, ih]
  | case4 r' hnone ih =>
    rw [hnone] at ih
    simp [closeQuoted, ih]
  | case5 d r' hd => simp [closeQuoted, hd]
  | case6 c r hc ih =>
    rw [List.cons_append, closeQuoted.eq_def]
    simp only [hc, if_false, ih, Option.map_map]
    rfl

/-- A quoted name ends where it ends alone, unless the text behind its end is one quote without
another: then that quote belongs to the name, which ends in the text that follows. -/
theorem closeQuoted_append_of_mem (hhead : ∀ c ∈ u.head?, c ≠ q) (hu : q ∈ u)
    {body rest : List Char} (h : closeQuoted q cs = some (body, rest)) :
    closeQuoted q (cs ++ u) = some (body, rest ++ u) ∨
      ∃ r more rest', rest = q :: r ∧ q ∉ r ∧
        closeQuoted q (cs ++ u) = some (body ++ q :: more, rest') := by
  fun_induction closeQuoted q cs generalizing body rest with
  | case1 => simp at h
  | case2 =>
    simp only [Option.some.injEq, Prod.mk.injEq] at h
    obtain ⟨rfl, rfl⟩ := h
    cases u with
    | nil => simp at hu
    | cons d u =>
      have hd : d ≠ q := hhead d rfl
      exact .inl (by simp [closeQuoted, hd])
  | case3 r' b t hb ih =>
    simp only [Option.some.injEq, Prod.mk.injEq] at h
    obtain ⟨rfl, rfl⟩ := h
    rcases ih hb with heq | ⟨r, more, rest', rfl, hr, heq⟩
    · exact .inl (by simp [closeQuoted, heq])
    · exact .inr ⟨r, more, rest', rfl, hr, by simp [closeQuoted, heq]⟩
  | case4 r' hnone _ =>
    simp only [Option.some.injEq, Prod.mk.injEq] at h
    obtain ⟨rfl, rfl⟩ := h
    have hr := closeQuoted_eq_none_iff.1 hnone
    obtain ⟨⟨more, rest'⟩, hmore⟩ : ∃ p, closeQuoted q (r' ++ u) = some p := by
      refine Option.ne_none_iff_exists'.1 fun hnone' => ?_
      exact closeQuoted_eq_none_iff.1 hnone' (List.mem_append_right _ hu)
    exact .inr ⟨r', more, rest', rfl, hr, by simp [closeQuoted, hmore]⟩
  | case5 d r' hd =>
    simp only [Option.some.injEq, Prod.mk.injEq] at h
    obtain ⟨rfl, rfl⟩ := h
    exact .inl (by simp [closeQuoted, hd])
  | case6 c r hc ih =>
    obtain ⟨⟨b, t⟩, hb, he⟩ := Option.map_eq_some_iff.1 h
    obtain ⟨rfl, rfl⟩ := Prod.mk.inj he
    have hcons : closeQuoted q (c :: (r ++ u)) =
        (closeQuoted q (r ++ u)).map fun p => (c :: p.1, p.2) := by
      rw [closeQuoted.eq_def]
      simp [hc]
    rcases ih hb with heq | ⟨r', more, rest', rfl, hr, heq⟩
    · exact .inl (by rw [List.cons_append, hcons, heq]; rfl)
    · exact .inr ⟨r', more, rest', rfl, hr, by rw [List.cons_append, hcons, heq]; rfl⟩

end Ends

/-! ## Masking with an inert text behind -/

section Masking

variable {u : List Char}

theorem dollarTag?_append_cons {b : Char} (hb : isTagChar b = false) (r : List Char) :
    dollarTag? (r ++ b :: u) = (dollarTag? r).map fun p => (p.1, p.2 ++ b :: u) := by
  rw [isTagChar, Bool.or_eq_false_iff, beq_eq_false_iff_ne] at hb
  obtain ⟨hword, hdollar⟩ := hb
  obtain ⟨htake, hdrop⟩ := takeWhile_append_cons (u := u) hword r
  simp only [dollarTag?, htake, hdrop]
  cases r.dropWhile isWordChar with
  | nil => simp [hdollar]
  | cons d t =>
    by_cases hd : d = '$'
    · subst hd
      simp only [List.cons_append]
      split <;> rfl
    · simp [hd]

theorem isWordChar_of_dollarTag? {r tag rest : List Char} (h : dollarTag? r = some (tag, rest)) :
    ∀ c ∈ tag, isWordChar c = true := by
  simp only [dollarTag?] at h
  split at h
  · split at h
    · simp only [Option.some.injEq, Prod.mk.injEq] at h
      obtain ⟨rfl, -⟩ := h
      exact fun c hc => List.mem_takeWhile_imp hc
    · simp at h
  · simp at h

/-- A string in dollar tags ends where it ends alone. -/
theorem closeDollar_append_inert {b : Char} (hu : IsInert (b :: u)) (hb : isTagChar b = false)
    (r : List Char) :
    closeDollar (r ++ b :: u) = (closeDollar r).map fun p => (p.1, p.2 ++ b :: u) := by
  simp only [closeDollar, dollarTag?_append_cons hb]
  cases htag : dollarTag? r with
  | none => rfl
  | some p =>
    obtain ⟨tag, rest⟩ := p
    have hword := isWordChar_of_dollarTag? htag
    have hnot := hu.tag tag hword
    have hborder : ∀ c ∈ (b :: u).head?, c ∉ '$' :: (tag ++ ['$']) := by
      rintro _ ⟨⟩
      exact IsInert.notMem_tag hword hb
    have hthrough := through_append_of_not_infix (a := rest) (by simp) hnot hborder
    simp only [Option.map_some, Option.bind_eq_bind, Option.bind_some, List.cons_append, hthrough]
    cases through ('$' :: (tag ++ ['$'])) rest <;> rfl

/-- What starts with no double quote ends where it ends alone, if an inert text follows on a line of
its own. -/
theorem marked?_append_inert (hu : IsInert ('\n' :: u)) {c : Char} (hc : c ≠ doubleQuote)
    (r : List Char) :
    marked? c (r ++ '\n' :: u) = (marked? c r).map fun p => (p.1, p.2 ++ '\n' :: u) := by
  unfold marked?
  split
  -- a string
  · rw [closeQuoted_append_of_notMem hu.apostrophe]
    cases closeQuoted apostrophe r <;> rfl
  split
  · rw [closeDollar_append_inert hu (by decide)]
    cases closeDollar r <;> rfl
  split
  -- a comment to the end of its line
  · match r with
    | [] => rfl
    | d :: r =>
      by_cases hd : d = '-'
      · subst hd
        obtain ⟨htake, hdrop⟩ :=
          takeWhile_append_cons (p := (· != '\n')) (b := '\n') (u := u) (by decide) r
        simp only [List.cons_append, htake, hdrop, Option.map_some]
      · simp [hd]
  split
  -- a comment between marks
  · match r with
    | [] => rfl
    | d :: r =>
      by_cases hd : d = '*'
      · subst hd
        have hnot : ¬ ['*', '/'] <:+: '\n' :: u := fun h => hu.slash (h.subset (by simp))
        have hthrough := through_append_of_not_infix (a := r) (by simp) hnot (by simp)
        simp only [List.cons_append, hthrough, Option.map_map]
        cases through ['*', '/'] r <;> rfl
      · simp [hd]
  · rfl

/-- Masking shows no double quote of a quoted name. -/
theorem doubleQuote_notMem_name (text : List Char) :
    doubleQuote ∉ text.map nameCharOrBlank := by
  intro hmem
  obtain ⟨c, -, hc⟩ := List.mem_map.1 hmem
  rw [nameCharOrBlank] at hc
  split at hc
  · rename_i hname
    rw [hc] at hname
    exact absurd hname (by decide)
  · exact absurd hc (by decide)

theorem doubleQuote_notMem_masked {l : Lexeme} (h : l.kind ≠ .code) : doubleQuote ∉ l.masked := by
  obtain ⟨kind, text⟩ := l
  cases kind with
  | code => exact absurd rfl h
  | string => exact (by decide : doubleQuote ∉ [apostrophe, apostrophe])
  | name =>
    have hname := doubleQuote_notMem_name text
    have hblank : doubleQuote ≠ ' ' := by decide
    simp [Lexeme.masked, hblank, hname]
  | comment => exact (by decide : doubleQuote ∉ [' '])

/-- How a text is masked in front of another: as it is alone, or otherwise from the place on at
which it leaves a double quote open. -/
inductive MaskedBefore (cs u : List Char) : Prop
  | apart (hclosed : doubleQuote ∉ maskChars cs)
    (heq : maskChars (cs ++ u) = maskChars cs ++ maskChars u) : MaskedBefore cs u
  | astray (m x y : List Char) (hopen : maskChars cs = m ++ doubleQuote :: x)
    (heq : maskChars (cs ++ u) = m ++ y) (hy : y.head? ≠ some doubleQuote) : MaskedBefore cs u

/-- What is masked in front takes no part. -/
theorem MaskedBefore.prepend {cs cs' m : List Char} (h : MaskedBefore cs u)
    (hm : doubleQuote ∉ m) (halone : maskChars cs' = m ++ maskChars cs)
    (htogether : maskChars (cs' ++ u) = m ++ maskChars (cs ++ u)) : MaskedBefore cs' u := by
  cases h with
  | apart hclosed heq =>
    refine .apart ?_ (by rw [htogether, heq, halone, List.append_assoc])
    rw [halone, List.mem_append, not_or]
    exact ⟨hm, hclosed⟩
  | astray m' x y hopen heq hy =>
    exact .astray (m ++ m') x y (by rw [halone, hopen, List.append_assoc])
      (by rw [htogether, heq, List.append_assoc]) hy

/-- A double quote is masked as a blank where it starts a quoted name. -/
theorem maskChars_name {r body rest : List Char}
    (h : closeQuoted doubleQuote r = some (body, rest)) :
    maskChars (doubleQuote :: r) =
      ' ' :: ' ' :: (body.map nameCharOrBlank ++ ' ' :: maskChars rest) := by
  have hmark : marked? doubleQuote r = some (⟨.name, doubleQuote :: body⟩, rest) := by
    have hne : doubleQuote ≠ apostrophe ∧ doubleQuote ≠ '$' := by decide
    simp [marked?, hne, h]
  have hblank : nameCharOrBlank doubleQuote = ' ' := by decide
  rw [maskChars_of_marked? hmark]
  simp [Lexeme.masked, hblank]

/-- A double quote that nothing closes is code. -/
theorem maskChars_openQuote {r : List Char} (h : doubleQuote ∉ r) :
    maskChars (doubleQuote :: r) = doubleQuote :: maskChars r := by
  have hmark : marked? doubleQuote r = none := by
    have hne : doubleQuote ≠ apostrophe ∧ doubleQuote ≠ '$' := by decide
    simp [marked?, hne, closeQuoted_eq_none_iff.2 h]
  exact maskChars_of_not_marked? hmark

/-- A quote that is open alone is closed by a quote of the text behind. -/
theorem MaskedBefore.of_openQuote {r : List Char} (hquote : doubleQuote ∈ u)
    (h : doubleQuote ∉ r) : MaskedBefore (doubleQuote :: r) u := by
  obtain ⟨⟨body, rest⟩, hlate⟩ : ∃ p, closeQuoted doubleQuote (r ++ u) = some p := by
    refine Option.ne_none_iff_exists'.1 fun hnone => ?_
    exact closeQuoted_eq_none_iff.1 hnone (List.mem_append_right _ hquote)
  refine .astray [] (maskChars r) _ (maskChars_openQuote h) (maskChars_name hlate) ?_
  exact fun hhead => absurd (Option.some.inj hhead) (by decide)

/-- A quoted name ends where it ends alone, or takes the quote behind its end, which alone is
open. -/
theorem MaskedBefore.of_name {r body rest : List Char} (hhead : ∀ d ∈ u.head?, d ≠ doubleQuote)
    (hquote : doubleQuote ∈ u) (hclose : closeQuoted doubleQuote r = some (body, rest))
    (hrest : MaskedBefore rest u) : MaskedBefore (doubleQuote :: r) u := by
  have halone := maskChars_name hclose
  rcases closeQuoted_append_of_mem hhead hquote hclose with
    hsame | ⟨r', more, rest', rfl, hr', hlate⟩
  -- the same end
  · have hm : doubleQuote ∉ ' ' :: ' ' :: (body.map nameCharOrBlank ++ [' ']) := by
      have hname := doubleQuote_notMem_name body
      have hne : doubleQuote ≠ ' ' := by decide
      simp [hne, hname]
    refine hrest.prepend hm ?_ ?_
    · rw [halone]
      simp
    · rw [List.cons_append, maskChars_name hsame]
      simp
  -- a later end
  · rw [maskChars_openQuote hr'] at halone
    have hblank : nameCharOrBlank doubleQuote = ' ' := by decide
    refine .astray (' ' :: ' ' :: (body.map nameCharOrBlank ++ [' '])) (maskChars r')
      (more.map nameCharOrBlank ++ ' ' :: maskChars rest') ?_ ?_ ?_
    · rw [halone]
      simp
    · rw [List.cons_append, maskChars_name hlate]
      simp [hblank]
    · cases more with
      | nil => exact fun h => absurd (Option.some.inj h) (by decide)
      | cons d more =>
        intro h
        have hd : nameCharOrBlank d = doubleQuote := Option.some.inj h
        exact doubleQuote_notMem_name [d] (by simp [hd])

/-- A piece that starts with no double quote shows none, and is masked in front of an inert text as
it is alone. -/
theorem MaskedBefore.of_lexeme (hu : IsInert ('\n' :: u)) {c : Char} {r : List Char}
    (hc : c ≠ doubleQuote) (hrest : MaskedBefore (lexeme c r).2 ('\n' :: u)) :
    MaskedBefore (c :: r) ('\n' :: u) := by
  have hmark := marked?_append_inert hu hc r
  rw [lexeme] at hrest
  cases hm : marked? c r with
  | none =>
    rw [hm] at hmark hrest
    refine hrest.prepend (m := [c]) ?_ (maskChars_of_not_marked? hm) ?_
    · simpa using Ne.symm hc
    · exact maskChars_of_not_marked? hmark
  | some p =>
    rw [hm] at hmark hrest
    refine hrest.prepend (doubleQuote_notMem_masked (kind_of_marked? hm)) ?_ ?_
    · exact maskChars_of_marked? hm
    · exact maskChars_of_marked? hmark

theorem maskedBefore_inert (hu : IsInert ('\n' :: u)) (hquote : doubleQuote ∈ u)
    (cs : List Char) : MaskedBefore cs ('\n' :: u) := by
  have hquote' : doubleQuote ∈ '\n' :: u := List.mem_cons_of_mem _ hquote
  have hhead : ∀ d ∈ ('\n' :: u).head?, d ≠ doubleQuote := by
    rintro _ ⟨⟩
    decide
  -- Induction on the length: behind the piece in front a shorter text is left.
  induction hn : cs.length using Nat.strongRecOn generalizing cs with
  | ind n ih =>
    cases cs with
    | nil => exact .apart (by simp [maskChars, scan, scanWithin]) rfl
    | cons c r =>
      rw [List.length_cons] at hn
      have hshorter {rest : List Char} (hlen : rest.length ≤ r.length) :
          MaskedBefore rest ('\n' :: u) := ih rest.length (by omega) rest rfl
      by_cases hc : c = doubleQuote
      · subst hc
        cases hclose : closeQuoted doubleQuote r with
        | none => exact .of_openQuote hquote' (closeQuoted_eq_none_iff.1 hclose)
        | some p =>
          refine .of_name hhead hquote' hclose (hshorter ?_)
          rw [← closeQuoted_append hclose, List.length_append]
          exact Nat.le_add_left _ _
      · exact .of_lexeme hu hc (hshorter (lexeme_rest_length c r))

/-- **Two texts are masked apart exactly if the first leaves no quote open**, where the second is
inert and has a line of its own. -/
theorem maskChars_append_iff (hu : IsInert ('\n' :: u)) (hquote : doubleQuote ∈ u)
    (cs : List Char) :
    maskChars (cs ++ '\n' :: u) = maskChars cs ++ maskChars ('\n' :: u) ↔
      doubleQuote ∉ maskChars cs := by
  cases maskedBefore_inert hu hquote cs with
  | apart hclosed heq => exact ⟨fun _ => hclosed, fun _ => heq⟩
  | astray m x y hopen heq hy =>
    constructor
    · intro h
      rw [heq, hopen, List.append_assoc] at h
      have hy' := List.append_cancel_left h
      rw [hy'] at hy
      exact absurd rfl hy
    · intro h
      rw [hopen] at h
      simp at h

end Masking

end ChartQuery.Sql
