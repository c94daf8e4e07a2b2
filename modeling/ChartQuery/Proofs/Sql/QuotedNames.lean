import ChartQuery.Proofs.Sql.QueryText

/-!
# The names that a query quotes

A text is read by its double quotes: what stands between two of them is a name. The text of a query
quotes the names of its items, its table, its conditions and its groups, in this order, and says
`FROM` nowhere else than in front of its table. So the table that the text selects from can be told
from the text alone, and so can the columns that it speaks of.

## Main definitions

* `quotedNames cs`: the names between double quotes
* `Mentions P s`: every name that the text quotes satisfies a condition
* `Query.Names P q`: every name of the query but that of its table satisfies a condition
* `TableRef.spelled`: a table with its names written in some way
* `SelectsFrom table P text`: the text selects from a table, and quotes names of some kind elsewhere

## Main results

* `quotedNames_append`: the names in joined texts
* `Query.text_selectsFrom`: the text of a query selects from its table
* `spelled_clean_inj`: two tables are written alike exactly if their cleaned names are
-/

namespace ChartQuery.Sql

open Text (doubleQuote)

/-! ## Quoted names -/

/-- The names between the double quotes of a text; a name that has begun may be given. -/
def namesFrom : Option (List Char) → List Char → List String
  | _, [] => []
  | none, c :: cs => if c = doubleQuote then namesFrom (some []) cs else namesFrom none cs
  | some n, c :: cs =>
    if c = doubleQuote then String.ofList n :: namesFrom none cs else namesFrom (some (n ++ [c])) cs

/-- The names between the double quotes of a text. -/
def quotedNames (cs : List Char) : List String := namesFrom none cs

theorem namesFrom_name {n : List Char} (hn : ∀ c ∈ n, isNameChar c = true) (m cs : List Char) :
    namesFrom (some m) (n ++ doubleQuote :: cs) = String.ofList (m ++ n) :: quotedNames cs := by
  induction n generalizing m with
  | nil => simp [namesFrom, quotedNames]
  | cons c n ih =>
    have hc : c ≠ doubleQuote := by
      rintro rfl
      exact absurd (hn _ List.mem_cons_self) (by decide)
    rw [List.cons_append, namesFrom, if_neg hc, ih fun d hd => hn d (List.mem_cons_of_mem _ hd),
      List.append_assoc, List.singleton_append]

theorem quotedNames_char {c : Char} (hc : c ≠ doubleQuote) (cs : List Char) :
    quotedNames (c :: cs) = quotedNames cs := by
  rw [quotedNames, namesFrom, if_neg hc]
  rfl

theorem quotedNames_name {n : List Char} (hn : ∀ c ∈ n, isNameChar c = true) (cs : List Char) :
    quotedNames (doubleQuote :: (n ++ doubleQuote :: cs)) = String.ofList n :: quotedNames cs := by
  rw [quotedNames, namesFrom, if_pos rfl, namesFrom_name hn]
  rfl

/-- The names in joined texts. -/
theorem quotedNames_append {a : List Char} (ha : QuotesOnlyNames a) (b : List Char) :
    quotedNames (a ++ b) = quotedNames a ++ quotedNames b := by
  -- The first text is read a character or a whole name at a time, so that it ends outside of quotes.
  induction ha with
  | nil => rfl
  | char hc _ ih => rw [List.cons_append, quotedNames_char hc, quotedNames_char hc, ih]
  | name hn _ ih =>
    rw [List.cons_append, List.append_assoc, List.cons_append, quotedNames_name hn,
      quotedNames_name hn, ih, List.cons_append]

theorem quotedNames_inQuotes (i : Identifier) : quotedNames i.inQuotes.toList = [i.name] := by
  rw [Identifier.inQuotes, String.toList_ofList]
  exact (quotedNames_name (isNameChar_of_mem_name i) []).trans (by simp [quotedNames, namesFrom])

theorem quotesOnlyNames_of_notMem {cs : List Char} (h : doubleQuote ∉ cs) : QuotesOnlyNames cs := by
  induction cs with
  | nil => exact .nil
  | cons c cs ih =>
    rw [List.mem_cons, not_or] at h
    exact .char (Ne.symm h.1) (ih h.2)

theorem quotedNames_of_notMem {cs : List Char} (h : doubleQuote ∉ cs) : quotedNames cs = [] := by
  induction cs with
  | nil => rfl
  | cons c cs ih =>
    rw [List.mem_cons, not_or] at h
    rw [quotedNames_char (Ne.symm h.1), ih h.2]

/-! ## Texts that mention names -/

/-- The quotes of a text stand around names, all of which satisfy a condition. -/
structure Mentions (P : String → Prop) (s : String) : Prop where
  quotes : QuotesOnlyNames s.toList
  names : ∀ n ∈ quotedNames s.toList, P n

namespace Mentions

variable {P : String → Prop} {s t : String}

theorem of_notMem (h : doubleQuote ∉ s.toList) : Mentions P s where
  quotes := quotesOnlyNames_of_notMem h
  names n hn := by
    rw [quotedNames_of_notMem h] at hn
    contradiction

theorem of_plain (h : s.toList.all isPlainChar = true) : Mentions P s := by
  apply of_notMem
  intro hquote
  exact absurd (List.all_eq_true.1 h _ hquote) (by decide)

theorem inQuotes {i : Identifier} (h : P i.name) : Mentions P i.inQuotes where
  quotes := (IsHarmless.inQuotes i).quotes
  names n hn := by
    rw [quotedNames_inQuotes, List.mem_singleton] at hn
    rw [hn]
    exact h

theorem append (hs : Mentions P s) (ht : Mentions P t) : Mentions P (s ++ t) where
  quotes := by
    rw [String.toList_append]
    exact hs.quotes.append ht.quotes
  names n hn := by
    rw [String.toList_append, quotedNames_append hs.quotes, List.mem_append] at hn
    rcases hn with hn | hn
    · exact hs.names n hn
    · exact ht.names n hn

theorem intercalate {sep : String} (hsep : Mentions P sep) {l : List String}
    (h : ∀ s ∈ l, Mentions P s) : Mentions P (sep.intercalate l) := by
  induction l with
  | nil => exact of_plain rfl
  | cons s l ih =>
    have hs := h s List.mem_cons_self
    have hl := ih fun t ht => h t (List.mem_cons_of_mem _ ht)
    cases l with
    | nil => simpa using hs
    | cons t l =>
      rw [String.intercalate_cons_cons]
      exact (hs.append hsep).append hl

end Mentions

/-! ## The names of a query -/

/-- The column of an expression. -/
def Expr.source : Expr → Identifier
  | column c => c
  | date c => c
  | datePart c _ => c
  | aggregate _ c => c

/-- The axis is of one column, at every resolution. -/
theorem source_axisExpr (x : Identifier) (r : Option Resolution) : (axisExpr x r).source = x := by
  rcases r with _ | _ | _ | _ <;> rfl

/-- The column of a condition. -/
def Condition.source : Condition → Identifier
  | notNull c => c
  | compare c _ _ => c
  | member c _ => c

/-- Every name of the query but that of its table satisfies a condition. -/
structure Query.Names (P : String → Prop) (q : Query) : Prop where
  items : ∀ i ∈ q.items, P i.expr.source.name ∧ ∀ a, i.givenName = some a → P a.name
  conditions : ∀ c ∈ q.conditions, P c.source.name
  groups : ∀ e ∈ q.groupBy, P e.source.name

theorem Query.Names.mono {P Q : String → Prop} {q : Query} (h : q.Names P)
    (hPQ : ∀ n, P n → Q n) : q.Names Q where
  items i hi := ⟨hPQ _ (h.items i hi).1, fun a ha => hPQ _ ((h.items i hi).2 a ha)⟩
  conditions c hc := hPQ _ (h.conditions c hc)
  groups e he := hPQ _ (h.groups e he)

section Writing

variable {P : String → Prop}

theorem Expr.text_mentions {e : Expr} (h : P e.source.name) : Mentions P e.text := by
  cases e with
  | column c => exact .inQuotes h
  | date c => exact ((Mentions.of_plain rfl).append (.inQuotes h)).append (.of_plain rfl)
  | datePart c monthly =>
    have hpattern : Mentions P (if monthly then "'%Y-%m'" else "'%Y'") := by
      apply Mentions.of_notMem
      cases monthly <;> decide
    exact ((((Mentions.of_plain rfl).append (.inQuotes h)).append (.of_plain rfl)).append
      hpattern).append (.of_plain rfl)
  | aggregate f c =>
    exact (((Mentions.of_plain f.name_plain).append (.of_plain rfl)).append (.inQuotes h)).append
      (.of_plain rfl)

theorem Item.text_mentions {i : Item} (h : P i.expr.source.name)
    (hname : ∀ a, i.givenName = some a → P a.name) : Mentions P i.text := by
  obtain ⟨e, _ | a⟩ := i
  · exact Expr.text_mentions h
  · exact ((Expr.text_mentions h).append (.of_plain rfl)).append (.inQuotes (hname a rfl))

theorem Condition.text_mentions {c : Condition} (hplain : HasPlainParameters c)
    (h : P c.source.name) : Mentions P c.text := by
  cases c with
  | notNull c => exact (Mentions.inQuotes h).append (.of_plain rfl)
  | compare c op p =>
    exact ((((Mentions.inQuotes h).append (.of_plain rfl)).append
      (.of_plain (FilterOperator.sign_plain op))).append (.of_plain rfl)).append (.of_plain hplain)
  | member c ps =>
    refine (((Mentions.inQuotes h).append (.of_plain rfl)).append
      (.intercalate (.of_plain rfl) ?_)).append (.of_plain rfl)
    intro s hs
    obtain ⟨p, hp, rfl⟩ := List.mem_map.1 hs
    exact (Mentions.of_plain rfl).append (.of_plain (hplain p hp))

theorem OrderItem.text_mentions (o : OrderItem) : Mentions P o.text := by
  refine ((Mentions.of_plain (IsHarmless.digits_plain _)).append ?_).append (.of_plain rfl)
  cases o.descending <;> exact .of_plain rfl

theorem clause_mentions (keyword sep : String) (hkeyword : keyword.toList.all isPlainChar = true)
    (hsep : sep.toList.all isPlainChar = true) {l : List String} (h : ∀ s ∈ l, Mentions P s) :
    Mentions P (clause keyword l sep) := by
  rw [clause]
  split
  · exact .of_plain rfl
  · exact (((Mentions.of_plain rfl).append (.of_plain hkeyword)).append (.of_plain rfl)).append
      (.intercalate (.of_plain hsep) h)

/-- A whole number has no quotes. -/
theorem doubleQuote_notMem_int (n : Int) : doubleQuote ∉ (toString n).toList := by
  have hnat : ∀ m : Nat, doubleQuote ∉ (toString m).toList := by
    intro m hquote
    exact absurd (List.all_eq_true.1 (IsHarmless.digits_plain m) _ hquote) (by decide)
  rw [Int.toString_eq_repr, Int.repr_eq_if]
  split
  · exact hnat _
  · rw [String.toList_append, List.mem_append, not_or]
    exact ⟨by decide, hnat _⟩

end Writing

/-! ## The table of a query -/

/-- A name in double quotes, as it is. -/
def inDoubleQuotes (n : String) : String :=
  String.ofList (doubleQuote :: n.toList ++ [doubleQuote])

end ChartQuery.Sql

namespace ChartQuery

/-- The table in double quotes, behind its schema if that has a name, with the names written in some
way. -/
def TableRef.spelled (write : String → String) (t : TableRef) : String :=
  if (write t.schema).isEmpty then Sql.inDoubleQuotes (write t.table)
  else Sql.inDoubleQuotes (write t.schema) ++ "." ++ Sql.inDoubleQuotes (write t.table)

/-- A query shows its table with cleaned names. -/
theorem TableRef.spelled_clean (t : TableRef) : t.spelled clean = t.qualified := by
  rw [spelled, qualified]
  cases h : (clean t.schema).isEmpty <;> simp [Identifier.isNamed, h] <;> rfl

namespace Sql

/-- The text selects from a table, and quotes only names of some kind in front of it and behind it.
The table stands between the first `FROM` outside of quotes and the blank that follows it. -/
def SelectsFrom (table : String) (P : String → Prop) (text : String) : Prop :=
  ∃ selected rest, text = "SELECT " ++ selected ++ " FROM " ++ table ++ rest ∧
    ¬ "FROM".toList <:+: outsideQuotes selected.toList ∧ rest.toList.head? = some ' ' ∧
    ∀ n ∈ quotedNames selected.toList ++ quotedNames rest.toList, P n

theorem SelectsFrom.mono {table text : String} {P Q : String → Prop} (h : SelectsFrom table P text)
    (hPQ : ∀ n, P n → Q n) : SelectsFrom table Q text := by
  obtain ⟨selected, rest, htext, hfrom, hblank, hnames⟩ := h
  exact ⟨selected, rest, htext, hfrom, hblank, fun n hn => hPQ n (hnames n hn)⟩

/-! ## One `FROM` -/

section OutsideQuotes

variable {c : Char}

theorem notMem_outsideQuotes_append {s t : String} (hquotes : QuotesOnlyNames s.toList)
    (hs : c ∉ outsideQuotes s.toList) (ht : c ∉ outsideQuotes t.toList) :
    c ∉ outsideQuotes (s ++ t).toList := by
  rw [String.toList_append, outsideQuotes_append hquotes, List.mem_append, not_or]
  exact ⟨hs, ht⟩

theorem notMem_outsideQuotes_intercalate {sep : String} (hquotes : QuotesOnlyNames sep.toList)
    (hsep : c ∉ outsideQuotes sep.toList) {l : List String}
    (h : ∀ s ∈ l, QuotesOnlyNames s.toList ∧ c ∉ outsideQuotes s.toList) :
    c ∉ outsideQuotes (sep.intercalate l).toList := by
  induction l with
  | nil => exact List.not_mem_nil
  | cons s l ih =>
    have hs := h s List.mem_cons_self
    have hl := ih fun t ht => h t (List.mem_cons_of_mem _ ht)
    cases l with
    | nil => simpa using hs.2
    | cons t l =>
      rw [String.intercalate_cons_cons]
      apply notMem_outsideQuotes_append
      · rw [String.toList_append]
        exact hs.1.append hquotes
      · exact notMem_outsideQuotes_append hs.1 hs.2 hsep
      · exact hl

end OutsideQuotes

/-- Outside of quotes no expression has a capital of `FROM`. -/
theorem Expr.notMem_outsideQuotes (e : Expr) : 'F' ∉ outsideQuotes e.text.toList := by
  rw [e.text_sameOutside.eq]
  -- Without names there are only so many expressions.
  cases e with
  | column c => exact (by decide : 'F' ∉ outsideQuotes (Expr.column nameless).text.toList)
  | date c => exact (by decide : 'F' ∉ outsideQuotes (Expr.date nameless).text.toList)
  | datePart c monthly =>
    show 'F' ∉ outsideQuotes (Expr.datePart nameless monthly).text.toList
    cases monthly <;> decide
  | aggregate f c =>
    show 'F' ∉ outsideQuotes (Expr.aggregate f nameless).text.toList
    rcases f with (_ | _) | _ <;> decide

theorem Item.notMem_outsideQuotes (i : Item) : 'F' ∉ outsideQuotes i.text.toList := by
  obtain ⟨e, _ | a⟩ := i
  · exact e.notMem_outsideQuotes
  · have has : QuotesOnlyNames (e.text ++ " AS ").toList :=
      (e.text_sameOutside.append (.of_plain rfl)).left.quotes
    apply notMem_outsideQuotes_append has
    · exact notMem_outsideQuotes_append e.text_sameOutside.left.quotes e.notMem_outsideQuotes
        (by decide)
    · rw [outsideQuotes_inQuotes]
      exact List.not_mem_nil

/-! ## The text of a query -/

/-- What a query selects. -/
def Query.selectedText (q : Query) : String := ", ".intercalate (q.items.map Item.text)

/-- What stands behind the table of a query. -/
def Query.restText (q : Query) : String :=
  clause "WHERE" (q.conditions.map Condition.text) " AND " ++
    (clause "GROUP BY" (q.groupBy.map Expr.text) ", " ++
      (clause "ORDER BY" (q.orderBy.map OrderItem.text) ", " ++ (" LIMIT " ++ toString q.limit)))

theorem Query.text_eq (q : Query) :
    q.text = "SELECT " ++ q.selectedText ++ " FROM " ++ q.tableText ++ q.restText := by
  simp only [text, selectedText, restText, String.append_assoc]

/-- What a query selects does not say `FROM` outside of quotes. -/
theorem Query.selectedText_noFrom (q : Query) :
    ¬ "FROM".toList <:+: outsideQuotes q.selectedText.toList := by
  intro hfrom
  -- The first letter alone tells: neither functions nor casts have it as a capital.
  have hcapital : 'F' ∉ outsideQuotes q.selectedText.toList := by
    apply notMem_outsideQuotes_intercalate (quotesOnlyNames_of_notMem (by decide)) (by decide)
    intro s hs
    obtain ⟨i, -, rfl⟩ := List.mem_map.1 hs
    exact ⟨i.text_sameOutside.left.quotes, i.notMem_outsideQuotes⟩
  exact hcapital (hfrom.subset (by decide))

/-- A clause in front of a text that starts with a blank starts with one itself. -/
theorem head?_clause_append (keyword sep : String) (l : List String) {s : String}
    (h : s.toList.head? = some ' ') : (clause keyword l sep ++ s).toList.head? = some ' ' := by
  rw [clause]
  split
  · simpa using h
  · simp

theorem Query.head?_restText (q : Query) : q.restText.toList.head? = some ' ' := by
  apply head?_clause_append
  apply head?_clause_append
  apply head?_clause_append
  rw [String.toList_append]
  rfl

section QueryText

variable {P : String → Prop} {q : Query}

theorem Query.selectedText_mentions (h : q.Names P) : Mentions P q.selectedText := by
  apply Mentions.intercalate (.of_plain rfl)
  intro s hs
  obtain ⟨i, hi, rfl⟩ := List.mem_map.1 hs
  exact Item.text_mentions (h.items i hi).1 (h.items i hi).2

theorem Query.restText_mentions (hplain : ∀ c ∈ q.conditions, HasPlainParameters c)
    (h : q.Names P) : Mentions P q.restText := by
  have hconditions : ∀ s ∈ q.conditions.map Condition.text, Mentions P s := by
    intro s hs
    obtain ⟨c, hc, rfl⟩ := List.mem_map.1 hs
    exact Condition.text_mentions (hplain c hc) (h.conditions c hc)
  have hgroups : ∀ s ∈ q.groupBy.map Expr.text, Mentions P s := by
    intro s hs
    obtain ⟨e, he, rfl⟩ := List.mem_map.1 hs
    exact Expr.text_mentions (h.groups e he)
  have horder : ∀ s ∈ q.orderBy.map OrderItem.text, Mentions P s := by
    intro s hs
    obtain ⟨o, -, rfl⟩ := List.mem_map.1 hs
    exact o.text_mentions
  have hlimit : Mentions P (" LIMIT " ++ toString q.limit) :=
    (Mentions.of_plain rfl).append (.of_notMem (doubleQuote_notMem_int q.limit))
  exact (clause_mentions "WHERE" " AND " rfl rfl hconditions).append
    ((clause_mentions "GROUP BY" ", " rfl rfl hgroups).append
      ((clause_mentions "ORDER BY" ", " rfl rfl horder).append hlimit))

/-- **The text of a query selects from its table**, and quotes no names elsewhere but those of the
query. -/
theorem Query.text_selectsFrom (hplain : ∀ c ∈ q.conditions, HasPlainParameters c)
    (h : q.Names P) : SelectsFrom q.tableText P q.text := by
  refine ⟨q.selectedText, q.restText, q.text_eq, q.selectedText_noFrom, q.head?_restText, ?_⟩
  intro n hn
  rcases List.mem_append.1 hn with hn | hn
  · exact (Query.selectedText_mentions h).names n hn
  · exact (Query.restText_mentions hplain h).names n hn

end QueryText

/-! ## Tables that are written alike -/

theorem quotedNames_spelled (t : TableRef) :
    quotedNames (t.spelled clean).toList =
      (if (clean t.schema).isEmpty then [] else [clean t.schema]) ++ [clean t.table] := by
  have hname (s : String) : quotedNames (inDoubleQuotes (clean s)).toList = [clean s] :=
    quotedNames_inQuotes (.ofText s)
  have hquotes : QuotesOnlyNames (inDoubleQuotes (clean t.schema)).toList :=
    (IsHarmless.inQuotes (.ofText t.schema)).quotes
  rw [TableRef.spelled]
  split
  · exact hname t.table
  · rw [String.append_assoc, String.toList_append, String.toList_append,
      quotedNames_append hquotes, hname]
    show [clean t.schema] ++ quotedNames ('.' :: (inDoubleQuotes (clean t.table)).toList) = _
    rw [quotedNames_char (by decide), hname]

/-- **Two tables are written alike exactly if their cleaned names are.** -/
theorem spelled_clean_inj {t u : TableRef} :
    t.spelled clean = u.spelled clean ↔
      clean t.schema = clean u.schema ∧ clean t.table = clean u.table := by
  constructor
  · intro h
    -- The names can be read off the text: the last is the table, and one before it the schema.
    have hnames := congrArg (fun s => quotedNames s.toList) h
    simp only [quotedNames_spelled] at hnames
    obtain ⟨hschema, htable⟩ := List.append_inj' hnames rfl
    refine ⟨?_, List.singleton_inj.1 htable⟩
    split at hschema <;> split at hschema
    · simp_all
    · cases hschema
    · cases hschema
    · exact List.singleton_inj.1 hschema
  · rintro ⟨hschema, htable⟩
    rw [TableRef.spelled, TableRef.spelled, hschema, htable]

end Sql

end ChartQuery
