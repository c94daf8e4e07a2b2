import ChartQuery.Proofs.Sql.QuotedText
import ChartQuery.Sql.Query

/-!
# The text of a query

The text of a query is joined from words of its own, numbers, names in double quotes, and the names
of parameters. So it is harmless where the names of its parameters are, and outside of its quotes it
says the same as the query without any names.

## Main definitions

* `SameOutside s t`: two harmless texts that say the same outside of quotes
* `Query.erase q`: the query with the empty name in place of each name
* `HasPlainParameters c`: the names of the parameters of a condition are plain

## Main results

* `Query.text_isHarmless`: the text of a query is harmless
* `Query.text_sameOutside`: outside of its quotes the text does not depend on names
-/

namespace ChartQuery.Sql

/-! ## Joining texts -/

/-- Two harmless texts are harmless when joined. -/
theorem isHarmless_append {s t : String} (hs : IsHarmless s.toList) (ht : IsHarmless t.toList) :
    IsHarmless (s ++ t).toList := by
  rw [String.toList_append]
  exact hs.append ht

/-- Harmless texts that say the same outside of quotes. -/
structure SameOutside (s t : String) : Prop where
  left : IsHarmless s.toList
  right : IsHarmless t.toList
  eq : outsideQuotes s.toList = outsideQuotes t.toList

namespace SameOutside

variable {s s' t t' : String}

theorem refl (h : IsHarmless s.toList) : SameOutside s s := ⟨h, h, rfl⟩

theorem of_plain (h : s.toList.all isPlainChar = true) : SameOutside s s := refl (.of_plain h)

theorem inQuotes (i j : Identifier) : SameOutside i.inQuotes j.inQuotes :=
  ⟨.inQuotes i, .inQuotes j, by rw [outsideQuotes_inQuotes, outsideQuotes_inQuotes]⟩

theorem append (h : SameOutside s s') (h' : SameOutside t t') :
    SameOutside (s ++ t) (s' ++ t') where
  left := isHarmless_append h.left h'.left
  right := isHarmless_append h.right h'.right
  eq := by
    rw [String.toList_append, String.toList_append, outsideQuotes_append h.left.quotes,
      outsideQuotes_append h.right.quotes, h.eq, h'.eq]

theorem intercalate (sep : String) (hsep : IsHarmless sep.toList) {α : Type} {f g : α → String}
    {l : List α} (h : ∀ a ∈ l, SameOutside (f a) (g a)) :
    SameOutside (sep.intercalate (l.map f)) (sep.intercalate (l.map g)) := by
  induction l with
  | nil => exact of_plain rfl
  | cons a l ih =>
    have ha := h a List.mem_cons_self
    have hl := ih fun b hb => h b (List.mem_cons_of_mem _ hb)
    cases l with
    | nil => simpa using ha
    | cons b l =>
      rw [List.map_cons, List.map_cons, List.map_cons, List.map_cons,
        String.intercalate_cons_cons, String.intercalate_cons_cons]
      exact (ha.append (refl hsep)).append hl

end SameOutside

/-! ## Queries without names -/

/-- The empty name. -/
def nameless : Identifier := .ofText ""

/-- The expression with the empty name in place of its own. -/
def Expr.erase : Expr → Expr
  | column _ => column nameless
  | date _ => date nameless
  | datePart _ monthly => datePart nameless monthly
  | aggregate f _ => aggregate f nameless

/-- The selected expression with the empty name in place of each name. -/
def Item.erase (i : Item) : Item := ⟨i.expr.erase, i.givenName.map fun _ => nameless⟩

/-- The condition with the empty name in place of that of its column. -/
def Condition.erase : Condition → Condition
  | notNull _ => notNull nameless
  | compare _ op p => compare nameless op p
  | member _ ps => member nameless ps

/-- The query with the empty name in place of each name, but any name in place of a schema that has
one. -/
def Query.erase (q : Query) : Query where
  items := q.items.map Item.erase
  schema := if q.schema.isNamed then .ofText "main" else nameless
  table := nameless
  conditions := q.conditions.map Condition.erase
  groupBy := q.groupBy.map Expr.erase
  orderBy := q.orderBy
  limit := q.limit

/-! ## The text without the names -/

/-- The names of the parameters of a condition are plain. -/
def HasPlainParameters : Condition → Prop
  | .notNull _ => True
  | .compare _ _ p => p.toList.all isPlainChar = true
  | .member _ ps => ∀ p ∈ ps, p.toList.all isPlainChar = true

theorem AggregateFn.name_plain (f : AggregateFn) : f.name.toList.all isPlainChar = true := by
  cases f with
  | plain a => cases a <;> rfl
  | compensated => rfl

theorem datePattern_isHarmless (monthly : Bool) :
    IsHarmless (if monthly then "'%Y-%m'" else "'%Y'").toList := by
  cases monthly with
  | false => exact .of_plain rfl
  | true =>
    -- The dash in the pattern stands between other characters.
    have h : IsHarmless ("'%Y".toList ++ '-' :: "%m'".toList) :=
      (IsHarmless.of_plain rfl).append (.of_dash_plain rfl (by decide))
    exact h

theorem Expr.text_sameOutside (e : Expr) : SameOutside e.text e.erase.text := by
  cases e with
  | column c => exact .inQuotes c nameless
  | date c =>
    exact ((SameOutside.of_plain rfl).append (.inQuotes c nameless)).append (.of_plain rfl)
  | datePart c monthly =>
    exact ((((SameOutside.of_plain rfl).append (.inQuotes c nameless)).append
      (.of_plain rfl)).append (.refl (datePattern_isHarmless monthly))).append (.of_plain rfl)
  | aggregate f c =>
    exact (((SameOutside.of_plain f.name_plain).append (.of_plain rfl)).append
      (.inQuotes c nameless)).append (.of_plain rfl)

theorem Item.text_sameOutside (i : Item) : SameOutside i.text i.erase.text := by
  obtain ⟨e, _ | a⟩ := i
  · exact e.text_sameOutside
  · exact (e.text_sameOutside.append (.of_plain rfl)).append (.inQuotes a nameless)

theorem FilterOperator.sign_plain (o : FilterOperator) : o.sign.toList.all isPlainChar = true := by
  cases o <;> rfl

theorem Condition.text_sameOutside {c : Condition} (h : HasPlainParameters c) :
    SameOutside c.text c.erase.text := by
  cases c with
  | notNull c => exact (SameOutside.inQuotes c nameless).append (.of_plain rfl)
  | compare c op p =>
    exact ((((SameOutside.inQuotes c nameless).append (.of_plain rfl)).append
      (.of_plain (FilterOperator.sign_plain op))).append (.of_plain rfl)).append (.of_plain h)
  | member c ps =>
    refine (((SameOutside.inQuotes c nameless).append (.of_plain rfl)).append
      (.intercalate ", " (.of_plain rfl) fun p hp => ?_)).append (.of_plain rfl)
    exact (SameOutside.of_plain rfl).append (.of_plain (h p hp))

theorem OrderItem.text_isHarmless (o : OrderItem) : IsHarmless o.text.toList := by
  refine isHarmless_append (isHarmless_append (.of_plain (IsHarmless.digits_plain _)) ?_)
    (.of_plain rfl)
  cases o.descending <;> exact .of_plain rfl

theorem clause_sameOutside (keyword sep : String) (hk : keyword.toList.all isPlainChar = true)
    (hsep : IsHarmless sep.toList) {α : Type} {f g : α → String} {l : List α}
    (h : ∀ a ∈ l, SameOutside (f a) (g a)) :
    SameOutside (clause keyword (l.map f) sep) (clause keyword (l.map g) sep) := by
  cases l with
  | nil => exact .of_plain rfl
  | cons a l =>
    exact (((SameOutside.of_plain rfl).append (.of_plain hk)).append (.of_plain rfl)).append
      (.intercalate sep hsep h)

theorem Query.tableText_sameOutside (q : Query) : SameOutside q.tableText q.erase.tableText := by
  unfold Query.tableText Query.erase
  cases q.schema.isNamed with
  | false => exact .inQuotes _ _
  | true => exact ((SameOutside.inQuotes _ _).append (.of_plain rfl)).append (.inQuotes _ _)

/-- The text of a query and that of the query without names are harmless, and say the same outside
of quotes. -/
theorem Query.text_sameOutside {q : Query} (h : ∀ c ∈ q.conditions, HasPlainParameters c) :
    SameOutside q.text q.erase.text := by
  have hitems := SameOutside.intercalate ", " (.of_plain rfl)
    (l := q.items) fun i _ => i.text_sameOutside
  have hwhere := clause_sameOutside "WHERE" " AND " rfl (.of_plain rfl)
    fun c hc => Condition.text_sameOutside (h c hc)
  have hgroup := clause_sameOutside "GROUP BY" ", " rfl (.of_plain rfl)
    (l := q.groupBy) fun e _ => e.text_sameOutside
  have horder := clause_sameOutside "ORDER BY" ", " rfl (.of_plain rfl)
    (l := q.orderBy) fun o _ => SameOutside.refl o.text_isHarmless
  have hselect := ((SameOutside.of_plain (s := "SELECT ") rfl).append hitems).append
    (SameOutside.of_plain (s := " FROM ") rfl)
  have hlimit := SameOutside.refl (IsHarmless.wholeNumber q.limit)
  -- The order and the number of rows hold no names, so that erasing leaves them as they are.
  have herase : q.erase.text =
      "SELECT " ++ ", ".intercalate (q.items.map fun i => i.erase.text) ++ " FROM " ++
        q.erase.tableText ++ clause "WHERE" (q.conditions.map fun c => c.erase.text) " AND " ++
        clause "GROUP BY" (q.groupBy.map fun e => e.erase.text) ", " ++
        clause "ORDER BY" (q.orderBy.map OrderItem.text) ", " ++ " LIMIT " ++ toString q.limit := by
    simp only [Query.text, Query.erase, List.map_map, Function.comp_def]
  rw [herase]
  exact (((((hselect.append q.tableText_sameOutside).append hwhere).append hgroup).append
    horder).append (.of_plain rfl)).append hlimit

/-- The text of a query is harmless. -/
theorem Query.text_isHarmless {q : Query} (h : ∀ c ∈ q.conditions, HasPlainParameters c) :
    IsHarmless q.text.toList :=
  (Query.text_sameOutside h).left

end ChartQuery.Sql
