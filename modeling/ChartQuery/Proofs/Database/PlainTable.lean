import ChartQuery.Database.Execution
import ChartQuery.Proofs.Local.Records
import ChartQuery.Proofs.Plan.Columns
import Mathlib.Data.List.Forall2

/-!
# Plain tables

A plain table has columns whose names are words, and in each of them nothing but nulls and values of
one kind: whole numbers of 64 bits, texts, or dates whose years have four digits. Each of its rows
can be written as a record, with the fields in any order.

## Main definitions

* `PlainKind`: the kinds of values of plain columns
* `Table.IsPlain`: every column has one kind
* `IsRecordOf`: a record carries the values of a row
* `HasColumn`: a column under a name, its place and its type

## Main results

* `Table.IsPlain.exists_column`: what the column set takes for a column is one
* `IsRecordOf.value_eq`: a record has the cells of its row as values
-/

namespace ChartQuery

/-! ## Kinds -/

/-- The kinds of values of plain columns. -/
inductive PlainKind where
  | whole
  | text
  | date
  deriving DecidableEq, Repr

/-- The value is of the kind: a whole number of 64 bits, a text, or a date whose year has four
digits. -/
def PlainKind.has : PlainKind → Value → Bool
  | whole, .int n => isSignedWord n
  | text, .text _ => true
  | date, .date d => 1000 ≤ d.year
  | _, _ => false

/-- The kind of the values of a type. -/
def ColumnType.plainKind? : ColumnType → Option PlainKind
  | integer | bigint | hugeint => some .whole
  | varchar => some .text
  | date => some .date
  | _ => none

/-- The column may hold the value: null, or a value of its kind within the range of its type. -/
def Column.holds (c : Column) (v : Value) : Bool :=
  v.isNull || (c.type.plainKind?.any (·.has v) && v.int?.all c.type.isInRange)

/-- The kind of a column. -/
def kindOf? (columns : List Column) (c : Identifier) : Option PlainKind :=
  ((columnNamed? columns c.name).bind (columns[·]?)).bind (·.type.plainKind?)

/-! ## Tables -/

/-- The names of the columns are distinct words, where letters of any case count as the same, as they
do for the database; and each column holds nulls and values of one kind. -/
structure Table.IsPlain (t : Table) : Prop where
  allowed : Database.allows t.columns = true
  words : ∀ c ∈ t.columns, c.name ≠ "" ∧ c.name.toList.all isNameChar = true
  kinds : ∀ c ∈ t.columns, c.type.plainKind?.isSome
  cells : ∀ row ∈ t.rows, List.Forall₂ (fun c v => Column.holds c v = true) t.columns row

/-- The record carries the values of a row under the names of the columns, in any order. -/
def IsRecordOf (columns : List Column) (row : List Value) (r : Record) : Prop :=
  r.Perm ((columns.map (·.name)).zip row)

/-- Query text finds a column of a type under a name, at a place. -/
structure HasColumn (columns : List Column) (c : Identifier) (i : Nat) (type : ColumnType) :
    Prop where
  named : columnNamed? columns c.name = some i
  get : columns[i]? = some ⟨c.name, type⟩

/-- The cell of a row under a name. -/
def cellOf (columns : List Column) (c : Identifier) (row : List Value) : Value :=
  (cell? columns row c).getD .null

section HasColumn

variable {columns : List Column} {c : Identifier} {i : Nat} {type : ColumnType}

theorem HasColumn.cell?_eq (h : HasColumn columns c i type) (row : List Value) :
    cell? columns row c = some (row.getD i .null) := by
  rw [cell?, h.named]
  rfl

theorem HasColumn.cellOf_eq (h : HasColumn columns c i type) (row : List Value) :
    cellOf columns c row = row.getD i .null := by
  rw [cellOf, h.cell?_eq]
  rfl

theorem HasColumn.operandOf?_eq (h : HasColumn columns c i type) :
    operandOf? columns c = some (.cell i type) := by
  rw [operandOf?, h.named]
  simp only [bind, Option.bind, h.get]

theorem HasColumn.kindOf?_eq (h : HasColumn columns c i type) :
    kindOf? columns c = type.plainKind? := by
  rw [kindOf?, h.named, Option.bind_some, h.get, Option.bind_some]

end HasColumn

namespace Table.IsPlain

variable {t : Table}

theorem sameName_false (h : t.IsPlain) :
    t.columns.Pairwise fun c d => Database.sameName c.name d.name = false := by
  have := h.allowed
  simp only [Database.allows, Bool.and_eq_true, decide_eq_true_eq] at this
  exact this.2

theorem clean_name (h : t.IsPlain) {c : Column} (hc : c ∈ t.columns) : clean c.name = c.name :=
  clean_eq_self (List.all_eq_true.1 (h.words c hc).2)

theorem nodup_names (h : t.IsPlain) : (t.columns.map (·.name)).Nodup := by
  rw [List.Nodup, List.pairwise_map]
  refine h.sameName_false.imp fun {c d} hcd heq => ?_
  rw [heq, Database.sameName, beq_self_eq_true] at hcd
  exact Bool.noConfusion hcd

/-- Under the name of a column query text finds that column. -/
theorem hasColumn (h : t.IsPlain) {c : Identifier} {i : Nat} {hi : i < t.columns.length}
    (hname : t.columns[i].name = c.name) : HasColumn t.columns c i t.columns[i].type := by
  refine ⟨List.findIdx?_eq_some_iff_getElem.2 ⟨hi, ?_, fun j hj => ?_⟩, ?_⟩
  · rw [hname, Database.sameName, beq_self_eq_true]
  · have := List.pairwise_iff_getElem.1 h.sameName_false j i (by omega) hi hj
    rw [hname] at this
    simp [this]
  · rw [List.getElem?_eq_getElem hi, ← hname]

/-- What the column set takes for a column is one. -/
theorem exists_column (h : t.IsPlain) {c : Identifier}
    (hc : (Database.columnSet t.columns).isColumn c.name = true) :
    ∃ i type k, HasColumn t.columns c i type ∧ type.plainKind? = some k := by
  have hname := (ColumnSet.isColumn_iff.1 hc).2
  obtain ⟨-, n, hn, hclean⟩ := ColumnSet.mem_ofNames.1 hname
  obtain ⟨d, hd, rfl⟩ := List.mem_map.1 hn
  obtain ⟨i, hi, rfl⟩ := List.mem_iff_getElem.1 hd
  rw [h.clean_name hd, c.clean_name] at hclean
  obtain ⟨k, hk⟩ := Option.isSome_iff_exists.1 (h.kinds _ hd)
  exact ⟨i, _, k, h.hasColumn hclean, hk⟩

/-- There are no columns of doubles. -/
theorem isFloat_eq (h : t.IsPlain) (s : String) :
    (Database.columnSet t.columns).isFloat s = false := by
  have hdoubles : t.columns.filter (·.type.holdsDoubles) = [] := by
    refine List.filter_eq_nil_iff.2 fun c hc hd => ?_
    have := h.kinds c hc
    cases htype : c.type <;> simp_all [ColumnType.holdsDoubles, ColumnType.plainKind?]
  simp [ColumnSet.isFloat, Database.columnSet, ColumnSet.ofNames, hdoubles]

theorem holds_cell (h : t.IsPlain) {row : List Value} (hrow : row ∈ t.rows) {c : Identifier}
    {i : Nat} {type : ColumnType} (hc : HasColumn t.columns c i type) :
    Column.holds ⟨c.name, type⟩ (cellOf t.columns c row) = true := by
  rw [hc.cellOf_eq, List.getD_eq_getElem?_getD]
  obtain ⟨hi, hget⟩ := List.getElem?_eq_some_iff.1 hc.get
  have hlen := (h.cells row hrow).length_eq
  have hi' : i < row.length := hlen ▸ hi
  rw [List.getElem?_eq_getElem hi', Option.getD_some, ← hget]
  exact (h.cells row hrow).get hi hi'

end Table.IsPlain

/-! ## Records of rows -/

section Records

variable {t : Table} {row : List Value} {r : Record}

theorem IsRecordOf.keys (h : IsRecordOf t.columns row r) (ht : t.IsPlain) (hrow : row ∈ t.rows) :
    (r.map Prod.fst).Perm (t.columns.map (·.name)) := by
  have hlen := (ht.cells row hrow).length_eq
  have := h.map Prod.fst
  rwa [List.map_fst_zip (by simp [hlen])] at this

/-- Cleaning changes nothing about the record of a row. -/
theorem IsRecordOf.cleaned (h : IsRecordOf t.columns row r) (ht : t.IsPlain)
    (hrow : row ∈ t.rows) : r.cleaned = r := by
  have hkeys := h.keys ht hrow
  refine Record.cleaned_eq_self (hkeys.nodup_iff.2 ht.nodup_names) fun n hn => ?_
  obtain ⟨c, hc, rfl⟩ := List.mem_map.1 (hkeys.mem_iff.1 hn)
  exact ⟨ht.clean_name hc, (ht.words c hc).1⟩

/-- A record has the cells of its row as values. -/
theorem IsRecordOf.value_eq (h : IsRecordOf t.columns row r) (ht : t.IsPlain)
    (hrow : row ∈ t.rows) {c : Identifier} {i : Nat} {type : ColumnType}
    (hc : HasColumn t.columns c i type) : r.value c.name = cellOf t.columns c row := by
  have hlen := (ht.cells row hrow).length_eq
  obtain ⟨hi, hget⟩ := List.getElem?_eq_some_iff.1 hc.get
  have hnodup := (h.keys ht hrow).nodup_iff.2 ht.nodup_names
  have hi' : i < row.length := hlen ▸ hi
  refine Record.value_of_mem hnodup (h.mem_iff.2 ?_)
  rw [hc.cellOf_eq, List.getD_eq_getElem?_getD, List.getElem?_eq_getElem hi', List.mem_iff_getElem]
  exact ⟨i, by rw [List.length_zip, List.length_map]; omega, by simp [hget]⟩

end Records

/-! ## Records of a table -/

/-- The record has the cells of a row as values, and the columns may hold them. -/
def Reads (columns : List Column) (row : List Value) (r : Record) : Prop :=
  ∀ ⦃c i type⦄, HasColumn columns c i type →
    r.value c.name = cellOf columns c row ∧
      Column.holds ⟨c.name, type⟩ (cellOf columns c row) = true

/-- The records carry the values of the rows of a table, in its order. -/
def AreRecordsOf (t : Table) (rs : List Record) : Prop :=
  List.Forall₂ (IsRecordOf t.columns) t.rows rs

namespace AreRecordsOf

variable {t : Table} {rs : List Record}

theorem exists_row (h : AreRecordsOf t rs) {r : Record} (hr : r ∈ rs) :
    ∃ row ∈ t.rows, IsRecordOf t.columns row r := by
  obtain ⟨i, hi, rfl⟩ := List.mem_iff_getElem.1 hr
  have hi' : i < t.rows.length := h.length_eq ▸ hi
  exact ⟨t.rows[i], List.getElem_mem hi', h.get hi' hi⟩

theorem reads (h : AreRecordsOf t rs) (ht : t.IsPlain) :
    List.Forall₂ (Reads t.columns) t.rows rs := by
  refine List.forall₂_iff_zip.2 ⟨h.length_eq, fun {row r} hmem => ?_⟩
  have hrow := (List.of_mem_zip hmem).1
  have hr := (List.forall₂_iff_zip.1 h).2 hmem
  exact fun c i type hc => ⟨hr.value_eq ht hrow hc, ht.holds_cell hrow hc⟩

theorem cleaned (h : AreRecordsOf t rs) (ht : t.IsPlain) : rs.map Record.cleaned = rs := by
  have hid : ∀ r ∈ rs, r.cleaned = id r := fun r hr => by
    obtain ⟨row, hrow, hrec⟩ := h.exists_row hr
    exact hrec.cleaned ht hrow
  rw [List.map_congr_left hid, List.map_id]

/-- Records of a table have its columns, unless there are none. -/
theorem agrees (h : AreRecordsOf t rs) (ht : t.IsPlain) (hne : rs ≠ []) :
    (Database.columnSet t.columns).Agrees (columnsOfRecords rs) := by
  constructor
  · refine ColumnSet.isColumn_congr fun n => ?_
    rw [mem_columnsOfRecords, Database.columnSet, ColumnSet.mem_ofNames]
    refine and_congr_right fun _ => ?_
    constructor
    · rintro ⟨m, hm, rfl⟩
      obtain ⟨r, rest, rfl⟩ := List.exists_cons_of_ne_nil hne
      obtain ⟨row, hrow, hrec⟩ := h.exists_row List.mem_cons_self
      obtain ⟨f, hf, rfl⟩ := List.mem_map.1 ((hrec.keys ht hrow).mem_iff.2 hm)
      exact ⟨r, List.mem_cons_self, f, hf, rfl⟩
    · rintro ⟨r, hr, f, hf, rfl⟩
      obtain ⟨row, hrow, hrec⟩ := h.exists_row hr
      exact ⟨f.1, (hrec.keys ht hrow).mem_iff.1 (List.mem_map_of_mem hf), rfl⟩
  · funext s
    rw [ht.isFloat_eq]
    simp [ColumnSet.isFloat, columnsOfRecords, ColumnSet.ofNames]

end AreRecordsOf

end ChartQuery
