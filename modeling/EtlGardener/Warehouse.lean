import Mathlib.Data.List.Basic
import EtlGardener.Queryer
import EtlGardener.Dedup

/-!
# The warehouse

The warehouse holds datasets and, in them, partitioned tables by project, dataset and table id
(`Warehouse`).  BigQuery accepts only a few characters in a name (`TableRef.Valid`), so it holds
no table under any other name, and `html/template` writes valid names unchanged
(`htmlEscape_of_projectChar`, `htmlEscape_of_datasetChar`).  A query job acts on the table its
text names (`Stmt.readTarget`): for a statement rendered from valid names, the table the template
was given (`Stmt.readTarget_eq_target`).  A table id may end in a decorator `$YYYYMMDD` naming one
day partition (`TableRef.resolve`).  How the warehouse reads the free-form parts of a statement,
and which tied row it numbers 1, is an `Engine`; `Warehouse.apply` is the state a request leaves
when its job succeeds, and each kind of request has one lemma saying what that state is
(`apply_query`, `apply_copy`, `apply_delete_partition`).
-/

namespace EtlGardener

variable {Val : Type}

/-! ## Names -/

/-- A character of a project id. -/
def projectChar (c : Char) : Bool := c.isLower || c.isDigit || c == '-' || c == '.' || c == ':'

/-- A character of a dataset id. -/
def datasetChar (c : Char) : Bool := c.isAlphanum || c == '_'

/-- A character of a table id. -/
def tableChar (c : Char) : Bool := c.isAlphanum || c == '_' || c == '-'

/-- A name BigQuery accepts for a table. -/
def TableRef.Valid (t : TableRef) : Prop :=
  t.project.toList.all projectChar ∧ t.dataset.toList.all datasetChar ∧
    t.table.toList.all tableChar

instance (t : TableRef) : Decidable t.Valid := inferInstanceAs (Decidable (_ ∧ _ ∧ _))

theorem htmlEscape_of_projectChar {s : String} (h : (htmlEscape s).toList.all projectChar) :
    htmlEscape s = s :=
  htmlEscape_eq_self_of_all (by decide) (by decide) h

theorem htmlEscape_of_datasetChar {s : String} (h : (htmlEscape s).toList.all datasetChar) :
    htmlEscape s = s :=
  htmlEscape_eq_self_of_all (by decide) (by decide) h

/-- A character that `p` accepts and that is none of the characters `html/template` rewrites is
written as itself. -/
theorem htmlEscapeChar_of_excluded {p : Char → Bool}
    (hp : ∀ n ∈ [0, 34, 38, 39, 43, 60, 62], p (Char.ofNat n) = false) {c : Char}
    (h : p c = true) : htmlEscapeChar c = [c] := by
  have hn : c.toNat ∉ [0, 34, 38, 39, 43, 60, 62] := fun hn => by
    simpa [Char.ofNat_toNat, h] using hp _ hn
  unfold htmlEscapeChar
  split <;> first | rfl | (rename_i heq; rw [heq] at hn; exact absurd (by decide) hn)

theorem htmlEscape_of_all {p : Char → Bool}
    (hp : ∀ n ∈ [0, 34, 38, 39, 43, 60, 62], p (Char.ofNat n) = false) {s : String}
    (h : s.toList.all p) : htmlEscape s = s :=
  htmlEscape_eq_self fun c hc => htmlEscapeChar_of_excluded hp (List.all_eq_true.1 h c hc)

theorem all_datasetChar_of_append {pre s : String} (h : (pre ++ s).toList.all datasetChar) :
    s.toList.all datasetChar := by
  rw [show (pre ++ s).toList = pre.toList ++ s.toList from rfl, List.all_append,
    Bool.and_eq_true] at h
  exact h.2

theorem not_mem_of_all {p : Char → Bool} {l : List Char} (h : l.all p) {c : Char}
    (hc : p c = false) : c ∉ l := fun hm => by
  rw [List.all_eq_true.1 h c hm] at hc
  cases hc

/-! ## The table a statement names

BigQuery reads a statement's text, not the values its template was given: the table a `DELETE`
acts on is the first backquoted path outside a `#` comment, whose last two dot-separated parts are
the dataset and the table, and the rest the project.  `html/template` leaves a backquote and `#`
as they are, so a value holding them can end the path early and comment out the rest of its line.
-/

/-- The backquote, which opens and closes a quoted path. -/
def backquote : Char := Char.ofNat 96

/-- Whether the scan for the first backquote is inside a `#` comment after reading `cs`; `none`
when it met a backquote outside one. -/
def commentState : Bool → List Char → Option Bool
  | b, [] => some b
  | true, c :: cs => commentState (c != '\n') cs
  | false, c :: cs => if c = backquote then none else commentState (c == '#') cs

/-- The text after the first backquote outside a `#` comment. -/
def skipToQuote : Bool → List Char → Option (List Char)
  | _, [] => none
  | true, c :: cs => skipToQuote (c != '\n') cs
  | false, c :: cs => if c = backquote then some cs else skipToQuote (c == '#') cs

/-- A quoted path up to its closing backquote; a backslash escapes the character after it. -/
def readQuoted : List Char → Option (List Char)
  | [] => none
  | c :: cs =>
    if c = backquote then some []
    else if c = '\\' then
      match cs with
      | [] => none
      | d :: ds => (readQuoted ds).map (d :: ·)
    else (readQuoted cs).map (c :: ·)

/-- The table a path names: the last two dot-separated parts are the dataset and the table, and
the rest, which may hold dots, the project. -/
def TableRef.ofPath (path : List Char) : Option TableRef :=
  match path.reverse.splitOn '.' with
  | t :: d :: p :: ps =>
    some ⟨String.mk (['.'].intercalate (p :: ps)).reverse, String.mk d.reverse, String.mk t.reverse⟩
  | _ => none

/-- The table a rendered statement acts on, as BigQuery reads its text. -/
def Stmt.readTarget (s : Stmt) : Option TableRef :=
  ((skipToQuote false s.text.toList).bind readQuoted).bind TableRef.ofPath

/-- The path between the backquotes of `t.sql`. -/
def TableRef.path (t : TableRef) : List Char :=
  t.project.toList ++ '.' :: (t.dataset.toList ++ '.' :: t.table.toList)

/-- A name whose rendering reads back as itself: no backquote or backslash, and no dot in the
dataset or the table. -/
def TableRef.Plain (t : TableRef) : Prop :=
  backquote ∉ t.path ∧ '\\' ∉ t.path ∧ '.' ∉ t.dataset.toList ∧ '.' ∉ t.table.toList

theorem skipToQuote_append {b b' : Bool} {xs : List Char} (h : commentState b xs = some b')
    (ys : List Char) : skipToQuote b (xs ++ ys) = skipToQuote b' ys := by
  induction xs generalizing b with
  | nil =>
    simp only [commentState, Option.some.injEq] at h
    subst h
    rfl
  | cons c cs ih =>
    cases b
    · simp only [commentState] at h
      split_ifs at h with hc
      rw [List.cons_append, skipToQuote, if_neg hc]
      exact ih h
    · exact ih h

theorem readQuoted_append {p : List Char} (hb : backquote ∉ p) (hs : '\\' ∉ p)
    (rest : List Char) : readQuoted (p ++ backquote :: rest) = some p := by
  induction p with
  | nil =>
    rw [List.nil_append, readQuoted.eq_def]
    simp
  | cons c cs ih =>
    simp only [List.mem_cons, not_or] at hb hs
    rw [List.cons_append, readQuoted.eq_def]
    simp only [if_neg (Ne.symm hb.1), if_neg (Ne.symm hs.1), ih hb.2 hs.2, Option.map_some']

theorem TableRef.ofPath_path {t : TableRef} (hd : '.' ∉ t.dataset.toList)
    (ht : '.' ∉ t.table.toList) : TableRef.ofPath t.path = some t := by
  have hsep : ∀ l : List Char, '.' ∉ l → ∀ x ∈ l.reverse, ¬(x == '.') = true := fun l hl x hx e =>
    hl (by rw [beq_iff_eq] at e; exact e ▸ List.mem_reverse.1 hx)
  have hr : t.path.reverse = t.table.toList.reverse ++
      '.' :: (t.dataset.toList.reverse ++ '.' :: t.project.toList.reverse) := by
    simp [TableRef.path]
  obtain ⟨p, ps, hp⟩ : ∃ p ps, t.project.toList.reverse.splitOn '.' = p :: ps :=
    List.exists_cons_of_ne_nil (List.splitOnP_ne_nil _ _)
  have hsplit : t.path.reverse.splitOn '.' =
      t.table.toList.reverse :: t.dataset.toList.reverse :: p :: ps := by
    rw [hr, List.splitOn, List.splitOnP_first _ _ (hsep _ ht) _ (beq_self_eq_true _),
      List.splitOnP_first _ _ (hsep _ hd) _ (beq_self_eq_true _), ← List.splitOn, hp]
  have hproj : (['.'].intercalate (p :: ps)).reverse = t.project.toList := by
    rw [← hp, List.intercalate_splitOn, List.reverse_reverse]
  simp only [TableRef.ofPath, hsplit, hproj, List.reverse_reverse]
  rfl

theorem TableRef.sql_toList (t : TableRef) :
    t.sql.toList = backquote :: (t.path ++ [backquote]) := by
  simp [TableRef.sql, TableRef.path, backquote]

/-- A valid name reads back as itself. -/
theorem TableRef.Valid.plain {t : TableRef} (h : t.Valid) : t.Plain := by
  obtain ⟨hp, hd, ht⟩ := h
  have hpath : ∀ c, projectChar c = false → datasetChar c = false → tableChar c = false →
      c ≠ '.' → c ∉ t.path := fun c h₁ h₂ h₃ h₄ hc => by
    simp only [TableRef.path, List.mem_append, List.mem_cons] at hc
    rcases hc with hc | rfl | hc | rfl | hc
    · exact not_mem_of_all hp h₁ hc
    · exact h₄ rfl
    · exact not_mem_of_all hd h₂ hc
    · exact h₄ rfl
    · exact not_mem_of_all ht h₃ hc
  exact ⟨hpath _ (by decide) (by decide) (by decide) (by decide),
    hpath _ (by decide) (by decide) (by decide) (by decide),
    not_mem_of_all hd (by decide), not_mem_of_all ht (by decide)⟩

theorem dedupHead_commentState : commentState false Stmt.dedupHead.toList = some false := by
  decide

theorem cleanupHead_commentState : commentState false Stmt.cleanupHead.toList = some false := by
  decide

/-- Text that opens with a head leaving no comment open, then the path of `t`, names `t`. -/
theorem readTarget_head {head rest : String} (hh : commentState false head.toList = some false)
    {t : TableRef} (ht : t.Plain) :
    ((skipToQuote false (head ++ (t.sql ++ rest)).toList).bind readQuoted).bind
      TableRef.ofPath = some t := by
  obtain ⟨hb, hs, hd, htb⟩ := ht
  rw [show (head ++ (t.sql ++ rest)).toList = head.toList ++ (t.sql.toList ++ rest.toList) from
    rfl, skipToQuote_append hh, TableRef.sql_toList, List.cons_append, skipToQuote, if_pos rfl,
    List.append_assoc, List.singleton_append, Option.some_bind, readQuoted_append hb hs,
    Option.some_bind, TableRef.ofPath_path hd htb]

/-- A statement rendered from a name that reads back as itself acts on the table it was given. -/
theorem Stmt.readTarget_eq_target {s : Stmt} (h : s.target.Plain) :
    s.readTarget = some s.target := by
  cases s with
  | dedup t date day keys orderKeys =>
    simp only [readTarget, text, String.append_assoc]
    exact readTarget_head dedupHead_commentState h
  | cleanup t date day =>
    simp only [readTarget, text, String.append_assoc]
    exact readTarget_head cleanupHead_commentState h

/-! ## Partition decorators -/

/-- A table id as the warehouse reads it: the table, and the text after a `$` decorator. -/
def splitDecorator (id : String) : String × Option String :=
  (String.mk (id.toList.takeWhile (· != '$')),
    match id.toList.dropWhile (· != '$') with
    | [] => none
    | _ :: p => some (String.mk p))

theorem splitDecorator_append {base : String} (h : '$' ∉ base.toList) (p : String) :
    splitDecorator (base ++ "$" ++ p) = (base, some p) := by
  have hb : ∀ c ∈ base.toList, (c != '$') = true := fun c hc => by
    simpa using fun e : c = '$' => h (e ▸ hc)
  have e : (base ++ "$" ++ p).toList = base.toList ++ '$' :: p.toList := by
    show (base.toList ++ ['$']) ++ p.toList = _
    simp
  simp only [splitDecorator, e, List.takeWhile_append_of_pos hb, List.dropWhile_append_of_pos hb,
    List.takeWhile_cons, List.dropWhile_cons, bne_self_eq_false, Bool.false_eq_true, if_false,
    List.append_nil]
  rfl

/-- The table a reference names, and the day partition of its decorator; `none` when the
decorator is not a day. -/
def TableRef.resolve (t : TableRef) : Option (TableRef × Option Date) :=
  match splitDecorator t.table with
  | (base, none) => some (⟨t.project, t.dataset, base⟩, none)
  | (base, some p) =>
    (Date.parseDecorator p).map fun d => (⟨t.project, t.dataset, base⟩, some d)

/-- A decorator the queryer builds names its day, for a day with a four-digit year. -/
theorem TableRef.resolve_decorated {project dataset base : String} (h : '$' ∉ base.toList)
    {d : Date} (hy : d.year < 10000) :
    TableRef.resolve ⟨project, dataset, base ++ "$" ++ d.format ""⟩ =
      some (⟨project, dataset, base⟩, some d) := by
  simp [TableRef.resolve, splitDecorator_append h, Date.parseDecorator_format d hy]

/-- A table id without `$` names the whole table. -/
theorem TableRef.resolve_plain {project dataset table : String} (h : '$' ∉ table.toList) :
    TableRef.resolve ⟨project, dataset, table⟩ =
      some (⟨project, dataset, table⟩, none) := by
  have hb : ∀ c ∈ table.toList, (c != '$') = true := fun c hc => by
    simpa using fun e : c = '$' => h (e ▸ hc)
  simp only [TableRef.resolve, splitDecorator, List.takeWhile_eq_self_iff.2 hb,
    List.dropWhile_eq_nil_iff.2 hb]
  rfl

/-- A decorator the queryer builds names the table and its day, or nothing. -/
theorem TableRef.resolve_decorated_eq {project dataset base : String} (h : '$' ∉ base.toList)
    {d : Date} {t : TableRef × Option Date}
    (hr : TableRef.resolve ⟨project, dataset, base ++ "$" ++ d.format ""⟩ = some t) :
    t = (⟨project, dataset, base⟩, some d) := by
  simp only [TableRef.resolve, splitDecorator_append h, Option.map_eq_some'] at hr
  obtain ⟨d', hd', rfl⟩ := hr
  rw [Date.parseDecorator_format_eq hd']

/-! ## Tables -/

/-- A partitioned table: each row with the day partition it is stored in. -/
structure Table (Val : Type) where
  entries : List (Date × Row Val)
deriving DecidableEq

namespace Table

/-- The rows of the table. -/
def rows (T : Table Val) : List (Row Val) := T.entries.map (·.2)

/-- The rows of day partition `d`. -/
def partition (T : Table Val) (d : Date) : List (Row Val) :=
  (T.entries.filter (·.1 = d)).map (·.2)

/-- The table without the rows `p` selects. -/
def deleteWhere (T : Table Val) (p : Row Val → Bool) : Table Val :=
  ⟨T.entries.filter fun x => !p x.2⟩

/-- The table without partition `d`. -/
def dropPartition (T : Table Val) (d : Date) : Table Val := ⟨T.entries.filter (·.1 ≠ d)⟩

/-- What a copy reads from its source: partition `p`, or the whole table. -/
def select (T : Table Val) : Option Date → Table Val
  | none => T
  | some p => ⟨T.entries.filter (·.1 = p)⟩

/-- What a copy leaves in its destination, a partition `p` of it or the whole table. -/
def write (T rows : Table Val) : WriteDisposition → Option Date → Table Val
  | .writeTruncate, none => rows
  | .writeTruncate, some p =>
    ⟨(T.dropPartition p).entries ++ rows.entries.map fun x => (p, x.2)⟩
  | .writeAppend, none => ⟨T.entries ++ rows.entries⟩
  | .writeAppend, some p => ⟨T.entries ++ rows.entries.map fun x => (p, x.2)⟩

theorem rows_deleteWhere (T : Table Val) (p : Row Val → Bool) :
    (T.deleteWhere p).rows = T.rows.filter fun r => !p r := by
  simp [rows, deleteWhere, List.filter_map, Function.comp_def]

theorem partition_deleteWhere (T : Table Val) (p : Row Val → Bool) (d : Date) :
    (T.deleteWhere p).partition d = (T.partition d).filter fun r => !p r := by
  simp only [partition, deleteWhere, List.filter_filter, List.filter_map]
  congr 2
  funext x
  exact Bool.and_comm _ _

/-- A `DELETE` that selects no row leaves the table as it is. -/
theorem deleteWhere_eq_self {T : Table Val} {p : Row Val → Bool}
    (h : ∀ r ∈ T.rows, p r = false) : T.deleteWhere p = T := by
  cases T
  simpa [deleteWhere, rows] using fun x y hx => h y (List.mem_map.2 ⟨(x, y), hx, rfl⟩)

theorem partition_dropPartition (T : Table Val) (d p : Date) :
    (T.dropPartition d).partition p = if p = d then [] else T.partition p := by
  unfold partition dropPartition
  split_ifs with h
  · subst h; simp
  · rw [List.filter_filter]
    congr 2
    funext x
    by_cases hx : x.1 = p <;> simp [hx, h]

/-- Deleting the rows `p` selects drops partition `d` exactly when `p` selects the rows of
partition `d` and no others. -/
theorem deleteWhere_eq_dropPartition_iff (T : Table Val) (p : Row Val → Bool) (d : Date) :
    T.deleteWhere p = T.dropPartition d ↔ ∀ x ∈ T.entries, (p x.2 = true ↔ x.1 = d) := by
  rw [deleteWhere, dropPartition, Table.mk.injEq]
  refine ⟨fun h x hx => ?_, fun h => List.filter_congr fun x hx => ?_⟩
  · have hm : x ∈ T.entries.filter (fun x => !p x.2) ↔ x ∈ T.entries.filter (·.1 ≠ d) := by
      rw [h]
    have hn : p x.2 = false ↔ ¬x.1 = d := by simpa [hx] using hm
    rw [← Bool.not_eq_true] at hn
    exact not_iff_not.1 hn
  · rw [decide_not]
    exact congrArg (!·) (Bool.eq_iff_iff.2 (by simpa using h x hx))

/-- Truncating partition `d` with the partition `d` of `S` replaces it and nothing else. -/
theorem partition_write_truncate (T S : Table Val) (d p : Date) :
    (T.write (S.select (some d)) .writeTruncate (some d)).partition p =
      if p = d then S.partition d else T.partition p := by
  have hd := partition_dropPartition T d p
  simp only [write, select, partition] at hd ⊢
  rw [List.filter_append, List.map_append, hd, List.filter_map, List.map_map]
  by_cases h : p = d
  · subst h; simp [Function.comp_def]
  · simp [Function.comp_def, Ne.symm h, h]

end Table

/-! ## The engine and the warehouse -/

section Engine

variable [LinearOrder Val]

/-- How the warehouse reads the free-form parts of a statement, and which tied row
`ROW_NUMBER()` numbers 1. -/
structure Engine (Val : Type) [LinearOrder Val] where
  /-- The value a quoted literal denotes beside a column. -/
  lit : String → Val
  /-- The order an `ORDER BY` prefix puts rows in. -/
  orderBy : String → RowOrder Val
  /-- An empty prefix orders nothing. -/
  orderBy_empty : ∀ r s, (orderBy "").le r s = true
  /-- The numbering of every order. -/
  number : (o : RowOrder Val) → RowNumbering o

/-- The engine over `Nat` that reads every literal as `0`, puts no order before `parser.Time`,
and numbers the first least row of each window 1. -/
def Engine.zero : Engine Nat := ⟨fun _ => 0, fun _ => .none, fun _ _ => rfl, .scan⟩

/-- The engine over `Nat` that reads a day literal `"YYYY-MM-DD"` as the number `YYYYMMDD`, puts no
order before `parser.Time`, and numbers the first least row of each window 1. -/
def Engine.ymd : Engine Nat :=
  ⟨fun s => (decimalValue (s.toList.filter Char.isDigit)).getD 0, fun _ => .none, fun _ _ => rfl,
    .scan⟩

/-- A dedup statement as the engine reads it. -/
def Engine.dedupSql (E : Engine Val) (date day : String) (keys : List (String × String))
    (orderKeys : String) : DedupSql Val :=
  ⟨date, E.lit day, keys.map (·.2), E.orderBy orderKeys⟩

/-- The rows of a table that a statement's `DELETE` removes. -/
def Engine.deletes (E : Engine Val) : Stmt → List (Row Val) → Row Val → Bool
  | .dedup _ date day keys orderKeys, rows =>
    (E.dedupSql date day keys orderKeys).deletes (E.number _) rows
  | .cleanup _ date day, _ => fun r => sqlEq (r.get date) (some (E.lit day))

end Engine

/-- The warehouse: its datasets, and its tables by name, each in one of the datasets and under a
name BigQuery accepts. -/
structure Warehouse (Val : Type) where
  /-- Whether project `p` holds dataset `d`. -/
  datasets : String → String → Bool
  tables : TableRef → Option (Table Val)
  valid : ∀ t, (tables t).isSome → t.Valid
  inDataset : ∀ t, (tables t).isSome → datasets t.project t.dataset = true

namespace Warehouse

/-- The warehouse with the datasets `ds` and no tables. -/
def ofDatasets (ds : List (String × String)) : Warehouse Val :=
  ⟨fun p d => decide ((p, d) ∈ ds), fun _ => none, by simp, by simp⟩

theorem ext {w w' : Warehouse Val} (hd : w.datasets = w'.datasets) (h : w.tables = w'.tables) :
    w = w' := by
  cases w; cases w'; cases hd; cases h; rfl

/-- The warehouse with table `t` set to `T`. -/
def set (w : Warehouse Val) (t : TableRef) (T : Option (Table Val))
    (h : T.isSome → t.Valid ∧ w.datasets t.project t.dataset = true) : Warehouse Val where
  datasets := w.datasets
  tables := Function.update w.tables t T
  valid u hu := by
    by_cases e : u = t
    · subst e; exact (h (by simpa using hu)).1
    · exact w.valid u (by simpa [Function.update_noteq e] using hu)
  inDataset u hu := by
    by_cases e : u = t
    · subst e; exact (h (by simpa using hu)).2
    · exact w.inDataset u (by simpa [Function.update_noteq e] using hu)

@[simp]
theorem datasets_set (w : Warehouse Val) (t : TableRef) (T : Option (Table Val))
    (h : T.isSome → t.Valid ∧ w.datasets t.project t.dataset = true) :
    (w.set t T h).datasets = w.datasets := rfl

@[simp]
theorem tables_set (w : Warehouse Val) (t : TableRef) (T : Option (Table Val))
    (h : T.isSome → t.Valid ∧ w.datasets t.project t.dataset = true) :
    (w.set t T h).tables = Function.update w.tables t T := rfl

/-- The warehouse with table `t`, when it exists, changed by `f`. -/
def modify (w : Warehouse Val) (t : TableRef) (f : Table Val → Table Val) :
    Option (Warehouse Val) :=
  match h : w.tables t with
  | none => none
  | some T =>
    some (w.set t (some (f T)) fun _ => ⟨w.valid t (by simp [h]), w.inDataset t (by simp [h])⟩)

theorem modify_eq_some {w w' : Warehouse Val} {t : TableRef} {f : Table Val → Table Val}
    (h : w.modify t f = some w') : ∃ T, w.tables t = some T ∧ w'.datasets = w.datasets ∧
      w'.tables = Function.update w.tables t (some (f T)) := by
  unfold modify at h
  split at h
  · cases h
  · rename_i T hT
    cases h
    exact ⟨T, hT, rfl, rfl⟩

theorem modify_isSome (w : Warehouse Val) (t : TableRef) (f : Table Val → Table Val) :
    (w.modify t f).isSome = (w.tables t).isSome := by
  unfold modify
  split <;> simp_all

/-- Changing a table into itself leaves the warehouse as it is. -/
theorem modify_self {w : Warehouse Val} {t : TableRef} {f : Table Val → Table Val}
    {T : Table Val} (h : w.tables t = some T) (hf : f T = T) : w.modify t f = some w := by
  unfold modify
  split
  · simp_all
  · rename_i T' hT'
    obtain rfl : T' = T := Option.some.inj (hT'.symm.trans h)
    exact congrArg some (ext rfl (by simp [hf, ← h]))

/-- No table is stored under a name BigQuery refuses. -/
theorem tables_of_not_valid (w : Warehouse Val) {t : TableRef} (h : ¬t.Valid) :
    w.tables t = none :=
  Option.not_isSome_iff_eq_none.1 fun hs => h (w.valid t hs)

/-- What `modify` leaves, whether or not the table exists. -/
theorem tables_modify_getD (w : Warehouse Val) (t : TableRef) (f : Table Val → Table Val) :
    ((w.modify t f).getD w).tables = Function.update w.tables t ((w.tables t).map f) := by
  unfold modify
  split
  · rename_i h
    rw [Option.getD_none, h, Option.map_none', ← h, Function.update_eq_self]
  · rename_i T h
    simp only [Option.getD_some, tables_set, h, Option.map_some']

theorem datasets_modify_getD (w : Warehouse Val) (t : TableRef) (f : Table Val → Table Val) :
    ((w.modify t f).getD w).datasets = w.datasets := by
  unfold modify
  split <;> rfl

/-- The rows of partition `p` of table `t`; none when there is no such table. -/
def partition (w : Warehouse Val) (t : TableRef) (p : Date) : List (Row Val) :=
  ((w.tables t).getD ⟨[]⟩).partition p

section Apply

variable [LinearOrder Val]

/-- The warehouse a request leaves when its job succeeds.  A query job acts on the table its text
names, and a copy job writes its destination only inside an existing dataset. -/
def apply (E : Engine Val) (w : Warehouse Val) : Request → Option (Warehouse Val)
  | .query s true => s.readTarget.bind fun t => (w.tables t).map fun _ => w
  | .query s false =>
    s.readTarget.bind fun t => w.modify t fun T => T.deleteWhere (E.deletes s T.rows)
  | .copy [src] dst disposition =>
    match src.resolve, dst.resolve with
    | some (s, sp), some (d, dp) =>
      match w.tables s with
      | none => none
      | some S =>
        if h : d.Valid ∧ w.datasets d.project d.dataset = true then
          some (w.set d (some (((w.tables d).getD ⟨[]⟩).write (S.select sp) disposition dp))
            fun _ => h)
        else none
    | _, _ => none
  | .copy _ _ _ => none
  | .delete t =>
    match t.resolve with
    | some (b, none) => (w.tables b).map fun _ => w.set b none (by simp)
    | some (b, some d) => w.modify b fun T => T.dropPartition d
    | none => none

theorem datasets_apply_query {E : Engine Val} {w w' : Warehouse Val} {s : Stmt} {dryRun : Bool}
    (h : w.apply E (.query s dryRun) = some w') : w'.datasets = w.datasets := by
  cases dryRun
  · obtain ⟨t, -, h⟩ := Option.bind_eq_some.1 h
    obtain ⟨-, -, hd, -⟩ := modify_eq_some h
    exact hd
  · simp only [apply, Option.bind_eq_some, Option.map_eq_some'] at h
    obtain ⟨-, -, -, -, rfl⟩ := h
    rfl

theorem datasets_apply_copy {E : Engine Val} {w w' : Warehouse Val} {src dst : TableRef}
    {disposition : WriteDisposition} (h : w.apply E (.copy [src] dst disposition) = some w') :
    w'.datasets = w.datasets := by
  simp only [apply] at h
  split at h
  · split at h
    · cases h
    · split_ifs at h
      cases h
      rfl
  · cases h

theorem datasets_apply_delete {E : Engine Val} {w w' : Warehouse Val} {t : TableRef}
    (h : w.apply E (.delete t) = some w') : w'.datasets = w.datasets := by
  simp only [apply] at h
  split at h
  · obtain ⟨-, -, rfl⟩ := Option.map_eq_some'.1 h
    rfl
  · obtain ⟨-, -, hd, -⟩ := modify_eq_some h
    exact hd
  · cases h

/-- No job creates or drops a dataset. -/
theorem datasets_apply {E : Engine Val} {w w' : Warehouse Val} {req : Request}
    (h : w.apply E req = some w') : w'.datasets = w.datasets := by
  rcases req with ⟨s, dryRun⟩ | ⟨_ | ⟨src, _ | _⟩, dst, disposition⟩ | t
  · exact datasets_apply_query h
  · cases h
  · exact datasets_apply_copy h
  · cases h
  · exact datasets_apply_delete h

theorem datasets_apply_getD (E : Engine Val) (w : Warehouse Val) (req : Request) :
    ((w.apply E req).getD w).datasets = w.datasets := by
  cases h : w.apply E req with
  | none => rfl
  | some w' => exact datasets_apply h

/-- A dry run writes nothing. -/
theorem apply_dryRun {E : Engine Val} {w w' : Warehouse Val} {s : Stmt}
    (h : w.apply E (.query s true) = some w') : w' = w := by
  simp only [apply, Option.bind_eq_some, Option.map_eq_some'] at h
  obtain ⟨-, -, -, -, rfl⟩ := h
  rfl

/-- A query job deletes, from the table its text names, the rows its statement selects. -/
theorem apply_query {E : Engine Val} {w w' : Warehouse Val} {s : Stmt}
    (h : w.apply E (.query s false) = some w') :
    ∃ t T, s.readTarget = some t ∧ w.tables t = some T ∧
      w'.tables = Function.update w.tables t (some (T.deleteWhere (E.deletes s T.rows))) := by
  obtain ⟨t, ht, h⟩ := Option.bind_eq_some.1 h
  obtain ⟨T, hT, -, e⟩ := modify_eq_some h
  exact ⟨t, T, ht, hT, e⟩

/-- A copy job from one source writes its destination table. -/
theorem apply_copy {E : Engine Val} {w w' : Warehouse Val} {src dst : TableRef}
    {disposition : WriteDisposition} (h : w.apply E (.copy [src] dst disposition) = some w') :
    ∃ s sp d dp S, src.resolve = some (s, sp) ∧ dst.resolve = some (d, dp) ∧
      w.tables s = some S ∧ w'.tables = Function.update w.tables d
        (some (((w.tables d).getD ⟨[]⟩).write (S.select sp) disposition dp)) := by
  simp only [apply] at h
  split at h
  · rename_i s sp d dp hs hd
    split at h
    · cases h
    · rename_i S hS
      split_ifs at h
      cases h
      exact ⟨s, sp, d, dp, S, hs, hd, hS, rfl⟩
  · cases h

/-- A copy job from an existing table into a valid name of an existing dataset succeeds. -/
theorem apply_copy_isSome {E : Engine Val} {w : Warehouse Val} {src dst s d : TableRef}
    {sp dp : Option Date} {disposition : WriteDisposition} (hs : src.resolve = some (s, sp))
    (hd : dst.resolve = some (d, dp)) (hS : (w.tables s).isSome)
    (hv : d.Valid ∧ w.datasets d.project d.dataset = true) :
    (w.apply E (.copy [src] dst disposition)).isSome := by
  obtain ⟨S, hS⟩ := Option.isSome_iff_exists.1 hS
  simp [apply, hs, hd, hS, hv]

/-- Deleting a decorated table id drops that partition. -/
theorem apply_delete_partition {E : Engine Val} {w w' : Warehouse Val} {t b : TableRef}
    {d : Date} (ht : t.resolve = some (b, some d)) (h : w.apply E (.delete t) = some w') :
    ∃ T, w.tables b = some T ∧
      w'.tables = Function.update w.tables b (some (T.dropPartition d)) := by
  simp only [apply, ht] at h
  obtain ⟨T, hT, -, e⟩ := modify_eq_some h
  exact ⟨T, hT, e⟩

/-- Deleting a partition of an existing table succeeds. -/
theorem apply_delete_partition_isSome {E : Engine Val} {w : Warehouse Val} {t b : TableRef}
    {d : Date} (ht : t.resolve = some (b, some d)) (hb : (w.tables b).isSome) :
    (w.apply E (.delete t)).isSome := by
  simpa only [apply, ht, modify_isSome] using hb

/-! ### The warehouse a job leaves

`(w.apply E req).getD w` is the warehouse after the job `req`, which leaves `w` when it fails. -/

theorem apply_query_true_getD (E : Engine Val) (w : Warehouse Val) (s : Stmt) :
    (w.apply E (.query s true)).getD w = w := by
  cases ht : s.readTarget with
  | none => simp [apply, ht]
  | some t => cases h : w.tables t <;> simp [apply, ht, h]

theorem tables_apply_query_getD {s : Stmt} {t : TableRef} (ht : s.readTarget = some t)
    (E : Engine Val) (w : Warehouse Val) :
    ((w.apply E (.query s false)).getD w).tables = Function.update w.tables t
      ((w.tables t).map fun T => T.deleteWhere (E.deletes s T.rows)) := by
  simp only [apply, ht, Option.some_bind]
  exact tables_modify_getD w _ _

theorem tables_apply_delete_getD {t b : TableRef} {d : Date} (ht : t.resolve = some (b, some d))
    (E : Engine Val) (w : Warehouse Val) :
    ((w.apply E (.delete t)).getD w).tables =
      Function.update w.tables b ((w.tables b).map (·.dropPartition d)) := by
  simp only [apply, ht]
  exact tables_modify_getD w _ _

theorem apply_delete_of_resolve_none {t : TableRef} (ht : t.resolve = none) (E : Engine Val)
    (w : Warehouse Val) : w.apply E (.delete t) = none := by
  simp [apply, ht]

theorem tables_apply_copy_getD {src dst s d : TableRef} {sp dp : Option Date}
    (hs : src.resolve = some (s, sp)) (hd : dst.resolve = some (d, dp)) (E : Engine Val)
    (w : Warehouse Val) (hv : d.Valid ∧ w.datasets d.project d.dataset = true)
    (disposition : WriteDisposition) :
    ((w.apply E (.copy [src] dst disposition)).getD w).tables = (w.tables s).elim w.tables
      fun S => Function.update w.tables d
        (some (((w.tables d).getD ⟨[]⟩).write (S.select sp) disposition dp)) := by
  cases hS : w.tables s <;> simp [apply, hs, hd, hS, hv]

theorem apply_copy_of_not_valid {src dst s d : TableRef} {sp dp : Option Date}
    (hs : src.resolve = some (s, sp)) (hd : dst.resolve = some (d, dp)) (E : Engine Val)
    (w : Warehouse Val) (hv : ¬(d.Valid ∧ w.datasets d.project d.dataset = true))
    (disposition : WriteDisposition) : w.apply E (.copy [src] dst disposition) = none := by
  cases hS : w.tables s <;> simp only [apply, hs, hd, hS, dif_neg hv]

theorem apply_copy_of_resolve_none {src dst : TableRef} (hs : src.resolve = none)
    (E : Engine Val) (w : Warehouse Val) (disposition : WriteDisposition) :
    w.apply E (.copy [src] dst disposition) = none := by
  simp [apply, hs]

theorem apply_copy_of_resolve_none_right {src dst : TableRef} (hd : dst.resolve = none)
    (E : Engine Val) (w : Warehouse Val) (disposition : WriteDisposition) :
    w.apply E (.copy [src] dst disposition) = none := by
  cases hs : src.resolve <;> simp [apply, hs, hd]

end Apply

end Warehouse

end EtlGardener
