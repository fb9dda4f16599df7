import EtlGardener.Date

/-!
# The queryer

`NewQuerierWithClient` chooses, by datatype, the columns a job's queries work on (`Queryer`).
The queryer renders its SQL with `html/template`, which escapes every value it interpolates
(`htmlEscape`), and each operation builds the request it sends to the warehouse
(`Request`): `Dedup` and `Cleanup` a query job, `CopyToRaw` a copy job between partitions and
`DeleteTmp` the deletion of a partition.  Two revisions of `ops.go` are modelled together: the one
with `DedupQuery` and `DeleteTmp`, and the one with `QueryFor`, `Run` and `Cleanup`
(`run_dedup` says their `Dedup`s issue the same job).  The `CopyToRaw` of the revision kept with
`dedup_test.go`, which copies whole tables, is `copyToRawTables`.  `NewQuerier` and `CopyToRaw`
each ask `bigquery.NewClient` for a client, which can fail: their argument `newClient` says
whether it made one.
-/

namespace EtlGardener

/-! ## `html/template` escaping -/

/-- The character `html/template` writes for a NUL. -/
def replacementChar : Char := Char.ofNat 65533

/-- What `html/template` writes for one character of a value in a text context
(`htmlReplacementTable`). -/
def htmlEscapeChar (c : Char) : List Char :=
  match c.toNat with
  | 0 => [replacementChar]
  | 34 => "&#34;".toList
  | 38 => "&amp;".toList
  | 39 => "&#39;".toList
  | 43 => "&#43;".toList
  | 60 => "&lt;".toList
  | 62 => "&gt;".toList
  | _ => [c]

/-- `html/template`'s escaper for a value in a text context. -/
def htmlEscape (s : String) : String := String.mk (s.toList.flatMap htmlEscapeChar)

/-- A character is either written as itself, or as text holding `&` or the replacement
character. -/
theorem htmlEscapeChar_cases (c : Char) :
    htmlEscapeChar c = [c] ∨ '&' ∈ htmlEscapeChar c ∨
      replacementChar ∈ htmlEscapeChar c := by
  unfold htmlEscapeChar
  split
  all_goals first
    | exact .inl rfl
    | exact .inr (.inl (by decide))
    | exact .inr (.inr (by decide))

theorem flatMap_htmlEscapeChar_eq_self {l : List Char} (h : ∀ c ∈ l, htmlEscapeChar c = [c]) :
    l.flatMap htmlEscapeChar = l := by
  induction l with
  | nil => rfl
  | cons c l ih =>
    rw [List.flatMap_cons, h c (List.mem_cons_self _ _),
      ih fun x hx => h x (List.mem_cons_of_mem _ hx)]
    rfl

theorem htmlEscape_eq_self {s : String} (h : ∀ c ∈ s.toList, htmlEscapeChar c = [c]) :
    htmlEscape s = s := by
  unfold htmlEscape
  rw [flatMap_htmlEscapeChar_eq_self h]
  rfl

/-- An escaped value made only of characters that exclude `&` and the replacement character was
written unchanged. -/
theorem htmlEscape_eq_self_of_all {p : Char → Bool} (hamp : p '&' = false)
    (hrep : p replacementChar = false) {s : String} (h : (htmlEscape s).toList.all p) :
    htmlEscape s = s := by
  refine htmlEscape_eq_self fun c hc => ?_
  have hall : ∀ x ∈ htmlEscapeChar c, p x = true := fun x hx =>
    List.all_eq_true.1 h x (List.mem_flatMap.2 ⟨c, hc, hx⟩)
  rcases htmlEscapeChar_cases c with e | e | e
  · exact e
  · exact absurd (hall _ e) (by simp [hamp])
  · exact absurd (hall _ e) (by simp [hrep])

theorem htmlEscapeChar_digitChar (n : Nat) : htmlEscapeChar (digitChar n) = [digitChar n] := by
  have key : ∀ k < 10, htmlEscapeChar (Char.ofNat (48 + k)) = [Char.ofNat (48 + k)] := by decide
  exact key _ (Nat.mod_lt _ (by omega))

theorem htmlEscapeChar_of_mem_digits {w n : Nat} {c : Char} (h : c ∈ digits w n) :
    htmlEscapeChar c = [c] := by
  induction w generalizing n with
  | zero => simp [digits] at h
  | succ w ih =>
    rcases List.mem_append.1 h with h | h
    · exact ih h
    · rw [List.mem_singleton.1 h, htmlEscapeChar_digitChar]

/-- The day in the layout `"2006-01-02"` is written unchanged. -/
theorem htmlEscape_format (d : Date) : htmlEscape (d.format "-") = d.format "-" := by
  refine htmlEscape_eq_self fun c hc => ?_
  simp only [Date.format_toList, appendInt_eq_digits, show "-".toList = ['-'] from rfl,
    List.mem_append, List.mem_singleton] at hc
  rcases hc with (((h | rfl) | h) | rfl) | h
  all_goals first
    | exact htmlEscapeChar_of_mem_digits h
    | rfl

/-! ## Jobs and queryers -/

/-- `tracker.Job`: one unit of work, read-only to the queryer; its `Bucket` is read by nothing
modelled here. -/
structure Job where
  experiment : String
  datatype : String
  date : Date

/-- The job of 2019-03-04 for a datatype. -/
def jobOn (datatype : String) : Job :=
  ⟨"ndt", datatype, ⟨2019, 3, 4, by decide, by decide, by decide, by decide⟩⟩

/-- A `bqiface.Client`, by the project it was made for. -/
structure Client where
  project : String

/-- `queryer`: what a job's queries are built from. -/
structure Queryer where
  client : Option Client
  project : String
  /-- Name of the partition field. -/
  date : String
  job : Job
  /-- Map key is the single field name, value is the fully qualified name; in key order, the
  order in which `range` visits a map. -/
  partitionKeys : List (String × String)
  orderKeys : String

/-- The errors the queryer returns. -/
inductive OpError
  /-- `ErrDatatypeNotSupported`. -/
  | datatypeNotSupported
  /-- `dataset.ErrNilQuery`. -/
  | nilQuery
  /-- `dataset.ErrNilBqClient`. -/
  | nilBqClient
  /-- The error `CopyToRaw` returns for a dry run. -/
  | dryrunNotImplemented
  /-- The error `bigquery.NewClient` returns. -/
  | newClient
deriving DecidableEq

/-- The text of an error made in this package; the `dataset` errors are made elsewhere. -/
def OpError.text : OpError → Option String
  | .datatypeNotSupported => some "Datatype not supported"
  | .dryrunNotImplemented => some "dryrun not implemented"
  | _ => none

/-- `NewQuerierWithClient`: the queryer for the job's datatype. -/
def newQuerierWithClient (client : Option Client) (job : Job) (project : String) :
    Except OpError Queryer :=
  match job.datatype with
  | "annotation" => .ok ⟨client, project, "date", job, [("id", "id")], ""⟩
  | "ndt5" => .ok ⟨client, project, "log_time", job, [("test_id", "test_id")], ""⟩
  | "ndt7" => .ok ⟨client, project, "date", job, [("id", "id")], ""⟩
  | _ => .error .datatypeNotSupported

/-- `NewQuerier`: `newClient` says whether `bigquery.NewClient` makes a client for `project`;
the queryer is built with that client, and the error is returned otherwise. -/
def newQuerier (newClient : Bool) (job : Job) (project : String) : Except OpError Queryer :=
  if newClient then newQuerierWithClient (some ⟨project⟩) job project else .error .newClient

theorem newQuerier_ok {job : Job} {project : String} {q : Queryer}
    (h : newQuerier true job project = .ok q) :
    newQuerierWithClient (some ⟨project⟩) job project = .ok q := h

/-- `NewQuerierWithClient` of the revision with `QueryFor` and `Run`, which has no ndt5. -/
def newQuerierWithClientForRun (client : Option Client) (job : Job) (project : String) :
    Except OpError Queryer :=
  match job.datatype with
  | "annotation" => .ok ⟨client, project, "date", job, [("id", "id")], ""⟩
  | "ndt7" => .ok ⟨client, project, "date", job, [("id", "id")], ""⟩
  | _ => .error .datatypeNotSupported

/-- What `NewQuerierWithClient` can return: the job, project and client it was given, no order
keys, and one of the three column choices. -/
theorem newQuerierWithClient_ok {client : Option Client} {job : Job} {project : String}
    {q : Queryer} (h : newQuerierWithClient client job project = .ok q) :
    q.client = client ∧ q.project = project ∧ q.job = job ∧ q.orderKeys = "" ∧
      ((job.datatype = "annotation" ∨ job.datatype = "ndt7") ∧ q.date = "date" ∧
          q.partitionKeys = [("id", "id")] ∨
        job.datatype = "ndt5" ∧ q.date = "log_time" ∧
          q.partitionKeys = [("test_id", "test_id")]) := by
  unfold newQuerierWithClient at h
  split at h <;> simp only [Except.ok.injEq, reduceCtorEq] at h <;> subst h <;> simp_all

theorem newQuerierWithClient_error {client : Option Client} {job : Job} {project : String}
    (h : job.datatype ≠ "annotation" ∧ job.datatype ≠ "ndt5" ∧ job.datatype ≠ "ndt7") :
    newQuerierWithClient client job project = .error .datatypeNotSupported := by
  unfold newQuerierWithClient
  split <;> simp_all

/-- The revision with `Run` builds, for each datatype it supports, the queryer the other
revision builds. -/
theorem newQuerierWithClientForRun_ok {client : Option Client} {job : Job} {project : String}
    {q : Queryer} (h : newQuerierWithClientForRun client job project = .ok q) :
    newQuerierWithClient client job project = .ok q ∧ job.datatype ≠ "ndt5" := by
  unfold newQuerierWithClientForRun at h
  split at h <;> simp_all [newQuerierWithClient]

/-! ## Rendered SQL -/

/-- A table as the client library names it; the table id may end in a `$` partition
decorator. -/
structure TableRef where
  project : String
  dataset : String
  table : String
deriving DecidableEq

/-- A table reference as a quoted SQL path. -/
def TableRef.sql (t : TableRef) : String :=
  "`" ++ t.project ++ "." ++ t.dataset ++ "." ++ t.table ++ "`"

/-- A statement the queryer renders, by the values its template interpolates. -/
inductive Stmt
  /-- `dedupTemplate`. -/
  | dedup (target : TableRef) (date day : String) (keys : List (String × String))
      (orderKeys : String)
  /-- `cleanupTemplate`. -/
  | cleanup (target : TableRef) (date day : String)

/-- The table a statement deletes from. -/
def Stmt.target : Stmt → TableRef
  | .dedup t .. => t
  | .cleanup t .. => t

/-- The lines of `dedupTemplate` before its first table path. -/
def Stmt.dedupHead : String :=
  "\n#standardSQL\n" ++
  "# Delete all duplicate rows based on key and prefered priority ordering.\n" ++
  "# This is resource intensive for tcpinfo - 20 slot hours for 12M rows with 250M " ++
  "snapshots,\n" ++
  "# roughly proportional to the memory footprint of the table partition.\n" ++
  "# The query is very cheap if there are no duplicates.\n" ++
  "DELETE\nFROM "

/-- The lines of `cleanupTemplate` before its table path. -/
def Stmt.cleanupHead : String :=
  "\n#standardSQL\n" ++ "# Delete all rows in a partition.\nDELETE\nFROM "

/-- The text of a rendered statement. -/
def Stmt.text : Stmt → String
  | .dedup t date day keys orderKeys =>
    Stmt.dedupHead ++ t.sql ++ " AS target\n" ++
    "WHERE " ++ date ++ " = \"" ++ day ++ "\"\n" ++
    "# This identifies all rows that don\x27t match rows to preserve.\n" ++
    "AND NOT EXISTS (\n" ++
    "  # This creates list of rows to preserve, based on key and priority.\n" ++
    "  WITH keep AS (\n  SELECT * EXCEPT(row_number) FROM (\n    SELECT\n      " ++
    String.join (keys.map fun kv => kv.2 ++ ", ") ++ "\n\t  parser.Time,\n" ++
    "      ROW_NUMBER() OVER (\n        PARTITION BY " ++
    String.join (keys.map fun kv => kv.2 ++ ", ") ++ "date\n" ++
    "        ORDER BY " ++ orderKeys ++ " parser.Time DESC\n      ) row_number\n" ++
    "      FROM (\n        SELECT * FROM " ++ t.sql ++ "\n" ++
    "        WHERE " ++ date ++ " = \"" ++ day ++ "\"\n      )\n    )\n" ++
    "    WHERE row_number = 1\n  )\n  SELECT * FROM keep\n" ++
    "  # This matches against the keep table based on keys.  Sufficient select keys must be\n" ++
    "  # used to distinguish the preferred row from the others.\n  WHERE\n    " ++
    String.join (keys.map fun kv => "target." ++ kv.2 ++ " = keep." ++ kv.1 ++ " AND ") ++
    "\n    target.parser.Time = keep.Time\n)"
  | .cleanup t date day =>
    Stmt.cleanupHead ++ t.sql ++ "\n" ++ "WHERE " ++ date ++ " = \"" ++ day ++ "\"\n"

theorem Stmt.text_length_pos (s : Stmt) : 0 < s.text.length := by
  cases s <;> rw [Stmt.text, String.length_append] <;> exact Nat.lt_add_left _ (by decide)

namespace Queryer

variable (q : Queryer)

/-- `tmpTable` as rendered: `{{.Project}}.tmp_{{.Job.Experiment}}.{{.Job.Datatype}}`. -/
def tmpTable : TableRef :=
  ⟨htmlEscape q.project, "tmp_" ++ htmlEscape q.job.experiment, htmlEscape q.job.datatype⟩

/-- The statement `dedupTemplate` renders for `q`. -/
def dedupStmt : Stmt :=
  .dedup q.tmpTable (htmlEscape q.date) (htmlEscape (q.job.date.format "-"))
    (q.partitionKeys.map fun kv => (htmlEscape kv.1, htmlEscape kv.2)) (htmlEscape q.orderKeys)

/-- The statement `cleanupTemplate` renders for `q`. -/
def cleanupStmt : Stmt :=
  .cleanup q.tmpTable (htmlEscape q.date) (htmlEscape (q.job.date.format "-"))

/-- `DedupQuery`. -/
def dedupQuery : String := q.dedupStmt.text

/-- `queryTemplates`, applied to `q` by `makeQuery`. -/
def templateFor : String → Option Stmt
  | "dedup" => some q.dedupStmt
  | "cleanup" => some q.cleanupStmt
  | _ => none

theorem templateFor_eq_none {key : String} (h₁ : key ≠ "dedup") (h₂ : key ≠ "cleanup") :
    q.templateFor key = none := by
  simp [templateFor, h₁, h₂]

/-- `QueryFor`: the rendered query for a template key, empty for an unknown key. -/
def queryFor (key : String) : String := ((q.templateFor key).map Stmt.text).getD ""

theorem queryFor_length_eq_zero (key : String) :
    (q.queryFor key).length = 0 ↔ q.templateFor key = none := by
  unfold queryFor
  cases q.templateFor key with
  | none => simp
  | some s => simpa using (Stmt.text_length_pos s).ne'

/-! ## Requests -/

end Queryer

/-- `bigquery.TableWriteDisposition`. -/
inductive WriteDisposition
  | writeAppend
  | writeTruncate
deriving DecidableEq

/-- What an operation asks the warehouse to do. -/
inductive Request
  /-- A query job, `QueryConfig{Q, DryRun}`. -/
  | query (stmt : Stmt) (dryRun : Bool)
  /-- A copy job, `CopyConfig{Srcs, Dst, WriteDisposition}`. -/
  | copy (srcs : List TableRef) (dst : TableRef) (disposition : WriteDisposition)
  /-- `Table.Delete`. -/
  | delete (table : TableRef)

namespace Queryer

variable (q : Queryer)

/-- `Run`: the query job of template `key`.  Go tests `len(qs) == 0`, which holds exactly for an
unknown key (`queryFor_length_eq_zero`). -/
def run (key : String) (dryRun : Bool) : Except OpError Request :=
  match q.templateFor key, q.client with
  | none, _ => .error .nilQuery
  | some _, none => .error .nilBqClient
  | some s, some _ => .ok (.query s dryRun)

/-- `Dedup`. -/
def dedup (dryRun : Bool) : Except OpError Request :=
  if q.dedupQuery.length = 0 then .error .nilQuery
  else match q.client with
    | none => .error .nilBqClient
    | some _ => .ok (.query q.dedupStmt dryRun)

/-- `Cleanup`. -/
def cleanup (dryRun : Bool) : Except OpError Request := q.run "cleanup" dryRun

/-- The table id of the job's partition: `Datatype + "$" + Date.Format("20060102")`, also what
`fmt.Sprintf("%s$%s", ...)` builds from the two. -/
def partitionId : String := q.job.datatype ++ "$" ++ q.job.date.format ""

/-- `CopyToRaw`: it asks `bigquery.NewClient` for a client of the `tmp_` dataset's project, the
client's own, and `newClient` says whether it makes one; that client copies the job's `tmp_`
partition over its `raw_` partition. -/
def copyToRaw (newClient dryRun : Bool) : Except OpError Request :=
  if dryRun then .error .dryrunNotImplemented
  else match q.client with
    | none => .error .nilBqClient
    | some c =>
      if newClient then
        .ok (.copy [⟨c.project, "tmp_" ++ q.job.experiment, q.partitionId⟩]
          ⟨c.project, "raw_" ++ q.job.experiment, q.partitionId⟩ .writeTruncate)
      else .error .newClient

/-- `DeleteTmp`. -/
def deleteTmp : Except OpError Request :=
  match q.client with
  | none => .error .nilBqClient
  | some c => .ok (.delete ⟨c.project, "tmp_" ++ q.job.experiment, q.partitionId⟩)

/-- `CopyToRaw` of the revision kept with `dedup_test.go`: whole tables, and `dryRun` unread. -/
def copyToRawTables (_dryRun : Bool) : Except OpError Request :=
  match q.client with
  | none => .error .nilBqClient
  | some c =>
    .ok (.copy [⟨c.project, "tmp_" ++ q.job.experiment, q.job.datatype⟩]
      ⟨c.project, "raw_" ++ q.job.experiment, q.job.datatype⟩ .writeTruncate)

theorem dedup_of_client {c : Client} (hc : q.client = some c) (dryRun : Bool) :
    q.dedup dryRun = .ok (.query q.dedupStmt dryRun) := by
  simp [dedup, dedupQuery, (Stmt.text_length_pos q.dedupStmt).ne', hc]

theorem run_of_client {c : Client} (hc : q.client = some c) {key : String} {s : Stmt}
    (hs : q.templateFor key = some s) (dryRun : Bool) :
    q.run key dryRun = .ok (.query s dryRun) := by
  simp only [run, hs, hc]

theorem copyToRaw_of_client {c : Client} (hc : q.client = some c) :
    q.copyToRaw true false = .ok (.copy [⟨c.project, "tmp_" ++ q.job.experiment, q.partitionId⟩]
      ⟨c.project, "raw_" ++ q.job.experiment, q.partitionId⟩ .writeTruncate) := by
  simp only [copyToRaw, hc, Bool.false_eq_true, if_false, if_true]

theorem deleteTmp_of_client {c : Client} (hc : q.client = some c) :
    q.deleteTmp = .ok (.delete ⟨c.project, "tmp_" ++ q.job.experiment, q.partitionId⟩) := by
  simp only [deleteTmp, hc]

/-- Without a client every operation fails with `ErrNilBqClient`, except that `CopyToRaw`
refuses a dry run before it looks at the client. -/
theorem errors_of_client_none (hc : q.client = none) (newClient dryRun : Bool) :
    q.dedup dryRun = .error .nilBqClient ∧ q.cleanup dryRun = .error .nilBqClient ∧
    q.deleteTmp = .error .nilBqClient ∧
    q.copyToRaw newClient dryRun =
      .error (if dryRun then .dryrunNotImplemented else .nilBqClient) ∧
    q.copyToRawTables dryRun = .error .nilBqClient := by
  have : q.dedupQuery.length ≠ 0 := (Stmt.text_length_pos _).ne'
  cases dryRun <;> simp [dedup, cleanup, run, templateFor, deleteTmp, copyToRaw, copyToRawTables,
    hc, this]

/-- The two revisions' `Dedup` issue the same job. -/
theorem run_dedup (dryRun : Bool) : q.run "dedup" dryRun = q.dedup dryRun := by
  have : q.dedupQuery.length ≠ 0 := (Stmt.text_length_pos _).ne'
  simp only [run, dedup, templateFor, this, if_false]
  cases q.client <;> rfl

end Queryer

end EtlGardener
