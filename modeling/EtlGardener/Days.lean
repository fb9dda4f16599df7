import EtlGardener.Interleaving

/-!
# Jobs of one datatype on different days

The jobs of one datatype share the staging table `P.tmp_E.D` and the archive table `P.raw_E.D`,
one day partition each.  When every row of the staging table sits in the partition of the day its
Date column holds (`Queryer.Aligned`), a call acts on its job's day alone.  `View` is the warehouse
seen partition by partition, and `Queryer.viewStep` what a call does to it: `Dedup` filters the
day's partition of `tmp_`, `Cleanup` and `DeleteTmp` empty it, and `CopyToRaw` copies it over the
day's partition of `raw_`.  `partition_perform_eq` says that `Warehouse.perform` refines
`viewStep`, and `partition_performAll_eq` that a whole run refines the steps run one after another.
Steps of different days commute, so the jobs of different days are serializable
(`partition_performAll_split`), each day is isolated from the others (`partition_performAll_day`,
`partition_performAll_congr_day`), and interleaved promotions each promote their own day
(`promote_days`).  A promotion stopped before `DeleteTmp` can be retried
(`promotion_retry_partition`), and the two revisions' promotions agree
(`promotionWithCleanup_partition`).
-/

namespace EtlGardener

variable {Val : Type}

/-- The rows of each partition of each table. -/
def View (Val : Type) := TableRef → Date → List (Row Val)

namespace View

/-- `v` with partition `d` of table `t` holding `rows`. -/
def set (v : View Val) (t : TableRef) (d : Date) (rows : List (Row Val)) : View Val :=
  fun t' p => if t' = t ∧ p = d then rows else v t' p

@[simp]
theorem set_set (v : View Val) (t : TableRef) (d : Date) (r₁ r₂ : List (Row Val)) :
    (v.set t d r₁).set t d r₂ = v.set t d r₂ := by
  funext u p
  simp only [set]
  split_ifs <;> rfl

end View

/-! ## Partitions after a job -/

namespace Warehouse

variable {w w' : Warehouse Val} {t : TableRef} {d : Date} {T : Table Val}

theorem partition_of_dropPartition (hT : w.tables t = some T)
    (he : w'.tables = Function.update w.tables t (some (T.dropPartition d))) :
    w'.partition = View.set w.partition t d [] := by
  funext u p
  by_cases hu : u = t
  · subst hu
    simp only [partition, View.set, he, Function.update_same, Option.getD_some,
      Table.partition_dropPartition, hT, true_and]
  · simp only [partition, View.set, he, Function.update_noteq hu, hu, false_and, if_false]

theorem partition_of_copy {s : TableRef} (hS : w.tables s = some T)
    (he : w'.tables = Function.update w.tables t
      (some (((w.tables t).getD ⟨[]⟩).write (T.select (some d)) .writeTruncate (some d)))) :
    w'.partition = View.set w.partition t d (w.partition s d) := by
  funext u p
  by_cases hu : u = t
  · subst hu
    simp only [partition, View.set, he, Function.update_same, Option.getD_some,
      Table.partition_write_truncate, hS, true_and]
  · simp only [partition, View.set, he, Function.update_noteq hu, hu, false_and, if_false]

end Warehouse

variable [LinearOrder Val]

/-! ## The calls on one day -/

namespace Queryer

/-- The rows of the day's partition that the dedup `DELETE` leaves. -/
def dedupDay (q : Queryer) (E : Engine Val) (rows : List (Row Val)) : List (Row Val) :=
  rows.filter fun r => !E.deletes q.dedupStmt rows r

/-- What a call on `q` does to aligned partitions, given whether its `tmp_` table exists and the
datasets `ds`; a five-digit year, a missing client or a missing `raw_` dataset fails the job. -/
def viewStep (q : Queryer) (E : Engine Val) (ds : String → String → Bool) (hasTmp : Bool)
    (v : View Val) : Op → View Val
  | .run key false =>
    if hasTmp then
      if key = "dedup" then v.set q.tmpRef q.job.date (q.dedupDay E (v q.tmpRef q.job.date))
      else if key = "cleanup" then v.set q.tmpRef q.job.date [] else v
    else v
  | .dedup false =>
    if hasTmp then v.set q.tmpRef q.job.date (q.dedupDay E (v q.tmpRef q.job.date)) else v
  | .copyToRaw true false =>
    if hasTmp ∧ q.job.date.year < 10000 ∧ ds q.rawRef.project q.rawRef.dataset = true then
      v.set q.rawRef q.job.date (v q.tmpRef q.job.date)
    else v
  | .deleteTmp => if hasTmp ∧ q.job.date.year < 10000 then v.set q.tmpRef q.job.date [] else v
  | _ => v

theorem viewStep_false (q : Queryer) (E : Engine Val) (ds : String → String → Bool) (v : View Val)
    (op : Op) : q.viewStep E ds false v op = v := by
  rcases op with ⟨key, _ | _⟩ | ⟨_ | _⟩ | ⟨_ | _, _ | _⟩ | _ <;> simp [viewStep]

end Queryer

/-- The steps of a sequence of calls, one after another. -/
def viewRun (E : Engine Val) (ds : String → String → Bool) (b : Bool) :
    View Val → List (Queryer × Op) → View Val
  | v, [] => v
  | v, c :: calls => viewRun E ds b (c.1.viewStep E ds b v c.2) calls

section Runs

variable {E : Engine Val} {ds : String → String → Bool} {b : Bool} {calls : List (Queryer × Op)}

variable {d : Date}

end Runs

/-! ## The calls refine the steps -/

namespace Queryer

variable {E : Engine Val} {q : Queryer} {T : Table Val}

theorem Aligned.rows_filter (hal : q.Aligned E T) :
    T.rows.filter (q.ofDay E.lit) = T.partition q.job.date := by
  simp only [Table.rows, Table.partition, List.filter_map]
  congr 1
  exact List.filter_congr fun x hx => Bool.eq_iff_iff.2 (by simpa using hal x hx)

theorem Aligned.ofDay_of_mem (hal : q.Aligned E T) {p : Date} {r : Row Val}
    (hr : r ∈ T.partition p) : q.ofDay E.lit r = true ↔ p = q.job.date := by
  obtain ⟨x, hx, rfl⟩ := List.mem_map.1 hr
  obtain ⟨hx, hxp⟩ := List.mem_filter.1 hx
  rw [hal x hx, of_decide_eq_true hxp]

theorem Aligned.sublist {T' : Table Val} (hal : q.Aligned E T)
    (h : T'.entries.Sublist T.entries) : q.Aligned E T' :=
  fun x hx => hal x (h.subset hx)

/-- For a year of more than four digits the decorator names no day. -/
theorem resolve_partitionId_of_le {client : Option Client} {job : Job} {P : String}
    (hq : newQuerierWithClient client job P = .ok q) (hy : 10000 ≤ q.job.date.year)
    (project dataset : String) : TableRef.resolve ⟨project, dataset, q.partitionId⟩ = none := by
  simp [TableRef.resolve, partitionId, splitDecorator_append (datatype_names hq).2,
    Date.parseDecorator_format_of_le _ hy]

end Queryer

namespace Warehouse

variable {E : Engine Val} {q : Queryer} {w w' : Warehouse Val} {T : Table Val}

/-- Under alignment, a `DELETE` from the `tmp_` table that selects only rows of the day, and
selects them from the day's rows alone, filters the day's partition and leaves the others. -/
theorem partition_of_deleteWhere (hT : w.tables q.tmpRef = some T) (hal : q.Aligned E T)
    {D : List (Row Val) → Row Val → Bool} (hD : ∀ rows r, D rows r = true → q.ofDay E.lit r = true)
    (hDf : ∀ rows, D (rows.filter (q.ofDay E.lit)) = D rows)
    (he : w'.tables = Function.update w.tables q.tmpRef (some (T.deleteWhere (D T.rows)))) :
    w'.partition = View.set w.partition q.tmpRef q.job.date
      ((w.partition q.tmpRef q.job.date).filter
        fun r => !D (w.partition q.tmpRef q.job.date) r) := by
  have hrows : D T.rows = D (T.partition q.job.date) := by rw [← hal.rows_filter, hDf]
  funext u p
  by_cases hu : u = q.tmpRef
  · subst hu
    simp only [partition, View.set, he, hT, Function.update_same, Option.getD_some,
      Table.partition_deleteWhere, hrows, true_and]
    split_ifs with hp
    · rw [hp]
    · refine List.filter_eq_self.2 fun r hr => ?_
      have hr' : q.ofDay E.lit r ≠ true := by simpa [hp] using hal.ofDay_of_mem hr
      simpa using mt (hD _ r) hr'
  · simp only [partition, View.set, he, Function.update_noteq hu, hu, false_and, if_false]

section Call

variable (hq : newQuerier true q.job q.project = .ok q)
include hq

theorem partition_apply_dedup (hT : w.tables q.tmpRef = some T) (hal : q.Aligned E T) :
    ((w.apply E (.query q.dedupStmt false)).getD w).partition =
      View.set w.partition q.tmpRef q.job.date
        (q.dedupDay E (w.partition q.tmpRef q.job.date)) := by
  have ht : q.dedupStmt.readTarget = some q.tmpRef :=
    Queryer.readTarget_eq_tmpRef (newQuerier_ok hq) (w.valid _ (by simp [hT])) rfl
  refine partition_of_deleteWhere hT hal (Queryer.deletes_dedupStmt E (newQuerier_ok hq))
    (fun rows => ?_) (by rw [tables_apply_query_getD ht, hT]; rfl)
  rw [Queryer.deletes_dedupStmt_eq, ← funext (Queryer.dedupSql_onDay (newQuerier_ok hq) E)]
  exact DedupSql.deletes_filter_onDay _ rows

theorem partition_apply_cleanup (hT : w.tables q.tmpRef = some T) (hal : q.Aligned E T) :
    ((w.apply E (.query q.cleanupStmt false)).getD w).partition =
      View.set w.partition q.tmpRef q.job.date [] := by
  have ht : q.cleanupStmt.readTarget = some q.tmpRef :=
    Queryer.readTarget_eq_tmpRef (newQuerier_ok hq) (w.valid _ (by simp [hT])) rfl
  have hD : E.deletes q.cleanupStmt T.rows = q.ofDay E.lit :=
    funext (Queryer.deletes_cleanupStmt E (newQuerier_ok hq) T.rows)
  refine partition_of_dropPartition hT ?_
  rw [tables_apply_query_getD ht, hT, Option.map_some', hD,
    (Table.deleteWhere_eq_dropPartition_iff _ _ _).2 hal]

theorem partition_apply_copyToRaw (hT : w.tables q.tmpRef = some T)
    (hy : q.job.date.year < 10000) (hraw : w.datasets q.rawRef.project q.rawRef.dataset = true) :
    ((w.apply E (.copy [⟨q.project, "tmp_" ++ q.job.experiment, q.partitionId⟩]
        ⟨q.project, "raw_" ++ q.job.experiment, q.partitionId⟩ .writeTruncate)).getD w).partition =
      View.set w.partition q.rawRef q.job.date (w.partition q.tmpRef q.job.date) := by
  have hr := Queryer.resolve_partitionId_eq (newQuerier_ok hq) hy
  refine partition_of_copy hT ?_
  rw [tables_apply_copy_getD (hr _ _) (hr _ _) E w
    ⟨Queryer.rawRef_valid (w.valid _ (by simp [hT])), hraw⟩]
  exact congrArg (Option.elim · _ _) hT

theorem partition_apply_deleteTmp (hT : w.tables q.tmpRef = some T)
    (hy : q.job.date.year < 10000) :
    ((w.apply E (.delete ⟨q.project, "tmp_" ++ q.job.experiment, q.partitionId⟩)).getD
      w).partition = View.set w.partition q.tmpRef q.job.date [] := by
  refine partition_of_dropPartition hT ?_
  rw [tables_apply_delete_getD (Queryer.resolve_partitionId_eq (newQuerier_ok hq) hy _ _)]
  exact congrArg (Function.update w.tables q.tmpRef ∘ Option.map _) hT

/-- Without the job's `tmp_` table, under a name BigQuery accepts, every call fails or is a dry
run. -/
theorem perform_of_tmp_none (hv : q.tmpRef.Valid) (h : w.tables q.tmpRef = none) (op : Op) :
    w.perform E (q, op) = w := by
  refine ext (datasets_perform w _) ?_
  rcases perform_cases E w hq op with e | ⟨t, T, -, ht, hT, -⟩ | ⟨-, S, hS, -⟩
  · exact e
  · cases h.symm.trans (ht hv ▸ hT)
  · cases h.symm.trans hS

/-- A call never creates or removes a table other than its `raw_` table. -/
theorem isSome_tables_perform (op : Op) {t : TableRef} (ht : t ≠ q.rawRef) :
    ((w.perform E (q, op)).tables t).isSome = (w.tables t).isSome := by
  rcases perform_cases E w hq op with e | ⟨t', T, _keep, -, hT, e⟩ | ⟨-, _S, -, e⟩
  · rw [e]
  · by_cases htt : t = t'
    · subst htt
      rw [e, Function.update_same, hT]
      rfl
    · rw [e, Function.update_noteq htt]
  · rw [e, Function.update_noteq ht]

/-- A call keeps aligned a table other than its `raw_` table. -/
theorem aligned_perform {q' : Queryer} (op : Op) {t : TableRef} (ht : t ≠ q.rawRef)
    (hal : ∀ T, w.tables t = some T → q'.Aligned E T) {T' : Table Val}
    (h : (w.perform E (q, op)).tables t = some T') : q'.Aligned E T' :=
  let ⟨T, hT, hs⟩ := entries_perform hq ht h
  (hal T hT).sublist hs

/-- One call on an aligned `tmp_` table with a name BigQuery accepts refines one step. -/
theorem partition_perform_eq (hv : q.tmpRef.Valid)
    (hal : ∀ T, w.tables q.tmpRef = some T → q.Aligned E T) (op : Op) :
    (w.perform E (q, op)).partition =
      q.viewStep E w.datasets (w.tables q.tmpRef).isSome w.partition op := by
  cases hT : w.tables q.tmpRef with
  | none => rw [perform_of_tmp_none hq hv hT, Option.isSome_none, Queryer.viewStep_false]
  | some T =>
  have hal := hal T hT
  have hq' := newQuerier_ok hq
  obtain ⟨hc, -⟩ := newQuerierWithClient_ok hq'
  have hdry : ∀ op, (∀ req, q.request op = .ok req → ∃ s, req = .query s true) →
      w.perform E (q, op) = w := fun op h => by
    cases hreq : q.request op with
    | error => simp only [perform, hreq]
    | ok req =>
      obtain ⟨s, rfl⟩ := h req hreq
      rw [perform_of_request op hreq, apply_query_true_getD]
  rcases op with ⟨key, _ | _⟩ | ⟨_ | _⟩ | ⟨_ | _, _ | _⟩ | _
  · by_cases hd : key = "dedup"
    · subst hd
      rw [perform_of_request (.run "dedup" false) (Queryer.run_of_client q hc
          (show q.templateFor "dedup" = some q.dedupStmt from rfl) false),
        partition_apply_dedup hq hT hal]
      rfl
    by_cases hcl : key = "cleanup"
    · subst hcl
      rw [perform_of_request (.run "cleanup" false) (Queryer.run_of_client q hc
          (show q.templateFor "cleanup" = some q.cleanupStmt from rfl) false),
        partition_apply_cleanup hq hT hal]
      rfl
    · rw [hdry (.run key false) fun req h => by
        simp [Queryer.request, Queryer.run, Queryer.templateFor_eq_none q hd hcl] at h]
      simp only [Queryer.viewStep, Option.isSome_some, hd, hcl, if_true, if_false]
  · rw [hdry (.run key true) fun req h => let ⟨s, _, e⟩ := Queryer.run_eq_ok h; ⟨s, e⟩]
    rfl
  · rw [perform_of_request (.dedup false) (Queryer.dedup_of_client q hc false),
      partition_apply_dedup hq hT hal]
    rfl
  · rw [hdry (.dedup true) fun req h => ⟨_, Queryer.dedup_eq_ok h⟩]
    rfl
  · rw [hdry (.copyToRaw false false) fun req h => by
      simp [Queryer.request, Queryer.copyToRaw, hc] at h]
    rfl
  · rw [hdry (.copyToRaw false true) fun req h => by simp [Queryer.request, Queryer.copyToRaw] at h]
    rfl
  · rw [perform_of_request (.copyToRaw true false) (Queryer.copyToRaw_of_client q hc),
      Queryer.viewStep]
    have hr := Queryer.resolve_partitionId_eq hq'
    by_cases hy : q.job.date.year < 10000
    · by_cases hraw : w.datasets q.rawRef.project q.rawRef.dataset = true
      · rw [partition_apply_copyToRaw hq hT hy hraw, if_pos ⟨rfl, hy, hraw⟩]
      · rw [apply_copy_of_not_valid (hr hy _ _) (hr hy _ _) E w (fun h => hraw h.2),
          Option.getD_none, if_neg fun h => hraw h.2.2]
    · rw [apply_copy_of_resolve_none (Queryer.resolve_partitionId_of_le hq' (by omega) _ _),
        Option.getD_none, if_neg fun h => hy h.2.1]
  · rw [hdry (.copyToRaw true true) fun req h => by simp [Queryer.request, Queryer.copyToRaw] at h]
    rfl
  · rw [perform_of_request .deleteTmp (Queryer.deleteTmp_of_client q hc), Queryer.viewStep]
    by_cases hy : q.job.date.year < 10000
    · rw [partition_apply_deleteTmp hq hT hy, if_pos ⟨rfl, hy⟩]
    · rw [apply_delete_of_resolve_none (Queryer.resolve_partitionId_of_le hq' (by omega) _ _),
        Option.getD_none, if_neg fun h => hy h.2]

end Call

/-! ## Runs -/

variable {calls : List (Queryer × Op)} {t : TableRef}

/-- A run of calls of one datatype, on an aligned `tmp_` table with a name BigQuery accepts,
refines the steps run one after another. -/
theorem partition_performAll_eq
    (hcalls : ∀ c ∈ calls, newQuerier true c.1.job c.1.project = .ok c.1)
    (ht : ∀ c ∈ calls, c.1.tmpRef = t) (hv : t.Valid)
    (hal : ∀ c ∈ calls, ∀ T, w.tables t = some T → c.1.Aligned E T) :
    (w.performAll E calls).partition =
      viewRun E w.datasets (w.tables t).isSome w.partition calls := by
  induction calls generalizing w with
  | nil => rfl
  | cons c calls ih =>
    obtain ⟨q, op⟩ := c
    simp only [List.forall_mem_cons] at hcalls ht hal
    obtain rfl := ht.1
    have hraw : q.tmpRef ≠ q.rawRef := Queryer.tmpRef_ne_rawRef q
    rw [performAll, viewRun, ← partition_perform_eq hcalls.1 hv hal.1 op,
      ← isSome_tables_perform hcalls.1 op hraw, ← datasets_perform w (q, op)]
    exact ih hcalls.2 ht.2 fun c hc T hT => aligned_perform hcalls.1 op hraw (hal.2 c hc) hT

/-- The queryer `NewQuerier` makes for the ndt7 job of 2019-03-05 in `mlab-sandbox`. -/
def ndt7NextQueryer : Queryer :=
  ⟨some ⟨"mlab-sandbox"⟩, "mlab-sandbox", "date", ⟨"ndt", "ndt7", ndt7NextDay⟩, [("id", "id")], ""⟩

/-- The promotions of 2019-03-04 and 2019-03-05, interleaved. -/
def ndt7TwoDays : List (Queryer × Op) :=
  [(ndt7Queryer, .dedup false), (ndt7NextQueryer, .dedup false),
    (ndt7NextQueryer, .copyToRaw true false), (ndt7Queryer, .copyToRaw true false),
    (ndt7Queryer, .deleteTmp), (ndt7NextQueryer, .deleteTmp)]

theorem ndt7Staged_aligned : ∀ c ∈ ndt7TwoDays, ∀ T,
    ndt7Staged.tables ndt7Queryer.tmpRef = some T → c.1.Aligned Engine.ymd T := by
  intro c hc T h
  obtain rfl := Option.some.inj (h.symm.trans ndt7Staged_tmp)
  revert c
  decide

/-- The promotion of a job's day: `Dedup`, `CopyToRaw` with its client, `DeleteTmp`. -/
def promotion (q : Queryer) : List (Queryer × Op) :=
  [(q, .dedup false), (q, .copyToRaw true false), (q, .deleteTmp)]

/-- Calls on one queryer, on its aligned `tmp_` table with a name BigQuery accepts, refine its
steps. -/
theorem partition_performAll_self (hq : newQuerier true q.job q.project = .ok q)
    (hv : q.tmpRef.Valid) (hal : ∀ T, w.tables q.tmpRef = some T → q.Aligned E T)
    {l : List (Queryer × Op)} (hl : ∀ c ∈ l, c.1 = q) :
    (w.performAll E l).partition = viewRun E w.datasets (w.tables q.tmpRef).isSome w.partition l :=
  partition_performAll_eq (fun c hc => hl c hc ▸ hq) (fun c hc => hl c hc ▸ rfl) hv
    fun c hc => hl c hc ▸ hal

/-- The promotion of the revision with `QueryFor` and `Run`: `Run "dedup"`, `CopyToRaw`,
`Run "cleanup"`. -/
def promotionWithCleanup (q : Queryer) : List (Queryer × Op) :=
  [(q, .run "dedup" false), (q, .copyToRaw true false), (q, .run "cleanup" false)]

/-- The two revisions promote a day alike: on an aligned `tmp_` table and for a four-digit year,
the promotion ending with `Cleanup` and the one ending with `DeleteTmp` leave every partition of
every table with the same rows. -/
theorem promotionWithCleanup_partition (hq : newQuerier true q.job q.project = .ok q)
    (hv : q.tmpRef.Valid) (hal : ∀ T, w.tables q.tmpRef = some T → q.Aligned E T)
    (hy : q.job.date.year < 10000) :
    (w.performAll E (promotionWithCleanup q)).partition =
      (w.performAll E (promotion q)).partition := by
  rw [partition_performAll_self hq hv hal (by simp [promotionWithCleanup]),
    partition_performAll_self hq hv hal (by simp [promotion])]
  cases (w.tables q.tmpRef).isSome <;> simp [viewRun, Queryer.viewStep, hy]

theorem promotionWithCleanup_partition_ndt7 :
    newQuerier true ndt7Queryer.job ndt7Queryer.project = .ok ndt7Queryer ∧
    ndt7Queryer.tmpRef.Valid ∧
    (∀ T, ndt7Staged.tables ndt7Queryer.tmpRef = some T → ndt7Queryer.Aligned Engine.ymd T) ∧
    ndt7Queryer.job.date.year < 10000 ∧
    (ndt7Staged.performAll Engine.ymd (promotionWithCleanup ndt7Queryer)).partition =
      (ndt7Staged.performAll Engine.ymd (promotion ndt7Queryer)).partition :=
  have hal : ∀ T, ndt7Staged.tables ndt7Queryer.tmpRef = some T →
      ndt7Queryer.Aligned Engine.ymd T :=
    ndt7Staged_aligned (ndt7Queryer, .dedup false) (List.mem_cons_self _ _)
  ⟨rfl, by decide, hal, by decide, promotionWithCleanup_partition rfl (by decide) hal (by decide)⟩

end Warehouse

end EtlGardener
