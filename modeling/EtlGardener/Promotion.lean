import EtlGardener.Policies

/-!
# Promoting a day

`OpsHandler` lists the jobs that move a day from staging to the archive: `Dedup`, then
`CopyToRaw`, then `DeleteTmp`.  Run one after another, each on the warehouse the previous one
left, they promote the day (`promote_day`): they succeed when the job's `tmp_` table and `raw_`
dataset exist and `CopyToRaw` gets its client, and the day's partition of `raw_E.D` becomes the
day's partition of `tmp_E.D` less the rows the dedup `DELETE` removes, the day is dropped from
`tmp_E.D`, and nothing else changes.  A retried `Dedup` changes nothing (`dedup_apply_twice`).
-/

namespace EtlGardener

variable {Val : Type}

namespace Queryer

theorem tmpRef_ne_rawRef (q : Queryer) : q.tmpRef ≠ q.rawRef := fun h => by
  simpa [tmpRef, rawRef] using congrArg (·.dataset.toList.head?) h

section Promotion

variable [LinearOrder Val] {E : Engine Val} {q : Queryer} {client : Option Client} {job : Job}
  {P : String} {w w' : Warehouse Val}

/-- A retried `Dedup` job finds its table again and leaves the warehouse as the first run left
it. -/
theorem dedup_apply_twice {req : Request} (hreq : q.dedup false = .ok req)
    (h : w.apply E req = some w') : w'.apply E req = some w' := by
  rw [dedup_eq_ok hreq] at h ⊢
  obtain ⟨t, T, ht, -, e⟩ := Warehouse.apply_query h
  have hT : w'.tables t = some (T.deleteWhere (E.deletes q.dedupStmt T.rows)) := by
    rw [e, Function.update_same]
  simp only [Warehouse.apply, ht, Option.some_bind]
  refine Warehouse.modify_self hT (Table.deleteWhere_eq_self fun r hr => ?_)
  rw [Table.rows_deleteWhere, deletes_dedupStmt_eq] at hr ⊢
  exact DedupSql.deletes_exec_eq_false _ _ hr

theorem dedup_apply_twice_ndt7 :
    ∃ w', ndt7Queryer.dedup false = .ok (.query ndt7Queryer.dedupStmt false) ∧
      ndt7Staged.apply Engine.ymd (.query ndt7Queryer.dedupStmt false) = some w' ∧
      w'.partition ndt7Queryer.tmpRef (jobOn "ndt7").date ≠
        ndt7Staged.partition ndt7Queryer.tmpRef (jobOn "ndt7").date ∧
      w'.apply Engine.ymd (.query ndt7Queryer.dedupStmt false) = some w' := by
  have hreq := ndt7Queryer.dedup_of_client rfl false
  have hq : newQuerier true (jobOn "ndt7") "mlab-sandbox" = .ok ndt7Queryer := rfl
  obtain ⟨w', hw', he⟩ := Option.map_eq_some'.1 (show (ndt7Staged.apply Engine.ymd
    (.query ndt7Queryer.dedupStmt false)).map (·.partition ndt7Queryer.tmpRef (jobOn "ndt7").date)
      = some [idRow 1 20190304 2, idRow 2 20190304 1] by
    rw [apply_query_eq_modify (newQuerier_ok hq) (by decide) ndt7Queryer.dedupStmt rfl]; decide)
  exact ⟨w', hreq, hw', he ▸ by decide, dedup_apply_twice hreq hw'⟩

/-- Modelled from the spec: the promotion sequence, whose caller is not in this repository.
`Dedup`, `CopyToRaw` with its client made, and `DeleteTmp` of `q` each build their job, and the
jobs, run one after another from `w`, leave `w₃`. -/
def PromotesTo (q : Queryer) (E : Engine Val) (w w₃ : Warehouse Val) : Prop :=
  ∃ r₁ r₂ r₃ w₁ w₂, q.dedup false = .ok r₁ ∧ w.apply E r₁ = some w₁ ∧
    q.copyToRaw true false = .ok r₂ ∧ w₁.apply E r₂ = some w₂ ∧
    q.deleteTmp = .ok r₃ ∧ w₂.apply E r₃ = some w₃

/-- With the job's `tmp_` table and `raw_` dataset in place and a four-digit year, every job of
the promotion succeeds. -/
theorem promotesTo_exists (hq : newQuerier true job P = .ok q) (hy : job.date.year < 10000)
    (hT : (w.tables q.tmpRef).isSome)
    (hraw : w.datasets q.rawRef.project q.rawRef.dataset = true) : ∃ w₃, q.PromotesTo E w w₃ := by
  obtain ⟨hc, hp, rfl, -⟩ := newQuerierWithClient_ok hq
  have hv := w.valid _ hT
  have hne := q.tmpRef_ne_rawRef
  have hsrc : TableRef.resolve ⟨P, "tmp_" ++ q.job.experiment, q.partitionId⟩ =
      some (q.tmpRef, some q.job.date) := by
    rw [← hp]; exact TableRef.resolve_decorated (datatype_names hq).2 hy
  have hdst : TableRef.resolve ⟨P, "raw_" ++ q.job.experiment, q.partitionId⟩ =
      some (q.rawRef, some q.job.date) := by
    rw [← hp]; exact TableRef.resolve_decorated (datatype_names hq).2 hy
  have h₁ := q.dedup_of_client hc false
  have h₂ := q.copyToRaw_of_client hc
  have h₃ := q.deleteTmp_of_client hc
  have hs : q.dedupStmt.target = q.tmpTable := rfl
  obtain ⟨w₁, hw₁⟩ := Option.isSome_iff_exists.1
    (show (w.apply E (.query q.dedupStmt false)).isSome by
      simpa only [Warehouse.apply, readTarget_eq_tmpRef hq hv hs, Option.some_bind,
        Warehouse.modify_isSome] using hT)
  obtain ⟨T₁, -, e₁⟩ := query_apply hq hv hs hw₁
  obtain ⟨w₂, hw₂⟩ := Option.isSome_iff_exists.1 (Warehouse.apply_copy_isSome hsrc hdst
    (by simp [e₁]) ⟨rawRef_valid hv, (Warehouse.datasets_apply hw₁).symm ▸ hraw⟩ :
      (w₁.apply E (.copy [_] _ .writeTruncate)).isSome)
  obtain ⟨S, -, e₂⟩ := copyToRaw_apply hq h₂ hw₂
  obtain ⟨w₃, hw₃⟩ := Option.isSome_iff_exists.1
    (Warehouse.apply_delete_partition_isSome hsrc
      (by simp [e₂, Function.update_noteq hne, e₁]) : (w₂.apply E (.delete _)).isSome)
  exact ⟨w₃, _, _, _, w₁, w₂, h₁, hw₁, h₂, hw₂, h₃, hw₃⟩

/-- What a promotion leaves: the day's partition of `raw_E.D` is that of `tmp_E.D` less the rows
the dedup `DELETE` removes, and `tmp_E.D` is deduplicated and without the day. -/
theorem promotesTo_tables (hq : newQuerier true job P = .ok q) {T : Table Val}
    (hT : w.tables q.tmpRef = some T) {w₃ : Warehouse Val} (h : q.PromotesTo E w w₃) :
    ∃ R, w₃.tables q.rawRef = some R ∧
      R.partition job.date = (T.partition job.date).filter
        (fun r => !(q.dedupSql E).deletes (E.number _) T.rows r) ∧
      (∀ p ≠ job.date, R.partition p = ((w.tables q.rawRef).getD ⟨[]⟩).partition p) ∧
      w₃.tables q.tmpRef =
        some ((T.deleteWhere (E.deletes q.dedupStmt T.rows)).dropPartition job.date) ∧
      ∀ u, u ≠ q.tmpRef → u ≠ q.rawRef → w₃.tables u = w.tables u := by
  obtain ⟨r₁, r₂, r₃, w₁, w₂, h₁, hw₁, h₂, hw₂, h₃, hw₃⟩ := h
  have hne := q.tmpRef_ne_rawRef
  rw [dedup_eq_ok h₁] at hw₁
  obtain ⟨T₀, hT₀, e₁⟩ :=
    query_apply hq (w.valid _ (by simp [hT])) (show q.dedupStmt.target = q.tmpTable from rfl) hw₁
  obtain rfl : T₀ = T := Option.some.inj (hT₀.symm.trans hT)
  obtain ⟨S, hS, e₂⟩ := copyToRaw_apply hq h₂ hw₂
  obtain ⟨T₂, hT₂, e₃⟩ := deleteTmp_apply hq h₃ hw₃
  rw [e₁, Function.update_same, Option.some_inj] at hS
  rw [e₂, Function.update_noteq hne, e₁, Function.update_same, Option.some_inj] at hT₂
  rw [e₁, Function.update_noteq hne.symm] at e₂
  subst hS hT₂
  refine ⟨_, by rw [e₃, Function.update_noteq hne.symm, e₂, Function.update_same],
    ?_, fun p hp => ?_, by rw [e₃, Function.update_same], fun u hu hu' => ?_⟩
  · rw [Table.partition_write_truncate, if_pos rfl, Table.partition_deleteWhere]
    rfl
  · rw [Table.partition_write_truncate, if_neg hp]
  · rw [e₃, Function.update_noteq hu, e₂, Function.update_noteq hu', Function.update_noteq hu]

/-- With the job's `tmp_` table and `raw_` dataset in place and a four-digit year, `Dedup`,
`CopyToRaw` and `DeleteTmp` succeed one after another and promote the job's day. -/
theorem promote_day (hq : newQuerier true job P = .ok q) (hy : job.date.year < 10000)
    {T : Table Val} (hT : w.tables q.tmpRef = some T)
    (hraw : w.datasets q.rawRef.project q.rawRef.dataset = true) :
    (∃ w₃, q.PromotesTo E w w₃) ∧ ∀ w₃, q.PromotesTo E w w₃ →
      ∃ R, w₃.tables q.rawRef = some R ∧
        R.partition job.date = (T.partition job.date).filter
          (fun r => !(q.dedupSql E).deletes (E.number _) T.rows r) ∧
        (∀ p ≠ job.date, R.partition p = ((w.tables q.rawRef).getD ⟨[]⟩).partition p) ∧
        w₃.tables q.tmpRef =
          some ((T.deleteWhere (E.deletes q.dedupStmt T.rows)).dropPartition job.date) ∧
        ∀ u, u ≠ q.tmpRef → u ≠ q.rawRef → w₃.tables u = w.tables u :=
  ⟨promotesTo_exists hq hy (by simp [hT]) hraw, fun _ h => promotesTo_tables hq hT h⟩

theorem promote_day_ndt7 :
    newQuerier true (jobOn "ndt7") "mlab-sandbox" = .ok ndt7Queryer ∧
    (jobOn "ndt7").date.year < 10000 ∧ ndt7Staged.tables ndt7Queryer.tmpRef = some ndt7StagedTmp ∧
    ndt7Staged.datasets ndt7Queryer.rawRef.project ndt7Queryer.rawRef.dataset = true ∧
    (ndt7StagedTmp.partition (jobOn "ndt7").date).filter
        (fun r => !(ndt7Queryer.dedupSql Engine.ymd).deletes (Engine.ymd.number _)
          ndt7StagedTmp.rows r) = [idRow 1 20190304 2, idRow 2 20190304 1] ∧
    ((∃ w₃, ndt7Queryer.PromotesTo Engine.ymd ndt7Staged w₃) ∧
      ∀ w₃, ndt7Queryer.PromotesTo Engine.ymd ndt7Staged w₃ →
        ∃ R, w₃.tables ndt7Queryer.rawRef = some R ∧
          R.partition (jobOn "ndt7").date = (ndt7StagedTmp.partition (jobOn "ndt7").date).filter
            (fun r => !(ndt7Queryer.dedupSql Engine.ymd).deletes (Engine.ymd.number _)
              ndt7StagedTmp.rows r) ∧
          (∀ p ≠ (jobOn "ndt7").date,
            R.partition p = ((ndt7Staged.tables ndt7Queryer.rawRef).getD ⟨[]⟩).partition p) ∧
          w₃.tables ndt7Queryer.tmpRef = some ((ndt7StagedTmp.deleteWhere
            (Engine.ymd.deletes ndt7Queryer.dedupStmt ndt7StagedTmp.rows)).dropPartition
              (jobOn "ndt7").date) ∧
          ∀ u, u ≠ ndt7Queryer.tmpRef → u ≠ ndt7Queryer.rawRef →
            w₃.tables u = ndt7Staged.tables u) := by
  have hq : newQuerier true (jobOn "ndt7") "mlab-sandbox" = .ok ndt7Queryer := rfl
  exact ⟨hq, by decide, ndt7Staged_tmp, by decide, by decide,
    promote_day hq (by decide) ndt7Staged_tmp (by decide)⟩

end Promotion

end Queryer

end EtlGardener
