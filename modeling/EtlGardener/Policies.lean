import EtlGardener.Frame

/-!
# The dedup query of each datatype

`Queryer.dedupSql` is the `DELETE` a queryer renders, as an engine reads it.  Two facts about
the `DELETE` decide what it keeps of a key group.  When the `WHERE` picks the day by the window's
own column `date`, as for annotation and ndt7, every row of the day that survives has the
`parser.Time` of the row numbered 1 in its key group (`dedup_survivors_same_time`).  For ndt5 the
`WHERE` picks the day by `log_time` while the window still groups by `date`, so a key group split
over two `date`s keeps a row of each (`ndt5_dedup_keeps_both_dates`).  And whatever the datatype,
the match `target.<key> = keep.<key> AND target.parser.Time = keep.Time` is never `TRUE` for a
row with a `NULL` key or `parser.Time`: the row numbered 1 survives exactly when it has neither
(`dedup_keeps_first`), and a row with one is deleted even when it is alone (`dedup_deletes_null`,
`annotation_dedup_deletes_lone_null_time_row`).
-/

namespace EtlGardener

variable {Val : Type} [LinearOrder Val]

namespace DedupSql

variable {q : DedupSql Val}

theorem get_date_of_onDay {r : Row Val} (h : q.onDay r = true) : r.get q.date = some q.day := by
  obtain ⟨x, h₁, h₂⟩ := sqlEq_iff.1 h
  rw [h₁, Option.some.inj h₂.symm]

theorem windowOf_congr {T : List (Row Val)} {r r' : Row Val} (h : q.window r = q.window r') :
    q.windowOf T r = q.windowOf T r' := by
  simp [windowOf, h]

/-- When the `WHERE` reads the day from `date`, two rows of the day with equal keys share a
window. -/
theorem window_eq_of_keys (hdate : q.date = "date") {r r' : Row Val} (hr : q.onDay r = true)
    (hr' : q.onDay r' = true) (hk : ∀ c ∈ q.keys, r.get c = r'.get c) :
    q.window r = q.window r' := by
  have h := get_date_of_onDay hr
  have h' := get_date_of_onDay hr'
  rw [hdate] at h h'
  simp only [window, List.map_congr_left hk, h, h']

theorem keys_eq_of_matchesKeep {t k : Row Val} (h : q.matchesKeep t k = true) :
    (∀ c ∈ q.keys, t.get c = k.get c) ∧ t.get "parser.Time" = k.get "parser.Time" := by
  simp only [matchesKeep, Bool.and_eq_true, List.all_eq_true] at h
  refine ⟨fun c hc => ?_, ?_⟩
  · obtain ⟨x, h₁, h₂⟩ := sqlEq_iff.1 (h.1 c hc); rw [h₁, h₂]
  · obtain ⟨x, h₁, h₂⟩ := sqlEq_iff.1 h.2; rw [h₁, h₂]

/-- The row numbered 1 in a window survives when its keys and `parser.Time` are not `NULL`. -/
theorem first_mem_exec (rn : RowNumbering q.rank) {T : List (Row Val)} {r : Row Val}
    (hr : r ∈ T) (hd : q.onDay r = true)
    (hnn : q.matchesKeep (rn.first (q.windowOf T r)) (rn.first (q.windowOf T r)) = true) :
    rn.first (q.windowOf T r) ∈ q.exec rn T := by
  have hne : q.windowOf T r ≠ [] := List.ne_nil_of_mem (mem_windowOf.2 ⟨hr, hd, rfl⟩)
  have hk : rn.first (q.windowOf T r) ∈ q.keep rn T :=
    List.mem_map.2 ⟨r, List.mem_filter.2 ⟨hr, hd⟩, rfl⟩
  refine mem_exec.2 ⟨(mem_windowOf.1 (rn.first_mem _ hne)).1, ?_⟩
  simp [deletes, List.any_eq_true.2 ⟨_, hk, hnn⟩]

theorem first_singleton (rn : RowNumbering q.rank) (r : Row Val) : rn.first [r] = r :=
  List.mem_singleton.1 (rn.first_mem _ (List.cons_ne_nil _ _))

/-- A row of the day alone in its window, with its keys and `parser.Time` not `NULL`,
survives. -/
theorem mem_exec_of_alone (rn : RowNumbering q.rank) {T : List (Row Val)} {r : Row Val}
    (hr : r ∈ T) (hd : q.onDay r = true) (hw : q.windowOf T r = [r])
    (hm : q.matchesKeep r r = true) : r ∈ q.exec rn T := by
  have h := first_mem_exec rn hr hd (by rw [hw, first_singleton]; exact hm)
  rwa [hw, first_singleton] at h

/-- A `DELETE` that every row survives leaves the table as it is. -/
theorem exec_eq_self {rn : RowNumbering q.rank} {T : List (Row Val)}
    (h : ∀ t ∈ T, t ∈ q.exec rn T) : q.exec rn T = T :=
  List.filter_eq_self.2 fun t ht => by simp [(mem_exec.1 (h t ht)).2]

/-- With the day read from `date`, a surviving row of the day has the `parser.Time` of the row
numbered 1 in its window. -/
theorem time_eq_first (hdate : q.date = "date") {rn : RowNumbering q.rank} {T : List (Row Val)}
    {t : Row Val} (ht : t ∈ q.exec rn T) (hd : q.onDay t = true) :
    t.get "parser.Time" = (rn.first (q.windowOf T t)).get "parser.Time" := by
  obtain ⟨-, hdel⟩ := mem_exec.1 ht
  simp only [deletes, hd, Bool.true_and, Bool.not_eq_false'] at hdel
  obtain ⟨k, hk, hm⟩ := List.any_eq_true.1 hdel
  obtain ⟨r, hr, rfl⟩ := List.mem_map.1 hk
  obtain ⟨hrT, hrd⟩ := List.mem_filter.1 hr
  have hne : q.windowOf T r ≠ [] := List.ne_nil_of_mem (mem_windowOf.2 ⟨hrT, hrd, rfl⟩)
  obtain ⟨-, hkd, hkw⟩ := mem_windowOf.1 (rn.first_mem _ hne)
  obtain ⟨hkeys, htime⟩ := keys_eq_of_matchesKeep hm
  rw [htime, windowOf_congr ((window_eq_of_keys hdate hd hkd hkeys).trans hkw)]

/-- With the day read from `date`, two rows of the day that survive the `DELETE` with equal keys
have equal `parser.Time`, the time of the row numbered 1 for their key. -/
theorem survivors_same_time (hdate : q.date = "date") (rn : RowNumbering q.rank)
    (T : List (Row Val)) {t₁ t₂ : Row Val} (h₁ : t₁ ∈ q.exec rn T)
    (h₂ : t₂ ∈ q.exec rn T) (hd₁ : q.onDay t₁ = true) (hd₂ : q.onDay t₂ = true)
    (hk : ∀ c ∈ q.keys, t₁.get c = t₂.get c) :
    t₁.get "parser.Time" = t₂.get "parser.Time" ∧
      t₁.get "parser.Time" = (rn.first (q.windowOf T t₁)).get "parser.Time" := by
  refine ⟨?_, time_eq_first hdate h₁ hd₁⟩
  rw [time_eq_first hdate h₁ hd₁, time_eq_first hdate h₂ hd₂,
    windowOf_congr (window_eq_of_keys hdate hd₁ hd₂ hk)]

/-! ## The intended dedup -/

theorem rank_le_of_order (hord : ∀ r s, q.order.le r s = true) (r s : Row Val) :
    q.rank.le r s = descLe (r.get "parser.Time") (s.get "parser.Time") := by
  simp [rank, RowOrder.thenDesc, hord]

omit [LinearOrder Val] in
theorem keys_eq_of_window_eq {r r' : Row Val} (h : q.window r = q.window r') :
    q.keys.map r.get = q.keys.map r'.get :=
  List.append_inj_left' h rfl

/-- With the day read from `date` and no order before `parser.Time`, a day row that matches a
`keep` row is a latest row of its key group. -/
theorem latest_of_matchesKeep (hdate : q.date = "date") (hord : ∀ r s, q.order.le r s = true)
    {rn : RowNumbering q.rank} {T : List (Row Val)} {t k : Row Val} (hk : k ∈ q.keep rn T)
    (hm : q.matchesKeep t k = true) {x : Row Val} (hx : x ∈ T) (hxd : q.onDay x = true)
    (hxk : q.keys.map x.get = q.keys.map t.get) :
    descLe (t.get "parser.Time") (x.get "parser.Time") = true := by
  obtain ⟨-, hkd, hleast⟩ := keep_least hk
  obtain ⟨hkeys, htime⟩ := keys_eq_of_matchesKeep hm
  have hw : q.window x = q.window k := window_eq_of_keys hdate hxd hkd fun c hc =>
    (List.map_inj_left.1 hxk c hc).trans (hkeys c hc)
  rw [htime, ← rank_le_of_order hord]
  exact hleast x hx hxd hw

/-- With no order before `parser.Time`, a latest row of its key group, with its keys and
`parser.Time` not `NULL`, matches the row numbered 1 in its window. -/
theorem matchesKeep_first_of_latest (hord : ∀ r s, q.order.le r s = true)
    (rn : RowNumbering q.rank) {T : List (Row Val)} {t : Row Val} (ht : t ∈ T)
    (hd : q.onDay t = true)
    (hnn : (∀ c ∈ q.keys, (t.get c).isSome) ∧ (t.get "parser.Time").isSome)
    (hall : ∀ x ∈ T, q.onDay x = true → q.keys.map x.get = q.keys.map t.get →
      descLe (t.get "parser.Time") (x.get "parser.Time") = true) :
    q.matchesKeep t (rn.first (q.windowOf T t)) = true := by
  have hne : q.windowOf T t ≠ [] := List.ne_nil_of_mem (mem_windowOf.2 ⟨ht, hd, rfl⟩)
  obtain ⟨hkT, hkd, hkw⟩ := mem_windowOf.1 (rn.first_mem _ hne)
  have hkeys := keys_eq_of_window_eq hkw
  have hle := rn.first_le _ t (mem_windowOf.2 ⟨ht, hd, rfl⟩)
  rw [rank_le_of_order hord] at hle
  have htime := descLe_antisymm hle (hall _ hkT hkd hkeys)
  simp only [matchesKeep, Bool.and_eq_true, List.all_eq_true, htime, sqlEq_self]
  exact ⟨fun c hc => by rw [List.map_inj_left.1 hkeys c hc, sqlEq_self]; exact hnn.1 c hc,
    hnn.2⟩

/-- With the day read from `date`, no order before `parser.Time`, and no `NULL` key or
`parser.Time` among the rows of the day, the `DELETE` leaves what the dedup is meant to leave. -/
theorem exec_eq_keepLatest (hdate : q.date = "date") (hord : ∀ r s, q.order.le r s = true)
    (rn : RowNumbering q.rank) (T : List (Row Val))
    (hnn : ∀ t ∈ T, q.onDay t = true →
      (∀ c ∈ q.keys, (t.get c).isSome) ∧ (t.get "parser.Time").isSome) :
    q.exec rn T = q.keepLatest T := by
  refine List.filter_congr fun t ht => ?_
  cases hd : q.onDay t
  · simp [deletes, hd]
  · simp only [deletes, hd, Bool.true_and, Bool.not_not, Bool.not_true, Bool.false_or]
    refine Bool.eq_iff_iff.2 ⟨fun hany => ?_, fun hall => ?_⟩
    · obtain ⟨k, hk, hm⟩ := List.any_eq_true.1 hany
      refine List.all_eq_true.2 fun x hx => ?_
      cases hxd : q.onDay x
      · simp
      · by_cases hxk : q.keys.map x.get = q.keys.map t.get
        · simp [latest_of_matchesKeep hdate hord hk hm hx hxd hxk]
        · simp [hxk]
    · refine List.any_eq_true.2 ⟨_, List.mem_map.2 ⟨t, List.mem_filter.2 ⟨ht, hd⟩, rfl⟩,
        matchesKeep_first_of_latest hord rn ht hd (hnn t ht hd) fun x hx hxd hxk => ?_⟩
      simpa [hxd, hxk] using List.all_eq_true.1 hall x hx

/-- With no order before `parser.Time`, a day row whose keys and `parser.Time` are not `NULL`
leaves a row of its window with a `parser.Time` at least as late: the row numbered 1. -/
theorem exists_survivor (hord : ∀ r s, q.order.le r s = true) (rn : RowNumbering q.rank)
    {T : List (Row Val)} {t : Row Val} (ht : t ∈ T) (hd : q.onDay t = true)
    (hnn : (∀ c ∈ q.keys, (t.get c).isSome) ∧ (t.get "parser.Time").isSome) :
    ∃ k ∈ q.exec rn T, q.window k = q.window t ∧
      descLe (k.get "parser.Time") (t.get "parser.Time") = true := by
  have hmem := mem_windowOf.2 ⟨ht, hd, rfl⟩
  obtain ⟨-, -, hkw⟩ := mem_windowOf.1 (rn.first_mem _ (List.ne_nil_of_mem hmem))
  have hle := rn.first_le _ t hmem
  rw [rank_le_of_order hord] at hle
  have hkeys := keys_eq_of_window_eq hkw
  refine ⟨_, first_mem_exec rn ht hd ?_, hkw, hle⟩
  simp only [matchesKeep, Bool.and_eq_true, List.all_eq_true, sqlEq_self]
  exact ⟨fun c hc => by rw [List.map_inj_left.1 hkeys c hc]; exact hnn.1 c hc,
    descLe_isSome hle hnn.2⟩

/-- A day row with a `NULL` key or a `NULL` `parser.Time` matches no `keep` row, so the `DELETE`
removes it. -/
theorem deletes_of_null (rn : RowNumbering q.rank) (T : List (Row Val)) {t : Row Val}
    (hd : q.onDay t = true)
    (hnull : t.get "parser.Time" = none ∨ ∃ c ∈ q.keys, t.get c = none) :
    q.deletes rn T t = true := by
  have hm : ∀ k, q.matchesKeep t k = false := fun k => by
    rcases hnull with h | ⟨c, hc, h⟩
    · simp [matchesKeep, h, sqlEq]
    · simp only [matchesKeep, Bool.and_eq_false_iff]
      exact .inl (List.all_eq_false.2 ⟨c, hc, by simp [h, sqlEq]⟩)
  simp [deletes, hd, hm]

end DedupSql

/-! ## The queryer's `DELETE` -/

namespace Queryer

/-- The dedup `DELETE` a queryer renders, as engine `E` reads it. -/
def dedupSql (q : Queryer) (E : Engine Val) : DedupSql Val :=
  E.dedupSql (htmlEscape q.date) (htmlEscape (q.job.date.format "-"))
    (q.partitionKeys.map fun kv => (htmlEscape kv.1, htmlEscape kv.2)) (htmlEscape q.orderKeys)

theorem deletes_dedupStmt_eq (q : Queryer) (E : Engine Val) :
    E.deletes q.dedupStmt = (q.dedupSql E).deletes (E.number _) := rfl

theorem dedupSql_day (q : Queryer) (E : Engine Val) :
    (q.dedupSql E).day = E.lit (q.job.date.format "-") := by
  simp [dedupSql, Engine.dedupSql, htmlEscape_format]

variable {q : Queryer} {client : Option Client} {job : Job} {P : String}

theorem dedupSql_date (hq : newQuerierWithClient client job P = .ok q) (E : Engine Val) :
    (q.dedupSql E).date = q.date := htmlEscape_date hq

theorem dedupSql_onDay (hq : newQuerierWithClient client job P = .ok q) (E : Engine Val)
    (r : Row Val) : (q.dedupSql E).onDay r = q.ofDay E.lit r := by
  simp only [DedupSql.onDay, dedupSql_date hq, dedupSql_day, ofDay]

theorem dedupSql_keys (hq : newQuerierWithClient client job P = .ok q) (E : Engine Val) :
    (q.dedupSql E).keys = q.partitionKeys.map (·.2) := by
  obtain ⟨-, -, -, -, h⟩ := newQuerierWithClient_ok hq
  rcases h with ⟨-, -, hk⟩ | ⟨-, -, hk⟩ <;>
    simp only [dedupSql, Engine.dedupSql, hk] <;> rfl

theorem dedupSql_order (hq : newQuerierWithClient client job P = .ok q) (E : Engine Val) :
    (q.dedupSql E).order = E.orderBy "" := by
  obtain ⟨-, -, -, h, -⟩ := newQuerierWithClient_ok hq
  simp only [dedupSql, Engine.dedupSql, h]
  rfl

/-- For annotation and ndt7, two rows of the day that survive the dedup `DELETE` with equal `id`
have equal `parser.Time`, the time of the row numbered 1 for their `id`. -/
theorem dedup_survivors_same_time (hq : newQuerierWithClient client job P = .ok q)
    (hdt : job.datatype ≠ "ndt5") (E : Engine Val) (rn : RowNumbering (q.dedupSql E).rank)
    (T : List (Row Val)) {t₁ t₂ : Row Val} (h₁ : t₁ ∈ (q.dedupSql E).exec rn T)
    (h₂ : t₂ ∈ (q.dedupSql E).exec rn T) (hd₁ : q.ofDay E.lit t₁ = true)
    (hd₂ : q.ofDay E.lit t₂ = true) (hk : t₁.get "id" = t₂.get "id") :
    t₁.get "parser.Time" = t₂.get "parser.Time" ∧
      t₁.get "parser.Time" = (rn.first ((q.dedupSql E).windowOf T t₁)).get "parser.Time" := by
  obtain ⟨-, -, rfl, -, ⟨-, hdate, hkeys⟩ | ⟨hndt, -⟩⟩ := newQuerierWithClient_ok hq
  · rw [← dedupSql_onDay hq] at hd₁ hd₂
    refine DedupSql.survivors_same_time ((dedupSql_date hq E).trans hdate) rn T h₁ h₂
      hd₁ hd₂ ?_
    rw [dedupSql_keys hq, hkeys]
    simpa using hk
  · exact absurd hndt hdt

theorem dedup_survivors_same_time_ndt7 :
    newQuerier true (jobOn "ndt7") "mlab-sandbox" = .ok ndt7Queryer ∧
    (jobOn "ndt7").datatype ≠ "ndt5" ∧
    dayRow 5 1 ∈ (ndt7Queryer.dedupSql Engine.zero).exec (.scan _) [dayRow 5 1, dayRow 5 2] ∧
    dayRow 5 2 ∈ (ndt7Queryer.dedupSql Engine.zero).exec (.scan _) [dayRow 5 1, dayRow 5 2] ∧
    ndt7Queryer.ofDay Engine.zero.lit (dayRow 5 1) = true ∧
    ndt7Queryer.ofDay Engine.zero.lit (dayRow 5 2) = true ∧
    (dayRow 5 1).get "id" = (dayRow 5 2).get "id" ∧
    ((dayRow 5 1).get "parser.Time" = (dayRow 5 2).get "parser.Time" ∧
      (dayRow 5 1).get "parser.Time" =
        ((RowNumbering.scan (ndt7Queryer.dedupSql Engine.zero).rank).first
          ((ndt7Queryer.dedupSql Engine.zero).windowOf [dayRow 5 1, dayRow 5 2]
            (dayRow 5 1))).get "parser.Time") := by
  have hq : newQuerier true (jobOn "ndt7") "mlab-sandbox" = .ok ndt7Queryer := rfl
  have h₁ : dayRow 5 1 ∈
      (ndt7Queryer.dedupSql Engine.zero).exec (.scan _) [dayRow 5 1, dayRow 5 2] := by decide
  have h₂ : dayRow 5 2 ∈
      (ndt7Queryer.dedupSql Engine.zero).exec (.scan _) [dayRow 5 1, dayRow 5 2] := by decide
  exact ⟨hq, by decide, h₁, h₂, rfl, rfl, rfl,
    dedup_survivors_same_time (newQuerier_ok hq) (by decide) Engine.zero (.scan _) _ h₁ h₂ rfl rfl
      rfl⟩

/-- A row of the job's day with a `NULL` key or a `NULL` `parser.Time` is deleted by the dedup
`DELETE`, whatever else the table holds. -/
theorem dedup_deletes_null (hq : newQuerierWithClient client job P = .ok q) (E : Engine Val)
    (rn : RowNumbering (q.dedupSql E).rank) (T : List (Row Val)) {t : Row Val}
    (hd : q.ofDay E.lit t = true)
    (hnull : t.get "parser.Time" = none ∨ ∃ c ∈ q.partitionKeys.map (·.2), t.get c = none) :
    (q.dedupSql E).deletes rn T t = true :=
  DedupSql.deletes_of_null rn T ((dedupSql_onDay hq E t).trans hd) (by rwa [dedupSql_keys hq])

theorem dedup_deletes_null_ndt7 :
    newQuerier true (jobOn "ndt7") "mlab-sandbox" = .ok ndt7Queryer ∧
    ndt7Queryer.ofDay Engine.zero.lit ⟨[("id", 1), ("date", 0)]⟩ = true ∧
    (Row.get ⟨[("id", 1), ("date", 0)]⟩ "parser.Time" = none ∨
      ∃ c ∈ ndt7Queryer.partitionKeys.map (·.2),
        Row.get ⟨[("id", 1), ("date", 0)]⟩ c = none) ∧
    (ndt7Queryer.dedupSql Engine.zero).deletes (.scan _) [⟨[("id", 1), ("date", 0)]⟩]
      ⟨[("id", 1), ("date", 0)]⟩ = true := by
  have hq : newQuerier true (jobOn "ndt7") "mlab-sandbox" = .ok ndt7Queryer := rfl
  exact ⟨hq, rfl, .inl rfl,
    dedup_deletes_null (newQuerier_ok hq) Engine.zero (.scan _) _ rfl (.inl rfl)⟩

/-- The row numbered 1 in the window of a row of the job's day survives the dedup `DELETE` when its
keys and its `parser.Time` are not `NULL`. -/
theorem dedup_keeps_first (hq : newQuerierWithClient client job P = .ok q) (E : Engine Val)
    (rn : RowNumbering (q.dedupSql E).rank) {T : List (Row Val)} {r : Row Val} (hr : r ∈ T)
    (hd : q.ofDay E.lit r = true)
    (hnn : ∀ c ∈ "parser.Time" :: q.partitionKeys.map (·.2),
      ((rn.first ((q.dedupSql E).windowOf T r)).get c).isSome) :
    rn.first ((q.dedupSql E).windowOf T r) ∈ (q.dedupSql E).exec rn T := by
  refine DedupSql.first_mem_exec rn hr ((dedupSql_onDay hq E r).trans hd) ?_
  simp only [DedupSql.matchesKeep, sqlEq_self, Bool.and_eq_true, List.all_eq_true,
    dedupSql_keys hq]
  exact ⟨fun c hc => hnn c (List.mem_cons_of_mem _ hc), hnn _ (List.mem_cons_self _ _)⟩

theorem dedup_keeps_first_ndt7 :
    newQuerier true (jobOn "ndt7") "mlab-sandbox" = .ok ndt7Queryer ∧
    dayRow 5 1 ∈ [dayRow 5 1, dayRow 7 2, dayRow 6 3] ∧
    ndt7Queryer.ofDay Engine.zero.lit (dayRow 5 1) = true ∧
    (ndt7Queryer.dedupSql Engine.zero).windowOf [dayRow 5 1, dayRow 7 2, dayRow 6 3] (dayRow 5 1) =
      [dayRow 5 1, dayRow 7 2, dayRow 6 3] ∧
    (RowNumbering.scan (ndt7Queryer.dedupSql Engine.zero).rank).first
        ((ndt7Queryer.dedupSql Engine.zero).windowOf [dayRow 5 1, dayRow 7 2, dayRow 6 3]
          (dayRow 5 1)) = dayRow 7 2 ∧
    (∀ c ∈ "parser.Time" :: ndt7Queryer.partitionKeys.map (·.2),
      (((RowNumbering.scan (ndt7Queryer.dedupSql Engine.zero).rank).first
        ((ndt7Queryer.dedupSql Engine.zero).windowOf [dayRow 5 1, dayRow 7 2, dayRow 6 3]
          (dayRow 5 1))).get c).isSome) ∧
    (RowNumbering.scan (ndt7Queryer.dedupSql Engine.zero).rank).first
        ((ndt7Queryer.dedupSql Engine.zero).windowOf [dayRow 5 1, dayRow 7 2, dayRow 6 3]
          (dayRow 5 1)) ∈
      (ndt7Queryer.dedupSql Engine.zero).exec (.scan _) [dayRow 5 1, dayRow 7 2, dayRow 6 3] := by
  have hq : newQuerier true (jobOn "ndt7") "mlab-sandbox" = .ok ndt7Queryer := rfl
  have hnn : ∀ c ∈ "parser.Time" :: ndt7Queryer.partitionKeys.map (·.2),
      (((RowNumbering.scan (ndt7Queryer.dedupSql Engine.zero).rank).first
        ((ndt7Queryer.dedupSql Engine.zero).windowOf [dayRow 5 1, dayRow 7 2, dayRow 6 3]
          (dayRow 5 1))).get c).isSome := by
    decide
  exact ⟨hq, by decide, rfl, by decide, by decide, hnn,
    dedup_keeps_first (newQuerier_ok hq) Engine.zero (.scan _) (by decide) rfl hnn⟩

/-- For annotation and ndt7, when no row of the job's day has a `NULL` `id` or `parser.Time`, the
dedup `DELETE` leaves the rows of other days and the latest rows of each `id` on the day, whichever
tied row the engine numbers 1. -/
theorem dedup_keeps_latest (hq : newQuerierWithClient client job P = .ok q)
    (hdt : job.datatype ≠ "ndt5") (E : Engine Val) (rn : RowNumbering (q.dedupSql E).rank)
    (T : List (Row Val))
    (hnn : ∀ t ∈ T, q.ofDay E.lit t = true →
      (t.get "id").isSome ∧ (t.get "parser.Time").isSome) :
    (q.dedupSql E).exec rn T = (q.dedupSql E).keepLatest T := by
  obtain ⟨-, -, rfl, -, ⟨-, hdate, hkeys⟩ | ⟨hndt, -⟩⟩ := newQuerierWithClient_ok hq
  · refine DedupSql.exec_eq_keepLatest ((dedupSql_date hq E).trans hdate)
      (fun r s => dedupSql_order hq E ▸ E.orderBy_empty r s) rn T fun t ht hd => ?_
    rw [dedupSql_keys hq, hkeys]
    simpa using hnn t ht ((dedupSql_onDay hq E t).symm.trans hd)
  · exact absurd hndt hdt

theorem dedup_keeps_latest_ndt7 :
    newQuerier true (jobOn "ndt7") "mlab-sandbox" = .ok ndt7Queryer ∧
    (jobOn "ndt7").datatype ≠ "ndt5" ∧
    (∀ t ∈ [dayRow 5 1, dayRow 7 2], ndt7Queryer.ofDay Engine.zero.lit t = true →
      (t.get "id").isSome ∧ (t.get "parser.Time").isSome) ∧
    (ndt7Queryer.dedupSql Engine.zero).exec (.scan _) [dayRow 5 1, dayRow 7 2] =
      (ndt7Queryer.dedupSql Engine.zero).keepLatest [dayRow 5 1, dayRow 7 2] := by
  have hq : newQuerier true (jobOn "ndt7") "mlab-sandbox" = .ok ndt7Queryer := rfl
  have hnn : ∀ t ∈ [dayRow 5 1, dayRow 7 2], ndt7Queryer.ofDay Engine.zero.lit t = true →
      (t.get "id").isSome ∧ (t.get "parser.Time").isSome := by decide
  exact ⟨hq, by decide, hnn,
    dedup_keeps_latest (newQuerier_ok hq) (by decide) Engine.zero (.scan _) _ hnn⟩

/-- For every datatype, the dedup `DELETE` never removes every copy of a row of the job's day whose
keys and `parser.Time` are not `NULL`: a row with the same keys and `date`, and a `parser.Time` at
least as late, survives. -/
theorem dedup_keeps_some_duplicate (hq : newQuerierWithClient client job P = .ok q)
    (E : Engine Val) (rn : RowNumbering (q.dedupSql E).rank) {T : List (Row Val)} {t : Row Val}
    (ht : t ∈ T) (hd : q.ofDay E.lit t = true)
    (hnn : (∀ c ∈ q.partitionKeys.map (·.2), (t.get c).isSome) ∧ (t.get "parser.Time").isSome) :
    ∃ k ∈ (q.dedupSql E).exec rn T,
      (∀ c ∈ q.partitionKeys.map (·.2), k.get c = t.get c) ∧ k.get "date" = t.get "date" ∧
        descLe (k.get "parser.Time") (t.get "parser.Time") = true := by
  rw [← dedupSql_keys hq E] at hnn ⊢
  obtain ⟨k, hk, hw, hle⟩ := DedupSql.exists_survivor
    (fun r s => dedupSql_order hq E ▸ E.orderBy_empty r s) rn ht ((dedupSql_onDay hq E t).trans hd)
    hnn
  obtain ⟨hkeys, hdate⟩ := List.append_inj hw (by simp)
  exact ⟨k, hk, List.map_inj_left.1 hkeys, List.singleton_inj.1 hdate, hle⟩

theorem dedup_keeps_some_duplicate_ndt7 :
    newQuerier true (jobOn "ndt7") "mlab-sandbox" = .ok ndt7Queryer ∧
    dayRow 5 1 ∈ [dayRow 5 1, dayRow 7 2] ∧
    ndt7Queryer.ofDay Engine.zero.lit (dayRow 5 1) = true ∧
    ((∀ c ∈ ndt7Queryer.partitionKeys.map (·.2), ((dayRow 5 1).get c).isSome) ∧
      ((dayRow 5 1).get "parser.Time").isSome) ∧
    ∃ k ∈ (ndt7Queryer.dedupSql Engine.zero).exec (.scan _) [dayRow 5 1, dayRow 7 2],
      (∀ c ∈ ndt7Queryer.partitionKeys.map (·.2), k.get c = (dayRow 5 1).get c) ∧
      k.get "date" = (dayRow 5 1).get "date" ∧
      descLe (k.get "parser.Time") ((dayRow 5 1).get "parser.Time") = true := by
  have hq : newQuerier true (jobOn "ndt7") "mlab-sandbox" = .ok ndt7Queryer := rfl
  have hnn : (∀ c ∈ ndt7Queryer.partitionKeys.map (·.2), ((dayRow 5 1).get c).isSome) ∧
      ((dayRow 5 1).get "parser.Time").isSome := by decide
  exact ⟨hq, by decide, rfl, hnn,
    dedup_keeps_some_duplicate (newQuerier_ok hq) Engine.zero (.scan _) (by decide) rfl hnn⟩

/-- Which rows the dedup `DELETE` removes depends only on the multiset of the table's rows of the
job's day: rows of other days, the order of the rows and the resolution of `ROW_NUMBER()` ties
change nothing. -/
theorem dedup_deletes_day_local (hq : newQuerierWithClient client job P = .ok q) (E : Engine Val)
    (rn₁ rn₂ : RowNumbering (q.dedupSql E).rank) {T U : List (Row Val)}
    (h : (T.filter (q.ofDay E.lit)).Perm (U.filter (q.ofDay E.lit))) :
    (q.dedupSql E).deletes rn₁ T = (q.dedupSql E).deletes rn₂ U := by
  rw [← funext (dedupSql_onDay hq E)] at h
  exact DedupSql.deletes_eq_of_perm_onDay rn₁ rn₂ h

/-- A row of day `1`, the day after the day `Engine.zero` reads every literal as. -/
def nextDayRow : Row Nat := ⟨[("id", 1), ("date", 1), ("parser.Time", 9)]⟩

theorem dedup_deletes_day_local_ndt7 :
    newQuerier true (jobOn "ndt7") "mlab-sandbox" = .ok ndt7Queryer ∧
    ([dayRow 5 1, nextDayRow, dayRow 7 2].filter (ndt7Queryer.ofDay Engine.zero.lit)).Perm
      ([dayRow 7 2, dayRow 5 1].filter (ndt7Queryer.ofDay Engine.zero.lit)) ∧
    (ndt7Queryer.dedupSql Engine.zero).deletes (.scan _) [dayRow 5 1, nextDayRow, dayRow 7 2] =
      (ndt7Queryer.dedupSql Engine.zero).deletes (.scan _) [dayRow 7 2, dayRow 5 1] := by
  have hq : newQuerier true (jobOn "ndt7") "mlab-sandbox" = .ok ndt7Queryer := rfl
  have h : ([dayRow 5 1, nextDayRow, dayRow 7 2].filter (ndt7Queryer.ofDay Engine.zero.lit)).Perm
      ([dayRow 7 2, dayRow 5 1].filter (ndt7Queryer.ofDay Engine.zero.lit)) := by decide
  exact ⟨hq, h, dedup_deletes_day_local (newQuerier_ok hq) Engine.zero (.scan _) (.scan _) h⟩

end Queryer

/-! ## Rows that show the two defects -/

/-- The engine's reading of the day literal of `job`. -/
def dayOf (E : Engine Nat) (job : Job) : Nat := E.lit (job.date.format "-")

/-- A row of the day with an `id` and no `parser.Time`. -/
def nullTimeRow (day : Nat) : Row Nat := ⟨[("id", 1), ("date", day)]⟩

/-- For annotation, a day's only row, with `parser.Time` `NULL`, is deleted, whatever the engine
and the tie resolution. -/
theorem annotation_dedup_deletes_lone_null_time_row (E : Engine Nat) :
    ∃ q, newQuerier true (jobOn "annotation") "mlab-sandbox" = .ok q ∧
      ∀ rn : RowNumbering (q.dedupSql E).rank,
        (q.dedupSql E).exec rn [nullTimeRow (dayOf E (jobOn "annotation"))] = [] := by
  obtain ⟨q, hq⟩ : ∃ q, newQuerier true (jobOn "annotation") "mlab-sandbox" = .ok q := ⟨_, rfl⟩
  refine ⟨q, hq, fun rn => ?_⟩
  have hday : (q.dedupSql E).onDay (nullTimeRow (dayOf E (jobOn "annotation"))) = true := by
    rw [Queryer.dedupSql_onDay (newQuerier_ok hq)]
    cases hq
    simp [Queryer.ofDay, nullTimeRow, dayOf, Row.get, List.lookup_cons, sqlEq]
  have hd := DedupSql.deletes_of_null rn [nullTimeRow (dayOf E (jobOn "annotation"))] hday
    (.inl (by simp [nullTimeRow, Row.get, List.lookup_cons]))
  simp [DedupSql.exec, hd]

/-- Two ndt5 rows of the day with one `test_id`, different `date`s and different
`parser.Time`s. -/
def ndt5Rows (day : Nat) : List (Row Nat) :=
  [⟨[("test_id", 7), ("log_time", day), ("date", 1), ("parser.Time", 10)]⟩,
    ⟨[("test_id", 7), ("log_time", day), ("date", 2), ("parser.Time", 20)]⟩]

/-- For ndt5, two rows of the day with one `test_id` but two `date`s both survive the dedup
`DELETE`, with different `parser.Time`s, whatever the engine and the tie resolution. -/
theorem ndt5_dedup_keeps_both_dates (E : Engine Nat) :
    ∃ q, newQuerier true (jobOn "ndt5") "mlab-sandbox" = .ok q ∧
      ∀ rn : RowNumbering (q.dedupSql E).rank,
        (q.dedupSql E).exec rn (ndt5Rows (dayOf E (jobOn "ndt5"))) =
          ndt5Rows (dayOf E (jobOn "ndt5")) := by
  obtain ⟨q, hq⟩ : ∃ q, newQuerier true (jobOn "ndt5") "mlab-sandbox" = .ok q := ⟨_, rfl⟩
  refine ⟨q, hq, fun rn => DedupSql.exec_eq_self fun t ht => ?_⟩
  have hd := Queryer.dedupSql_date (newQuerier_ok hq) E
  have hk := Queryer.dedupSql_keys (newQuerier_ok hq) E
  cases hq
  simp only [ndt5Rows, List.mem_cons, List.mem_singleton, List.not_mem_nil, or_false] at ht
  rcases ht with rfl | rfl <;> refine DedupSql.mem_exec_of_alone rn (by simp [ndt5Rows]) ?_ ?_ ?_
  all_goals simp [DedupSql.onDay, DedupSql.windowOf, DedupSql.window, DedupSql.matchesKeep,
    Queryer.dedupSql_day, ndt5Rows, dayOf, Row.get, List.lookup_cons, sqlEq, hd, hk]

end EtlGardener
