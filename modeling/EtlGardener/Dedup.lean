import Mathlib.Data.Nat.Defs
import EtlGardener.Sql

/-!
# The dedup `DELETE`

`dedupTemplate` renders one statement:

    DELETE FROM tmp AS target
    WHERE <Date> = "<day>"
    AND NOT EXISTS (
      WITH keep AS (the rows ROW_NUMBER() numbers 1, OVER (
          PARTITION BY <keys>, date ORDER BY <OrderKeys> parser.Time DESC)
        in SELECT * FROM tmp WHERE <Date> = "<day>")
      SELECT * FROM keep
      WHERE target.<key> = keep.<key> AND ... AND target.parser.Time = keep.Time)

`DedupSql.exec` is the table it leaves, for one resolution of `ROW_NUMBER()` ties
(`RowNumbering`).  A least row still present in a smaller table matches the same targets as
whatever row a numbering keeps there (`exists_keep_matches`); from that lemma the `DELETE` does not
depend on row order or tie resolution, and a second run removes nothing.
-/

namespace EtlGardener

variable {Val : Type} [LinearOrder Val]

/-- The dedup `DELETE` of `dedupTemplate`, as the warehouse reads it. -/
structure DedupSql (Val : Type) where
  /-- `{{.Date}}`: the column the `WHERE` compares with the day. -/
  date : String
  /-- The value the quoted day denotes. -/
  day : Val
  /-- The values of `PartitionKeys`: the fully qualified key columns. -/
  keys : List String
  /-- The order `{{.OrderKeys}}` puts rows in. -/
  order : RowOrder Val

namespace DedupSql

variable (q : DedupSql Val)

/-- `<Date> = "<day>"` is `TRUE` of `r`. -/
def onDay (r : Row Val) : Bool := sqlEq (r.get q.date) (some q.day)

/-- What `PARTITION BY <keys>, date` groups `r` by: `NULL`s group together. -/
def window (r : Row Val) : List (Option Val) := q.keys.map r.get ++ [r.get "date"]

/-- `ORDER BY <OrderKeys> parser.Time DESC`. -/
def rank : RowOrder Val := q.order.thenDesc "parser.Time"

/-- The rows of `SELECT * FROM tmp WHERE <Date> = "<day>"` in the window of `r`. -/
def windowOf (T : List (Row Val)) (r : Row Val) : List (Row Val) :=
  T.filter fun x => q.onDay x && decide (q.window x = q.window r)

/-- `keep`: the row `ROW_NUMBER()` numbers 1 in the window of each day row. -/
def keep (rn : RowNumbering q.rank) (T : List (Row Val)) : List (Row Val) :=
  (T.filter q.onDay).map fun r => rn.first (q.windowOf T r)

/-- `target.<v> = keep.<k> AND ... AND target.parser.Time = keep.Time` is `TRUE`.  The `keep`
table exposes key column `v` under its single field name `k`, so `keep.<k>` is the kept `v`. -/
def matchesKeep (t k : Row Val) : Bool :=
  q.keys.all (fun c => sqlEq (t.get c) (k.get c)) &&
    sqlEq (t.get "parser.Time") (k.get "parser.Time")

/-- The `WHERE` of the `DELETE`: a day row that matches no `keep` row. -/
def deletes (rn : RowNumbering q.rank) (T : List (Row Val)) (t : Row Val) : Bool :=
  q.onDay t && !(q.keep rn T).any (q.matchesKeep t)

/-- The table the `DELETE` leaves. -/
def exec (rn : RowNumbering q.rank) (T : List (Row Val)) : List (Row Val) :=
  T.filter fun t => !q.deletes rn T t

/-- What the dedup is meant to leave: every row of another day and, of each key group of the
day, the rows with the latest `parser.Time`. -/
def keepLatest (T : List (Row Val)) : List (Row Val) :=
  T.filter fun t => !q.onDay t || T.all fun x =>
    !(q.onDay x && decide (q.keys.map x.get = q.keys.map t.get)) ||
      descLe (t.get "parser.Time") (x.get "parser.Time")

/-! ## Windows and `keep` -/

variable {q}

theorem mem_windowOf {T : List (Row Val)} {r x : Row Val} :
    x ∈ q.windowOf T r ↔ x ∈ T ∧ q.onDay x = true ∧ q.window x = q.window r := by
  simp [windowOf]

theorem mem_exec {rn : RowNumbering q.rank} {T : List (Row Val)} {t : Row Val} :
    t ∈ q.exec rn T ↔ t ∈ T ∧ q.deletes rn T t = false := by
  simp [exec]

/-- Every `keep` row is a day row of the table, least in its window. -/
theorem keep_least {rn : RowNumbering q.rank} {T : List (Row Val)} {k : Row Val}
    (hk : k ∈ q.keep rn T) :
    k ∈ T ∧ q.onDay k = true ∧
      ∀ x ∈ T, q.onDay x = true → q.window x = q.window k → q.rank.le k x = true := by
  obtain ⟨r, hr, rfl⟩ := List.mem_map.1 hk
  rw [List.mem_filter] at hr
  have hne : q.windowOf T r ≠ [] := List.ne_nil_of_mem (mem_windowOf.2 ⟨hr.1, hr.2, rfl⟩)
  obtain ⟨hT, hday, hw⟩ := mem_windowOf.1 (rn.first_mem _ hne)
  exact ⟨hT, hday, fun x hx hxd hxw =>
    rn.first_le _ _ (mem_windowOf.2 ⟨hx, hxd, hxw.trans hw⟩)⟩

/-- Two rows of one window that tie under the rank match the same targets. -/
theorem matchesKeep_congr {k k' : Row Val} (hw : q.window k = q.window k')
    (h₁ : q.rank.le k k' = true) (h₂ : q.rank.le k' k = true) (t : Row Val) :
    q.matchesKeep t k = q.matchesKeep t k' := by
  have hkeys : ∀ c ∈ q.keys, k.get c = k'.get c :=
    List.map_inj_left.1 (List.append_inj_left' hw (by simp))
  unfold matchesKeep
  rw [RowOrder.thenDesc_tie h₁ h₂]
  congr 1
  exact Bool.eq_iff_iff.2 (by
    simp only [List.all_eq_true]; exact forall₂_congr fun c hc => by rw [hkeys c hc])

/-- A row that some target matches matches itself: its keys and `parser.Time` are not `NULL`. -/
theorem matchesKeep_self {t k : Row Val} (h : q.matchesKeep t k = true) :
    q.matchesKeep k k = true := by
  simp only [matchesKeep, Bool.and_eq_true, List.all_eq_true] at h ⊢
  refine ⟨fun c hc => ?_, ?_⟩
  · rw [sqlEq_self]; exact (sqlEq_isSome (h.1 c hc)).2
  · rw [sqlEq_self]; exact (sqlEq_isSome h.2).2

/-- A least row of its window in `T`, still present in a table `T'` of rows of `T`, matches the
same targets as the row any numbering keeps for that window in `T'`. -/
theorem exists_keep_matches (rn : RowNumbering q.rank) {T T' : List (Row Val)}
    (hsub : ∀ x ∈ T', x ∈ T) {k : Row Val} (hk : k ∈ T') (hday : q.onDay k = true)
    (hleast : ∀ x ∈ T, q.onDay x = true → q.window x = q.window k → q.rank.le k x = true) :
    ∃ k' ∈ q.keep rn T', ∀ t, q.matchesKeep t k' = q.matchesKeep t k := by
  have hne : q.windowOf T' k ≠ [] := List.ne_nil_of_mem (mem_windowOf.2 ⟨hk, hday, rfl⟩)
  obtain ⟨hT', hday', hw⟩ := mem_windowOf.1 (rn.first_mem _ hne)
  refine ⟨_, List.mem_map.2 ⟨k, List.mem_filter.2 ⟨hk, hday⟩, rfl⟩, fun t => ?_⟩
  exact matchesKeep_congr hw (rn.first_le _ _ (mem_windowOf.2 ⟨hk, hday, rfl⟩))
    (hleast _ (hsub _ hT') hday' hw) t

/-- Matching some row kept from `T` implies matching some row kept from any table `T'` of rows of
`T` that still holds the matched row. -/
theorem any_keep_of_mem (rn rn' : RowNumbering q.rank) {T T' : List (Row Val)}
    (hsub : ∀ x ∈ T', x ∈ T) {t k : Row Val} (hk : k ∈ q.keep rn T) (hk' : k ∈ T')
    (ht : q.matchesKeep t k = true) : (q.keep rn' T').any (q.matchesKeep t) = true := by
  obtain ⟨-, hday, hleast⟩ := keep_least hk
  obtain ⟨k', hk'', hm⟩ := exists_keep_matches rn' hsub hk' hday hleast
  exact List.any_eq_true.2 ⟨k', hk'', (hm t).trans ht⟩

end DedupSql

/-- A row of day `0` with `id` 1, a `parser.Time` and a sequence number. -/
def dayRow (time seq : Nat) : Row Nat :=
  ⟨[("id", 1), ("date", 0), ("parser.Time", time), ("seq", seq)]⟩

/-- The dedup `DELETE` by `id` of day `0`, with no order before `parser.Time`. -/
def idDedup : DedupSql Nat := ⟨"date", 0, ["id"], .none⟩

namespace DedupSql

/-! ## The laws of the `DELETE` -/

variable {q : DedupSql Val}

/-- The rows the dedup `DELETE` removes are a function of the table's multiset of rows: they are
the same for every order of the rows and every resolution of `ROW_NUMBER()` ties, and the tables
left are permutations of each other. -/
theorem dedup_deletes_independent (rn₁ rn₂ : RowNumbering q.rank) {T₁ T₂ : List (Row Val)}
    (h : T₁.Perm T₂) :
    q.deletes rn₁ T₁ = q.deletes rn₂ T₂ ∧
      (q.exec rn₁ T₁).Perm (q.exec rn₂ T₂) := by
  have hany : ∀ t,
      (q.keep rn₁ T₁).any (q.matchesKeep t) = (q.keep rn₂ T₂).any (q.matchesKeep t) :=
    fun t => Bool.eq_iff_iff.2 ⟨fun h₁ => by
      obtain ⟨k, hk, hm⟩ := List.any_eq_true.1 h₁
      exact any_keep_of_mem rn₁ rn₂ (fun x => h.mem_iff.2) hk
        (h.mem_iff.1 (keep_least hk).1) hm,
    fun h₂ => by
      obtain ⟨k, hk, hm⟩ := List.any_eq_true.1 h₂
      exact any_keep_of_mem rn₂ rn₁ (fun x => h.mem_iff.1) hk
        (h.mem_iff.2 (keep_least hk).1) hm⟩
  have hdel : q.deletes rn₁ T₁ = q.deletes rn₂ T₂ :=
    funext fun t => by simp only [deletes, hany]
  refine ⟨hdel, ?_⟩
  unfold exec
  rw [← hdel]
  exact h.filter _

theorem dedup_deletes_independent_swap :
    [dayRow 5 0, dayRow 7 0].Perm [dayRow 7 0, dayRow 5 0] ∧
    (idDedup.deletes (.scan _) [dayRow 5 0, dayRow 7 0] =
        idDedup.deletes (.scan _) [dayRow 7 0, dayRow 5 0] ∧
      (idDedup.exec (.scan _) [dayRow 5 0, dayRow 7 0]).Perm
        (idDedup.exec (.scan _) [dayRow 7 0, dayRow 5 0])) :=
  ⟨.swap _ _ _, dedup_deletes_independent _ _ (.swap _ _ _)⟩

/-- No row the `DELETE` leaves is selected by a second run. -/
theorem deletes_exec_eq_false (rn₁ rn₂ : RowNumbering q.rank) {T : List (Row Val)}
    {t : Row Val} (ht : t ∈ q.exec rn₁ T) : q.deletes rn₂ (q.exec rn₁ T) t = false := by
  obtain ⟨-, hkept⟩ := mem_exec.1 ht
  simp only [deletes, Bool.and_eq_false_iff, Bool.not_eq_false', Bool.not_eq_true'] at hkept ⊢
  refine hkept.imp_right fun hany => ?_
  obtain ⟨k, hk, hm⟩ := List.any_eq_true.1 hany
  have hkT := (keep_least hk).1
  have hk' : k ∈ q.exec rn₁ T := mem_exec.2 ⟨hkT, by
    simp [deletes, List.any_eq_true.2 ⟨k, hk, matchesKeep_self hm⟩]⟩
  exact any_keep_of_mem rn₁ rn₂ (fun x hx => (mem_exec.1 hx).1) hk hk' hm

/-- Running the dedup `DELETE` a second time removes nothing, whatever ties either run resolves. -/
theorem dedup_idempotent (rn₁ rn₂ : RowNumbering q.rank) (T : List (Row Val)) :
    q.exec rn₂ (q.exec rn₁ T) = q.exec rn₁ T :=
  List.filter_eq_self.2 fun _ ht => by simp [deletes_exec_eq_false rn₁ rn₂ ht]

/-! ## Rows of other days -/

theorem windowOf_filter_onDay (T : List (Row Val)) (r : Row Val) :
    q.windowOf (T.filter q.onDay) r = q.windowOf T r := by
  simp only [windowOf, List.filter_filter]
  exact List.filter_congr fun x _ => by cases q.onDay x <;> simp

theorem keep_filter_onDay (rn : RowNumbering q.rank) (T : List (Row Val)) :
    q.keep rn (T.filter q.onDay) = q.keep rn T := by
  simp only [keep, List.filter_filter, Bool.and_self, windowOf_filter_onDay]

/-- The `DELETE` reads only the rows of the day: `keep` is built from them alone. -/
theorem deletes_filter_onDay (rn : RowNumbering q.rank) (T : List (Row Val)) :
    q.deletes rn (T.filter q.onDay) = q.deletes rn T :=
  funext fun t => by simp only [deletes, keep_filter_onDay]

/-- Tables with the same rows, in any order, keep rows that match the same targets, whatever ties
either numbering resolves. -/
theorem any_keep_eq_of_perm (rn₁ rn₂ : RowNumbering q.rank) {T₁ T₂ : List (Row Val)}
    (h : T₁.Perm T₂) (t : Row Val) :
    (q.keep rn₁ T₁).any (q.matchesKeep t) = (q.keep rn₂ T₂).any (q.matchesKeep t) := by
  refine Bool.eq_iff_iff.2 ⟨fun h₁ => ?_, fun h₂ => ?_⟩
  · obtain ⟨k, hk, hm⟩ := List.any_eq_true.1 h₁
    exact any_keep_of_mem rn₁ rn₂ (fun x => h.mem_iff.2) hk (h.mem_iff.1 (keep_least hk).1) hm
  · obtain ⟨k, hk, hm⟩ := List.any_eq_true.1 h₂
    exact any_keep_of_mem rn₂ rn₁ (fun x => h.mem_iff.1) hk (h.mem_iff.2 (keep_least hk).1) hm

/-- What the `DELETE` removes depends only on the multiset of the table's rows of the day. -/
theorem deletes_eq_of_perm_onDay (rn₁ rn₂ : RowNumbering q.rank) {T U : List (Row Val)}
    (h : (T.filter q.onDay).Perm (U.filter q.onDay)) : q.deletes rn₁ T = q.deletes rn₂ U := by
  rw [← deletes_filter_onDay rn₁ T, ← deletes_filter_onDay rn₂ U]
  exact funext fun t => by simp only [deletes, any_keep_eq_of_perm rn₁ rn₂ h t]

end DedupSql

end EtlGardener
