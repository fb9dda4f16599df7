import EtlGardener.Promotion

/-!
# Jobs in any order

The gardener calls the methods that send a job (`Run`, `Dedup`, `CopyToRaw`, `DeleteTmp`) on the
queryers of many jobs, in an order this repository does not fix.  `Op` is one such call, with
whether its `bigquery.NewClient` made a client, and `Warehouse.perform` the warehouse it leaves:
the state its job leaves when the job is built and succeeds, and the state it started from
otherwise.  `perform_cases` says everything one call can do.  Over every sequence of calls, a
table that is no call's `raw_` table only loses rows (`entries_performAll`); for jobs whose `tmp_`
tables have names BigQuery accepts, a partition no call writes keeps its rows
(`partition_performAll`), and jobs on different tables are serializable (`performAll_split`).
The calls mix the methods of the two revisions of `ops.go`: `Run` is called on queryers of the
other revision's `NewQuerierWithClient`, which are those of its own but for ndt5
(`newQuerierWithClientForRun_ok`), so a statement over every call covers each revision's runs.
-/

namespace EtlGardener

variable {Val : Type}

/-- A call of a method of `Queryer` or `OpsHandler` that sends a job; a `CopyToRaw` call records
whether its `bigquery.NewClient` made a client. -/
inductive Op
  | run (key : String) (dryRun : Bool)
  | dedup (dryRun : Bool)
  | copyToRaw (newClient dryRun : Bool)
  | deleteTmp
deriving DecidableEq

namespace Queryer

variable {q : Queryer}

/-- The job the call builds. -/
def request (q : Queryer) : Op → Except OpError Request
  | .run key dryRun => q.run key dryRun
  | .dedup dryRun => q.dedup dryRun
  | .copyToRaw newClient dryRun => q.copyToRaw newClient dryRun
  | .deleteTmp => q.deleteTmp

/-- The call may change partition `p` of table `t`: `t` is the job's `tmp_` table, or the call is
a `CopyToRaw` that made its client, `t` the job's `raw_` table and `p` the job's day. -/
def Writes (q : Queryer) (op : Op) (t : TableRef) (p : Date) : Prop :=
  t = q.tmpRef ∨ op = .copyToRaw true false ∧ t = q.rawRef ∧ p = q.job.date

instance (q : Queryer) (op : Op) (t : TableRef) (p : Date) : Decidable (q.Writes op t p) :=
  inferInstanceAs (Decidable (_ ∨ _))

theorem run_eq_ok {key : String} {dryRun : Bool} {req : Request}
    (h : q.run key dryRun = .ok req) :
    ∃ s, q.templateFor key = some s ∧ req = .query s dryRun := by
  unfold run at h
  split at h <;> cases h
  exact ⟨_, ‹_›, rfl⟩

theorem target_of_templateFor {key : String} {s : Stmt} (h : q.templateFor key = some s) :
    s.target = q.tmpTable := by
  unfold templateFor at h
  split at h <;> cases h <;> rfl

/-- The tables a call on `q` can read or write: the job's `tmp_` and `raw_` tables. -/
def Touches (q : Queryer) (u : TableRef) : Prop := u = q.tmpRef ∨ u = q.rawRef

theorem tmpRef_ne_rawRef_of (q q' : Queryer) : q.tmpRef ≠ q'.rawRef := fun h => by
  simpa [tmpRef, rawRef] using congrArg (·.dataset.toList.head?) h

theorem tmpRef_eq_of_rawRef_eq {q q' : Queryer} (h : q.rawRef = q'.rawRef) :
    q.tmpRef = q'.tmpRef := by
  simp only [rawRef, tmpRef, TableRef.mk.injEq, String.ext_iff] at h ⊢
  exact ⟨h.1, by simpa using h.2.1, h.2.2⟩

/-- Queryers with different `tmp_` tables touch no table in common. -/
theorem touches_disjoint {q q' : Queryer} (h : q.tmpRef ≠ q'.tmpRef) (u : TableRef) :
    q.Touches u → ¬q'.Touches u := by
  rintro (rfl | rfl) (h' | h')
  · exact h h'
  · exact tmpRef_ne_rawRef_of q q' h'
  · exact tmpRef_ne_rawRef_of q' q h'.symm
  · exact h (tmpRef_eq_of_rawRef_eq h')

end Queryer

/-! ## Runs of steps that commute -/

section Fold

variable {α σ : Type} (f : σ → α → σ)

/-- A step moves past a run of steps it commutes with. -/
theorem foldl_step_comm {l : List α} {x : α} (h : ∀ y ∈ l, ∀ s, f (f s x) y = f (f s y) x)
    (s : σ) : l.foldl f (f s x) = f (l.foldl f s) x := by
  induction l generalizing s with
  | nil => rfl
  | cons y l ih =>
    simp only [List.forall_mem_cons] at h
    rw [List.foldl_cons, List.foldl_cons, h.1, ih h.2]

/-- Split the steps in two groups by `a`: when every step of the first group commutes with every
step of the second, the run is the first group's run, then the second's, each in its own order. -/
theorem foldl_split (a : α → Bool) {l : List α}
    (h : ∀ x ∈ l, ∀ y ∈ l, a x = true → a y = false → ∀ s, f (f s y) x = f (f s x) y) (s : σ) :
    l.foldl f s = (l.filter fun x => !a x).foldl f ((l.filter a).foldl f s) := by
  induction l generalizing s with
  | nil => rfl
  | cons x l ih =>
    have h' := fun x hx y hy => h x (.tail _ hx) y (.tail _ hy)
    cases ha : a x
    · have hx : ∀ y ∈ l.filter a, ∀ s, f (f s x) y = f (f s y) x := fun y hy =>
        h y (.tail _ (List.mem_filter.1 hy).1) x (List.mem_cons_self _ _)
          (List.mem_filter.1 hy).2 ha
      simp only [List.filter_cons, ha, Bool.not_false, if_true, Bool.false_eq_true, if_false]
      rw [List.foldl_cons, ih h', List.foldl_cons, foldl_step_comm f hx]
    · simp only [List.filter_cons, ha, Bool.not_true, if_true, Bool.false_eq_true, if_false]
      rw [List.foldl_cons, ih h', List.foldl_cons]

end Fold

namespace Warehouse

/-! ## Transformers of some of the tables -/

/-- `f` keeps the datasets, changes only the tables `F` holds, and what it leaves there depends
only on the datasets and on what they held. -/
structure Local (f : Warehouse Val → Warehouse Val) (F : TableRef → Prop) : Prop where
  datasets : ∀ w, (f w).datasets = w.datasets
  frame : ∀ w u, ¬F u → (f w).tables u = w.tables u
  congr : ∀ w₁ w₂, w₁.datasets = w₂.datasets → (∀ u, F u → w₁.tables u = w₂.tables u) →
    ∀ u, F u → (f w₁).tables u = (f w₂).tables u

/-- Transformers of disjoint tables commute. -/
theorem Local.comm {f g : Warehouse Val → Warehouse Val} {F G : TableRef → Prop}
    (hf : Local f F) (hg : Local g G) (hFG : ∀ u, F u → ¬G u) (w : Warehouse Val) :
    f (g w) = g (f w) := by
  refine ext (by rw [hf.datasets, hg.datasets, hg.datasets, hf.datasets]) (funext fun u => ?_)
  by_cases hu : F u
  · rw [hg.frame (f w) u (hFG u hu)]
    exact hf.congr _ _ (hg.datasets w) (fun v hv => hg.frame w v (hFG v hv)) u hu
  · rw [hf.frame (g w) u hu]
    by_cases hu' : G u
    · exact hg.congr _ _ (hf.datasets w).symm
        (fun v hv => (hf.frame w v fun h => hFG v h hv).symm) u hu'
    · rw [hg.frame w u hu', hg.frame (f w) u hu', hf.frame w u hu]

theorem update_apply_congr {f g : TableRef → Option (Table Val)} {a u : TableRef}
    {b : Option (Table Val)} (h : f u = g u) :
    Function.update f a b u = Function.update g a b u := by
  simp only [Function.update_apply, h]

section Perform

variable [LinearOrder Val] (E : Engine Val)

/-- The warehouse a call on a queryer leaves. -/
def perform (w : Warehouse Val) : Queryer × Op → Warehouse Val
  | (q, op) => match q.request op with
    | .ok req => (w.apply E req).getD w
    | .error _ => w

/-- The warehouse a sequence of calls leaves, each on the warehouse the call before left. -/
def performAll : Warehouse Val → List (Queryer × Op) → Warehouse Val
  | w, [] => w
  | w, c :: calls => performAll (w.perform E c) calls

variable {E} {q : Queryer} {w : Warehouse Val}

theorem perform_of_request (op : Op) {req : Request} (h : q.request op = .ok req) :
    w.perform E (q, op) = (w.apply E req).getD w := by
  simp only [perform, h]

theorem datasets_perform (w : Warehouse Val) (c : Queryer × Op) :
    (w.perform E c).datasets = w.datasets := by
  obtain ⟨q, op⟩ := c
  simp only [perform]
  split
  · exact datasets_apply_getD E w _
  · rfl

/-- A query job on the template's `tmp_` table leaves the tables, or keeps some of the rows of the
table its text names, which is the job's `tmp_` table when its name is one BigQuery accepts. -/
theorem query_cases (hq : newQuerier true q.job q.project = .ok q) {s : Stmt}
    (hs : s.target = q.tmpTable) {dryRun : Bool} {w' : Warehouse Val}
    (h : w.apply E (.query s dryRun) = some w') :
    w'.tables = w.tables ∨ ∃ t T, ∃ keep : Date × Row Val → Bool,
      (q.tmpRef.Valid → t = q.tmpRef) ∧ w.tables t = some T ∧
        w'.tables = Function.update w.tables t (some ⟨T.entries.filter keep⟩) := by
  cases dryRun
  · obtain ⟨t, T, ht, hT, e⟩ := apply_query h
    exact .inr ⟨t, T, _, fun hv => Option.some.inj
      (ht.symm.trans (Queryer.readTarget_eq_tmpRef (newQuerier_ok hq) hv hs)), hT, e⟩
  · exact .inl (by rw [apply_dryRun h])

/-- One call leaves the tables, keeps some rows of one table (the job's `tmp_` table when its
name is valid), or, as a `CopyToRaw` with its client, truncates the day of `raw_` from `tmp_`. -/
theorem perform_cases (E : Engine Val) (w : Warehouse Val)
    (hq : newQuerier true q.job q.project = .ok q) (op : Op) :
    (w.perform E (q, op)).tables = w.tables ∨
    (∃ t T, ∃ keep : Date × Row Val → Bool, (q.tmpRef.Valid → t = q.tmpRef) ∧
      w.tables t = some T ∧
      (w.perform E (q, op)).tables = Function.update w.tables t (some ⟨T.entries.filter keep⟩)) ∨
    op = .copyToRaw true false ∧ ∃ S, w.tables q.tmpRef = some S ∧
      (w.perform E (q, op)).tables = Function.update w.tables q.rawRef
        (some (((w.tables q.rawRef).getD ⟨[]⟩).write (S.select (some q.job.date))
          .writeTruncate (some q.job.date))) := by
  cases hreq : q.request op with
  | error => exact .inl (by simp only [perform, hreq])
  | ok req =>
    cases hw : w.apply E req with
    | none => exact .inl (by simp only [perform, hreq, hw, Option.getD_none])
    | some w' =>
      have e : w.perform E (q, op) = w' := by simp only [perform, hreq, hw, Option.getD_some]
      rw [e]
      cases op with
      | run key dryRun =>
        obtain ⟨s, hs, rfl⟩ := Queryer.run_eq_ok hreq
        exact (query_cases hq (Queryer.target_of_templateFor hs) hw).imp_right .inl
      | dedup dryRun =>
        rw [Queryer.dedup_eq_ok hreq] at hw
        exact (query_cases hq (show q.dedupStmt.target = q.tmpTable from rfl) hw).imp_right .inl
      | copyToRaw newClient dryRun =>
        obtain ⟨rfl, rfl, -⟩ := Queryer.copyToRaw_eq_ok hreq
        exact .inr (.inr ⟨rfl, Queryer.copyToRaw_apply hq hreq hw⟩)
      | deleteTmp =>
        obtain ⟨T, hT, e⟩ := Queryer.deleteTmp_apply hq hreq hw
        exact .inr (.inl ⟨q.tmpRef, T, _, fun _ => rfl, hT, e⟩)

theorem partition_perform (hq : newQuerier true q.job q.project = .ok q) (hv : q.tmpRef.Valid)
    {op : Op} {t : TableRef} {p : Date} (ht : ¬q.Writes op t p) :
    (w.perform E (q, op)).partition t p = w.partition t p := by
  simp only [Queryer.Writes, not_or, not_and] at ht
  rcases perform_cases E w hq op with h | ⟨t', T, keep, ht', -, h⟩ | ⟨rfl, S, -, h⟩
  · rw [partition, h, partition]
  · rw [partition, h, ht' hv, Function.update_noteq ht.1, partition]
  · by_cases htr : t = q.rawRef
    · subst htr
      rw [partition, h, Function.update_same, Option.getD_some, Table.partition_write_truncate,
        if_neg (ht.2 rfl rfl), partition]
    · rw [partition, h, Function.update_noteq htr, partition]

/-- A table that is not the call's `raw_` table keeps some of its rows, in their order, and a
missing one stays missing. -/
theorem entries_perform (hq : newQuerier true q.job q.project = .ok q) {op : Op} {t : TableRef}
    (ht : t ≠ q.rawRef) {T' : Table Val} (h : (w.perform E (q, op)).tables t = some T') :
    ∃ T, w.tables t = some T ∧ T'.entries.Sublist T.entries := by
  rcases perform_cases E w hq op with e | ⟨t', T, keep, -, hT, e⟩ | ⟨-, S, -, e⟩
  · exact ⟨T', e ▸ h, .refl _⟩
  · by_cases htt : t = t'
    · subst htt
      rw [e, Function.update_same, Option.some_inj] at h
      exact ⟨T, hT, h ▸ List.filter_sublist _⟩
    · rw [e, Function.update_noteq htt] at h
      exact ⟨T', h, .refl _⟩
  · rw [e, Function.update_noteq ht] at h
    exact ⟨T', h, .refl _⟩

theorem tables_perform (hq : newQuerier true q.job q.project = .ok q) (hv : q.tmpRef.Valid)
    (op : Op) {u : TableRef} (hu : u ≠ q.tmpRef) (hu' : u ≠ q.rawRef) :
    (w.perform E (q, op)).tables u = w.tables u := by
  rcases perform_cases E w hq op with e | ⟨t, T, keep, ht, -, e⟩ | ⟨-, S, -, e⟩
  · rw [e]
  · rw [e, ht hv, Function.update_noteq hu]
  · rw [e, Function.update_noteq hu']

/-! ## Calls on other tables commute -/

section Congr

variable {w₁ w₂ : Warehouse Val} (hw : ∀ u, q.Touches u → w₁.tables u = w₂.tables u)
include hw

theorem query_congr (hq : newQuerier true q.job q.project = .ok q) (hv : q.tmpRef.Valid)
    {s : Stmt} (hs : s.target = q.tmpTable) (dryRun : Bool) {u : TableRef} (hu : q.Touches u) :
    ((w₁.apply E (.query s dryRun)).getD w₁).tables u =
      ((w₂.apply E (.query s dryRun)).getD w₂).tables u := by
  cases dryRun
  · have hr := Queryer.readTarget_eq_tmpRef (newQuerier_ok hq) hv hs
    rw [tables_apply_query_getD hr, tables_apply_query_getD hr, hw _ (.inl rfl)]
    exact update_apply_congr (hw u hu)
  · rw [apply_query_true_getD, apply_query_true_getD]
    exact hw u hu

theorem delete_congr (hq : newQuerier true q.job q.project = .ok q) {u : TableRef}
    (hu : q.Touches u) :
    ((w₁.apply E (.delete ⟨q.project, "tmp_" ++ q.job.experiment, q.partitionId⟩)).getD
        w₁).tables u =
      ((w₂.apply E (.delete ⟨q.project, "tmp_" ++ q.job.experiment, q.partitionId⟩)).getD
        w₂).tables u := by
  cases hr : TableRef.resolve ⟨q.project, "tmp_" ++ q.job.experiment, q.partitionId⟩ with
  | none =>
    rw [apply_delete_of_resolve_none hr, apply_delete_of_resolve_none hr]
    exact hw u hu
  | some t =>
    obtain rfl := Queryer.resolve_partitionId (newQuerier_ok hq) hr
    rw [tables_apply_delete_getD hr, tables_apply_delete_getD hr,
      hw ⟨q.project, "tmp_" ++ q.job.experiment, q.job.datatype⟩ (.inl rfl)]
    exact update_apply_congr (hw u hu)

theorem copy_congr (hq : newQuerier true q.job q.project = .ok q)
    (hds : w₁.datasets = w₂.datasets) {u : TableRef} (hu : q.Touches u) :
    ((w₁.apply E (.copy [⟨q.project, "tmp_" ++ q.job.experiment, q.partitionId⟩]
        ⟨q.project, "raw_" ++ q.job.experiment, q.partitionId⟩ .writeTruncate)).getD w₁).tables u =
      ((w₂.apply E (.copy [⟨q.project, "tmp_" ++ q.job.experiment, q.partitionId⟩]
        ⟨q.project, "raw_" ++ q.job.experiment, q.partitionId⟩ .writeTruncate)).getD
        w₂).tables u := by
  cases hs : TableRef.resolve ⟨q.project, "tmp_" ++ q.job.experiment, q.partitionId⟩ with
  | none =>
    rw [apply_copy_of_resolve_none hs, apply_copy_of_resolve_none hs]
    exact hw u hu
  | some t =>
  cases hd : TableRef.resolve ⟨q.project, "raw_" ++ q.job.experiment, q.partitionId⟩ with
  | none =>
    rw [apply_copy_of_resolve_none_right hd, apply_copy_of_resolve_none_right hd]
    exact hw u hu
  | some t' =>
    obtain rfl := Queryer.resolve_partitionId (newQuerier_ok hq) hs
    obtain rfl := Queryer.resolve_partitionId (newQuerier_ok hq) hd
    by_cases hv : q.rawRef.Valid ∧ w₁.datasets q.project ("raw_" ++ q.job.experiment) = true
    · rw [tables_apply_copy_getD hs hd E w₁ hv, tables_apply_copy_getD hs hd E w₂ (hds ▸ hv),
        hw ⟨q.project, "tmp_" ++ q.job.experiment, q.job.datatype⟩ (.inl rfl),
        hw ⟨q.project, "raw_" ++ q.job.experiment, q.job.datatype⟩ (.inr rfl)]
      cases w₂.tables ⟨q.project, "tmp_" ++ q.job.experiment, q.job.datatype⟩
      · exact hw u hu
      · exact update_apply_congr (hw u hu)
    · rw [apply_copy_of_not_valid hs hd E w₁ hv, apply_copy_of_not_valid hs hd E w₂ (hds ▸ hv)]
      exact hw u hu

end Congr

/-- A call on a job whose `tmp_` table has a name BigQuery accepts changes only the job's `tmp_`
and `raw_` tables, and what it leaves there depends only on the datasets and on what they held. -/
theorem perform_local (hq : newQuerier true q.job q.project = .ok q) (hv : q.tmpRef.Valid)
    (op : Op) : Local (·.perform E (q, op)) q.Touches := by
  refine ⟨fun w => datasets_perform w _,
    fun w u hu => tables_perform hq hv op (fun h => hu (.inl h)) (fun h => hu (.inr h)),
    fun w₁ w₂ hds hw u hu => ?_⟩
  obtain ⟨hc, -⟩ := newQuerierWithClient_ok (newQuerier_ok hq)
  cases hreq : q.request op with
  | error => simpa only [perform, hreq] using hw u hu
  | ok req =>
    simp only [perform, hreq]
    cases op with
    | run key dryRun =>
      obtain ⟨s, hs, rfl⟩ := Queryer.run_eq_ok hreq
      exact query_congr hw hq hv (Queryer.target_of_templateFor hs) dryRun hu
    | dedup dryRun =>
      rw [Queryer.dedup_eq_ok hreq]
      exact query_congr hw hq hv (show q.dedupStmt.target = q.tmpTable from rfl) dryRun hu
    | copyToRaw newClient dryRun =>
      obtain ⟨-, -, c, hc', rfl⟩ := Queryer.copyToRaw_eq_ok hreq
      obtain rfl : c = ⟨q.project⟩ := Option.some.inj (hc'.symm.trans hc)
      exact copy_congr hw hq hds hu
    | deleteTmp =>
      obtain ⟨c, hc', rfl⟩ := Queryer.deleteTmp_eq_ok hreq
      obtain rfl : c = ⟨q.project⟩ := Option.some.inj (hc'.symm.trans hc)
      exact delete_congr hw hq hu

/-- Calls on queryers with different `tmp_` tables, with names BigQuery accepts, commute. -/
theorem perform_comm {q₁ q₂ : Queryer} (hq₁ : newQuerier true q₁.job q₁.project = .ok q₁)
    (hv₁ : q₁.tmpRef.Valid) (hq₂ : newQuerier true q₂.job q₂.project = .ok q₂)
    (hv₂ : q₂.tmpRef.Valid) (hne : q₁.tmpRef ≠ q₂.tmpRef) (op₁ op₂ : Op) (w : Warehouse Val) :
    (w.perform E (q₂, op₂)).perform E (q₁, op₁) = (w.perform E (q₁, op₁)).perform E (q₂, op₂) :=
  (perform_local hq₁ hv₁ op₁).comm (perform_local hq₂ hv₂ op₂) (Queryer.touches_disjoint hne) w

/-! ## Runs -/

variable {calls : List (Queryer × Op)}

/-- Whatever calls the gardener makes on queryers `NewQuerier` made for jobs whose `tmp_` tables
have names BigQuery accepts, in whatever order, partition `p` of table `t` keeps its rows unless
some call writes it. -/
theorem partition_performAll
    (hcalls : ∀ c ∈ calls, newQuerier true c.1.job c.1.project = .ok c.1)
    (hv : ∀ c ∈ calls, c.1.tmpRef.Valid) {t : TableRef} {p : Date}
    (ht : ∀ c ∈ calls, ¬c.1.Writes c.2 t p) (w : Warehouse Val) :
    (w.performAll E calls).partition t p = w.partition t p := by
  induction calls generalizing w with
  | nil => rfl
  | cons c calls ih =>
    obtain ⟨q, op⟩ := c
    simp only [List.forall_mem_cons] at hcalls hv ht
    rw [performAll, ih hcalls.2 hv.2 ht.2, partition_perform hcalls.1 hv.1 ht.1]

/-- The calls of the promotion of the ndt7 day. -/
def ndt7Promotion : List (Queryer × Op) :=
  [(ndt7Queryer, .dedup false), (ndt7Queryer, .copyToRaw true false), (ndt7Queryer, .deleteTmp)]

theorem ndt7Promotion_newQuerier :
    ∀ c ∈ ndt7Promotion, newQuerier true c.1.job c.1.project = .ok c.1 := by
  simp only [ndt7Promotion, List.forall_mem_cons, List.not_mem_nil, IsEmpty.forall_iff,
    implies_true, and_true]
  exact ⟨rfl, rfl, rfl⟩

theorem partition_performAll_ndt7 :
    (∀ c ∈ ndt7Promotion, newQuerier true c.1.job c.1.project = .ok c.1) ∧
    (∀ c ∈ ndt7Promotion, c.1.tmpRef.Valid) ∧
    (∀ c ∈ ndt7Promotion, ¬c.1.Writes c.2 ndt7Queryer.rawRef ndt7PrevDay) ∧
    ndt7Staged.partition ndt7Queryer.rawRef ndt7PrevDay = [idRow 8 20190303 0] ∧
    (ndt7Staged.performAll Engine.ymd ndt7Promotion).partition ndt7Queryer.rawRef ndt7PrevDay =
      ndt7Staged.partition ndt7Queryer.rawRef ndt7PrevDay := by
  have hv : ∀ c ∈ ndt7Promotion, c.1.tmpRef.Valid := by decide
  have ht : ∀ c ∈ ndt7Promotion, ¬c.1.Writes c.2 ndt7Queryer.rawRef ndt7PrevDay := by decide
  exact ⟨ndt7Promotion_newQuerier, hv, ht, by decide,
    partition_performAll ndt7Promotion_newQuerier hv ht ndt7Staged⟩

/-- Whatever calls the gardener makes on queryers `NewQuerier` made for jobs whose `tmp_` tables
have names BigQuery accepts, a table that is neither the `tmp_` nor the `raw_` table of any call
is left as it was. -/
theorem tables_performAll (hcalls : ∀ c ∈ calls, newQuerier true c.1.job c.1.project = .ok c.1)
    (hv : ∀ c ∈ calls, c.1.tmpRef.Valid) {u : TableRef}
    (hu : ∀ c ∈ calls, u ≠ c.1.tmpRef ∧ u ≠ c.1.rawRef) (w : Warehouse Val) :
    (w.performAll E calls).tables u = w.tables u := by
  induction calls generalizing w with
  | nil => rfl
  | cons c calls ih =>
    obtain ⟨q, op⟩ := c
    simp only [List.forall_mem_cons] at hcalls hv hu
    rw [performAll, ih hcalls.2 hv.2 hu.2, tables_perform hcalls.1 hv.1 op hu.1.1 hu.1.2]

theorem performAll_eq_foldl (w : Warehouse Val) :
    w.performAll E calls = calls.foldl (fun w c => w.perform E c) w := by
  induction calls generalizing w with
  | nil => rfl
  | cons c calls ih => exact ih _

/-- Jobs on different tables are serializable: calls split by `a` into groups with no `tmp_`
table in common leave the warehouse the first group run before the second leaves. -/
theorem performAll_split (a : Queryer → Bool)
    (hcalls : ∀ c ∈ calls, newQuerier true c.1.job c.1.project = .ok c.1)
    (hv : ∀ c ∈ calls, c.1.tmpRef.Valid)
    (hsep : ∀ c ∈ calls, ∀ c' ∈ calls, a c.1 = true → a c'.1 = false → c.1.tmpRef ≠ c'.1.tmpRef)
    (w : Warehouse Val) :
    w.performAll E calls = (w.performAll E (calls.filter fun c => a c.1)).performAll E
      (calls.filter fun c => !a c.1) := by
  simp only [performAll_eq_foldl]
  exact foldl_split _ (fun c => a c.1) (fun c hc c' hc' ha ha' w =>
    perform_comm (hcalls c hc) (hv c hc) (hcalls c' hc') (hv c' hc') (hsep c hc c' hc' ha ha')
      c.2 c'.2 w) w

/-- The queryer `NewQuerier` makes for the annotation job of 2019-03-04 in `mlab-sandbox`. -/
def annotationQueryer : Queryer :=
  ⟨some ⟨"mlab-sandbox"⟩, "mlab-sandbox", "date", jobOn "annotation", [("id", "id")], ""⟩

/-- The promotions of the ndt7 day and of the annotation day, interleaved. -/
def interleavedPromotions : List (Queryer × Op) :=
  [(ndt7Queryer, .dedup false), (annotationQueryer, .dedup false),
    (annotationQueryer, .copyToRaw true false), (ndt7Queryer, .copyToRaw true false),
    (ndt7Queryer, .deleteTmp), (annotationQueryer, .deleteTmp)]

/-- `ndt7Staged` with `tmp_ndt.annotation` holding two rows of `id` 1 on 2019-03-04. -/
def bothStaged : Warehouse Nat :=
  ndt7Staged.set annotationQueryer.tmpRef (some ⟨[((jobOn "ndt7").date, idRow 1 20190304 1),
    ((jobOn "ndt7").date, idRow 1 20190304 5)]⟩) fun _ => by decide

theorem performAll_split_ndt7 :
    (∀ c ∈ interleavedPromotions, newQuerier true c.1.job c.1.project = .ok c.1) ∧
    (∀ c ∈ interleavedPromotions, c.1.tmpRef.Valid) ∧
    (∀ c ∈ interleavedPromotions, ∀ c' ∈ interleavedPromotions,
      (c.1.job.datatype == "ndt7") = true → (c'.1.job.datatype == "ndt7") = false →
        c.1.tmpRef ≠ c'.1.tmpRef) ∧
    (bothStaged.apply Engine.ymd (.query annotationQueryer.dedupStmt false)).map
        (·.partition annotationQueryer.tmpRef (jobOn "ndt7").date) = some [idRow 1 20190304 5] ∧
    bothStaged.performAll Engine.ymd interleavedPromotions =
      (bothStaged.performAll Engine.ymd
        (interleavedPromotions.filter fun c => c.1.job.datatype == "ndt7")).performAll
        Engine.ymd (interleavedPromotions.filter fun c => !(c.1.job.datatype == "ndt7")) := by
  have hcalls : ∀ c ∈ interleavedPromotions, newQuerier true c.1.job c.1.project = .ok c.1 := by
    simp only [interleavedPromotions, List.forall_mem_cons, List.not_mem_nil, IsEmpty.forall_iff,
      implies_true, and_true]
    exact ⟨rfl, rfl, rfl, rfl, rfl, rfl⟩
  have hv : ∀ c ∈ interleavedPromotions, c.1.tmpRef.Valid := by decide
  have hsep : ∀ c ∈ interleavedPromotions, ∀ c' ∈ interleavedPromotions,
      (c.1.job.datatype == "ndt7") = true → (c'.1.job.datatype == "ndt7") = false →
        c.1.tmpRef ≠ c'.1.tmpRef := by decide
  have happ : (bothStaged.apply Engine.ymd (.query annotationQueryer.dedupStmt false)).map
      (·.partition annotationQueryer.tmpRef (jobOn "ndt7").date) = some [idRow 1 20190304 5] := by
    have hq : newQuerier true (jobOn "annotation") "mlab-sandbox" = .ok annotationQueryer := rfl
    rw [Queryer.apply_query_eq_modify (newQuerier_ok hq) (by decide) annotationQueryer.dedupStmt
      rfl]
    decide
  exact ⟨hcalls, hv, hsep, happ,
    performAll_split (fun q => q.job.datatype == "ndt7") hcalls hv hsep _⟩

end Perform

end Warehouse

end EtlGardener
