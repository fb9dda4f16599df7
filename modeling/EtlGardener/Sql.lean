import Mathlib.Order.Lattice

/-!
# Rows and the SQL the rendered queries evaluate

A row of a warehouse table maps column paths (`id`, `parser.Time`) to values; a path the row
lacks reads as `NULL`.  This file gives the pieces of SQL evaluation the rendered queries use:
three-valued equality, of which a `WHERE` keeps only `TRUE` (`sqlEq`), `ORDER BY ... DESC` with
`NULL`s last (`descLe`), the order an `ORDER BY` list puts rows in (`RowOrder`) with its
lexicographic extension by one more column (`RowOrder.thenDesc`), and `ROW_NUMBER()` as any
choice of a least row per window (`RowNumbering`), of which `RowNumbering.scan` is one.
-/

namespace EtlGardener

variable {Val : Type}

/-- A row: values by column path; a path it lacks is `NULL`. -/
structure Row (Val : Type) where
  cols : List (String × Val)
deriving DecidableEq

/-- The value of column `c`, `none` for `NULL`. -/
def Row.get (r : Row Val) (c : String) : Option Val := r.cols.lookup c

/-- SQL `a = b` evaluates to `TRUE`: neither side is `NULL` and they are equal. -/
def sqlEq [DecidableEq Val] : Option Val → Option Val → Bool
  | some a, some b => decide (a = b)
  | _, _ => false

theorem sqlEq_iff [DecidableEq Val] {a b : Option Val} :
    sqlEq a b = true ↔ ∃ x, a = some x ∧ b = some x := by
  cases a <;> cases b <;> simp [sqlEq, eq_comm]

theorem sqlEq_isSome [DecidableEq Val] {a b : Option Val} (h : sqlEq a b = true) :
    a.isSome ∧ b.isSome := by
  obtain ⟨x, rfl, rfl⟩ := sqlEq_iff.1 h
  simp

theorem sqlEq_self [DecidableEq Val] {a : Option Val} : sqlEq a a = a.isSome := by
  cases a <;> simp [sqlEq]

/-! ## Orders -/

/-- The order an `ORDER BY` list puts rows in: a total preorder, so rows may tie. -/
structure RowOrder (Val : Type) where
  le : Row Val → Row Val → Bool
  total : ∀ r s, le r s = true ∨ le s r = true
  trans : ∀ r s t, le r s = true → le s t = true → le r t = true

namespace RowOrder

theorem refl (o : RowOrder Val) (r : Row Val) : o.le r r = true := (o.total r r).elim id id

/-- The order of an empty `ORDER BY` prefix: every two rows tie. -/
def none : RowOrder Val := ⟨fun _ _ => true, by simp, by simp⟩

/-- The first least row of `m :: rs`, scanning left to right. -/
def least (o : RowOrder Val) : Row Val → List (Row Val) → Row Val
  | m, [] => m
  | m, r :: rs => o.least (if o.le m r then m else r) rs

theorem least_mem (o : RowOrder Val) (m : Row Val) (rs : List (Row Val)) :
    o.least m rs ∈ m :: rs := by
  induction rs generalizing m with
  | nil => simp [least]
  | cons r rs ih =>
    rw [least]
    split_ifs
    · rcases List.mem_cons.1 (ih m) with h | h
      · rw [h]; exact List.mem_cons_self _ _
      · exact List.mem_cons_of_mem _ (List.mem_cons_of_mem _ h)
    · exact List.mem_cons_of_mem _ (ih r)

theorem least_le (o : RowOrder Val) (m : Row Val) (rs : List (Row Val)) :
    ∀ r ∈ m :: rs, o.le (o.least m rs) r = true := by
  induction rs generalizing m with
  | nil => simp [least, o.refl]
  | cons r rs ih =>
    rw [least]
    have hm : o.le (if o.le m r then m else r) m = true := by
      split_ifs with h
      · exact o.refl m
      · exact (o.total m r).resolve_left h
    have hr : o.le (if o.le m r then m else r) r = true := by
      split_ifs with h
      · exact h
      · exact o.refl r
    intro x hx
    rcases List.mem_cons.1 hx with rfl | hx
    · exact o.trans _ _ _ (ih _ _ (List.mem_cons_self _ _)) hm
    rcases List.mem_cons.1 hx with rfl | hx
    · exact o.trans _ _ _ (ih _ _ (List.mem_cons_self _ _)) hr
    · exact ih _ x (List.mem_cons_of_mem _ hx)

end RowOrder

section Desc

variable [LinearOrder Val]

/-- `ORDER BY x DESC`: `a` may come before `b` when `a ≥ b`; `NULL`s come last. -/
def descLe : Option Val → Option Val → Bool
  | some a, some b => decide (b ≤ a)
  | some _, none => true
  | none, some _ => false
  | none, none => true

theorem descLe_total (a b : Option Val) : descLe a b = true ∨ descLe b a = true := by
  cases a <;> cases b <;> simp [descLe, le_total]

/-- `NULL`s come last: a value ordered before a non-`NULL` one is not `NULL`. -/
theorem descLe_isSome {a b : Option Val} (h : descLe a b = true) (hb : b.isSome) : a.isSome := by
  cases a <;> cases b <;> simp_all [descLe]

theorem descLe_trans {a b c : Option Val} (h₁ : descLe a b = true) (h₂ : descLe b c = true) :
    descLe a c = true := by
  cases a <;> cases b <;> cases c <;> simp_all [descLe]
  exact le_trans h₂ h₁

theorem descLe_antisymm {a b : Option Val} (h₁ : descLe a b = true) (h₂ : descLe b a = true) :
    a = b := by
  cases a <;> cases b <;> simp_all [descLe]
  exact le_antisymm h₂ h₁

/-- `ORDER BY <o>, c DESC`: rows that tie under `o` are ordered by column `c`, largest first. -/
def RowOrder.thenDesc (o : RowOrder Val) (c : String) : RowOrder Val where
  le r s := o.le r s && (!o.le s r || descLe (r.get c) (s.get c))
  total r s := by
    rcases o.total r s with h | h <;> cases h' : o.le s r <;> cases h'' : o.le r s <;>
      simp_all [descLe_total]
  trans r s t := by
    simp only [Bool.and_eq_true, Bool.or_eq_true, Bool.not_eq_true']
    rintro ⟨hrs, hsr⟩ ⟨hst, hts⟩
    refine ⟨o.trans _ _ _ hrs hst, ?_⟩
    by_cases htr : o.le t r = true
    · have hsr' := o.trans _ _ _ hst htr
      have hts' := o.trans _ _ _ htr hrs
      simp only [hsr', hts', true_or, Bool.true_eq_false, false_or] at hsr hts
      exact .inr (descLe_trans hsr hts)
    · exact .inl (by simpa using htr)

/-- Two rows that tie under `ORDER BY <o>, c DESC` agree on `c`. -/
theorem RowOrder.thenDesc_tie {o : RowOrder Val} {c : String} {r s : Row Val}
    (h₁ : (o.thenDesc c).le r s = true) (h₂ : (o.thenDesc c).le s r = true) :
    r.get c = s.get c := by
  simp only [RowOrder.thenDesc, Bool.and_eq_true, Bool.or_eq_true, Bool.not_eq_true'] at h₁ h₂
  obtain ⟨hrs, h₁⟩ := h₁
  obtain ⟨hsr, h₂⟩ := h₂
  simp only [hrs, hsr, Bool.true_eq_false, false_or] at h₁ h₂
  exact descLe_antisymm h₁ h₂

end Desc

/-! ## `ROW_NUMBER()` -/

/-- One resolution of `ROW_NUMBER()` over an order: the row each window numbers 1.  The warehouse
may number any least row of a window first, so each such choice is one `RowNumbering`. -/
structure RowNumbering (o : RowOrder Val) where
  first : List (Row Val) → Row Val
  first_mem : ∀ w, w ≠ [] → first w ∈ w
  first_le : ∀ w, ∀ r ∈ w, o.le (first w) r = true

/-- The numbering that gives 1 to the first least row in scan order. -/
def RowNumbering.scan (o : RowOrder Val) : RowNumbering o where
  first
    | [] => ⟨[]⟩
    | m :: rs => o.least m rs
  first_mem
    | [], h => absurd rfl h
    | m :: rs, _ => o.least_mem m rs
  first_le
    | [], _, h => absurd h (List.not_mem_nil _)
    | m :: rs, r, h => o.least_le m rs r h

end EtlGardener
