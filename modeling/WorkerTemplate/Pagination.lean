import WorkerTemplate.Lists.Pages
import WorkerTemplate.Services

/-!
# Listing task executions page by page

A listing sorts the rows of a tenant by their time of creation alone, which the rows
created in one transaction share.  The server may return such rows in another order for
every query, so pages of a listing agree with each other only when no page boundary falls
between them.
-/

namespace WorkerTemplate

/-- What the server may do for one `ORDER BY created_at DESC`: any order that puts later
rows first. -/
structure Serving where
  order : List TaskExecution → List TaskExecution
  perm : ∀ rows, (order rows).Perm rows
  newestFirst : ∀ rows, (order rows).Pairwise (fun row row' => row'.createdAt ≤ row.createdAt)

namespace Serving

/-- The order of a serving puts later rows first. -/
theorem descending (serving : Serving) (rows : List TaskExecution) :
  Pages.Descending TaskExecution.createdAt rows (serving.order rows)
  := ⟨serving.perm rows, serving.newestFirst rows⟩

open Classical in
/-- The server may return some rows in any order that puts later ones first. -/
theorem exists_order_eq {rows order : List TaskExecution}
    (h : Pages.Descending TaskExecution.createdAt rows order) :
  ∃ serving : Serving, serving.order rows = order
  := by
  choose sorted hsorted using Pages.exists_descending TaskExecution.createdAt
  have hupdate (rows' : List TaskExecution) :
      Pages.Descending TaskExecution.createdAt rows' (Function.update sorted rows order rows') := by
    by_cases hrows : rows' = rows
    · subst hrows
      rwa [Function.update_self]
    · rw [Function.update_of_ne hrows]
      apply hsorted rows'
  use ⟨Function.update sorted rows order, fun rows' => (hupdate rows').perm,
    fun rows' => (hupdate rows').sorted⟩
  apply Function.update_self ..

end Serving

namespace Database

variable (db : Database) (tenantId : UUID) (statusFilter : Option TaskStatus)

/-- List task executions for a tenant. -/
def listTaskExecutions (serving : Serving) (tenantId : UUID)
    (statusFilter : Option TaskStatus := none) (offset : ℕ := 0) (limit : ℕ := 100) :
    List TaskExecution :=
  let stmt := db.executions.filter (fun row => row.tenantId = tenantId)
  let stmt :=
    match statusFilter with
    | none => stmt
    | some status => stmt.filter (fun row => row.status = status)
  ((serving.order stmt).drop offset).take limit

/-! ### What a listing is for -/

/-- The rows of the tenant, with the status if one is asked for. -/
def matching : List TaskExecution :=
  db.executions.filter (fun row => row.tenantId = tenantId ∧ ∀ s ∈ statusFilter, row.status = s)

/-- The pages of a listing put together are the matching rows, each once, whatever order
the server returns the rows in for each of the queries. -/
def PaginatesExactly (limit : ℕ) : Prop :=
  ∀ (serving : ℕ → Serving) (K : ℕ), (db.matching tenantId statusFilter).length ≤ K * limit →
    ((List.range K).flatMap (fun k =>
      db.listTaskExecutions (serving k) tenantId statusFilter (k * limit) limit)).Perm
      (db.matching tenantId statusFilter)

/-! ### The pages of a listing -/

variable {db} {tenantId} {statusFilter}

/-- A listing is a page of the matching rows in the order of the server. -/
theorem listTaskExecutions_eq (serving : Serving) (k limit : ℕ) :
  db.listTaskExecutions serving tenantId statusFilter (k * limit) limit =
    Pages.page (serving.order (db.matching tenantId statusFilter)) limit k
  := by
  cases statusFilter with
  | none => simp [listTaskExecutions, matching, Pages.page]
  | some status =>
      simp [listTaskExecutions, matching, Pages.page, List.filter_filter, and_comm]

/-- The pages are right for the orders of servings when they are for all orders that put
later rows first: a serving may return the rows in any of them. -/
theorem paginatesExactly_iff_orders (limit : ℕ) :
  db.PaginatesExactly tenantId statusFilter limit ↔
    ∀ orders : ℕ → List TaskExecution,
      (∀ k, Pages.Descending TaskExecution.createdAt (db.matching tenantId statusFilter)
        (orders k)) →
      ∀ K, (db.matching tenantId statusFilter).length ≤ K * limit →
        ((List.range K).flatMap (fun k => Pages.page (orders k) limit k)).Perm
          (db.matching tenantId statusFilter)
  := by
  unfold PaginatesExactly
  simp only [listTaskExecutions_eq]
  constructor
  · intro hall orders horders K hK
    choose serving hserving using fun k => Serving.exists_order_eq (horders k)
    simpa only [hserving] using hall serving K hK
  · intro hall serving K hK
    apply hall _ (fun k => (serving k).descending _) K hK

/-- The matching rows are different ones when the primary keys are. -/
theorem nodup_matching (hkeys : (db.executions.map (·.id)).Nodup) :
  (db.matching tenantId statusFilter).Nodup
  := (List.Nodup.of_map _ hkeys).filter _

/-- A listing paginates exactly when no page boundary falls between matching rows with one
time of creation. -/
theorem paginatesExactly_iff (hkeys : (db.executions.map (·.id)).Nodup) (tenantId : UUID)
    (statusFilter : Option TaskStatus) {limit : ℕ} (hlimit : 1 ≤ limit) :
  db.PaginatesExactly tenantId statusFilter limit ↔
    ∀ k, ¬ Pages.Splits TaskExecution.createdAt (db.matching tenantId statusFilter) (k * limit)
  := by
  rw [paginatesExactly_iff_orders]
  apply Pages.forall_flatMap_page_perm_iff (nodup_matching hkeys) hlimit

/-- Two rows created in one transaction. -/
def tiedRows : Database where
  executions :=
    [createTaskExecution 1 0 "job".toList 7 3, createTaskExecution 2 0 "job".toList 7 3]
  attempts := []

/-- The two rows are on one page of two. -/
theorem tiedRows_paginatesExactly_two : tiedRows.PaginatesExactly 7 none 2 := by
  refine (@paginatesExactly_iff tiedRows (by decide) 7 none 2 (by decide)).mpr ?_
  rintro k ⟨row, hrow, habove, htied⟩
  have hcounts : ∀ row ∈ tiedRows.matching 7 none,
      Pages.above TaskExecution.createdAt (tiedRows.matching 7 none) row = 0 ∧
        Pages.tied TaskExecution.createdAt (tiedRows.matching 7 none) row = 2 := by decide
  obtain ⟨hzero, htwo⟩ := hcounts row hrow
  omega

/-- On pages of one row the server may give one of them twice and the other not at all. -/
theorem not_tiedRows_paginatesExactly_one :
  (tiedRows.executions.map (·.id)).Nodup ∧ ¬ tiedRows.PaginatesExactly 7 none 1
  := by
  have hkeys : (tiedRows.executions.map (·.id)).Nodup := by decide
  refine ⟨hkeys, ?_⟩
  rw [paginatesExactly_iff_orders, Pages.forall_flatMap_page_perm_iff (nodup_matching hkeys) le_rfl]
  intro hsplits
  apply hsplits 1
  exact ⟨_, List.mem_cons_self, by decide, by decide⟩

end Database

end WorkerTemplate
