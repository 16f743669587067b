/-
The page of a query.

A page has at least one row and no more than the settings allow, and before it stand the rows
of the pages before it.  The query binds both numbers as they are, or the largest integer for
those past it.  As long as the pages end below that integer they follow one another without
a gap, and together they give the first rows of a result.
-/
import FilterSql.Proofs.Query.RowCount

namespace FilterSql

/-- A number as an integer of 64 bits, the largest one for those past it. -/
def clamped (n : UInt64) : Int64 :=
  Int64.ofInt (min (n.toNat : Int) Int64.maxValue.toInt)

theorem toInt_clamped (n : UInt64) :
    (clamped n).toInt = min (n.toNat : Int) Int64.maxValue.toInt := by
  rw [clamped, Int64.toInt_maxValue]
  apply Int64.toInt_ofInt_of_le <;> omega

namespace Pagination

/-- Another page, with as many rows. -/
def onPage (pagination : Pagination) (page : UInt64) : Pagination :=
  { pagination with page := page }

section Bound

variable (pagination : Pagination) (config : Config)

@[simp] theorem resolvedLimit_onPage (page : UInt64) :
    (pagination.onPage page).resolvedLimit config = pagination.resolvedLimit config := rfl

/-- The limit that a query binds for a page. -/
def boundLimit : Int64 :=
  clamped (pagination.resolvedLimit config)

/-- The offset that a query binds for a page. -/
def boundOffset : Int64 :=
  clamped (pagination.resolvedOffset config)

/-- The rows of a result that stand on a page, by the limit and the offset that are bound. -/
def rowsOf {α : Type} (rows : List α) : List α :=
  (rows.drop (pagination.boundOffset config).toInt.toNat).take
    (pagination.boundLimit config).toInt.toNat

theorem one_le_resolvedLimit : 1 ≤ pagination.resolvedLimit config := by
  rw [UInt64.le_iff_toNat_le, resolvedLimit, UInt64.toNat_max]
  exact Nat.le_max_left _ _

theorem resolvedLimit_le : pagination.resolvedLimit config ≤ max 1 config.maxLimit := by
  rw [UInt64.le_iff_toNat_le, resolvedLimit, UInt64.toNat_max, UInt64.toNat_min, UInt64.toNat_max]
  omega

theorem toNat_resolvedLimit_pos : 0 < (pagination.resolvedLimit config).toNat :=
  UInt64.le_iff_toNat_le.mp (pagination.one_le_resolvedLimit config)

theorem toNat_resolvedOffset :
    (pagination.resolvedOffset config).toNat =
      min ((pagination.page.toNat - 1) * (pagination.resolvedLimit config).toNat)
        (UInt64.size - 1) := by
  rw [resolvedOffset]
  apply UInt64.toNat_ofNat_of_lt'
  exact Nat.lt_of_le_of_lt (Nat.min_le_right _ _) (by decide)

theorem toInt_boundLimit :
    (pagination.boundLimit config).toInt =
      min ((pagination.resolvedLimit config).toNat : Int) Int64.maxValue.toInt :=
  toInt_clamped _

/-- Of the two numbers that could cut an offset off, only the largest integer is ever seen. -/
theorem toInt_boundOffset :
    (pagination.boundOffset config).toInt =
      min (((pagination.page.toNat - 1) * (pagination.resolvedLimit config).toNat : Nat) : Int)
        Int64.maxValue.toInt := by
  rw [boundOffset, toInt_clamped, toNat_resolvedOffset, Int64.toInt_maxValue]
  generalize (pagination.page.toNat - 1) * (pagination.resolvedLimit config).toNat = before
  have hsize : UInt64.size = 2 ^ 64 := rfl
  omega

/-- The last of all pages starts past every integer, and the largest one is bound for it. -/
example : boundOffset ⟨18446744073709551615, 1000⟩ .standard = Int64.maxValue := by
  decide

theorem one_le_toInt_boundLimit : 1 ≤ (pagination.boundLimit config).toInt := by
  have hlimit := pagination.toNat_resolvedLimit_pos config
  rw [toInt_boundLimit, Int64.toInt_maxValue]
  omega

theorem toInt_boundOffset_nonneg : 0 ≤ (pagination.boundOffset config).toInt := by
  rw [toInt_boundOffset, Int64.toInt_maxValue]
  omega

end Bound

variable {pagination : Pagination} {config : Config}

theorem resolvedOffset_eq_zero (hpage : pagination.page ≤ 1) :
    pagination.resolvedOffset config = 0 := by
  have hbefore : pagination.page.toNat - 1 = 0 :=
    Nat.sub_eq_zero_of_le (UInt64.le_iff_toNat_le.mp hpage)
  rw [← UInt64.toNat_inj, toNat_resolvedOffset, hbefore, Nat.zero_mul]
  rfl

theorem resolvedOffset_le {later : UInt64} (hlater : pagination.page ≤ later) :
    pagination.resolvedOffset config ≤ (pagination.onPage later).resolvedOffset config := by
  have hbefore : pagination.page.toNat - 1 ≤ later.toNat - 1 :=
    Nat.sub_le_sub_right (UInt64.le_iff_toNat_le.mp hlater) 1
  have hproduct := Nat.mul_le_mul_right (pagination.resolvedLimit config).toNat hbefore
  rw [UInt64.le_iff_toNat_le, toNat_resolvedOffset, toNat_resolvedOffset, resolvedLimit_onPage]
  exact Nat.le_min.mpr ⟨Nat.le_trans (Nat.min_le_left _ _) hproduct, Nat.min_le_right _ _⟩

/-- A page that ends below the largest integer is bound exactly. -/
theorem toInt_bound_of_le {count : Nat} (hpage : pagination.page.toNat = count + 1)
    (hend : (((count + 1) * (pagination.resolvedLimit config).toNat : Nat) : Int) ≤
      Int64.maxValue.toInt) :
    (pagination.boundLimit config).toInt = (pagination.resolvedLimit config).toNat ∧
      (pagination.boundOffset config).toInt =
        (count * (pagination.resolvedLimit config).toNat : Nat) := by
  rw [Nat.succ_mul] at hend
  rw [toInt_boundLimit, toInt_boundOffset, hpage, Nat.add_sub_cancel]
  constructor <;> omega

/-- The next page starts where a page ends. -/
theorem toInt_boundOffset_succ (hpage : 1 ≤ pagination.page)
    (hend : ((pagination.page.toNat * (pagination.resolvedLimit config).toNat : Nat) : Int) ≤
      Int64.maxValue.toInt) :
    ((pagination.onPage (pagination.page + 1)).boundOffset config).toInt =
      (pagination.boundOffset config).toInt + (pagination.boundLimit config).toInt := by
  obtain ⟨count, hcount⟩ : ∃ count, pagination.page.toNat = count + 1 :=
    Nat.exists_eq_succ_of_ne_zero (Nat.ne_of_gt (UInt64.le_iff_toNat_le.mp hpage))
  have hbound := toInt_bound_of_le hcount (hcount ▸ hend)
  have hle := Nat.le_mul_of_pos_right pagination.page.toNat
    (pagination.toNat_resolvedLimit_pos config)
  -- No page that ends below the largest integer is the last one that can be counted.
  have hsucc : (pagination.onPage (pagination.page + 1)).page.toNat = count + 1 + 1 := by
    rw [Int64.toInt_maxValue] at hend
    rw [onPage, UInt64.toNat_add, UInt64.toNat_one]
    omega
  rw [hbound.1, hbound.2, toInt_boundOffset, hsucc, Nat.add_sub_cancel, resolvedLimit_onPage,
    ← hcount, Int.min_eq_left hend, hcount, Nat.succ_mul, Int.natCast_add]

/-- The first pages of a result give its first rows, each of them once and in order. -/
theorem flatMap_rowsOf {α : Type} (rows : List α) (count : Nat)
    (hend : ((count * (pagination.resolvedLimit config).toNat : Nat) : Int) ≤
      Int64.maxValue.toInt) :
    (List.range count).flatMap
        (fun before => (pagination.onPage (UInt64.ofNat (before + 1))).rowsOf config rows) =
      rows.take (count * (pagination.resolvedLimit config).toNat) := by
  induction count with
  | zero => simp
  | succ count ih =>
      have hbefore : count * (pagination.resolvedLimit config).toNat ≤
          (count + 1) * (pagination.resolvedLimit config).toNat :=
        Nat.mul_le_mul_right _ (Nat.le_succ count)
      have hle := Nat.le_mul_of_pos_right (count + 1) (pagination.toNat_resolvedLimit_pos config)
      have hpage : (pagination.onPage (UInt64.ofNat (count + 1))).page.toNat = count + 1 := by
        rw [Int64.toInt_maxValue] at hend
        apply UInt64.toNat_ofNat_of_lt'
        rw [show UInt64.size = 2 ^ 64 from rfl]
        omega
      obtain ⟨hlimit, hoffset⟩ := toInt_bound_of_le hpage hend
      rw [List.range_succ, List.flatMap_append, List.flatMap_singleton, ih (by omega), rowsOf,
        hlimit, hoffset, Int.toNat_natCast, Int.toNat_natCast, resolvedLimit_onPage, Nat.succ_mul,
        List.take_add]

end Pagination

/-- A query binds a limit and an offset, after all its other values. -/
structure Query.BindsPage (query : Query) (rows before : Int64) : Prop where
  limit : query.select.limit = some (.value (.int rows))
  offset : query.select.offset = some (.value (.int before))
  params : ∃ others, query.params = others ++ [.int rows, .int before]

theorem Query.bindsPage_of_pagination {schema : Schema} {request : Request} {config : Config}
    {dialect : Dialect} {query : Query} {pagination : Pagination}
    (hpage : request.pagination = some pagination)
    (hquery : ofRequest schema request config dialect = .ok query) :
    query.BindsPage (pagination.boundLimit config) (pagination.boundOffset config) := by
  obtain ⟨predicate, -, rfl⟩ := exists_statement hquery
  refine ⟨?_, ?_, ?_⟩
  · simp only [Schema.statement, hpage]
    rfl
  · simp only [Schema.statement, hpage]
    rfl
  · rw [params, Select.params_parts, Schema.pageTemplate_statement, Template.params_append, hpage,
      ← List.append_assoc]
    exact ⟨_, rfl⟩

/-- A page has at least one row and no more than the settings allow; it starts at the front of the
result when it is the first one, and never before the pages before it.  A query binds its limit and
its offset as they are, or the largest integer for those past it.  Where a page ends below that,
the next one starts at its end, and the pages up to it are the first rows of the result. -/
theorem Query.bindsPage_of_ofRequest (config : Config) (pagination : Pagination) :
    (1 ≤ pagination.resolvedLimit config ∧
      pagination.resolvedLimit config ≤ max 1 config.maxLimit) ∧
    (pagination.page ≤ 1 → pagination.resolvedOffset config = 0) ∧
    (∀ later, pagination.page ≤ later →
      pagination.resolvedOffset config ≤ (pagination.onPage later).resolvedOffset config) ∧
    (∀ (schema : Schema) (request : Request) (dialect : Dialect) (query : Query),
      request.pagination = some pagination →
      ofRequest schema request config dialect = .ok query →
        query.BindsPage (pagination.boundLimit config) (pagination.boundOffset config)) ∧
    (1 ≤ (pagination.boundLimit config).toInt ∧
      (pagination.boundLimit config).toInt =
        min ((pagination.resolvedLimit config).toNat : Int) Int64.maxValue.toInt) ∧
    (0 ≤ (pagination.boundOffset config).toInt ∧
      (pagination.boundOffset config).toInt =
        min (((pagination.page.toNat - 1) * (pagination.resolvedLimit config).toNat : Nat) : Int)
          Int64.maxValue.toInt) ∧
    (1 ≤ pagination.page →
      ((pagination.page.toNat * (pagination.resolvedLimit config).toNat : Nat) : Int) ≤
        Int64.maxValue.toInt →
      ((pagination.onPage (pagination.page + 1)).boundOffset config).toInt =
        (pagination.boundOffset config).toInt + (pagination.boundLimit config).toInt ∧
      ∀ (α : Type) (rows : List α),
        (List.range pagination.page.toNat).flatMap
            (fun before => (pagination.onPage (UInt64.ofNat (before + 1))).rowsOf config rows) =
          rows.take (pagination.page.toNat * (pagination.resolvedLimit config).toNat)) := by
  refine ⟨⟨pagination.one_le_resolvedLimit config, pagination.resolvedLimit_le config⟩,
    Pagination.resolvedOffset_eq_zero, ?_, ?_, ?_, ?_, ?_⟩
  · exact fun later hlater => Pagination.resolvedOffset_le hlater
  · exact fun schema request dialect query hpage hquery => bindsPage_of_pagination hpage hquery
  · exact ⟨pagination.one_le_toInt_boundLimit config, pagination.toInt_boundLimit config⟩
  · exact ⟨pagination.toInt_boundOffset_nonneg config, pagination.toInt_boundOffset config⟩
  · intro hpage hend
    refine ⟨Pagination.toInt_boundOffset_succ hpage hend, fun α rows => ?_⟩
    exact Pagination.flatMap_rowsOf rows pagination.page.toNat hend

namespace Paging

/-- Users with a name. -/
def users : Schema :=
  (Schema.ofTable "users").withField "name" (Field.ofColumn "name" "string").searched

/-- The third page of ten users each. -/
def thirdPage : Request :=
  (Request.empty.addFilter "name" "an").withPage 3 10

/-- The third page starts after twenty rows and the fourth after thirty, and the first three are
the first thirty rows of the result. -/
theorem bindsPage_of_thirdPage :
    (∃ query, Query.ofRequest users thirdPage .standard .postgres = .ok query ∧
      query.BindsPage 10 20) ∧
    ((Pagination.mk 4 10).boundOffset .standard).toInt = 20 + 10 ∧
    (∀ rows : List Nat, (List.range 3).flatMap (fun before =>
      (Pagination.mk (UInt64.ofNat (before + 1)) 10).rowsOf .standard rows) = rows.take 30) ∧
    (Pagination.mk 3 10).resolvedOffset .standard ≤ (Pagination.mk 4 10).resolvedOffset .standard ∧
    (Pagination.mk 1 10).resolvedOffset .standard = 0 := by
  obtain ⟨-, -, hmono, hbinds, -, -, hnext⟩ := Query.bindsPage_of_ofRequest .standard ⟨3, 10⟩
  obtain ⟨hsucc, hrows⟩ := hnext (by decide) (by decide)
  refine ⟨⟨_, rfl, hbinds users thirdPage .postgres _ rfl rfl⟩, hsucc, hrows Nat,
    hmono 4 (by decide), ?_⟩
  exact (Query.bindsPage_of_ofRequest .standard ⟨1, 10⟩).2.1 (by decide)

end Paging

end FilterSql
