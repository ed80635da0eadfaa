import Itou.Lib.Queries
import Itou.Lib.Tables
import Mathlib.Data.Prod.Lex

/-!
# The allowance of a GEIQ diagnosis

`geiq_allowance_amount`, which counts criteria, and the filter of `with_jobseeker_valid_geiq_eligibility_diagnosis_id`,
which aggregates joined rows.

The counters of the allowance and the aggregate of the filter count the criteria that are selected.
-/

namespace Itou.Eligibility.Allowance

open Itou.Lib

/-! ## Tables -/

/-- `AdministrativeCriteriaAnnex`. -/
inductive AdministrativeCriteriaAnnex where
  | noAnnex
  | annex1
  | annex2
  | bothAnnexes
  deriving DecidableEq

/-- `AdministrativeCriteriaLevel`. -/
inductive AdministrativeCriteriaLevel where
  | level1
  | level2
  deriving DecidableEq

/-- `AuthorKind`. -/
inductive AuthorKind where
  | prescriber
  | employer
  | geiq
  deriving DecidableEq

/-- `administrativecriteria_level_annex_consistency`. -/
def levelAnnexConsistency (level : Option AdministrativeCriteriaLevel) (annex : AdministrativeCriteriaAnnex) : Bool :=
  (level.isNone && annex ∈ [.noAnnex, .annex1]) || (level.isSome && annex ∈ [.annex2, .bothAnnexes])

structure GEIQAdministrativeCriteria where
  level : Option AdministrativeCriteriaLevel
  annex : AdministrativeCriteriaAnnex
  uiRank : Nat
  consistency : levelAnnexConsistency level annex = true

structure GEIQSelectedAdministrativeCriteria where
  eligibilityDiagnosis : Nat
  administrativeCriteria : Nat
  deriving DecidableEq

structure GEIQEligibilityDiagnosis where
  pk : Nat
  authorKind : AuthorKind
  deriving DecidableEq

/-- The criteria, and those that are selected. -/
structure Db where
  criteria : Table GEIQAdministrativeCriteria
  selected : List GEIQSelectedAdministrativeCriteria
  selected_fk : ∀ row ∈ selected, (criteria.lookup row.administrativeCriteria).isSome
  selected_unique : selected.Nodup

namespace Db

variable (db : Db) (d : GEIQEligibilityDiagnosis)

/-! ## `geiq_allowance_amount` -/

/-- `Counter`. -/
def counter {κ : Type} [DecidableEq κ] (l : List κ) : κ → Nat := l.count

def geiqAllowanceAmount (isAuthorizedPrescriber : Bool) (administrativeCriteria : List GEIQAdministrativeCriteria) :
    Nat :=
  if isAuthorizedPrescriber then 1400
  else
    let annexCnt := counter (administrativeCriteria.map (·.annex))
    let levelCnt := counter (administrativeCriteria.filterMap (·.level))
    if 0 < levelCnt .level1 ∨ 1 < levelCnt .level2 then 1400
    else if 0 < annexCnt .annex1 + annexCnt .bothAnnexes then 814
    else 0

/-- `GEIQAdministrativeCriteria.Meta.ordering`. No level comes last. -/
def ordering (c : GEIQAdministrativeCriteria) : Nat ×ₗ Nat :=
  toLex (match c.level with
    | some .level1 => 1
    | some .level2 => 2
    | none => 3, c.uiRank)

/-- `self.administrative_criteria.all()`. -/
def administrativeCriteria : List GEIQAdministrativeCriteria :=
  orderBy ordering ((db.selected.filter fun row => row.eligibilityDiagnosis = d.pk).filterMap fun row =>
    db.criteria.lookup row.administrativeCriteria)

/-- `GEIQEligibilityDiagnosis.allowance_amount`. -/
def allowanceAmount : Nat := geiqAllowanceAmount (d.authorKind = .prescriber) (db.administrativeCriteria d)

/-! ## The filter -/

/-- `=` in SQL. A comparison with `NULL` is neither true nor false. -/
def sqlEq {α : Type} [DecidableEq α] (a b : Option α) : Option Bool := do return (← a) = (← b)

/-- The diagnosis with its selected criteria, by two left joins. Without one there is a row of `NULL`. -/
def joined : List (Option GEIQSelectedAdministrativeCriteria × Option GEIQAdministrativeCriteria) :=
  match db.selected.filter fun row => row.eligibilityDiagnosis = d.pk with
  | [] => [(none, none)]
  | rows => rows.map fun row => (some row, db.criteria.lookup row.administrativeCriteria)

/-- `level_two_criteria_count`: both paths of the aggregate go through the same join. -/
def levelTwoCriteriaCount : Nat :=
  (db.joined d).countP fun row => row.1.isSome && sqlEq (row.2.bind (·.level)) (some .level2) = some true

/-- `Exists` on the selected criteria of the diagnosis, with a condition on the criterion. -/
def existsSelected (condition : GEIQAdministrativeCriteria → Option Bool) : Bool :=
  db.selected.any fun row =>
    row.eligibilityDiagnosis = d.pk &&
      (db.criteria.lookup row.administrativeCriteria).any fun c => condition c = some true

/-- The filter of `with_jobseeker_valid_geiq_eligibility_diagnosis_id`, when it is not for a prescriber. -/
def passesFilter : Bool :=
  d.authorKind = .prescriber ||
    db.existsSelected d (fun c => sqlEq c.level (some .level1)) ||
    1 < db.levelTwoCriteriaCount d ||
    db.existsSelected d fun c => some (c.annex ∈ [.annex1, .bothAnnexes])

end Db

/-! ## The same counts on both sides -/

namespace Db

variable {db : Db} {d : GEIQEligibilityDiagnosis}

/-- The criteria that are selected, in the order of the join. -/
def selectedCriteria (db : Db) (d : GEIQEligibilityDiagnosis) : List GEIQAdministrativeCriteria :=
  (db.selected.filter fun row => row.eligibilityDiagnosis = d.pk).filterMap fun row =>
    db.criteria.lookup row.administrativeCriteria

theorem administrativeCriteria_perm : (db.administrativeCriteria d).Perm (db.selectedCriteria d) :=
  List.perm_insertionSort _ _

theorem sqlEq_eq_true {α : Type} [DecidableEq α] {a : Option α} {b : α} : sqlEq a (some b) = some true ↔ a = some b := by
  cases a <;> simp [sqlEq]

/-! ## Counters -/

theorem counter_level (level : AdministrativeCriteriaLevel) :
    counter ((db.administrativeCriteria d).filterMap (·.level)) level =
      (db.selectedCriteria d).countP fun c => c.level = some level := by
  rw [counter, List.count, (administrativeCriteria_perm.filterMap _).countP_eq, List.countP_filterMap]
  refine List.countP_congr fun c _ => ?_
  cases c.level <;> simp

theorem counter_annex (annex : AdministrativeCriteriaAnnex) :
    counter ((db.administrativeCriteria d).map (·.annex)) annex =
      (db.selectedCriteria d).countP fun c => c.annex = annex := by
  rw [counter, List.count, (administrativeCriteria_perm.map _).countP_eq, List.countP_map]
  exact List.countP_congr fun c _ => by simp

/-! ## The aggregate -/

theorem levelTwoCriteriaCount_eq :
    db.levelTwoCriteriaCount d = (db.selectedCriteria d).countP fun c => c.level = some .level2 := by
  rw [levelTwoCriteriaCount, joined, selectedCriteria, List.countP_filterMap]
  split
  · rename_i hnil
    rw [hnil]
    rfl
  · rw [List.countP_map]
    refine List.countP_congr fun row _ => ?_
    rw [Function.comp_apply]
    cases db.criteria.lookup row.administrativeCriteria with
    | none => simp [sqlEq]
    | some c => simp [sqlEq_eq_true]

theorem existsSelected_iff {condition : GEIQAdministrativeCriteria → Option Bool} :
    db.existsSelected d condition = true ↔ ∃ c ∈ db.selectedCriteria d, condition c = some true := by
  simp only [existsSelected, selectedCriteria, List.any_eq_true, Bool.and_eq_true, decide_eq_true_eq,
    Option.any_eq_true, List.mem_filterMap, List.mem_filter]
  constructor
  · rintro ⟨row, hrow, hd, c, hc, hcondition⟩
    exact ⟨c, ⟨row, ⟨hrow, hd⟩, hc⟩, hcondition⟩
  · rintro ⟨c, ⟨row, ⟨hrow, hd⟩, hc⟩, hcondition⟩
    exact ⟨row, hrow, hd, c, hc, hcondition⟩

end Db

end Itou.Eligibility.Allowance
