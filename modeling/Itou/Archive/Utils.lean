import Itou.Relations

/-!
# The users that can be deleted

`exclude_users_with_blocking_relations` looks for rows that refer to the user itself. The deletion also reaches the rows
that go with the user, and other rows may refer to these.
-/

namespace Itou.Archive

open Itou.Lib.Deletions Itou.Relations

/-- `get_user_reverse_relations`: the relations to users, of all models. -/
def getUserReverseRelations (isCascade : Bool) (field : Relation) : Bool :=
  decide (field.foreignKey.target = .user) && isCascade == decide (field.foreignKey.onDelete = .cascade)

/-- The users of `qs` that are kept. `_base_manager` hides no row. -/
def excludeUsersWithBlockingRelations (db : Database) (qs : List Nat) : List Nat :=
  qs.filter fun pk => !db.rows.any fun row => row.links.any fun link =>
    getUserReverseRelations false link.1 && link.2 == pk

/-- The deletion of `anonymize_and_delete_professionals`. -/
def deleteUsers (db : Database) (users : List Nat) : Except DatabaseError Database :=
  db.delete (users.map fun pk => (.user, pk))

/-- The relations to the eligibility diagnoses of a job seeker. -/
def diagnosisRelations : List (Relation × Relation) :=
  [(.approvalEligibilityDiagnosis, .eligibilityDiagnosisJobSeeker),
    (.jobApplicationEligibilityDiagnosis, .eligibilityDiagnosisJobSeeker),
    (.jobApplicationGeiqEligibilityDiagnosis, .geiqEligibilityDiagnosisJobSeeker)]

/-- No approval and no job application refers to an eligibility diagnosis of the user. -/
def DiagnosesAreUnused (db : Database) (user : Nat) : Prop :=
  ∀ fields ∈ diagnosisRelations, ∀ diagnosis ∈ db.rows, (fields.2, user) ∈ diagnosis.links →
    ∀ row ∈ db.rows, (fields.1, diagnosis.pk) ∉ row.links

instance (db : Database) (user : Nat) : Decidable (DiagnosesAreUnused db user) :=
  inferInstanceAs (Decidable (∀ fields ∈ diagnosisRelations, _))

/-! ## What a deletion of users reaches -/

variable {db : Database} {qs users : List Nat} {row : Row} {k : Model × Nat} {pk : Nat}
  {fields : Relation × Relation}

end Itou.Archive
