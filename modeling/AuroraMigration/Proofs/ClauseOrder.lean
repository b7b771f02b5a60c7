import AuroraMigration.Proofs.Accounting

/-!
# The order of clauses

Which clauses of an altered table stay depends on the clauses together, not on
their order: a constraint that is added before it is dropped is taken out like
one that is added after. What is counted and listed is the same too, and what is
left keeps the order in which it is written.
-/

namespace AuroraMigration

namespace AlterTable

/-- The statement with its clauses written in another order. -/
def withClauses (alter : AlterTable) (clauses : List Clause) : AlterTable :=
  { alter with clauses }

variable {alter : AlterTable} {clauses : List Clause}

theorem stays_perm (h : clauses.Perm alter.clauses) (clause : Clause) :
    (alter.withClauses clauses).Stays clause ↔ alter.Stays clause := by
  have hdrops : ∀ name, (alter.withClauses clauses).Drops name ↔ alter.Drops name := by
    intro name
    unfold Drops
    exact exists_congr fun clause => and_congr_left fun _ => h.mem_iff
  constructor
  · intro hstays
    exact ⟨hstays.dropsNone, hstays.addsNoKey, fun name hname hdropped =>
      hstays.unpaired name hname ((hdrops name).2 hdropped)⟩
  · intro hstays
    exact ⟨hstays.dropsNone, hstays.addsNoKey, fun name hname hdropped =>
      hstays.unpaired name hname ((hdrops name).1 hdropped)⟩

/-- The clauses that stay are those of the statement, in the other order. -/
theorem survivors_perm (h : clauses.Perm alter.clauses) :
    (alter.withClauses clauses).survivors = clauses.filter (alter.Stays ·) := by
  rw [survivors_eq]
  apply List.filter_congr
  intro clause _
  simp only [stays_perm h]

theorem foreignKeysRemoved_perm (h : clauses.Perm alter.clauses) :
    (alter.withClauses clauses).foreignKeysRemoved = alter.foreignKeysRemoved := by
  have hadded : (alter.withClauses clauses).addedKeys = alter.addedKeys :=
    List.toFinset_eq_of_perm _ _ (h.filterMap _)
  have hdropped : (alter.withClauses clauses).droppedKeys = alter.droppedKeys :=
    List.toFinset_eq_of_perm _ _ (h.filterMap _)
  rw [foreignKeysRemoved_eq, foreignKeysRemoved_eq, keyCount, keyCount, hadded, hdropped]
  exact congrArg _ (h.countP_eq _)

theorem unsupported_perm (h : clauses.Perm alter.clauses) :
    (alter.withClauses clauses).unsupported.Perm alter.unsupported :=
  h.filterMap _

end AlterTable

/--
The order of the clauses of an altered table does not matter to what is taken
out of it.

Written in another order, the statement keeps the clauses that stay in it as it
is, in their new order; it is taken out whole in both cases or in neither, as
many foreign keys are counted, and the same entries are listed.
-/
theorem clause_order_immaterial {alter : AlterTable} {clauses : List Clause}
    (h : clauses.Perm alter.clauses) (body body' : Text) :
    (alter.withClauses clauses).survivors = clauses.filter (alter.Stays ·) ∧
      (alter.withClauses clauses).survivors.Perm alter.survivors ∧
      ((alter.withClauses clauses).remaining? body' = none ↔ alter.remaining? body = none) ∧
      (alter.withClauses clauses).foreignKeysRemoved = alter.foreignKeysRemoved ∧
      (alter.withClauses clauses).unsupported.Perm alter.unsupported := by
  have hsurvivors := AlterTable.survivors_perm h
  have hperm : (alter.withClauses clauses).survivors.Perm alter.survivors := by
    rw [hsurvivors, survivors_eq]
    exact h.filter _
  refine ⟨hsurvivors, hperm, ?_, AlterTable.foreignKeysRemoved_perm h,
    AlterTable.unsupported_perm h⟩
  rw [remaining?_eq_none_iff, remaining?_eq_none_iff]
  constructor
  · exact fun hnil => (hnil ▸ hperm).symm.eq_nil
  · exact fun hnil => (hnil ▸ hperm).eq_nil

/-- The clause that adds `K` goes although the clause that drops it comes later. -/
theorem clause_order_immaterial_added_first :
    (AlterTable.withClauses
        { table := "t".toList
          head := "ALTER TABLE t".toList
          clauses := ["DROP CONSTRAINT K", "ADD CONSTRAINT \"k\" CHECK (c)", "ADD d INT"].map
            (Clause.ofText ·.toList) }
        (["ADD d INT", "ADD CONSTRAINT \"k\" CHECK (c)", "DROP CONSTRAINT K"].map
          (Clause.ofText ·.toList))).survivors =
      [Clause.ofText "ADD d INT".toList] := by
  rw [(clause_order_immaterial (by decide +kernel) [] []).1]
  decide +kernel

end AuroraMigration
