import AuroraMigration.Proofs.ClauseFilter
import AuroraMigration.Proofs.Concatenation
import Mathlib.Data.Finset.Card

/-!
# What a migration reports

The counters, the warning and the list of unsupported statements are said here
by the kinds of the statements alone. Each statement adds its own share, and a
share depends on nothing but the statement's kind; the names of foreign keys
within one statement are counted as a set.
-/

namespace AuroraMigration

/-! ## The kinds of a migration's statements -/

/-- The kinds of the statements of a migration, in order. -/
def statementKinds (sql : Text) : List StatementKind :=
  (statements sql).map fun statement => .ofBody statement.body

/-- The tables that a migration alters, in order. -/
def alteredTables (sql : Text) : List AlterTable :=
  (statementKinds sql).filterMap StatementKind.alter?

/-- Whether a statement builds an index, and not asynchronously. -/
def StatementKind.buildsInPlace : StatementKind → Bool
  | .createIndex _ false => true
  | _ => false

/-- Whether a clause drops a constraint. -/
def ClauseKind.isDrop : ClauseKind → Bool
  | .dropConstraint _ => true
  | _ => false

namespace AlterTable

/-- The names of the foreign keys that are added under a name. -/
def addedKeys (alter : AlterTable) : Finset Text :=
  (alter.clauses.filterMap fun clause =>
    match clause.kind with
    | .addForeignKey (some name) => some name.normal
    | _ => none).toFinset

/-- The names of the dropped constraints that look like foreign keys. -/
def droppedKeys (alter : AlterTable) : Finset Text :=
  (alter.clauses.filterMap fun clause =>
    match clause.kind with
    | .dropConstraint name => if name.looksLikeForeignKey then some name.normal else none
    | _ => none).toFinset

/-- The number of foreign keys in a statement: the distinct names, and the keys without a name. -/
def keyCount (alter : AlterTable) : Nat :=
  (alter.addedKeys ∪ alter.droppedKeys).card +
    alter.clauses.countP (·.kind == .addForeignKey none)

/-- Whether no clause of the statement stays. -/
def Vanishes (alter : AlterTable) : Prop :=
  ∀ clause ∈ alter.clauses, ¬alter.Stays clause

instance (alter : AlterTable) : Decidable alter.Vanishes :=
  inferInstanceAs (Decidable (∀ clause ∈ _, _))

end AlterTable

/-! ## The share of one statement -/

theorem nodup_eraseDups (names : List Text) : names.eraseDups.Nodup := by
  -- what is left behind the first name is shorter, but no tail of the list
  induction hn : names.length using Nat.strongRecOn generalizing names with
  | ind n ih =>
      cases names with
      | nil => exact List.nodup_nil
      | cons name rest =>
          rw [List.eraseDups_cons]
          refine List.nodup_cons.2 ⟨by simp, ih _ ?_ _ rfl⟩
          have hle := List.length_filter_le (fun other => !other == name) rest
          rw [List.length_cons] at hn
          omega

theorem length_eraseDups_eq_card (names : List Text) :
    names.eraseDups.length = names.toFinset.card := by
  rw [← List.toFinset_card_of_nodup (nodup_eraseDups names)]
  congr 1
  ext name
  simp

theorem toFinset_foreignKeyNames (alter : AlterTable) :
    alter.foreignKeyNames.toFinset = alter.addedKeys ∪ alter.droppedKeys := by
  ext name
  simp only [AlterTable.foreignKeyNames, AlterTable.addedKeys, AlterTable.droppedKeys,
    Finset.mem_union, List.mem_toFinset, List.mem_filterMap, ← exists_or, ← and_or_left]
  refine exists_congr fun clause => and_congr_right fun _ => ?_
  cases clause.kind with
  | addForeignKey name => cases name <;> simp
  | _ => simp

theorem foreignKeysRemoved_eq (alter : AlterTable) :
    alter.foreignKeysRemoved = alter.keyCount := by
  rw [AlterTable.foreignKeysRemoved, AlterTable.keyCount, length_eraseDups_eq_card,
    toFinset_foreignKeyNames]
  rfl

theorem unsupported_eq (alter : AlterTable) :
    alter.unsupported = (alter.clauses.filter (·.kind.isDrop)).map fun clause =>
      Text.trim alter.head ++ [' '] ++ trimComments clause.text := by
  rw [AlterTable.unsupported, ← List.filterMap_eq_map, List.filterMap_filter]
  apply List.filterMap_congr
  intro clause _
  cases clause.kind <;> simp [ClauseKind.isDrop]

/-- The share of a statement in each of the reports, by its kind. -/
structure Adaptation.Accounts (adaptation : Adaptation) (kind : StatementKind) : Prop where
  indexes : adaptation.indexesConverted = if kind.buildsInPlace then 1 else 0
  keys : adaptation.foreignKeysRemoved = (kind.alter?.map AlterTable.keyCount).getD 0
  unsupported : adaptation.unsupported = (kind.alter?.map AlterTable.unsupported).getD []
  vanishes : adaptation.body = none ↔ ∃ alter ∈ kind.alter?, alter.Vanishes

theorem accounts_ofBody (body : Text) :
    (Adaptation.ofBody body).Accounts (StatementKind.ofBody body) := by
  have hother : ∀ {kind : StatementKind}, StatementKind.ofBody body = kind →
      kind.buildsInPlace = false → kind.alter? = none →
      Adaptation.ofBody body = { body := some body } → (Adaptation.ofBody body).Accounts kind := by
    intro kind _ hindex halter hbody
    rw [hbody]
    exact ⟨by simp [hindex], by simp [halter], by simp [halter], by simp [halter]⟩
  cases hkind : StatementKind.ofBody body with
  | createTable => exact hother hkind rfl rfl (by simp only [Adaptation.ofBody, hkind])
  | drop => exact hother hkind rfl rfl (by simp only [Adaptation.ofBody, hkind])
  | other => exact hother hkind rfl rfl (by simp only [Adaptation.ofBody, hkind])
  | createIndex unique async =>
      cases async with
      | true => exact hother hkind rfl rfl (by simp only [Adaptation.ofBody, hkind])
      | false =>
          obtain ⟨n, hn, hasync⟩ := indexEnd?_of_ofBody hkind
          obtain ⟨xs, zs, ys, word, -, hconverted⟩ := asyncIndex?_spec hn hasync
          simp only [Adaptation.ofBody, hkind, hconverted]
          exact ⟨rfl, rfl, rfl, by simp [StatementKind.alter?]⟩
  | alterTable alter =>
      have hvanishes := adaptation_eq_none_iff hkind
      rw [survivors_eq_nil_iff] at hvanishes
      refine ⟨?_, ?_, ?_, ?_⟩
      · simp only [Adaptation.ofBody, hkind]
        rfl
      · simp only [Adaptation.ofBody, hkind, foreignKeysRemoved_eq]
        rfl
      · simp only [Adaptation.ofBody, hkind]
        rfl
      · rw [hvanishes]
        simp [StatementKind.alter?, AlterTable.Vanishes]

/-! ## All statements together -/

/-- The shares of statements add up to what is said by the list of their kinds. -/
structure BodiesAccount (bodies : List Text) (kinds : List StatementKind) : Prop where
  indexes : (bodies.map fun body => (Adaptation.ofBody body).indexesConverted).sum =
    kinds.countP StatementKind.buildsInPlace
  keys : (bodies.map fun body => (Adaptation.ofBody body).foreignKeysRemoved).sum =
    ((kinds.filterMap StatementKind.alter?).map AlterTable.keyCount).sum
  unsupported : (bodies.flatMap fun body => (Adaptation.ofBody body).unsupported) =
    (kinds.filterMap StatementKind.alter?).flatMap AlterTable.unsupported
  left : (bodies.countP fun body => (Adaptation.ofBody body).body.isSome) +
    (kinds.filterMap StatementKind.alter?).countP (·.Vanishes) = bodies.length

theorem bodiesAccount (bodies : List Text) :
    BodiesAccount bodies (bodies.map StatementKind.ofBody) := by
  induction bodies with
  | nil => exact ⟨rfl, rfl, rfl, rfl⟩
  | cons body rest ih =>
      have hbody := accounts_ofBody body
      constructor
      · rw [List.map_cons, List.sum_cons, ih.indexes, hbody.indexes, List.map_cons,
          List.countP_cons, Nat.add_comm]
      · rw [List.map_cons, List.sum_cons, ih.keys, hbody.keys, List.map_cons, List.filterMap_cons]
        cases (StatementKind.ofBody body).alter? <;> simp
      · rw [List.flatMap_cons, ih.unsupported, hbody.unsupported, List.map_cons,
          List.filterMap_cons]
        cases (StatementKind.ofBody body).alter? <;> simp
      · have hvanishes := hbody.vanishes
        have hrest := ih.left
        rw [List.countP_cons, List.map_cons, List.filterMap_cons, List.length_cons]
        cases halter : (StatementKind.ofBody body).alter? with
        | none =>
            have hsome : (Adaptation.ofBody body).body.isSome = true := by
              rw [halter] at hvanishes
              simpa [Option.isSome_iff_ne_none] using hvanishes
            simp only [hsome, if_true]
            omega
        | some alter =>
            have hiff : (Adaptation.ofBody body).body = none ↔ alter.Vanishes := by
              rw [halter] at hvanishes
              simpa using hvanishes
            rw [List.countP_cons]
            by_cases hnone : alter.Vanishes
            · simp only [hiff.2 hnone, hnone, decide_true, Option.isSome_none, Bool.false_eq_true,
                if_false, if_true]
              omega
            · have hsome : (Adaptation.ofBody body).body.isSome = true := by
                rw [Option.isSome_iff_ne_none]
                exact fun hbodyNone => hnone (hiff.1 hbodyNone)
              simp only [hsome, hnone, decide_false, Bool.false_eq_true, if_false, if_true]
              omega

/-- The counters, the warnings and the unsupported statements of a migration are exact. -/
theorem transform_accounts (sql : Text) (options : ScriptOptions) :
    (Migration.transform sql options).stats.indexes =
        (statementKinds sql).countP StatementKind.buildsInPlace ∧
      (Migration.transform sql options).unsupported =
        (alteredTables sql).flatMap (fun alter =>
          (alter.clauses.filter (·.kind.isDrop)).map fun clause =>
            Text.trim alter.head ++ [' '] ++ trimComments clause.text) ∧
      (Migration.transform sql options).stats.statements +
          (alteredTables sql).countP (·.Vanishes) = (statements sql).length ∧
      (Migration.transform sql options).stats.foreignKeys =
        ((alteredTables sql).map AlterTable.keyCount).sum ∧
      (Migration.transform sql options).warnings =
        if 0 < ((alteredTables sql).map AlterTable.keyCount).sum then [foreignKeyWarning]
        else [] := by
  have hkinds : statementKinds sql = ((statements sql).map Statement.body).map
      StatementKind.ofBody := by
    rw [List.map_map]
    rfl
  have hall := bodiesAccount ((statements sql).map Statement.body)
  rw [← hkinds] at hall
  have hkeys : (Migration.transform sql options).stats.foreignKeys =
      ((alteredTables sql).map AlterTable.keyCount).sum := by
    rw [transform_stats]
    exact hall.keys
  refine ⟨?_, ?_, ?_, hkeys, ?_⟩
  · rw [transform_stats]
    exact hall.indexes
  · rw [transform_unsupported, hall.unsupported]
    exact List.flatMap_congr fun alter _ => unsupported_eq alter
  · have hleft := hall.left
    rw [List.length_map] at hleft
    rw [transform_statements, emitted_length]
    exact hleft
  · rw [transform_warnings_eq, hkeys]

/-- A foreign key that is added and dropped under one name is counted once. -/
example :
    (Migration.transform ("ALTER TABLE t ADD CONSTRAINT t_a_fkey FOREIGN KEY (a) REFERENCES u, " ++
        "DROP CONSTRAINT T_A_FKEY; SELECT 1").toList {}).stats =
      { statements := 1, indexes := 0, foreignKeys := 1 } := by
  decide +kernel

end AuroraMigration
