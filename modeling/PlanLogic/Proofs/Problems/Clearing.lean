import PlanLogic.Problem.Basic
import PlanLogic.Proofs.Store.Patterns

/-!
# Clearing a namespace

Clearing deletes what the pattern of the namespace matches.  The keys of the namespace are always among it, but
they need not be all: the pattern also matches every other key that begins in the same way, so the keys of a
namespace whose name goes on after a colon, and, for the namespace `state`, the key that names the active
namespace.
-/

namespace PlanLogic
namespace Problem

/-- What the keys of a namespace begin with. -/
def stemOf (name : String) : String :=
  "plantree:" ++ name ++ ":"

/-- The keys of the state of a problem. -/
def keys (problem : Problem) (database : Database) : List String :=
  [problem.instancesKey database, problem.factsKey database, problem.valuesKey database]

variable {problem : Problem} {database : Database}

theorem keyOf_eq_stemOf_append (name part : String) : keyOf name part = stemOf name ++ part :=
  rfl

/-- Clearing deletes the keys that the pattern of the namespace matches; every other key keeps its value. -/
theorem get?_clear (problem : Problem) (database : Database) (key : String) :
    (problem.clear database).get? key =
      if Store.matchesKey (allKeys (problem.name database)) key then none else database.get? key :=
  Database.get?_deleteMatching database _ key

/-- Nothing is left that begins like the keys of the namespace. -/
theorem get?_clear_stemOf (problem : Problem) (database : Database) (rest : String) :
    (problem.clear database).get? (stemOf (problem.name database) ++ rest) = none := by
  rw [get?_clear, allKeys, keyOf_eq_stemOf_append, Store.matchesKey_append_star, if_pos rfl]

/-- Clearing a namespace also clears those whose names go on after a colon. -/
theorem get?_clear_nested (problem : Problem) (database : Database) (inner part : String) :
    (problem.clear database).get? (keyOf (problem.name database ++ ":" ++ inner) part) = none := by
  have hKey : keyOf (problem.name database ++ ":" ++ inner) part =
      stemOf (problem.name database) ++ (inner ++ ":" ++ part) := by
    simp only [keyOf, stemOf, String.append_assoc]
  rw [hKey, get?_clear_stemOf]

theorem matchesKey_of_mem_keys {key : String} (hKey : key ∈ problem.keys database) :
    Store.matchesKey (allKeys (problem.name database)) key = true := by
  have hOwn (part : String) :
      Store.matchesKey (allKeys (problem.name database)) (keyOf (problem.name database) part) = true :=
    Store.matchesKey_append_star (stemOf (problem.name database)) part
  simp only [keys, List.mem_cons, List.not_mem_nil, or_false] at hKey
  rcases hKey with rfl | rfl | rfl
  · exact hOwn "instances"
  · exact hOwn "predicates"
  · exact hOwn "functions"

/-- The pattern of the namespace matches no key of the database but those of the namespace. -/
def MatchesOnlyKeys (problem : Problem) (database : Database) : Prop :=
  ∀ entry ∈ database, Store.matchesKey (allKeys (problem.name database)) entry.1 = true →
    entry.1 ∈ problem.keys database

/-- If the name has no pattern characters, that is a matter of how the keys begin. -/
theorem matchesOnlyKeys_iff_of_literal
    (hName : Store.starByte ∉ Store.utf8 (stemOf (problem.name database)) ∧
      Store.questionByte ∉ Store.utf8 (stemOf (problem.name database))) :
    problem.MatchesOnlyKeys database ↔
      ∀ entry ∈ database, Store.utf8 (stemOf (problem.name database)) <+: Store.utf8 entry.1 →
        entry.1 ∈ problem.keys database := by
  refine forall₂_congr fun entry _ => imp_congr_left ?_
  rw [allKeys, keyOf_eq_stemOf_append]
  exact Store.matchesKey_append_star_iff hName entry.1

/-- Clearing deletes the keys of the namespace and nothing else exactly if the pattern of the namespace matches
no other key of the database. -/
theorem clear_eq_delete_iff (problem : Problem) (database : Database) :
    problem.clear database = (problem.keys database).foldl Database.delete database ↔
      problem.MatchesOnlyKeys database := by
  rw [Database.foldl_delete, clear, Database.deleteMatching]
  constructor
  · intro hSame entry hEntry hMatches
    refine Decidable.byContradiction fun hOther => ?_
    have hKept : entry ∈ database.filter fun entry => !(problem.keys database).contains entry.1 := by
      rw [List.mem_filter, Bool.not_eq_true', ← Bool.not_eq_true, List.contains_iff_mem]
      exact ⟨hEntry, hOther⟩
    rw [← hSame, List.mem_filter, hMatches] at hKept
    exact Bool.false_ne_true hKept.2
  · intro hOnly
    refine List.filter_congr fun entry hEntry => congrArg (! ·) ?_
    rw [Bool.eq_iff_iff, List.contains_iff_mem]
    exact ⟨hOnly entry hEntry, matchesKey_of_mem_keys⟩

/-- Clearing the active namespace `state` makes another namespace the active one. -/
theorem clear_active_state :
    let database : Database := [(activeKey, .text "state"), ("plantree:state:predicates", .set ["(p a)"])]
    let problem : Problem := ⟨0, none⟩
    activeNamespace database = "state" ∧ activeKey ∉ problem.keys database ∧
      (problem.clear database).get? activeKey = none ∧ activeNamespace (problem.clear database) = "default" ∧
      problem.clear database ≠ (problem.keys database).foldl Database.delete database := by
  intro database problem
  have hGone : (problem.clear database).get? activeKey = none := get?_clear_stemOf problem database "namespace"
  have hOther : activeKey ∉ problem.keys database := by decide
  refine ⟨by decide, hOther, hGone, ?_, ?_⟩
  · rw [activeNamespace, hGone]
    rfl
  · intro hSame
    rw [hSame] at hGone
    exact absurd hGone (by decide)

end Problem
end PlanLogic
