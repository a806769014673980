import Mathlib.Algebra.BigOperators.Group.Finset.Basic
import Mathlib.Algebra.GroupWithZero.Nat
import Mathlib.Data.String.Basic
import EventRelay.Request.Metrics

/-!
# The total latency of a request

The stages are kept in the order of their names, each name once. So the sum that stops at 64 bits,
taken stage by stage, is the exact sum over the names, cut at 64 bits. It depends on what is kept
for each name alone, and not on when it was recorded.
-/

namespace EventRelay.Request.Latency

variable {name other : String} {value : Nat} {stages : List (String × Nat)} {l : Latency}

/-! ## Stages in order -/

/-- The names are in order, so that each is there once. -/
def Ordered (stages : List (String × Nat)) : Prop := (stages.map Prod.fst).Pairwise (· < ·)

/-- A name that is set is there, besides those that were there before. -/
theorem mem_names_insert :
    other ∈ (insert name value stages).map Prod.fst ↔
      other = name ∨ other ∈ stages.map Prod.fst := by
  induction stages with
  | nil => simp [insert]
  | cons first rest ih =>
    obtain ⟨n, v⟩ := first
    rw [insert]
    split
    · next same => simp [same]
    · split
      · simp
      · rw [List.map_cons, List.mem_cons, ih, List.map_cons, List.mem_cons, or_left_comm]

/-- Setting a name keeps the order. -/
theorem ordered_insert (ordered : Ordered stages) : Ordered (insert name value stages) := by
  induction stages with
  | nil => simp [insert, Ordered]
  | cons first rest ih =>
    obtain ⟨n, v⟩ := first
    obtain ⟨least, rest_ordered⟩ := List.pairwise_cons.mp ordered
    rw [insert]
    split
    · next same =>
      subst same
      exact ordered
    · next other =>
      split
      · next before =>
        refine List.pairwise_cons.mpr ⟨fun m member => ?_, ordered⟩
        rcases List.mem_cons.mp member with rfl | later
        · exact before
        · exact lt_trans before (least m later)
      · next after =>
        refine List.pairwise_cons.mpr ⟨fun m member => ?_, ih rest_ordered⟩
        rcases mem_names_insert.mp member with rfl | later
        · exact lt_of_le_of_ne (not_lt.mp after) (Ne.symm other)
        · exact least m later

/-- What is kept for the other names does not change. -/
theorem lookup_insert_of_ne (different : other ≠ name) :
    (insert name value stages).lookup other = stages.lookup other := by
  have passed (v : Nat) (rest : List (String × Nat)) :
      ((name, v) :: rest).lookup other = rest.lookup other := by
    rw [List.lookup_cons, beq_false_of_ne different]
  induction stages with
  | nil => exact passed value []
  | cons first rest ih =>
    obtain ⟨n, v⟩ := first
    rw [insert]
    split
    · next same =>
      subst same
      rw [passed, passed]
    · split
      · exact passed value _
      · rw [List.lookup_cons, ih, List.lookup_cons]

/-- Exactly the names in the list are found. -/
theorem mem_names_iff : name ∈ stages.map Prod.fst ↔ (stages.lookup name).isSome = true := by
  rw [List.lookup_isSome_iff, List.mem_map]
  constructor
  · rintro ⟨stage, member, rfl⟩
    exact ⟨stage, member, beq_self_eq_true _⟩
  · rintro ⟨stage, member, same⟩
    exact ⟨stage, member, (eq_of_beq same).symm⟩

/-! ## Sums -/

/-- Adding stage by stage and stopping at the bound comes to the exact sum, cut at the bound. -/
theorem foldl_addBounded (values : List Nat) (start : Nat) :
    values.foldl addBounded (min Text.maxU64 start) = min Text.maxU64 (start + values.sum) := by
  induction values generalizing start with
  | nil => rfl
  | cons v rest ih =>
    have next : addBounded (min Text.maxU64 start) v = min Text.maxU64 (start + v) := by
      rw [addBounded]
      omega
    rw [List.foldl_cons, next, ih, List.sum_cons, Nat.add_assoc]

/-- The values in a list of stages add up to the sum over their names. -/
theorem sum_values (ordered : Ordered stages) :
    (stages.map Prod.snd).sum =
      ∑ n ∈ (stages.map Prod.fst).toFinset, (stages.lookup n).getD 0 := by
  induction stages with
  | nil => rfl
  | cons first rest ih =>
    obtain ⟨n, v⟩ := first
    obtain ⟨least, rest_ordered⟩ := List.pairwise_cons.mp ordered
    have fresh : n ∉ (rest.map Prod.fst).toFinset := fun member =>
      lt_irrefl n (least n (List.mem_toFinset.mp member))
    have others : ∀ m ∈ (rest.map Prod.fst).toFinset,
        (((n, v) :: rest).lookup m).getD 0 = (rest.lookup m).getD 0 := by
      intro m member
      have different : m ≠ n := fun same => fresh (same ▸ member)
      rw [List.lookup_cons, beq_false_of_ne different]
    rw [List.map_cons, List.sum_cons, ih rest_ordered, List.map_cons, List.toFinset_cons,
      Finset.sum_insert fresh, Finset.sum_congr rfl others]
    simp

/-- Without a total of its own the total is the sum over the stages, cut at 64 bits. -/
theorem total_eq_sum (ordered : Ordered l.stages) (own : l.explicit = none) {names : Finset String}
    (recorded : ∀ n, n ∈ names ↔ (l.stage? n).isSome = true) :
    l.total = min Text.maxU64 (∑ n ∈ names, (l.stage? n).getD 0) := by
  have same : (l.stages.map Prod.fst).toFinset = names := by
    ext n
    rw [List.mem_toFinset, mem_names_iff, recorded, stage?]
  calc l.total = (l.stages.map Prod.snd).foldl addBounded (min Text.maxU64 0) := by
        rw [total, own, Option.getD_none, Nat.min_zero]
    _ = min Text.maxU64 (l.stages.map Prod.snd).sum := by rw [foldl_addBounded, Nat.zero_add]
    _ = min Text.maxU64 (∑ n ∈ names, (l.stage? n).getD 0) := by
        rw [sum_values ordered, same]
        rfl

end EventRelay.Request.Latency
