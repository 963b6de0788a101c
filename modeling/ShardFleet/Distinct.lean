/-! Lists without repetitions: of equal members the first stays. -/

namespace ShardFleet

variable {α : Type} [DecidableEq α]

/-- The members of a list, each at its first place only. -/
def distinct : List α → List α
  | [] => []
  | a :: rest => a :: (distinct rest).filter (· ≠ a)

@[simp] theorem mem_distinct {a : α} {list : List α} : a ∈ distinct list ↔ a ∈ list := by
  induction list with
  | nil => simp [distinct]
  | cons b rest ih =>
      simp only [distinct, List.mem_cons, List.mem_filter, ih, ne_eq, decide_not,
        Bool.not_eq_eq_eq_not, Bool.not_true, decide_eq_false_iff_not]
      exact ⟨fun h => h.imp id And.left, fun h => by
        by_cases same : a = b
        · exact .inl same
        · exact .inr ⟨h.resolve_left same, same⟩⟩

theorem nodup_distinct (list : List α) : (distinct list).Nodup := by
  induction list with
  | nil => simp [distinct]
  | cons a rest ih =>
      exact List.nodup_cons.mpr ⟨fun mem => by simp at mem, List.Pairwise.filter _ ih⟩

/-- A list without repetitions is left as it is. -/
theorem distinct_of_nodup {list : List α} (nodup : list.Nodup) : distinct list = list := by
  induction list with
  | nil => rfl
  | cons a rest ih =>
      obtain ⟨absent, later⟩ := List.nodup_cons.mp nodup
      have others : rest.filter (· ≠ a) = rest := by
        apply List.filter_eq_self.mpr
        intro b mem
        have different : b ≠ a := fun same => absent (same ▸ mem)
        simpa using different
      rw [distinct, ih later, others]

end ShardFleet
