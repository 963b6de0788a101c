import ShardFleet.Key.Basic

/-!
The order of shard keys.

Numbers come before texts, texts before byte strings, byte strings before rows; rows compare
part by part, and a row comes after its beginnings. The comparison is a total order in which
only equal keys compare equal, so keys serve as bounds of ranges.
-/

namespace ShardFleet.ShardKey

/-- The place of the kind of a key among the kinds. -/
def rank : ShardKey → Nat
  | .int _ => 0
  | .text _ => 1
  | .bytes _ => 2
  | .compound _ => 3

mutual

/-- Compares two keys. -/
def order : ShardKey → ShardKey → Ordering
  | .int a, .int b => compare a b
  | .text a, .text b => compare a b
  | .bytes a, .bytes b => compare a b
  | .compound a, .compound b => orderParts a b
  | a, b => compare a.rank b.rank
  termination_by structural a => a

/-- Compares rows part by part. -/
def orderParts : List ShardKey → List ShardKey → Ordering
  | [], [] => .eq
  | [], _ :: _ => .lt
  | _ :: _, [] => .gt
  | a :: as, b :: bs => (order a b).then (orderParts as bs)
  termination_by structural as => as

end

instance : Ord ShardKey := ⟨order⟩

instance : LT ShardKey := ltOfOrd

instance : LE ShardKey := leOfOrd

/-! ### The order is total, and equal keys only compare equal -/

mutual

theorem order_self (a : ShardKey) : order a a = .eq := by
  cases a with
  | int n => simp [order]
  | text s => simp [order]
  | bytes bs => simp [order]
  | compound parts => simpa [order] using orderParts_self parts
  termination_by structural a

theorem orderParts_self (as : List ShardKey) : orderParts as as = .eq := by
  cases as with
  | nil => simp [orderParts]
  | cons a rest => simp [orderParts, order_self a, orderParts_self rest]
  termination_by structural as

end

mutual

theorem eq_of_order (a b : ShardKey) (same : order a b = .eq) : a = b := by
  cases a <;> cases b <;> simp [order, rank] at same ⊢
  case int.int => exact same
  case text.text => exact same
  case bytes.bytes => exact same
  case compound.compound as bs => exact eq_of_orderParts as bs same
  termination_by structural a

theorem eq_of_orderParts (as bs : List ShardKey) (same : orderParts as bs = .eq) : as = bs := by
  cases as with
  | nil => cases bs with
    | nil => rfl
    | cons => simp [orderParts] at same
  | cons a as => cases bs with
    | nil => simp [orderParts] at same
    | cons b bs =>
        simp [orderParts, Ordering.then_eq_eq] at same
        rw [eq_of_order a b same.1, eq_of_orderParts as bs same.2]
  termination_by structural as

end

mutual

theorem order_swap (a b : ShardKey) : order a b = (order b a).swap := by
  cases a <;> cases b <;> simp only [order, rank]
  case compound.compound as bs => exact orderParts_swap as bs
  all_goals exact Std.OrientedCmp.eq_swap
  termination_by structural a

theorem orderParts_swap (as bs : List ShardKey) : orderParts as bs = (orderParts bs as).swap := by
  cases as with
  | nil => cases bs <;> simp [orderParts]
  | cons a as => cases bs with
    | nil => simp [orderParts]
    | cons b bs =>
        simp only [orderParts, Ordering.swap_then]
        rw [← order_swap a b, ← orderParts_swap as bs]
  termination_by structural as

end

mutual

theorem order_lt_trans (a b c : ShardKey) (ab : order a b = .lt) (bc : order b c = .lt) :
    order a c = .lt := by
  cases a <;> cases b <;> cases c <;> simp [order, rank, Nat.compare_eq_lt] at ab bc ⊢
  case int.int.int => exact Std.TransCmp.lt_trans ab bc
  case text.text.text => exact Std.TransCmp.lt_trans ab bc
  case bytes.bytes.bytes => exact Std.TransCmp.lt_trans ab bc
  case compound.compound.compound as bs cs => exact orderParts_lt_trans as bs cs ab bc
  termination_by structural a

theorem orderParts_lt_trans (as bs cs : List ShardKey) (ab : orderParts as bs = .lt)
    (bc : orderParts bs cs = .lt) : orderParts as cs = .lt := by
  cases as with
  | nil => cases bs <;> cases cs <;> simp [orderParts] at ab bc ⊢
  | cons a as => cases bs with
    | nil => simp [orderParts] at ab
    | cons b bs => cases cs with
      | nil => simp [orderParts] at bc
      | cons c cs =>
          simp only [orderParts, Ordering.then_eq_lt] at ab bc ⊢
          rcases ab with ab | ⟨eq, ab⟩
          · rcases bc with bc | ⟨eq', bc⟩
            · exact .inl (order_lt_trans a b c ab bc)
            · exact .inl (eq_of_order b c eq' ▸ ab)
          · obtain rfl := eq_of_order a b eq
            exact bc.imp id fun h => ⟨h.1, orderParts_lt_trans as bs cs ab h.2⟩
  termination_by structural as

end

theorem compare_def (a b : ShardKey) : compare a b = order a b := rfl

instance : Std.TransOrd ShardKey where
  eq_swap := by
    intro a b
    exact order_swap a b
  isLE_trans := by
    intro a b c ab bc
    rw [compare_def] at ab bc ⊢
    cases hab : order a b with
    | gt => simp [hab] at ab
    | eq => exact eq_of_order a b hab ▸ bc
    | lt =>
        cases hbc : order b c with
        | gt => simp [hbc] at bc
        | eq => exact eq_of_order b c hbc ▸ ab
        | lt => simp [order_lt_trans a b c hab hbc]

instance : Std.LawfulEqOrd ShardKey where
  eq_of_compare := by
    intro a b same
    exact eq_of_order a b same

instance : DecidableEq ShardKey := fun a b =>
  decidable_of_iff (order a b = .eq) ⟨eq_of_order a b, fun h => h ▸ order_self a⟩

end ShardFleet.ShardKey
