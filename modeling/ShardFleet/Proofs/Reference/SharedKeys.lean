import Mathlib.Data.List.Pairwise
import ShardFleet.Proofs.Reference.Agreement
import ShardFleet.Proofs.Reference.Bindings

/-!
Rows that a table takes for one.

Two rows have the same key if the values in their key columns are equal in pairs
(`ReferenceTable.SameKey`). An upsert tells keys apart by their binary forms, and equal keys have
different forms where one has a zero of the other sign (`ReferenceTable.SignsApart`). Such rows are
both bound, even by one statement (`zeros_bound_twice`); any other two rows of one key are bound
once (`bound_keys`).
-/

namespace ShardFleet

open ShardFleet.Digest (Bytes)

/-! ### Equal values and their forms -/

namespace Value

variable {value other : Value} {values others : List Value}

/-- Two zeros of different sign: equal as numbers, different as data. -/
def Signed : Value → Value → Prop
  | .float x, .float y => x.isZero ∧ y.isZero ∧ x ≠ y
  | _, _ => False

theorem agrees_comm (value other : Value) : value.agrees other = other.agrees value := by
  cases value <;> cases other
  case float.float x y =>
    simp only [agrees, Binary64.agrees, eq_comm, Bool.and_comm]
  all_goals simp only [agrees, eq_comm]

/-- Equal values are the same data, or zeros of different sign. -/
theorem eq_or_signed_of_agrees (agree : value.agrees other = true) :
    value = other ∨ value.Signed other := by
  unfold agrees at agree
  split at agree
  · next x y =>
      simp only [Binary64.agrees, Bool.and_eq_true, Bool.or_eq_true, decide_eq_true_eq] at agree
      by_cases same : x = y
      · exact .inl (congrArg Value.float same)
      · exact .inr ⟨(agree.2.resolve_left same).1, (agree.2.resolve_left same).2, same⟩
  · exact .inl (of_decide_eq_true agree)

theorem Signed.ne (signed : value.Signed other) : value ≠ other := by
  rintro rfl
  cases value with
  | float x => exact signed.2.2 rfl
  | _ => exact signed

/-- Equal values have forms of one length, of which no other value has the same. -/
theorem form_of_agrees (agree : value.agrees other = true) :
    (Wire.write value).length = (Wire.write other).length ∧
      (Wire.write value = Wire.write other → value = other) := by
  rcases eq_or_signed_of_agrees agree with rfl | signed
  · exact ⟨rfl, fun _ => rfl⟩
  · cases value with
    | float x =>
        cases other with
        | float y =>
            exact ⟨rfl, Wire.Recovers.write_inj (Wire.recovers_value trivial)
              (Wire.recovers_value trivial)⟩
        | _ => exact signed.elim
    | _ => exact signed.elim

/-- Lists of equal values have one form only if they are the same data. -/
theorem eq_of_write_of_agree
    (agree : List.Forall₂ (fun value other => value.agrees other = true) values others)
    (same : Wire.write values = Wire.write others) : values = others := by
  -- The lengths in front agree, and then the forms of the values have one length each.
  have forms : values.flatMap Wire.write = others.flatMap Wire.write :=
    (List.append_inj same
      (congrArg (fun n => (Wire.writeLength n).length) agree.length_eq)).2
  clear same
  induction agree with
  | nil => rfl
  | cons first _ ih =>
      obtain ⟨long, told⟩ := form_of_agrees first
      obtain ⟨front, rest⟩ := List.append_inj forms long
      exact congrArg₂ List.cons (told front) (ih rest)

/-- Lists of equal values are the same data, or have zeros of different sign at one place. -/
theorem eq_or_exists_signed
    (agree : List.Forall₂ (fun value other => value.agrees other = true) values others) :
    values = others ∨ ∃ pair ∈ values.zip others, pair.1.Signed pair.2 := by
  induction agree with
  | nil => exact .inl rfl
  | cons first _ ih =>
      rcases eq_or_signed_of_agrees first with rfl | signed
      · rcases ih with rfl | ⟨pair, mem, signed⟩
        · exact .inl rfl
        · exact .inr ⟨pair, List.mem_cons_of_mem _ mem, signed⟩
      · exact .inr ⟨_, List.mem_cons_self, signed⟩

theorem ne_of_signed {pair : Value × Value} (mem : pair ∈ values.zip others)
    (signed : pair.1.Signed pair.2) : values ≠ others := by
  rintro rfl
  obtain ⟨place, within, rfl⟩ := List.mem_iff_getElem.mp mem
  exact signed.ne (by rw [List.getElem_zip])

end Value

/-! ### Rows with the same key -/

namespace ReferenceTable

variable {table : ReferenceTable} {row other : Row}

/-- The rows have their keys, and the values in them are equal in pairs. -/
def SameKey (table : ReferenceTable) (row other : Row) : Prop :=
  ∃ values others, table.keyOf row = .ok values ∧ table.keyOf other = .ok others ∧
    List.Forall₂ (fun value other => value.agrees other = true) values others

/-- The rows have the same key, with zeros of different sign in one of its columns. -/
def SignsApart (table : ReferenceTable) (row other : Row) : Prop :=
  ∃ values others, table.keyOf row = .ok values ∧ table.keyOf other = .ok others ∧
    List.Forall₂ (fun value other => value.agrees other = true) values others ∧
    ∃ pair ∈ values.zip others, pair.1.Signed pair.2

theorem SameKey.symm (same : table.SameKey row other) : table.SameKey other row := by
  obtain ⟨values, others, keyed, alsoKeyed, agree⟩ := same
  refine ⟨others, values, alsoKeyed, keyed, List.Forall₂.flip (agree.imp ?_)⟩
  intro value other equal
  exact (Value.agrees_comm other value).trans equal

theorem rowKey_eq_ok_iff {key : Bytes} :
    table.rowKey row = .ok key ↔ ∃ values, table.keyOf row = .ok values ∧ key = Wire.write values :=
  bind_pure_eq_ok_iff

/-- Rows of one key that have different forms of it differ in the sign of a zero. -/
theorem SameKey.signsApart {key also : Bytes} (same : table.SameKey row other)
    (first : table.rowKey row = .ok key) (second : table.rowKey other = .ok also)
    (apart : key ≠ also) : table.SignsApart row other := by
  obtain ⟨values, others, keyed, alsoKeyed, agree⟩ := same
  refine ⟨values, others, keyed, alsoKeyed, agree, ?_⟩
  refine (Value.eq_or_exists_signed agree).resolve_left ?_
  rintro rfl
  obtain ⟨_, named, rfl⟩ := rowKey_eq_ok_iff.mp first
  obtain ⟨_, alsoNamed, rfl⟩ := rowKey_eq_ok_iff.mp second
  obtain rfl := Except.ok.inj (keyed.symm.trans named)
  obtain rfl := Except.ok.inj (alsoKeyed.symm.trans alsoNamed)
  exact apart rfl

/-- Rows that differ in the sign of a zero have different forms of one key, as have all rows that
are identified by these forms. -/
theorem SignsApart.forms {key also : Bytes} {held alsoHeld : Row}
    (signs : table.SignsApart row other) (first : table.Identifies row key)
    (second : table.Identifies other also) (holds : table.Identifies held key)
    (alsoHolds : table.Identifies alsoHeld also) :
    key ≠ also ∧ table.SameKey held alsoHeld := by
  obtain ⟨values, others, keyed, alsoKeyed, agree, pair, mem, signed⟩ := signs
  obtain ⟨_, named, fits, rfl⟩ := first
  obtain ⟨_, alsoNamed, alsoFit, rfl⟩ := second
  obtain rfl := Except.ok.inj (keyed.symm.trans named)
  obtain rfl := Except.ok.inj (alsoKeyed.symm.trans alsoNamed)
  obtain ⟨kept, keptKeyed, keptFit, form⟩ := holds
  obtain ⟨alsoKept, alsoKeptKeyed, alsoKeptFit, alsoForm⟩ := alsoHolds
  have long {row : Row} {values : List Value} (keyed : table.keyOf row = .ok values) :
      values.length = table.primaryKey.length := by
    obtain ⟨rfl, -⟩ := keyOf_eq_ok_iff.mp keyed
    exact List.length_map _
  obtain rfl := eq_of_write fits keptFit ((long keyed).trans (long keptKeyed).symm) form
  obtain rfl :=
    eq_of_write alsoFit alsoKeptFit ((long alsoKeyed).trans (long alsoKeptKeyed).symm) alsoForm
  refine ⟨fun same => ?_, _, _, keptKeyed, alsoKeptKeyed, agree⟩
  exact Value.ne_of_signed mem signed (Value.eq_of_write_of_agree agree same)

end ReferenceTable

/-! ### Rows that are bound -/

namespace Upsert

variable {options : StatementOptions} {table : ReferenceTable} {rows : List Row}
  {list : List Statement} {entries : List (Bytes × Row)}

/-- Two of the kept rows have the same key only with zeros of different sign. -/
theorem pairwise_onePerKey (keyed : table.keyed rows = .ok entries) :
    ((onePerKey entries).map Prod.snd).Pairwise fun row other =>
      table.SameKey row other → table.SignsApart row other := by
  obtain ⟨-, named⟩ := ReferenceTable.keyed_eq_ok_iff.mp keyed
  have apart := List.pairwise_map.mp (nodup_onePerKey entries)
  refine List.pairwise_map.mpr (apart.imp_of_mem ?_)
  intro entry another mem alsoMem different same
  exact same.signsApart (named entry (onePerKey_subset mem))
    (named another (onePerKey_subset alsoMem)) different

/-- Under every given key a row is kept. -/
theorem exists_mem_onePerKey {entry : Bytes × Row} (mem : entry ∈ entries) :
    ∃ row, (entry.1, row) ∈ onePerKey entries := by
  have listed : entry.1 ∈ (onePerKey entries).map Prod.fst := by
    rw [keys_onePerKey, mem_distinct]
    exact List.mem_map_of_mem mem
  obtain ⟨⟨key, row⟩, kept, rfl⟩ := List.mem_map.mp listed
  exact ⟨row, kept⟩

/-- Two given rows whose keys differ in the sign of a zero leave two kept rows of one key. -/
theorem not_pairwise_onePerKey (keyed : table.keyed rows = .ok entries)
    (identified : ∀ row ∈ rows, ∃ key, table.Identifies row key)
    {row other : Row} (given : row ∈ rows) (also : other ∈ rows)
    (signs : table.SignsApart row other) :
    ¬ ((onePerKey entries).map Prod.snd).Pairwise fun row other => ¬ table.SameKey row other := by
  obtain ⟨rfl, named⟩ := ReferenceTable.keyed_eq_ok_iff.mp keyed
  have identifies : ∀ entry ∈ entries, table.Identifies entry.2 entry.1 := by
    intro entry mem
    obtain ⟨key, has⟩ := identified entry.2 (List.mem_map_of_mem mem)
    rwa [Except.ok.inj (has.rowKey.symm.trans (named entry mem))] at has
  obtain ⟨entry, mem, rfl⟩ := List.mem_map.mp given
  obtain ⟨another, alsoMem, rfl⟩ := List.mem_map.mp also
  obtain ⟨held, kept⟩ := exists_mem_onePerKey mem
  obtain ⟨alsoHeld, alsoKept⟩ := exists_mem_onePerKey alsoMem
  obtain ⟨different, same⟩ := signs.forms (identifies entry mem) (identifies another alsoMem)
    (identifies (_, held) (onePerKey_subset kept))
    (identifies (_, alsoHeld) (onePerKey_subset alsoKept))
  intro apart
  -- Either of the two may stand first among the kept rows.
  have symmetric : Std.Symm fun entry another : Bytes × Row =>
      ¬ table.SameKey entry.2 another.2 := ⟨fun _ _ => mt ReferenceTable.SameKey.symm⟩
  exact (List.pairwise_map.mp apart).forall kept alsoKept (mt (congrArg Prod.fst) different) same

/-- The rows that the statements bind are given ones, and two of them have the same key only with
zeros of different sign in it. So no key is bound twice if and only if no two given rows differ in
such a sign. -/
theorem bound_keys (made : statements options table rows = .ok list) :
    ∃ kept, table.kept rows = .ok kept ∧ kept ⊆ rows ∧
      (list.flatMap Statement.params = kept.flatMap fun row =>
        table.columns.map fun column => (row.get? column).getD .null) ∧
      (kept.Pairwise fun row other => table.SameKey row other → table.SignsApart row other) ∧
      ((∀ row ∈ rows, ∃ key, table.Identifies row key) →
        ((kept.Pairwise fun row other => ¬ table.SameKey row other) ↔
          ∀ row ∈ rows, ∀ other ∈ rows, ¬ table.SignsApart row other)) := by
  obtain ⟨-, size, frame, entries, admits, framed, keyed, rfl⟩ := statements_eq_ok_iff.mp made
  have signs := pairwise_onePerKey keyed
  have given : (onePerKey entries).map Prod.snd ⊆ rows := by
    obtain ⟨rfl, -⟩ := ReferenceTable.keyed_eq_ok_iff.mp keyed
    exact List.map_subset _ onePerKey_subset
  refine ⟨(onePerKey entries).map Prod.snd, kept_eq_ok_iff.mpr ⟨entries, keyed, rfl⟩, given,
    flatMap_params (size_ne_zero admits) frame options.style table _, signs, ?_⟩
  intro identified
  constructor
  · intro apart row mem other also signed
    exact not_pairwise_onePerKey keyed identified mem also signed apart
  · intro none
    refine signs.imp_of_mem ?_
    intro row other mem also told same
    exact none row (given mem) other (given also) (told same)

/-- Three rows under two keys, one of them a zero. -/
theorem bound_keys_rates :
    let table := ReferenceTable.new "rates" ["rate"] ["note"]
    let rated := fun (bits : UInt64) (note : String) =>
      (OrderedMap.ofList [("rate", .float ⟨bits⟩), ("note", .text note)] : Row)
    let rows := [rated 0 "a", rated 0x3FF0000000000000 "b", rated 0 "c"]
    ∃ list kept, statements ⟨.numbered, 2000⟩ table rows = .ok list ∧
      table.kept rows = .ok kept ∧
      (list.flatMap Statement.params = kept.flatMap fun row =>
        table.columns.map fun column => (row.get? column).getD .null) ∧
      kept.Pairwise fun row other => table.SameKey row other → table.SignsApart row other := by
  intro table rated rows
  have bound : (statements ⟨.numbered, 2000⟩ table rows).toOption.map List.length = some 1 := by
    decide +kernel
  obtain ⟨list, made, -⟩ := exists_eq_ok bound
  obtain ⟨kept, chosen, -, params, signs, -⟩ := bound_keys made
  exact ⟨list, kept, made, chosen, params, signs⟩

/-- The two zeros are one key, and one statement binds a row of each. -/
theorem zeros_bound_twice :
    let table := ReferenceTable.new "rates" ["rate"] ["note"]
    let rated := fun (bits : UInt64) (note : String) =>
      (OrderedMap.ofList [("rate", .float ⟨bits⟩), ("note", .text note)] : Row)
    let rows := [rated 0 "a", rated 0x8000000000000000 "b"]
    table.SameKey (rated 0 "a") (rated 0x8000000000000000 "b") ∧
      ∃ statement, statements ⟨.numbered, 2000⟩ table rows = .ok [statement] ∧
        statement.params = [.float ⟨0⟩, .text "a", .float ⟨0x8000000000000000⟩, .text "b"] := by
  intro table rated rows
  refine ⟨⟨[.float ⟨0⟩], [.float ⟨0x8000000000000000⟩], rfl, rfl,
    .cons (by decide) .nil⟩, ?_⟩
  have bound : (statements ⟨.numbered, 2000⟩ table rows).toOption.map
      (List.map Statement.params) =
        some [[.float ⟨0⟩, .text "a", .float ⟨0x8000000000000000⟩, .text "b"]] := by
    decide +kernel
  obtain ⟨list, made, values⟩ := exists_eq_ok bound
  obtain ⟨statement, rfl, params⟩ := List.map_eq_singleton_iff.mp values
  exact ⟨statement, made, params⟩

end Upsert

end ShardFleet
