import ShardFleet.Proofs.Text.Joining
import ShardFleet.Statement

/-!
Names in quotes.

A name is quoted if it is one plain word, or two with a point between them (`quote_eq_ok_iff`,
`spells_iff`); plain words have no quotes in them, so the words of a quoted name stand between its
quotes, and the name is what is left without them (`Quotes`).
-/

namespace ShardFleet.Identifier

/-- The parts of a name are what its points leave. -/
theorem parts_eq_splitOn (name : List Char) : parts name = name.splitOn '.' := by
  induction name with
  | nil => rfl
  | cons c rest ih =>
      rw [parts, List.splitOn_cons_eq_if_modifyHead, ih]
      by_cases point : c = '.'
      · simp [point]
      · rw [if_neg point, if_neg (by simpa using point)]
        cases later : rest.splitOn '.' with
        | nil => exact absurd later (List.splitOn_ne_nil _ _)
        | cons first others => rfl

/-- A name is its parts with points between them. -/
theorem intercalate_parts (name : List Char) : ['.'].intercalate (parts name) = name := by
  rw [parts_eq_splitOn, List.intercalate_splitOn]

theorem quote_eq_ok_iff {name quoted : String} :
    quote name = .ok quoted ↔
      (parts name.toList).length ≤ 2 ∧ (∀ word ∈ parts name.toList, isWord word) ∧
        quoted.toList = ['.'].intercalate ((parts name.toList).map quoteWord) := by
  unfold quote
  simp only [List.all_eq_true]
  split
  · next plain =>
      rw [Except.ok.injEq, ← String.toList_inj, String.toList_ofList, eq_comm]
      exact ⟨fun same => ⟨plain.1, plain.2, same⟩, fun shape => shape.2.2⟩
  · next crooked =>
      refine ⟨fun absurd => (nomatch absurd), ?_⟩
      rintro ⟨short, words, -⟩
      exact absurd ⟨short, words⟩ crooked

/-- A plain word has no quote in it. -/
theorem ne_quote_of_isWord {word : List Char} (plain : isWord word) {c : Char} (mem : c ∈ word) :
    c ≠ '"' := by
  rintro rfl
  cases word with
  | nil => cases mem
  | cons first rest =>
      have all := (Bool.and_eq_true_iff.mp plain).2
      have allowed : isNameChar '"' := List.all_eq_true.mp all _ mem
      exact absurd allowed (by decide)

/-! ### The grammar of names -/

def Digit (c : Char) : Prop := '0' ≤ c ∧ c ≤ '9'

/-- A letter or a digit, both of ASCII, or an underscore. -/
def Admitted (c : Char) : Prop :=
  ('A' ≤ c ∧ c ≤ 'Z') ∨ ('a' ≤ c ∧ c ≤ 'z') ∨ Digit c ∨ c = '_'

/-- Some admitted characters of which the first is no digit. -/
structure PlainWord (word : List Char) : Prop where
  filled : word ≠ []
  admitted : ∀ c ∈ word, Admitted c
  leading : ∀ c ∈ word.head?, ¬Digit c

/-- The name is one plain word, or two with a point between them. -/
structure Spells (words : List (List Char)) (name : String) : Prop where
  few : words.length = 1 ∨ words.length = 2
  plain : ∀ word ∈ words, PlainWord word
  joined : name.toList = ['.'].intercalate words

theorem isDigit_iff {c : Char} : c.isDigit = true ↔ Digit c := by
  have bounds : c.isDigit = (decide ('0' ≤ c) && decide (c ≤ '9')) := rfl
  rw [bounds, Bool.and_eq_true, decide_eq_true_iff, decide_eq_true_iff, Digit]

theorem isNameChar_iff {c : Char} : isNameChar c = true ↔ Admitted c := by
  have kinds : isNameChar c = (decide ('A' ≤ c ∧ c ≤ 'Z') ||
      (decide ('a' ≤ c) && decide (c ≤ 'z')) || c.isDigit || decide (c = '_')) := rfl
  simp only [kinds, Bool.or_eq_true, Bool.and_eq_true, decide_eq_true_iff, isDigit_iff, Admitted,
    or_assoc]

theorem isWord_iff {word : List Char} : isWord word = true ↔ PlainWord word := by
  cases word with
  | nil => exact iff_of_false nofun fun plain => plain.filled rfl
  | cons first rest =>
      have test : isWord (first :: rest) = true ↔
          ¬Digit first ∧ ∀ c ∈ first :: rest, Admitted c := by
        rw [isWord, Bool.and_eq_true, Bool.not_eq_true', ← Bool.not_eq_true, isDigit_iff,
          List.all_eq_true]
        simp only [isNameChar_iff]
      rw [test]
      constructor
      · rintro ⟨leading, admitted⟩
        have alone : ∀ c ∈ (first :: rest).head?, ¬Digit c := by
          rintro c ⟨⟩
          exact leading
        exact { filled := List.cons_ne_nil _ _, admitted, leading := alone }
      · intro plain
        exact ⟨plain.leading first rfl, plain.admitted⟩

variable {words : List (List Char)} {name : String}

theorem PlainWord.no_point {word : List Char} (plain : PlainWord word) : '.' ∉ word := by
  intro mem
  exact absurd (isNameChar_iff.mpr (plain.admitted _ mem)) (by decide)

/-- The words of a name are its parts. -/
theorem spells_iff :
    Spells words name ↔
      parts name.toList = words ∧ words.length ≤ 2 ∧ ∀ word ∈ words, isWord word := by
  constructor
  · rintro ⟨few, plain, joined⟩
    have some : words ≠ [] := by
      rintro rfl
      simp at few
    -- No word has a point in it, so the points between them are where the name is parted.
    have parted : parts name.toList = words := by
      rw [parts_eq_splitOn, joined]
      exact List.splitOn_intercalate '.' (fun word mem => (plain word mem).no_point) some
    exact ⟨parted, by omega, fun word mem => isWord_iff.mpr (plain word mem)⟩
  · rintro ⟨rfl, short, plain⟩
    have some : parts name.toList ≠ [] := by
      rw [parts_eq_splitOn]
      exact List.splitOn_ne_nil _ _
    have atLeast := List.length_pos_iff.mpr some
    exact { few := by omega
            plain := fun word mem => isWord_iff.mp (plain word mem)
            joined := (intercalate_parts _).symm }

/-! ### Quotes taken off -/

/-- The words of a name, each in quotes, with points between them. No other quotes stand in the
quoted name, and without its quotes it is the name. -/
structure Quotes (words : List (List Char)) (name quoted : String) : Prop where
  written : quoted.toList = ['.'].intercalate (words.map fun word => '"' :: word ++ ['"'])
  clean : ∀ word ∈ words, '"' ∉ word
  count : quoted.toList.count '"' = 2 * words.length
  stripped : quoted.toList.filter (· ≠ '"') = name.toList

theorem quotes_of_spells (spells : Spells words name) {quoted : String}
    (written : quoted.toList = ['.'].intercalate (words.map quoteWord)) :
    Quotes words name quoted := by
  have clean : ∀ word ∈ words, '"' ∉ word := fun word mem inside =>
    ne_quote_of_isWord (isWord_iff.mpr (spells.plain word mem)) inside rfl
  have twice : ∀ word ∈ words, (quoteWord word).count '"' = 2 := by
    intro word mem
    simp [quoteWord, List.count_eq_zero.mpr (clean word mem)]
  have bare : ∀ word ∈ words, (quoteWord word).filter (· ≠ '"') = word := by
    intro word mem
    have kept : word.filter (· ≠ '"') = word :=
      List.filter_eq_self.mpr fun c inside => by
        simpa using fun same : c = '"' => clean word mem (same ▸ inside)
    simp only [quoteWord, List.filter_append, kept]
    simp
  refine { written, clean, count := ?count, stripped := ?stripped }
  case count =>
    rw [written, count_intercalate ['.'] (by decide) (List.forall_mem_map.mpr twice),
      List.length_map]
  case stripped =>
    rw [written, filter_intercalate, List.map_map, spells.joined]
    calc ['.'].intercalate (words.map (List.filter (· ≠ '"') ∘ quoteWord))
        = ['.'].intercalate (words.map id) := congrArg _ (List.map_congr_left bare)
      _ = ['.'].intercalate words := by rw [List.map_id]

theorem quote_cases (name : String) :
    (∃ quoted words, quote name = .ok quoted ∧ Spells words name ∧ Quotes words name quoted) ∨
      (quote name = .error (.statement ("invalid identifier: " ++ Text.quoted name)) ∧
        ∀ words, ¬Spells words name) := by
  by_cases plain : (parts name.toList).length ≤ 2 ∧ (parts name.toList).all isWord
  · have spells : Spells (parts name.toList) name :=
      spells_iff.mpr ⟨rfl, plain.1, List.all_eq_true.mp plain.2⟩
    exact .inl ⟨_, _, if_pos plain, spells, quotes_of_spells spells String.toList_ofList⟩
  · have crooked : ∀ words, ¬Spells words name := by
      intro words spells
      obtain ⟨rfl, short, words⟩ := spells_iff.mp spells
      exact plain ⟨short, List.all_eq_true.mpr words⟩
    exact .inr ⟨if_neg plain, crooked⟩

/-- A name is quoted exactly if it is one plain word, or two with a point between them; it is what
the quoted name is without the quotes, so no other name is quoted alike. Of any other name it is
said that it is no identifier. -/
theorem quote_accepts_names (name : String) :
    match quote name with
    | .ok quoted =>
        (∃ words, Spells words name ∧ Quotes words name quoted) ∧
          ∀ other, quote other = .ok quoted → other = name
    | .error error =>
        error = .statement ("invalid identifier: " ++ Text.quoted name) ∧
          ∀ words, ¬Spells words name := by
  rcases quote_cases name with ⟨quoted, words, result, spells, quotes⟩ | ⟨result, crooked⟩
  · rw [result]
    constructor
    · exact ⟨words, spells, quotes⟩
    intro other same
    rcases quote_cases other with ⟨_, others, again, -, otherQuotes⟩ | ⟨refused, -⟩
    · obtain rfl := Except.ok.inj (again.symm.trans same)
      exact String.toList_inj.mp (otherQuotes.stripped.symm.trans quotes.stripped)
    · rw [refused] at same
      cases same
  · rw [result]
    exact ⟨rfl, crooked⟩

end ShardFleet.Identifier
