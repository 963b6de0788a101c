import Mathlib.Data.List.Forall2

/-!
Text read from left to right.

A scan takes a value off the front of a text, or refuses the text. `Scan.Reads` says what a scan
makes of one piece of text, whatever follows it, as long as what follows does not go on with the
piece: a number ends only where no digit follows. Scans in a row read pieces in a row
(`Reads.bind`), and from what a scan makes of the items follows what it makes of a list of them
(`Reads.separated`).
-/

namespace ShardFleet.Text

/-- Takes a value off the front of a text, or refuses the text. -/
abbrev Scan (α : Type) := StateT (List Char) Option α

namespace Scan

variable {α β : Type}

/-- Passes over a fixed piece of text. -/
def literal (piece : List Char) : Scan Unit := fun input =>
  if piece.isPrefixOf input then some ((), input.drop piece.length) else none

/-- The characters up to the first that is not of a kind. -/
def span (kind : Char → Bool) : Scan (List Char) := fun input =>
  some (input.takeWhile kind, input.dropWhile kind)

/-- A number in decimal digits. -/
def number : Scan Nat := do
  let digits ← span Char.isDigit
  guard (digits ≠ [])
  return Nat.ofDigitChars 10 digits 0

/-- One item, or several with a separator between them, up to a number of items. -/
def upTo (separator : List Char) (item : Scan α) : Nat → Scan (List α)
  | 0 => failure
  | bound + 1 => do
      let first ← item
      let others ← (do literal separator; upTo separator item bound) <|> pure []
      return first :: others

/-- One item, or several with a separator between them. -/
def separated (separator : List Char) (item : Scan α) : Scan (List α) := fun input =>
  upTo separator item (input.length + 1) input

/-- The value of a whole text. -/
def whole? (scan : Scan α) (text : List Char) : Option α :=
  match scan text with
  | some (value, []) => some value
  | _ => none

/-! ### What scans make of pieces of text -/

/-- The text does not begin with a character of the kind. -/
def Clear (kind : Char → Bool) (text : List Char) : Prop := ∀ c ∈ text.head?, kind c = false

/-- The scan takes exactly the piece, and gives the value, before any text that does not go on
with a character of the kind. -/
def Reads (scan : Scan α) (more : Char → Bool) (piece : List Char) (value : α) : Prop :=
  ∀ rest, Clear more rest → scan (piece ++ rest) = some (value, rest)

variable {scan item : Scan α} {next : α → Scan β} {more further : Char → Bool}
  {piece other separator : List Char} {value : α} {outcome : β}

@[simp] theorem clear_cons {c : Char} {text : List Char} :
    Clear more (c :: text) ↔ more c = false := by
  simp [Clear]

theorem clear_append (clear : Clear more piece) (any : piece ≠ []) (rest : List Char) :
    Clear more (piece ++ rest) := by
  cases piece with
  | nil => exact absurd rfl any
  | cons c cs => exact clear

/-- A scan that stops before any text stops before some. -/
theorem Reads.mono (reads : Reads scan more piece value) (fewer : ∀ c, more c → further c) :
    Reads scan further piece value := by
  refine fun rest clear => reads rest fun c head => ?_
  exact Bool.eq_false_iff.mpr fun goesOn => by simpa [clear c head] using fewer c goesOn

/-- A scan that no text makes go on stops before any. -/
theorem Reads.anywhere (reads : Reads scan (fun _ => false) piece value) :
    Reads scan more piece value :=
  fun rest _ => reads rest fun _ _ => rfl

/-- Scans in a row take pieces in a row, where the second piece ends the first. -/
theorem Reads.bind (first : Reads scan more piece value)
    (second : Reads (next value) further other outcome)
    (ends : ∀ rest, Clear further rest → Clear more (other ++ rest)) :
    Reads (scan >>= next) further (piece ++ other) outcome := by
  intro rest clear
  rw [List.append_assoc]
  change (scan (piece ++ (other ++ rest)) >>= fun taken => next taken.1 taken.2) = _
  rw [first _ (ends rest clear)]
  exact second rest clear

theorem reads_pure (value : α) : Reads (pure value) (fun _ => false) [] value := fun _ _ => rfl

theorem reads_literal (piece : List Char) : Reads (literal piece) (fun _ => false) piece () := by
  intro rest _
  rw [literal, if_pos (List.isPrefixOf_iff_prefix.mpr (List.prefix_append piece rest)),
    List.drop_left]

/-- A fixed piece before others; it ends whatever came before it. -/
theorem Reads.after (piece : List Char) (reads : Reads scan more other value) :
    Reads (do literal piece; scan) more (piece ++ other) value :=
  (reads_literal piece).bind reads fun _ _ _ _ => rfl

/-- What a scan makes of a piece may be changed afterwards. -/
theorem Reads.map (reads : Reads scan more piece value) (f : α → β) :
    Reads (do return f (← scan)) more piece (f value) := by
  intro rest clear
  change (scan (piece ++ rest) >>= fun taken => some (f taken.1, taken.2)) = _
  rw [reads rest clear]
  rfl

theorem literal_of_clear (any : separator ≠ []) {rest : List Char}
    (clear : Clear (fun c => separator.head? = some c) rest) : literal separator rest = none := by
  rw [literal, if_neg]
  intro begins
  obtain ⟨after, rfl⟩ := List.isPrefixOf_iff_prefix.mp begins
  cases separator with
  | nil => exact any rfl
  | cons c cs => simpa using clear c rfl

theorem reads_span {kind : Char → Bool} (all : ∀ c ∈ piece, kind c) :
    Reads (span kind) kind piece piece := by
  intro rest clear
  have stop : rest.takeWhile kind = [] ∧ rest.dropWhile kind = rest := by
    cases rest with
    | nil => exact ⟨rfl, rfl⟩
    | cons c cs =>
        have ends : kind c = false := clear c rfl
        simp [ends]
  rw [span, List.takeWhile_append_of_pos all, List.dropWhile_append_of_pos all, stop.1, stop.2,
    List.append_nil]

/-- A test that passes changes nothing. -/
theorem Reads.guarded {test : Prop} [Decidable test] (passes : test)
    (reads : Reads scan more piece value) : Reads (do guard test; scan) more piece value := by
  intro rest clear
  rw [guard, if_pos passes]
  exact reads rest clear

theorem reads_number (n : Nat) : Reads number Char.isDigit (toString n).toList n := by
  have digits : (toString n).toList = Nat.toDigits 10 n ++ [] := by
    rw [Nat.toString_eq_ofList_toDigits, String.toList_ofList, List.append_nil]
  have spanned : Reads (span Char.isDigit) Char.isDigit (Nat.toDigits 10 n) (Nat.toDigits 10 n) :=
    reads_span fun c mem => Nat.isDigit_of_mem_toDigits (by decide) (by decide) mem
  rw [digits]
  refine spanned.bind (Reads.guarded Nat.toDigits_ne_nil fun rest _ => ?_) fun _ clear => clear
  rw [Nat.ofDigitChars_ten_toDigits]
  rfl

theorem Reads.orElse (reads : Reads scan more piece value) (second : Scan α) :
    Reads (scan <|> second) more piece value := by
  intro rest clear
  change (scan (piece ++ rest) <|> second (piece ++ rest)) = _
  rw [reads rest clear]
  rfl

theorem Reads.orElse_right {first : Scan α} (refuses : ∀ rest, first (piece ++ rest) = none)
    (reads : Reads scan more piece value) : Reads (first <|> scan) more piece value := by
  intro rest clear
  change (first (piece ++ rest) <|> scan (piece ++ rest)) = _
  rw [refuses rest, reads rest clear]
  rfl

/-- Where no separator follows there are no further items. -/
theorem reads_no_further (any : separator ≠ []) (further : Scan (List α)) :
    Reads ((do literal separator; further) <|> pure []) (fun c => separator.head? = some c)
      [] [] := by
  intro rest clear
  change ((literal separator rest >>= fun taken => further taken.2) <|> some ([], rest)) = _
  rw [literal_of_clear any clear]
  rfl

/-- Items with a separator between them; the list ends where neither the last item goes on nor
another separator follows. -/
theorem Reads.upTo (any : separator ≠ []) (apart : Clear more separator)
    {pieces : List (List Char)} {values : List α}
    (each : List.Forall₂ (Reads item more) pieces values) (filled : pieces ≠ []) {bound : Nat}
    (enough : pieces.length ≤ bound) :
    Reads (upTo separator item bound) (fun c => more c || separator.head? = some c)
      (separator.intercalate pieces) values := by
  induction each generalizing bound with
  | nil => exact absurd rfl filled
  | @cons piece value pieces values first later ih =>
      obtain ⟨bound, rfl⟩ : ∃ fewer, bound = fewer + 1 :=
        Nat.exists_eq_add_one.mpr (Nat.lt_of_lt_of_le (Nat.succ_pos _) enough)
      have fewer : pieces.length ≤ bound := Nat.le_of_succ_le_succ enough
      cases later with
      | nil =>
          have last := (reads_no_further any (Scan.upTo separator item bound)).map (value :: ·)
          rw [List.intercalate_singleton, ← List.append_nil piece]
          refine first.bind (last.mono fun c next => ?_) fun rest clear c head => ?_
          · simpa using Or.inr (of_decide_eq_true next)
          · exact (Bool.or_eq_false_iff.mp (clear c head)).1
      | cons second others =>
          have more := ((ih (List.cons_ne_nil _ _) fewer).after separator).orElse (pure [])
          rw [List.intercalate_cons_cons, List.append_assoc]
          refine first.bind (more.map (value :: ·)) fun rest _ => ?_
          rw [List.append_assoc]
          exact clear_append apart any _

/-- No more items than the text has room for. -/
theorem length_le_intercalate (any : separator ≠ []) (pieces : List (List Char)) :
    pieces.length ≤ (separator.intercalate pieces).length + 1 := by
  have room := List.length_pos_iff.mpr any
  induction pieces with
  | nil => exact Nat.zero_le _
  | cons piece pieces ih =>
      cases pieces with
      | nil => simp
      | cons second others =>
          rw [List.intercalate_cons_cons, List.length_cons, List.length_append, List.length_append]
          omega

theorem Reads.separated (any : separator ≠ []) (apart : Clear more separator)
    {pieces : List (List Char)} {values : List α}
    (each : List.Forall₂ (Reads item more) pieces values) (filled : pieces ≠ []) :
    Reads (separated separator item) (fun c => more c || separator.head? = some c)
      (separator.intercalate pieces) values := by
  intro rest clear
  have enough : pieces.length ≤ (separator.intercalate pieces ++ rest).length + 1 := by
    have room := length_le_intercalate any pieces
    rw [List.length_append]
    omega
  exact Reads.upTo any apart each filled enough rest clear

theorem Reads.whole (reads : Reads scan more piece value) : whole? scan piece = some value := by
  have taken := reads [] fun c head => nomatch head
  rw [List.append_nil] at taken
  rw [whole?, taken]

end Scan

end ShardFleet.Text
