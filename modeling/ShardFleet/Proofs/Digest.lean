import Mathlib.Algebra.Group.Nat.Defs
import ShardFleet.Digest.Xxh64

/-!
Words and digests read back.

The eight bytes of a word spell it (`ofBytes_wordBytes`), and so do its sixteen hexadecimal digits
(`hex_injective`): two digests are written alike only if they are equal.
-/

namespace ShardFleet.Digest

/-! ### Bytes of words -/

/-- The number that bytes spell, of whatever size. -/
def numeral : Bytes → Nat
  | [] => 0
  | b :: rest => b.toNat + 256 * numeral rest

theorem numeral_lt (bytes : Bytes) : numeral bytes < 256 ^ bytes.length := by
  induction bytes with
  | nil => simp [numeral]
  | cons b rest ih =>
      have low := b.toNat_lt
      rw [numeral, List.length_cons, Nat.pow_succ]
      omega

theorem toNat_ofBytes {bytes : Bytes} (short : bytes.length ≤ 8) :
    (ofBytes bytes).toNat = numeral bytes := by
  induction bytes with
  | nil => rfl
  | cons b rest ih =>
      rw [List.length_cons] at short
      have shorter : rest.length ≤ 7 := by omega
      have below : numeral rest < 256 ^ 7 :=
        Nat.lt_of_lt_of_le (numeral_lt rest) (Nat.pow_le_pow_right (by decide) shorter)
      have low : b.toNat < 2 ^ 8 := b.toNat_lt
      have shifted : (ofBytes rest <<< 8).toNat = numeral rest <<< 8 := by
        rw [UInt64.toNat_shiftLeft, ih (by omega)]
        refine Nat.mod_eq_of_lt ?_
        simp only [UInt64.reduceToNat, Nat.reduceMod, Nat.shiftLeft_eq]
        omega
      rw [ofBytes, UInt64.toNat_or, shifted, UInt8.toNat_toUInt64, Nat.or_comm,
        ← Nat.shiftLeft_add_eq_or_of_lt low, numeral, Nat.shiftLeft_eq]
      omega

theorem numeral_wordBytes (w : UInt64) : numeral (wordBytes w) = w.toNat := by
  have bound := w.toNat_lt
  simp only [wordBytes, numeral, UInt64.toNat_toUInt8, UInt64.toNat_shiftRight,
    UInt64.reduceToNat, Nat.reduceMod, Nat.shiftRight_eq_div_pow]
  omega

@[simp] theorem ofBytes_wordBytes (w : UInt64) : ofBytes (wordBytes w) = w := by
  refine UInt64.toNat_inj.mp ?_
  rw [toNat_ofBytes (by simp [wordBytes]), numeral_wordBytes]

/-! ### Hexadecimal digits -/

/-- The value of a hexadecimal digit. -/
def digitValue (c : Char) : Nat := if c.isDigit then c.toNat - 48 else c.toNat - 87

theorem digitValue_digitChar : ∀ d < 16, digitValue (Nat.digitChar d) = d := by decide

/-- The number that hexadecimal digits spell, the first being the highest. -/
def hexValue (digits : List Char) : Nat :=
  digits.foldl (fun value c => 16 * value + digitValue c) 0

theorem hexValue_append_digit (digits : List Char) (c : Char) :
    hexValue (digits ++ [c]) = 16 * hexValue digits + digitValue c := by
  rw [hexValue, List.foldl_append]
  rfl

theorem hexValue_toDigits (n : Nat) : hexValue (Nat.toDigits 16 n) = n := by
  induction n using Nat.strongRecOn with
  | _ n ih =>
      rw [Nat.toDigits_eq_if (by decide)]
      split
      · next small => simpa [hexValue] using digitValue_digitChar n small
      · rw [hexValue_append_digit, ih (n / 16) (by omega),
          digitValue_digitChar _ (Nat.mod_lt n (by decide))]
        omega

theorem hexValue_zeros_append (count : Nat) (digits : List Char) :
    hexValue (List.replicate count '0' ++ digits) = hexValue digits := by
  have zeros : hexValue (List.replicate count '0') = 0 := by
    induction count with
    | zero => rfl
    | succ count ih =>
        rw [List.replicate_succ', hexValue_append_digit, ih]
        rfl
  rw [hexValue, List.foldl_append]
  exact congrArg (fun value => digits.foldl _ value) zeros

/-- Two digests that are written alike are equal. -/
theorem hex_injective {v w : UInt64} (same : hex v = hex w) : v = w := by
  have digits := congrArg (fun text => hexValue text.toList) same
  simp only [hex, String.toList_ofList, hexValue_zeros_append, hexValue_toDigits] at digits
  exact UInt64.toNat_inj.mp digits

end ShardFleet.Digest
