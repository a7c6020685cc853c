import Mathlib.Data.Rat.Floor
import Mathlib.Data.List.Infix

/-!
# The parts of JavaScript the service relies on

`BigInt` of a string and of a number, comparison of a `BigInt` with either,
`String.prototype.includes`, and the two conversions of a Node `Buffer`: from
hexadecimal text, and to UTF-8 text with the replacement character where the
bytes are not well formed.  A JavaScript number is kept as the rational it
denotes; the service never computes with one that is not finite.
-/

namespace AccountService.JavaScript

/-! ## Strings -/

/-- `haystack.includes(needle)`. -/
def includes (haystack needle : String) : Bool :=
  decide (needle.toList <:+: haystack.toList)

/-- The white space and line terminators `BigInt` skips around a literal. -/
def isStrWhiteSpace (c : Char) : Bool :=
  let n := c.toNat
  (9 ≤ n && n ≤ 13) || n == 0x20 || n == 0xA0 || n == 0x1680 ||
    (0x2000 ≤ n && n ≤ 0x200A) || n == 0x2028 || n == 0x2029 || n == 0x202F ||
    n == 0x205F || n == 0x3000 || n == 0xFEFF

/-- Drop white space at both ends. -/
def trim (cs : List Char) : List Char :=
  ((cs.dropWhile isStrWhiteSpace).reverse.dropWhile isStrWhiteSpace).reverse

/-- The value of a digit, up to hexadecimal. -/
def digitValue (c : Char) : Option ℕ :=
  if '0' ≤ c ∧ c ≤ '9' then some (c.toNat - 48)
  else if 'a' ≤ c ∧ c ≤ 'f' then some (c.toNat - 87)
  else if 'A' ≤ c ∧ c ≤ 'F' then some (c.toNat - 55)
  else none

/-- Read digits of a base after the value of those already read. -/
def readDigits (base : ℕ) : ℕ → List Char → Option ℕ
  | acc, [] => some acc
  | acc, c :: cs =>
      match digitValue c with
      | some d => if d < base then readDigits base (acc * base + d) cs else none
      | none => none

/-- A non-empty sequence of digits of a base. -/
def digits (base : ℕ) : List Char → Option ℕ
  | [] => none
  | c :: cs => readDigits base 0 (c :: cs)

/-- `StringToBigInt`: white space around, an optional sign before decimal
digits, the prefixes `0x`, `0o` and `0b` in either case; the empty string is
zero.  `none` where the grammar rejects. -/
def stringToBigInt (s : String) : Option ℤ :=
  match trim s.toList with
  | [] => some 0
  | '0' :: 'x' :: cs => (digits 16 cs).map Int.ofNat
  | '0' :: 'X' :: cs => (digits 16 cs).map Int.ofNat
  | '0' :: 'o' :: cs => (digits 8 cs).map Int.ofNat
  | '0' :: 'O' :: cs => (digits 8 cs).map Int.ofNat
  | '0' :: 'b' :: cs => (digits 2 cs).map Int.ofNat
  | '0' :: 'B' :: cs => (digits 2 cs).map Int.ofNat
  | '-' :: cs => (digits 10 cs).map fun n => -(n : ℤ)
  | '+' :: cs => (digits 10 cs).map Int.ofNat
  | cs => (digits 10 cs).map Int.ofNat

/-! ## Decimal notation -/

theorem digitValue_digitChar : ∀ n < 16, digitValue (Nat.digitChar n) = some n := by
  decide

theorem readDigits_append (base acc : ℕ) (cs ds : List Char) :
    readDigits base acc (cs ++ ds) =
      (readDigits base acc cs).bind fun acc => readDigits base acc ds := by
  induction cs generalizing acc with
  | nil => rfl
  | cons c cs ih =>
      rw [List.cons_append, readDigits, readDigits]
      cases digitValue c with
      | none => rfl
      | some d =>
          by_cases hd : d < base
          · simpa only [if_pos hd] using ih _
          · simp only [if_neg hd]
            rfl

/-- The last digit comes off the end. -/
theorem readDigits_toDigits_of_le {base : ℕ} (hone : 1 < base) (hle : base ≤ 16) (n : ℕ) :
    readDigits base 0 (Nat.toDigits base n) = some n := by
  induction n using Nat.strongRecOn with
  | ind n ih =>
      have hmod : n % base < base := Nat.mod_lt _ (by omega)
      have hlast : digitValue (Nat.digitChar (n % base)) = some (n % base) :=
        digitValue_digitChar _ (by omega)
      rw [Nat.toDigits_eq_if hone]
      by_cases hn : n < base
      · rw [Nat.mod_eq_of_lt hn] at hlast
        simp [readDigits, hlast, hn]
      · have hvalue : n / base * base + n % base = n := Nat.div_add_mod' n base
        rw [if_neg hn, readDigits_append, ih _ (Nat.div_lt_self (by omega) hone)]
        simp [readDigits, hlast, hmod, hvalue]

theorem readDigits_toDigits (n : ℕ) : readDigits 10 0 (Nat.toDigits 10 n) = some n :=
  readDigits_toDigits_of_le (by decide) (by decide) n

private theorem not_isStrWhiteSpace_of_isDigit {c : Char} (h : c.isDigit) :
    isStrWhiteSpace c = false := by
  have hle : 48 ≤ c.toNat ∧ c.toNat ≤ 57 := by
    simpa [Char.isDigit, UInt32.le_iff_toNat_le] using h
  simp [isStrWhiteSpace]
  omega

theorem trim_eq_self {cs : List Char} (h : ∀ c ∈ cs, isStrWhiteSpace c = false) :
    trim cs = cs := by
  have hkeep : ∀ ds : List Char, (∀ c ∈ ds, isStrWhiteSpace c = false) →
      ds.dropWhile isStrWhiteSpace = ds := by
    intro ds hds
    cases ds with
    | nil => rfl
    | cons d ds => rw [List.dropWhile_cons_of_neg (by simp [hds d List.mem_cons_self])]
  rw [trim, hkeep cs h, hkeep cs.reverse fun c hc => h c (List.mem_reverse.mp hc),
    List.reverse_reverse]

/-- `BigInt` reads back the decimal notation of a number. -/
theorem stringToBigInt_toString (n : ℕ) : stringToBigInt (toString n) = some (n : ℤ) := by
  have hdigits : (toString n).toList = Nat.toDigits 10 n := by
    rw [Nat.toString_eq_repr, Nat.toList_repr]
  have hdigit : ∀ c ∈ Nat.toDigits 10 n, c.isDigit := fun c hc =>
    Nat.isDigit_of_mem_toDigits (by decide) (by decide) hc
  have hread : digits 10 (Nat.toDigits 10 n) = some n := by
    rw [← readDigits_toDigits n]
    cases hcs : Nat.toDigits 10 n with
    | nil => exact absurd hcs Nat.toDigits_ne_nil
    | cons c cs => rfl
  have htrim : trim (Nat.toDigits 10 n) = Nat.toDigits 10 n :=
    trim_eq_self fun c hc => not_isStrWhiteSpace_of_isDigit (hdigit c hc)
  unfold stringToBigInt
  rw [hdigits, htrim]
  -- neither a sign nor the letter of a prefix is a digit
  split
  · rename_i hcs
    exact absurd hcs Nat.toDigits_ne_nil
  case h_10 => simp [hread]
  all_goals
    rename_i hcs
    rw [hcs] at hdigit
    simp at hdigit

/-! ## Numbers and numeric strings -/

/-- What a JSON document may hold where a number is meant. -/
inductive Numeric where
  | number (q : ℚ)
  | string (s : String)
  deriving DecidableEq

/-- `BigInt(v)`: `none` stands for the exception it throws. -/
def Numeric.toBigInt : Numeric → Option ℤ
  | number q => if q.den = 1 then some q.num else none
  | string s => stringToBigInt s

/-- `b >= v` for a `BigInt` `b`: exact against a number, false against a
string that is no integer literal. -/
def bigIntGe (b : ℤ) : Numeric → Bool
  | .number q => decide (q ≤ b)
  | .string s =>
      match stringToBigInt s with
      | some n => decide (n ≤ b)
      | none => false

/-! ## Buffers -/

/-- `Buffer.from(text, 'hex')`: pairs of digits up to the first that is none. -/
def bufferFromHex : List Char → List UInt8
  | c :: d :: cs =>
      match digitValue c, digitValue d with
      | some a, some b => UInt8.ofNat (a * 16 + b) :: bufferFromHex cs
      | _, _ => []
  | _ => []

/-- One byte as two hexadecimal digits. -/
def hexOfByte (b : UInt8) : List Char :=
  [Nat.digitChar (b.toNat / 16), Nat.digitChar (b.toNat % 16)]

/-- A UTF-8 sequence of which `need` bytes are still to come, the next of them
between `lo` and `hi`. -/
structure Pending where
  need : ℕ
  code : ℕ
  lo : ℕ
  hi : ℕ

/-- U+FFFD. -/
def replacement : Char := Char.ofNat 0xFFFD

/-- The first byte of a sequence. -/
def leadByte (b : ℕ) : List Char × Option Pending :=
  if b < 0x80 then ([Char.ofNat b], none)
  else if 0xC2 ≤ b ∧ b ≤ 0xDF then ([], some ⟨1, b - 0xC0, 0x80, 0xBF⟩)
  else if b = 0xE0 then ([], some ⟨2, 0, 0xA0, 0xBF⟩)
  else if b = 0xED then ([], some ⟨2, 0xD, 0x80, 0x9F⟩)
  else if 0xE1 ≤ b ∧ b ≤ 0xEF then ([], some ⟨2, b - 0xE0, 0x80, 0xBF⟩)
  else if b = 0xF0 then ([], some ⟨3, 0, 0x90, 0xBF⟩)
  else if 0xF1 ≤ b ∧ b ≤ 0xF3 then ([], some ⟨3, b - 0xF0, 0x80, 0xBF⟩)
  else if b = 0xF4 then ([], some ⟨3, 4, 0x80, 0x8F⟩)
  else ([replacement], none)

/-- One byte of the decoder: a byte that does not continue the pending
sequence ends it with a replacement character and is read again as a first
byte. -/
def decodeByte (s : Option Pending) (b : ℕ) : List Char × Option Pending :=
  match s with
  | none => leadByte b
  | some p =>
      if p.lo ≤ b ∧ b ≤ p.hi then
        if p.need = 1 then ([Char.ofNat (p.code * 64 + b % 64)], none)
        else ([], some ⟨p.need - 1, p.code * 64 + b % 64, 0x80, 0xBF⟩)
      else (replacement :: (leadByte b).1, (leadByte b).2)

/-- `buffer.toString('utf-8')`, from a pending sequence on. -/
def decodeUtf8 : Option Pending → List UInt8 → List Char
  | none, [] => []
  | some _, [] => [replacement]
  | s, b :: bs => (decodeByte s b.toNat).1 ++ decodeUtf8 (decodeByte s b.toNat).2 bs

/-- `buffer.toString('utf-8')`. -/
def utf8ToString (bs : List UInt8) : String := String.ofList (decodeUtf8 none bs)

end AccountService.JavaScript
