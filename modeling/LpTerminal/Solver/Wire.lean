import Mathlib.Algebra.Group.Int.Defs
import Mathlib.Data.Rat.Defs

/-!
What the quote client reads off an untyped response body. A missing property is `none`, as `undefined`
is not `null`.
-/

namespace LpTerminal.Solver

/-- A parsed body. A number is a finite double; an object has each of its names once. -/
inductive Json where
  | null
  | bool (value : Bool)
  | num (value : ℚ)
  | str (text : String)
  | arr (items : List Json)
  | obj (fields : List (String × Json))

def asRecord : Option Json → Option (List (String × Json))
  | some (.obj fields) => some fields
  | _ => none

/-- `asRecord(value)?.name`. -/
def property (value : Option Json) (name : String) : Option Json :=
  (asRecord value).bind (·.lookup name)

/-- `value === undefined || value === null`. -/
def absent : Option Json → Bool
  | none | some .null => true
  | _ => false

def text : Option Json → Option String
  | some (.str characters) => some characters
  | _ => none

def maxSafeInteger : ℤ := 2 ^ 53 - 1

def safeNat (number : ℚ) : Option ℕ :=
  if number.den = 1 ∧ 0 ≤ number.num ∧ number.num ≤ maxSafeInteger then some number.num.toNat else none

def isUnsignedInteger : Option Json → Option ℕ
  | some (.num number) => safeNat number
  | _ => none

theorem safeNat_eq {number : ℚ} {n : ℕ} (read : safeNat number = some n) : number = n := by
  unfold safeNat at read
  split at read
  · rename_i safe
    obtain ⟨whole, nonneg, _⟩ := safe
    cases read
    have exact : (number.num.toNat : ℤ) = number.num := Int.toNat_of_nonneg nonneg
    rw [← Rat.coe_int_num_of_den_eq_one whole, ← exact]
    rfl
  · cases read

theorem isUnsignedInteger_eq {value : Option Json} {n : ℕ} (read : isUnsignedInteger value = some n) :
    value = some (.num n) := by
  unfold isUnsignedInteger at read
  split at read
  · rw [safeNat_eq read]
  · cases read

/-- `toLowerCase`. Every comparison it is used in has an ASCII side, and no character outside ASCII has
a lower case among the digits, the letters up to f and x. -/
def lower (s : String) : String :=
  String.ofList (s.toList.map Char.toLower)

/-- `^(0|[1-9]\d*)$`. -/
def isUnsignedDecimal (s : String) : Bool :=
  match s.toList with
  | [] => false
  | ['0'] => true
  | first :: rest => first != '0' && (first :: rest).all Char.isDigit

/-- White space and line ends as `trim` removes them. -/
def isSpace (c : Char) : Bool :=
  c.toNat ∈ [9, 10, 11, 12, 13, 32, 160, 5760, 8232, 8233, 8239, 8287, 12288, 65279] || (8192 ≤ c.toNat && c.toNat ≤ 8202)

def trim (s : List Char) : List Char :=
  ((s.dropWhile isSpace).reverse.dropWhile isSpace).reverse

def digitValue (radix : ℕ) (c : Char) : Option ℕ :=
  let value : ℕ :=
    if c.isDigit then c.toNat - '0'.toNat
    else if 'a' ≤ c ∧ c ≤ 'f' then c.toNat - 'a'.toNat + 10
    else if 'A' ≤ c ∧ c ≤ 'F' then c.toNat - 'A'.toNat + 10
    else radix
  if value < radix then some value else none

def spelled (radix : ℕ) : List Char → Option ℕ
  | [] => none
  | digits => digits.foldlM (fun acc c => (digitValue radix c).map (acc * radix + ·)) 0

/-- `BigInt(text)`. -/
def bigInt (s : String) : Option ℤ :=
  match trim s.toList with
  | [] => some 0
  | '0' :: 'x' :: digits | '0' :: 'X' :: digits => (spelled 16 digits).map (↑·)
  | '0' :: 'o' :: digits | '0' :: 'O' :: digits => (spelled 8 digits).map (↑·)
  | '0' :: 'b' :: digits | '0' :: 'B' :: digits => (spelled 2 digits).map (↑·)
  | '-' :: digits => (spelled 10 digits).map fun (value : ℕ) => -(value : ℤ)
  | '+' :: digits => (spelled 10 digits).map (↑·)
  | digits => (spelled 10 digits).map (↑·)

/-- `isUnsignedDecimal(value) ? BigInt(value) : null`. -/
def decimal (value : Option Json) : Option ℤ :=
  ((text value).filter isUnsignedDecimal).bind bigInt

theorem space_not_digit {c : Char} (digit : c.isDigit = true) : isSpace c = false := by
  obtain ⟨low, high⟩ := Char.isDigit_iff_toNat.mp digit
  have least : '0'.toNat = 48 := rfl
  have most : '9'.toNat = 57 := rfl
  simp [isSpace]
  omega

theorem dropWhile_space {s : List Char} (clean : ∀ c ∈ s, isSpace c = false) : s.dropWhile isSpace = s := by
  cases s with
  | nil => rfl
  | cons first rest => rw [List.dropWhile_cons_of_neg (by simp [clean first List.mem_cons_self])]

theorem trim_clean {s : List Char} (clean : ∀ c ∈ s, isSpace c = false) : trim s = s := by
  have backward : ∀ c ∈ s.reverse, isSpace c = false := fun c member => clean c (List.mem_reverse.mp member)
  rw [trim, dropWhile_space clean, dropWhile_space backward, List.reverse_reverse]

theorem digitValue_digitChar {n : ℕ} (small : n < 10) : digitValue 10 (Nat.digitChar n) = some n := by
  have each : ∀ d : Fin 10, digitValue 10 (Nat.digitChar d) = some d.val := by decide
  exact each ⟨n, small⟩

theorem foldlM_toDigits (n : ℕ) :
    (Nat.toDigits 10 n).foldlM (fun acc c => (digitValue 10 c).map (acc * 10 + ·)) 0 = some n := by
  induction n using Nat.strong_induction_on with
  | _ n ih =>
    rw [Nat.toDigits_eq_if (by omega)]
    split
    · rename_i small
      simp [digitValue_digitChar small]
    · rename_i large
      have last := digitValue_digitChar (Nat.mod_lt n (by omega : 10 > 0))
      rw [List.foldlM_append, ih (n / 10) (by omega)]
      simp [last]
      omega

theorem spelled_toDigits (n : ℕ) : spelled 10 (Nat.toDigits 10 n) = some n := by
  unfold spelled
  split
  · rename_i none
    exact absurd none Nat.toDigits_ne_nil
  · exact foldlM_toDigits n

theorem bigInt_toString (a : ℤ) : bigInt (toString a) = some a := by
  have digits : ∀ n, ∀ c ∈ Nat.toDigits 10 n, c.isDigit = true := fun n c member =>
    Nat.isDigit_of_mem_toDigits (by decide) (by decide) member
  rw [Int.toString_eq_repr]
  cases a with
  | ofNat n =>
    have clean : ∀ c ∈ Nat.toDigits 10 n, isSpace c = false := fun c member => space_not_digit (digits n c member)
    have same : (Int.repr (Int.ofNat n)).toList = Nat.toDigits 10 n := Nat.toList_repr
    have all := digits n
    have value := spelled_toDigits n
    unfold bigInt
    rw [same, trim_clean clean]
    generalize Nat.toDigits 10 n = printed at all value
    split
    · cases value
    all_goals first
      | exact absurd (all _ (List.mem_cons_of_mem _ List.mem_cons_self)) (by decide)
      | exact absurd (all _ List.mem_cons_self) (by decide)
      | rw [value]; rfl
  | negSucc n =>
    have clean : ∀ c ∈ '-' :: Nat.toDigits 10 (n + 1), isSpace c = false := by
      intro c member
      rcases List.mem_cons.mp member with rfl | member
      · decide
      · exact space_not_digit (digits _ c member)
    have same : (Int.repr (Int.negSucc n)).toList = '-' :: Nat.toDigits 10 (n + 1) := by
      change ("-" ++ (n + 1).repr).toList = _
      rw [String.toList_append, Nat.toList_repr]
      rfl
    unfold bigInt
    rw [same, trim_clean clean]
    change (spelled 10 (Nat.toDigits 10 (n + 1))).map (fun value : ℕ => -(value : ℤ)) = _
    rw [spelled_toDigits]
    rfl

end LpTerminal.Solver
