import MachineController.Go.Basic

/-!
# MachineController.Go.Strconv — `strconv.Itoa` and `strconv.Atoi` on Go's `int`

`doInstance.ID` renders a droplet's `int` ID with `strconv.Itoa`, and `Delete` reads it back
with `strconv.Atoi`, dropping the error (`doID, _ := strconv.Atoi(i.ID())`).  Both are modelled
on a 64-bit platform: `GoInt` is `int` with its range as fields, conversions wrap modulo `2^64`,
`itoa` is `FormatInt(int64(i), 10)` and `atoi` is `ParseInt(s, 10, 0)` with the error's `Func`
set to `"Atoi"`.  `atoi_itoa` is the round trip: every `int` comes back, with no error.
-/

namespace MachineController.Go

/-- `strconv.ErrSyntax` and `strconv.ErrRange`. -/
inductive NumErr
  | errSyntax
  | errRange
deriving DecidableEq, Repr

/-- `*strconv.NumError`: the failing function, its input and the cause. -/
structure NumError where
  func : String
  num : String
  err : NumErr
deriving DecidableEq, Repr

/-! ## Formatting -/

/-- The decimal digits of `u`, most significant first: `formatBits(u, 10)` without the sign. -/
def formatDecimal (u : Nat) : List Char := Nat.toDigits 10 u

/-- `strconv.Itoa(i)`, i.e. `FormatInt(int64(i), 10)`.  For `i < 0`, `formatBits` negates
`uint64(i)`, which is `|i|` also for `MinInt64`, and writes a `-` in front. -/
def itoa (i : GoInt) : String :=
  String.mk ((if i.val < 0 then ['-'] else []) ++ formatDecimal i.val.natAbs)

/-! ## Parsing -/

/-- `1<<64 - 1`, the largest `uint64`. -/
def maxUint64 : Nat := 2 ^ 64 - 1

/-- The digit loop of `ParseUint(s, 10, 64)` from the value `n` read so far.  A non-digit is a
syntax error; `n ≥ cutoff` (`n*10` overflows) or a sum past `maxUint64` is a range error with the
value `maxUint64`. -/
def parseUintLoop : Nat → List Char → Nat × Option NumErr
  | n, [] => (n, none)
  | n, c :: cs =>
    if '0' ≤ c ∧ c ≤ '9' then
      if maxUint64 / 10 + 1 ≤ n then (maxUint64, some .errRange)
      else
        let n1 := n * 10 + (c.toNat - '0'.toNat)
        if maxUint64 < n1 then (maxUint64, some .errRange) else parseUintLoop n1 cs
    else (0, some .errSyntax)

/-- `ParseUint(s, 10, 64)`: the empty string is a syntax error. -/
def parseUint (s : List Char) : Nat × Option NumErr :=
  if s = [] then (0, some .errSyntax) else parseUintLoop 0 s

/-- The sign `ParseInt` strips: `+` or `-` in front, or none. -/
def splitSign : List Char → Bool × List Char
  | '+' :: r => (false, r)
  | '-' :: r => (true, r)
  | r => (false, r)

/-- `ParseInt(s, 10, 0)` on a 64-bit platform: an optional sign, then `ParseUint`; a magnitude
past the `int` range is clamped with a range error. -/
def parseInt (s : List Char) : GoInt × Option NumErr :=
  if s = [] then (0, some .errSyntax) else
  let (neg, body) := splitSign s
  match parseUint body with
  | (_, some .errSyntax) => (0, some .errSyntax)
  | (un, _) =>
    if !neg ∧ 2 ^ 63 ≤ un then (GoInt.ofInt (2 ^ 63 - 1), some .errRange)
    else if neg ∧ 2 ^ 63 < un then (GoInt.ofInt (-2 ^ 63), some .errRange)
    else
      let n := GoInt.ofInt un
      (if neg then n.neg else n, none)

/-- `strconv.Atoi(s)`: `ParseInt(s, 10, 0)` with the error's `Func` set to `"Atoi"`. -/
def atoi (s : String) : GoInt × Option NumError :=
  let r := parseInt s.toList
  (r.1, r.2.map fun err => ⟨"Atoi", s, err⟩)

/-! ## The round trip -/

/-- The value of a run of digits read after `n`, with no overflow check. -/
def digitsValue (n : Nat) (cs : List Char) : Nat :=
  cs.foldl (fun a c => a * 10 + (c.toNat - '0'.toNat)) n

/-- A decimal digit character. -/
def IsDigit (c : Char) : Prop := '0' ≤ c ∧ c ≤ '9'

theorem le_digitsValue (n : Nat) (cs : List Char) : n ≤ digitsValue n cs := by
  induction cs generalizing n with
  | nil => exact le_rfl
  | cons c cs ih =>
    have := ih (n * 10 + (c.toNat - '0'.toNat))
    simp only [digitsValue, List.foldl_cons] at this ⊢
    omega

@[simp] theorem digitsValue_append (n : Nat) (cs : List Char) (c : Char) :
    digitsValue n (cs ++ [c]) = digitsValue n cs * 10 + (c.toNat - '0'.toNat) := by
  simp [digitsValue]

/-- Without overflow, the digit loop reads the value of the digits. -/
theorem parseUintLoop_digits {cs : List Char} (hd : ∀ c ∈ cs, IsDigit c) :
    ∀ n, digitsValue n cs ≤ maxUint64 → parseUintLoop n cs = (digitsValue n cs, none) := by
  induction cs with
  | nil => intro n _; rfl
  | cons c cs ih =>
    intro n hn
    have hc : IsDigit c := hd c (by simp)
    have hn' : digitsValue (n * 10 + (c.toNat - '0'.toNat)) cs ≤ maxUint64 := hn
    have hle := le_digitsValue (n * 10 + (c.toNat - '0'.toNat)) cs
    rw [parseUintLoop, if_pos (show '0' ≤ c ∧ c ≤ '9' from hc), if_neg (by unfold maxUint64 at *; omega),
      if_neg (by omega), ih (fun x hx => hd x (by simp [hx])) _ hn']
    rfl

theorem digitChar_spec : ∀ d, d < 10 →
    IsDigit (Nat.digitChar d) ∧ (Nat.digitChar d).toNat - '0'.toNat = d := by
  unfold IsDigit; decide

theorem toDigitsCore_acc (f n : Nat) (ds : List Char) :
    Nat.toDigitsCore 10 f n ds = Nat.toDigitsCore 10 f n [] ++ ds := by
  induction f generalizing n ds with
  | zero => rfl
  | succ f ih =>
    simp only [Nat.toDigitsCore]
    split
    · rfl
    · rw [ih _ (_ :: ds), ih _ [_]]; simp

/-- `Nat.toDigitsCore` with enough fuel writes nonempty decimal digits of value `n`. -/
theorem toDigitsCore_spec : ∀ f n, n < f →
    Nat.toDigitsCore 10 f n [] ≠ [] ∧ (∀ c ∈ Nat.toDigitsCore 10 f n [], IsDigit c) ∧
      digitsValue 0 (Nat.toDigitsCore 10 f n []) = n
  | 0, n, h => absurd h (Nat.not_lt_zero n)
  | f + 1, n, h => by
    have ⟨hdig, hval⟩ := digitChar_spec (n % 10) (Nat.mod_lt _ (by omega))
    simp only [Nat.toDigitsCore]
    split
    · refine ⟨by simp, by simpa using hdig, ?_⟩
      simp only [digitsValue, List.foldl_cons, List.foldl_nil, hval]; omega
    · have ⟨_, hd, hv⟩ := toDigitsCore_spec f (n / 10) (by omega)
      rw [toDigitsCore_acc]
      refine ⟨by simp, fun c hc => ?_, by rw [digitsValue_append, hv, hval]; omega⟩
      rcases List.mem_append.mp hc with hc | hc
      · exact hd c hc
      · simp only [List.mem_singleton] at hc; exact hc ▸ hdig

theorem formatDecimal_spec (u : Nat) :
    formatDecimal u ≠ [] ∧ (∀ c ∈ formatDecimal u, IsDigit c) ∧ digitsValue 0 (formatDecimal u) = u :=
  toDigitsCore_spec (u + 1) u (Nat.lt_succ_self u)

theorem formatDecimal_inj {u v : Nat} (h : formatDecimal u = formatDecimal v) : u = v := by
  rw [← (formatDecimal_spec u).2.2, h, (formatDecimal_spec v).2.2]

theorem parseUint_formatDecimal {u : Nat} (hu : u ≤ maxUint64) :
    parseUint (formatDecimal u) = (u, none) := by
  obtain ⟨hne, hd, hv⟩ := formatDecimal_spec u
  rw [parseUint, if_neg hne, parseUintLoop_digits hd 0 (by rw [hv]; exact hu), hv]

theorem splitSign_formatDecimal (u : Nat) (neg : Bool) :
    splitSign ((if neg then ['-'] else []) ++ formatDecimal u) = (neg, formatDecimal u) := by
  obtain ⟨hne, hd, -⟩ := formatDecimal_spec u
  cases neg with
  | true => rfl
  | false =>
    obtain ⟨c, cs, hcs⟩ := List.exists_cons_of_ne_nil hne
    have hc := hd c (by simp [hcs])
    simp only [Bool.false_eq_true, ↓reduceIte, List.nil_append, hcs]
    unfold splitSign
    split <;> simp_all [IsDigit]

/-- `ParseInt(s, 10, 0)` reads back every `int` that `Itoa` writes, with no error. -/
theorem parseInt_itoa (i : GoInt) : parseInt (itoa i).data = (i, none) := by
  have hi := i.ge; have hi' := i.lt
  have hmax : i.val.natAbs ≤ maxUint64 := by unfold maxUint64; omega
  have hne : (if i.val < 0 then ['-'] else []) ++ formatDecimal i.val.natAbs ≠ [] := by
    simp [(formatDecimal_spec _).1]
  have hsign := splitSign_formatDecimal i.val.natAbs (decide (i.val < 0))
  simp only [decide_eq_true_eq] at hsign
  simp only [itoa, parseInt, if_neg hne, hsign, parseUint_formatDecimal hmax]
  by_cases hneg : i.val < 0
  · have hle : ¬ 2 ^ 63 < i.val.natAbs := by omega
    simp only [hneg, hle, decide_True, Bool.not_true, Bool.false_eq_true, false_and, and_false,
      ↓reduceIte, Prod.mk.injEq]
    refine ⟨GoInt.ext ?_, trivial⟩
    simp only [GoInt.neg_val, GoInt.ofInt_val]; omega
  · have hlt : ¬ 2 ^ 63 ≤ i.val.natAbs := by omega
    simp only [hneg, hlt, decide_False, Bool.not_false, true_and, Bool.false_eq_true, false_and,
      ↓reduceIte, Prod.mk.injEq]
    refine ⟨GoInt.ext ?_, trivial⟩
    simp only [GoInt.ofInt_val]; omega

/-- **Round trip**: `Atoi` reads back every `int` that `Itoa` writes, with no error. -/
theorem atoi_itoa (i : GoInt) : atoi (itoa i) = (i, none) := by
  simp only [atoi, String.toList, parseInt_itoa, Option.map_none']

end MachineController.Go
