import MachineController.Go.Basic

/-!
# MachineController.Encoding.Asn1.Integer — INTEGER contents in `encoding/asn1`

`asn1.Marshal` writes a `*big.Int` with `makeBigInt` and an `int` with `int64Encoder`; both give
the shortest two's complement octets.  `asn1.Unmarshal` reads them back with `parseBigInt` and
`parseInt64`, after `checkInteger` has refused empty contents and a first octet that only
repeats the sign.  Errors are the texts their `Error()` methods return.

* `parseBigInt_makeBigInt`: the contents of every integer read back;
* `parseInt64_int64Encode`: the contents of every `int64` read back.
-/

namespace MachineController.Encoding.Asn1

open MachineController.Go

/-! ## Errors -/

/-- `asn1.SyntaxError{msg}.Error()`. -/
def syntaxError (msg : String) : String := "asn1: syntax error: " ++ msg

/-- `asn1.StructuralError{msg}.Error()`. -/
def structuralError (msg : String) : String := "asn1: structure error: " ++ msg

/-! ## Octets of numbers -/

/-- `(*big.Int).Bytes()` of `n ≥ 0`: big-endian with no leading zero, empty for zero. -/
def natBytes : Nat → List UInt8 :=
  boundedFix id (fun natBytes n => if n = 0 then [] else natBytes (n / 256) ++ [byte n]) []

/-- `(*big.Int).SetBytes`: the value of big-endian octets. -/
def bytesValue (bs : List UInt8) : Nat := bs.foldl (fun acc b => acc * 256 + b.toNat) 0

/-- The complement `^b` of every octet. -/
def complement (bs : List UInt8) : List UInt8 := bs.map fun b => 255 - b

/-- `byte(x)` of a signed `x`: its low eight bits. -/
def intByte (x : Int) : UInt8 := byte (x % 256).toNat

/-! ## Writing -/

/-- `makeBigInt`: a negative number is the complement of the octets of `-n - 1`, with `0xff` in
front when there are none or the first is below 128; zero is one zero octet; a positive number
is its octets, with a zero octet in front when the first is at least 128. -/
def makeBigInt (n : Int) : List UInt8 :=
  if n < 0 then
    let bytes := complement (natBytes (-n - 1).toNat)
    if bytes = [] ∨ (bytes.headD 0).toNat < 128 then 255 :: bytes else bytes
  else if n = 0 then [0]
  else
    let bytes := natBytes n.toNat
    if 128 ≤ (bytes.headD 0).toNat then 0 :: bytes else bytes

/-- `i >> 8` on a signed integer is the quotient by 256, rounded down. -/
theorem shiftRight_eight (i : Int) : i >>> (8 : Nat) = i / 256 := by
  rw [Int.shiftRight_eq_div_pow]; rfl

/-- `int64Encoder.Len`: one octet, and one more for every `i >>= 8` that a value above 127, or
below -128, needs.  Only one of its two loops runs, since `>>= 8` keeps the sign. -/
def int64Len : Int → Nat :=
  boundedFix Int.natAbs
    (fun int64Len i => if 127 < i ∨ i < -128 then int64Len (i >>> (8 : Nat)) + 1 else 1) 1

/-- `int64Encoder.Encode`: `dst[j] = byte(i >> ((n-1-j)*8))` for `j < n = Len()`. -/
def int64Encode (i : Int) : List UInt8 :=
  (List.range (int64Len i)).map fun j => intByte (i >>> ((int64Len i - 1 - j) * 8))

/-! ## Reading -/

/-- `checkInteger`: no empty contents, and no first octet that only repeats the sign. -/
def checkInteger : List UInt8 → Except String Unit
  | [] => .error (structuralError "empty integer")
  | [_] => .ok ()
  | b0 :: b1 :: _ =>
    if (b0 = 0 ∧ b1.toNat < 128) ∨ (b0 = 255 ∧ 128 ≤ b1.toNat) then
      .error (structuralError "integer not minimally-encoded")
    else .ok ()

/-- The two's complement value of octets. -/
def intValue (bs : List UInt8) : Int :=
  if 128 ≤ (bs.headD 0).toNat then -((bytesValue (complement bs) : Int) + 1)
  else bytesValue bs

/-- `parseBigInt`. -/
def parseBigInt (bs : List UInt8) : Except String Int := do
  checkInteger bs
  return intValue bs

/-- `parseInt64`: more than eight octets overflow an `int64`; the shifts that sign-extend the
result give the two's complement value. -/
def parseInt64 (bs : List UInt8) : Except String Int := do
  checkInteger bs
  if 8 < bs.length then throw (structuralError "integer too large")
  return intValue bs

/-! ## Octets of a natural number -/

theorem natBytes_eq (n : Nat) :
    natBytes n = if n = 0 then [] else natBytes (n / 256) ++ [byte n] :=
  boundedFix_eq (fun g g' n h => by
    split_ifs with hn
    · rfl
    · rw [h _ (by dsimp only [id]; omega)]) n

theorem natBytes_eq_digits (n : Nat) : natBytes n = ((Nat.digits 256 n).map byte).reverse := by
  induction n using Nat.strong_induction_on with
  | _ n ih =>
    rw [natBytes_eq]
    split_ifs with hn
    · subst hn; simp
    · have hb : byte (n % 256) = byte n := UInt8.ext (by simp)
      rw [ih (n / 256) (by omega), @Nat.digits_def' 256 (by norm_num) n (by omega), List.map_cons,
        List.reverse_cons, hb]

theorem bytesValue_append (bs : List UInt8) (b : UInt8) :
    bytesValue (bs ++ [b]) = bytesValue bs * 256 + b.toNat := by
  simp [bytesValue]

theorem bytesValue_digits : ∀ ds : List Nat, (∀ d ∈ ds, d < 256) →
    bytesValue ((ds.map byte).reverse) = Nat.ofDigits 256 ds
  | [], _ => rfl
  | d :: ds, h => by
    have hd : d < 256 := h d (List.mem_cons_self _ _)
    rw [List.map_cons, List.reverse_cons, bytesValue_append,
      bytesValue_digits ds fun x hx => h x (List.mem_cons_of_mem _ hx), Nat.ofDigits_cons,
      byte_toNat, Nat.mod_eq_of_lt hd]
    ring

@[simp] theorem bytesValue_natBytes (n : Nat) : bytesValue (natBytes n) = n := by
  rw [natBytes_eq_digits, bytesValue_digits _ fun d hd => Nat.digits_lt_base (by norm_num) hd,
    Nat.ofDigits_digits]

theorem natBytes_eq_nil {n : Nat} : natBytes n = [] ↔ n = 0 := by
  rw [natBytes_eq_digits, List.reverse_eq_nil_iff, List.map_eq_nil_iff, ← not_iff_not]
  exact @Nat.digits_ne_nil_iff_ne_zero 256 n

/-- The octets of a positive number are those of its quotient by 256, then its last octet. -/
theorem natBytes_of_pos {n : Nat} (hn : 0 < n) : natBytes n = natBytes (n / 256) ++ [byte n] := by
  rw [natBytes_eq, if_neg (by omega)]

/-- The first octet of a positive number is not zero. -/
theorem natBytes_headD_ne_zero {n : Nat} (hn : n ≠ 0) : ((natBytes n).headD 0).toNat ≠ 0 := by
  have hne := (@Nat.digits_ne_nil_iff_ne_zero 256 n).mpr hn
  have hlast := Nat.getLast_digit_ne_zero 256 hn
  have hlt := Nat.digits_lt_base (by norm_num : 1 < 256) (List.getLast_mem hne)
  rw [natBytes_eq_digits, List.headD_eq_head?_getD, List.head?_reverse, List.getLast?_map,
    List.getLast?_eq_getLast _ hne]
  simpa [Nat.mod_eq_of_lt hlt] using hlast

/-- A number below `256 ^ k` has at most `k` octets. -/
theorem natBytes_length_le {n k : Nat} (h : n < 256 ^ k) : (natBytes n).length ≤ k := by
  rcases Nat.eq_zero_or_pos n with rfl | hn
  · simp [natBytes_eq_digits]
  · have hlen : (natBytes n).length = (Nat.digits 256 n).length := by simp [natBytes_eq_digits]
    rw [hlen]
    by_contra hk
    have h1 := Nat.base_pow_length_digits_le 256 n (by norm_num) hn.ne'
    have h2 : 256 ^ (k + 1) ≤ 256 ^ (Nat.digits 256 n).length :=
      Nat.pow_le_pow_right (by norm_num) (by omega)
    rw [pow_succ] at h2
    omega

theorem toNat_complement (b : UInt8) : (255 - b).toNat = 255 - b.toNat := by
  have := b.toNat_lt
  simp only [UInt8.toNat_sub, UInt8.size, UInt8.toNat_ofNat] at this ⊢; omega

theorem complement_complement (bs : List UInt8) : complement (complement bs) = bs := by
  have h : ∀ b : UInt8, 255 - (255 - b) = b := fun b => UInt8.ext (by simp [UInt8.toNat_sub])
  simp [complement, Function.comp_def, h]

@[simp] theorem bytesValue_cons_zero (bs : List UInt8) : bytesValue (0 :: bs) = bytesValue bs := by
  simp [bytesValue]

/-! ## `checkInteger` -/

/-- Octets that pass `checkInteger`: a single one, or a first octet that is not a bare sign. -/
theorem checkInteger_cons {b0 : UInt8} {bs : List UInt8}
    (h : bs = [] ∨ ¬ ((b0 = 0 ∧ (bs.headD 0).toNat < 128) ∨ (b0 = 255 ∧ 128 ≤ (bs.headD 0).toNat))) :
    checkInteger (b0 :: bs) = .ok () := by
  rcases bs with _ | ⟨b1, bs⟩
  · rfl
  · simp only [List.cons_ne_nil, List.headD_cons, false_or] at h
    simp only [checkInteger, if_neg h]

/-- Past the first two octets `checkInteger` looks at nothing. -/
theorem checkInteger_append {bs : List UInt8} (h : 2 ≤ bs.length) (b : UInt8) :
    checkInteger (bs ++ [b]) = checkInteger bs := by
  match bs, h with
  | _ :: _ :: _, _ => rfl

/-! ## `makeBigInt` read back -/

/-- Octets that pass `checkInteger` read as their two's complement value. -/
theorem parseBigInt_of_checkInteger {bs : List UInt8} (hc : checkInteger bs = .ok ()) :
    parseBigInt bs = .ok (intValue bs) := by
  rw [parseBigInt, hc]; rfl

/-- A positive number's contents: its octets, with a zero octet in front when the first is at
least 128. -/
theorem parseBigInt_makeBigInt_pos {i : Int} (hpos : 0 < i) :
    parseBigInt (makeBigInt i) = .ok i := by
  have hnz := natBytes_headD_ne_zero (show i.toNat ≠ 0 by omega)
  have hne : natBytes i.toNat ≠ [] := mt natBytes_eq_nil.mp (by omega)
  obtain ⟨h, t, ht⟩ := List.exists_cons_of_ne_nil hne
  have hval : ((bytesValue (h :: t) : Nat) : Int) = i := by
    rw [← ht, bytesValue_natBytes]; omega
  rw [ht, List.headD_cons] at hnz
  rw [makeBigInt, if_neg (by omega), if_neg (by omega)]
  dsimp only
  rw [ht, List.headD_cons]
  by_cases hh : 128 ≤ h.toNat
  · have hc : checkInteger (0 :: h :: t) = .ok () :=
      checkInteger_cons (.inr (by
        rintro (⟨-, h1⟩ | ⟨h0, -⟩)
        · simp only [List.headD_cons] at h1; omega
        · exact absurd h0 (by decide)))
    simp only [if_pos hh, parseBigInt_of_checkInteger hc, intValue, List.headD_cons,
      show ¬ 128 ≤ (0 : UInt8).toNat by decide, if_false, bytesValue_cons_zero, hval]
  · have hc : checkInteger (h :: t) = .ok () :=
      checkInteger_cons (.inr (by
        rintro (⟨rfl, -⟩ | ⟨rfl, -⟩)
        · exact hnz rfl
        · exact hh (by decide)))
    simp only [if_neg hh, parseBigInt_of_checkInteger hc, intValue, List.headD_cons, hval]

/-- A negative number's contents: the complement of the octets of `-i - 1`, with a `0xff` octet
in front when there are none or the first is below 128. -/
theorem parseBigInt_makeBigInt_neg {i : Int} (hneg : i < 0) :
    parseBigInt (makeBigInt i) = .ok i := by
  have hval : -(((bytesValue (natBytes (-i - 1).toNat) : Nat) : Int) + 1) = i := by
    rw [bytesValue_natBytes]; omega
  rw [makeBigInt, if_pos hneg]
  dsimp only
  split_ifs with hfront
  · have hc : checkInteger (255 :: complement (natBytes (-i - 1).toNat)) = .ok () :=
      checkInteger_cons (by
        rcases hfront with h | h
        · exact .inl h
        · refine .inr ?_
          rintro (⟨h0, -⟩ | ⟨-, h1⟩)
          · exact absurd h0 (by decide)
          · omega)
    have hcc : complement (255 :: complement (natBytes (-i - 1).toNat)) =
        0 :: natBytes (-i - 1).toNat := by
      rw [complement, List.map_cons, ← complement, complement_complement]; rfl
    simp only [parseBigInt_of_checkInteger hc, intValue, List.headD_cons,
      show 128 ≤ (255 : UInt8).toNat by decide, if_true, hcc, bytesValue_cons_zero, hval]
  · push_neg at hfront
    obtain ⟨hne, hh⟩ := hfront
    have hcs : natBytes (-i - 1).toNat ≠ [] := fun h => hne (by rw [h]; rfl)
    have hnz := natBytes_headD_ne_zero (mt natBytes_eq_nil.mpr hcs)
    obtain ⟨h, t, ht⟩ := List.exists_cons_of_ne_nil hcs
    have hcc : complement (complement (h :: t)) = natBytes (-i - 1).toNat := by
      rw [complement_complement, ht]
    rw [ht] at hnz hh hcc hval ⊢
    rw [List.headD_cons] at hnz
    have hh' : 128 ≤ 255 - h.toNat := by
      simpa only [complement, List.map_cons, List.headD_cons, toNat_complement] using hh
    have hc : checkInteger (complement (h :: t)) = .ok () := by
      refine checkInteger_cons (.inr ?_)
      rintro (⟨h0, -⟩ | ⟨h1, -⟩)
      · have := congrArg UInt8.toNat h0; rw [toNat_complement] at this; simp at this; omega
      · have := congrArg UInt8.toNat h1; rw [toNat_complement] at this; simp at this; omega
    simp only [parseBigInt_of_checkInteger hc, intValue, if_pos hh, hcc, hval]

/-- **`makeBigInt` read back**: the octets `makeBigInt` writes pass `checkInteger` and have the
value they were written for. -/
theorem parseBigInt_makeBigInt (i : Int) : parseBigInt (makeBigInt i) = .ok i := by
  rcases lt_trichotomy i 0 with hneg | rfl | hpos
  · exact parseBigInt_makeBigInt_neg hneg
  · rfl
  · exact parseBigInt_makeBigInt_pos hpos

/-! ## `int64Encoder` read back -/

theorem int64Len_eq (i : Int) :
    int64Len i = if 127 < i ∨ i < -128 then int64Len (i >>> (8 : Nat)) + 1 else 1 :=
  boundedFix_eq (fun g g' i h => by
    split_ifs with hi
    · rw [h _ (by rw [shiftRight_eight]; omega)]
    · rfl) i

theorem intByte_toNat (x : Int) : ((intByte x).toNat : Int) = x % 256 := by
  have h0 := Int.emod_nonneg x (by norm_num : (256 : Int) ≠ 0)
  have h1 := Int.emod_lt_of_pos x (by norm_num : (0 : Int) < 256)
  simp only [intByte, byte_toNat]; omega

/-- `Encode` writes the octets of `i >> 8` and then the low octet of `i`. -/
theorem int64Encode_eq (i : Int) :
    int64Encode i = if 127 < i ∨ i < -128 then int64Encode (i >>> (8 : Nat)) ++ [intByte i]
      else [intByte i] := by
  unfold int64Encode
  rw [int64Len_eq]
  split_ifs with h
  · rw [List.range_succ, List.map_append, Nat.add_sub_cancel]
    simp only [List.map_cons, List.map_nil, Nat.sub_self, Nat.zero_mul]
    congr 1
    refine List.map_congr_left fun j hj => ?_
    have hj : j < int64Len (i >>> (8 : Nat)) := List.mem_range.mp hj
    rw [show (int64Len (i >>> (8 : Nat)) - j) * 8 = 8 + (int64Len (i >>> (8 : Nat)) - 1 - j) * 8 by omega,
      Int.shiftRight_add]
    simp [Int.shiftRight_eq_div_pow]
  · simp [Int.shiftRight_eq_div_pow]

/-- Below 128 and from -128 on, `Encode` writes one octet. -/
theorem int64Encode_small {i : Int} (h : ¬ (127 < i ∨ i < -128)) : int64Encode i = [intByte i] := by
  rw [int64Encode_eq, if_neg h]

theorem int64Encode_large {i : Int} (h : 127 < i ∨ i < -128) :
    int64Encode i = int64Encode (i >>> (8 : Nat)) ++ [intByte i] := by
  rw [int64Encode_eq, if_pos h]

theorem int64Encode_ne_nil (i : Int) : int64Encode i ≠ [] := by
  rw [int64Encode_eq]; split_ifs <;> simp

/-- Appending an octet multiplies the two's complement value by 256 and adds it. -/
theorem intValue_append {bs : List UInt8} (hbs : bs ≠ []) (b : UInt8) :
    intValue (bs ++ [b]) = intValue bs * 256 + b.toNat := by
  obtain ⟨h, t, rfl⟩ := List.exists_cons_of_ne_nil hbs
  have hb := b.toNat_lt
  have hc : complement (h :: t ++ [b]) = complement (h :: t) ++ [255 - b] := List.map_append _ _ _
  simp only [intValue, List.cons_append, List.headD_cons]
  split_ifs
  · rw [← List.cons_append, hc, bytesValue_append, toNat_complement]
    omega
  · rw [← List.cons_append, bytesValue_append]; push_cast; ring

/-- One octet from -128 to 127 has its own value. -/
theorem intValue_intByte {x : Int} (h : ¬ (127 < x ∨ x < -128)) : intValue [intByte x] = x := by
  have hx := intByte_toNat x
  have hb := (intByte x).toNat_lt
  simp only [intValue, List.headD_cons, bytesValue, complement, List.map_cons, List.map_nil,
    List.foldl_cons, List.foldl_nil, toNat_complement]
  split_ifs <;> omega

theorem intValue_int64Encode (i : Int) : intValue (int64Encode i) = i := by
  by_cases h : 127 < i ∨ i < -128
  · rw [int64Encode_large h, intValue_append (int64Encode_ne_nil _),
      intValue_int64Encode (i >>> (8 : Nat)), intByte_toNat, shiftRight_eight]
    omega
  · rw [int64Encode_small h, intValue_intByte h]
termination_by i.natAbs
decreasing_by rw [shiftRight_eight]; omega

theorem checkInteger_int64Encode (i : Int) : checkInteger (int64Encode i) = .ok () := by
  by_cases h : 127 < i ∨ i < -128
  · rw [int64Encode_large h]
    by_cases hs : 127 < i >>> (8 : Nat) ∨ i >>> (8 : Nat) < -128
    · have h2 : 2 ≤ (int64Encode (i >>> (8 : Nat))).length := by
        rw [int64Encode_large hs, List.length_append, List.length_singleton]
        have := List.length_pos.mpr (int64Encode_ne_nil (i >>> (8 : Nat) >>> (8 : Nat)))
        omega
      rw [checkInteger_append h2, checkInteger_int64Encode (i >>> (8 : Nat))]
    · have hx := intByte_toNat i
      have hy := intByte_toNat (i >>> (8 : Nat))
      have h255 : (255 : UInt8).toNat = 255 := rfl
      rw [int64Encode_small hs, List.singleton_append, checkInteger, if_neg]
      simp only [UInt8.ext_iff, UInt8.toNat_zero, h255]
      rw [shiftRight_eight] at hs hy ⊢
      omega
  · rw [int64Encode_small h]; rfl
termination_by i.natAbs
decreasing_by rw [shiftRight_eight]; omega

/-- A value from `-128·256^k` up to below `128·256^k` takes at most `k + 1` octets. -/
theorem int64Len_le (i : Int) (k : Nat) (h : -(128 * 256 ^ k : Int) ≤ i ∧ i < 128 * 256 ^ k) :
    int64Len i ≤ k + 1 := by
  induction k generalizing i with
  | zero => rw [int64Len_eq, if_neg (by omega)]
  | succ k ih =>
    rw [int64Len_eq]
    split_ifs
    · have := ih (i >>> (8 : Nat)) (by rw [shiftRight_eight, pow_succ] at *; omega)
      omega
    · omega

/-- **`int64Encoder` read back**: the octets of every `int64` pass `parseInt64` with its
value. -/
theorem parseInt64_int64Encode {i : Int} (h : -2 ^ 63 ≤ i ∧ i < 2 ^ 63) :
    parseInt64 (int64Encode i) = .ok i := by
  have hlen : ¬ 8 < (int64Encode i).length := by
    have := int64Len_le i 7 (by norm_num; omega)
    simp only [int64Encode, List.length_map, List.length_range]; omega
  simp only [parseInt64, checkInteger_int64Encode, bind, Except.bind, if_neg hlen, pure,
    Except.pure, intValue_int64Encode]

end MachineController.Encoding.Asn1
