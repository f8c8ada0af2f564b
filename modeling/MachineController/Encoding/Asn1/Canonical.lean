import MachineController.Encoding.Asn1.Field

/-!
# MachineController.Encoding.Asn1.Canonical — DER: one encoding for every value

`asn1.Unmarshal` insists on DER.  `checkInteger` refuses INTEGER contents whose first octet only
repeats the sign of the next, and `parseTagAndLength` refuses a long-form length that would fit
the short form or that starts with a zero octet.  So an INTEGER field it accepts is the very
element `asn1.Marshal` writes for the value it reads: the round trips of `Integer` and `Field`
hold in the other direction too, and no value has a second encoding.

* `makeBigInt_of_parseBigInt`: the contents `parseBigInt` accepts are those `makeBigInt` writes
  for their value;
* `int64Encode_eq_makeBigInt`: `int64Encoder` and `makeBigInt` write the same octets;
* `appendTagAndLength_of_parseTagAndLength`: a header with a low tag number is the one
  `appendTagAndLength` writes;
* `parseBigIntField_sound`, `parseIntField_sound`: an INTEGER field read into a `*big.Int`,
  required or optional and present, or into an `int` is the element `asn1.Marshal` writes for
  the value, and an `int` fits in 64 bits.
-/

namespace MachineController.Encoding.Asn1

open MachineController.Go

/-! ## Octets of numbers -/

/-- `SetBytes` then `Bytes` gives back octets that do not start with a zero. -/
theorem natBytes_bytesValue {bs : List UInt8} (h : bs.head? ≠ some 0) :
    natBytes (bytesValue bs) = bs := by
  set ds := (bs.map UInt8.toNat).reverse with hds
  have hbs : (ds.map byte).reverse = bs := by
    simp [ds, List.map_reverse, Function.comp_def]
  have hlt : ∀ d ∈ ds, d < 256 := by
    simp only [ds, List.mem_reverse, List.mem_map]
    rintro _ ⟨b, -, rfl⟩
    exact b.toNat_lt
  have hlast : ∀ hne : ds ≠ [], ds.getLast hne ≠ 0 := by
    intro hne
    rcases bs with _ | ⟨b, bs⟩
    · simp [ds] at hne
    · simp only [ds, List.map_cons, List.reverse_cons, List.getLast_append_singleton]
      intro hb
      exact h (by rw [List.head?_cons, show b = 0 from UInt8.ext hb])
  rw [natBytes_eq_digits, ← hbs, bytesValue_digits ds hlt,
    Nat.digits_ofDigits 256 (by norm_num) ds hlt hlast]

/-- The value of octets is their first octet's, shifted past the others, plus theirs. -/
theorem bytesValue_cons (b : UInt8) (bs : List UInt8) :
    bytesValue (b :: bs) = b.toNat * 256 ^ bs.length + bytesValue bs := by
  induction bs using List.reverseRecOn with
  | nil => simp [bytesValue]
  | append_singleton bs c ih =>
    rw [← List.cons_append, bytesValue_append, bytesValue_append, ih, List.length_append,
      List.length_singleton, pow_succ]
    ring

theorem bytesValue_lt (bs : List UInt8) : bytesValue bs < 256 ^ bs.length := by
  induction bs using List.reverseRecOn with
  | nil => simp [bytesValue]
  | append_singleton bs c ih =>
    rw [bytesValue_append, List.length_append, List.length_singleton, pow_succ]
    have := c.toNat_lt
    omega

theorem complement_cons (b : UInt8) (bs : List UInt8) :
    complement (b :: bs) = (255 - b) :: complement bs := rfl

theorem bytesValue_complement_cons (b : UInt8) (bs : List UInt8) :
    bytesValue (complement (b :: bs)) =
      (255 - b.toNat) * 256 ^ bs.length + bytesValue (complement bs) := by
  rw [complement_cons, bytesValue_cons, toNat_complement, complement, List.length_map]

theorem head?_ne_zero {b : UInt8} (bs : List UInt8) (h : b.toNat ≠ 0) : (b :: bs).head? ≠ some 0 :=
  fun hb => h (by rw [Option.some.inj hb]; rfl)

/-! ## What `parseBigInt` accepts -/

/-- `checkInteger` refuses nothing but empty contents and a first octet that repeats the sign of
the second. -/
theorem checkInteger_eq_ok {b0 b1 : UInt8} {bs : List UInt8}
    (h : checkInteger (b0 :: b1 :: bs) = .ok ()) :
    ¬ ((b0 = 0 ∧ b1.toNat < 128) ∨ (b0 = 255 ∧ 128 ≤ b1.toNat)) := by
  intro hc
  simp only [checkInteger, if_pos hc] at h
  cases h

theorem parseBigInt_eq_ok {bs : List UInt8} {i : Int} (h : parseBigInt bs = .ok i) :
    checkInteger bs = .ok () ∧ intValue bs = i := by
  obtain ⟨⟨⟩, hc, h⟩ := bind_eq_ok.mp h
  exact ⟨hc, Except.ok.inj h⟩

/-- Octets with a clear sign bit: their value, written with a zero octet in front when its first
octet has the sign bit. -/
theorem makeBigInt_intValue_nonneg {b0 : UInt8} {bs : List UInt8}
    (hc : checkInteger (b0 :: bs) = .ok ()) (hb : b0.toNat < 128) :
    makeBigInt (intValue (b0 :: bs)) = b0 :: bs := by
  rw [intValue, List.headD_cons, if_neg (by omega)]
  by_cases h0 : b0 = 0
  · subst h0
    rcases bs with _ | ⟨b1, bs⟩
    · rfl
    · have h1 : 128 ≤ b1.toNat := by
        by_contra hlt
        exact checkInteger_eq_ok hc (.inl ⟨rfl, by omega⟩)
      have hnat := natBytes_bytesValue (head?_ne_zero bs (show b1.toNat ≠ 0 by omega))
      have hpos : bytesValue (b1 :: bs) ≠ 0 := fun h => by simp [h, natBytes_eq] at hnat
      rw [bytesValue_cons_zero, makeBigInt, if_neg (by omega), if_neg (by omega)]
      simp only [Int.toNat_natCast, hnat, List.headD_cons, if_pos h1]
  · have hnat := natBytes_bytesValue (head?_ne_zero bs fun h => h0 (UInt8.ext h))
    have hpos : bytesValue (b0 :: bs) ≠ 0 := fun h => by simp [h, natBytes_eq] at hnat
    rw [makeBigInt, if_neg (by omega), if_neg (by omega)]
    simp only [Int.toNat_natCast, hnat, List.headD_cons, if_neg (show ¬ 128 ≤ b0.toNat by omega)]

/-- Octets with the sign bit set: the complement of the octets of `-n - 1`, with `0xff` in front
when their first octet lacks the sign bit. -/
theorem makeBigInt_intValue_neg {b0 : UInt8} {bs : List UInt8}
    (hc : checkInteger (b0 :: bs) = .ok ()) (hb : 128 ≤ b0.toNat) :
    makeBigInt (intValue (b0 :: bs)) = b0 :: bs := by
  rw [intValue, List.headD_cons, if_pos hb, makeBigInt, if_pos (by omega)]
  dsimp only
  rw [show (-(-((bytesValue (complement (b0 :: bs)) : Int) + 1)) - 1).toNat =
    bytesValue (complement (b0 :: bs)) by omega]
  by_cases h255 : b0 = 255
  · subst h255
    rcases bs with _ | ⟨b1, bs⟩
    · rfl
    · have h1 : b1.toNat < 128 := by
        by_contra hge
        exact checkInteger_eq_ok hc (.inr ⟨rfl, by omega⟩)
      have hnat : natBytes (bytesValue (complement (b1 :: bs))) = complement (b1 :: bs) :=
        natBytes_bytesValue (head?_ne_zero _ (by rw [toNat_complement]; omega))
      rw [complement_cons, show (255 : UInt8) - 255 = 0 from rfl, bytesValue_cons_zero, hnat,
        complement_complement, if_pos (.inr (by simpa using h1))]
  · have hc0 : (255 - b0).toNat ≠ 0 := by
      rw [toNat_complement]
      intro h
      exact h255 (UInt8.ext (by have := b0.toNat_lt; simp; omega))
    have hnat : natBytes (bytesValue (complement (b0 :: bs))) = complement (b0 :: bs) :=
      natBytes_bytesValue (head?_ne_zero _ hc0)
    rw [hnat, complement_complement,
      if_neg (by simp only [List.cons_ne_nil, List.headD_cons, false_or, not_lt]; exact hb)]

/-- **INTEGER contents are canonical**: what `parseBigInt` accepts is exactly what `makeBigInt`
writes for the value it reads. -/
theorem makeBigInt_of_parseBigInt {bs : List UInt8} {i : Int} (h : parseBigInt bs = .ok i) :
    makeBigInt i = bs := by
  obtain ⟨hc, rfl⟩ := parseBigInt_eq_ok h
  rcases bs with _ | ⟨b0, bs⟩
  · cases hc
  · by_cases hb : b0.toNat < 128
    · exact makeBigInt_intValue_nonneg hc hb
    · exact makeBigInt_intValue_neg hc (by omega)

/-- `int64Encoder` writes the octets `makeBigInt` writes: both are the shortest two's
complement. -/
theorem int64Encode_eq_makeBigInt (i : Int) : int64Encode i = makeBigInt i :=
  (makeBigInt_of_parseBigInt
    ((parseBigInt_of_checkInteger (checkInteger_int64Encode i)).trans
      (congrArg _ (intValue_int64Encode i)))).symm

/-- Octets after a first octet `b0` hold a two's complement value of `8·|bs| + 8` bits. -/
theorem intValue_bounds (b0 : UInt8) (bs : List UInt8) :
    -(128 * 256 ^ bs.length : Int) ≤ intValue (b0 :: bs) ∧
      intValue (b0 :: bs) < 128 * 256 ^ bs.length := by
  have hb := b0.toNat_lt
  unfold intValue
  rw [List.headD_cons]
  have hpow : (0 : Int) < 256 ^ bs.length := by positivity
  split_ifs with h
  · have hlt : (bytesValue (complement bs) : Int) < 256 ^ bs.length := by
      have := bytesValue_lt (complement bs)
      rw [complement, List.length_map] at this
      exact_mod_cast this
    rw [bytesValue_complement_cons]
    push_cast [Nat.cast_sub (show b0.toNat ≤ 255 by omega)]
    have h1 : (255 - (b0.toNat : Int)) * 256 ^ bs.length ≤ 127 * 256 ^ bs.length :=
      mul_le_mul_of_nonneg_right (by omega) hpow.le
    have h2 : 0 ≤ (255 - (b0.toNat : Int)) * 256 ^ bs.length := mul_nonneg (by omega) hpow.le
    constructor <;> linarith
  · have hlt : (bytesValue bs : Int) < 256 ^ bs.length := by exact_mod_cast bytesValue_lt bs
    rw [bytesValue_cons]
    push_cast
    have h1 : (b0.toNat : Int) * 256 ^ bs.length ≤ 127 * 256 ^ bs.length :=
      mul_le_mul_of_nonneg_right (by omega) hpow.le
    have h2 : (0 : Int) ≤ b0.toNat * 256 ^ bs.length := by positivity
    constructor <;> linarith

/-- What `parseInt64` accepts fits in an `int64`, and is what `int64Encoder` writes for it. -/
theorem parseInt64_eq_ok {bs : List UInt8} {i : Int} (h : parseInt64 bs = .ok i) :
    (-2 ^ 63 ≤ i ∧ i < 2 ^ 63) ∧ int64Encode i = bs := by
  unfold parseInt64 at h
  obtain ⟨⟨⟩, hc, h⟩ := bind_eq_ok.mp h
  split_ifs at h with hlen
  · cases h
  · have hi : intValue bs = i := Except.ok.inj h
    refine ⟨?_, ?_⟩
    · rcases bs with _ | ⟨b0, bs⟩
      · cases hc
      · have hpow : (256 : Int) ^ bs.length ≤ 256 ^ 7 :=
          pow_le_pow_right₀ (by norm_num) (by simp at hlen; omega)
        have := intValue_bounds b0 bs
        constructor <;> omega
    · rw [int64Encode_eq_makeBigInt, ← hi]
      exact makeBigInt_of_parseBigInt (parseBigInt_of_checkInteger hc)

/-! ## What `parseTagAndLength` accepts -/

/-- What `lengthLoop` reads: `n` octets whose big-endian value, after `acc`, is the length, and
whose first is not zero when nothing came before. -/
theorem lengthLoop_sound : ∀ {n acc : Nat} {bs rest : List UInt8} {v : Nat},
    lengthLoop n acc bs = .ok (v, rest) →
      ∃ ds, bs = ds ++ rest ∧ ds.length = n ∧ acc * 256 ^ n + bytesValue ds = v ∧
        (acc = 0 → ds.head? ≠ some 0)
  | 0, _, _, _, _, h => by
    cases h
    exact ⟨[], rfl, rfl, by simp [bytesValue], by simp⟩
  | _ + 1, _, [], _, _, h => by cases h
  | n + 1, acc, b :: bs, rest, v, h => by
    simp only [lengthLoop] at h
    split_ifs at h with h23 hz
    obtain ⟨ds, rfl, hlen, hval, -⟩ := lengthLoop_sound h
    refine ⟨b :: ds, rfl, by simp [hlen], ?_, fun h0 => head?_ne_zero ds (by subst h0; omega)⟩
    rw [bytesValue_cons, hlen, ← hval, pow_succ]; ring

/-- A length `parseLength` accepts is written as `lengthOctets` writes it: the short form below
128, else the fewest octets. -/
theorem lengthOctets_of_parseLength {bs rest : List UInt8} {length : Nat}
    (h : parseLength bs = .ok (length, rest)) : bs = lengthOctets length ++ rest := by
  match bs, h with
  | l :: bs, h =>
    have hl := l.toNat_lt
    simp only [parseLength] at h
    split_ifs at h with hshort hind
    · cases h
      rw [lengthOctets, if_neg (by omega), List.singleton_append, byte_toNat_self]
    · split at h
      · cases h
      · next length' rest' hloop =>
        split_ifs at h with hmin
        cases h
        obtain ⟨ds, rfl, hlen, hval, hhead⟩ := lengthLoop_sound hloop
        rw [zero_mul, zero_add] at hval
        have hpos : 0 < length := by omega
        have hds : natBytes length = ds := hval ▸ natBytes_bytesValue (hhead rfl)
        have hll : lengthLength length = l.toNat % 128 := by
          rw [← length_appendLength, appendLength_eq_natBytes hpos, hds, hlen]
        rw [lengthOctets, if_pos (by omega), appendLength_eq_natBytes hpos, hds, hll,
          List.cons_append]
        congr 1
        exact UInt8.ext (by simp only [byte_toNat]; omega)

/-- The identifier octet is rebuilt from its class, its constructed bit and its low five bits. -/
theorem identifier_rebuild (b : UInt8) :
    byte (b.toNat / 64 * 64 + (if decide (b.toNat / 32 % 2 = 1) then 32 else 0) + b.toNat % 32) =
      b := by
  have hb := b.toNat_lt
  refine UInt8.ext ?_
  split_ifs with hc <;> simp only [decide_eq_true_eq] at hc <;> simp only [byte_toNat] <;> omega

/-- **Headers are canonical**: a header with a tag number below 31 that `parseTagAndLength`
accepts is the one `appendTagAndLength` writes. -/
theorem appendTagAndLength_of_parseTagAndLength {bs rest : List UInt8} {t : TagAndLength}
    (h : parseTagAndLength bs = .ok (t, rest)) (htag : t.tag < 31) :
    bs = appendTagAndLength t ++ rest := by
  match bs, h with
  | b :: bs, h =>
    obtain ⟨⟨tag, bs'⟩, htn, h⟩ := bind_eq_ok.mp h
    obtain ⟨⟨length, rest'⟩, hl, h⟩ := bind_eq_ok.mp h
    cases h
    dsimp only at htag ⊢
    unfold parseTagNumber at htn
    split_ifs at htn with h31
    · split at htn
      · cases htn
      · split_ifs at htn
        cases htn
        exact absurd htag (by omega)
    · cases htn
      rw [appendTagAndLength, if_neg (by simpa using htag), lengthOctets_of_parseLength hl]
      simp only [identifier_rebuild, List.singleton_append, List.cons_append, List.nil_append]

/-! ## What the INTEGER fields accept -/

section Elements

variable {tag : Nat} {compound : Bool} {bs contents rest : List UInt8}

theorem element_of_parseElement (htag : tag < 31)
    (h : parseElement tag compound bs = .ok (some (contents, rest))) :
    bs = element tag compound contents ++ rest := by
  obtain ⟨⟨⟨cls, tag', length, compound'⟩, r⟩, ht, hrun⟩ := bind_eq_ok.mp h
  dsimp only at hrun
  split_ifs at hrun with hne hlt
  · cases hrun
  · cases hrun
  · simp only [not_or, not_not] at hne
    obtain ⟨rfl, rfl, rfl⟩ := hne
    obtain ⟨rfl, rfl⟩ := Prod.mk.inj (Option.some.inj (Except.ok.inj hrun))
    rw [appendTagAndLength_of_parseTagAndLength ht htag, element, List.length_take,
      Nat.min_eq_left (by omega), List.append_assoc, List.take_append_drop]

theorem element_of_parseRequired (htag : tag < 31)
    (h : parseRequired tag compound bs = .ok (contents, rest)) :
    bs = element tag compound contents ++ rest := by
  unfold parseRequired at h
  split_ifs at h
  split at h
  · cases h
  · cases h
  · next r hr =>
    cases h
    exact element_of_parseElement htag hr

theorem element_of_parseOptional (htag : tag < 31)
    (h : parseOptional tag compound bs = .ok (some contents, rest)) :
    bs = element tag compound contents ++ rest := by
  unfold parseOptional at h
  split_ifs at h
  · cases h
  · split at h
    · cases h
    · cases h
    · next contents' rest' hr =>
      cases h
      exact element_of_parseElement htag hr

end Elements

/-- **A `*big.Int` field has one encoding**: the octets `asn1.Unmarshal` reads an INTEGER from,
for a required field or an optional one that is present, are the element `asn1.Marshal` writes
for the value, followed by the rest. -/
theorem parseBigIntField_sound {bytes rest : List UInt8} {i : Int}
    (h : parseBigIntField bytes = .ok (i, rest) ∨
      parseOptionalBigIntField bytes = .ok (some i, rest)) :
    bytes = integerElement i ++ rest := by
  -- either way the bytes are an INTEGER element whose contents parse to `i`
  obtain ⟨contents, hj, hbytes⟩ : ∃ contents, parseBigInt contents = .ok i ∧
      bytes = element tagInteger false contents ++ rest := by
    rcases h with h | h
    · obtain ⟨⟨contents, rest'⟩, hreq, h⟩ := bind_eq_ok.mp h
      obtain ⟨j, hj, h⟩ := bind_eq_ok.mp h
      cases h
      exact ⟨contents, hj, element_of_parseRequired (by decide) hreq⟩
    · obtain ⟨⟨_ | contents, rest'⟩, hopt, h⟩ := bind_eq_ok.mp h
      · cases h
      · obtain ⟨j, hj, h⟩ := bind_eq_ok.mp h
        cases h
        exact ⟨contents, hj, element_of_parseOptional (by decide) hopt⟩
  rw [hbytes, integerElement, makeBigInt_of_parseBigInt hj]

theorem parseBigIntField_sound_neg :
    parseBigIntField [2, 2, 255, 127, 9] = .ok (-129, [9]) ∧
      parseOptionalBigIntField [2, 2, 255, 127, 9] = .ok (some (-129), [9]) ∧
      [2, 2, 255, 127, 9] = integerElement (-129) ++ [9] :=
  have h : parseBigIntField [2, 2, 255, 127, 9] = .ok (-129, [9]) := by decide
  have h' : parseOptionalBigIntField [2, 2, 255, 127, 9] = .ok (some (-129), [9]) := by decide
  ⟨h, h', parseBigIntField_sound (.inr h')⟩

/-- **An `int` field has one encoding**: the INTEGER `asn1.Unmarshal` reads into an `int` fits in
64 bits, and its octets are the element `asn1.Marshal` writes for the value, followed by the
rest. -/
theorem parseIntField_sound {bytes rest : List UInt8} {i : Int}
    (h : parseIntField bytes = .ok (i, rest)) :
    (-2 ^ 63 ≤ i ∧ i < 2 ^ 63) ∧ bytes = int64Element i ++ rest := by
  obtain ⟨⟨contents, rest'⟩, hreq, h⟩ := bind_eq_ok.mp h
  obtain ⟨j, hj, h⟩ := bind_eq_ok.mp h
  cases h
  obtain ⟨hrange, henc⟩ := parseInt64_eq_ok hj
  refine ⟨hrange, ?_⟩
  rw [int64Element, henc]
  exact element_of_parseRequired (by decide) hreq

theorem parseIntField_sound_300 :
    parseIntField [2, 2, 1, 44, 9] = .ok (300, [9]) ∧
      ((-2 ^ 63 ≤ (300 : Int) ∧ (300 : Int) < 2 ^ 63) ∧ [2, 2, 1, 44, 9] = int64Element 300 ++ [9]) :=
  have h : parseIntField [2, 2, 1, 44, 9] = .ok (300, [9]) := by decide
  ⟨h, parseIntField_sound h⟩

end MachineController.Encoding.Asn1
