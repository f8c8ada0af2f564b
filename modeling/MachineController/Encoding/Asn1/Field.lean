import MachineController.Encoding.Asn1.Integer

/-!
# MachineController.Encoding.Asn1.Field — elements and fields in `encoding/asn1`

An element is its identifier octet, its length and its contents.  `asn1.Marshal` writes the tag
and the length with `appendTagAndLength`, and `asn1.Unmarshal` reads them with
`parseTagAndLength`, which insists on DER: a minimal tag number, a definite length, no leading
zero in a long length, no long form for a short length, and at most 2³¹ - 1.  `parseField` then
checks the universal tag the field's Go type asks for: a field that is not optional fails on
another tag, an optional one is then absent and leaves the bytes as they were.  A slice field is
a SEQUENCE OF, read in the two passes of `parseSequenceOf`.

* `parseTagAndLength_appendTagAndLength`: a low tag and every length below 2³¹ read back;
* `parseBigIntField_integerElement`, `parseIntField_int64Element`: an INTEGER field reads its
  value;
* `parseSequenceOf_sequenceElements`: a SEQUENCE OF reads back every element.
-/

namespace MachineController.Encoding.Asn1

open MachineController.Go

/-! ## Tags and lengths -/

/-- `tagAndLength`: the class, the tag number, the length and whether the element is
constructed. -/
structure TagAndLength where
  cls : Nat
  tag : Nat
  length : Nat
  isCompound : Bool
deriving DecidableEq, Repr

/-- The loop of `parseBase128Int` after `shifted` octets with value `ret`. -/
def base128Loop : Nat → Nat → List UInt8 → Except String (Nat × List UInt8)
  | _, _, [] => .error (syntaxError "truncated base 128 integer")
  | shifted, ret, b :: rest =>
    if shifted = 5 then .error (structuralError "base 128 integer too large")
    else if shifted = 0 ∧ b = 0x80 then .error (syntaxError "integer is not minimally encoded")
    else
      let ret := ret * 128 + b.toNat % 128
      if b.toNat < 128 then
        if 2 ^ 31 - 1 < ret then .error (structuralError "base 128 integer too large")
        else .ok (ret, rest)
      else base128Loop (shifted + 1) ret rest

/-- The loop that reads `n` more long-form length octets onto `length`. -/
def lengthLoop : Nat → Nat → List UInt8 → Except String (Nat × List UInt8)
  | 0, length, rest => .ok (length, rest)
  | _ + 1, _, [] => .error (syntaxError "truncated tag or length")
  | n + 1, length, b :: rest =>
    if 2 ^ 23 ≤ length then .error (structuralError "length too large")
    else if length * 256 + b.toNat = 0 then
      .error (structuralError "superfluous leading zeros in length")
    else lengthLoop n (length * 256 + b.toNat) rest

/-- The tag number of `parseTagAndLength` after the identifier octet `b`: its low five bits, or
from 31 on the base 128 number that follows, which must not be below 31. -/
def parseTagNumber (b : UInt8) (rest : List UInt8) : Except String (Nat × List UInt8) :=
  if b.toNat % 32 = 31 then
    match base128Loop 0 0 rest with
    | .error e => .error e
    | .ok (tag, rest) => if tag < 31 then .error (syntaxError "non-minimal tag") else .ok (tag, rest)
  else .ok (b.toNat % 32, rest)

/-- The length of `parseTagAndLength`: one octet below 128, else `0x80|n` and `n` octets, which
must hold a length of at least 128. -/
def parseLength : List UInt8 → Except String (Nat × List UInt8)
  | [] => .error (syntaxError "truncated tag or length")
  | l :: rest =>
    if l.toNat < 128 then .ok (l.toNat, rest)
    else if l.toNat % 128 = 0 then .error (syntaxError "indefinite length found (not DER)")
    else
      match lengthLoop (l.toNat % 128) 0 rest with
      | .error e => .error e
      | .ok (length, rest) =>
        if length < 128 then .error (structuralError "non-minimal length") else .ok (length, rest)

/-- `parseTagAndLength`. -/
def parseTagAndLength : List UInt8 → Except String (TagAndLength × List UInt8)
  | [] => .error "asn1: internal error in parseTagAndLength"
  | b :: rest => do
    let (tag, rest) ← parseTagNumber b rest
    let (length, rest) ← parseLength rest
    return (⟨b.toNat / 64, tag, length, b.toNat / 32 % 2 = 1⟩, rest)

/-- The loop of `base128IntLength`: a group for every `i >>= 7` until `i` is zero. -/
def base128Groups : Nat → Nat :=
  boundedFix id (fun base128Groups i => if 0 < i then base128Groups (i >>> 7) + 1 else 0) 0

/-- `base128IntLength`: the seven-bit groups of `n`, one at least. -/
def base128IntLength (n : Nat) : Nat := if n = 0 then 1 else base128Groups n

/-- `appendBase128Int`: the seven-bit groups of `n` from the top, all but the last with the
high bit set. -/
def appendBase128Int (n : Nat) : List UInt8 :=
  (List.range (base128IntLength n)).reverse.map fun i =>
    byte (n >>> (i * 7) % 128 + if i ≠ 0 then 128 else 0)

/-- `lengthLength`: the octets a length takes, one at least. -/
def lengthLength : Nat → Nat :=
  boundedFix id (fun lengthLength i => if 255 < i then lengthLength (i >>> 8) + 1 else 1) 1

/-- `appendLength`: `byte(i >> ((n-1)*8))` down to `byte(i)`, for `n = lengthLength(i)`. -/
def appendLength (i : Nat) : List UInt8 :=
  (List.range (lengthLength i)).map fun j => byte (i >>> ((lengthLength i - 1 - j) * 8))

/-- The length part of `appendTagAndLength`: one octet below 128, else `0x80|n` and the `n`
octets of the length. -/
def lengthOctets (length : Nat) : List UInt8 :=
  if 128 ≤ length then byte (128 + lengthLength length) :: appendLength length else [byte length]

/-- `appendTagAndLength`: the identifier octet, with the tag number in base 128 after it from 31
on, then the length. -/
def appendTagAndLength (t : TagAndLength) : List UInt8 :=
  let b := t.cls * 64 + if t.isCompound then 32 else 0
  (if 31 ≤ t.tag then byte (b + 31) :: appendBase128Int t.tag else [byte (b + t.tag)]) ++
    lengthOctets t.length

/-- What `makeField` writes for a universal type: the tag and the length of the contents, then
the contents. -/
def element (tag : Nat) (isCompound : Bool) (contents : List UInt8) : List UInt8 :=
  appendTagAndLength ⟨0, tag, contents.length, isCompound⟩ ++ contents

/-- `TagInteger`. -/
def tagInteger : Nat := 2

/-- `TagSequence`. -/
def tagSequence : Nat := 16

/-- An INTEGER written from a `*big.Int`. -/
def integerElement (i : Int) : List UInt8 := element tagInteger false (makeBigInt i)

/-- An INTEGER written from an `int`. -/
def int64Element (i : Int) : List UInt8 := element tagInteger false (int64Encode i)

/-- A SEQUENCE, written from a struct or a slice. -/
def sequenceElement (contents : List UInt8) : List UInt8 := element tagSequence true contents

/-! ## Fields -/

/-- `parseField` up to an element's contents: its universal tag must be `tag`, constructed as
`compound` says, and its contents must be there.  `none` is another tag. -/
def parseElement (tag : Nat) (compound : Bool) (bytes : List UInt8) :
    Except String (Option (List UInt8 × List UInt8)) := do
  let (t, rest) ← parseTagAndLength bytes
  if t.cls ≠ 0 ∨ t.tag ≠ tag ∨ t.isCompound ≠ compound then return none
  if rest.length < t.length then throw (syntaxError "data truncated")
  return some (rest.take t.length, rest.drop t.length)

/-- `parseField` of a field that is not optional: running out of elements is "sequence
truncated" and another tag is a structural error (whose text, which prints the tag, the field's
parameters, type and offset, is cut to its first words here). -/
def parseRequired (tag : Nat) (compound : Bool) (bytes : List UInt8) :
    Except String (List UInt8 × List UInt8) :=
  if bytes = [] then .error (syntaxError "sequence truncated")
  else
    match parseElement tag compound bytes with
    | .error e => .error e
    | .ok none => .error (structuralError "tags don't match")
    | .ok (some r) => .ok r

/-- `parseField` of an optional field: absent when the elements have run out or the next one has
another tag, and the bytes are then left as they were. -/
def parseOptional (tag : Nat) (compound : Bool) (bytes : List UInt8) :
    Except String (Option (List UInt8) × List UInt8) :=
  if bytes = [] then .ok (none, bytes)
  else
    match parseElement tag compound bytes with
    | .error e => .error e
    | .ok none => .ok (none, bytes)
    | .ok (some (contents, rest)) => .ok (some contents, rest)

/-- A required `*big.Int` field. -/
def parseBigIntField (bytes : List UInt8) : Except String (Int × List UInt8) := do
  let (contents, rest) ← parseRequired tagInteger false bytes
  return (← parseBigInt contents, rest)

/-- A required `int` field, on a 64-bit platform. -/
def parseIntField (bytes : List UInt8) : Except String (Int × List UInt8) := do
  let (contents, rest) ← parseRequired tagInteger false bytes
  return (← parseInt64 contents, rest)

/-- An optional `*big.Int` field, `nil` when absent. -/
def parseOptionalBigIntField (bytes : List UInt8) : Except String (Option Int × List UInt8) := do
  match ← parseOptional tagInteger false bytes with
  | (none, rest) => return (none, rest)
  | (some contents, rest) => return (some (← parseBigInt contents), rest)

/-! ## SEQUENCE OF -/

theorem base128Loop_length : ∀ {s r : Nat} {bs rest : List UInt8} {v : Nat},
    base128Loop s r bs = .ok (v, rest) → rest.length < bs.length
  | _, _, [], _, _, h => by cases h
  | s, r, b :: bs, rest, v, h => by
    simp only [base128Loop] at h
    split_ifs at h
    · cases h; simp
    · exact Nat.lt_succ_of_lt (base128Loop_length h)

theorem lengthLoop_length : ∀ {n l : Nat} {bs rest : List UInt8} {v : Nat},
    lengthLoop n l bs = .ok (v, rest) → rest.length ≤ bs.length
  | 0, _, _, _, _, h => by cases h; rfl
  | _ + 1, _, [], _, _, h => by cases h
  | n + 1, l, b :: bs, rest, v, h => by
    simp only [lengthLoop] at h
    split_ifs at h
    exact Nat.le_succ_of_le (lengthLoop_length h)

theorem parseTagNumber_length {b : UInt8} {bs rest : List UInt8} {tag : Nat}
    (h : parseTagNumber b bs = .ok (tag, rest)) : rest.length ≤ bs.length := by
  unfold parseTagNumber at h
  split_ifs at h
  · split at h
    · cases h
    · next r hr =>
      split_ifs at h
      cases h
      exact (base128Loop_length hr).le
  · cases h; rfl

theorem parseLength_length {bs rest : List UInt8} {length : Nat}
    (h : parseLength bs = .ok (length, rest)) : rest.length < bs.length := by
  match bs, h with
  | l :: bs, h =>
    simp only [parseLength] at h
    split_ifs at h
    · cases h; simp
    · split at h
      · cases h
      · next r hr =>
        split_ifs at h
        cases h
        exact Nat.lt_succ_of_le (lengthLoop_length hr)

/-- `parseTagAndLength` reads at least one octet. -/
theorem parseTagAndLength_length {bytes rest : List UInt8} {t : TagAndLength}
    (h : parseTagAndLength bytes = .ok (t, rest)) : rest.length < bytes.length := by
  match bytes, h with
  | b :: bs, h =>
    obtain ⟨⟨tag, r1⟩, h1, h⟩ := bind_eq_ok.mp h
    obtain ⟨⟨length, r2⟩, h2, h⟩ := bind_eq_ok.mp h
    cases h
    exact (parseLength_length h2).trans_le ((parseTagNumber_length h1).trans (Nat.le_succ _))

/-- The first pass of `parseSequenceOf` over SEQUENCE elements: every element must be a universal
SEQUENCE that fits in the bytes, and it counts them.  (The pass first renames string and time
tags, which cannot make an element a SEQUENCE.) -/
def countElements : List UInt8 → Except String Nat :=
  boundedFix List.length (fun countElements bytes =>
    if bytes = [] then .ok 0
    else
      match parseTagAndLength bytes with
      | .error e => .error e
      | .ok (t, rest) =>
        if t.cls ≠ 0 ∨ t.isCompound ≠ true ∨ t.tag ≠ tagSequence then
          .error (structuralError "sequence tag mismatch")
        else if rest.length < t.length then .error (syntaxError "truncated sequence")
        else (· + 1) <$> countElements (rest.drop t.length)) (.ok 0)

/-- The second pass: `count` elements, each a struct that `parse` reads from its contents. -/
def parseElements {α : Type} (parse : List UInt8 → Except String α) :
    Nat → List UInt8 → Except String (List α)
  | 0, _ => .ok []
  | k + 1, bytes => do
    let (contents, rest) ← parseRequired tagSequence true bytes
    let a ← parse contents
    let as ← parseElements parse k rest
    return a :: as

/-- `parseSequenceOf` for a slice of structs. -/
def parseSequenceOf {α : Type} (parse : List UInt8 → Except String α) (bytes : List UInt8) :
    Except String (List α) := do
  let count ← countElements bytes
  parseElements parse count bytes

/-! ## Lengths read back -/

theorem lengthLength_eq (i : Nat) :
    lengthLength i = if 255 < i then lengthLength (i >>> 8) + 1 else 1 :=
  boundedFix_eq (fun g g' i h => by
    split_ifs with hi
    · rw [h _ (by simp only [id, Nat.shiftRight_eq_div_pow]; omega)]
    · rfl) i

theorem foldl_octets_ge (bs : List UInt8) (acc : Nat) :
    acc ≤ bs.foldl (fun a b => a * 256 + b.toNat) acc := by
  induction bs generalizing acc with
  | nil => rfl
  | cons b bs ih => exact le_trans (by omega) (ih (acc * 256 + b.toNat))

/-- `lengthLoop` reads big-endian octets whose value stays below 2³¹ and that do not start the
length with a zero. -/
theorem lengthLoop_append : ∀ (bs : List UInt8) (acc : Nat) (rest : List UInt8),
    (0 < acc ∨ 0 < (bs.headD 0).toNat) →
    bs.foldl (fun a b => a * 256 + b.toNat) acc < 2 ^ 31 →
    lengthLoop bs.length acc (bs ++ rest) =
      .ok (bs.foldl (fun a b => a * 256 + b.toNat) acc, rest)
  | [], _, _, _, _ => rfl
  | b :: bs, acc, rest, hpos, hlt => by
    have hge := foldl_octets_ge bs (acc * 256 + b.toNat)
    simp only [List.foldl_cons] at hlt ⊢
    simp only [List.headD_cons] at hpos
    rw [List.length_cons, List.cons_append, lengthLoop, if_neg (by omega), if_neg (by omega)]
    exact lengthLoop_append bs _ rest (.inl (by omega)) hlt

/-- `appendLength` writes the octets of `i >> 8` and then the low octet of `i`. -/
theorem appendLength_eq (i : Nat) :
    appendLength i = if 255 < i then appendLength (i >>> 8) ++ [byte i] else [byte i] := by
  unfold appendLength
  rw [lengthLength_eq]
  split_ifs with h
  · rw [List.range_succ, List.map_append, Nat.add_sub_cancel]
    simp only [List.map_cons, List.map_nil, Nat.sub_self, Nat.zero_mul, Nat.shiftRight_zero]
    congr 1
    refine List.map_congr_left fun j hj => ?_
    have hj : j < lengthLength (i >>> 8) := List.mem_range.mp hj
    rw [show (lengthLength (i >>> 8) - j) * 8 = 8 + (lengthLength (i >>> 8) - 1 - j) * 8 by omega,
      Nat.shiftRight_add]
  · simp

/-- A positive length's octets are those `(*big.Int).Bytes` gives. -/
theorem appendLength_eq_natBytes {i : Nat} (hi : 0 < i) : appendLength i = natBytes i := by
  have h8 : i >>> 8 = i / 256 := Nat.shiftRight_eq_div_pow i 8
  rw [appendLength_eq, natBytes_of_pos hi]
  split_ifs with h
  · rw [appendLength_eq_natBytes (show 0 < i >>> 8 by omega), h8]
  · rw [Nat.div_eq_of_lt (by omega), natBytes_eq, if_pos rfl]; rfl
termination_by i
decreasing_by omega

theorem length_appendLength (i : Nat) : (appendLength i).length = lengthLength i := by
  simp [appendLength]

/-- A length below 2³¹ takes at most four octets. -/
theorem lengthLength_le {i : Nat} (h : i < 2 ^ 31) : lengthLength i ≤ 4 := by
  rcases Nat.eq_zero_or_pos i with rfl | hi
  · rw [lengthLength_eq, if_neg (by omega)]; omega
  · rw [← length_appendLength, appendLength_eq_natBytes hi]
    exact natBytes_length_le (by norm_num; omega)

/-- Every length below 2³¹ reads back. -/
theorem parseLength_lengthOctets {length : Nat} (h : length < 2 ^ 31) (rest : List UInt8) :
    parseLength (lengthOctets length ++ rest) = .ok (length, rest) := by
  unfold lengthOctets
  split_ifs with hl
  · have hk := lengthLength_le h
    have hk0 : lengthLength length ≠ 0 := by rw [lengthLength_eq]; split_ifs <;> omega
    have hb : (byte (128 + lengthLength length)).toNat = 128 + lengthLength length := by
      simp only [byte_toNat]; omega
    have hnat := appendLength_eq_natBytes (show 0 < length by omega)
    have hloop := lengthLoop_append (natBytes length) 0 rest
      (.inr (Nat.pos_of_ne_zero (natBytes_headD_ne_zero (by omega))))
      (by rw [← bytesValue, bytesValue_natBytes]; exact h)
    rw [← bytesValue, bytesValue_natBytes, ← hnat, length_appendLength] at hloop
    simp only [List.cons_append, parseLength, hb, if_neg (show ¬ 128 + lengthLength length < 128 by omega),
      if_neg (show ¬ (128 + lengthLength length) % 128 = 0 by omega),
      show (128 + lengthLength length) % 128 = lengthLength length by omega, hloop, hk0, if_false,
      if_neg (show ¬ length < 128 by omega)]
  · simp only [List.singleton_append, parseLength, byte_toNat, Nat.mod_eq_of_lt (by omega : length < 256),
      if_pos (show length < 128 by omega)]

/-- The identifier octet of a low tag number carries the class, the constructed bit and the
tag. -/
theorem identifier_fields {cls tag : Nat} (c : Bool) (hcls : cls < 4) (htag : tag < 31) :
    (byte (cls * 64 + (if c then 32 else 0) + tag)).toNat / 64 = cls ∧
      (decide ((byte (cls * 64 + (if c then 32 else 0) + tag)).toNat / 32 % 2 = 1) = c) ∧
      (byte (cls * 64 + (if c then 32 else 0) + tag)).toNat % 32 = tag := by
  cases c <;> simp only [byte_toNat, if_true, if_false, Bool.false_eq_true, decide_eq_true_eq,
    decide_eq_false_iff_not] <;> omega

/-- **Tags and lengths read back**: a low tag number and every length below 2³¹. -/
theorem parseTagAndLength_appendTagAndLength (t : TagAndLength) (hcls : t.cls < 4)
    (htag : t.tag < 31) (hlen : t.length < 2 ^ 31) (rest : List UInt8) :
    parseTagAndLength (appendTagAndLength t ++ rest) = .ok (t, rest) := by
  obtain ⟨cls, tag, length, c⟩ := t
  dsimp only at hcls htag hlen
  obtain ⟨h1, h2, h3⟩ := identifier_fields c hcls htag
  simp only [appendTagAndLength, if_neg (show ¬ 31 ≤ tag by omega), List.singleton_append,
    List.cons_append, List.nil_append, parseTagAndLength, parseTagNumber, h3,
    if_neg (show ¬ tag = 31 by omega), ok_bind, parseLength_lengthOctets hlen, h1, h2]
  rfl

/-! ## Elements and fields read back -/

section Elements

variable {tag : Nat} {compound : Bool} {contents : List UInt8}

theorem parseTagAndLength_element (htag : tag < 31) (hlen : contents.length < 2 ^ 31)
    (rest : List UInt8) :
    parseTagAndLength (element tag compound contents ++ rest) =
      .ok (⟨0, tag, contents.length, compound⟩, contents ++ rest) := by
  rw [element, List.append_assoc]
  exact parseTagAndLength_appendTagAndLength ⟨0, tag, contents.length, compound⟩ (by show 0 < 4; decide) htag
    hlen _

theorem parseElement_element (htag : tag < 31) (hlen : contents.length < 2 ^ 31)
    (rest : List UInt8) :
    parseElement tag compound (element tag compound contents ++ rest) =
      .ok (some (contents, rest)) := by
  simp [parseElement, parseTagAndLength_element htag hlen]
  rfl

/-- An element read as a field of another universal tag is that field's absence. -/
theorem parseElement_element_other {tag' : Nat} {compound' : Bool} (htag : tag < 31)
    (hlen : contents.length < 2 ^ 31) (hne : tag ≠ tag' ∨ compound ≠ compound')
    (rest : List UInt8) :
    parseElement tag' compound' (element tag compound contents ++ rest) = .ok none := by
  simp only [parseElement, parseTagAndLength_element htag hlen, ok_bind]
  rw [if_pos (by tauto)]; rfl

theorem length_le_element : contents.length ≤ (element tag compound contents).length := by
  simp [element]

theorem element_ne_nil (rest : List UInt8) : element tag compound contents ++ rest ≠ [] := by
  unfold element appendTagAndLength
  split_ifs <;> simp

theorem parseRequired_element (htag : tag < 31) (hlen : contents.length < 2 ^ 31)
    (rest : List UInt8) :
    parseRequired tag compound (element tag compound contents ++ rest) = .ok (contents, rest) := by
  rw [parseRequired, if_neg (element_ne_nil rest), parseElement_element htag hlen]

theorem parseOptional_element (htag : tag < 31) (hlen : contents.length < 2 ^ 31)
    (rest : List UInt8) :
    parseOptional tag compound (element tag compound contents ++ rest) =
      .ok (some contents, rest) := by
  rw [parseOptional, if_neg (element_ne_nil rest), parseElement_element htag hlen]

theorem parseOptional_element_other {tag' : Nat} {compound' : Bool} (htag : tag < 31)
    (hlen : contents.length < 2 ^ 31) (hne : tag ≠ tag' ∨ compound ≠ compound')
    (rest : List UInt8) :
    parseOptional tag' compound' (element tag compound contents ++ rest) =
      .ok (none, element tag compound contents ++ rest) := by
  rw [parseOptional, if_neg (element_ne_nil rest), parseElement_element_other htag hlen hne]

end Elements

theorem parseBigIntField_integerElement {i : Int} (hlen : (makeBigInt i).length < 2 ^ 31)
    (rest : List UInt8) : parseBigIntField (integerElement i ++ rest) = .ok (i, rest) := by
  simp [parseBigIntField, integerElement, parseRequired_element (by decide : tagInteger < 31) hlen,
    parseBigInt_makeBigInt]

theorem parseBigIntField_integerElement_nil {i : Int} (hlen : (makeBigInt i).length < 2 ^ 31) :
    parseBigIntField (integerElement i) = .ok (i, []) := by
  simpa using parseBigIntField_integerElement hlen []

theorem parseIntField_int64Element {i : Int} (h : -2 ^ 63 ≤ i ∧ i < 2 ^ 63)
    (rest : List UInt8) : parseIntField (int64Element i ++ rest) = .ok (i, rest) := by
  have hlen : (int64Encode i).length < 2 ^ 31 := by
    have := int64Len_le i 7 (by norm_num; omega)
    simp only [int64Encode, List.length_map, List.length_range]; omega
  simp [parseIntField, int64Element, parseRequired_element (by decide : tagInteger < 31) hlen,
    parseInt64_int64Encode h]

theorem parseOptionalBigIntField_integerElement {i : Int} (hlen : (makeBigInt i).length < 2 ^ 31)
    (rest : List UInt8) :
    parseOptionalBigIntField (integerElement i ++ rest) = .ok (some i, rest) := by
  simp [parseOptionalBigIntField, integerElement,
    parseOptional_element (by decide : tagInteger < 31) hlen, parseBigInt_makeBigInt]

/-- An optional INTEGER before a SEQUENCE is absent. -/
theorem parseOptionalBigIntField_sequenceElement {contents : List UInt8}
    (hlen : contents.length < 2 ^ 31) (rest : List UInt8) :
    parseOptionalBigIntField (sequenceElement contents ++ rest) =
      .ok (none, sequenceElement contents ++ rest) := by
  simp [parseOptionalBigIntField, sequenceElement,
    parseOptional_element_other (by decide : tagSequence < 31) hlen
      (.inl (by decide : tagSequence ≠ tagInteger))]
  rfl

theorem parseOptionalBigIntField_nil : parseOptionalBigIntField [] = .ok (none, []) := rfl

/-! ## SEQUENCE OF read back -/

/-- The elements of a SEQUENCE OF, each a SEQUENCE with the contents `encode` writes. -/
def sequenceElements {α : Type} (encode : α → List UInt8) (xs : List α) : List UInt8 :=
  (xs.map fun x => sequenceElement (encode x)).flatten

section SequenceOf

variable {α : Type} (encode : α → List UInt8)

@[simp] theorem sequenceElements_nil : sequenceElements encode [] = [] := rfl

theorem sequenceElements_cons (x : α) (xs : List α) :
    sequenceElements encode (x :: xs) = sequenceElement (encode x) ++ sequenceElements encode xs :=
  rfl

variable {encode}

theorem length_le_sequenceElements {x : α} {xs : List α} (hx : x ∈ xs) :
    (encode x).length ≤ (sequenceElements encode xs).length := by
  induction xs with
  | nil => cases hx
  | cons y ys ih =>
    rw [sequenceElements_cons, List.length_append]
    rcases List.mem_cons.mp hx with rfl | hx
    · exact le_add_right length_le_element
    · exact le_add_left (ih hx)

theorem countElements_eq (bytes : List UInt8) :
    countElements bytes =
      if bytes = [] then .ok 0
      else
        match parseTagAndLength bytes with
        | .error e => .error e
        | .ok (t, rest) =>
          if t.cls ≠ 0 ∨ t.isCompound ≠ true ∨ t.tag ≠ tagSequence then
            .error (structuralError "sequence tag mismatch")
          else if rest.length < t.length then .error (syntaxError "truncated sequence")
          else (· + 1) <$> countElements (rest.drop t.length) :=
  boundedFix_eq (fun g g' bytes h => by
    split_ifs with hb
    · rfl
    · cases hp : parseTagAndLength bytes with
      | error e => rfl
      | ok r =>
        have := parseTagAndLength_length hp
        simp only
        split_ifs
        · rfl
        · rfl
        · rw [h _ (by simp only [List.length_drop]; omega)]) bytes

theorem countElements_sequenceElements :
    ∀ {xs : List α}, (∀ x ∈ xs, (encode x).length < 2 ^ 31) →
      countElements (sequenceElements encode xs) = .ok xs.length
  | [], _ => by rw [countElements_eq]; rfl
  | x :: xs, hlen => by
    have hx := hlen x (List.mem_cons_self _ _)
    rw [countElements_eq, if_neg (by rw [sequenceElements_cons]; exact element_ne_nil _),
      sequenceElements_cons, sequenceElement, parseTagAndLength_element (by decide) hx]
    simp only [ne_eq, not_true_eq_false, or_self, if_false, List.length_append,
      show ¬ (encode x).length + (sequenceElements encode xs).length < (encode x).length by omega,
      List.drop_left, countElements_sequenceElements fun y hy => hlen y (List.mem_cons_of_mem _ hy)]
    rfl

theorem parseElements_sequenceElements {parse : List UInt8 → Except String α} :
    ∀ {xs : List α}, (∀ x ∈ xs, (encode x).length < 2 ^ 31 ∧ parse (encode x) = .ok x) →
      parseElements parse xs.length (sequenceElements encode xs) = .ok xs
  | [], _ => rfl
  | x :: xs, h => by
    obtain ⟨hlen, hx⟩ := h x (List.mem_cons_self _ _)
    simp only [List.length_cons, parseElements, sequenceElements_cons, sequenceElement,
      parseRequired_element (by decide : tagSequence < 31) hlen, ok_bind, hx,
      parseElements_sequenceElements fun y hy => h y (List.mem_cons_of_mem _ hy)]
    rfl

/-- **SEQUENCE OF read back**: both passes of `parseSequenceOf` accept the elements and read back
every value. -/
theorem parseSequenceOf_sequenceElements {parse : List UInt8 → Except String α} {xs : List α}
    (h : ∀ x ∈ xs, (encode x).length < 2 ^ 31 ∧ parse (encode x) = .ok x) :
    parseSequenceOf parse (sequenceElements encode xs) = .ok xs := by
  rw [parseSequenceOf, countElements_sequenceElements fun x hx => (h x hx).1, ok_bind,
    parseElements_sequenceElements h]

end SequenceOf

end MachineController.Encoding.Asn1
