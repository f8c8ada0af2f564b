import MachineController.Go.Basic

/-!
# MachineController.Encoding.Base64 — `base64.StdEncoding`

`pem.Encode` writes a block's bytes through `base64.NewEncoder(base64.StdEncoding, …)`, and
`pem.Decode` reads them back with `base64.StdEncoding.Decode`.  `encode` is `(*Encoding).Encode`:
every three bytes become four characters of the standard alphabet, and a last group of one or
two bytes is padded with `=`.  `decode` is `(*Encoding).decode` with its error as `none`: it
skips CR and LF wherever they stand, so it is written as `decodeQuanta` on the text with them
filtered out.  The encoding is not strict, so the bits a padded group leaves over are ignored.

* `decodeQuanta_encode`: the quanta decode back to the bytes;
* `decode_of_filter_eq_encode`: every text that is the encoding of `bs` with CR and LF inserted
  anywhere decodes to `bs`.
-/

namespace MachineController.Encoding.Base64

open MachineController.Go

/-- `encodeStd`, the standard alphabet. -/
def encodeStd : List UInt8 :=
  ascii "ABCDEFGHIJKLMNOPQRSTUVWXYZabcdefghijklmnopqrstuvwxyz0123456789+/"

/-- `StdPadding`, the byte `'='`. -/
def stdPadding : UInt8 := 61

/-- `enc.encode[v]`: the character of a six-bit value. -/
def encodeChar (v : Nat) : UInt8 := encodeStd.getD v 0

/-- `enc.decodeMap[c]`: the value of an alphabet character, `none` where the map holds `0xFF`. -/
def decodeChar (c : UInt8) : Option Nat :=
  if encodeStd.indexOf c < 64 then some (encodeStd.indexOf c) else none

/-- The four characters of `val`, six bits each from the top: `enc.encode[val>>18&0x3F]`, … -/
def quantumChars (val : Nat) : List UInt8 :=
  [encodeChar (val / 2 ^ 18 % 64), encodeChar (val / 2 ^ 12 % 64), encodeChar (val / 2 ^ 6 % 64),
    encodeChar (val % 64)]

/-- `(*Encoding).Encode` on `StdEncoding`.  `val` is
`uint(src[0])<<16 | uint(src[1])<<8 | uint(src[2])`, a sum since the bytes do not overlap. -/
def encode : List UInt8 → List UInt8
  | b0 :: b1 :: b2 :: src =>
    quantumChars (b0.toNat * 2 ^ 16 + b1.toNat * 2 ^ 8 + b2.toNat) ++ encode src
  | [b0, b1] => (quantumChars (b0.toNat * 2 ^ 16 + b1.toNat * 2 ^ 8)).take 3 ++ [stdPadding]
  | [b0] => (quantumChars (b0.toNat * 2 ^ 16)).take 2 ++ [stdPadding, stdPadding]
  | [] => []

/-- The bytes of a decoded quantum: `val := d0<<18 | d1<<12 | d2<<6 | d3`, then `byte(val>>16)`,
`byte(val>>8)` and `byte(val)`. -/
def quantumBytes (d0 d1 d2 d3 : Nat) : List UInt8 :=
  let val := d0 * 2 ^ 18 + d1 * 2 ^ 12 + d2 * 2 ^ 6 + d3
  [byte (val / 2 ^ 16), byte (val / 2 ^ 8), byte val]

/-- The quantum loop of `(*Encoding).decode` on a text without CR and LF.  A padding character
in the first two places is not in the alphabet; `==` must follow the second character and `=`
the third, and either ends the text (a longer text is "trailing garbage"); a text whose length
is not a multiple of four runs out inside a quantum.  Each of these is a `CorruptInputError`. -/
def decodeQuanta : List UInt8 → Option (List UInt8)
  | [] => some []
  | c0 :: c1 :: c2 :: c3 :: src =>
    match decodeChar c0, decodeChar c1 with
    | some d0, some d1 =>
      if c2 = stdPadding then
        if c3 = stdPadding ∧ src = [] then some ((quantumBytes d0 d1 0 0).take 1) else none
      else
        match decodeChar c2 with
        | none => none
        | some d2 =>
          if c3 = stdPadding then
            if src = [] then some ((quantumBytes d0 d1 d2 0).take 2) else none
          else
            match decodeChar c3 with
            | none => none
            | some d3 => (quantumBytes d0 d1 d2 d3 ++ ·) <$> decodeQuanta src
    | _, _ => none
  | _ => none

/-- CR or LF, which `decode` skips. -/
def isNewline (c : UInt8) : Bool := c = 10 ∨ c = 13

/-- `StdEncoding.Decode(dst, src)`: the bytes, or `none` for a `CorruptInputError`. -/
def decode (src : List UInt8) : Option (List UInt8) :=
  decodeQuanta (src.filter fun c => !isNewline c)

/-! ## Characters -/

/-- No character stands twice in the alphabet (checked on the codes, which compare faster). -/
theorem encodeStd_nodup : encodeStd.Nodup := List.Nodup.of_map UInt8.toNat (by decide)

/-- The alphabet holds no padding, no CR or LF, no dash, colon, space or tab. -/
theorem encodeStd_plain : ∀ c ∈ encodeStd,
    c ≠ stdPadding ∧ isNewline c = false ∧ c ≠ 45 ∧ c ≠ 58 ∧ c ≠ 32 ∧ c ≠ 9 := by
  decide

theorem encodeChar_eq {v : Nat} (hv : v < encodeStd.length) : encodeChar v = encodeStd[v] := by
  simp [encodeChar, List.getD_eq_getElem?_getD, List.getElem?_eq_getElem hv]

theorem decodeChar_encodeChar (v : Nat) (hv : v < 64) : decodeChar (encodeChar v) = some v := by
  rw [encodeChar_eq hv, decodeChar, List.indexOf_getElem encodeStd_nodup, if_pos hv]

theorem encodeChar_plain {v : Nat} (hv : v < 64) :
    encodeChar v ≠ stdPadding ∧ isNewline (encodeChar v) = false ∧
      encodeChar v ≠ 45 ∧ encodeChar v ≠ 58 ∧ encodeChar v ≠ 32 ∧ encodeChar v ≠ 9 := by
  rw [encodeChar_eq hv]
  exact encodeStd_plain _ (List.getElem_mem _)

@[simp] theorem decodeChar_encodeChar_mod (v : Nat) :
    decodeChar (encodeChar (v % 64)) = some (v % 64) :=
  decodeChar_encodeChar _ (Nat.mod_lt _ (by omega))

@[simp] theorem encodeChar_mod_ne_padding (v : Nat) : encodeChar (v % 64) ≠ stdPadding :=
  (encodeChar_plain (Nat.mod_lt _ (by omega))).1

/-- Every character `encode` writes is an alphabet character or the padding. -/
theorem mem_encode {bs : List UInt8} {c : UInt8} (h : c ∈ encode bs) :
    c = stdPadding ∨ ∃ v < 64, c = encodeChar v := by
  have hq : ∀ val, ∀ c ∈ quantumChars val, ∃ v < 64, c = encodeChar v := by
    intro val c hc
    simp only [quantumChars, List.mem_cons, List.not_mem_nil, or_false] at hc
    rcases hc with rfl | rfl | rfl | rfl <;> exact ⟨_, Nat.mod_lt _ (by omega), rfl⟩
  match bs, h with
  | _ :: _ :: _ :: src, h =>
    rcases List.mem_append.mp h with h | h
    · exact .inr (hq _ c h)
    · exact mem_encode h
  | [_, _], h =>
    rcases List.mem_append.mp h with h | h
    · exact .inr (hq _ c (List.mem_of_mem_take h))
    · exact .inl (List.mem_singleton.mp h)
  | [_], h =>
    rcases List.mem_append.mp h with h | h
    · exact .inr (hq _ c (List.mem_of_mem_take h))
    · simp only [List.mem_cons, List.not_mem_nil, or_false, or_self] at h
      exact .inl h

theorem encode_no_newline (bs : List UInt8) : ∀ c ∈ encode bs, isNewline c = false := by
  intro c hc
  rcases mem_encode hc with rfl | ⟨v, hv, rfl⟩
  · rfl
  · exact (encodeChar_plain hv).2.1

/-- No character `encode` writes is a dash, a colon, a space or a tab. -/
theorem mem_encode_plain {bs : List UInt8} {c : UInt8} (h : c ∈ encode bs) :
    c ≠ 45 ∧ c ≠ 58 ∧ c ≠ 32 ∧ c ≠ 9 := by
  rcases mem_encode h with rfl | ⟨v, hv, rfl⟩
  · decide
  · exact (encodeChar_plain hv).2.2

theorem encode_eq_nil {bs : List UInt8} : encode bs = [] ↔ bs = [] := by
  match bs with
  | _ :: _ :: _ :: _ => simp [encode, quantumChars]
  | [_, _] => simp [encode]
  | [_] => simp [encode]
  | [] => simp [encode]

/-! ## The round trip -/

/-- The four six-bit values of a 24-bit `val` rebuild its three bytes. -/
theorem quantumBytes_sextets (b0 b1 b2 : UInt8) :
    let val := b0.toNat * 2 ^ 16 + b1.toNat * 2 ^ 8 + b2.toNat
    quantumBytes (val / 2 ^ 18 % 64) (val / 2 ^ 12 % 64) (val / 2 ^ 6 % 64) (val % 64) =
      [b0, b1, b2] := by
  have h0 := b0.toNat_lt; have h1 := b1.toNat_lt; have h2 := b2.toNat_lt
  simp only [quantumBytes, List.cons.injEq, and_true]
  refine ⟨UInt8.ext ?_, UInt8.ext ?_, UInt8.ext ?_⟩ <;> simp only [byte_toNat] <;> omega

/-- A full quantum decodes, and decoding goes on after it. -/
theorem decodeQuanta_quantum (b0 b1 b2 : UInt8) (src : List UInt8) :
    decodeQuanta (quantumChars (b0.toNat * 2 ^ 16 + b1.toNat * 2 ^ 8 + b2.toNat) ++ src) =
      ([b0, b1, b2] ++ ·) <$> decodeQuanta src := by
  simp only [quantumChars, List.cons_append, List.nil_append, decodeQuanta,
    decodeChar_encodeChar_mod, encodeChar_mod_ne_padding, if_false]
  rw [quantumBytes_sextets]
  rfl

theorem decodeQuanta_encode : ∀ bs : List UInt8, decodeQuanta (encode bs) = some bs
  | b0 :: b1 :: b2 :: src => by
    rw [encode, decodeQuanta_quantum, decodeQuanta_encode src]; rfl
  | [b0, b1] => by
    -- the bytes and a zero byte, whose sextet the padding stands for
    have h := quantumBytes_sextets b0 b1 0
    have hmod : (b0.toNat * 2 ^ 16 + b1.toNat * 2 ^ 8) % 64 = 0 := by omega
    simp only [UInt8.toNat_zero, add_zero, hmod] at h
    simp only [encode, quantumChars, List.take_succ_cons, List.take_zero, List.cons_append,
      List.nil_append, decodeQuanta, decodeChar_encodeChar_mod, encodeChar_mod_ne_padding,
      if_false, and_self, if_true, h]
  | [b0] => by
    have h := quantumBytes_sextets b0 0 0
    have hmod : b0.toNat * 2 ^ 16 % 64 = 0 := by omega
    have hmod' : b0.toNat * 2 ^ 16 / 2 ^ 6 % 64 = 0 := by omega
    simp only [UInt8.toNat_zero, add_zero, zero_mul, hmod, hmod'] at h
    simp only [encode, quantumChars, List.take_succ_cons, List.take_zero, List.cons_append,
      List.nil_append, decodeQuanta, decodeChar_encodeChar_mod, and_self, if_true, h]
  | [] => rfl

/-- **Round trip**: a text that is `encode bs` once CR and LF are taken out decodes to `bs`. -/
theorem decode_of_filter_eq_encode {text bs : List UInt8}
    (h : text.filter (fun c => !isNewline c) = encode bs) : decode text = some bs := by
  rw [decode, h, decodeQuanta_encode]

end MachineController.Encoding.Base64
