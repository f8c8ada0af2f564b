import MachineController.Crypto.Rsa
import MachineController.Encoding.Asn1.Field

/-!
# MachineController.Crypto.Pkcs1 — PKCS #1 private keys in `crypto/x509`

`EnsureSSHKeypairSecret` stores `x509.MarshalPKCS1PrivateKey(pk)`, and `keyFromSecret` reads it
back with `x509.ParsePKCS1PrivateKey`.  Both go through the struct `pkcs1PrivateKey`:
`asn1.Marshal` writes it as a SEQUENCE of its fields, leaving out an optional `nil` and an empty
`AdditionalPrimes`, and `asn1.Unmarshal` reads the fields back in order (`unmarshalPkcs1`).
`ParsePKCS1PrivateKey` then refuses trailing bytes, a version above 1 and numbers that are not
positive, and keeps the key only if `Validate` accepts it.  When `Unmarshal` fails, Go 1.15 tries
the bytes as an EC and as a PKCS #8 key only to choose a more helpful error text; those two
retries are left out, and the model returns the error of `Unmarshal`.

* `unmarshalPkcs1_marshalPkcs1`: what `asn1.Marshal` writes of a `pkcs1PrivateKey` reads back;
* `parsePKCS1PrivateKey_marshal`: a key that `Validate` accepts, with two primes or more, a
  positive private exponent and every CRT coefficient, reads back from its PKCS #1 encoding;
* `parsePKCS1PrivateKey_eq_ok`: what `ParsePKCS1PrivateKey` returns is such a key.
-/

namespace MachineController.Crypto

open MachineController.Go MachineController.Encoding.Asn1

/-! ## The ASN.1 structs -/

/-- `pkcs1AdditionalRSAPrime`; a `nil` `Coeff` is `none`. -/
structure AdditionalPrime where
  prime : Int
  exp : Int
  coeff : Option Int
deriving DecidableEq, Repr

/-- `pkcs1PrivateKey`; an optional field that is `nil` is `none`. -/
structure Pkcs1PrivateKey where
  version : Int
  n : Int
  e : Int
  d : Int
  p : Int
  q : Int
  dp : Option Int
  dq : Option Int
  qinv : Option Int
  additionalPrimes : List AdditionalPrime
deriving DecidableEq, Repr

/-! ## `asn1.Marshal` -/

/-- An optional `*big.Int` field: `nil`, its zero value, is left out. -/
def marshalOptionalBigInt : Option Int → List UInt8
  | some i => integerElement i
  | none => []

/-- The fields of a `pkcs1AdditionalRSAPrime`, its `Coeff` present. -/
def additionalPrimeFields (a : AdditionalPrime) : List UInt8 :=
  integerElement a.prime ++ integerElement a.exp ++ integerElement (a.coeff.getD 0)

/-- The SEQUENCE of a `pkcs1AdditionalRSAPrime`; a `nil` `Coeff` fails `makeBigInt`. -/
def marshalAdditionalPrime (a : AdditionalPrime) : Except String (List UInt8) :=
  if a.coeff.isSome then .ok (sequenceElement (additionalPrimeFields a))
  else .error (structuralError "empty integer")

/-- The elements of a slice, made in turn; the first error ends the loop. -/
def marshalElements : List AdditionalPrime → Except String (List UInt8)
  | [] => .ok []
  | a :: as => do
    let e ← marshalAdditionalPrime a
    let es ← marshalElements as
    return e ++ es

/-- `AdditionalPrimes`, `optional,omitempty`: left out when empty, else a SEQUENCE of its
elements. -/
def marshalAdditionalPrimes (as : List AdditionalPrime) : Except String (List UInt8) :=
  if as = [] then .ok [] else sequenceElement <$> marshalElements as

/-- The fields of a `pkcs1PrivateKey` before `AdditionalPrimes`. -/
def pkcs1Fields (priv : Pkcs1PrivateKey) (additional : List UInt8) : List UInt8 :=
  int64Element priv.version ++ integerElement priv.n ++ int64Element priv.e ++
    integerElement priv.d ++ integerElement priv.p ++ integerElement priv.q ++
    marshalOptionalBigInt priv.dp ++ marshalOptionalBigInt priv.dq ++
    marshalOptionalBigInt priv.qinv ++ additional

/-- `asn1.Marshal` of a `pkcs1PrivateKey`: only `AdditionalPrimes` can fail. -/
def marshalPkcs1 (priv : Pkcs1PrivateKey) : Except String (List UInt8) := do
  let additional ← marshalAdditionalPrimes priv.additionalPrimes
  return sequenceElement (pkcs1Fields priv additional)

/-- The `pkcs1PrivateKey` of `MarshalPKCS1PrivateKey`: version 1 for more than two primes, the
precomputed CRT values, and an additional prime for every prime past the first two. -/
def PrivateKey.toPkcs1 (key : PrivateKey) (p q : Int) (more : List Int) : Pkcs1PrivateKey :=
  let pre := key.precompute
  ⟨if 2 < key.primes.length then 1 else 0, key.publicKey.n, key.publicKey.e, key.d, p, q,
    some pre.dp, some pre.dq, pre.qinv,
    List.zipWith (fun prime v => ⟨prime, v.exp, v.coeff⟩) more pre.crtValues⟩

/-- `x509.MarshalPKCS1PrivateKey`: an error of `asn1.Marshal` is dropped and leaves `nil`.  Go
indexes `Primes[0]` and `Primes[1]`, which panics on a key with fewer primes; no key the program
marshals has fewer, and the model writes nothing for one. -/
def marshalPKCS1PrivateKey (key : PrivateKey) : List UInt8 :=
  match key.primes with
  | p :: q :: more =>
    match marshalPkcs1 (key.toPkcs1 p q more) with
    | .ok b => b
    | .error _ => []
  | _ => []

/-! ## `asn1.Unmarshal` and `ParsePKCS1PrivateKey` -/

/-- The fields of a `pkcs1AdditionalRSAPrime`, read from the contents of its SEQUENCE, which may
go on after them. -/
def parseAdditionalPrime (bytes : List UInt8) : Except String AdditionalPrime := do
  let (prime, bytes) ← parseBigIntField bytes
  let (exp, bytes) ← parseBigIntField bytes
  let (coeff, _) ← parseBigIntField bytes
  return ⟨prime, exp, some coeff⟩

/-- `asn1.Unmarshal(der, &priv)`: the key and the bytes after its SEQUENCE.  The SEQUENCE may go
on after the last field. -/
def unmarshalPkcs1 (der : List UInt8) : Except String (Pkcs1PrivateKey × List UInt8) := do
  let (bytes, rest) ← parseRequired tagSequence true der
  let (version, bytes) ← parseIntField bytes
  let (n, bytes) ← parseBigIntField bytes
  let (e, bytes) ← parseIntField bytes
  let (d, bytes) ← parseBigIntField bytes
  let (p, bytes) ← parseBigIntField bytes
  let (q, bytes) ← parseBigIntField bytes
  let (dp, bytes) ← parseOptionalBigIntField bytes
  let (dq, bytes) ← parseOptionalBigIntField bytes
  let (qinv, bytes) ← parseOptionalBigIntField bytes
  let additionalPrimes ← match ← parseOptional tagSequence true bytes with
    | (none, _) => pure []
    | (some contents, _) => parseSequenceOf parseAdditionalPrime contents
  return (⟨version, n, e, d, p, q, dp, dq, qinv, additionalPrimes⟩, rest)

/-- The key `ParsePKCS1PrivateKey` builds from the struct. -/
def Pkcs1PrivateKey.toKey (priv : Pkcs1PrivateKey) : PrivateKey :=
  ⟨⟨priv.n, priv.e⟩, priv.d, priv.p :: priv.q :: priv.additionalPrimes.map (·.prime)⟩

/-- `x509.ParsePKCS1PrivateKey`. -/
def parsePKCS1PrivateKey (der : List UInt8) : Except String PrivateKey :=
  match unmarshalPkcs1 der with
  | .error e => .error e
  | .ok (priv, rest) =>
    if rest ≠ [] then .error (syntaxError "trailing data")
    else if 1 < priv.version then .error "x509: unsupported private key version"
    else if priv.n ≤ 0 ∨ priv.d ≤ 0 ∨ priv.p ≤ 0 ∨ priv.q ≤ 0 then
      .error "x509: private key contains zero or negative value"
    else if priv.additionalPrimes.any (·.prime ≤ 0) then
      .error "x509: private key contains zero or negative prime"
    else
      match priv.toKey.validate with
      | .error e => .error e.text
      | .ok () => .ok priv.toKey

/-! ## What `asn1.Marshal` wrote -/

theorem marshalAdditionalPrime_eq_ok {a : AdditionalPrime} {b : List UInt8}
    (h : marshalAdditionalPrime a = .ok b) :
    a.coeff.isSome ∧ b = sequenceElement (additionalPrimeFields a) := by
  unfold marshalAdditionalPrime at h
  split_ifs at h with hc
  cases h
  exact ⟨hc, rfl⟩

theorem marshalElements_eq_ok : ∀ {as : List AdditionalPrime} {b : List UInt8},
    marshalElements as = .ok b →
      (∀ a ∈ as, a.coeff.isSome) ∧ b = sequenceElements additionalPrimeFields as
  | [], b, h => by cases h; simp
  | a :: as, b, h => by
    obtain ⟨e, he, h⟩ := bind_eq_ok.mp h
    obtain ⟨es, hes, h⟩ := bind_eq_ok.mp h
    cases h
    obtain ⟨hc, rfl⟩ := marshalAdditionalPrime_eq_ok he
    obtain ⟨hcs, rfl⟩ := marshalElements_eq_ok hes
    refine ⟨fun x hx => ?_, rfl⟩
    rcases List.mem_cons.mp hx with rfl | hx
    exacts [hc, hcs x hx]

theorem marshalAdditionalPrimes_eq_ok {as : List AdditionalPrime} {b : List UInt8}
    (h : marshalAdditionalPrimes as = .ok b) :
    (∀ a ∈ as, a.coeff.isSome) ∧
      b = if as = [] then [] else sequenceElement (sequenceElements additionalPrimeFields as) := by
  unfold marshalAdditionalPrimes at h
  split_ifs at h with has
  · cases h; subst has; simp
  · cases hm : marshalElements as with
    | error e => rw [hm] at h; cases h
    | ok es =>
      rw [hm] at h
      cases h
      obtain ⟨hc, rfl⟩ := marshalElements_eq_ok hm
      exact ⟨hc, by rw [if_neg has]⟩

/-! ## Read back -/

theorem parseAdditionalPrime_fields {a : AdditionalPrime} (hc : a.coeff.isSome)
    (hlen : (additionalPrimeFields a).length < 2 ^ 31) :
    parseAdditionalPrime (additionalPrimeFields a) = .ok a := by
  obtain ⟨prime, exp, coeff⟩ := a
  obtain ⟨c, rfl⟩ := Option.isSome_iff_exists.mp hc
  simp only [additionalPrimeFields, integerElement, element, List.length_append,
    Option.getD_some] at hlen
  have h1 : (makeBigInt prime).length < 2 ^ 31 := by omega
  have h2 : (makeBigInt exp).length < 2 ^ 31 := by omega
  have h3 : (makeBigInt c).length < 2 ^ 31 := by omega
  simp only [parseAdditionalPrime, additionalPrimeFields, Option.getD_some, List.append_assoc,
    parseBigIntField_integerElement h1, parseBigIntField_integerElement h2,
    parseBigIntField_integerElement_nil h3, ok_bind]
  rfl

/-- `AdditionalPrimes`, `optional`: read back when there is one, absent otherwise. -/
theorem parseOptional_additionalPrimes {as : List AdditionalPrime}
    (hlen : as ≠ [] → (sequenceElements additionalPrimeFields as).length < 2 ^ 31) :
    parseOptional tagSequence true
        (if as = [] then [] else sequenceElement (sequenceElements additionalPrimeFields as)) =
      .ok (if as = [] then none else some (sequenceElements additionalPrimeFields as), []) := by
  split_ifs with has
  · rfl
  · simpa [sequenceElement] using
      parseOptional_element (by decide : tagSequence < 31) (hlen has) []

/-- `QInv` reads back before `AdditionalPrimes`, whether either is there or not. -/
theorem parseOptionalBigIntField_qinv {qinv : Option Int} {as : List AdditionalPrime}
    (hq : ∀ i ∈ qinv, (makeBigInt i).length < 2 ^ 31)
    (hlen : as ≠ [] → (sequenceElements additionalPrimeFields as).length < 2 ^ 31) :
    parseOptionalBigIntField (marshalOptionalBigInt qinv ++
        if as = [] then [] else sequenceElement (sequenceElements additionalPrimeFields as)) =
      .ok (qinv,
        if as = [] then [] else sequenceElement (sequenceElements additionalPrimeFields as)) := by
  cases qinv with
  | some i => exact parseOptionalBigIntField_integerElement (hq i rfl) _
  | none =>
    split_ifs with has
    · rfl
    · simpa using parseOptionalBigIntField_sequenceElement (hlen has) []

/-- **`pkcs1PrivateKey` read back**: what `asn1.Marshal` writes of the struct, with `Dp` and
`Dq` present as `MarshalPKCS1PrivateKey` sets them, reads back as the same struct with nothing
after it, when it is shorter than 2³¹ octets. -/
theorem unmarshalPkcs1_marshalPkcs1 {priv : Pkcs1PrivateKey} {der : List UInt8}
    (h : marshalPkcs1 priv = .ok der) (hdp : priv.dp.isSome) (hdq : priv.dq.isSome)
    (hver : -2 ^ 63 ≤ priv.version ∧ priv.version < 2 ^ 63)
    (he : -2 ^ 63 ≤ priv.e ∧ priv.e < 2 ^ 63) (hlen : der.length < 2 ^ 31) :
    unmarshalPkcs1 der = .ok (priv, []) := by
  obtain ⟨additional, hadd, h⟩ := bind_eq_ok.mp h
  cases h
  obtain ⟨hcoeff, rfl⟩ := marshalAdditionalPrimes_eq_ok hadd
  obtain ⟨version, n, e, d, p, q, dp, dq, qinv, as⟩ := priv
  obtain ⟨dp, rfl⟩ := Option.isSome_iff_exists.mp hdp
  obtain ⟨dq, rfl⟩ := Option.isSome_iff_exists.mp hdq
  dsimp only at hver he hcoeff hlen ⊢
  have hF := length_le_element.trans_lt hlen
  -- every field is shorter than the fields together
  have hC := hF
  simp only [pkcs1Fields, marshalOptionalBigInt.eq_1, List.length_append] at hC
  have hn := length_le_element.trans_lt (by omega : (integerElement n).length < 2 ^ 31)
  have hd := length_le_element.trans_lt (by omega : (integerElement d).length < 2 ^ 31)
  have hp := length_le_element.trans_lt (by omega : (integerElement p).length < 2 ^ 31)
  have hq := length_le_element.trans_lt (by omega : (integerElement q).length < 2 ^ 31)
  have hdp' := length_le_element.trans_lt (by omega : (integerElement dp).length < 2 ^ 31)
  have hdq' := length_le_element.trans_lt (by omega : (integerElement dq).length < 2 ^ 31)
  have hqinv : ∀ i ∈ qinv, (makeBigInt i).length < 2 ^ 31 := by
    rintro i rfl
    simp only [marshalOptionalBigInt] at hC
    exact length_le_element.trans_lt (by omega : (integerElement i).length < 2 ^ 31)
  have hS : as ≠ [] → (sequenceElements additionalPrimeFields as).length < 2 ^ 31 := fun has => by
    simp only [if_neg has] at hC
    exact length_le_element.trans_lt
      (by omega : (sequenceElement (sequenceElements additionalPrimeFields as)).length < 2 ^ 31)
  rw [unmarshalPkcs1, ← List.append_nil (sequenceElement _), sequenceElement,
    parseRequired_element (by decide : tagSequence < 31) hF, ok_bind]
  simp only [pkcs1Fields, marshalOptionalBigInt.eq_1, List.append_assoc,
    parseIntField_int64Element hver,
    ok_bind, parseBigIntField_integerElement hn, parseIntField_int64Element he,
    parseBigIntField_integerElement hd, parseBigIntField_integerElement hp,
    parseBigIntField_integerElement hq, parseOptionalBigIntField_integerElement hdp',
    parseOptionalBigIntField_integerElement hdq', parseOptionalBigIntField_qinv hqinv hS,
    parseOptional_additionalPrimes hS]
  split_ifs with has
  · subst has; rfl
  · simp only [parseSequenceOf_sequenceElements fun x hx =>
      have hx' := (length_le_sequenceElements hx).trans_lt (hS has)
      ⟨hx', parseAdditionalPrime_fields (hcoeff x hx) hx'⟩, ok_bind]
    rfl

/-! ## `ParsePKCS1PrivateKey` after `MarshalPKCS1PrivateKey` -/

theorem marshalElements_isOk : ∀ {as : List AdditionalPrime}, (∀ a ∈ as, a.coeff.isSome) →
    ∃ b, marshalElements as = .ok b
  | [], _ => ⟨[], rfl⟩
  | a :: as, h => by
    obtain ⟨es, hes⟩ := marshalElements_isOk fun x hx => h x (List.mem_cons_of_mem _ hx)
    refine ⟨sequenceElement (additionalPrimeFields a) ++ es, ?_⟩
    rw [marshalElements, marshalAdditionalPrime, if_pos (h a (List.mem_cons_self _ _)), ok_bind,
      hes, ok_bind]
    rfl

theorem marshalPkcs1_isOk {priv : Pkcs1PrivateKey} (h : ∀ a ∈ priv.additionalPrimes, a.coeff.isSome) :
    ∃ der, marshalPkcs1 priv = .ok der := by
  unfold marshalPkcs1 marshalAdditionalPrimes
  split_ifs
  · exact ⟨_, rfl⟩
  · obtain ⟨b, hb⟩ := marshalElements_isOk h
    exact ⟨_, by rw [hb]; rfl⟩

/-- The additional primes of `MarshalPKCS1PrivateKey` are the primes past the first two. -/
theorem zipWith_crtValues_primes : ∀ (more : List Int) (crt : List CRTValue),
    crt.length = more.length →
      (List.zipWith (fun prime (v : CRTValue) => (⟨prime, v.exp, v.coeff⟩ : AdditionalPrime)) more
        crt).map (·.prime) = more
  | [], _, _ => rfl
  | _ :: _, [], h => by cases h
  | p :: more, _ :: crt, h => by
    simp only [List.zipWith_cons_cons, List.map_cons, List.cons.injEq, true_and]
    exact zipWith_crtValues_primes more crt (by simpa using h)

theorem mem_zipWith_crtValues {more : List Int} {crt : List CRTValue} {a : AdditionalPrime}
    (ha : a ∈ List.zipWith (fun prime (v : CRTValue) => (⟨prime, v.exp, v.coeff⟩ : AdditionalPrime))
      more crt) : a.prime ∈ more ∧ ∃ v ∈ crt, a.coeff = v.coeff := by
  induction more generalizing crt with
  | nil => simp at ha
  | cons p more ih =>
    cases crt with
    | nil => simp at ha
    | cons v crt =>
      rcases List.mem_cons.mp ha with rfl | ha
      · exact ⟨List.mem_cons_self _ _, v, List.mem_cons_self _ _, rfl⟩
      · obtain ⟨h1, w, hw, h2⟩ := ih ha
        exact ⟨List.mem_cons_of_mem _ h1, w, List.mem_cons_of_mem _ hw, h2⟩

section RoundTrip

variable {key : PrivateKey} {p q : Int} {more : List Int}

/-- `ParsePKCS1PrivateKey` rebuilds the key `MarshalPKCS1PrivateKey` started from. -/
theorem toKey_toPkcs1 (hpq : key.primes = p :: q :: more) : (key.toPkcs1 p q more).toKey = key := by
  obtain ⟨⟨n, e⟩, d, primes⟩ := key
  dsimp only at hpq
  subst hpq
  simp only [Pkcs1PrivateKey.toKey, PrivateKey.toPkcs1, PrivateKey.precompute,
    zipWith_crtValues_primes _ _ (crtValues_length _ _ _)]

/-- **PKCS #1 round trip**: a key that `Validate` accepts, with two primes or more, a positive
private exponent and every CRT coefficient (which primes that are pairwise coprime have), reads
back from `MarshalPKCS1PrivateKey` when its encoding is shorter than 2³¹ octets. -/
theorem parsePKCS1PrivateKey_marshal (key : PrivateKey) (hvalid : key.validate = .ok ())
    (hprimes : 2 ≤ key.primes.length) (hd : 0 < key.d)
    (hcoeff : ∀ v ∈ key.precompute.crtValues, v.coeff.isSome)
    (hlen : (marshalPKCS1PrivateKey key).length < 2 ^ 31) :
    parsePKCS1PrivateKey (marshalPKCS1PrivateKey key) = .ok key := by
  obtain ⟨p, q, more, hpq⟩ : ∃ p q more, key.primes = p :: q :: more := by
    match h : key.primes, hprimes with
    | p :: q :: more, _ => exact ⟨p, q, more, rfl⟩
  obtain ⟨he, hgt, -, -⟩ := (validate_eq_ok_iff key).mp hvalid
  have hco : ∀ a ∈ (key.toPkcs1 p q more).additionalPrimes, a.coeff.isSome := fun a ha => by
    obtain ⟨-, v, hv, hc⟩ := mem_zipWith_crtValues ha
    exact hc ▸ hcoeff v hv
  obtain ⟨der, hder⟩ := marshalPkcs1_isOk hco
  have hm : marshalPKCS1PrivateKey key = der := by
    rw [marshalPKCS1PrivateKey]; simp only [hpq, hder]
  rw [hm] at hlen ⊢
  have hun := unmarshalPkcs1_marshalPkcs1 hder rfl rfl
    (by simp only [PrivateKey.toPkcs1]; split_ifs <;> norm_num)
    (by simp only [PrivateKey.toPkcs1]; constructor <;> omega) hlen
  have hp : 1 < p := hgt p (by simp [hpq])
  have hq : 1 < q := hgt q (by simp [hpq])
  have hmore : ∀ a ∈ (key.toPkcs1 p q more).additionalPrimes, 1 < a.prime := fun a ha =>
    hgt _ (by rw [hpq]; exact List.mem_cons_of_mem _ (List.mem_cons_of_mem _ (mem_zipWith_crtValues ha).1))
  have hval : (key.toPkcs1 p q more).toKey.validate = .ok () := by rw [toKey_toPkcs1 hpq]; exact hvalid
  have hany : ¬ ((key.toPkcs1 p q more).additionalPrimes.any fun a => decide (a.prime ≤ 0)) = true := by
    simp only [List.any_eq_true, decide_eq_true_eq, not_exists, not_and, not_le]
    exact fun a ha => zero_lt_one.trans (hmore a ha)
  simp only [parsePKCS1PrivateKey, hun, ne_eq, not_true_eq_false, if_false]
  rw [if_neg (by simp only [PrivateKey.toPkcs1]; split_ifs <;> norm_num),
    if_neg (by simp only [PrivateKey.toPkcs1]; have := validate_n_pos hvalid; omega), if_neg hany,
    hval, toKey_toPkcs1 hpq]

end RoundTrip

/-- `x509.ParsePKCS1PrivateKey` returns only keys that `Validate` accepts, with at least two
primes and a positive private exponent. -/
theorem parsePKCS1PrivateKey_eq_ok {der : List UInt8} {key : PrivateKey}
    (h : parsePKCS1PrivateKey der = .ok key) :
    key.validate = .ok () ∧ 2 ≤ key.primes.length ∧ 0 < key.d := by
  unfold parsePKCS1PrivateKey at h
  split at h
  · cases h
  · split_ifs at h with h1 h2 h3 h4
    split at h
    · cases h
    · next hv =>
      cases h
      exact ⟨hv, by simp [Pkcs1PrivateKey.toKey], by simp only [not_or, not_le] at h3; exact h3.2.1⟩

end MachineController.Crypto
