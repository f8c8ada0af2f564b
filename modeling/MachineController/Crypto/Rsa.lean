import MachineController.Go.Basic

/-!
# MachineController.Crypto.Rsa — the `crypto/rsa` key records

`rsa.PublicKey` and `rsa.PrivateKey` with their `*big.Int` fields as integers.  The precomputed
CRT values of a private key are a function of the other fields (`precompute`), so the record
keeps only `N`, `E`, `D` and the primes, and `precompute` derives the rest when a key is
marshalled.  `validate` is `(*PrivateKey).Validate`.
-/

namespace MachineController.Crypto

/-- `rsa.PublicKey`: the modulus `N` and the exponent `E` (a Go `int`). -/
structure PublicKey where
  n : Int
  e : Int
deriving DecidableEq, Repr

/-- `rsa.PrivateKey` without its `Precomputed` values. -/
structure PrivateKey where
  publicKey : PublicKey
  d : Int
  primes : List Int
deriving DecidableEq, Repr

/-- The errors of `(*PrivateKey).Validate`. -/
inductive RsaError
  | publicExponentSmall
  | publicExponentLarge
  | invalidPrime
  | invalidModulus
  | invalidExponents
deriving DecidableEq, Repr

/-- The texts of the errors. -/
def RsaError.text : RsaError → String
  | .publicExponentSmall => "crypto/rsa: public exponent too small"
  | .publicExponentLarge => "crypto/rsa: public exponent too large"
  | .invalidPrime => "crypto/rsa: invalid prime value"
  | .invalidModulus => "crypto/rsa: invalid modulus"
  | .invalidExponents => "crypto/rsa: invalid exponents"

/-- `checkPub`: `2 ≤ E ≤ 2^31 - 1`. -/
def checkPub (pub : PublicKey) : Except RsaError Unit :=
  if pub.e < 2 then .error .publicExponentSmall
  else if 2 ^ 31 - 1 < pub.e then .error .publicExponentLarge
  else .ok ()

/-- `(*PrivateKey).Validate`: the public part is sane, every prime is above one, the primes
multiply to `N`, and `D·E ≡ 1` modulo `prime - 1` for every prime. -/
def PrivateKey.validate (k : PrivateKey) : Except RsaError Unit :=
  match checkPub k.publicKey with
  | .error e => .error e
  | .ok () =>
    if k.primes.any (· ≤ 1) then .error .invalidPrime
    else if k.primes.foldl (· * ·) 1 ≠ k.publicKey.n then .error .invalidModulus
    else if k.primes.any (fun p => k.publicKey.e * k.d % (p - 1) ≠ 1) then .error .invalidExponents
    else .ok ()

theorem checkPub_eq_ok_iff (pub : PublicKey) :
    checkPub pub = .ok () ↔ 2 ≤ pub.e ∧ pub.e ≤ 2 ^ 31 - 1 := by
  unfold checkPub
  split_ifs <;> simp only [reduceCtorEq, false_iff, true_iff, not_and, not_le] <;> omega

/-- What `Validate` checks, as one statement. -/
theorem validate_eq_ok_iff (k : PrivateKey) :
    k.validate = .ok () ↔ (2 ≤ k.publicKey.e ∧ k.publicKey.e ≤ 2 ^ 31 - 1) ∧
      (∀ p ∈ k.primes, 1 < p) ∧ k.primes.foldl (· * ·) 1 = k.publicKey.n ∧
      ∀ p ∈ k.primes, k.publicKey.e * k.d % (p - 1) = 1 := by
  rw [← checkPub_eq_ok_iff, PrivateKey.validate]
  cases checkPub k.publicKey with
  | error e => simp
  | ok u =>
    split_ifs with h1 h2 h3 <;> simp_all

theorem foldl_mul_pos : ∀ {ps : List Int} {acc : Int}, 0 < acc → (∀ p ∈ ps, 0 < p) →
    0 < ps.foldl (· * ·) acc
  | [], _, hacc, _ => hacc
  | p :: ps, _, hacc, h => by
    rw [List.foldl_cons]
    exact foldl_mul_pos (mul_pos hacc (h p (List.mem_cons_self _ _)))
      fun q hq => h q (List.mem_cons_of_mem _ hq)

/-- A key `Validate` accepts has a positive modulus. -/
theorem validate_n_pos {k : PrivateKey} (h : k.validate = .ok ()) : 0 < k.publicKey.n := by
  obtain ⟨-, hprimes, hn, -⟩ := (validate_eq_ok_iff k).mp h
  exact hn ▸ foldl_mul_pos one_pos fun p hp => by linarith [hprimes p hp]

/-- `new(big.Int).ModInverse(g, n)` for `n ≠ 0`: the inverse of `g` modulo `n` in `[0, |n|)`, and
`nil` when there is none, that is when `g` and `n` are not coprime. -/
def modInverse (g n : Int) : Option Int :=
  ((List.range n.natAbs).map Int.ofNat).find? fun x => g * x % n = 1 % n

/-- `rsa.CRTValue`: the values `Precompute` derives for a prime past the first two. -/
structure CRTValue where
  exp : Int
  coeff : Option Int
  r : Int
deriving DecidableEq, Repr

/-- `rsa.PrecomputedValues`. -/
structure Precomputed where
  dp : Int
  dq : Int
  qinv : Option Int
  crtValues : List CRTValue
deriving DecidableEq, Repr

/-- The CRT values of the primes `ps` past the first two, `r` the product of the primes
before them. -/
def crtValues (d : Int) : Int → List Int → List CRTValue
  | _, [] => []
  | r, p :: ps => ⟨d % (p - 1), modInverse r p, r⟩ :: crtValues d (r * p) ps

theorem crtValues_length (d r : Int) (ps : List Int) : (crtValues d r ps).length = ps.length := by
  induction ps generalizing r <;> simp [crtValues, *]

/-- `(*PrivateKey).Precompute`. -/
def PrivateKey.precompute (k : PrivateKey) : Precomputed :=
  match k.primes with
  | p :: q :: rest => ⟨k.d % (p - 1), k.d % (q - 1), modInverse q p, crtValues k.d (p * q) rest⟩
  | _ => ⟨0, 0, none, []⟩

end MachineController.Crypto
