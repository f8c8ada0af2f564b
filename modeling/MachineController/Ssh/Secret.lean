import MachineController.Crypto.Pkcs1
import MachineController.Encoding.Pem

/-!
# MachineController.Ssh.Secret — `EnsureSSHKeypairSecret`, alone and side by side

`EnsureSSHKeypairSecret` reads the secret `machine-controller-ssh-key` in `kube-system`.  On
`NotFound` it generates a key (`NewPrivateKey`, whose source is not among the modelled ones: a
`GeneratedKey`), stores it as the PEM block of its PKCS #1 encoding under `id_rsa` and returns
it; any other error of the read, and any error of the write, is returned as it is.  A secret
that is there is handed to `keyFromSecret`, which PEM-decodes `id_rsa` and parses the block.
`pem.Decode` returns a `nil` block on data without one, and `keyFromSecret` reads its `Bytes`
without a check.

The function is cut at its two requests, `afterGet` and `afterCreate`.  `SecretSys` runs any
number of calls, each with its own generated key, against the one secret the API server keeps
under the name: a step sends one call's next request, which the server answers, which fails
before the server acts on it, or whose reply is lost after the server has acted on it
(`Transport`), and hands the reply to the call.

* `keyFromSecret_secretOf`: the secret a call writes decodes back to its key;
* `keyFromSecret_of_block`: `keyFromSecret` reads a generated key from the first PEM block of
  `id_rsa`, whatever follows it;
* `keyFromSecret_eq_ok`: `keyFromSecret` returns a key only from a PEM block whose bytes parse as
  a PKCS #1 key;
* `reachable_secret_spec`: in every interleaving, from any store, the secret once written never
  changes, a call that returned a key returned what `keyFromSecret` decodes from it, and a call
  whose `Create` finds the name taken returns the `AlreadyExists` error;
* `reachable_returned_agree`: in every interleaving, all calls that returned a key returned the
  same key;
* `reachable_returned_written`: from an empty store, that key is the generated key of the call
  whose `Create` stored it, which returned it or lost the reply;
* `reachable_returned_valid`: every key a call returned passes `rsa.Validate`;
* `reachable_one_secret`: when every request is answered, once all calls have ended one of them
  has written its key and returned it;
* `secrets_lostRace`: two calls that both read `NotFound` before either writes: the second
  write is refused and its call returns the `AlreadyExists` error;
* `keyFromSecret_empty`: a secret whose `id_rsa` holds no PEM block makes `keyFromSecret`
  dereference the `nil` block.
-/

namespace MachineController.Ssh

open MachineController.Go MachineController.Crypto MachineController.Encoding

/-! ## Secrets and keys -/

/-- `privateKeyDataIndex`. -/
def privateKeyDataIndex : String := "id_rsa"

/-- `secretName`. -/
def secretName : String := "machine-controller-ssh-key"

/-- `metav1.NamespaceSystem`. -/
def namespaceSystem : String := "kube-system"

/-- `v1.SecretTypeOpaque`. -/
def secretTypeOpaque : String := "Opaque"

/-- The PEM block type of the stored key. -/
def pemType : List UInt8 := ascii "RSA PRIVATE KEY"

/-- `v1.Secret`, with the fields the program sets or reads; `Data` is a map from keys to bytes. -/
structure Secret where
  name : String
  /-- `Namespace`. -/
  ns : String
  type : String
  data : List (String × List UInt8)
deriving DecidableEq, Repr

/-- What `NewPrivateKey` returns: a key of `rsa.GenerateKey`, which `Validate` accepts, with two
primes, a positive private exponent and a PKCS #1 encoding shorter than 2³¹ octets. -/
structure GeneratedKey where
  key : PrivateKey
  valid : key.validate = .ok ()
  two_primes : key.primes.length = 2
  d_pos : 0 < key.d
  short : (marshalPKCS1PrivateKey key).length < 2 ^ 31

/-- `keyFromSecret`.  `pem.Decode` gives `nil` on data without a PEM block, and reading
`decoded.Bytes` then dereferences it. -/
def keyFromSecret (secret : Secret) : Outcome (Except String PrivateKey) :=
  match secret.data.lookup privateKeyDataIndex with
  | none =>
    .ret (.error ("key data not found in secret \x27" ++ secret.ns ++ "/" ++ secret.name ++
      "\x27 (secret.data[\x27" ++ privateKeyDataIndex ++
      "\x27]). remove it and a new one will be created"))
  | some b =>
    match (Pem.decode b).1 with
    | none => .nilDeref
    | some decoded =>
      match parsePKCS1PrivateKey decoded.bytes with
      | .error err => .ret (.error ("failed to parse private key: " ++ err))
      | .ok pk => .ret (.ok pk)

/-- The secret `EnsureSSHKeypairSecret` creates for `pk`: `pem.Encode` into a buffer, which
cannot fail, of the block of `x509.MarshalPKCS1PrivateKey(pk)`.  The request names no
namespace; the client sends it to `kube-system`. -/
def secretOf (pk : PrivateKey) : Secret :=
  ⟨secretName, "", secretTypeOpaque,
    [(privateKeyDataIndex, Pem.encode pemType (marshalPKCS1PrivateKey pk))]⟩

/-- The secret as the API server stores it, in the namespace the request went to. -/
def stored (secret : Secret) : Secret := { secret with ns := namespaceSystem }

/-! ## The function -/

/-- An error of the API server for the secret: `errors.IsNotFound`, `errors.IsAlreadyExists`, or
another (a failed request included). -/
inductive ApiError
  | notFound
  | alreadyExists
  | other (msg : String)
deriving DecidableEq, Repr

/-- The text of the error: the status message of the API server. -/
def ApiError.text : ApiError → String
  | .notFound => "secrets \"" ++ secretName ++ "\" not found"
  | .alreadyExists => "secrets \"" ++ secretName ++ "\" already exists"
  | .other msg => msg

/-- `EnsureSSHKeypairSecret` after the reply to `Get`: the key to store (on `NotFound`), or the
call's outcome. -/
def afterGet (newPrivateKey : Except String GeneratedKey) (reply : Except ApiError Secret) :
    PrivateKey ⊕ Outcome (Except String PrivateKey) :=
  match reply with
  | .error .notFound =>
    match newPrivateKey with
    | .error err => .inr (.ret (.error ("failed to generate ssh keypair: " ++ err)))
    | .ok pk => .inl pk.key
  | .error err => .inr (.ret (.error err.text))
  | .ok secret => .inr (keyFromSecret secret)

/-- `EnsureSSHKeypairSecret` after the reply to `Create`. -/
def afterCreate (pk : PrivateKey) : Except ApiError Secret → Outcome (Except String PrivateKey)
  | .error err => .ret (.error err.text)
  | .ok _ => .ret (.ok pk)

/-- The two requests of `EnsureSSHKeypairSecret`, to the secrets of `kube-system`. -/
structure SecretsClient where
  get : Except ApiError Secret
  create : Secret → Except ApiError Secret

/-- `EnsureSSHKeypairSecret(client)`. -/
def ensureSSHKeypairSecret (client : SecretsClient) (newPrivateKey : Except String GeneratedKey) :
    Outcome (Except String PrivateKey) :=
  match afterGet newPrivateKey client.get with
  | .inl pk => afterCreate pk (client.create (secretOf pk))
  | .inr o => o

/-! ## Fixed values -/

/-- A small RSA key: `N = 61 · 53`, `E = 17`, `D = 2753`. -/
def smallKey : PrivateKey := ⟨⟨3233, 17⟩, 2753, [61, 53]⟩

/-- `smallKey`, as `NewPrivateKey` returns a key. -/
def smallGenerated : GeneratedKey := ⟨smallKey, by decide, rfl, by decide, by decide⟩

/-- A secret that is there, with nothing under `id_rsa`. -/
def emptyKeySecret : Secret :=
  ⟨secretName, namespaceSystem, secretTypeOpaque, [(privateKeyDataIndex, [])]⟩

/-- A client whose `Get` finds `emptyKeySecret`. -/
def emptyKeyClient : SecretsClient := ⟨.ok emptyKeySecret, fun _ => .error .alreadyExists⟩

/-! ## What `keyFromSecret` reads -/

/-- The type of the stored block has no newline and no colon. -/
theorem pemType_plain : 10 ∉ pemType ∧ 58 ∉ pemType := by decide

/-- A generated key has no CRT values past its two primes. -/
theorem GeneratedKey.crtValues_nil (g : GeneratedKey) : g.key.precompute.crtValues = [] := by
  obtain ⟨⟨pub, d, primes⟩, -, htwo, -, -⟩ := g
  match primes, htwo with
  | [_, _], _ => rfl

/-- `x509.ParsePKCS1PrivateKey` reads a generated key back from its PKCS #1 encoding. -/
theorem GeneratedKey.parse_marshal (g : GeneratedKey) :
    parsePKCS1PrivateKey (marshalPKCS1PrivateKey g.key) = .ok g.key :=
  parsePKCS1PrivateKey_marshal g.key g.valid (by rw [g.two_primes]) g.d_pos
    (by simp [g.crtValues_nil]) g.short

/-- **The stored key reads back**: the secret a call writes for its generated key decodes to
that key. -/
theorem keyFromSecret_secretOf (g : GeneratedKey) :
    keyFromSecret (stored (secretOf g.key)) = .ret (.ok g.key) := by
  simp only [keyFromSecret, stored, secretOf, List.lookup, privateKeyDataIndex, beq_self_eq_true,
    Pem.decode_encode _ _ pemType_plain.1 pemType_plain.2, g.parse_marshal]

/-- `keyFromSecret` reads a generated key from the first PEM block under `id_rsa`, in a secret of
any name and namespace, whatever follows the block. -/
theorem keyFromSecret_of_block (g : GeneratedKey) {secret : Secret} {after : List UInt8}
    (hb : secret.data.lookup privateKeyDataIndex =
      some (Pem.encode pemType (marshalPKCS1PrivateKey g.key) ++ after)) :
    keyFromSecret secret = .ret (.ok g.key) := by
  simp only [keyFromSecret, hb, Pem.decode_encode_append _ _ _ pemType_plain.1 pemType_plain.2,
    g.parse_marshal]

/-- The secret written for `smallKey`, with a newline after the block. -/
def trailingNewlineSecret : Secret :=
  ⟨secretName, namespaceSystem, secretTypeOpaque,
    [(privateKeyDataIndex, Pem.encode pemType (marshalPKCS1PrivateKey smallKey) ++ [10])]⟩

theorem keyFromSecret_of_block_trailingNewline :
    trailingNewlineSecret.data.lookup privateKeyDataIndex =
        some (Pem.encode pemType (marshalPKCS1PrivateKey smallGenerated.key) ++ [10]) ∧
      keyFromSecret trailingNewlineSecret = .ret (.ok smallGenerated.key) :=
  ⟨rfl, keyFromSecret_of_block smallGenerated rfl⟩

/-- `keyFromSecret` returns a key only from a PEM block under `id_rsa` whose bytes parse as a
PKCS #1 key. -/
theorem keyFromSecret_eq_ok {secret : Secret} {pk : PrivateKey}
    (h : keyFromSecret secret = .ret (.ok pk)) :
    ∃ b block, secret.data.lookup privateKeyDataIndex = some b ∧ (Pem.decode b).1 = some block ∧
      parsePKCS1PrivateKey block.bytes = .ok pk := by
  unfold keyFromSecret at h
  split at h
  · cases h
  · next b hb =>
    split at h
    · cases h
    · next block hblock =>
      split at h
      · cases h
      · next pk' hpk =>
        cases h
        exact ⟨b, block, hb, hblock, hpk⟩

/-- Key data without a PEM block makes `keyFromSecret` dereference the `nil` block. -/
theorem keyFromSecret_of_no_block {secret : Secret} {b : List UInt8}
    (hb : secret.data.lookup privateKeyDataIndex = some b) (hblock : (Pem.decode b).1 = none) :
    keyFromSecret secret = .nilDeref := by
  simp only [keyFromSecret, hb, hblock]

/-- A key `keyFromSecret` returns passes `Validate`, with at least two primes and a positive
private exponent. -/
theorem keyFromSecret_valid {secret : Secret} {pk : PrivateKey}
    (h : keyFromSecret secret = .ret (.ok pk)) :
    pk.validate = .ok () ∧ 2 ≤ pk.primes.length ∧ 0 < pk.d :=
  let ⟨_, _, _, _, hpk⟩ := keyFromSecret_eq_ok h
  parsePKCS1PrivateKey_eq_ok hpk

/-- `EnsureSSHKeypairSecret` returns a key only when the secret was there and `keyFromSecret`
decodes the key from it, or when it was not, the generated key was written, and the written
secret decodes back to that key. -/
theorem ensureSSHKeypairSecret_eq_ok {client : SecretsClient} {g : Except String GeneratedKey}
    {pk : PrivateKey} (h : ensureSSHKeypairSecret client g = .ret (.ok pk)) :
    (∃ secret, client.get = .ok secret ∧ keyFromSecret secret = .ret (.ok pk)) ∨
      (client.get = .error .notFound ∧ ∃ gk, g = .ok gk ∧ gk.key = pk ∧
        (∃ secret, client.create (secretOf pk) = .ok secret) ∧
        keyFromSecret (stored (secretOf pk)) = .ret (.ok pk)) := by
  unfold ensureSSHKeypairSecret afterGet at h
  rcases hget : client.get with (_ | _ | err) | secret <;> rw [hget] at h
  · rcases g with err | gk
    · cases h
    · simp only at h
      rcases hc : client.create (secretOf gk.key) with err | secret <;>
        rw [hc] at h <;> simp only [afterCreate, Outcome.ret.injEq, reduceCtorEq] at h
      obtain rfl := Except.ok.inj h
      exact .inr ⟨rfl, gk, rfl, rfl, ⟨secret, hc⟩, keyFromSecret_secretOf gk⟩
  · cases h
  · cases h
  · exact .inl ⟨secret, rfl, h⟩

theorem ensureSSHKeypairSecret_eq_ok_smallKey :
    ensureSSHKeypairSecret ⟨.error .notFound, fun s => .ok (stored s)⟩ (.ok smallGenerated) =
        .ret (.ok smallKey) ∧
      ((∃ secret, (SecretsClient.get ⟨.error .notFound, fun s => .ok (stored s)⟩) = .ok secret ∧
          keyFromSecret secret = .ret (.ok smallKey)) ∨
        (SecretsClient.get ⟨.error .notFound, fun s => .ok (stored s)⟩ = .error .notFound ∧
          ∃ gk, Except.ok smallGenerated = (.ok gk : Except String GeneratedKey) ∧ gk.key = smallKey ∧
          (∃ secret, SecretsClient.create ⟨.error .notFound, fun s => .ok (stored s)⟩
            (secretOf smallKey) = .ok secret) ∧
          keyFromSecret (stored (secretOf smallKey)) = .ret (.ok smallKey))) :=
  ⟨rfl, ensureSSHKeypairSecret_eq_ok rfl⟩

/-- A secret that is there but holds no PEM block under `id_rsa` makes `keyFromSecret`, and so
`EnsureSSHKeypairSecret`, dereference the `nil` block instead of returning an error. -/
theorem keyFromSecret_empty :
    keyFromSecret emptyKeySecret = .nilDeref ∧
      ensureSSHKeypairSecret emptyKeyClient (.ok smallGenerated) = .nilDeref := by
  have h : keyFromSecret emptyKeySecret = .nilDeref :=
    keyFromSecret_of_no_block rfl
      (congrArg Prod.fst (Pem.decode_of_afterBegin_none (show Pem.afterBegin [] = none from rfl)))
  exact ⟨h, h⟩

/-! ## The secret store and concurrent calls -/

/-- Where one `EnsureSSHKeypairSecret` call stands. -/
inductive SecretPc
  | start
  | creating (pk : PrivateKey)
  | ended (o : Outcome (Except String PrivateKey))
deriving DecidableEq, Repr

/-- The secret `machine-controller-ssh-key` of `kube-system`, of which the API server keeps at
most one, and the calls. -/
structure SecretSys where
  store : Option Secret
  pcs : Nat → SecretPc

/-- What becomes of a request to the API server: the server handles it and its reply is
delivered; it fails with `err` before the server acts on it; or the server handles it and the
reply is lost, the client returning `err` (a timeout on a `Create` the server committed). -/
inductive Transport
  | deliver
  | fail (err : String)
  | lose (err : String)
deriving DecidableEq, Repr

/-- The store after the server has handled a `Create` of `secret`: a free name takes it, a taken
one keeps its secret. -/
def createStore (store : Option Secret) (secret : Secret) : Option Secret :=
  match store with
  | some old => some old
  | none => some (stored secret)

/-- The reply to `Get`: the stored secret or `NotFound`, unless the request fails or its reply is
lost. -/
def replyGet (store : Option Secret) : Transport → Except ApiError Secret
  | .deliver =>
    match store with
    | some secret => .ok secret
    | none => .error .notFound
  | .fail err | .lose err => .error (.other err)

/-- The reply to `Create` and the store after it: a taken name is `AlreadyExists`; a failed
request leaves the store alone, and one whose reply is lost has been handled all the same. -/
def replyCreate (store : Option Secret) (secret : Secret) :
    Transport → Except ApiError Secret × Option Secret
  | .deliver =>
    match store with
    | some _ => (.error .alreadyExists, store)
    | none => (.ok (stored secret), some (stored secret))
  | .fail err => (.error (.other err), store)
  | .lose err => (.error (.other err), createStore store secret)

/-- The call state after the reply to `Get`. -/
def pcOfGet (newPrivateKey : Except String GeneratedKey) (reply : Except ApiError Secret) :
    SecretPc :=
  match afterGet newPrivateKey reply with
  | .inl pk => .creating pk
  | .inr o => .ended o

section Concurrent

variable (gens : Nat → Except String GeneratedKey)

/-- One step of call `p`, whose key `NewPrivateKey` makes is `gens p`: its next request goes to
the API server as `t` says, and the call handles the reply. -/
def secretStep (s : SecretSys) (p : Nat) (t : Transport) : Option SecretSys :=
  match s.pcs p with
  | .start => some ⟨s.store, Function.update s.pcs p (pcOfGet (gens p) (replyGet s.store t))⟩
  | .creating pk =>
    let r := replyCreate s.store (secretOf pk) t
    some ⟨r.2, Function.update s.pcs p (.ended (afterCreate pk r.1))⟩
  | .ended _ => none

/-- A step of one of the first `n` calls, its request going as `allowed` lets it. -/
def SecretNext (allowed : Transport → Prop) (n : Nat) (s s' : SecretSys) : Prop :=
  ∃ p t, p < n ∧ allowed t ∧ secretStep gens s p t = some s'

/-- The states `n` calls reach from the store `init`. -/
def SecretReachable (allowed : Transport → Prop) (init : Option Secret) (n : Nat)
    (s : SecretSys) : Prop :=
  Relation.ReflTransGen (SecretNext gens allowed n) ⟨init, fun _ => .start⟩ s

/-- Run the steps of a trace, each a call and what becomes of its request. -/
def secretRun (s : SecretSys) : List (Nat × Transport) → Option SecretSys
  | [] => some s
  | (p, t) :: rest => (secretStep gens s p t).bind (secretRun · rest)

variable {gens}

/-! ### Runs -/

theorem secretRun_steps {allowed : Transport → Prop} {n : Nat} :
    ∀ {s s' : SecretSys} {trace : List (Nat × Transport)},
      (∀ x ∈ trace, x.1 < n ∧ allowed x.2) → secretRun gens s trace = some s' →
      Relation.ReflTransGen (SecretNext gens allowed n) s s'
  | s, s', [], _, h => by cases h; exact .refl
  | s, s', (p, t) :: rest, htr, h => by
    obtain ⟨s1, h1, h2⟩ := Option.bind_eq_some.mp h
    have hp := htr (p, t) (List.mem_cons_self _ _)
    exact .head ⟨p, t, hp.1, hp.2, h1⟩
      (secretRun_steps (fun x hx => htr x (List.mem_cons_of_mem _ hx)) h2)

/-- A trace that runs from the initial state reaches a state, of which `f` reads `v`. -/
theorem secretRun_reaches {allowed : Transport → Prop} {init : Option Secret} {n : Nat}
    {α : Type} {f : SecretSys → α} {v : α} {trace : List (Nat × Transport)}
    (htr : ∀ x ∈ trace, x.1 < n ∧ allowed x.2)
    (h : (secretRun gens ⟨init, fun _ => .start⟩ trace).map f = some v) :
    ∃ s, SecretReachable gens allowed init n s ∧ f s = v :=
  let ⟨s, hr, hf⟩ := Option.map_eq_some'.mp h
  ⟨s, secretRun_steps htr hr, hf⟩

/-- Two traces run one after the other from the initial state: `f` reads `a` of the state the
first reaches, and `g` reads `b` of the state the second reaches from there. -/
theorem secretRun_reaches_then {allowed : Transport → Prop} {init : Option Secret} {n : Nat}
    {α β : Type} {f : SecretSys → α} {g : SecretSys → β} {a : α} {b : β}
    {trace trace' : List (Nat × Transport)} (htr : ∀ x ∈ trace ++ trace', x.1 < n ∧ allowed x.2)
    (h : (secretRun gens ⟨init, fun _ => .start⟩ trace).bind
      (fun s => (secretRun gens s trace').map fun s' => (f s, g s')) = some (a, b)) :
    ∃ s s', SecretReachable gens allowed init n s ∧
      Relation.ReflTransGen (SecretNext gens allowed n) s s' ∧ f s = a ∧ g s' = b := by
  obtain ⟨s, h1, h2⟩ := Option.bind_eq_some.mp h
  obtain ⟨s', h3, h4⟩ := Option.map_eq_some'.mp h2
  obtain ⟨rfl, rfl⟩ := Prod.mk.inj h4
  exact ⟨s, s', secretRun_steps (fun x hx => htr x (List.mem_append_left _ hx)) h1,
    secretRun_steps (fun x hx => htr x (List.mem_append_right _ hx)) h3, rfl, rfl⟩

/-! ### What a reply can do -/

/-- After `Get` a call writes its own generated key, or has ended with an error, or with what
`keyFromSecret` makes of the stored secret. -/
theorem pcOfGet_cases (newPrivateKey : Except String GeneratedKey) (store : Option Secret)
    (t : Transport) :
    (∃ g, newPrivateKey = .ok g ∧ pcOfGet newPrivateKey (replyGet store t) = .creating g.key) ∨
      (∃ e, pcOfGet newPrivateKey (replyGet store t) = .ended (.ret (.error e))) ∨
      ∃ secret, store = some secret ∧
        pcOfGet newPrivateKey (replyGet store t) = .ended (keyFromSecret secret) := by
  rcases t with _ | err | err
  · rcases store with _ | secret
    · rcases newPrivateKey with err | g
      · exact .inr (.inl ⟨_, rfl⟩)
      · exact .inl ⟨g, rfl, rfl⟩
    · exact .inr (.inr ⟨secret, rfl, rfl⟩)
  · exact .inr (.inl ⟨_, rfl⟩)
  · exact .inr (.inl ⟨_, rfl⟩)

/-- A `Create` that wrote the secret found the name free, and its call returns its key or, when
the reply was lost, the error of the lost reply; any other leaves the store as it was, and its
call returns an error. -/
theorem afterCreate_replyCreate (store : Option Secret) (pk : PrivateKey) (t : Transport) :
    (store = none ∧ (replyCreate store (secretOf pk) t).2 = some (stored (secretOf pk)) ∧
        (afterCreate pk (replyCreate store (secretOf pk) t).1 = .ret (.ok pk) ∨
          ∃ err, t = .lose err ∧
            afterCreate pk (replyCreate store (secretOf pk) t).1 = .ret (.error err))) ∨
      ((replyCreate store (secretOf pk) t).2 = store ∧
        ∃ e, afterCreate pk (replyCreate store (secretOf pk) t).1 = .ret (.error e)) := by
  rcases t with _ | err | err <;> rcases store with _ | secret
  · exact .inl ⟨rfl, rfl, .inl rfl⟩
  · exact .inr ⟨rfl, _, rfl⟩
  · exact .inr ⟨rfl, _, rfl⟩
  · exact .inr ⟨rfl, _, rfl⟩
  · exact .inl ⟨rfl, rfl, .inr ⟨err, rfl, rfl⟩⟩
  · exact .inr ⟨rfl, _, rfl⟩

/-- What a step of call `p` can do: read, and take the state `pcOfGet` gives the reply; or write
its key, and take the store and the result `replyCreate` gives. -/
theorem secretStep_cases {s s' : SecretSys} {p : Nat} {t : Transport}
    (h : secretStep gens s p t = some s') :
    (s.pcs p = .start ∧
        s' = ⟨s.store, Function.update s.pcs p (pcOfGet (gens p) (replyGet s.store t))⟩) ∨
      ∃ pk, s.pcs p = .creating pk ∧ s' = ⟨(replyCreate s.store (secretOf pk) t).2,
        Function.update s.pcs p (.ended (afterCreate pk (replyCreate s.store (secretOf pk) t).1))⟩ := by
  unfold secretStep at h
  split at h
  · next hp => cases h; exact .inl ⟨hp, rfl⟩
  · next pk hp => cases h; exact .inr ⟨pk, hp, rfl⟩
  · cases h

/-- A step never changes a secret that is stored. -/
theorem secretStep_store {s s' : SecretSys} {p : Nat} {t : Transport}
    (h : secretStep gens s p t = some s') {secret : Secret} (hs : s.store = some secret) :
    s'.store = some secret := by
  rcases secretStep_cases h with ⟨-, rfl⟩ | ⟨pk, -, rfl⟩
  · exact hs
  · rcases afterCreate_replyCreate s.store pk t with ⟨hnone, -⟩ | ⟨hkeep, -⟩
    · rw [hs] at hnone; cases hnone
    · exact hkeep.trans hs

/-- A step changes only the stepping call. -/
theorem secretStep_frame {s s' : SecretSys} {p q : Nat} {t : Transport}
    (h : secretStep gens s p t = some s') (hqp : q ≠ p) : s'.pcs q = s.pcs q := by
  rcases secretStep_cases h with ⟨-, rfl⟩ | ⟨pk, -, rfl⟩ <;> exact Function.update_noteq hqp _ _

/-- A call about to write whose `Create` the server answers while the name is taken ends with the
`AlreadyExists` error, and the store stays as it was. -/
theorem secretStep_taken {s s' : SecretSys} {p : Nat} {pk : PrivateKey}
    (hp : s.pcs p = .creating pk) (htaken : s.store ≠ none)
    (h : secretStep gens s p .deliver = some s') :
    s'.pcs p = .ended (.ret (.error ApiError.alreadyExists.text)) ∧ s'.store = s.store := by
  obtain ⟨secret, hs⟩ := Option.ne_none_iff_exists'.mp htaken
  simp only [secretStep, hp, replyCreate, hs, Option.some.injEq] at h
  subst h
  exact ⟨Function.update_same _ _ _, hs.symm⟩

theorem secretSteps_store {allowed : Transport → Prop} {n : Nat} {s s' : SecretSys}
    (h : Relation.ReflTransGen (SecretNext gens allowed n) s s') {secret : Secret}
    (hs : s.store = some secret) : s'.store = some secret := by
  induction h with
  | refl => exact hs
  | tail _ hnext ih =>
    obtain ⟨p, t, -, -, hstep⟩ := hnext
    exact secretStep_store hstep ih

/-! ### Invariants -/

variable (gens) in
/-- What every reachable state satisfies: a call about to write stores its own generated key,
and a call that returned a key returned what `keyFromSecret` decodes from the stored secret. -/
structure SecretInv (s : SecretSys) : Prop where
  creating : ∀ p pk, s.pcs p = .creating pk → ∃ g, gens p = .ok g ∧ g.key = pk
  returned : ∀ p pk, s.pcs p = .ended (.ret (.ok pk)) →
    ∃ secret, s.store = some secret ∧ keyFromSecret secret = .ret (.ok pk)

theorem secretInv_init (init : Option Secret) : SecretInv gens ⟨init, fun _ => .start⟩ :=
  ⟨fun _ _ h => (by cases h), fun _ _ h => (by cases h)⟩

theorem secretInv_step {s s' : SecretSys} {p : Nat} {t : Transport}
    (hi : SecretInv gens s) (h : secretStep gens s p t = some s') : SecretInv gens s' := by
  rcases secretStep_cases h with ⟨-, rfl⟩ | ⟨pk, hp, rfl⟩
  · -- a read: the call goes on to write its own key, or ends
    refine ⟨fun q pk hq => ?_, fun q pk hq => ?_⟩
    · simp only [Function.update_apply] at hq
      split_ifs at hq with hqp
      · rcases pcOfGet_cases (gens p) s.store t with
          ⟨g, hg, h1⟩ | ⟨e, h1⟩ | ⟨sec, -, h1⟩ <;> rw [h1] at hq <;> cases hq
        exact ⟨g, hqp ▸ hg, rfl⟩
      · exact hi.creating q pk hq
    · simp only [Function.update_apply] at hq
      split_ifs at hq
      · rcases pcOfGet_cases (gens p) s.store t with
          ⟨g, -, h1⟩ | ⟨e, h1⟩ | ⟨sec, hsec, h1⟩ <;> rw [h1] at hq
        · cases hq
        · cases hq
        · exact ⟨sec, hsec, SecretPc.ended.inj hq⟩
      · exact hi.returned q pk hq
  · -- a write of the call's own key: stored, or refused and the store kept
    obtain ⟨g, hg, rfl⟩ := hi.creating p pk hp
    refine ⟨fun q pk' hq => ?_, fun q pk' hq => ?_⟩
    · simp only [Function.update_apply] at hq
      split_ifs at hq
      exact hi.creating q pk' hq
    · simp only [Function.update_apply] at hq
      split_ifs at hq
      · rcases afterCreate_replyCreate s.store g.key t with
          ⟨-, hstore, hret | ⟨err, -, herr⟩⟩ | ⟨-, e, herr⟩
        · rw [hret] at hq
          cases hq
          exact ⟨_, hstore, keyFromSecret_secretOf g⟩
        · rw [herr] at hq; cases hq
        · rw [herr] at hq; cases hq
      · obtain ⟨sec, hsec, hkey⟩ := hi.returned q pk' hq
        exact ⟨sec, secretStep_store h hsec, hkey⟩

theorem reachable_secretInv {allowed : Transport → Prop} {init : Option Secret} {n : Nat}
    {s : SecretSys} (h : SecretReachable gens allowed init n s) : SecretInv gens s := by
  induction h with
  | refl => exact secretInv_init init
  | tail _ hnext ih =>
    obtain ⟨p, t, -, -, hs⟩ := hnext
    exact secretInv_step ih hs

/-- **`EnsureSSHKeypairSecret` side by side**: in every interleaving of any number of calls,
from any store, with any request failing and any reply lost, the secret once written never
changes; a call that returned a key returned what `keyFromSecret` decodes from the stored
secret; and a call about to write whose `Create` the server answers while the name is taken
returns the `AlreadyExists` error, leaving the store as it was. -/
theorem reachable_secret_spec {allowed : Transport → Prop} {init : Option Secret} {n : Nat}
    {s s' : SecretSys} (h : SecretReachable gens allowed init n s)
    (hlater : Relation.ReflTransGen (SecretNext gens allowed n) s s') :
    (∀ secret, s.store = some secret → s'.store = some secret) ∧
      (∀ p pk, s.pcs p = .ended (.ret (.ok pk)) →
        ∃ secret, s.store = some secret ∧ keyFromSecret secret = .ret (.ok pk)) ∧
      ∀ p pk s'', s.pcs p = .creating pk → s.store ≠ none →
        secretStep gens s p .deliver = some s'' →
          s''.pcs p = .ended (.ret (.error ApiError.alreadyExists.text)) ∧ s''.store = s.store :=
  ⟨fun _ hs => secretSteps_store hlater hs, (reachable_secretInv h).returned,
    fun _ _ _ hp htaken hstep => secretStep_taken hp htaken hstep⟩

/-! ### Agreement -/

/-- **Agreement**: in every interleaving of any number of calls, from any store, with any
request failing and any reply lost, all calls that returned a key returned the same key. -/
theorem reachable_returned_agree {allowed : Transport → Prop} {init : Option Secret} {n : Nat}
    {s : SecretSys} (h : SecretReachable gens allowed init n s) {p q : Nat} {pk pk' : PrivateKey}
    (hp : s.pcs p = .ended (.ret (.ok pk))) (hq : s.pcs q = .ended (.ret (.ok pk'))) :
    pk = pk' := by
  obtain ⟨sec, hs, hk⟩ := (reachable_secretInv h).returned p pk hp
  obtain ⟨sec', hs', hk'⟩ := (reachable_secretInv h).returned q pk' hq
  obtain rfl := Option.some.inj (hs.symm.trans hs')
  exact Except.ok.inj (Outcome.ret.inj (hk.symm.trans hk'))

/-- **Every returned key is a valid RSA key**: in every interleaving of any number of calls, from
any store, with any request failing and any reply lost, a key a call returned passes
`rsa.Validate`, and has at least two primes and a positive private exponent. -/
theorem reachable_returned_valid {allowed : Transport → Prop} {init : Option Secret} {n : Nat}
    {s : SecretSys} (h : SecretReachable gens allowed init n s) {p : Nat} {pk : PrivateKey}
    (hp : s.pcs p = .ended (.ret (.ok pk))) :
    pk.validate = .ok () ∧ 2 ≤ pk.primes.length ∧ 0 < pk.d :=
  let ⟨_, _, hk⟩ := (reachable_secretInv h).returned p pk hp
  keyFromSecret_valid hk

variable (gens) in
/-- From an empty store: nothing is stored yet, or one of the first `n` calls wrote the secret of
its generated key, and that call returned its key or, its reply lost, the error of the lost
reply. -/
def Written (allowed : Transport → Prop) (n : Nat) (s : SecretSys) : Prop :=
  s.store = none ∨ ∃ q < n, ∃ g, gens q = .ok g ∧ s.store = some (stored (secretOf g.key)) ∧
    (s.pcs q = .ended (.ret (.ok g.key)) ∨
      ∃ err, allowed (.lose err) ∧ s.pcs q = .ended (.ret (.error err)))

theorem written_step {allowed : Transport → Prop} {n p : Nat} {s s' : SecretSys} {t : Transport}
    (hi : SecretInv gens s) (hw : Written gens allowed n s) (hp : p < n) (ht : allowed t)
    (h : secretStep gens s p t = some s') : Written gens allowed n s' := by
  rcases hw with hnone | ⟨q, hq, g, hg, hstore, hend⟩
  · rcases secretStep_cases h with ⟨-, rfl⟩ | ⟨pk, hc, rfl⟩
    · exact .inl hnone
    · obtain ⟨g, hg, rfl⟩ := hi.creating p pk hc
      rcases afterCreate_replyCreate s.store g.key t with
        ⟨-, hst, hret | ⟨err, rfl, herr⟩⟩ | ⟨hst, -⟩
      · exact .inr ⟨p, hp, g, hg, hst, .inl (by simp only [Function.update_same, hret])⟩
      · exact .inr ⟨p, hp, g, hg, hst, .inr ⟨err, ht, by simp only [Function.update_same, herr]⟩⟩
      · exact .inl (hst.trans hnone)
  · -- the writer has ended, so the step is another call's
    have hqp : q ≠ p := by
      rintro rfl
      rcases hend with hend | ⟨err, -, hend⟩ <;> simp only [secretStep, hend] at h <;> cases h
    exact .inr ⟨q, hq, g, hg, secretStep_store h hstore, by rw [secretStep_frame h hqp]; exact hend⟩

theorem reachable_written {allowed : Transport → Prop} {n : Nat} {s : SecretSys}
    (h : SecretReachable gens allowed none n s) : Written gens allowed n s := by
  induction h with
  | refl => exact .inl rfl
  | tail hprev hnext ih =>
    obtain ⟨p, t, hp, ht, hs⟩ := hnext
    exact written_step (reachable_secretInv hprev) ih hp ht hs

/-- **Every returned key was generated and written**: from an empty store, in every
interleaving, with any request failing and any reply lost, a call that returned a key returned
the key `NewPrivateKey` made for one of the calls, whose `Create` stored its secret; that call
returned the key itself or, its reply lost after the server stored the secret, the error of the
lost reply. -/
theorem reachable_returned_written {allowed : Transport → Prop} {n : Nat} {s : SecretSys}
    (h : SecretReachable gens allowed none n s) {p : Nat} {pk : PrivateKey}
    (hp : s.pcs p = .ended (.ret (.ok pk))) :
    ∃ q < n, ∃ g, gens q = .ok g ∧ g.key = pk ∧ s.store = some (stored (secretOf pk)) ∧
      (s.pcs q = .ended (.ret (.ok pk)) ∨
        ∃ err, allowed (.lose err) ∧ s.pcs q = .ended (.ret (.error err))) := by
  obtain ⟨sec, hs, hk⟩ := (reachable_secretInv h).returned p pk hp
  rcases reachable_written h with hnone | ⟨q, hq, g, hg, hstore, hend⟩
  · rw [hnone] at hs; cases hs
  · obtain rfl := Option.some.inj (hs.symm.trans hstore)
    obtain rfl : g.key = pk :=
      Except.ok.inj (Outcome.ret.inj ((keyFromSecret_secretOf g).symm.trans hk))
    exact ⟨q, hq, g, hg, rfl, hstore, hend⟩

variable (gens) in
/-- Without failed requests or lost replies and from an empty store: while nothing is stored,
every call is yet to read or about to write; once something is, it is the secret of the key of
one of the first `n` calls, which that call returned. -/
def OneSecret (n : Nat) (s : SecretSys) : Prop :=
  (s.store = none ∧ ∀ p, s.pcs p = .start ∨ ∃ pk, s.pcs p = .creating pk) ∨
    ∃ p < n, ∃ g, gens p = .ok g ∧ s.store = some (stored (secretOf g.key)) ∧
      s.pcs p = .ended (.ret (.ok g.key))

theorem oneSecret_step (hgens : ∀ p, ∃ g, gens p = .ok g) {n p : Nat} {s s' : SecretSys}
    (hi : SecretInv gens s) (ho : OneSecret gens n s) (hp : p < n)
    (h : secretStep gens s p .deliver = some s') : OneSecret gens n s' := by
  rcases ho with ⟨hnone, hpcs⟩ | ⟨q, hq, g, hg, hstore, hend⟩
  · rcases secretStep_cases h with ⟨-, rfl⟩ | ⟨pk, hc, rfl⟩
    · -- the read finds nothing, and the call goes on to write
      obtain ⟨g, hg⟩ := hgens p
      refine .inl ⟨hnone, fun q => ?_⟩
      simp only [Function.update_apply]
      split_ifs
      · simp only [hnone, replyGet, pcOfGet, afterGet, hg]
        exact .inr ⟨_, rfl⟩
      · exact hpcs q
    · -- the first write stores the call's own key
      obtain ⟨g, hg, rfl⟩ := hi.creating p pk hc
      refine .inr ⟨p, hp, g, hg, ?_, ?_⟩
      · simp only [hnone, replyCreate]
      · simp only [Function.update_same, hnone, replyCreate, afterCreate]
  · refine .inr ⟨q, hq, g, hg, secretStep_store h hstore, ?_⟩
    by_cases hqp : q = p
    · subst hqp
      simp only [secretStep, hend] at h
      cases h
    · rw [secretStep_frame h hqp, hend]

theorem reachable_oneSecret (hgens : ∀ p, ∃ g, gens p = .ok g) {n : Nat} {s : SecretSys}
    (h : SecretReachable gens (· = .deliver) none n s) : OneSecret gens n s := by
  induction h with
  | refl => exact .inl ⟨rfl, fun _ => .inl rfl⟩
  | tail hprev hnext ih =>
    obtain ⟨p, t, hp, rfl, hs⟩ := hnext
    exact oneSecret_step hgens (reachable_secretInv hprev) ih hp hs

/-- **One secret**: when every request is answered and no key generation fails, once all of
`n ≥ 1` calls from an empty store have ended, the store holds the secret of the key of one of
them, and that call returned its key. -/
theorem reachable_one_secret (hgens : ∀ p, ∃ g, gens p = .ok g) {n : Nat} {s : SecretSys}
    (h : SecretReachable gens (· = .deliver) none n s) (hn : 0 < n)
    (hend : ∀ p < n, ∃ o, s.pcs p = .ended o) :
    ∃ p < n, ∃ g, gens p = .ok g ∧ s.store = some (stored (secretOf g.key)) ∧
      s.pcs p = .ended (.ret (.ok g.key)) := by
  rcases reachable_oneSecret hgens h with ⟨-, hpcs⟩ | hone
  · obtain ⟨o, ho⟩ := hend 0 hn
    rcases hpcs 0 with h0 | ⟨pk, h0⟩ <;> rw [ho] at h0 <;> cases h0
  · exact hone

end Concurrent

/-! ### Two calls -/

/-- A second small RSA key on the same primes: `E = 7`, `D = 1783`. -/
def otherKey : PrivateKey := ⟨⟨3233, 7⟩, 1783, [61, 53]⟩

/-- `otherKey`, as `NewPrivateKey` returns a key. -/
def otherGenerated : GeneratedKey := ⟨otherKey, by decide, rfl, by decide, by decide⟩

/-- Call 0 generates `smallKey`, every other call `otherKey`. -/
def twoKeys : Nat → Except String GeneratedKey
  | 0 => .ok smallGenerated
  | _ => .ok otherGenerated

theorem twoKeys_ok (p : Nat) : ∃ g, twoKeys p = .ok g := by
  cases p <;> exact ⟨_, rfl⟩

/-- Both calls read `NotFound` before either writes, and every request is answered. -/
def lostRaceTrace : List (Nat × Transport) :=
  [(0, .deliver), (1, .deliver), (0, .deliver), (1, .deliver)]

/-- How the lost race ends: the first call returns its key, the second the `AlreadyExists`
error. -/
theorem lostRace_pcs :
    (secretRun twoKeys ⟨none, fun _ => .start⟩ lostRaceTrace).map (fun s => (s.pcs 0, s.pcs 1)) =
      some (.ended (.ret (.ok smallKey)), .ended (.ret (.error ApiError.alreadyExists.text))) := by
  decide

/-- **The lost race**: two calls on an empty store both read `NotFound` before either writes.
The first write stores the first call's key; the second is refused with `AlreadyExists`, and its
call returns that error instead of reading the winner's key. -/
theorem secrets_lostRace :
    ∃ s, SecretReachable twoKeys (· = .deliver) none 2 s ∧
      s.pcs 0 = .ended (.ret (.ok smallKey)) ∧
      s.pcs 1 = .ended (.ret (.error ApiError.alreadyExists.text)) :=
  let ⟨s, hs, h⟩ := secretRun_reaches (by decide) lostRace_pcs
  ⟨s, hs, (Prod.mk.inj h).1, (Prod.mk.inj h).2⟩

/-- The lost race before its last step: call 0 has returned its key and call 1 is about to
write; the last step refuses call 1's write. -/
theorem reachable_secret_spec_lostRace :
    ∃ s s', SecretReachable twoKeys (fun _ => True) none 2 s ∧
      Relation.ReflTransGen (SecretNext twoKeys (fun _ => True) 2) s s' ∧
      s.pcs 0 = .ended (.ret (.ok smallKey)) ∧ s.pcs 1 = .creating otherKey ∧
      s'.pcs 1 = .ended (.ret (.error ApiError.alreadyExists.text)) ∧
      ((∀ secret, s.store = some secret → s'.store = some secret) ∧
        (∀ p pk, s.pcs p = .ended (.ret (.ok pk)) →
          ∃ secret, s.store = some secret ∧ keyFromSecret secret = .ret (.ok pk)) ∧
        ∀ p pk s'', s.pcs p = .creating pk → s.store ≠ none →
          secretStep twoKeys s p .deliver = some s'' →
            s''.pcs p = .ended (.ret (.error ApiError.alreadyExists.text)) ∧
              s''.store = s.store) := by
  obtain ⟨s, s', hs, hss', h, h'⟩ : ∃ s s', SecretReachable twoKeys (fun _ => True) none 2 s ∧
      Relation.ReflTransGen (SecretNext twoKeys (fun _ => True) 2) s s' ∧
      (s.pcs 0, s.pcs 1) = (.ended (.ret (.ok smallKey)), .creating otherKey) ∧
      s'.pcs 1 = .ended (.ret (.error ApiError.alreadyExists.text)) :=
    secretRun_reaches_then (by decide)
      (show (secretRun twoKeys ⟨none, fun _ => .start⟩ (lostRaceTrace.take 3)).bind
        (fun s => (secretRun twoKeys s (lostRaceTrace.drop 3)).map fun s' =>
          ((s.pcs 0, s.pcs 1), s'.pcs 1)) =
        some ((.ended (.ret (.ok smallKey)), .creating otherKey),
          .ended (.ret (.error ApiError.alreadyExists.text))) by decide)
  exact ⟨s, s', hs, hss', (Prod.mk.inj h).1, (Prod.mk.inj h).2, h',
    reachable_secret_spec hs hss'⟩

theorem reachable_one_secret_lostRace :
    ∃ s, SecretReachable twoKeys (· = .deliver) none 2 s ∧
      (∀ p < 2, ∃ o, s.pcs p = .ended o) ∧
      ∃ p < 2, ∃ g, twoKeys p = .ok g ∧ s.store = some (stored (secretOf g.key)) ∧
        s.pcs p = .ended (.ret (.ok g.key)) :=
  let ⟨s, hs, h⟩ := secretRun_reaches (by decide) lostRace_pcs
  have hend : ∀ p < 2, ∃ o, s.pcs p = .ended o := fun p hp => by
    match p, hp with
    | 0, _ => exact ⟨_, (Prod.mk.inj h).1⟩
    | 1, _ => exact ⟨_, (Prod.mk.inj h).2⟩
  ⟨s, hs, hend, reachable_one_secret twoKeys_ok hs (by decide) hend⟩

/-- Two calls one after the other on an empty store: the first writes `smallKey` and returns it,
the second reads it back, although it would have written `otherKey`. -/
theorem twoCalls_ends :
    ∃ s, SecretReachable twoKeys (· = .deliver) none 2 s ∧
      s.pcs 0 = .ended (.ret (.ok smallKey)) ∧ s.pcs 1 = .ended (.ret (.ok smallKey)) := by
  obtain ⟨s, hs, h⟩ : ∃ s, SecretReachable twoKeys (· = .deliver) none 2 s ∧
      (s.pcs 0, s.pcs 1) =
        (.ended (.ret (.ok smallKey)), .ended (keyFromSecret (stored (secretOf smallGenerated.key)))) :=
    secretRun_reaches (by decide) (show (secretRun twoKeys ⟨none, fun _ => .start⟩
      [(0, .deliver), (0, .deliver), (1, .deliver)]).map (fun s => (s.pcs 0, s.pcs 1)) =
        some (.ended (.ret (.ok smallKey)),
          .ended (keyFromSecret (stored (secretOf smallGenerated.key)))) from rfl)
  rw [keyFromSecret_secretOf] at h
  exact ⟨s, hs, (Prod.mk.inj h).1, (Prod.mk.inj h).2⟩

theorem reachable_returned_agree_twoCalls :
    ∃ s, SecretReachable twoKeys (· = .deliver) none 2 s ∧
      s.pcs 0 = .ended (.ret (.ok smallKey)) ∧ s.pcs 1 = .ended (.ret (.ok smallKey)) ∧
      smallKey = smallKey :=
  let ⟨s, hs, h0, h1⟩ := twoCalls_ends
  ⟨s, hs, h0, h1, reachable_returned_agree hs h0 h1⟩

theorem reachable_returned_valid_twoCalls :
    ∃ s, SecretReachable twoKeys (· = .deliver) none 2 s ∧
      s.pcs 1 = .ended (.ret (.ok smallKey)) ∧
      (smallKey.validate = .ok () ∧ 2 ≤ smallKey.primes.length ∧ 0 < smallKey.d) :=
  let ⟨s, hs, _, h1⟩ := twoCalls_ends
  ⟨s, hs, h1, reachable_returned_valid hs h1⟩

/-- The error of a request whose reply the client gave up waiting for. -/
def deadlineExceeded : String := "context deadline exceeded"

/-- Call 0's `Create` is stored but its reply is lost, so call 0 returns the timeout; call 1 then
reads the secret and returns call 0's key. -/
theorem reachable_returned_written_lostReply :
    ∃ s, SecretReachable twoKeys (fun _ => True) none 2 s ∧
      s.pcs 0 = .ended (.ret (.error deadlineExceeded)) ∧
      s.pcs 1 = .ended (.ret (.ok smallKey)) ∧
      ∃ q < 2, ∃ g, twoKeys q = .ok g ∧ g.key = smallKey ∧
        s.store = some (stored (secretOf smallKey)) ∧
        (s.pcs q = .ended (.ret (.ok smallKey)) ∨
          ∃ err, (fun _ => True : Transport → Prop) (.lose err) ∧
            s.pcs q = .ended (.ret (.error err))) := by
  obtain ⟨s, hs, h⟩ : ∃ s, SecretReachable twoKeys (fun _ => True) none 2 s ∧
      (s.pcs 0, s.pcs 1) = (.ended (.ret (.error deadlineExceeded)),
        .ended (keyFromSecret (stored (secretOf smallGenerated.key)))) :=
    secretRun_reaches (by decide) (show (secretRun twoKeys ⟨none, fun _ => .start⟩
      [(0, .deliver), (0, .lose deadlineExceeded), (1, .deliver)]).map (fun s => (s.pcs 0, s.pcs 1)) =
        some (.ended (.ret (.error deadlineExceeded)),
          .ended (keyFromSecret (stored (secretOf smallGenerated.key)))) from rfl)
  rw [keyFromSecret_secretOf] at h
  exact ⟨s, hs, (Prod.mk.inj h).1, (Prod.mk.inj h).2,
    reachable_returned_written hs (Prod.mk.inj h).2⟩

end MachineController.Ssh
