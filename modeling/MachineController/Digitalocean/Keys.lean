import MachineController.Digitalocean.Types
import MachineController.Crypto.Rsa

/-!
# MachineController.Digitalocean.Keys — `ensureSSHKeysExist`, alone and side by side

`ensureSSHKeysExist` looks the provider's public key up in the account's key registry by its
legacy MD5 fingerprint and, on a 404, registers it under the name `machine-controller`; it
returns the fingerprint of the key the registry answered with.  After `Create` it reads
`dokey.Fingerprint` without looking at the error, so a failed `Create` dereferences a nil key.

The function is cut at its two requests: `afterGet` is what it does with the reply to
`GetByFingerprint`, `afterCreate` what it does with the reply to `Create`, and
`ensureSSHKeysExist` composes them.  `KeySys` runs any number of calls with the same key against
one `Registry`: a step sends one call's next request, which the registry answers or the network
fails, and hands the reply to the call.

* `reachable_returned`: over every interleaving, a call that returned `(fp, nil)` has
  `fp = FingerprintLegacyMD5(key)`, and the registry holds a key under `fp` from then on;
* `reachable_registry_ownKey`: the registry only ever gains the provider's own key, once, and
  only if it lacked its fingerprint;
* `reachable_lookup_after_return`: once a call has returned `(fp, nil)`, a call whose lookup gets
  through returns `fp` and registers nothing;
* `reachable_one_key`: when no request fails on the network, once every call has ended the
  registry holds exactly one key under that fingerprint;
* `keys_lostRace`: two calls that both see the 404 before either registers the key: the second
  `Create` is rejected and its call dereferences the nil key.
-/

namespace MachineController.Digitalocean

open MachineController.Go MachineController.Crypto

/-- The `golang.org/x/crypto/ssh` functions the provider applies to its key, and how the
registry fingerprints a submitted authorized key: as `FingerprintLegacyMD5` fingerprints the
key it encodes. -/
structure Ssh where
  fingerprintLegacyMD5 : PublicKey → String
  marshalAuthorizedKey : PublicKey → String
  fingerprintOfAuthorizedKey : String → String
  fingerprintOf_marshal :
    ∀ k, fingerprintOfAuthorizedKey (marshalAuthorizedKey k) = fingerprintLegacyMD5 k

/-- `ssh.NewPublicKey` of an `*rsa.PublicKey`: it wraps the key and never fails. -/
def newPublicKey (k : PublicKey) : Except String PublicKey := .ok k

/-- The name the provider registers its key under. -/
def keyName : String := "machine-controller"

/-- `dokey.Fingerprint`: reading it dereferences `dokey`. -/
def keyFingerprint : Option Key → Outcome (Except String String)
  | some k => .ret (.ok k.fingerprint)
  | none => .nilDeref

section Sequential

variable (ssh : Ssh)

/-- `ensureSSHKeysExist` after the reply to `GetByFingerprint`: the request registering the key
(on a 404), or the call's outcome. -/
def afterGet (pk : PublicKey) (reply : KeyReply) :
    KeyCreateRequest ⊕ Outcome (Except String String) :=
  match reply.err with
  | some err =>
    if reply.statusCode = some 404 then .inl ⟨keyName, ssh.marshalAuthorizedKey pk⟩
    else .inr (.ret (.error ("failed to get key from digitalocean: " ++ err)))
  | none => .inr (keyFingerprint reply.key)

/-- `ensureSSHKeysExist` after the reply to `Create`, whose error it drops. -/
def afterCreate (reply : KeyReply) : Outcome (Except String String) := keyFingerprint reply.key

/-- `ensureSSHKeysExist(service, ctx, rsa)`. -/
def ensureSSHKeysExist (client : Client) (rsa : PublicKey) :
    ClientM (Outcome (Except String String)) := do
  match newPublicKey rsa with
  | .error e => return .ret (.error ("failed to parse publickey: " ++ e))
  | .ok pk =>
    let fingerprint := ssh.fingerprintLegacyMD5 pk
    let reply ← call (.keysGetByFingerprint fingerprint) (client.keysGetByFingerprint fingerprint)
    match afterGet ssh pk reply with
    | .inl req => return afterCreate (← call (.keysCreate req) (client.keysCreate req))
    | .inr o => return o

/-- `ensureSSHKeysExist` looks the key up and may register it, and sends nothing else. -/
theorem ensureSSHKeysExist_log (client : Client) (rsa : PublicKey) (log : List Request) :
    ∃ ks, ((ensureSSHKeysExist ssh client rsa).run log).2 = log ++ ks ∧
      ks <+: [.keysGetByFingerprint (ssh.fingerprintLegacyMD5 rsa),
        .keysCreate ⟨keyName, ssh.marshalAuthorizedKey rsa⟩] := by
  simp only [ensureSSHKeysExist, newPublicKey, bind, StateT.bind, StateT.run, call, afterGet]
  split
  · split
    · exact ⟨_, by simp [StateT.bind, call, pure, StateT.pure], List.prefix_refl _⟩
    · exact ⟨[_], by simp [pure, StateT.pure], List.prefix_append [_] [_]⟩
  · exact ⟨[_], by simp [pure, StateT.pure], List.prefix_append [_] [_]⟩

end Sequential

/-! ## The registry and concurrent calls -/

/-- An account's key registry: keys under distinct fingerprints. -/
structure Registry where
  keys : List Key
  nodup : (keys.map (·.fingerprint)).Nodup

/-- A key is registered under `fp`. -/
def Registry.Holds (r : Registry) (fp : String) : Prop := ∃ k ∈ r.keys, k.fingerprint = fp

instance (r : Registry) (fp : String) : Decidable (r.Holds fp) :=
  inferInstanceAs (Decidable (∃ k ∈ r.keys, k.fingerprint = fp))

/-- `GET /v2/account/keys/{fingerprint}`. -/
def Registry.getByFingerprint (r : Registry) (fp : String) : KeyReply :=
  match r.keys.find? (·.fingerprint = fp) with
  | some k => ⟨some k, some 200, none⟩
  | none => ⟨none, some 404, some "not found"⟩

theorem nodup_append_key {r : Registry} {k : Key} (h : ¬ r.Holds k.fingerprint) :
    ((r.keys ++ [k]).map (·.fingerprint)).Nodup := by
  rw [List.map_append, List.nodup_append]
  refine ⟨r.nodup, List.nodup_singleton _, ?_⟩
  simp only [List.map_cons, List.map_nil, List.disjoint_singleton, List.mem_map, not_exists,
    not_and]
  exact fun k' hk' hfp => h ⟨k', hk', hfp⟩

/-- What the network does with a request: deliver it, or fail it with no reply. -/
inductive Net
  | deliver
  | fail (err : String)
deriving DecidableEq, Repr

/-- The reply of a request the network failed: no response, only the error. -/
def failedReply (err : String) : KeyReply := ⟨none, none, some err⟩

/-- Where one `ensureSSHKeysExist` call stands. -/
inductive KeyPc
  | start
  | creating (req : KeyCreateRequest)
  | ended (o : Outcome (Except String String))
deriving DecidableEq, Repr

/-- The registry and the calls, all with the same key. -/
structure KeySys where
  registry : Registry
  pcs : Nat → KeyPc

/-! ### Fixed values -/

/-- Fixed values of the `ssh` functions. -/
def sshFixed : Ssh := ⟨fun _ => "fp", fun _ => "ssh-rsa AAAA", fun _ => "fp", fun _ => rfl⟩

/-- A registry without keys. -/
def emptyRegistry : Registry := ⟨[], List.nodup_nil⟩

/-- Any RSA public key. -/
def rsaKey : PublicKey := ⟨3233, 17⟩

section Concurrent

variable (ssh : Ssh) (rsa : PublicKey)

/-- `POST /v2/account/keys`: a key whose fingerprint is registered already is rejected. -/
def Registry.create (r : Registry) (req : KeyCreateRequest) : KeyReply × Registry :=
  let k : Key := ⟨ssh.fingerprintOfAuthorizedKey req.publicKey, req.publicKey, req.name⟩
  if h : r.Holds k.fingerprint then (⟨none, some 422, some "already in use"⟩, r)
  else (⟨some k, some 201, none⟩, ⟨r.keys ++ [k], nodup_append_key h⟩)

/-- The call state after the reply to `GetByFingerprint`. -/
def pcOfGet (pk : PublicKey) (reply : KeyReply) : KeyPc :=
  match afterGet ssh pk reply with
  | .inl req => .creating req
  | .inr o => .ended o

/-- The reply to `GetByFingerprint`: the registry's, or the network's failure. -/
def Registry.replyGet (r : Registry) (fp : String) : Net → KeyReply
  | .deliver => r.getByFingerprint fp
  | .fail e => failedReply e

/-- The reply to `Create` and the registry after it. -/
def Registry.replyCreate (r : Registry) (req : KeyCreateRequest) : Net → KeyReply × Registry
  | .deliver => r.create ssh req
  | .fail e => (failedReply e, r)

/-- One step of call `p`: its next request reaches the registry or fails on the network, and the
call handles the reply. -/
def keyStep (s : KeySys) (p : Nat) (net : Net) : Option KeySys :=
  match s.pcs p with
  | .start =>
    match newPublicKey rsa with
    | .error e => some ⟨s.registry,
        Function.update s.pcs p (.ended (.ret (.error ("failed to parse publickey: " ++ e))))⟩
    | .ok pk => some ⟨s.registry,
        Function.update s.pcs p (pcOfGet ssh pk (s.registry.replyGet (ssh.fingerprintLegacyMD5 pk) net))⟩
  | .creating req =>
    let r := s.registry.replyCreate ssh req net
    some ⟨r.2, Function.update s.pcs p (.ended (afterCreate r.1))⟩
  | .ended _ => none

/-- A step of one of the first `n` calls, the network acting as `allowed` lets it. -/
def KeyNext (allowed : Net → Prop) (n : Nat) (s s' : KeySys) : Prop :=
  ∃ p net, p < n ∧ allowed net ∧ keyStep ssh rsa s p net = some s'

/-- The states `n` calls reach from the registry `init`. -/
def KeyReachable (allowed : Net → Prop) (init : Registry) (n : Nat) (s : KeySys) : Prop :=
  Relation.ReflTransGen (KeyNext ssh rsa allowed n) ⟨init, fun _ => .start⟩ s

/-- Run the steps of a trace, each a call and what the network does with its request. -/
def keyRun (s : KeySys) : List (Nat × Net) → Option KeySys
  | [] => some s
  | (p, net) :: rest => (keyStep ssh rsa s p net).bind (keyRun · rest)

variable {ssh rsa}

/-! ### Runs -/

theorem keyRun_steps {allowed : Net → Prop} {n : Nat} :
    ∀ {s s' : KeySys} {trace : List (Nat × Net)}, (∀ x ∈ trace, x.1 < n ∧ allowed x.2) →
      keyRun ssh rsa s trace = some s' → Relation.ReflTransGen (KeyNext ssh rsa allowed n) s s'
  | s, s', [], _, h => by cases h; exact .refl
  | s, s', (p, net) :: rest, htr, h => by
    obtain ⟨s1, h1, h2⟩ := Option.bind_eq_some.mp h
    have hp := htr (p, net) (List.mem_cons_self _ _)
    exact .head ⟨p, net, hp.1, hp.2, h1⟩
      (keyRun_steps (fun x hx => htr x (List.mem_cons_of_mem _ hx)) h2)

/-- A trace that runs from the initial state reaches a state, of which `f` reads `v`. -/
theorem keyRun_reaches {allowed : Net → Prop} {init : Registry} {n : Nat} {α : Type}
    {f : KeySys → α} {v : α} {trace : List (Nat × Net)}
    (htr : ∀ x ∈ trace, x.1 < n ∧ allowed x.2)
    (h : (keyRun ssh rsa ⟨init, fun _ => .start⟩ trace).map f = some v) :
    ∃ s, KeyReachable ssh rsa allowed init n s ∧ f s = v :=
  let ⟨s, hr, hf⟩ := Option.map_eq_some'.mp h
  ⟨s, keyRun_steps htr hr, hf⟩

/-- Two traces run one after the other from the initial state: `f` reads `a` of the state the
first reaches, and `g` reads `b` of the state the second reaches from there. -/
theorem keyRun_reaches_then {allowed : Net → Prop} {init : Registry} {n : Nat} {α β : Type}
    {f : KeySys → α} {g : KeySys → β} {a : α} {b : β} {trace trace' : List (Nat × Net)}
    (htr : ∀ x ∈ trace ++ trace', x.1 < n ∧ allowed x.2)
    (h : (keyRun ssh rsa ⟨init, fun _ => .start⟩ trace).bind
      (fun s => (keyRun ssh rsa s trace').map fun s' => (f s, g s')) = some (a, b)) :
    ∃ s s', KeyReachable ssh rsa allowed init n s ∧
      Relation.ReflTransGen (KeyNext ssh rsa allowed n) s s' ∧ f s = a ∧ g s' = b := by
  obtain ⟨s, h1, h2⟩ := Option.bind_eq_some.mp h
  obtain ⟨s', h3, h4⟩ := Option.map_eq_some'.mp h2
  obtain ⟨rfl, rfl⟩ := Prod.mk.inj h4
  exact ⟨s, s', keyRun_steps (fun x hx => htr x (List.mem_append_left _ hx)) h1,
    keyRun_steps (fun x hx => htr x (List.mem_append_right _ hx)) h3, rfl, rfl⟩

/-! ### What a reply can do -/

theorem getByFingerprint_found {r : Registry} {fp : String} {k : Key}
    (h : (r.getByFingerprint fp).key = some k) : k.fingerprint = fp ∧ k ∈ r.keys := by
  unfold Registry.getByFingerprint at h
  split at h
  · rename_i k' hk'
    cases h
    exact ⟨by simpa using List.find?_some hk', List.mem_of_find?_eq_some hk'⟩
  · cases h

variable (ssh) in
/-- A delivered `GetByFingerprint`: the call registers its own key, or has returned the
fingerprint it asked for, which the registry holds. -/
theorem pcOfGet_deliver (r : Registry) (pk : PublicKey) :
    pcOfGet ssh pk (r.replyGet (ssh.fingerprintLegacyMD5 pk) .deliver) =
        .creating ⟨keyName, ssh.marshalAuthorizedKey pk⟩ ∨
      (pcOfGet ssh pk (r.replyGet (ssh.fingerprintLegacyMD5 pk) .deliver) =
        .ended (.ret (.ok (ssh.fingerprintLegacyMD5 pk))) ∧ r.Holds (ssh.fingerprintLegacyMD5 pk)) := by
  unfold pcOfGet afterGet
  simp only [Registry.replyGet]
  cases hk : (r.getByFingerprint (ssh.fingerprintLegacyMD5 pk)).key with
  | some k =>
    obtain ⟨hfp, hmem⟩ := getByFingerprint_found hk
    have herr : (r.getByFingerprint (ssh.fingerprintLegacyMD5 pk)).err = none := by
      revert hk; unfold Registry.getByFingerprint; split <;> simp
    refine .inr ⟨?_, k, hmem, hfp⟩
    simp [herr, hk, keyFingerprint, hfp]
  | none =>
    have : (r.getByFingerprint (ssh.fingerprintLegacyMD5 pk)).err = some "not found" ∧
        (r.getByFingerprint (ssh.fingerprintLegacyMD5 pk)).statusCode = some 404 := by
      revert hk; unfold Registry.getByFingerprint; split <;> simp
    simp [this]

variable (ssh) in
/-- A delivered `GetByFingerprint` of a registered key: the call returns the fingerprint. -/
theorem pcOfGet_deliver_holds {r : Registry} {pk : PublicKey}
    (h : r.Holds (ssh.fingerprintLegacyMD5 pk)) :
    pcOfGet ssh pk (r.replyGet (ssh.fingerprintLegacyMD5 pk) .deliver) =
      .ended (.ret (.ok (ssh.fingerprintLegacyMD5 pk))) := by
  obtain ⟨k, hk, hfp⟩ := h
  obtain ⟨k', hk'⟩ := Option.isSome_iff_exists.mp
    (List.find?_isSome.mpr ⟨k, hk, by simp [hfp]⟩ :
      (r.keys.find? (·.fingerprint = ssh.fingerprintLegacyMD5 pk)).isSome)
  have hfp' : k'.fingerprint = ssh.fingerprintLegacyMD5 pk := by simpa using List.find?_some hk'
  simp [pcOfGet, afterGet, Registry.replyGet, Registry.getByFingerprint, hk', keyFingerprint, hfp']

variable (ssh) in
/-- After `GetByFingerprint` a call registers its own key, has returned the fingerprint it asked
for (which the registry holds), or has returned an error. -/
theorem pcOfGet_cases (r : Registry) (pk : PublicKey) (net : Net) :
    pcOfGet ssh pk (r.replyGet (ssh.fingerprintLegacyMD5 pk) net) =
        .creating ⟨keyName, ssh.marshalAuthorizedKey pk⟩ ∨
      (pcOfGet ssh pk (r.replyGet (ssh.fingerprintLegacyMD5 pk) net) =
        .ended (.ret (.ok (ssh.fingerprintLegacyMD5 pk))) ∧ r.Holds (ssh.fingerprintLegacyMD5 pk)) ∨
      ∃ e, pcOfGet ssh pk (r.replyGet (ssh.fingerprintLegacyMD5 pk) net) = .ended (.ret (.error e)) := by
  cases net with
  | fail e => simp [pcOfGet, afterGet, Registry.replyGet, failedReply]
  | deliver => exact (pcOfGet_deliver ssh r pk).imp_right .inl

variable (ssh) in
/-- `Create` only adds to the registry; a call that read a key back has its fingerprint, which the
registry now holds. -/
theorem afterCreate_cases (r : Registry) (req : KeyCreateRequest) (net : Net) :
    r.keys <+: (r.replyCreate ssh req net).2.keys ∧
      (afterCreate (r.replyCreate ssh req net).1 = .nilDeref ∨
        (afterCreate (r.replyCreate ssh req net).1 =
            .ret (.ok (ssh.fingerprintOfAuthorizedKey req.publicKey)) ∧
          (r.replyCreate ssh req net).2.Holds (ssh.fingerprintOfAuthorizedKey req.publicKey))) := by
  cases net with
  | fail e => exact ⟨List.prefix_refl _, .inl rfl⟩
  | deliver =>
    simp only [Registry.replyCreate, Registry.create]
    split
    · exact ⟨List.prefix_refl _, .inl rfl⟩
    · exact ⟨List.prefix_append _ _, .inr ⟨rfl, ⟨_, req.publicKey, req.name⟩, by simp, rfl⟩⟩

variable (ssh) in
/-- With the network delivering, `Create` leaves the key's fingerprint registered. -/
theorem replyCreate_deliver_holds (r : Registry) (req : KeyCreateRequest) :
    (r.replyCreate ssh req .deliver).2.Holds (ssh.fingerprintOfAuthorizedKey req.publicKey) := by
  simp only [Registry.replyCreate, Registry.create]
  split
  · assumption
  · exact ⟨⟨_, req.publicKey, req.name⟩, by simp, rfl⟩

theorem Registry.holds_mono {r r' : Registry} (h : r.keys <+: r'.keys) {fp : String}
    (hfp : r.Holds fp) : r'.Holds fp :=
  let ⟨k, hk, hk'⟩ := hfp
  ⟨k, h.subset hk, hk'⟩

/-- What a step of call `p` can do: look its key up (`NewPublicKey` never fails), and take the
state `pcOfGet` gives the reply; or register its key, and take the registry and the result
`replyCreate` gives. -/
theorem keyStep_cases {s s' : KeySys} {p : Nat} {net : Net}
    (h : keyStep ssh rsa s p net = some s') :
    (s.pcs p = .start ∧ s' = ⟨s.registry, Function.update s.pcs p
        (pcOfGet ssh rsa (s.registry.replyGet (ssh.fingerprintLegacyMD5 rsa) net))⟩) ∨
      ∃ req, s.pcs p = .creating req ∧ s' = ⟨(s.registry.replyCreate ssh req net).2,
        Function.update s.pcs p (.ended (afterCreate (s.registry.replyCreate ssh req net).1))⟩ := by
  unfold keyStep at h
  split at h
  · next hp =>
    simp only [newPublicKey, Option.some.injEq] at h
    exact .inl ⟨hp, h.symm⟩
  · next req hp => cases h; exact .inr ⟨req, hp, rfl⟩
  · cases h

/-- A step only adds keys. -/
theorem keyStep_registry_grows {s s' : KeySys} {p : Nat} {net : Net}
    (h : keyStep ssh rsa s p net = some s') : s.registry.keys <+: s'.registry.keys := by
  rcases keyStep_cases h with ⟨-, rfl⟩ | ⟨req, -, rfl⟩
  · exact List.prefix_refl _
  · exact (afterCreate_cases ssh _ _ _).1

/-- A step changes only the stepping call. -/
theorem keyStep_frame {s s' : KeySys} {p q : Nat} {net : Net}
    (h : keyStep ssh rsa s p net = some s') (hqp : q ≠ p) : s'.pcs q = s.pcs q := by
  rcases keyStep_cases h with ⟨-, rfl⟩ | ⟨req, -, rfl⟩ <;> exact Function.update_noteq hqp _ _

/-! ### Invariants -/

variable (ssh rsa) in
/-- What every reachable state satisfies: a call about to register asks for its own key, and a
call that returned `(fp, nil)` returned its key's fingerprint, which the registry holds. -/
structure KeyInv (s : KeySys) : Prop where
  creating : ∀ p req, s.pcs p = .creating req → req = ⟨keyName, ssh.marshalAuthorizedKey rsa⟩
  returned : ∀ p fp, s.pcs p = .ended (.ret (.ok fp)) →
    fp = ssh.fingerprintLegacyMD5 rsa ∧ s.registry.Holds fp

theorem keyInv_init (init : Registry) : KeyInv ssh rsa ⟨init, fun _ => .start⟩ :=
  ⟨fun _ _ h => (by cases h), fun _ _ h => (by cases h)⟩

theorem keyInv_step {s s' : KeySys} {p : Nat} {net : Net} (hi : KeyInv ssh rsa s)
    (h : keyStep ssh rsa s p net = some s') : KeyInv ssh rsa s' := by
  have hmono := keyStep_registry_grows h
  rcases keyStep_cases h with ⟨-, rfl⟩ | ⟨req, hp, rfl⟩
  · -- a lookup: the call goes on to register its own key, or ends
    refine ⟨fun q req hq => ?_, fun q fp hq => ?_⟩
    · simp only [Function.update_apply] at hq
      split_ifs at hq
      · rcases pcOfGet_cases ssh s.registry rsa net with h1 | ⟨h1, -⟩ | ⟨e, h1⟩ <;>
          rw [h1] at hq <;> cases hq
        rfl
      · exact hi.creating q req hq
    · simp only [Function.update_apply] at hq
      split_ifs at hq
      · rcases pcOfGet_cases ssh s.registry rsa net with h1 | ⟨h1, h2⟩ | ⟨e, h1⟩ <;>
          rw [h1] at hq <;> cases hq
        exact ⟨rfl, h2⟩
      · exact hi.returned q fp hq
  · -- a registration of the call's own key, which only adds to the registry
    obtain rfl := hi.creating p req hp
    obtain ⟨hpre, hcases⟩ :=
      afterCreate_cases ssh s.registry ⟨keyName, ssh.marshalAuthorizedKey rsa⟩ net
    refine ⟨fun q req' hq => ?_, fun q fp hq => ?_⟩
    · simp only [Function.update_apply] at hq
      split_ifs at hq
      exact hi.creating q req' hq
    · simp only [Function.update_apply] at hq
      split_ifs at hq
      · rcases hcases with h1 | ⟨h1, h2⟩ <;> rw [h1] at hq <;> cases hq
        rw [ssh.fingerprintOf_marshal] at h2 ⊢
        exact ⟨rfl, h2⟩
      · obtain ⟨h1, h2⟩ := hi.returned q fp hq
        exact ⟨h1, Registry.holds_mono hpre h2⟩

theorem reachable_keyInv {allowed : Net → Prop} {init : Registry} {n : Nat} {s : KeySys}
    (h : KeyReachable ssh rsa allowed init n s) : KeyInv ssh rsa s := by
  induction h with
  | refl => exact keyInv_init init
  | tail _ hnext ih =>
    obtain ⟨p, net, -, -, hs⟩ := hnext
    exact keyInv_step ih hs

theorem keySteps_registry_grows {allowed : Net → Prop} {n : Nat} {s s' : KeySys}
    (h : Relation.ReflTransGen (KeyNext ssh rsa allowed n) s s') :
    s.registry.keys <+: s'.registry.keys := by
  induction h with
  | refl => exact List.prefix_refl _
  | tail _ hnext ih =>
    obtain ⟨p, net, -, -, hs⟩ := hnext
    exact ih.trans (keyStep_registry_grows hs)

/-- **A call that returned `(fp, nil)`**, in any interleaving of any number of calls from any
registry, returned `FingerprintLegacyMD5(key)`, and the registry holds a key under it in every
later state. -/
theorem reachable_returned {allowed : Net → Prop} {init : Registry} {n p : Nat} {fp : String}
    {s s' : KeySys} (h : KeyReachable ssh rsa allowed init n s)
    (hp : s.pcs p = .ended (.ret (.ok fp)))
    (hlater : Relation.ReflTransGen (KeyNext ssh rsa allowed n) s s') :
    fp = ssh.fingerprintLegacyMD5 rsa ∧ s'.registry.Holds fp := by
  obtain ⟨h1, h2⟩ := (reachable_keyInv h).returned p fp hp
  exact ⟨h1, Registry.holds_mono (keySteps_registry_grows hlater) h2⟩

variable (ssh rsa) in
/-- The provider's key as the registry keeps it after `Create`: under its fingerprint, with the
authorized-key text and the name `machine-controller`. -/
def providerKey : Key := ⟨ssh.fingerprintLegacyMD5 rsa, ssh.marshalAuthorizedKey rsa, keyName⟩

variable (ssh rsa) in
/-- The registry is the initial one, or the initial one, which lacked the provider's fingerprint,
with the provider's key after it. -/
def OwnKeyOnly (init : Registry) (s : KeySys) : Prop :=
  s.registry.keys = init.keys ∨
    (¬ init.Holds (ssh.fingerprintLegacyMD5 rsa) ∧
      s.registry.keys = init.keys ++ [providerKey ssh rsa])

theorem ownKeyOnly_step {init : Registry} {s s' : KeySys} {p : Nat} {net : Net}
    (hk : KeyInv ssh rsa s) (hi : OwnKeyOnly ssh rsa init s) (h : keyStep ssh rsa s p net = some s') :
    OwnKeyOnly ssh rsa init s' := by
  rcases keyStep_cases h with ⟨-, rfl⟩ | ⟨req, hp, rfl⟩
  · exact hi
  · obtain rfl := hk.creating p req hp
    cases net with
    | fail e => exact hi
    | deliver =>
      simp only [Registry.replyCreate, Registry.create, ssh.fingerprintOf_marshal]
      split
      · exact hi
      · next hnot =>
        rcases hi with h0 | ⟨-, h1⟩
        · refine .inr ⟨fun hinit => hnot ?_, by dsimp only; rw [h0]; rfl⟩
          obtain ⟨k, hk, hfp⟩ := hinit
          exact ⟨k, h0 ▸ hk, hfp⟩
        · exact absurd ⟨providerKey ssh rsa, by simp [h1], rfl⟩ hnot

/-- **The registry only ever gains the provider's own key, once**: in every interleaving of any
number of `ensureSSHKeysExist` calls, from any registry and with any request failing, the
registry is the initial one, or the initial one with the provider's key under its fingerprint
and the name `machine-controller` added after it, the latter only if the initial registry had no
key under that fingerprint.  No key is removed, changed or registered twice. -/
theorem reachable_registry_ownKey {allowed : Net → Prop} {init : Registry} {n : Nat}
    {s : KeySys} (h : KeyReachable ssh rsa allowed init n s) :
    s.registry.keys = init.keys ∨
      (¬ init.Holds (ssh.fingerprintLegacyMD5 rsa) ∧
        s.registry.keys = init.keys ++ [⟨ssh.fingerprintLegacyMD5 rsa, ssh.marshalAuthorizedKey rsa,
          keyName⟩]) := by
  suffices OwnKeyOnly ssh rsa init s from this
  induction h with
  | refl => exact .inl rfl
  | tail hr hnext ih =>
    obtain ⟨p, net, -, -, hs⟩ := hnext
    exact ownKeyOnly_step (reachable_keyInv hr) ih hs

/-- **Once a call has returned `(fp, nil)`**, in any interleaving of any number of calls from any
registry, a call whose lookup then gets through returns the same fingerprint and registers
nothing. -/
theorem reachable_lookup_after_return {allowed : Net → Prop} {init : Registry} {n p q : Nat}
    {fp : String} {s s' : KeySys} (h : KeyReachable ssh rsa allowed init n s)
    (hq : s.pcs q = .ended (.ret (.ok fp))) (hp : s.pcs p = .start)
    (hstep : keyStep ssh rsa s p .deliver = some s') :
    s'.registry = s.registry ∧ s'.pcs p = .ended (.ret (.ok fp)) := by
  obtain ⟨rfl, hhold⟩ := (reachable_keyInv h).returned q fp hq
  rcases keyStep_cases hstep with ⟨-, rfl⟩ | ⟨req, hc, -⟩
  · exact ⟨rfl, by simp only [Function.update_same, pcOfGet_deliver_holds ssh hhold]⟩
  · rw [hp] at hc; cases hc

variable (ssh rsa) in
/-- With the network delivering every request, a call that has ended leaves the key's
fingerprint registered. -/
def DeliverInv (s : KeySys) : Prop :=
  ∀ p o, s.pcs p = .ended o → s.registry.Holds (ssh.fingerprintLegacyMD5 rsa)

theorem deliverInv_step {s s' : KeySys} {p : Nat} (hk : KeyInv ssh rsa s)
    (hi : DeliverInv ssh rsa s) (h : keyStep ssh rsa s p .deliver = some s') :
    DeliverInv ssh rsa s' := by
  have hmono := keyStep_registry_grows h
  intro q o hq
  by_cases hqp : q = p
  · subst hqp
    rcases keyStep_cases h with ⟨-, rfl⟩ | ⟨req, hp, rfl⟩
    · simp only [Function.update_same] at hq
      rcases pcOfGet_deliver ssh s.registry rsa with h1 | ⟨-, h2⟩
      · rw [h1] at hq; cases hq
      · exact h2
    · obtain rfl := hk.creating q req hp
      have := replyCreate_deliver_holds ssh s.registry ⟨keyName, ssh.marshalAuthorizedKey rsa⟩
      rwa [ssh.fingerprintOf_marshal] at this
  · exact Registry.holds_mono hmono (hi q o (by rwa [keyStep_frame h hqp] at hq))

theorem reachable_deliverInv {init : Registry} {n : Nat} {s : KeySys}
    (h : KeyReachable ssh rsa (· = .deliver) init n s) : DeliverInv ssh rsa s := by
  induction h with
  | refl => intro p o hp; cases hp
  | tail hr hnext ih =>
    obtain ⟨p, net, -, rfl, hs⟩ := hnext
    exact deliverInv_step (reachable_keyInv hr) ih hs

/-- **No request failing on the network**: once every one of `n ≥ 1` calls has ended, the
registry holds exactly one key under `FingerprintLegacyMD5(key)`. -/
theorem reachable_one_key {init : Registry} {n : Nat} {s : KeySys}
    (h : KeyReachable ssh rsa (· = .deliver) init n s) (hn : 0 < n)
    (hend : ∀ p < n, ∃ o, s.pcs p = .ended o) :
    ∃! k, k ∈ s.registry.keys ∧ k.fingerprint = ssh.fingerprintLegacyMD5 rsa := by
  obtain ⟨o, ho⟩ := hend 0 hn
  obtain ⟨k, hk, hfp⟩ := reachable_deliverInv h 0 o ho
  exact ⟨k, ⟨hk, hfp⟩, fun k' ⟨hk', hfp'⟩ =>
    List.inj_on_of_nodup_map s.registry.nodup hk' hk (hfp'.trans hfp.symm)⟩

end Concurrent

/-! ### Two calls -/

/-- Two calls: the first registers the key and returns, and the second's lookup then gets
through. -/
theorem reachable_lookup_after_return_twoCalls :
    ∃ s s', KeyReachable sshFixed rsaKey (· = .deliver) emptyRegistry 2 s ∧
      s.pcs 0 = .ended (.ret (.ok "fp")) ∧ s.pcs 1 = .start ∧
      keyStep sshFixed rsaKey s 1 .deliver = some s' ∧
      (s'.registry = s.registry ∧ s'.pcs 1 = .ended (.ret (.ok "fp"))) := by
  obtain ⟨s, hs, h⟩ : ∃ s, KeyReachable sshFixed rsaKey (· = .deliver) emptyRegistry 2 s ∧
      (s.pcs 0, s.pcs 1, (keyStep sshFixed rsaKey s 1 .deliver).isSome) =
        (.ended (.ret (.ok "fp")), .start, true) := keyRun_reaches (by decide)
    (show (keyRun sshFixed rsaKey ⟨emptyRegistry, fun _ => .start⟩
      [(0, .deliver), (0, .deliver)]).map
        (fun s => (s.pcs 0, s.pcs 1, (keyStep sshFixed rsaKey s 1 .deliver).isSome)) =
      some (.ended (.ret (.ok "fp")), .start, true) by decide)
  simp only [Prod.mk.injEq] at h
  obtain ⟨h0, h1, hsome⟩ := h
  obtain ⟨s', hs'⟩ := Option.isSome_iff_exists.mp hsome
  exact ⟨s, s', hs, h0, h1, hs', reachable_lookup_after_return hs h0 h1 hs'⟩

/-- Both calls look the key up, then both register it; the network delivers everything. -/
def lostRaceTrace : List (Nat × Net) :=
  [(0, .deliver), (1, .deliver), (0, .deliver), (1, .deliver)]

/-- Where the lost race ends: the first call returned the fingerprint, the second dereferenced
the nil key, and the registry holds the provider's key alone. -/
theorem lostRace_reaches :
    ∃ s, KeyReachable sshFixed rsaKey (· = .deliver) emptyRegistry 2 s ∧
      s.pcs 0 = .ended (.ret (.ok "fp")) ∧ s.pcs 1 = .ended .nilDeref ∧
      s.registry.keys = [providerKey sshFixed rsaKey] := by
  obtain ⟨s, hs, h⟩ : ∃ s, KeyReachable sshFixed rsaKey (· = .deliver) emptyRegistry 2 s ∧
      (s.pcs 0, s.pcs 1, s.registry.keys) =
        (.ended (.ret (.ok "fp")), .ended .nilDeref, [providerKey sshFixed rsaKey]) :=
    keyRun_reaches (by decide)
      (show (keyRun sshFixed rsaKey ⟨emptyRegistry, fun _ => .start⟩ lostRaceTrace).map
          (fun s => (s.pcs 0, s.pcs 1, s.registry.keys)) =
        some (.ended (.ret (.ok "fp")), .ended .nilDeref, [providerKey sshFixed rsaKey]) by decide)
  simp only [Prod.mk.injEq] at h
  exact ⟨s, hs, h.1, h.2.1, h.2.2⟩

theorem keys_lostRace :
    ∃ s, KeyReachable sshFixed rsaKey (· = .deliver) emptyRegistry 2 s ∧
      s.pcs 0 = .ended (.ret (.ok "fp")) ∧ s.pcs 1 = .ended .nilDeref :=
  let ⟨s, hs, h0, h1, _⟩ := lostRace_reaches
  ⟨s, hs, h0, h1⟩

/-- The lost race before its last step, and after it: the fingerprint the first call returned
stays registered through the second call's failed `Create`. -/
theorem reachable_returned_lostRace :
    ∃ s s', KeyReachable sshFixed rsaKey (· = .deliver) emptyRegistry 2 s ∧
      Relation.ReflTransGen (KeyNext sshFixed rsaKey (· = .deliver) 2) s s' ∧
      s.pcs 0 = .ended (.ret (.ok "fp")) ∧ s'.pcs 1 = .ended .nilDeref ∧
      ("fp" = sshFixed.fingerprintLegacyMD5 rsaKey ∧ s'.registry.Holds "fp") := by
  obtain ⟨s, s', hs, hss', h0, h1⟩ : ∃ s s', KeyReachable sshFixed rsaKey (· = .deliver)
      emptyRegistry 2 s ∧ Relation.ReflTransGen (KeyNext sshFixed rsaKey (· = .deliver) 2) s s' ∧
      s.pcs 0 = .ended (.ret (.ok "fp")) ∧ s'.pcs 1 = .ended .nilDeref :=
    keyRun_reaches_then (by decide)
      (show (keyRun sshFixed rsaKey ⟨emptyRegistry, fun _ => .start⟩ (lostRaceTrace.take 3)).bind
          (fun s => (keyRun sshFixed rsaKey s (lostRaceTrace.drop 3)).map fun s' =>
            (s.pcs 0, s'.pcs 1)) =
        some (.ended (.ret (.ok "fp")), .ended .nilDeref) by decide)
  exact ⟨s, s', hs, hss', h0, h1, reachable_returned hs h0 hss'⟩

theorem reachable_registry_ownKey_lostRace :
    ∃ s, KeyReachable sshFixed rsaKey (· = .deliver) emptyRegistry 2 s ∧
      s.pcs 1 = .ended .nilDeref ∧
      (s.registry.keys = emptyRegistry.keys ∨
        (¬ emptyRegistry.Holds (sshFixed.fingerprintLegacyMD5 rsaKey) ∧
          s.registry.keys = emptyRegistry.keys ++ [⟨sshFixed.fingerprintLegacyMD5 rsaKey,
            sshFixed.marshalAuthorizedKey rsaKey, keyName⟩])) :=
  let ⟨s, hs, _, h1, _⟩ := lostRace_reaches
  ⟨s, hs, h1, reachable_registry_ownKey hs⟩

theorem reachable_one_key_lostRace :
    ∃ s, KeyReachable sshFixed rsaKey (· = .deliver) emptyRegistry 2 s ∧ 0 < 2 ∧
      (∀ p < 2, ∃ o, s.pcs p = .ended o) ∧
      ∃! k, k ∈ s.registry.keys ∧ k.fingerprint = sshFixed.fingerprintLegacyMD5 rsaKey :=
  let ⟨s, hs, h0, h1, _⟩ := lostRace_reaches
  have hend : ∀ p < 2, ∃ o, s.pcs p = .ended o := fun p hp => by
    match p, hp with
    | 0, _ => exact ⟨_, h0⟩
    | 1, _ => exact ⟨_, h1⟩
  ⟨s, hs, by decide, hend, reachable_one_key hs (by decide) hend⟩

end MachineController.Digitalocean
