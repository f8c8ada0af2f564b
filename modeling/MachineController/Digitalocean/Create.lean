import MachineController.Digitalocean.Get
import MachineController.Digitalocean.Keys
import MachineController.Wait.Poll

/-!
# MachineController.Digitalocean.Create — `Create` and its confirmation loop

`Create` registers the SSH key, sends `Droplets.Create` with the machine's UID appended to the
tags, then runs `wait.Poll(createCheckPeriod, createCheckTimeout, …)` on a condition that
describes the new droplet and looks for the UID among its tags.  It assigns the loop's error to
`err` and returns the handle with a nil error without reading it.

`describe i t` is what the `i`-th describe call, started at second `t`, returns and how long it
takes; the loop runs in `Wait.poll` with `createCondition`.

* `confirm_spec`: for every describe schedule and every duration of the describes, the loop
  describes one call at a time; every call but the last starts at a tick, a positive multiple
  of `createCheckPeriod` no later than `createCheckTimeout`, and no tick at which the loop is
  waiting is skipped; a failed describe ends the loop with the condition's error; the loop ends
  with nil iff a describe showed the UID, and with `ErrWaitTimeout` iff none showed it and none
  failed;
* `confirm_calls`: that, and `Create` returns the same whatever the loop saw
  (`create_describe_irrel`): once `Droplets.Create` has accepted the request it returns the
  handle with a nil error;
* `create_requests`: the requests `Create` sends, in order: the key's, at most one
  `Droplets.Create` tagged with the UID, and 1 to 31 describes of the droplet it returned;
* `create_then_get_found`: a droplet listed with the name and tags `Create` asked for is the one
  `Get` looks for;
* `confirm_lateCall`: a schedule on which the loop's last describe starts after the timeout and
  `Create` returns a nil error although the loop timed out, and one on which a failed describe
  ends the loop;
* `create_then_get_notFound`: a droplet whose tags show late: `Create` returns its handle with a
  nil error, and a `Get` after the loop has given up answers `InstanceNotFoundErr`.
-/

namespace MachineController.Digitalocean

open MachineController.Go MachineController.Crypto MachineController.Wait

/-- `createCheckPeriod`, in seconds. -/
def createCheckPeriod : Nat := 10

/-- `createCheckTimeout`, in seconds. -/
def createCheckTimeout : Nat := 5 * 60

/-- `createCheckFailedWaitPeriod`, in seconds. -/
def createCheckFailedWaitPeriod : Nat := 10

/-- A schedule of describe calls: the `i`-th call, started at second `t`, returns the droplet or
an error, and takes the second component's seconds. -/
abbrev Describe := Nat → Nat → Except String Droplet × Nat

/-- The error the condition returns when a describe fails. -/
def fetchStatusError (id : GoInt) : String :=
  "droplet (id=\x27" ++ toString id.val ++ "\x27) got created but we failed to fetch its status"

/-- The condition `Create` polls: describe the droplet; on an error sleep
`createCheckFailedWaitPeriod` and return an error; otherwise whether the tags hold the UID. -/
def createCondition (uid : String) (id : GoInt) (describe : Describe) (i t : Nat) :
    Except String Bool × Nat :=
  match describe i t with
  | (.error _, latency) => (.error (fetchStatusError id), latency + createCheckFailedWaitPeriod)
  | (.ok d, latency) => (.ok (d.tags.contains uid), latency)

/-- The confirmation loop of `Create`. -/
def confirm (uid : String) (id : GoInt) (describe : Describe) : PollResult × List CondCall :=
  poll createCheckPeriod createCheckTimeout (createCondition uid id describe)

/-- What the confirmation loop of `Create` guarantees for a describe schedule: the `j`-th call
runs the condition on the `j`-th describe at its start; one call runs at a time; every call but
the last starts at a tick, a positive multiple of `createCheckPeriod` no later than
`createCheckTimeout`, and the loop describes at every such tick at which it is waiting; a last
call that found no UID is the closing one, after the timer; every describe but the last returned
a droplet without the UID; a failed describe ends the loop with the condition's error after its
sleep; the loop ends with nil iff a describe showed the UID, and with `ErrWaitTimeout` iff every
describe returned a droplet without it. -/
structure ConfirmSpec (uid : String) (id : GoInt) (describe : Describe)
    (run : PollResult × List CondCall) : Prop where
  ne_nil : run.2 ≠ []
  answers : ∀ j (h : j < run.2.length),
    run.2[j] = callAt (createCondition uid id describe) j run.2[j].start
  sequential : run.2.Chain' fun c d => c.start + c.took ≤ d.start
  at_tick : ∀ c ∈ run.2.dropLast,
    createCheckPeriod ∣ c.start ∧ 0 < c.start ∧ c.start ≤ createCheckTimeout
  every_tick : ∀ t, createCheckPeriod ∣ t → 0 < t → t ≤ createCheckTimeout →
    (∀ c ∈ run.2, c.start < t → c.result = .ok false ∧ c.start + c.took ≤ t) →
    ∃ c ∈ run.2, c.start = t
  closing : ∀ c ∈ run.2.getLast?, c.result = .ok false → createCheckTimeout ≤ c.start
  goes_on : ∀ j (h : j < run.2.length), j + 1 < run.2.length →
    ∃ d, (describe j run.2[j].start).1 = .ok d ∧ uid ∉ d.tags
  error_ends : ∀ j (h : j < run.2.length) e, (describe j run.2[j].start).1 = .error e →
    j + 1 = run.2.length ∧ run.1 = .failed (fetchStatusError id) ∧
      run.2[j].took = (describe j run.2[j].start).2 + createCheckFailedWaitPeriod
  done_iff : run.1 = .done ↔
    ∃ j, ∃ h : j < run.2.length, ∃ d, (describe j run.2[j].start).1 = .ok d ∧ uid ∈ d.tags
  timeout_iff : run.1 = .waitTimeout ↔
    ∀ j (h : j < run.2.length), ∃ d, (describe j run.2[j].start).1 = .ok d ∧ uid ∉ d.tags

/-- The condition is true exactly on a described droplet whose tags hold the UID. -/
theorem createCondition_true (uid : String) (id : GoInt) (describe : Describe) (i t : Nat) :
    (createCondition uid id describe i t).1 = .ok true ↔
      ∃ d, (describe i t).1 = .ok d ∧ uid ∈ d.tags := by
  unfold createCondition
  split <;> simp_all

/-- The condition is false exactly on a described droplet whose tags lack the UID. -/
theorem createCondition_false (uid : String) (id : GoInt) (describe : Describe) (i t : Nat) :
    (createCondition uid id describe i t).1 = .ok false ↔
      ∃ d, (describe i t).1 = .ok d ∧ uid ∉ d.tags := by
  unfold createCondition
  split <;> simp_all

/-- A failed describe makes the condition sleep `createCheckFailedWaitPeriod` and fail. -/
theorem createCondition_error {uid : String} {id : GoInt} {describe : Describe} {i t : Nat}
    {e : String} (h : (describe i t).1 = .error e) :
    createCondition uid id describe i t =
      (.error (fetchStatusError id), (describe i t).2 + createCheckFailedWaitPeriod) := by
  unfold createCondition
  split <;> simp_all

/-- **The confirmation loop**, for every describe schedule. -/
theorem confirm_spec (uid : String) (id : GoInt) (describe : Describe) :
    ConfirmSpec uid id describe (confirm uid id describe) := by
  have hspec :=
    @poll_calls createCheckPeriod createCheckTimeout (createCondition uid id describe) (by decide)
  unfold confirm
  generalize poll createCheckPeriod createCheckTimeout (createCondition uid id describe) = run
    at hspec ⊢
  have hcall : ∀ j (h : j < run.2.length),
      run.2[j] = callAt (createCondition uid id describe) j run.2[j].start := fun j h => by
    simpa using hspec.answers j h
  have hresult : ∀ j (h : j < run.2.length),
      run.2[j].result = (createCondition uid id describe j run.2[j].start).1 := fun j h => by
    rw [hcall j h]; rfl
  -- a call that did not answer false is the last one
  have hlast : ∀ j (h : j < run.2.length), run.2[j].result ≠ .ok false → j + 1 = run.2.length :=
    fun j h hstop => by
      by_contra hj
      exact hstop (hspec.result_of_lt (by omega))
  have hpos : 0 < run.2.length := List.length_pos.mpr hspec.ne_nil
  refine ⟨hspec.ne_nil, hcall, hspec.sequential, fun c hc => ?_, fun t ht ht0 hle hwait =>
    hspec.every_tick t ht (Nat.le_of_dvd ht0 ht) hle (Nat.zero_le _) hwait, hspec.closing,
    fun j h hj => ?_, fun j h e he => ?_, ⟨fun hdone => ?_, fun ⟨j, h, hshow⟩ => ?_⟩,
    ⟨fun hto j h => ?_, fun hall => ?_⟩⟩
  · obtain ⟨-, hdvd, hge, hle⟩ := hspec.early c hc
    exact ⟨hdvd, lt_of_lt_of_le (by decide) hge, hle⟩
  · rw [← createCondition_false, ← hresult j h]
    exact hspec.result_of_lt hj
  · -- a failed describe: the condition fails after its sleep, and no call follows
    have hcond := @createCondition_error uid id describe j run.2[j].start e he
    have hr : run.2[j].result = .error (fetchStatusError id) := by rw [hresult j h, hcond]
    have hj := hlast j h (by simp [hr])
    refine ⟨hj, by rw [hspec.result_last h hj, hr]; rfl, ?_⟩
    rw [hcall j h]
    exact congrArg Prod.snd hcond
  · rw [hspec.result_last (Nat.sub_lt hpos one_pos) (by omega), ended_getD_done, hresult,
      createCondition_true] at hdone
    exact ⟨_, _, hdone⟩
  · have ht : run.2[j].result = .ok true := by rwa [hresult j h, createCondition_true]
    rw [hspec.result_last h (hlast j h (by simp [ht])),
      ended_getD_done]
    exact ht
  · rw [← createCondition_false, ← hresult j h]
    by_cases hj : j + 1 < run.2.length
    · exact hspec.result_of_lt hj
    · rwa [hspec.result_last h (by omega), ended_getD_waitTimeout] at hto
  · rw [hspec.result_last (Nat.sub_lt hpos one_pos) (by omega), ended_getD_waitTimeout, hresult,
      createCondition_false]
    exact hall _ _

/-- The confirmation loop describes the droplet at least once and at most 31 times: once per
tick of `createCheckPeriod` up to `createCheckTimeout`, and once after the timer. -/
theorem confirm_length (uid : String) (id : GoInt) (describe : Describe) :
    1 ≤ (confirm uid id describe).2.length ∧ (confirm uid id describe).2.length ≤ 31 :=
  ⟨List.length_pos.mpr (@poll_calls createCheckPeriod createCheckTimeout _ (by decide)).ne_nil,
    (waitFor_length_le _ _ _ _).trans le_rfl⟩

section Ops

variable (deps : Deps) (backend : String → Client) (ssh : Ssh)

/-- `(*digitalocean).Create`; the describe calls of the loop are logged after `Droplets.Create`. -/
def create (machine : Machine) (userdata : String) (publicKey : PublicKey) (describe : Describe) :
    ClientM (Outcome (Except Error DoInstance)) := do
  match getConfig deps machine.spec.providerConfig with
  | .error e => return .ret (.error (.msg ("failed to parse config: " ++ e)))
  | .ok (c, pc) =>
    let client := backend c.token
    match ← ensureSSHKeysExist ssh client publicKey with
    | .nilDeref => return .nilDeref
    | .ret (.error e) => return .ret (.error (.msg ("failed to ensure ssh keys exist: " ++ e)))
    | .ret (.ok fingerprint) =>
      match getSlugForOS deps pc.operatingSystem with
      | .error e => return .ret (.error (.msg ("invalid operating system specified " ++
          goQuote pc.operatingSystem ++ ": " ++ e)))
      | .ok slug =>
        let createRequest : DropletCreateRequest :=
          ⟨machine.spec.name, c.region, c.size, slug, [fingerprint], c.backups, c.ipv6,
            c.privateNetworking, userdata, c.tags ++ [machine.uid]⟩
        match ← call (.dropletsCreate createRequest) (client.dropletsCreate createRequest) with
        | .error e => return .ret (.error (.msg e))
        | .ok droplet =>
          -- `err = wait.Poll(...)`: the loop's result is assigned and never read
          let confirmation := confirm machine.uid droplet.id describe
          modify (· ++ confirmation.2.map fun _ => .dropletsGet droplet.id)
          return .ret (.ok ⟨droplet⟩)

/-- **`Create` does not read its confirmation loop**: it returns the same for every two describe
schedules. -/
theorem create_describe_irrel (machine : Machine) (userdata : String) (publicKey : PublicKey)
    (describe describe' : Describe) (log : List Request) :
    ((create deps backend ssh machine userdata publicKey describe).run log).1 =
      ((create deps backend ssh machine userdata publicKey describe').run log).1 := by
  unfold create
  split
  · rfl
  · next c pc _ =>
    simp only [bind, StateT.bind, StateT.run]
    generalize ensureSSHKeysExist ssh _ publicKey log = r
    rcases r with ⟨(e | fingerprint) | _, log'⟩
    · rfl
    · cases getSlugForOS deps pc.operatingSystem with
      | error => rfl
      | ok slug =>
        simp only [call, StateT.bind]
        cases (backend c.token).dropletsCreate _ with
        | error => rfl
        | ok droplet =>
          -- down to the returned handle, so that no check runs the two loops to compare them
          simp only [modify, modifyGet, MonadStateOf.modifyGet, StateT.modifyGet, StateT.bind,
            pure, StateT.pure, Id.bind_eq, Id.pure_eq]
    · rfl

/-- **`Create`'s confirmation loop**, for every describe schedule: the loop meets
`ConfirmSpec`, and `Create` returns the same whatever its describes return and however long they
take. -/
theorem confirm_calls (machine : Machine) (userdata : String) (publicKey : PublicKey) (id : GoInt)
    (describe : Describe) :
    ConfirmSpec machine.uid id describe (confirm machine.uid id describe) ∧
      ∀ describe' log, ((create deps backend ssh machine userdata publicKey describe).run log).1 =
        ((create deps backend ssh machine userdata publicKey describe').run log).1 :=
  ⟨confirm_spec machine.uid id describe,
    create_describe_irrel deps backend ssh machine userdata publicKey describe⟩

/-- The `createRequest` of `Create`, for the config `c`, the image `slug` and the key's
fingerprint `fp`. -/
def createRequest (machine : Machine) (userdata : String) (c : Config) (slug fp : String) :
    DropletCreateRequest :=
  ⟨machine.spec.name, c.region, c.size, slug, [fp], c.backups, c.ipv6, c.privateNetworking,
    userdata, c.tags ++ [machine.uid]⟩

/-- How a run of `Create` goes: after the requests of `ensureSSHKeysExist` it stops with no handle,
or sends `createRequest`, which fails and is returned, or returns a droplet whose describes the
confirmation loop logs before `Create` returns the droplet's handle. -/
theorem create_run (machine : Machine) (userdata : String) (publicKey : PublicKey)
    (describe : Describe) (log : List Request) :
    ∃ ks, ks <+: [.keysGetByFingerprint (ssh.fingerprintLegacyMD5 publicKey),
        .keysCreate ⟨keyName, ssh.marshalAuthorizedKey publicKey⟩] ∧
      (((∀ inst, ((create deps backend ssh machine userdata publicKey describe).run log).1 ≠
            .ret (.ok inst)) ∧
          ((create deps backend ssh machine userdata publicKey describe).run log).2 = log ++ ks) ∨
        ∃ c pc slug fp, getConfig deps machine.spec.providerConfig = .ok (c, pc) ∧
          ((∃ e, (backend c.token).dropletsCreate (createRequest machine userdata c slug fp) =
                .error e ∧
              (create deps backend ssh machine userdata publicKey describe).run log =
                (.ret (.error (.msg e)),
                  log ++ ks ++ [.dropletsCreate (createRequest machine userdata c slug fp)])) ∨
            ∃ droplet, (backend c.token).dropletsCreate (createRequest machine userdata c slug fp) =
                .ok droplet ∧
              (create deps backend ssh machine userdata publicKey describe).run log =
                (.ret (.ok ⟨droplet⟩), log ++ ks ++
                  .dropletsCreate (createRequest machine userdata c slug fp) ::
                    (confirm machine.uid droplet.id describe).2.map fun _ => .dropletsGet droplet.id))) := by
  unfold create
  cases hcfg : getConfig deps machine.spec.providerConfig with
  | error e => exact ⟨[], List.nil_prefix, .inl ⟨fun _ => by simp [StateT.run, pure, StateT.pure],
      by simp [StateT.run, pure, StateT.pure]⟩⟩
  | ok cpc =>
    obtain ⟨c, pc⟩ := cpc
    obtain ⟨ks, hks, hpre⟩ := ensureSSHKeysExist_log ssh (backend c.token) publicKey log
    simp only [bind, StateT.bind, StateT.run] at hks ⊢
    rcases hr : ensureSSHKeysExist ssh (backend c.token) publicKey log with ⟨o, log'⟩
    rw [hr] at hks
    obtain rfl : log' = log ++ ks := hks
    refine ⟨ks, hpre, ?_⟩
    rcases o with (e | fp) | _
    · exact .inl ⟨fun _ => by simp [pure, StateT.pure], by simp [pure, StateT.pure]⟩
    · cases getSlugForOS deps pc.operatingSystem with
      | error e => exact .inl ⟨fun _ => by simp [pure, StateT.pure], by simp [pure, StateT.pure]⟩
      | ok slug =>
        simp only [call, StateT.bind]
        cases hd : (backend c.token).dropletsCreate _ with
        | error e =>
          exact .inr ⟨c, pc, slug, fp, rfl, .inl ⟨e, hd, by simp [pure, StateT.pure]; rfl⟩⟩
        | ok droplet =>
          exact .inr ⟨c, pc, slug, fp, rfl, .inr ⟨droplet, hd, by
            simp [modify, modifyGet, MonadStateOf.modifyGet, StateT.modifyGet, StateT.bind, pure,
              StateT.pure]; rfl⟩⟩
    · exact .inl ⟨fun _ => by simp [pure, StateT.pure], by simp [pure, StateT.pure]⟩

/-- **What `Create` sends**: the lookup of its key and perhaps its registration, then at most one
`Droplets.Create`, which names the machine and whose tags end with the machine's UID, and, once
that has returned a droplet, between 1 and 31 describes of that droplet, after which `Create`
returns its handle.  It lists and deletes nothing, and returns a handle only after an accepted
`Droplets.Create`. -/
theorem create_requests (machine : Machine) (userdata : String) (publicKey : PublicKey)
    (describe : Describe) (log : List Request) :
    ∃ keyReqs dropletReqs,
      ((create deps backend ssh machine userdata publicKey describe).run log).2 =
        log ++ keyReqs ++ dropletReqs ∧
      keyReqs <+: [.keysGetByFingerprint (ssh.fingerprintLegacyMD5 publicKey),
        .keysCreate ⟨keyName, ssh.marshalAuthorizedKey publicKey⟩] ∧
      ((dropletReqs = [] ∧
          ∀ inst, ((create deps backend ssh machine userdata publicKey describe).run log).1 ≠
            .ret (.ok inst)) ∨
        ∃ c pc req, getConfig deps machine.spec.providerConfig = .ok (c, pc) ∧
          req.name = machine.spec.name ∧ req.tags = c.tags ++ [machine.uid] ∧
          ((∃ e, (backend c.token).dropletsCreate req = .error e ∧
              dropletReqs = [.dropletsCreate req] ∧
              ((create deps backend ssh machine userdata publicKey describe).run log).1 =
                .ret (.error (.msg e))) ∨
            ∃ droplet k, (backend c.token).dropletsCreate req = .ok droplet ∧
              dropletReqs = .dropletsCreate req :: List.replicate k (.dropletsGet droplet.id) ∧
              1 ≤ k ∧ k ≤ 31 ∧
              ((create deps backend ssh machine userdata publicKey describe).run log).1 =
                .ret (.ok ⟨droplet⟩))) := by
  obtain ⟨ks, hpre, ⟨hno, hlog⟩ | ⟨c, pc, slug, fp, hcfg, ⟨e, hd, hrun⟩ | ⟨droplet, hd, hrun⟩⟩⟩ :=
    create_run deps backend ssh machine userdata publicKey describe log
  · exact ⟨ks, [], by rw [hlog, List.append_nil], hpre, .inl ⟨rfl, hno⟩⟩
  · exact ⟨ks, _, by rw [hrun], hpre, .inr ⟨c, pc, _, hcfg, rfl, rfl, .inl ⟨e, hd, rfl, by rw [hrun]⟩⟩⟩
  · obtain ⟨h1, h31⟩ := confirm_length machine.uid droplet.id describe
    exact ⟨ks, _, by rw [hrun, List.map_const'], hpre, .inr ⟨c, pc, _, hcfg, rfl, rfl,
      .inr ⟨droplet, _, hd, rfl, h1, h31, by rw [hrun]⟩⟩⟩

/-- The only `Droplets.Create` a run of `Create` sends is `createRequest` for the machine's
config. -/
theorem create_sent_dropletsCreate {machine : Machine} {userdata : String} {publicKey : PublicKey}
    {describe : Describe} {log : List Request} {req : DropletCreateRequest}
    (hsent : .dropletsCreate req ∈
      ((create deps backend ssh machine userdata publicKey describe).run log).2.drop log.length) :
    ∃ c pc slug fp, getConfig deps machine.spec.providerConfig = .ok (c, pc) ∧
      req = createRequest machine userdata c slug fp := by
  obtain ⟨ks, hpre, hcases⟩ := create_run deps backend ssh machine userdata publicKey describe log
  -- the key requests hold no `Droplets.Create`, and the describes are `Droplets.Get`s
  have hks : .dropletsCreate req ∉ ks := fun h => by simpa using hpre.subset h
  rcases hcases with ⟨-, hlog⟩ | ⟨c, pc, slug, fp, hcfg, ⟨e, -, hrun⟩ | ⟨droplet, -, hrun⟩⟩
  · rw [hlog, List.drop_left] at hsent
    exact absurd hsent hks
  · rw [hrun, List.append_assoc, List.drop_left] at hsent
    simp only [List.mem_append, hks, false_or, List.mem_singleton, Request.dropletsCreate.injEq]
      at hsent
    exact ⟨c, pc, slug, fp, hcfg, hsent⟩
  · rw [hrun, List.append_assoc, List.drop_left] at hsent
    simp only [List.mem_append, hks, false_or, List.mem_cons, Request.dropletsCreate.injEq,
      List.mem_map, reduceCtorEq, and_false, exists_false, or_false] at hsent
    exact ⟨c, pc, slug, fp, hcfg, hsent⟩

/-- **`Create` tags its droplet as `Get` looks for it**: a droplet with the name and tags of the
`Droplets.Create` that `Create` sent, and perhaps more tags, is the machine's; so `Get`, once
the listing's first page shows it, returns a handle and not `InstanceNotFoundErr`. -/
theorem create_then_get_found {machine : Machine} {userdata : String} {publicKey : PublicKey}
    {describe : Describe} {log : List Request} {req : DropletCreateRequest}
    (hsent : .dropletsCreate req ∈
      ((create deps backend ssh machine userdata publicKey describe).run log).2.drop log.length)
    {d : Droplet} (hname : d.name = req.name) (htags : req.tags ⊆ d.tags)
    (backend' : String → Client) (log' : List Request) {c : Config} {pc : ProviderConfig}
    {page : List Droplet} (hcfg : getConfig deps machine.spec.providerConfig = .ok (c, pc))
    (hlist : (backend' c.token).dropletsList listOptions = .ok page) (hd : d ∈ page) :
    ownedBy machine d = true ∧ ∃ inst, ((get deps backend' machine).run log').1 = .ok inst := by
  obtain ⟨c', pc', slug, fp, -, rfl⟩ := create_sent_dropletsCreate deps backend ssh hsent
  have hown : ownedBy machine d = true := by
    have huid : machine.uid ∈ d.tags := htags (by simp [createRequest])
    simp [ownedBy, hname, createRequest, huid]
  refine ⟨hown, ⟨page.getLast?.getD Droplet.zero⟩, ?_⟩
  rw [get, getWith_run .perLoop log' hcfg hlist, perLoop_handle,
    if_pos (List.any_eq_true.mpr ⟨d, hd, hown⟩)]

end Ops

/-! ### Schedules the loop does not survive -/

/-- The droplet `Droplets.Create` makes for `machineM`, as calls at second `t` see it: its tags
show from second 400 on. -/
def provisioned (t : Nat) : Droplet := ⟨7, "m", "new", if 400 ≤ t then ["u"] else [], none⟩

/-- Every describe answers at once with the droplet as it is when the call starts. -/
def describeProvisioned : Describe := fun _ t => (.ok (provisioned t), 1)

/-- The account at second `t`: it has the key, accepts the droplet and lists it. -/
def provisioningAt (t : Nat) : Client where
  regionsList _ := .ok []
  sizesList _ := .ok []
  keysGetByFingerprint fp := ⟨some ⟨fp, "ssh-rsa AAAA", keyName⟩, some 200, none⟩
  keysCreate _ := ⟨none, none, some "unused"⟩
  dropletsCreate _ := .ok (provisioned 0)
  dropletsList opt := .ok (firstPage opt [provisioned t])
  dropletsDelete _ := .ok ()

/-- Every describe returns the droplet without the UID, 15 seconds after it starts. -/
def describeSlow : Describe := fun _ _ => (.ok (provisioned 0), 15)

/-- Every describe fails at once. -/
def describeDown : Describe := fun _ _ => (.error "connection refused", 1)

/-- Describes at 10, 30, …, 290 end at 305, after the tick at 300: the closing call starts at
305, the loop ends with `ErrWaitTimeout`, and `Create` returns the handle with a nil error.  A
failed describe ends the loop at once, with the condition's error after its 10-second sleep. -/
theorem confirm_lateCall :
    (confirm machineM.uid 7 describeSlow).1 = .waitTimeout ∧
      (confirm machineM.uid 7 describeSlow).2.getLast?.map CondCall.start = some 305 ∧
      createCheckTimeout < 305 ∧
      ((create depsAny (fun _ => provisioningAt 0) sshFixed machineM "" rsaKey
        describeSlow).run []).1 = .ret (.ok ⟨provisioned 0⟩) ∧
      (confirm machineM.uid 7 describeDown) =
        (.failed (fetchStatusError 7), [⟨10, .error (fetchStatusError 7), 11⟩]) := by
  decide

theorem create_then_get_notFound :
    ((create depsAny (fun _ => provisioningAt 0) sshFixed machineM "" rsaKey
        describeProvisioned).run []).1 = .ret (.ok ⟨provisioned 0⟩) ∧
      (confirm machineM.uid 7 describeProvisioned).1 = .waitTimeout ∧
      ((get depsAny (fun _ => provisioningAt 310) machineM).run []).1 = .error .instanceNotFound := by
  decide

/-- Every describe answers at once with the droplet showing its tags. -/
def describeTagged : Describe := fun _ _ => (.ok (provisioned 400), 1)

theorem create_then_get_found_provisioned :
    .dropletsCreate (createRequest machineM "" configAny "ubuntu-16-04-x64" "fp") ∈
        ((create depsAny (fun _ => provisioningAt 0) sshFixed machineM "" rsaKey
          describeTagged).run []).2.drop ([] : List Request).length ∧
      (provisioned 400).name = (createRequest machineM "" configAny "ubuntu-16-04-x64" "fp").name ∧
      (createRequest machineM "" configAny "ubuntu-16-04-x64" "fp").tags ⊆ (provisioned 400).tags ∧
      getConfig depsAny machineM.spec.providerConfig = .ok (configAny, providerConfigAny) ∧
      (provisioningAt 400).dropletsList listOptions =
        .ok (firstPage listOptions [provisioned 400]) ∧
      provisioned 400 ∈ firstPage listOptions [provisioned 400] ∧
      (ownedBy machineM (provisioned 400) = true ∧
        ∃ inst, ((get depsAny (fun _ => provisioningAt 400) machineM).run []).1 = .ok inst) :=
  have hsent : .dropletsCreate (createRequest machineM "" configAny "ubuntu-16-04-x64" "fp") ∈
      ((create depsAny (fun _ => provisioningAt 0) sshFixed machineM "" rsaKey
        describeTagged).run []).2.drop ([] : List Request).length := by decide
  have htags : (createRequest machineM "" configAny "ubuntu-16-04-x64" "fp").tags ⊆
      (provisioned 400).tags := by decide
  have hd : provisioned 400 ∈ firstPage listOptions [provisioned 400] := by decide
  ⟨hsent, rfl, htags, rfl, rfl, hd,
    create_then_get_found depsAny (fun _ => provisioningAt 0) sshFixed hsent rfl htags
      (fun _ => provisioningAt 400) [] rfl rfl hd⟩

end MachineController.Digitalocean
