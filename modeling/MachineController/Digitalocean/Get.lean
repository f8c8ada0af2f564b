import MachineController.Digitalocean.Types

/-!
# MachineController.Digitalocean.Get — `Get` and `Delete`

`Get` lists one page (`PerPage: 1000`) of the droplets of the machine's account and, for every
droplet with the machine's name and its UID among the tags, points `d` at the range variable.
`getWith` runs that loop with either binding of the range variable (`Go.LoopVar`); `get` is the
sources' own, `perLoop`.

* `get_spec`: `Get` issues the one listing request, answers `InstanceNotFoundErr` iff no droplet
  of the page is the machine's, and otherwise hands out the **last droplet of the page**, the
  value the shared range variable holds when the loop ends.
* `getWith_perIteration_spec`: with a variable per iteration, as Go 1.22 binds it, the same code
  would hand out the last droplet of the page that is the machine's, and so meet `LookupSpec`,
  the identifier-keyed lookup the provider is for.
* `delete_spec`: `Delete` issues the listing, then a delete request iff `Get` found a handle,
  and that request carries the ID of the handle's droplet (`Go.parseInt_itoa`).
-/

namespace MachineController.Digitalocean

open MachineController.Go

/-- The droplets `Get` looks for: the machine's name, and its UID among the tags. -/
def ownedBy (machine : Machine) (droplet : Droplet) : Bool :=
  droplet.name == machine.spec.name && droplet.tags.contains machine.uid

/-- What an identifier-keyed lookup over `page` is for: not found iff no droplet of the page is
the machine's, and otherwise a handle on one of the machine's droplets. -/
def LookupSpec (machine : Machine) (page : List Droplet) (r : Except Error DoInstance) : Prop :=
  (r = .error .instanceNotFound ↔ ∀ d ∈ page, ownedBy machine d = false) ∧
    ∀ i, r = .ok i → i.droplet ∈ page ∧ ownedBy machine i.droplet = true

/-! ### A page where the machine's droplet is not the last one -/

/-- The machine `m`, with UID `u`. -/
def machineM : Machine := ⟨"u", ⟨"m", ⟨[]⟩⟩⟩

/-- The droplet of `m`. -/
def dropletM : Droplet := ⟨1, "m", "active", ["u"], none⟩

/-- A droplet of another machine. -/
def dropletX : Droplet := ⟨2, "x", "active", ["v"], none⟩

/-- A provider config asking for Ubuntu. -/
def providerConfigAny : ProviderConfig := ⟨"ubuntu", ⟨[]⟩⟩

/-- A cloud provider spec with every field set. -/
def configAny : Config := ⟨"t", "nyc1", "s-1vcpu-1gb", false, false, false, []⟩

/-- Decoders that accept every config. -/
def depsAny : Deps :=
  ⟨fun _ => .ok providerConfigAny, fun _ => .ok configAny, "ubuntu", "coreos", "os not supported"⟩

/-- An account listing `dropletM`, then `dropletX`; it accepts every delete. -/
def twoDroplets : Client where
  regionsList _ := .ok []
  sizesList _ := .ok []
  keysGetByFingerprint _ := ⟨none, none, some "unused"⟩
  keysCreate _ := ⟨none, none, some "unused"⟩
  dropletsCreate _ := .error "unused"
  dropletsList opt := .ok (firstPage opt [dropletM, dropletX])
  dropletsDelete _ := .ok ()

section Ops

variable (deps : Deps) (backend : String → Client)

/-- `(*digitalocean).Get`, with the range variable bound as `mode` says. -/
def getWith (mode : LoopVar) (machine : Machine) : ClientM (Except Error DoInstance) := do
  match getConfig deps machine.spec.providerConfig with
  | .error e => return .error (.msg ("failed to parse config: " ++ e))
  | .ok (c, _) =>
    let client := backend c.token
    match ← call (.dropletsList listOptions) (client.dropletsList listOptions) with
    | .error e => return .error (.msg ("failed to get droplets: " ++ e))
    | .ok droplets =>
      match (rangeAddr mode Droplet.zero (ownedBy machine) droplets).deref with
      | none => return .error .instanceNotFound
      | some d => return .ok ⟨d⟩

/-- `(*digitalocean).Get` as the sources run it, with one range variable for the loop. -/
def get (machine : Machine) : ClientM (Except Error DoInstance) :=
  getWith deps backend .perLoop machine

/-- `(*digitalocean).Delete`: resolve the handle with `Get`, then delete by `Atoi(i.ID())`,
dropping `Atoi`'s error. -/
def delete (machine : Machine) : ClientM (Except Error Unit) := do
  match getConfig deps machine.spec.providerConfig with
  | .error e => return .error (.msg ("failed to parse config: " ++ e))
  | .ok (c, _) =>
    let client := backend c.token
    match ← get deps backend machine with
    | .error .instanceNotFound => return .ok ()
    | .error e => return .error e
    | .ok i =>
      let doID := (atoi i.id).1
      match ← call (.dropletsDelete doID) (client.dropletsDelete doID) with
      | .error e => return .error (.msg e)
      | .ok () => return .ok ()

/-! ### One spec lemma per operation -/

variable {deps backend} {machine : Machine} {cfg : Config} {pc : ProviderConfig}
  {page : List Droplet}

theorem getWith_run (mode : LoopVar) (log : List Request)
    (hcfg : getConfig deps machine.spec.providerConfig = .ok (cfg, pc))
    (hlist : (backend cfg.token).dropletsList listOptions = .ok page) :
    (getWith deps backend mode machine).run log =
      ((match (rangeAddr mode Droplet.zero (ownedBy machine) page).deref with
        | none => .error .instanceNotFound
        | some d => .ok ⟨d⟩), log ++ [.dropletsList listOptions]) := by
  simp only [getWith, hcfg, hlist, bind, StateT.bind, call, StateT.run]
  cases (rangeAddr mode Droplet.zero (ownedBy machine) page).deref <;> rfl

/-- The handle the per-loop range variable leaves behind. -/
theorem perLoop_handle (machine : Machine) (page : List Droplet) :
    (match (rangeAddr .perLoop Droplet.zero (ownedBy machine) page).deref with
      | none => .error .instanceNotFound
      | some d => .ok ⟨d⟩ : Except Error DoInstance) =
      if page.any (ownedBy machine) then .ok ⟨page.getLast?.getD Droplet.zero⟩
      else .error .instanceNotFound := by
  rw [deref_perLoop]
  by_cases h : page.any (ownedBy machine)
  · have hne : page ≠ [] := by rintro rfl; simp at h
    simp [h, List.getLast?_eq_getLast page hne]
  · simp [h]

/-- **`Get` as the sources run it**: one listing request; not found iff no droplet of the page
is the machine's; otherwise the handle holds the last droplet of the page. -/
theorem get_spec (log : List Request)
    (hcfg : getConfig deps machine.spec.providerConfig = .ok (cfg, pc))
    (hlist : (backend cfg.token).dropletsList listOptions = .ok page) :
    (get deps backend machine).run log =
      (if page.any (ownedBy machine) then .ok ⟨page.getLast?.getD Droplet.zero⟩
        else .error .instanceNotFound, log ++ [.dropletsList listOptions]) := by
  rw [get, getWith_run .perLoop log hcfg hlist, perLoop_handle]

theorem get_spec_twoDroplets :
    getConfig depsAny machineM.spec.providerConfig = .ok (configAny, providerConfigAny) ∧
      twoDroplets.dropletsList listOptions = .ok [dropletM, dropletX] ∧
      (get depsAny (fun _ => twoDroplets) machineM).run [] =
        (if [dropletM, dropletX].any (ownedBy machineM) then
            .ok ⟨[dropletM, dropletX].getLast?.getD Droplet.zero⟩
          else .error .instanceNotFound, [] ++ [.dropletsList listOptions]) :=
  ⟨rfl, rfl, get_spec [] rfl rfl⟩

theorem get_twoDroplets :
    (get depsAny (fun _ => twoDroplets) machineM).run [] =
      (.ok ⟨dropletX⟩, [.dropletsList listOptions]) ∧
    ownedBy machineM dropletM = true ∧ ownedBy machineM dropletX = false := by
  decide


/-- **Per-iteration range variables** (Go 1.22 on, not the sources' toolchain): the same code
hands out the last droplet of the page that is the machine's, so it meets `LookupSpec`. -/
theorem getWith_perIteration_spec (log : List Request)
    (hcfg : getConfig deps machine.spec.providerConfig = .ok (cfg, pc))
    (hlist : (backend cfg.token).dropletsList listOptions = .ok page) :
    LookupSpec machine page ((getWith deps backend .perIteration machine).run log).1 ∧
      ∀ i, ((getWith deps backend .perIteration machine).run log).1 = .ok i →
        (page.filter (ownedBy machine)).getLast? = some i.droplet := by
  rw [getWith_run .perIteration log hcfg hlist, deref_perIteration]
  cases hl : (page.filter (ownedBy machine)).getLast? with
  | none =>
    have hnil : page.filter (ownedBy machine) = [] := List.getLast?_eq_none_iff.mp hl
    exact ⟨⟨by simpa [List.filter_eq_nil_iff] using hnil, by simp⟩, by simp⟩
  | some d =>
    have hmem : d ∈ page.filter (ownedBy machine) := List.mem_of_getLast?_eq_some hl
    rw [List.mem_filter] at hmem
    refine ⟨⟨⟨by simp, fun h => by simpa [hmem.2] using h d hmem.1⟩, ?_⟩, ?_⟩ <;>
      rintro i ⟨⟩
    · exact hmem
    · rfl

/-- **`Delete`**: the listing request, then, iff a droplet of the page is the machine's, exactly
one delete request, whose ID is the ID of the droplet `Get` handed out (`Atoi(Itoa(id)) = id`).
Nothing else is requested, and not finding the instance is success. -/
theorem delete_spec (log : List Request)
    (hcfg : getConfig deps machine.spec.providerConfig = .ok (cfg, pc))
    (hlist : (backend cfg.token).dropletsList listOptions = .ok page) :
    (delete deps backend machine).run log =
      if page.any (ownedBy machine) then
        let id := (page.getLast?.getD Droplet.zero).id
        ((match (backend cfg.token).dropletsDelete id with
          | .error e => .error (.msg e)
          | .ok () => .ok ()), log ++ [.dropletsList listOptions, .dropletsDelete id])
      else (.ok (), log ++ [.dropletsList listOptions]) := by
  have hget := getWith_run .perLoop log hcfg hlist
  rw [perLoop_handle] at hget
  simp only [delete, hcfg, StateT.run_bind, get] at hget ⊢
  rw [hget]
  split_ifs
  · cases h : (backend cfg.token).dropletsDelete (page.getLast?.getD Droplet.zero).id <;>
      simp [DoInstance.id, atoi, parseInt_itoa, call, h]
  · rfl

theorem delete_spec_twoDroplets :
    getConfig depsAny machineM.spec.providerConfig = .ok (configAny, providerConfigAny) ∧
      twoDroplets.dropletsList listOptions = .ok [dropletM, dropletX] ∧
      (delete depsAny (fun _ => twoDroplets) machineM).run [] =
        if [dropletM, dropletX].any (ownedBy machineM) then
          let id := ([dropletM, dropletX].getLast?.getD Droplet.zero).id
          ((match twoDroplets.dropletsDelete id with
            | .error e => .error (.msg e)
            | .ok () => .ok ()), [] ++ [.dropletsList listOptions, .dropletsDelete id])
        else (.ok (), [] ++ [.dropletsList listOptions]) :=
  ⟨rfl, rfl, delete_spec [] rfl rfl⟩

theorem delete_twoDroplets :
    (delete depsAny (fun _ => twoDroplets) machineM).run [] =
      (.ok (), [.dropletsList listOptions, .dropletsDelete dropletX.id]) ∧
    ownedBy machineM dropletX = false := by
  decide


end Ops

end MachineController.Digitalocean
