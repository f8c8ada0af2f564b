import MachineController.Go.Strconv

/-!
# MachineController.Digitalocean.Types — the data the DigitalOcean provider reads and writes

The godo records keep the fields the provider reads (`Droplet.Networks` stays a pointer, as in
godo), the machine keeps its spec's name, its UID and its provider config, and `config` is
the provider's own config record.  Around them:

* `Deps`: what the provider takes from packages outside these sources, namely the JSON
  decoders `getConfig` calls and the constants of `providerconfig`;
* `Request` and `ClientM`: every call to the backend is logged, in order, so that a property
  can say which requests an operation issues;
* `Client`: the answers of the godo services of one account, and `Account.lists`, a client
  whose listings answer with an account's first pages;
* `getConfig`, `getSlugForOS` and the `doInstance` accessors, as the sources write them.
-/

namespace MachineController.Digitalocean

open MachineController.Go

/-! ## godo records -/

/-- `godo.NetworkV4` and `godo.NetworkV6`: the provider reads only `IPAddress`. -/
structure Network where
  ipAddress : String
deriving DecidableEq, Repr

/-- `godo.Networks`. -/
structure Networks where
  v4 : List Network
  v6 : List Network
deriving DecidableEq, Repr

/-- `godo.Droplet`: the fields the provider reads; `Networks` is a pointer in godo. -/
structure Droplet where
  id : GoInt
  name : String
  status : String
  tags : List String
  networks : Option Networks
deriving DecidableEq, Repr

/-- The zero value `godo.Droplet{}`. -/
def Droplet.zero : Droplet := ⟨0, "", "", [], none⟩

/-- `godo.Region`: its slug. -/
structure Region where
  slug : String
deriving DecidableEq, Repr

/-- `godo.Size`: its slug, whether it is available, and the slugs of its regions. -/
structure Size where
  slug : String
  available : Bool
  regions : List String
deriving DecidableEq, Repr

/-- `godo.Key`: a registered SSH key. -/
structure Key where
  fingerprint : String
  publicKey : String
  name : String
deriving DecidableEq, Repr

/-- `godo.ListOptions`. -/
structure ListOptions where
  page : Nat
  perPage : Nat
deriving DecidableEq, Repr

/-- `&godo.ListOptions{PerPage: 1000}`, the only listing the provider asks for. -/
def listOptions : ListOptions := ⟨0, 1000⟩

/-- `godo.KeyCreateRequest`. -/
structure KeyCreateRequest where
  name : String
  publicKey : String
deriving DecidableEq, Repr

/-- `godo.DropletCreateRequest`: the image by slug, the SSH keys by fingerprint. -/
structure DropletCreateRequest where
  name : String
  region : String
  size : String
  image : String
  sshKeys : List String
  backups : Bool
  ipv6 : Bool
  privateNetworking : Bool
  userData : String
  tags : List String
deriving DecidableEq, Repr

/-- The requests the provider sends to the backend. -/
inductive Request
  | regionsList (opt : ListOptions)
  | sizesList (opt : ListOptions)
  | keysGetByFingerprint (fingerprint : String)
  | keysCreate (req : KeyCreateRequest)
  | dropletsCreate (req : DropletCreateRequest)
  | dropletsGet (id : GoInt)
  | dropletsList (opt : ListOptions)
  | dropletsDelete (id : GoInt)
deriving DecidableEq, Repr

/-! ## The machine and its config -/

/-- `runtime.RawExtension`: JSON bytes. -/
structure RawExtension where
  raw : List UInt8
deriving DecidableEq, Repr

/-- `config`, the provider spec of a DigitalOcean machine. -/
structure Config where
  token : String
  region : String
  size : String
  backups : Bool
  ipv6 : Bool
  privateNetworking : Bool
  tags : List String
deriving DecidableEq, Repr

/-- `providerconfig.Config`: the provider reads the operating system and its own spec. -/
structure ProviderConfig where
  operatingSystem : String
  cloudProviderSpec : RawExtension
deriving DecidableEq, Repr

/-- `v1alpha1.MachineSpec`: its name and its provider config. -/
structure MachineSpec where
  name : String
  providerConfig : RawExtension
deriving DecidableEq, Repr

/-- `v1alpha1.Machine`: its UID and its spec. -/
structure Machine where
  uid : String
  spec : MachineSpec
deriving DecidableEq, Repr

/-- What the provider takes from packages outside these sources: the `json.Unmarshal` calls of
`getConfig`, and `providerconfig.OperatingSystemUbuntu`, `OperatingSystemCoreos` and the text
of `ErrOSNotSupported`. -/
structure Deps where
  unmarshalProviderConfig : RawExtension → Except String ProviderConfig
  unmarshalConfig : RawExtension → Except String Config
  operatingSystemUbuntu : String
  operatingSystemCoreos : String
  errOSNotSupported : String

/-- The provider's errors: the sentinel `cloudprovidererrors.InstanceNotFoundErr`, or an error
with its text. -/
inductive Error
  | instanceNotFound
  | msg (text : String)
deriving DecidableEq, Repr

/-- `%q` of a string: `strconv.Quote` quotes it and escapes `"` and `\`; it also escapes
non-printable characters, which this model writes as they are. -/
def goQuote (s : String) : String :=
  "\"" ++ String.join (s.toList.map fun c =>
    if c = '"' ∨ c = '\\' then "\\" ++ c.toString else c.toString) ++ "\""

section Decls

variable (deps : Deps)

/-- `getConfig`: the envelope first, then the provider spec inside it. -/
def getConfig (s : RawExtension) : Except String (Config × ProviderConfig) := do
  let pconfig ← deps.unmarshalProviderConfig s
  let c ← deps.unmarshalConfig pconfig.cloudProviderSpec
  pure (c, pconfig)

/-- `getSlugForOS`: the image of each supported operating system. -/
def getSlugForOS (os : String) : Except String String :=
  if os = deps.operatingSystemUbuntu then .ok "ubuntu-16-04-x64"
  else if os = deps.operatingSystemCoreos then .ok "coreos-stable"
  else .error deps.errOSNotSupported

theorem getSlugForOS_ok_iff (os : String) :
    (∃ slug, getSlugForOS deps os = .ok slug) ↔
      os = deps.operatingSystemUbuntu ∨ os = deps.operatingSystemCoreos := by
  unfold getSlugForOS
  split_ifs with hu hc
  · simp [hu]
  · simp [hc]
  · simp [hu, hc]

end Decls

/-- `(*digitalocean).GetCloudConfig`: no bootstrap metadata. -/
def getCloudConfig (_spec : MachineSpec) : String × String × Option Error := ("", "", none)

/-! ## The instance handle -/

/-- `instance.State`. -/
inductive InstanceState
  | starting
  | running
  | stopped
deriving DecidableEq, Repr

/-- `doInstance`: the droplet a handle points at. -/
structure DoInstance where
  droplet : Droplet
deriving DecidableEq, Repr

namespace DoInstance

/-- `Name()`. -/
def name (d : DoInstance) : String := d.droplet.name

/-- `ID()`: `strconv.Itoa` of the droplet ID. -/
def id (d : DoInstance) : String := itoa d.droplet.id

/-- `Status()`: `new` is starting, `active` running, anything else stopped. -/
def status (d : DoInstance) : InstanceState :=
  match d.droplet.status with
  | "new" => .starting
  | "active" => .running
  | _ => .stopped

/-- `Addresses()`: the v4 then the v6 addresses; reading `Networks` dereferences it. -/
def addresses (d : DoInstance) : Outcome (List String) :=
  match d.droplet.networks with
  | none => .nilDeref
  | some n => .ret (n.v4.map (·.ipAddress) ++ n.v6.map (·.ipAddress))

end DoInstance

/-! ## The backend -/

/-- `(*godo.Key, *godo.Response, error)`: the key, the HTTP status when there was a response,
and the error. -/
structure KeyReply where
  key : Option Key
  statusCode : Option Nat
  err : Option String
deriving DecidableEq, Repr

/-- The godo services of one account, as `getClient(token)` reaches them: each call's answer. -/
structure Client where
  regionsList : ListOptions → Except String (List Region)
  sizesList : ListOptions → Except String (List Size)
  keysGetByFingerprint : String → KeyReply
  keysCreate : KeyCreateRequest → KeyReply
  dropletsCreate : DropletCreateRequest → Except String Droplet
  dropletsList : ListOptions → Except String (List Droplet)
  dropletsDelete : GoInt → Except String Unit

/-- A session with the backend: the requests issued so far, in order. -/
abbrev ClientM := StateM (List Request)

/-- Issue `r`, whose answer is `resp`. -/
def call {β : Type} (r : Request) (resp : β) : ClientM β := fun log => (resp, log ++ [r])

@[simp] theorem call_run {β : Type} (r : Request) (resp : β) (log : List Request) :
    (call r resp).run log = (resp, log ++ [r]) := rfl

/-- The first page of a listing: page one of `opt.perPage` items.  The DigitalOcean API serves at
most 200 items a page, whatever `PerPage` asks for; the model serves the page the request asks
for, and the spec lemmas of `Get` and `Validate` also hold of whatever page the backend returns. -/
def firstPage {α : Type} (opt : ListOptions) (xs : List α) : List α := xs.take opt.perPage

/-- An account's catalogs and droplets, in the order the API lists them. -/
structure Account where
  regions : List Region
  sizes : List Size
  droplets : List Droplet
deriving DecidableEq, Repr

/-- A client whose listings answer with the account's first pages; its other calls answer as
`c` does. -/
def Account.lists (a : Account) (c : Client) : Client :=
  { c with
    regionsList := fun opt => .ok (firstPage opt a.regions)
    sizesList := fun opt => .ok (firstPage opt a.sizes)
    dropletsList := fun opt => .ok (firstPage opt a.droplets) }

end MachineController.Digitalocean
