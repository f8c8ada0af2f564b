import MachineController.Digitalocean.Get

/-!
# MachineController.Digitalocean.Validate — `Validate`

`Validate` decodes the config and checks that token, region and size are set and that the
operating system has an image.  It then lists one page (`PerPage: 1000`) of the account's
regions, in which the config's region must stand, and one page of its sizes, whose first entry
with the config's slug must be available and offered in that region.

* `validate_eq_none_iff`: with distinct size slugs, `Validate` returns nil iff the config meets
  `Accepts` on the pages the backend listed;
* `validate_eq_none_iff_find`: for any size catalog, the first size with the config's slug
  decides;
* `validate_log`: `Validate` issues the region listing and then the size listing, or a part of
  that, and nothing else;
* `validate_spec`: both, for an account whose catalogs are listed a page at a time;
* `validate_manyRegions`: 1001 regions with the config's region last: every condition holds on
  the catalogs, and `Validate` fails.
-/

namespace MachineController.Digitalocean

open MachineController.Go

/-- The size loop of `Validate`: the first size with the config's slug decides, and `break` leaves
the loop with `foundSize` set. -/
def sizeLoop (c : Config) : List Size → Option Error
  | [] => some (.msg ("size " ++ goQuote c.size ++ " not found"))
  | size :: sizes =>
    if size.slug = c.size then
      if !size.available then some (.msg "size is not available")
      else if !size.regions.contains c.region then
        some (.msg ("size " ++ goQuote c.size ++ " is not available in region " ++ goQuote c.region))
      else none
    else sizeLoop c sizes

/-- With distinct slugs, the size loop passes iff the size with the config's slug is available
and offered in the config's region. -/
theorem sizeLoop_eq_none_iff (c : Config) :
    ∀ {sizes : List Size}, (sizes.map (·.slug)).Nodup →
      (sizeLoop c sizes = none ↔
        ∃ s ∈ sizes, s.slug = c.size ∧ s.available = true ∧ c.region ∈ s.regions)
  | [], _ => by simp [sizeLoop]
  | size :: sizes, hnodup => by
    rw [List.map_cons, List.nodup_cons] at hnodup
    by_cases hs : size.slug = c.size
    · have hother : ∀ s ∈ sizes, s.slug ≠ c.size := fun s hs' heq =>
        hnodup.1 (List.mem_map.mpr ⟨s, hs', heq.trans hs.symm⟩)
      cases hav : size.available <;> by_cases hreg : c.region ∈ size.regions <;>
        simp_all [sizeLoop]
    · simp only [sizeLoop, hs, if_false, sizeLoop_eq_none_iff c hnodup.2, List.mem_cons]
      constructor
      · rintro ⟨s, hs', h⟩; exact ⟨s, .inr hs', h⟩
      · rintro ⟨s, rfl | hs', h⟩
        · exact absurd h.1 hs
        · exact ⟨s, hs', h⟩

/-- The size loop passes iff the first size with the config's slug is available and offered in
the config's region: a later size with the same slug is never looked at. -/
theorem sizeLoop_eq_none_iff_find (c : Config) (sizes : List Size) :
    sizeLoop c sizes = none ↔
      ∃ s, sizes.find? (·.slug = c.size) = some s ∧ s.available = true ∧ c.region ∈ s.regions := by
  induction sizes with
  | nil => simp [sizeLoop]
  | cons size sizes ih =>
    by_cases hs : size.slug = c.size
    · cases hav : size.available <;> by_cases hreg : c.region ∈ size.regions <;>
        simp [sizeLoop, hs, hav, hreg, List.find?_cons]
    · simp [sizeLoop, hs, List.find?_cons, ih]

/-- The region loop of `Validate`: `foundRegion` once it has run. -/
def foundRegion (c : Config) (regions : List Region) : Bool := regions.any (·.slug = c.region)

section Ops

variable (deps : Deps) (backend : String → Client)

/-- `(*digitalocean).Validate`; `none` is the nil error. -/
def validate (spec : MachineSpec) : ClientM (Option Error) := do
  match getConfig deps spec.providerConfig with
  | .error e => return some (.msg ("failed to parse config: " ++ e))
  | .ok (c, pc) =>
    if c.token = "" then return some (.msg "token is missing")
    else if c.region = "" then return some (.msg "region is missing")
    else if c.size = "" then return some (.msg "size is missing")
    else
      match getSlugForOS deps pc.operatingSystem with
      | .error e => return some (.msg ("invalid operating system specified " ++
          goQuote pc.operatingSystem ++ ": " ++ e))
      | .ok _ =>
        let client := backend c.token
        match ← call (.regionsList listOptions) (client.regionsList listOptions) with
        | .error e => return some (.msg e)
        | .ok regions =>
          if !foundRegion c regions then
            return some (.msg ("region " ++ goQuote c.region ++ " not found"))
          else
            match ← call (.sizesList listOptions) (client.sizesList listOptions) with
            | .error e => return some (.msg e)
            | .ok sizes => return sizeLoop c sizes

/-- What a valid machine spec is, given the catalogs: token, region and size set, a supported
operating system, the region listed, and the size with the config's slug available in it. -/
def Accepts (c : Config) (pc : ProviderConfig) (regions : List Region) (sizes : List Size) :
    Prop :=
  c.token ≠ "" ∧ c.region ≠ "" ∧ c.size ≠ "" ∧
    (pc.operatingSystem = deps.operatingSystemUbuntu ∨
      pc.operatingSystem = deps.operatingSystemCoreos) ∧
    (∃ r ∈ regions, r.slug = c.region) ∧
    ∃ s ∈ sizes, s.slug = c.size ∧ s.available = true ∧ c.region ∈ s.regions

variable {deps backend} {spec : MachineSpec} {c : Config} {pc : ProviderConfig}

/-- `Validate` issues the region listing and then the size listing, or the first of them, or
neither: it never sends a request that changes the account. -/
theorem validate_log (log : List Request) :
    ∃ n ≤ 2, ((validate deps backend spec).run log).2 =
      log ++ [.regionsList listOptions, .sizesList listOptions].take n := by
  unfold validate
  cases getConfig deps spec.providerConfig with
  | error e => exact ⟨0, by omega, by simp [StateT.run, pure, StateT.pure]⟩
  | ok cpc =>
    obtain ⟨c, pc⟩ := cpc
    dsimp only
    split_ifs
    · exact ⟨0, by omega, by simp [StateT.run, pure, StateT.pure]⟩
    · exact ⟨0, by omega, by simp [StateT.run, pure, StateT.pure]⟩
    · exact ⟨0, by omega, by simp [StateT.run, pure, StateT.pure]⟩
    · cases getSlugForOS deps pc.operatingSystem with
      | error e => exact ⟨0, by omega, by simp [StateT.run, pure, StateT.pure]⟩
      | ok slug =>
        simp only [StateT.run, bind, StateT.bind, call]
        cases (backend c.token).regionsList listOptions with
        | error e => exact ⟨1, by omega, by simp [pure, StateT.pure]⟩
        | ok regions =>
          dsimp only
          split_ifs
          · exact ⟨1, by omega, by simp [pure, StateT.pure]⟩
          · cases (backend c.token).sizesList listOptions <;>
              exact ⟨2, le_rfl, by simp [pure, StateT.pure, StateT.bind, call]⟩

/-- With the backend listing `regions` and `sizes`, `Validate` returns nil iff the config's
fields pass their checks, the region is listed, and the size loop passes. -/
theorem validate_eq_none_iff_sizeLoop {regions : List Region} {sizes : List Size}
    (log : List Request) (hcfg : getConfig deps spec.providerConfig = .ok (c, pc))
    (hreg : (backend c.token).regionsList listOptions = .ok regions)
    (hsiz : (backend c.token).sizesList listOptions = .ok sizes) :
    ((validate deps backend spec).run log).1 = none ↔
      c.token ≠ "" ∧ c.region ≠ "" ∧ c.size ≠ "" ∧
        (pc.operatingSystem = deps.operatingSystemUbuntu ∨
          pc.operatingSystem = deps.operatingSystemCoreos) ∧
        (∃ r ∈ regions, r.slug = c.region) ∧ sizeLoop c sizes = none := by
  simp only [validate, hcfg]
  by_cases ht : c.token = ""
  · simp [ht]
  by_cases hr : c.region = ""
  · simp [ht, hr]
  by_cases hs : c.size = ""
  · simp [ht, hr, hs]
  cases hslug : getSlugForOS deps pc.operatingSystem with
  | error e =>
    have hos : ¬ (pc.operatingSystem = deps.operatingSystemUbuntu ∨
        pc.operatingSystem = deps.operatingSystemCoreos) := fun h => by
      obtain ⟨slug, hok⟩ := (getSlugForOS_ok_iff deps _).2 h
      rw [hslug] at hok; cases hok
    simp [ht, hr, hs, hos]
  | ok slug =>
    have hos := (getSlugForOS_ok_iff deps _).1 ⟨slug, hslug⟩
    cases hb : foundRegion c regions with
    | true =>
      have hany : ∃ r ∈ regions, r.slug = c.region := by simpa [foundRegion] using hb
      simp [ht, hr, hs, hos, hany, hb, hreg, hsiz]
    | false =>
      have hany : ¬ ∃ r ∈ regions, r.slug = c.region := by simpa [foundRegion] using hb
      simp [ht, hr, hs, hany, hb, hreg]

/-- With the backend listing `regions` and `sizes`, the sizes under distinct slugs, `Validate`
returns nil iff the config meets `Accepts` on those pages. -/
theorem validate_eq_none_iff {regions : List Region} {sizes : List Size} (log : List Request)
    (hcfg : getConfig deps spec.providerConfig = .ok (c, pc))
    (hreg : (backend c.token).regionsList listOptions = .ok regions)
    (hsiz : (backend c.token).sizesList listOptions = .ok sizes)
    (hnodup : (sizes.map (·.slug)).Nodup) :
    ((validate deps backend spec).run log).1 = none ↔ Accepts deps c pc regions sizes := by
  rw [validate_eq_none_iff_sizeLoop log hcfg hreg hsiz, sizeLoop_eq_none_iff c hnodup, Accepts]

/-- **`Validate` with any size catalog**: it returns nil iff token, region and size are set, the
operating system is supported, the region is listed, and the first listed size with the
config's slug is available and offered in the region; a later size with the same slug does not
count. -/
theorem validate_eq_none_iff_find {regions : List Region} {sizes : List Size}
    (log : List Request) (hcfg : getConfig deps spec.providerConfig = .ok (c, pc))
    (hreg : (backend c.token).regionsList listOptions = .ok regions)
    (hsiz : (backend c.token).sizesList listOptions = .ok sizes) :
    ((validate deps backend spec).run log).1 = none ↔
      c.token ≠ "" ∧ c.region ≠ "" ∧ c.size ≠ "" ∧
        (pc.operatingSystem = deps.operatingSystemUbuntu ∨
          pc.operatingSystem = deps.operatingSystemCoreos) ∧
        (∃ r ∈ regions, r.slug = c.region) ∧
        ∃ s, sizes.find? (·.slug = c.size) = some s ∧ s.available = true ∧ c.region ∈ s.regions := by
  rw [validate_eq_none_iff_sizeLoop log hcfg hreg hsiz, sizeLoop_eq_none_iff_find]

/-- **`Validate` on an account listed a page at a time**: with distinct size slugs it returns nil
iff the config meets `Accepts` on the first pages of the catalogs, and it sends nothing but the
two listings. -/
theorem validate_spec (a : Account) (client : Client) (log : List Request)
    (hcfg : getConfig deps spec.providerConfig = .ok (c, pc))
    (hsizes : (a.sizes.map (·.slug)).Nodup) :
    (((validate deps (fun _ => a.lists client) spec).run log).1 = none ↔
        Accepts deps c pc (firstPage listOptions a.regions) (firstPage listOptions a.sizes)) ∧
      ∃ n ≤ 2, ((validate deps (fun _ => a.lists client) spec).run log).2 =
        log ++ [.regionsList listOptions, .sizesList listOptions].take n :=
  ⟨validate_eq_none_iff log hcfg rfl rfl (((List.take_sublist _ _).map _).nodup hsizes),
    validate_log log⟩

/-- Two regions and three sizes: one not available, the config's size offered in both regions,
and one offered in `ams3` only. -/
def smallCatalog : Account :=
  ⟨[⟨"ams3"⟩, ⟨"nyc1"⟩],
    [⟨"s-2vcpu-2gb", false, ["nyc1"]⟩, ⟨"s-1vcpu-1gb", true, ["ams3", "nyc1"]⟩,
      ⟨"s-4vcpu-8gb", true, ["ams3"]⟩], []⟩

theorem validate_spec_smallCatalog :
    getConfig depsAny machineM.spec.providerConfig = .ok (configAny, providerConfigAny) ∧
      (smallCatalog.sizes.map (·.slug)).Nodup ∧
      ((((validate depsAny (fun _ => smallCatalog.lists twoDroplets) machineM.spec).run []).1 =
            none ↔
          Accepts depsAny configAny providerConfigAny (firstPage listOptions smallCatalog.regions)
            (firstPage listOptions smallCatalog.sizes)) ∧
        ∃ n ≤ 2,
          ((validate depsAny (fun _ => smallCatalog.lists twoDroplets) machineM.spec).run []).2 =
            [] ++ [.regionsList listOptions, .sizesList listOptions].take n) :=
  have hcfg : getConfig depsAny machineM.spec.providerConfig = .ok (configAny, providerConfigAny) :=
    rfl
  have hsizes : (smallCatalog.sizes.map (·.slug)).Nodup := by decide
  ⟨hcfg, hsizes, validate_spec smallCatalog twoDroplets [] hcfg hsizes⟩

/-- The config's size listed twice: first unavailable, then available in the region. -/
def twiceListedSize : Account :=
  ⟨[⟨"nyc1"⟩], [⟨"s-1vcpu-1gb", false, ["nyc1"]⟩, ⟨"s-1vcpu-1gb", true, ["nyc1"]⟩], []⟩

theorem validate_eq_none_iff_find_twiceListed :
    getConfig depsAny machineM.spec.providerConfig = .ok (configAny, providerConfigAny) ∧
      (twiceListedSize.lists twoDroplets).regionsList listOptions =
        .ok (firstPage listOptions twiceListedSize.regions) ∧
      (twiceListedSize.lists twoDroplets).sizesList listOptions =
        .ok (firstPage listOptions twiceListedSize.sizes) ∧
      ((((validate depsAny (fun _ => twiceListedSize.lists twoDroplets) machineM.spec).run []).1 =
          none ↔
        configAny.token ≠ "" ∧ configAny.region ≠ "" ∧ configAny.size ≠ "" ∧
          (providerConfigAny.operatingSystem = depsAny.operatingSystemUbuntu ∨
            providerConfigAny.operatingSystem = depsAny.operatingSystemCoreos) ∧
          (∃ r ∈ firstPage listOptions twiceListedSize.regions, r.slug = configAny.region) ∧
          ∃ s, (firstPage listOptions twiceListedSize.sizes).find? (·.slug = configAny.size) =
            some s ∧ s.available = true ∧ configAny.region ∈ s.regions)) :=
  ⟨rfl, rfl, rfl, validate_eq_none_iff_find [] rfl rfl rfl⟩

end Ops

/-! ### A region past the first page -/

/-- A thousand regions with the slugs `0`, …, `999`. -/
def filler : List Region := (List.range 1000).map fun i => ⟨String.mk (formatDecimal i)⟩

/-- The filler regions, then the config's region. -/
def manyRegions : List Region := filler ++ [⟨configAny.region⟩]

/-- An account with those regions and one size offered in the config's region. -/
def manyRegionsAccount : Account := ⟨manyRegions, [⟨configAny.size, true, [configAny.region]⟩], []⟩

theorem filler_slug_ne (r : Region) (hr : r ∈ filler) : r.slug ≠ configAny.region := by
  obtain ⟨i, -, rfl⟩ := List.mem_map.mp hr
  intro h
  have hn : 'n' ∈ formatDecimal i := by
    have : formatDecimal i = configAny.region.data := congrArg String.data h
    rw [this]; decide
  exact absurd ((formatDecimal_spec i).2.1 'n' hn) (by unfold IsDigit; decide)

theorem manyRegions_nodup : (manyRegions.map (·.slug)).Nodup := by
  rw [manyRegions, List.map_append, List.nodup_append]
  refine ⟨?_, List.nodup_singleton _, ?_⟩
  · rw [filler, List.map_map]
    exact (List.nodup_range 1000).map fun i j h => formatDecimal_inj (congrArg String.data h)
  · simp only [List.map_cons, List.map_nil, List.disjoint_singleton, List.mem_map, not_exists,
      not_and]
    exact fun r hr => filler_slug_ne r hr

theorem firstPage_manyRegions : firstPage listOptions manyRegions = filler := by
  simp [firstPage, manyRegions, listOptions, filler]

theorem validate_manyRegions :
    (manyRegions.map (·.slug)).Nodup ∧
      Accepts depsAny configAny providerConfigAny manyRegionsAccount.regions
        manyRegionsAccount.sizes ∧
      ((validate depsAny (fun _ => manyRegionsAccount.lists twoDroplets) machineM.spec).run []).1 ≠
        none := by
  refine ⟨manyRegions_nodup, ?_, fun h => ?_⟩
  · refine ⟨by decide, by decide, by decide, .inl rfl, ⟨_, List.mem_append_right _ (.head _), rfl⟩,
      ⟨_, .head _, rfl, rfl, .head _⟩⟩
  · have hacc := (validate_eq_none_iff [] (show getConfig depsAny machineM.spec.providerConfig =
      .ok (configAny, providerConfigAny) from rfl) rfl rfl (by decide)).mp h
    obtain ⟨r, hr, hslug⟩ := hacc.2.2.2.2.1
    rw [show manyRegionsAccount.regions = manyRegions from rfl, firstPage_manyRegions] at hr
    exact filler_slug_ne r hr hslug

end MachineController.Digitalocean
