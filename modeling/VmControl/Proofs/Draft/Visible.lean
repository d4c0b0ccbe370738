import VmControl.Proofs.Draft.Device
import VmControl.Proofs.Draft.Switch

/-!
# What a record shows of a draft

The end of a line about a guest moves some settings to the device or to the guest, and makes paths
full.  Still it loses nothing that options have entered: what was moved is found in the one place or
the other.  So two drafts come to the same record only if almost all of their parts are the same.
Paths are an exception, since different paths may be the same in full, and so is the selection, for
which a default may stand in.

## Main definitions

* `Draft.Part.isVisible`: whether a part can be told from the record.

## Main statements

* `Draft.autoCompact_of_conclude`: where the switch for the compaction of disks is.
* `Draft.names_of_conclude`: where the search domains and name servers are.
* `Draft.view_eq_of_conclude`: drafts with the same record have the same visible parts.
-/

namespace VmControl

open Record (ChangesOnly Field)

namespace Draft

variable {host : Host} {s t : Stage} {r : Record} {q q' : Preferences}
  {target target' : Option String}

/-! ## Settings that are moved -/

/-- What the end of the line comes to: settings go to the disk, a size selects one, the adapter goes
to the device, and then paths are made full. -/
theorem exists_settled_of_conclude (h : conclude host s = some (r, q)) :
    ∃ r₁ : Record, (∀ f, (r₁.withAdapter s.1.adapter).get f = s.1.whole.get f) ∧
      ChangesOnly [.setting (.text .location), .device (.setting (.text .image))]
        { s.1 with record := settleSize (settleDisk r₁) : Draft }.settleAdapter r := by
  obtain ⟨r₀, hfinish, hconsistent⟩ := exists_of_conclude h
  obtain ⟨r₁, hwhole, rfl⟩ := exists_settled_of_finish hfinish
  exact ⟨r₁, fun f => by rw [hwhole], Record.changesOnly_consistent hconsistent⟩

/-- **Where the switch for the compaction of disks is**: with the guest, or with the device if that
is a disk. -/
theorem autoCompact_of_conclude (h : conclude host s = some (r, q))
    (hs : unsaid s.1.record = { Record.ofAction .set with target := target }) :
    (r.settings.get? (.switch .autoCompact)).or r.device.autoCompact =
      s.1.record.settings.get? (.switch .autoCompact) := by
  obtain ⟨r₁, hwhole, hpaths⟩ := exists_settled_of_conclude h
  have hadapter := changesOnly_settleAdapter { s.1 with record := settleSize (settleDisk r₁) }
  have hsize := changesOnly_settleSize (settleDisk r₁)
  -- Once it is with the disk, nothing else touches it.
  have hguest : r.settings.get? (.switch .autoCompact) =
      (settleDisk r₁).settings.get? (.switch .autoCompact) :=
    (hpaths (.setting (.switch .autoCompact)) (by decide)).trans
      ((hadapter (.setting (.switch .autoCompact)) (by decide)).trans
        (hsize (.setting (.switch .autoCompact)) (by decide)))
  have hdevice : r.device.autoCompact = (settleDisk r₁).device.autoCompact :=
    (hpaths (.device .autoCompact) (by decide)).trans
      ((hadapter (.device .autoCompact) (by decide)).trans
        (hsize (.device .autoCompact) (by decide)))
  have hsaid : r₁.settings.get? (.switch .autoCompact) =
      s.1.record.settings.get? (.switch .autoCompact) := hwhole (.setting (.switch .autoCompact))
  have hnone : r₁.device.autoCompact = none :=
    (hwhole (.device .autoCompact)).trans (congrArg (fun r : Record => r.device.autoCompact) hs)
  rw [hguest, hdevice, ← hsaid]
  unfold settleDisk
  split <;> simp [hnone]

theorem names_settleAdapter {d : Draft} (hdomains : d.record.searchDomains = [])
    (hservers : d.record.nameServers = []) :
    d.settleAdapter.searchDomains ++ d.settleAdapter.device.adapter.searchDomains =
        d.adapter.searchDomains ∧
      d.settleAdapter.nameServers ++ d.settleAdapter.device.adapter.nameServers =
        d.adapter.nameServers := by
  unfold settleAdapter
  dsimp only
  split_ifs <;> simp [hdomains, hservers]

/-- **Where the search domains and name servers are**: with the guest, or with the device if that is
an adapter. -/
theorem names_of_conclude (h : conclude host s = some (r, q))
    (hs : unsaid s.1.record = { Record.ofAction .set with target := target }) :
    r.searchDomains ++ r.device.adapter.searchDomains = s.1.adapter.searchDomains ∧
      r.nameServers ++ r.device.adapter.nameServers = s.1.adapter.nameServers := by
  obtain ⟨r₁, hwhole, hpaths⟩ := exists_settled_of_conclude h
  have hdomains : (settleSize (settleDisk r₁)).searchDomains = [] :=
    (changesOnly_settleSize _ .searchDomains (by decide)).trans
      ((changesOnly_settleDisk r₁ .searchDomains (by decide)).trans
        ((hwhole .searchDomains).trans (congrArg (fun r : Record => r.searchDomains) hs)))
  have hservers : (settleSize (settleDisk r₁)).nameServers = [] :=
    (changesOnly_settleSize _ .nameServers (by decide)).trans
      ((changesOnly_settleDisk r₁ .nameServers (by decide)).trans
        ((hwhole .nameServers).trans (congrArg (fun r : Record => r.nameServers) hs)))
  have hnames := names_settleAdapter (d := { s.1 with record := settleSize (settleDisk r₁) })
    hdomains hservers
  rw [show r.searchDomains = _ from hpaths .searchDomains (by decide),
    show r.nameServers = _ from hpaths .nameServers (by decide),
    show r.device.adapter.searchDomains = _ from
      hpaths (.device (.adapter .searchDomains)) (by decide),
    show r.device.adapter.nameServers = _ from hpaths (.device (.adapter .nameServers)) (by decide)]
  exact hnames

/-! ## The device -/

/-- The device has the properties that it had in the draft. -/
theorem has_of_conclude (h : conclude host s = some (r, q)) (k : DeviceSetting) :
    r.device.settings.has k = s.1.record.device.settings.has k := by
  obtain ⟨r₀, hfinish, hconsistent⟩ := exists_of_conclude h
  rw [← settings_of_finish hfinish]
  simp only [Record.consistent, bind_eq_ok] at hconsistent
  obtain ⟨-, -, r₁, h₁, r₂, h₂, -, -, ⟨⟩⟩ := hconsistent
  rw [← device_of_resolveLocation h₁]
  unfold Record.resolveImage at h₂
  split at h₂
  · cases h₂
    rfl
  · next path hpath =>
    obtain ⟨full, -, rfl⟩ := map_eq_ok.1 h₂
    by_cases himage : .text .image = k
    · subst himage
      have hhas : r₁.device.settings.get? (.text .image) = some path := hpath
      simp [Sheet.has, Device.set, hhas]
    · exact congrArg Option.isSome (Sheet.get?_insert_of_ne _ _ himage)

/-- What becomes of images is what was told of them. -/
theorem imageFate_of_conclude (h : conclude host s = some (r, q)) {f : ImageFate}
    (hf : f ∈ s.1.imageFates) : r.imageFate = f := by
  have hfate : r.imageFate = s.1.imageFates.headD s.1.record.imageFate :=
    changesOnly_conclude h .imageFate (by decide)
  obtain ⟨r₀, hfinish, -⟩ := exists_of_conclude h
  rw [hfate]
  by_contra hne
  cases hfates : s.1.imageFates with
  | nil =>
    rw [hfates] at hf
    cases hf
  | cons g fates =>
    rw [hfates] at hne
    have hg : g ∈ s.1.imageFates := by
      rw [hfates]
      exact List.mem_cons_self ..
    exact finish_ne_ok_of_fates hne hg hf r₀ hfinish

/-! ## Parts that can be told from the record -/

/-- Whether a part can be told from the record.  Of preferences nothing is there; paths are there in
full, and the selection as far as it stands. -/
def Part.isVisible : Part → Bool
  | .verbosity => false
  | .compat => false
  | .timeout => false
  | .setting k => k != .text .location
  | .device k => k != .text .image
  | .selection => false
  | .imageFates => false
  | .rest => false
  | _ => true

/-- **Drafts with the same record have the same visible parts.** -/
theorem view_eq_of_conclude (h : conclude host s = some (r, q))
    (h' : conclude host t = some (r, q'))
    (hs : unsaid s.1.record = { Record.ofAction .set with target := target })
    (ht : unsaid t.1.record = { Record.ofAction .set with target := target' }) {p : Part}
    (hp : p.isVisible = true) : view s p = view t p := by
  have hkept (f : Field)
      (hf : f ∉ movedFields ++ [.setting (.text .location), .device (.setting (.text .image))]) :
      s.1.whole.get f = t.1.whole.get f :=
    (changesOnly_conclude h f hf).symm.trans (changesOnly_conclude h' f hf)
  cases p with
  | verbosity | compat | timeout | selection | imageFates | rest => cases hp
  | setting k =>
    by_cases hk : k = .switch .autoCompact
    · subst hk
      exact (autoCompact_of_conclude h hs).symm.trans (autoCompact_of_conclude h' ht)
    · have hlocation : k ≠ .text .location := by simpa [Part.isVisible] using hp
      exact hkept (.setting k) (by simp [movedFields, hk, hlocation])
  | device k =>
    have himage : k ≠ .text .image := by simpa [Part.isVisible] using hp
    exact hkept (.device (.setting k)) (by simp [movedFields, himage])
  | adapter k => exact hkept (.device (.adapter (.setting k))) (by simp [movedFields])
  | attachment =>
    exact Prod.ext (hkept .backupCommand (by decide)) (hkept .backupId (by decide))
  | addresses =>
    exact Prod.ext (hkept (.device (.adapter .replace)) (by decide))
      (hkept (.device (.adapter .addresses)) (by decide))
  | removals =>
    exact Prod.ext (hkept (.device (.adapter .removeAll)) (by decide))
      (hkept (.device (.adapter .removed)) (by decide))
  | searchDomains => exact (names_of_conclude h hs).1.symm.trans (names_of_conclude h' ht).1
  | nameServers => exact (names_of_conclude h hs).2.symm.trans (names_of_conclude h' ht).2
  | login => exact hkept .login (by decide)
  | guest => exact hkept .guest (by decide)
  | blockSize => exact hkept .blockSize (by decide)
  | kind => exact hkept .kind (by decide)
  | resources => exact hkept .resources (by decide)
  | capabilities => exact hkept .capabilities (by decide)
  | features => exact hkept .features (by decide)
  | appTemplates => exact hkept .appTemplates (by decide)
  | rates => exact hkept .rates (by decide)
  | expiration => exact hkept .expiration (by decide)
  | passwordRules => exact hkept .passwordRules (by decide)
  | offlineServices => exact hkept .offlineServices (by decide)
  | firewallRules => exact hkept (.device (.adapter .rules)) (by decide)

end Draft

end VmControl
