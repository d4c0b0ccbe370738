import VmControl.Proofs.Consistency
import VmControl.Proofs.Record.Field

/-!
# Full paths

Two texts of a record are paths of this host: where a guest is, and the image of a device.  They are
made full between the rules, and nothing else of the record changes.  A path that is full stays as
it is, and no rule looks at paths, so a record that was checked passes the check again, and does so
on every host.

## Main definitions

* `IsFullPath`: a path that does not depend on a directory.
* `Record.PathsFull`: a record with full paths only.
* `Record.check`: the check of a record in place, which leaves a record behind even if it fails.

## Main statements

* `Record.eq_of_consistent_remote`: paths of another host are left alone.
* `Record.consistent_eq_check`: what is consistent is what passes the check.
* `Record.check_changes_paths_once`: the check changes paths only, and has nothing to do the second time.
-/

namespace VmControl

/-! ## Single paths -/

/-- Whether a path is a full one, or no path at all. -/
def IsFullPath (path : String) : Prop := path = "" ∨ path.toList.head? = some '/'

/-- Whether the host resolves paths to full ones. -/
def Host.ResolvesInFull (host : Host) : Prop :=
  ∀ path full, host.fullPath path = .ok full → IsFullPath full

namespace Record

variable {host : Host} {r r' : Record}

/-- **A full path stays as it is**, wherever the command runs. -/
theorem resolvePath_of_isFullPath {path : String} (h : IsFullPath path) (host : Host)
    (remote : Bool) : resolvePath host remote path = .ok path :=
  if_pos h

theorem isFullPath_of_resolvePath (hhost : host.ResolvesInFull) {remote : Bool}
    {path full : String} (h : resolvePath host remote path = .ok full) : IsFullPath full := by
  unfold resolvePath at h
  split at h
  · next hfull =>
    cases h
    exact hfull
  · split at h
    · cases h
    · split at h
      · next hresolved =>
        cases h
        exact hhost _ _ hresolved
      · cases h

/-! ## The paths of a record -/

/-- Whether all paths of a record are full. -/
structure PathsFull (r : Record) : Prop where
  /-- That of the guest. -/
  location : ∀ path, r.text? .location = some path → IsFullPath path
  /-- That of the image. -/
  image : ∀ path, r.device.text? .image = some path → IsFullPath path

theorem changesOnly_resolveLocation (h : resolveLocation host r = .ok r') :
    ChangesOnly [.setting (.text .location)] r r' := by
  rcases resolveLocation_cases h with rfl | ⟨full, rfl⟩
  · exact ChangesOnly.refl _ _
  · exact r.changesOnly_set _ full

theorem changesOnly_resolveImage (h : resolveImage host r = .ok r') :
    ChangesOnly [.device (.setting (.text .image))] r r' := by
  rcases resolveImage_cases h with rfl | ⟨full, rfl⟩
  · exact ChangesOnly.refl _ _
  · exact r.changesOnly_deviceSet _ full

theorem isFullPath_of_resolveLocation (hhost : host.ResolvesInFull)
    (h : resolveLocation host r = .ok r') :
    ∀ path, r'.text? .location = some path → IsFullPath path := by
  intro path hpath
  unfold resolveLocation at h
  split at h
  · next hnone =>
    cases h
    rw [hnone] at hpath
    cases hpath
  · obtain ⟨full, hfull, rfl⟩ := map_eq_ok.1 h
    have htext : (r.set (.text .location) full).text? .location = some full :=
      Sheet.get?_insert_self ..
    rw [htext] at hpath
    cases hpath
    exact isFullPath_of_resolvePath hhost hfull

theorem isFullPath_of_resolveImage (hhost : host.ResolvesInFull)
    (h : resolveImage host r = .ok r') :
    ∀ path, r'.device.text? .image = some path → IsFullPath path := by
  intro path hpath
  unfold resolveImage at h
  split at h
  · next hnone =>
    cases h
    rw [hnone] at hpath
    cases hpath
  · obtain ⟨full, hfull, rfl⟩ := map_eq_ok.1 h
    have htext : (r.device.set (.text .image) full).text? .image = some full :=
      Sheet.get?_insert_self ..
    rw [htext] at hpath
    cases hpath
    exact isFullPath_of_resolvePath hhost hfull

/-- **Once both paths were resolved, they are full.** -/
theorem pathsFull_of_resolve (hhost : host.ResolvesInFull) {r₁ : Record}
    (h₁ : resolveLocation host r = .ok r₁) (h₂ : resolveImage host r₁ = .ok r') : r'.PathsFull where
  location path hpath := by
    refine isFullPath_of_resolveLocation hhost h₁ path ?_
    exact (changesOnly_resolveImage h₂ (.setting (.text .location)) (by decide)).symm.trans hpath
  image := isFullPath_of_resolveImage hhost h₂

namespace PathsFull

theorem resolveLocation (h : r.PathsFull) (host : Host) :
    Record.resolveLocation host r = .ok r := by
  unfold Record.resolveLocation
  split
  · rfl
  · next path hpath =>
    rw [resolvePath_of_isFullPath (h.location path hpath)]
    have hsame : r.set (.text .location) path = r := by
      unfold set
      rw [Sheet.insert_of_get?_eq_some hpath]
    exact congrArg Except.ok hsame

theorem resolveImage (h : r.PathsFull) (host : Host) : Record.resolveImage host r = .ok r := by
  unfold Record.resolveImage
  split
  · rfl
  · next path hpath =>
    rw [resolvePath_of_isFullPath (h.image path hpath)]
    have hsame : r.device.set (.text .image) path = r.device := by
      unfold Device.set
      rw [Sheet.insert_of_get?_eq_some hpath]
    exact congrArg Except.ok (congrArg (fun device => { r with device := device }) hsame)

end PathsFull

/-- Making a record consistent changes its paths. -/
theorem changesOnly_consistent (h : r.consistent host = .ok r') :
    ChangesOnly [.setting (.text .location), .device (.setting (.text .image))] r r' := by
  simp only [consistent, bind_eq_ok] at h
  obtain ⟨-, -, r₁, h₁, r₂, h₂, -, -, h⟩ := h
  cases h
  exact ((changesOnly_resolveLocation h₁).mono (by simp)).trans
    ((changesOnly_resolveImage h₂).mono (by simp))

/-- The paths of a consistent record are full. -/
theorem pathsFull_of_consistent (hhost : host.ResolvesInFull) (h : r.consistent host = .ok r') :
    r'.PathsFull := by
  simp only [consistent, bind_eq_ok] at h
  obtain ⟨-, -, r₁, h₁, r₂, h₂, -, -, h⟩ := h
  cases h
  exact pathsFull_of_resolve hhost h₁ h₂

/-! ## Other hosts -/

/-- A path that is not of this host stays as it is, or is turned down. -/
theorem eq_of_resolvePath_remote {path full : String} (h : resolvePath host true path = .ok full) :
    full = path := by
  unfold resolvePath at h
  split at h
  · cases h
    rfl
  · rw [if_pos rfl] at h
    cases h

/-- What becomes of it is the same on every host. -/
theorem resolvePath_remote (host host' : Host) (path : String) :
    resolvePath host' true path = resolvePath host true path := by
  simp only [resolvePath, if_true]

theorem eq_of_resolveLocation_remote (hremote : r.login.isRemote = true)
    (h : resolveLocation host r = .ok r') : r' = r := by
  unfold resolveLocation at h
  split at h
  · cases h
    rfl
  · next path hpath =>
    rw [hremote] at h
    obtain ⟨full, hfull, rfl⟩ := map_eq_ok.1 h
    rw [eq_of_resolvePath_remote hfull]
    unfold set
    rw [Sheet.insert_of_get?_eq_some hpath]

theorem eq_of_resolveImage_remote (hremote : r.login.isRemote = true)
    (h : resolveImage host r = .ok r') : r' = r := by
  unfold resolveImage at h
  split at h
  · cases h
    rfl
  · next path hpath =>
    rw [hremote] at h
    obtain ⟨full, hfull, rfl⟩ := map_eq_ok.1 h
    rw [eq_of_resolvePath_remote hfull]
    unfold Device.set
    rw [Sheet.insert_of_get?_eq_some hpath]

/-- **What runs on another host is consistent as it stands**, or not at all. -/
theorem eq_of_consistent_remote (hremote : r.login.isRemote = true)
    (h : r.consistent host = .ok r') : r' = r := by
  simp only [consistent, bind_eq_ok] at h
  obtain ⟨-, -, r₁, h₁, r₂, h₂, -, -, h⟩ := h
  cases h
  obtain rfl := eq_of_resolveLocation_remote hremote h₁
  exact eq_of_resolveImage_remote hremote h₂

/-- So this host has no say in it. -/
theorem consistent_remote (hremote : r.login.isRemote = true) (host host' : Host) :
    r.consistent host' = r.consistent host := by
  have hlocation : resolveLocation host' r = resolveLocation host r := by
    unfold resolveLocation
    rw [hremote]
    simp only [resolvePath_remote host host']
  unfold consistent
  rw [hlocation]
  cases h₁ : resolveLocation host r with
  | error u => rfl
  | ok r₁ =>
    obtain rfl := eq_of_resolveLocation_remote hremote h₁
    have himage : resolveImage host' r₁ = resolveImage host r₁ := by
      unfold resolveImage
      rw [hremote]
      simp only [resolvePath_remote host host']
    dsimp only [bind, Except.bind]
    rw [himage]

/-! ## The check in place -/

/-- Checks a record in place: tells how the check ends, and what becomes of the record.  If it fails
on the image, the location is full already; if it fails later, both paths are. -/
def check (host : Host) (r : Record) : Except CommandError Unit × Record :=
  match Rule.enforce r.earlyRules with
  | .error u => (.error u, r)
  | .ok () =>
    match resolveLocation host r with
    | .error u => (.error u, r)
    | .ok r =>
      match resolveImage host r with
      | .error u => (.error u, r)
      | .ok r => (Rule.enforce r.lateRules, r)

/-- **What is consistent is what passes the check.** -/
theorem consistent_eq_check (host : Host) (r : Record) :
    r.consistent host = (r.check host).1.map fun _ => (r.check host).2 := by
  unfold consistent check
  dsimp only [bind, Except.bind]
  cases Rule.enforce r.earlyRules with
  | error u => rfl
  | ok _ =>
    cases resolveLocation host r with
    | error u => rfl
    | ok r₁ =>
      dsimp only
      cases resolveImage host r₁ with
      | error u => rfl
      | ok r₂ =>
        dsimp only
        cases Rule.enforce r₂.lateRules <;> rfl

/-- However the check ends, it changes paths only. -/
theorem changesOnly_check (host : Host) (r : Record) :
    ChangesOnly [.setting (.text .location), .device (.setting (.text .image))] r
      (r.check host).2 := by
  unfold check
  cases Rule.enforce r.earlyRules with
  | error u => exact ChangesOnly.refl _ _
  | ok _ =>
    dsimp only
    cases h₁ : resolveLocation host r with
    | error u => exact ChangesOnly.refl _ _
    | ok r₁ =>
      have hlocation :
          ChangesOnly [.setting (.text .location), .device (.setting (.text .image))] r r₁ :=
        (changesOnly_resolveLocation h₁).mono (by simp)
      dsimp only
      cases h₂ : resolveImage host r₁ with
      | error u => exact hlocation
      | ok r₂ => exact hlocation.trans ((changesOnly_resolveImage h₂).mono (by simp))

/-- A record with full paths that keeps the rules passes the check on any host, as it is. -/
theorem PathsFull.check (h : r.PathsFull) (hearly : ∀ rule ∈ r.earlyRules, rule.broken = false)
    (hlate : ∀ rule ∈ r.lateRules, rule.broken = false) (host : Host) :
    r.check host = (.ok (), r) := by
  unfold Record.check
  rw [Rule.enforce_eq_ok.2 hearly]
  dsimp only
  rw [h.resolveLocation host]
  dsimp only
  rw [h.resolveImage host]
  dsimp only
  rw [Rule.enforce_eq_ok.2 hlate]

/-- **The check changes paths only, and has nothing to do the second time.**  What settles is what
passes the check.  However it ends, the check changes nothing but the location of the guest and the
image of the device.  And if it passes on a host that resolves paths to full ones, the record that
it leaves behind passes it again, on any host, and stays as it is. -/
theorem check_changes_paths_once (host : Host) (r : Record) (e : Effects) :
    (r.settle.after host e).1 = (r.check host).1.map (fun _ => (r.check host).2) ∧
    ChangesOnly [.setting (.text .location), .device (.setting (.text .image))] r
      (r.check host).2 ∧
    (host.ResolvesInFull → (r.check host).1 = .ok () → ∀ host' : Host,
      (r.check host).2.check host' = (.ok (), (r.check host).2)) := by
  refine ⟨?_, changesOnly_check host r, fun hhost hok host' => ?_⟩
  · rw [after_settle, consistent_eq_check]
  · have hconsistent : r.consistent host = .ok (r.check host).2 := by
      rw [consistent_eq_check, hok]
      rfl
    obtain ⟨hearly, hlate⟩ := rules_of_consistent hconsistent
    exact (pathsFull_of_consistent hhost hconsistent).check hearly hlate host'

/-- Where paths stand below `/vz`, the location `vms` becomes `/vz/vms`, and stays that on a host
that resolves nothing. -/
theorem relative_location_is_made_full_once :
    let host : Host := ⟨fun _ => .error "", fun path => .ok ("/vz/" ++ path)⟩
    let bare : Host := ⟨fun _ => .error "", fun _ => .error ""⟩
    let r := (ofAction .register).set (.text .location) "vms"
    (r.check host).1 = .ok () ∧ (r.check host).2.text? .location = some "/vz/vms" ∧
    (r.check host).2.check bare = (.ok (), (r.check host).2) := by
  intro host bare r
  have hhost : host.ResolvesInFull := by
    intro path full h
    cases h
    exact .inr (by simp)
  have hok : (r.check host).1 = .ok () := rfl
  exact ⟨hok, rfl, (check_changes_paths_once host r (.start .initial)).2.2 hhost hok bare⟩

end Record

end VmControl
