import VmControl.Proofs.Draft.Entry
import VmControl.Proofs.Draft.Shorthand
import VmControl.Proofs.Draft.Visible

/-!
# Selectors beside each other

A line that changes a guest may have several selectors.  Each tells what is to be done to the
device, and some tell its class, its name or the name of its interface.  Of each of these things the
last selector that tells it counts, so that a selector may add nothing to the others.  Nor does the
first disk add anything to a size, which is for that disk anyway.  A selector that adds nothing can
be left out.

There is one more way to lose a selector.  If no selector tells the class of the device, then a size
or a change of an adapter is for a device of its own, and the selected one makes way for it.

## Main definitions

* `Selector.IsOverridden`: other selectors tell all that a selector tells.
* `Options.Match.IsSpare`: a selector adds nothing to the rest of its line.
* `Options.Match.MakesWay`: the selected device makes way for another one.
* `Draft.IsReplaced`: what making way is in a draft.

## Main statements

* `Draft.foldl_enterSelection_eq_iff`: a selector that is not overridden changes the selection.
* `Draft.settledDevice_eq_cases`: how different selections come to the same device.
* `Draft.finish_unselect`: nothing but a name is left of a device that is replaced.
* `Draft.record_eq_iff`: which selectors can be left out.
-/

namespace VmControl

open Options

/-! ## What is told by others -/

namespace Selector

/-- Whether what a selector tells of one thing is lost beside other selectors: it tells nothing of
it, one behind it does, or the last one in front of it that does tells the same. -/
def AddsNothing {α : Type} (tell : Selector × String → Option α) (x : Selector × String)
    (before after : List (Selector × String)) : Prop :=
  tell x = none ∨ (∃ y ∈ after, tell y ≠ none) ∨ (before.filterMap tell).getLast? = tell x

instance {α : Type} [DecidableEq α] (tell : Selector × String → Option α)
    (x : Selector × String) (before after : List (Selector × String)) :
    Decidable (AddsNothing tell x before after) :=
  inferInstanceAs (Decidable (_ ∨ _ ∨ _))

/-- Whether other selectors tell all that a selector tells. -/
structure IsOverridden (x : Selector × String) (before after : List (Selector × String)) :
    Prop where
  /-- What is to be done. -/
  command : AddsNothing (fun y => some y.1.command) x before after
  /-- The class of the device. -/
  kind : AddsNothing (fun y => y.1.kind? y.2) x before after
  /-- Its name. -/
  name : AddsNothing (fun y => y.1.deviceName? y.2) x before after
  /-- The name of its interface. -/
  interface : AddsNothing (fun y => y.1.ifName? y.2) x before after

theorem isOverridden_iff {x : Selector × String} {before after : List (Selector × String)} :
    IsOverridden x before after ↔
      AddsNothing (fun y => some y.1.command) x before after ∧
        AddsNothing (fun y => y.1.kind? y.2) x before after ∧
        AddsNothing (fun y => y.1.deviceName? y.2) x before after ∧
        AddsNothing (fun y => y.1.ifName? y.2) x before after := by
  constructor
  · rintro ⟨hcommand, hkind, hname, hinterface⟩
    exact ⟨hcommand, hkind, hname, hinterface⟩
  · rintro ⟨hcommand, hkind, hname, hinterface⟩
    exact ⟨hcommand, hkind, hname, hinterface⟩

instance (x : Selector × String) (before after : List (Selector × String)) :
    Decidable (IsOverridden x before after) :=
  decidable_of_iff _ isOverridden_iff.symm

end Selector

/-- Whether an option is a selector that adds nothing to the rest of its line. -/
inductive Options.Match.IsSpare (m : Match OptionId) (before after : List (Match OptionId)) :
    Prop where
  /-- Other selectors tell all that it tells. -/
  | overridden {x : Selector × String} (hx : m.selection? = some x)
    (h : Selector.IsOverridden x (before.filterMap Match.selection?)
      (after.filterMap Match.selection?))
  /-- It selects the disk that a size is for anyway, and nothing else goes to the disk. -/
  | firstDisk (hx : m.selection? = some (.set, "hdd0"))
    (halone : ∀ m' ∈ before ++ after, m'.selection? = none)
    (hsize : ∃ m' ∈ before ++ after, m'.id = .device .size)
    (hsettings : ∀ m' ∈ before ++ after, m'.isDiskSetting = false)

/-- Whether an option is a selector, none is there that tells the class of the device, and what it
tells makes way for what a size or a change of an adapter is for. -/
inductive Options.Match.MakesWay (m : Match OptionId) (before after : List (Match OptionId)) :
    Prop where
  /-- A size is for the first disk. -/
  | size {x : Selector × String} (hx : m.selection? = some x)
    (hkind : ∀ m' ∈ before ++ m :: after, m'.kind? = none)
    (hsize : ∃ m' ∈ before ++ after, m'.id = .device .size)
  /-- A change of an adapter is for an adapter, of which the name alone is left. -/
  | adapter {x : Selector × String} (hx : m.selection? = some x)
    (hkind : ∀ m' ∈ before ++ m :: after, m'.kind? = none)
    (hchange : ∃ m' ∈ before ++ after, m'.id.changesAdapter = true)
    (hname : Selector.AddsNothing (fun y => y.1.deviceName? y.2) x
      (before.filterMap Match.selection?) (after.filterMap Match.selection?))

namespace Selector

/-- There is one way to select what a size is for anyway. -/
theorem eq_firstDisk {k : Selector} {value : String} (hcommand : k.command = .set)
    (hkind : k.kind? value = some .hdd) (hname : k.deviceName? value = some "hdd0") :
    k = .set ∧ value = "hdd0" := by
  cases k with
  | set =>
    refine ⟨rfl, ?_⟩
    have hname : Draft.deviceName value = "hdd0" := Option.some.inj hname
    unfold Draft.deviceName at hname
    split_ifs at hname
    · exact absurd hname (by decide)
    · exact hname
  | setAdapter => cases hkind
  | _ => cases hcommand

/-- What is to be changed has a name. -/
theorem exists_deviceName?_of_set {k : Selector} (h : k.command = .set) (value : String) :
    ∃ n, k.deviceName? value = some n := by
  cases k <;> first | exact ⟨_, rfl⟩ | cases h

end Selector

namespace Draft

section Selections

variable {x : Selector × String} {before after : List (Selector × String)}

/-- What a selector tells of one thing is lost exactly if the selection has the same of it. -/
theorem said_eq_iff_addsNothing {α : Type} {f : Part.selection.Content → Option α}
    {tell : Selector × String → Option α} (hstart : f (none, none, none, none) = none)
    (hstep : ∀ c x, f (enterSelection c x) = (tell x).or (f c)) :
    f ((before ++ x :: after).foldl enterSelection (none, none, none, none)) =
        f ((before ++ after).foldl enterSelection (none, none, none, none)) ↔
      Selector.AddsNothing tell x before after := by
  rw [said_foldl_enterSelection hstep, said_foldl_enterSelection hstep, hstart, Option.or_none,
    Option.or_none, List.filterMap_append, List.filterMap_append]
  unfold Selector.AddsNothing
  have hlater : (∃ y ∈ after, tell y ≠ none) ↔ after.filterMap tell ≠ [] := by
    simp [List.filterMap_eq_nil_iff]
  rw [hlater]
  cases hx : tell x with
  | none => simp [hx]
  | some a =>
    rw [List.filterMap_cons_some hx]
    cases hafter : after.filterMap tell with
    | nil => simp [eq_comm]
    | cons b bs => simp [List.getLast?_append]

/-- **A selector leaves the selection as the others make it exactly if it is overridden.** -/
theorem foldl_enterSelection_eq_iff :
    (before ++ x :: after).foldl enterSelection (none, none, none, none) =
        (before ++ after).foldl enterSelection (none, none, none, none) ↔
      Selector.IsOverridden x before after := by
  rw [Prod.ext_iff, Prod.ext_iff, Prod.ext_iff, Selector.isOverridden_iff]
  refine and_congr ?_ (and_congr ?_ (and_congr ?_ ?_))
  · exact said_eq_iff_addsNothing (f := fun c => c.1) rfl fun _ _ => rfl
  · exact said_eq_iff_addsNothing (f := fun c => c.2.1) rfl fun _ _ => rfl
  · exact said_eq_iff_addsNothing (f := fun c => c.2.2.1) rfl fun _ _ => rfl
  · exact said_eq_iff_addsNothing (f := fun c => c.2.2.2) rfl fun _ _ => rfl

/-- A new disk adds nothing in front of a new adapter, which does add its class and its name. -/
example : Selector.IsOverridden (.add, "hdd") [] [(.addAdapter, "eth0")] ∧
    ¬ Selector.IsOverridden (.addAdapter, "eth0") [(.add, "hdd")] [] := by
  decide

/-- Selectors that leave the class open do not ask for a device to be changed. -/
theorem command_ne_set_of_class {xs : List (Selector × String)}
    (hfixes : ∀ y ∈ xs, (y.1.kind? y.2).isSome = y.1.fixesKind)
    (hclass : (xs.foldl enterSelection (none, none, none, none)).2.1 = none) :
    ∀ y ∈ xs, y.1.command ≠ .set := by
  rw [(foldl_enterSelection _ _).2, Option.or_none, List.getLast?_eq_none_iff,
    List.filterMap_eq_nil_iff] at hclass
  intro y hy
  have hkind : y.1.fixesKind = false := by
    rw [← hfixes y hy, hclass y hy]
    rfl
  exact Selector.command_ne_set hkind

/-- A selector that asks for a device to be changed counts only if none behind it asks for
something else. -/
theorem eq_nil_of_command_ne_set (hafter : ∀ y ∈ after, y.1.command ≠ .set)
    (hset : ((before ++ x :: after).foldl enterSelection (none, none, none, none)).1 =
      some .set) : after = [] := by
  rcases List.eq_nil_or_concat after with hnil | ⟨front, y, rfl⟩
  · exact hnil
  · rw [List.concat_eq_append, ← List.cons_append, ← List.append_assoc, List.foldl_append] at hset
    exact absurd (Option.some.inj hset) (hafter y (by simp))

/-- No selector of some options tells the class exactly if the selection leaves it open. -/
theorem class_eq_none_iff {ms : List (Match OptionId)} :
    ((ms.filterMap Match.selection?).foldl enterSelection (none, none, none, none)).2.1 = none ↔
      ∀ m ∈ ms, m.kind? = none := by
  rw [(foldl_enterSelection _ _).2, Option.or_none, List.getLast?_eq_none_iff,
    List.filterMap_filterMap, List.filterMap_eq_nil_iff]
  rfl

end Selections

/-! ## The device that a selection comes to -/

/-- The device of a line that has selected this, with or without a size and changes of an
adapter. -/
def settledDevice (sized adapted : Bool) (c : Part.selection.Content) :
    Option DeviceCommand × Option DeviceKind × Option String :=
  let (command, kind, name, _) := c
  if kind.isSome then (command, kind, name)
  else if sized then (some .set, some .hdd, some "hdd0")
  else if adapted then (some .set, some .net, name)
  else (command, none, name)

/-- **How selections come to the same device**: they agree on it, or neither tells the class and
both make way, or one of them is the device that the other one makes way for. -/
theorem settledDevice_eq_cases {sized adapted : Bool} {c c' : Part.selection.Content}
    (hkind : c.2.1 = none → c'.2.1 = none)
    (h : settledDevice sized adapted c = settledDevice sized adapted c') :
    (c.1 = c'.1 ∧ c.2.1 = c'.2.1 ∧ c.2.2.1 = c'.2.2.1) ∨
    (c.2.1 = none ∧ (sized = true ∨ adapted = true ∧ c.2.2.1 = c'.2.2.1)) ∨
    (c'.2.1 = none ∧ c.1 = some .set ∧
      (sized = true ∧ c.2.1 = some .hdd ∧ c.2.2.1 = some "hdd0" ∨
        c.2.1 = some .net ∧ c.2.2.1 = c'.2.2.1)) := by
  obtain ⟨command, kind, name, ifName⟩ := c
  obtain ⟨command', kind', name', ifName'⟩ := c'
  dsimp only at hkind ⊢
  cases kind with
  | none =>
    obtain rfl := hkind rfl
    cases sized with
    | true => exact .inr (.inl ⟨rfl, .inl rfl⟩)
    | false =>
      cases adapted with
      | true =>
        obtain ⟨-, hrest⟩ := Prod.mk.inj h
        exact .inr (.inl ⟨rfl, .inr ⟨rfl, (Prod.mk.inj hrest).2⟩⟩)
      | false =>
        obtain ⟨hcommand, hrest⟩ := Prod.mk.inj h
        exact .inl ⟨hcommand, rfl, (Prod.mk.inj hrest).2⟩
  | some kind =>
    cases kind' with
    | some kind' =>
      obtain ⟨hcommand, hrest⟩ := Prod.mk.inj h
      exact .inl ⟨hcommand, Prod.mk.inj hrest⟩
    | none =>
      cases sized with
      | true =>
        obtain ⟨hcommand, hrest⟩ := Prod.mk.inj h
        exact .inr (.inr ⟨rfl, hcommand, .inl ⟨rfl, Prod.mk.inj hrest⟩⟩)
      | false =>
        cases adapted with
        | true =>
          obtain ⟨hcommand, hrest⟩ := Prod.mk.inj h
          exact .inr (.inr ⟨rfl, hcommand, .inr (Prod.mk.inj hrest)⟩)
        | false =>
          obtain ⟨-, hrest⟩ := Prod.mk.inj h
          cases (Prod.mk.inj hrest).1

/-! ## Devices that make way -/

/-- Nothing to be done to the device, under another name. -/
def unselect (name : Option String) (r : Record) : Record :=
  { r with device := { r.device with name := name, command := none } }

theorem settleSize_unselect {r : Record} (name : Option String) (hkind : r.device.kind = none)
    (hsize : r.device.settings.has .size = true) : settleSize (unselect name r) = settleSize r := by
  simp [settleSize, unselect, hkind, hsize]

theorem settleAdapter_unselect {d : Draft} (hkind : d.record.device.kind = none)
    (hadapted :
      ({ d.adapter with searchDomains := [], nameServers := [] } : Adapter).isUpdated = true) :
    (d.mapRecord (unselect d.record.device.name)).settleAdapter = d.settleAdapter := by
  simp [settleAdapter, unselect, mapRecord, hkind, hadapted]

/-- Whether the end of the line puts another device in the place of the selected one, whose class is
open.  What is left of that is this name at most. -/
structure IsReplaced (d : Draft) (name : Option String) : Prop where
  kind : d.record.device.kind = none
  cause : d.record.device.settings.has .size = true ∨
    ({ d.adapter with searchDomains := [], nameServers := [] } : Adapter).isUpdated = true ∧
      name = d.record.device.name

/-- **What is to be done to a device that is replaced is not done.** -/
theorem finish_unselect {d : Draft} {name : Option String} (h : d.IsReplaced name) :
    (d.mapRecord (unselect name)).finish = d.finish := by
  obtain ⟨hkind, hcause⟩ := h
  unfold finish
  rw [settleImageFate_mapRecord fun _ _ => rfl]
  cases hd : d.settleImageFate with
  | error u => rfl
  | ok d' =>
    obtain ⟨hdevice, hadapter⟩ := device_settleImageFate hd
    rw [← hdevice] at hkind
    rw [← hdevice, ← hadapter] at hcause
    obtain ⟨r, adapter, fates⟩ := d'
    dsimp only at hkind hcause
    have hdisk : settleDisk r = r := by simp [settleDisk, hkind]
    have hdisk' : settleDisk (unselect name r) = unselect name r := by
      simp [settleDisk, unselect, hkind]
    refine congrArg Except.ok ?_
    simp only [mapRecord, Function.comp_apply, hdisk, hdisk']
    cases hsize : r.device.settings.has .size with
    | true => rw [settleSize_unselect name hkind hsize]
    | false =>
      obtain ⟨hadapted, rfl⟩ := hcause.resolve_left (by simp [hsize])
      have hstays : settleSize r = r := by simp [settleSize, hsize]
      have hstays' : settleSize (unselect r.device.name r) = unselect r.device.name r := by
        simp [settleSize, unselect, hsize]
      rw [hstays, hstays']
      exact settleAdapter_unselect (d := ⟨r, adapter, fates⟩) hkind hadapted

theorem view_unselect_of_ne (name : Option String) (s : Stage) {p : Part} (hp : p ≠ .selection) :
    view (s.1.mapRecord (unselect name), s.2) p = view s p := by
  cases p <;> first | rfl | exact absurd rfl hp

/-- Stages that differ in what is replaced alone come to the same. -/
theorem conclude_eq_of_isReplaced {host : Host} {s t : Stage} {name : Option String}
    (hview : ∀ p, p ≠ .selection → view s p = view t p)
    (hifName : s.1.adapter.ifName = t.1.adapter.ifName) (hs : s.1.IsReplaced name)
    (ht : t.1.IsReplaced name) : conclude host s = conclude host t := by
  have hunselected : view (s.1.mapRecord (unselect name), s.2) =
      view (t.1.mapRecord (unselect name), t.2) := by
    funext p
    by_cases hp : p = .selection
    · subst hp
      show (none, s.1.record.device.kind, name, s.1.adapter.ifName) =
        (none, t.1.record.device.kind, name, t.1.adapter.ifName)
      rw [hs.kind, ht.kind, hifName]
    · rw [view_unselect_of_ne name s hp, view_unselect_of_ne name t hp, hview p hp]
  have hsame : conclude host (s.1.mapRecord (unselect name), s.2) =
      conclude host (t.1.mapRecord (unselect name), t.2) := conclude_congr hunselected
  unfold conclude at hsame ⊢
  rwa [finish_unselect hs, finish_unselect ht] at hsame

section Deletion

variable {host : Host} {s t s' t' : Stage} {m : Match OptionId} {x : Selector × String}
  {target : Option String} {q p p' : Preferences} {r r' : Record}
  {before after : List (Match OptionId)}

/-! ## Lines without a selector -/

/-- Stages that differ in what is selected alone do so after an option as well. -/
theorem view_eq_of_take (hst : ∀ p, p ≠ .selection → view s p = view t p)
    (hs : take host s m = some s') (ht : take host t m = some t') :
    ∀ p, p ≠ .selection → view s' p = view t' p := by
  intro p hp
  by_cases hpart : part? m.id = some p
  · have hid : m.id.selector? = none :=
      selector?_eq_none fun hsel => hp (Option.some.inj (hpart.symm.trans hsel))
    have hown := @take_congr host m s t fun p' hp' => hst p' (ne_selection_of_reads hid hp')
    rw [hs, ht] at hown
    cases hown with
    | some hown => exact hown p hpart
  · rw [view_take_of_ne hs hpart, view_take_of_ne ht hpart, hst p hp]

theorem view_eq_of_takeAll {os : List (Occurrence OptionId)}
    (hst : ∀ p, p ≠ .selection → view s p = view t p) (hs : takeAll host s os = some s')
    (ht : takeAll host t os = some t') : ∀ p, p ≠ .selection → view s' p = view t' p := by
  induction os generalizing s t with
  | nil =>
    cases hs
    cases ht
    exact hst
  | cons o os ih =>
    obtain ⟨s₁, hs₁, hs⟩ := Option.bind_eq_some_iff.1 hs
    obtain ⟨t₁, ht₁, ht⟩ := Option.bind_eq_some_iff.1 ht
    exact ih (view_eq_of_take hst hs₁ ht₁) hs ht

/-- An option that is taken with others is taken where they are halfway. -/
theorem exists_take_of_takeAll
    (h : takeAll host s ((before ++ m :: after).map Match.occurrence) = some s') :
    ∃ s₁ s₂, takeAll host s (before.map Match.occurrence) = some s₁ ∧
      take host s₁ m = some s₂ ∧ takeAll host s₂ (after.map Match.occurrence) = some s' := by
  rw [List.map_append, List.map_cons, takeAll_append] at h
  obtain ⟨s₁, hbefore, h⟩ := Option.bind_eq_some_iff.1 h
  obtain ⟨s₂, htake, hafter⟩ := Option.bind_eq_some_iff.1 h
  rw [take_occurrence] at htake
  exact ⟨s₁, s₂, hbefore, htake, hafter⟩

/-- Nothing is selected before a device is selected to be changed. -/
theorem selections_eq_nil_of_set (hid : m.id = .selector .set)
    (h : takeAll host s ((before ++ m :: after).map Match.occurrence) = some s') :
    before.filterMap Match.selection? = [] := by
  have hpairwise := pairwise_of_takeAll h
  rw [List.pairwise_map, List.pairwise_append] at hpairwise
  obtain ⟨-, -, hexcluded⟩ := hpairwise
  refine List.filterMap_eq_nil_iff.2 fun m' hm' => ?_
  by_contra hsome
  obtain ⟨x, hx⟩ := Option.ne_none_iff_exists'.1 hsome
  have hguard : guard? m.occurrence.id = some .selection := congrArg guard? hid
  have hpart : part? m'.occurrence.id = some .selection :=
    congrArg part? (Match.id_of_selection? hx)
  exact hexcluded m' hm' m (List.mem_cons_self ..) ⟨.selection, hguard, hpart⟩

variable (h : takeAll host (fresh target q) ((before ++ m :: after).map Match.occurrence) = some s)
  (h' : takeAll host (fresh target q) ((before ++ after).map Match.occurrence) = some t)
  (hx : m.selection? = some x)
include h h' hx

/-- Without a selector nothing but what is selected is different. -/
theorem view_eq_of_deletion : ∀ p, p ≠ .selection → view s p = view t p := by
  obtain ⟨s₁, s₂, hbefore, htake, hafter⟩ := exists_take_of_takeAll h
  rw [List.map_append, takeAll_append, hbefore] at h'
  refine view_eq_of_takeAll (fun p hp => view_take_of_ne htake fun hpart => ?_) hafter h'
  rw [Match.id_of_selection? hx] at hpart
  exact hp (Option.some.inj hpart).symm

/-- What is selected with the selector and without it. -/
theorem selections_of_deletion :
    view s .selection = (before.filterMap Match.selection? ++
        x :: after.filterMap Match.selection?).foldl enterSelection (none, none, none, none) ∧
    view t .selection = (before.filterMap Match.selection? ++
        after.filterMap Match.selection?).foldl enterSelection (none, none, none, none) ∧
    ∀ y ∈ before.filterMap Match.selection? ++ x :: after.filterMap Match.selection?,
      (y.1.kind? y.2).isSome = y.1.fixesKind := by
  obtain ⟨hs, hkinds⟩ := view_takeAll_selection h
  obtain ⟨ht, -⟩ := view_takeAll_selection h'
  rw [filterMap_selection?_occurrence, List.filterMap_append, List.filterMap_cons_some hx]
    at hs hkinds
  rw [filterMap_selection?_occurrence, List.filterMap_append] at ht
  exact ⟨hs, ht, hkinds⟩

/-- The class is open if no option tells it. -/
theorem class_of_deletion :
    ((view s .selection).2.1 = none ↔ ∀ m' ∈ before ++ m :: after, m'.kind? = none) ∧
      ((view t .selection).2.1 = none ↔ ∀ m' ∈ before ++ after, m'.kind? = none) := by
  obtain ⟨hwith, hwithout, -⟩ := selections_of_deletion h h' hx
  rw [← List.filterMap_cons_some hx, ← List.filterMap_append] at hwith
  rw [← List.filterMap_append] at hwithout
  rw [hwith, hwithout]
  exact ⟨class_eq_none_iff, class_eq_none_iff⟩

variable (hs : conclude host s = some (r, p)) (ht : conclude host t = some (r', p'))
include hs ht

/-- A selector that is overridden can be left out. -/
theorem record_eq_of_isOverridden
    (ho : Selector.IsOverridden x (before.filterMap Match.selection?)
      (after.filterMap Match.selection?)) : r = r' := by
  obtain ⟨hwith, hwithout, -⟩ := selections_of_deletion h h' hx
  have hview : view s = view t := by
    funext part
    by_cases hpart : part = .selection
    · subst hpart
      rw [hwith, hwithout, foldl_enterSelection_eq_iff.2 ho]
    · exact view_eq_of_deletion h h' hx part hpart
  have hsame : conclude host s = conclude host t := conclude_congr hview
  rw [hs, ht] at hsame
  exact congrArg Prod.fst (Option.some.inj hsame)

/-- **The first disk can be left out beside a size exactly if nothing else goes to the disk.** -/
theorem record_eq_iff_of_firstDisk (hfirst : x = (.set, "hdd0"))
    (halone : ∀ m' ∈ before ++ after, m'.selection? = none)
    (hsize : ∃ m' ∈ before ++ after, m'.id = .device .size) :
    r = r' ↔ ∀ m' ∈ before ++ after, m'.isDiskSetting = false := by
  obtain ⟨hwith, hwithout, -⟩ := selections_of_deletion h h' hx
  rw [← List.filterMap_append, List.filterMap_eq_nil_iff.2 halone] at hwithout
  obtain ⟨hbefore, hafter⟩ := List.forall_mem_append.1 halone
  rw [List.filterMap_eq_nil_iff.2 hbefore, List.filterMap_eq_nil_iff.2 hafter, hfirst] at hwith
  have hview : view s = view (onFirstDisk t) := by
    funext part
    by_cases hpart : part = .selection
    · subst hpart
      rw [hwith]
      exact (view_onFirstDisk_selection (t := fresh target q) hwithout).symm
    · rw [view_eq_of_deletion h h' hx part hpart, view_onFirstDisk_of_ne t hpart]
  have hkind : t.1.record.device.kind = none :=
    congrArg (fun c : Part.selection.Content => c.2.1) hwithout
  have hsized : t.1.record.device.settings.has .size = true := by
    obtain ⟨m', hm', hid⟩ := hsize
    exact (isFilled_of_empty (p := .device .size) h' rfl).2
      ⟨m'.occurrence, List.mem_map_of_mem hm', part?_eq_device.2 hid⟩
  have hmoved : conclude host (onFirstDisk t) =
      (conclude host t).map fun x => (settleDisk x.1, x.2) := conclude_onFirstDisk hkind hsized
  rw [← conclude_congr hview, hs, ht] at hmoved
  have hr : r = settleDisk r' := congrArg Prod.fst (Option.some.inj hmoved)
  rw [hr, settleDisk_eq_self_iff_of_conclude h' hkind hsized ht, List.forall_mem_map]
  simp only [isDiskSetting_occurrence]

/-- The devices of the two lines, and the interfaces of their adapters. -/
theorem settledDevice_of_deletion :
    let sized := (before ++ after).any (·.id == .device .size)
    let adapted := (before ++ after).any (·.id.changesAdapter)
    (r.device.command, r.device.kind, r.device.name) =
        settledDevice sized adapted (view s .selection) ∧
      (r'.device.command, r'.device.kind, r'.device.name) =
        settledDevice sized adapted (view t .selection) ∧
      r.device.adapter.ifName = (view s .selection).2.2.2 ∧
      r'.device.adapter.ifName = (view t .selection).2.2.2 := by
  intro sized adapted
  have hany (f : OptionId → Bool) (ms : List (Match OptionId)) :
      (ms.map Match.occurrence).any (f ·.id) = ms.any (f ·.id) :=
    List.any_map
  have hskip (f : OptionId → Bool) (hf : f (.selector x.1) = false) :
      (before ++ m :: after).any (f ·.id) = (before ++ after).any (f ·.id) := by
    simp [Match.id_of_selection? hx, hf]
  have hwith := device_of_line (Option.bind_eq_some_iff.2 ⟨s, h, hs⟩)
  have hwithout := device_of_line (Option.bind_eq_some_iff.2 ⟨t, h', ht⟩)
  rw [hany (· == .device .size), hany OptionId.changesAdapter] at hwith hwithout
  rw [hskip (· == .device .size) rfl, hskip OptionId.changesAdapter rfl] at hwith
  exact ⟨hwith.trans (congrArg (settledDevice sized adapted) (view_takeAll_selection h).1.symm),
    hwithout.trans (congrArg (settledDevice sized adapted) (view_takeAll_selection h').1.symm),
    changesOnly_conclude hs (.device (.adapter .ifName)) (by decide),
    changesOnly_conclude ht (.device (.adapter .ifName)) (by decide)⟩

/-- If no other selector tells the class of the device, and what a size or a change of an adapter is
for is the selected device, then that is the first disk. -/
theorem isSpare_of_class (hr : r = r') (hclass : (view t .selection).2.1 = none)
    (hset : (view s .selection).1 = some .set)
    (hdevice : (∃ m' ∈ before ++ after, m'.id = .device .size) ∧
        (view s .selection).2.1 = some .hdd ∧ (view s .selection).2.2.1 = some "hdd0" ∨
      (view s .selection).2.1 = some .net ∧
        (view s .selection).2.2.1 = (view t .selection).2.2.1) : m.IsSpare before after := by
  obtain ⟨hwith, hwithout, hfixes⟩ := selections_of_deletion h h' hx
  obtain ⟨-, -, hifName, hifName'⟩ := settledDevice_of_deletion h h' hx hs ht
  generalize hB : before.filterMap Match.selection? = B at hwith hwithout hfixes
  generalize hA : after.filterMap Match.selection? = A at hwith hwithout hfixes
  obtain ⟨k, value⟩ := x
  -- The other selectors leave the class open, so that none behind this one counts.
  have hopen : ∀ y ∈ B ++ A, y.1.command ≠ .set :=
    command_ne_set_of_class (fun y hy => hfixes y
      (((List.sublist_cons_self (k, value) A).append_left B).subset hy)) (hwithout ▸ hclass)
  obtain rfl : A = [] :=
    eq_nil_of_command_ne_set (fun y hy => hopen y (List.mem_append_right B hy)) (hwith ▸ hset)
  rw [List.append_nil] at hwithout
  rw [List.foldl_append, ← hwithout] at hwith
  change view s .selection = enterSelection (view t .selection) (k, value) at hwith
  rw [hwith] at hset hdevice
  have hcommand : k.command = .set := Option.some.inj hset
  obtain ⟨n, hn⟩ := Selector.exists_deviceName?_of_set hcommand value
  have hkind : (enterSelection (view t .selection) (k, value)).2.1 = k.kind? value := by
    show (k.kind? value).or (view t .selection).2.1 = _
    rw [hclass, Option.or_none]
  have hname : (enterSelection (view t .selection) (k, value)).2.2.1 = some n := by
    show (k.deviceName? value).or (view t .selection).2.2.1 = _
    rw [hn, Option.some_or]
  -- Nothing may be selected before a device that is to be changed.
  have hfront (hk : k = .set) : before.filterMap Match.selection? = [] := by
    subst hk
    exact selections_eq_nil_of_set (Match.id_of_selection? hx) h
  rw [hkind, hname] at hdevice
  rcases hdevice with ⟨hsize, hhdd, hfirst⟩ | ⟨hnet, hsame⟩
  · obtain ⟨rfl, rfl⟩ := Selector.eq_firstDisk hcommand hhdd (hn.trans hfirst)
    have halone : ∀ m' ∈ before ++ after, m'.selection? = none :=
      List.forall_mem_append.2 ⟨List.filterMap_eq_nil_iff.1 (hfront rfl),
        List.filterMap_eq_nil_iff.1 hA⟩
    exact .firstDisk hx halone hsize
      ((record_eq_iff_of_firstDisk h h' hx hs ht rfl halone hsize).1 hr)
  · cases k with
    | set =>
      obtain rfl : B = [] := hB.symm.trans (hfront rfl)
      rw [hwithout] at hsame
      cases hsame
    | setAdapter =>
      rw [← hr, hifName, hwith, hwithout] at hifName'
      have hnone := ifName_foldl_enterSelection (c := (none, none, none, none)) (fun _ => rfl) B
        (hwithout ▸ hclass)
      rw [hnone] at hifName'
      cases hifName'
    | _ => cases hcommand

/-- A selected device that makes way can be left out. -/
theorem record_eq_of_makesWay (hm : m.MakesWay before after) : r = r' := by
  obtain ⟨hwith, hwithout, -⟩ := selections_of_deletion h h' hx
  obtain ⟨hclass, hclass'⟩ := class_of_deletion h h' hx
  have hothers {m' : Match OptionId} (hm' : m' ∈ before ++ after) : m' ∈ before ++ m :: after :=
    ((List.sublist_cons_self m after).append_left before).subset hm'
  have hopen : ∀ m' ∈ before ++ m :: after, m'.kind? = none := by
    rcases hm with ⟨-, hkind, -⟩ | ⟨-, hkind, -, -⟩ <;> exact hkind
  have hkind : s.1.record.device.kind = none := hclass.2 hopen
  have hkind' : t.1.record.device.kind = none := hclass'.2 fun m' hm' => hopen m' (hothers hm')
  have hifName : s.1.adapter.ifName = none := by
    show (view s .selection).2.2.2 = none
    rw [hwith]
    exact ifName_foldl_enterSelection (c := (none, none, none, none)) (fun _ => rfl) _
      (hwith ▸ hkind)
  have hifName' : t.1.adapter.ifName = none := by
    show (view t .selection).2.2.2 = none
    rw [hwithout]
    exact ifName_foldl_enterSelection (c := (none, none, none, none)) (fun _ => rfl) _
      (hwithout ▸ hkind')
  have hreplaced : ∃ name, s.1.IsReplaced name ∧ t.1.IsReplaced name := by
    rcases hm with ⟨-, -, m', hm', hid⟩ | ⟨hx', -, ⟨m', hm', hchange⟩, hname⟩
    · refine ⟨none, ⟨hkind, .inl ?_⟩, ⟨hkind', .inl ?_⟩⟩
      · rw [has_size_of_takeAll h, List.any_map]
        exact List.any_eq_true.2 ⟨m', hothers hm', beq_iff_eq.2 hid⟩
      · rw [has_size_of_takeAll h', List.any_map]
        exact List.any_eq_true.2 ⟨m', hm', beq_iff_eq.2 hid⟩
    · obtain rfl := Option.some.inj (hx.symm.trans hx')
      have hsame : t.1.record.device.name = s.1.record.device.name := by
        show (view t .selection).2.2.1 = (view s .selection).2.2.1
        rw [hwith, hwithout]
        exact ((said_eq_iff_addsNothing (f := fun c => c.2.2.1) rfl fun _ _ => rfl).2 hname).symm
      refine ⟨t.1.record.device.name, ⟨hkind, .inr ⟨?_, hsame⟩⟩, ⟨hkind', .inr ⟨?_, rfl⟩⟩⟩
      · rw [isUpdated_of_takeAll h hkind, List.any_map]
        exact List.any_eq_true.2 ⟨m', hothers hm', hchange⟩
      · rw [isUpdated_of_takeAll h' hkind', List.any_map]
        exact List.any_eq_true.2 ⟨m', hm', hchange⟩
  obtain ⟨name, hwith', hwithout'⟩ := hreplaced
  have hsame : conclude host s = conclude host t :=
    conclude_eq_of_isReplaced (view_eq_of_deletion h h' hx) (hifName.trans hifName'.symm) hwith'
      hwithout'
  rw [hs, ht] at hsame
  exact congrArg Prod.fst (Option.some.inj hsame)

/-- **Which selectors can be left out**: those that add nothing to the rest of the line, and those
of a device that makes way. -/
theorem record_eq_iff : r = r' ↔ m.IsSpare before after ∨ m.MakesWay before after := by
  obtain ⟨hwith, hwithout, -⟩ := selections_of_deletion h h' hx
  obtain ⟨hopen, hopen'⟩ := class_of_deletion h h' hx
  constructor
  · intro hr
    obtain ⟨hsettled, hsettled', hifName, hifName'⟩ := settledDevice_of_deletion h h' hx hs ht
    rw [← hr] at hsettled' hifName'
    have hkind (hnone : (view s .selection).2.1 = none) : (view t .selection).2.1 = none :=
      hopen'.2 fun m' hm' =>
        hopen.1 hnone m' (((List.sublist_cons_self m after).append_left before).subset hm')
    have hsize (hsized : (before ++ after).any (·.id == .device .size) = true) :
        ∃ m' ∈ before ++ after, m'.id = .device .size := by
      obtain ⟨m', hm', hid⟩ := List.any_eq_true.1 hsized
      exact ⟨m', hm', beq_iff_eq.1 hid⟩
    rcases settledDevice_eq_cases hkind (hsettled.symm.trans hsettled')
      with ⟨hcommand, hclass, hname⟩ | ⟨hclass, hgone⟩ | ⟨hclass, hset, hdevice⟩
    · refine .inl (.overridden hx (foldl_enterSelection_eq_iff.1 ?_))
      rw [← hwith, ← hwithout]
      exact Prod.ext hcommand (Prod.ext hclass (Prod.ext hname (hifName.symm.trans hifName')))
    · rcases hgone with hsized | ⟨hadapted, hname⟩
      · exact .inr (.size hx (hopen.1 hclass) (hsize hsized))
      · refine .inr (.adapter hx (hopen.1 hclass) (List.any_eq_true.1 hadapted) ?_)
        rw [hwith, hwithout] at hname
        exact (said_eq_iff_addsNothing (f := fun c => c.2.2.1) rfl fun _ _ => rfl).1 hname
    · refine .inl (isSpare_of_class h h' hx hs ht hr hclass hset ?_)
      exact hdevice.imp_left fun ⟨hsized, hdisk⟩ => ⟨hsize hsized, hdisk⟩
  · rintro ((⟨hx', ho⟩ | ⟨hx', halone, hsize, hsettings⟩) | hm)
    · obtain rfl := Option.some.inj (hx.symm.trans hx')
      exact record_eq_of_isOverridden h h' hx hs ht ho
    · exact (record_eq_iff_of_firstDisk h h' hx hs ht (Option.some.inj (hx.symm.trans hx')) halone
        hsize).2 hsettings
    · exact record_eq_of_makesWay h h' hx hs ht hm

end Deletion

end Draft

end VmControl
