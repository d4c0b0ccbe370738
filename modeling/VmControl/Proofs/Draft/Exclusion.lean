import Mathlib.Data.List.Pairwise
import VmControl.Proofs.Draft.Selection

/-!
# Options that exclude each other

Some options of a line that changes a guest exclude each other wherever they stand.  Most of them
are told from what has been read when the second one comes, a few at the end of the line.  The first
kind of check looks at one part of the draft only, and whatever is entered in that part excludes the
option.  So nothing between the two makes up for the first one.

## Main definitions

* `Draft.guard?`: the part that keeps an option from being taken if it is filled.
* `Draft.Excludes`: whether an option excludes another one after it.
* `Clash`: whether options of a line exclude each other.

## Main statements

* `Draft.conflict?_mono`: what excludes an option is not undone.
* `Draft.pairwise_of_takeAll`: of the options that are taken none excludes a later one.
* `clash_is_refused`: a line with options that exclude each other is turned down.
-/

namespace VmControl

open Options

/-- Whether an option attaches or detaches a backup. -/
def OptionId.isBackup : OptionId → Bool
  | .backupAdd => true
  | .backupDelete => true
  | _ => false

/-- Whether an option selects a device that is new, or one to be changed. -/
def OptionId.isAddOrSet : OptionId → Bool
  | .selector .add => true
  | .selector .set => true
  | _ => false

namespace Draft

variable {host : Host} {s s' : Stage} {m : Match OptionId} {id : OptionId}

/-! ## What keeps an option from being taken -/

/-- The part that keeps an option from being taken, once anything is entered there. -/
def guard? : OptionId → Option Part
  | .selector .add => some .selection
  | .selector .set => some .selection
  | .device (.mark k) => (opposite? k).map fun j => .device (.mark j)
  | .backupAdd => some .attachment
  | .backupDelete => some .attachment
  | _ => none

/-- Whether an option of meaning `a` excludes one of meaning `b` after it, whatever their values. -/
def Excludes (a b : OptionId) : Prop := ∃ p, guard? b = some p ∧ part? a = some p

theorem isBackup_of_part? (h : part? id = some .attachment) :
    id = .backupAdd ∨ id = .backupDelete := by
  cases id <;> first | exact .inl rfl | exact .inr rfl | cases h

theorem eq_mark_of_part? {k : DeviceMark} (h : part? id = some (.device (.mark k))) :
    id = .device (.mark k) := by
  cases id <;> cases h
  rfl

/-- An option that is taken excludes others from then on. -/
theorem conflict?_of_take (h : take host s m = some s') (he : Excludes m.id id) :
    (s'.1.conflict? id).isSome := by
  obtain ⟨p, hguard, hpart⟩ := he
  cases id with
  | selector k =>
    cases k <;> cases hguard
    all_goals
      obtain ⟨k, hk⟩ := exists_selector hpart
      have hcommand : s'.1.record.device.command = some k.command :=
        congrArg Prod.fst (take_selector hk h).2
      simp [conflict?, hcommand]
  | device k =>
    cases k with
    | mark k =>
      obtain ⟨j, hj, rfl⟩ := Option.map_eq_some_iff.1 hguard
      have hset := has_of_take (eq_mark_of_part? hpart) h
      cases k <;> cases hj <;> simp [conflict?, hset]
    | _ => cases hguard
  | backupAdd | backupDelete =>
    cases hguard
    have hset := backupCommand_of_take (isBackup_of_part? hpart) h
    simp [conflict?, hset]
  | _ => cases hguard

/-- Apart from two texts that are compared, an option is excluded by what its guard holds. -/
theorem conflict?_congr_guard {s t : Stage} (hid : ∀ k, id ≠ .device (.text k))
    (h : ∀ p, guard? id = some p → view s p = view t p) :
    s.1.conflict? id = t.1.conflict? id := by
  cases id with
  | selector k =>
    cases k <;> try rfl
    all_goals
      have hcommand : s.1.record.device.command = t.1.record.device.command :=
        congrArg Prod.fst (h .selection rfl)
      simp only [conflict?, hcommand]
  | device k =>
    cases k with
    | text k => exact absurd rfl (hid k)
    | mark k =>
      cases k <;> try rfl
      all_goals simp only [conflict?, has_congr (h (.device (.mark _)) rfl)]
    | _ => rfl
  | backupAdd | backupDelete =>
    have hcommand : s.1.record.backupCommand = t.1.record.backupCommand :=
      congrArg Prod.fst (h .attachment rfl)
    simp only [conflict?, hcommand]
  | _ => rfl

/-- **What excludes an option is not undone.**  The next option either leaves the guard alone or
enters something there, which excludes the option just as well. -/
theorem conflict?_mono (hid : ∀ k, id ≠ .device (.text k)) (h : take host s m = some s')
    (hc : (s.1.conflict? id).isSome) : (s'.1.conflict? id).isSome := by
  by_cases he : Excludes m.id id
  · exact conflict?_of_take h he
  · have hsame : s'.1.conflict? id = s.1.conflict? id :=
      conflict?_congr_guard hid fun p hp => view_take_of_ne h fun hpart => he ⟨p, hp, hpart⟩
    rw [hsame]
    exact hc

theorem conflict?_takeAll_mono {os : List (Occurrence OptionId)}
    (hid : ∀ k, id ≠ .device (.text k)) (h : takeAll host s os = some s')
    (hc : (s.1.conflict? id).isSome) : (s'.1.conflict? id).isSome := by
  induction os generalizing s with
  | nil => cases h; exact hc
  | cons o os ih =>
    obtain ⟨s₁, htake, hrest⟩ := Option.bind_eq_some_iff.1 h
    exact ih hrest (conflict?_mono hid htake hc)

theorem ne_text_of_excludes {a : OptionId} (h : Excludes a id) (k : DeviceText) :
    id ≠ .device (.text k) := by
  rintro rfl
  obtain ⟨p, hguard, -⟩ := h
  cases hguard

/-- What an option of the line excludes is excluded after the line. -/
theorem conflict?_of_mem {os : List (Occurrence OptionId)} {o : Occurrence OptionId}
    (h : takeAll host s os = some s') (ho : o ∈ os) (he : Excludes o.id id) :
    (s'.1.conflict? id).isSome := by
  induction os generalizing s with
  | nil => cases ho
  | cons o' os ih =>
    obtain ⟨s₁, htake, hrest⟩ := Option.bind_eq_some_iff.1 h
    rcases List.mem_cons.1 ho with rfl | ho
    · exact conflict?_takeAll_mono (ne_text_of_excludes he) hrest (conflict?_of_take htake he)
    · exact ih hrest ho

/-- An option that is excluded does not come later on a line that is taken. -/
theorem id_ne_of_conflict {os : List (Occurrence OptionId)} (hid : ∀ k, id ≠ .device (.text k))
    (h : takeAll host s os = some s') (hc : (s.1.conflict? id).isSome) :
    ∀ o ∈ os, o.id ≠ id := by
  induction os generalizing s with
  | nil => exact fun o ho => nomatch ho
  | cons o os ih =>
    obtain ⟨s₁, htake, hrest⟩ := Option.bind_eq_some_iff.1 h
    refine List.forall_mem_cons.2 ⟨?_, ih hrest (conflict?_mono hid htake hc)⟩
    rintro rfl
    rw [take_eq_none_of_conflict (m := o.toMatch) hc] at htake
    cases htake

/-- **Of the options that are taken none excludes a later one.** -/
theorem pairwise_of_takeAll {os : List (Occurrence OptionId)} (h : takeAll host s os = some s') :
    os.Pairwise fun o o' => ¬ Excludes o.id o'.id := by
  induction os generalizing s with
  | nil => exact .nil
  | cons o os ih =>
    obtain ⟨s₁, htake, hrest⟩ := Option.bind_eq_some_iff.1 h
    refine List.pairwise_cons.2 ⟨fun o' ho' he => ?_, ih hrest⟩
    exact id_ne_of_conflict (ne_text_of_excludes he) hrest (conflict?_of_take htake he) o' ho' rfl

/-- Of two different options that are taken at most one excludes the other. -/
theorem not_excludes_of_takeAll {os : List (Occurrence OptionId)} {o o' : Occurrence OptionId}
    (h : takeAll host s os = some s') (ho : o ∈ os) (ho' : o' ∈ os) (hne : o ≠ o') :
    ¬ Excludes o.id o'.id ∨ ¬ Excludes o'.id o.id := by
  have hpairwise : os.Pairwise fun o o' => ¬ Excludes o.id o'.id ∨ ¬ Excludes o'.id o.id :=
    (pairwise_of_takeAll h).imp Or.inl
  have : Std.Symm fun o o' : Occurrence OptionId =>
      ¬ Excludes o.id o'.id ∨ ¬ Excludes o'.id o.id := ⟨fun _ _ => Or.symm⟩
  exact hpairwise.forall ho ho' hne

/-- Of options that exclude each other at most one is taken. -/
theorem countP_le_one_of_takeAll {os : List (Occurrence OptionId)} {f : OptionId → Bool}
    (h : takeAll host s os = some s') (hf : ∀ a b, f a = true → f b = true → Excludes a b) :
    os.countP (f ·.id) ≤ 1 := by
  have hpairwise := (pairwise_of_takeAll h).filter (f ·.id)
  rw [List.countP_eq_length_filter]
  have hmem (o : Occurrence OptionId) (ho : o ∈ os.filter (f ·.id)) : f o.id = true :=
    (List.mem_filter.1 ho).2
  generalize os.filter (f ·.id) = kept at hpairwise hmem ⊢
  rcases kept with _ | ⟨a, _ | ⟨b, kept⟩⟩
  · exact Nat.zero_le 1
  · exact Nat.le_refl 1
  · have hne : ¬ Excludes a.id b.id := (List.pairwise_cons.1 hpairwise).1 b (List.mem_cons_self ..)
    exact absurd (hf _ _ (hmem a (by simp)) (hmem b (by simp))) hne

/-! ## Texts that exclude each other -/

/-- The text of a device that a text excludes, unless it is empty. -/
def rival? : DeviceText → Option DeviceText
  | .device => some .image
  | .image => some .device
  | _ => none

theorem rival?_symm {j k : DeviceText} (h : rival? j = some k) : rival? k = some j := by
  cases j <;> cases h <;> rfl

theorem hasText_of_take {j k : DeviceText} (hid : m.id = .device (.text j))
    (hjk : rival? j = some k) (hne : m.text ≠ "") (h : take host s m = some s') :
    s'.1.record.device.hasText j = true := by
  obtain ⟨v, hv, hget⟩ := deviceSetting_of_take h hid
  have hv : v = m.text := by
    cases j <;> cases hjk <;> exact (Except.ok.inj hv).symm
  simp [Device.hasText, Device.text?, hget, hv, hne]

theorem takeAll_append (s : Stage) (os os' : List (Occurrence OptionId)) :
    takeAll host s (os ++ os') = (takeAll host s os).bind (takeAll host · os') := by
  induction os generalizing s with
  | nil => rfl
  | cons o os ih => simp only [List.cons_append, takeAll, ih, Option.bind_assoc]

/-- A part stays as it is while no option is for it. -/
theorem view_takeAll_of_ne {os : List (Occurrence OptionId)} {p : Part}
    (h : takeAll host s os = some s') (hp : ∀ o ∈ os, part? o.id ≠ some p) :
    view s' p = view s p := by
  induction os generalizing s with
  | nil => cases h; rfl
  | cons o os ih =>
    obtain ⟨s₁, htake, hrest⟩ := Option.bind_eq_some_iff.1 h
    obtain ⟨ho, hos⟩ := List.forall_mem_cons.1 hp
    exact (ih hrest hos).trans (view_take_of_ne htake ho)

/-- A text that is not empty keeps its rival from being taken, as long as it is not replaced. -/
theorem takeAll_eq_none_of_rival {before between after : List (Occurrence OptionId)}
    {o o' : Occurrence OptionId} {j k : DeviceText} (hjk : rival? j = some k)
    (ho : o.id = .device (.text j)) (ho' : o'.id = .device (.text k)) (hne : o.toMatch.text ≠ "")
    (hkept : ∀ b ∈ between, b.id ≠ .device (.text j)) (s : Stage) :
    takeAll host s (before ++ o :: (between ++ o' :: after)) = none := by
  rw [Option.eq_none_iff_forall_ne_some]
  intro s' h
  rw [takeAll_append] at h
  obtain ⟨s₁, -, h⟩ := Option.bind_eq_some_iff.1 h
  obtain ⟨s₂, htext, h⟩ := Option.bind_eq_some_iff.1 h
  rw [takeAll_append] at h
  obtain ⟨s₃, hbetween, h⟩ := Option.bind_eq_some_iff.1 h
  obtain ⟨s₄, htake, -⟩ := Option.bind_eq_some_iff.1 h
  have hset : s₃.1.record.device.hasText j = true := by
    rw [hasText_congr (view_takeAll_of_ne hbetween fun b hb hpart =>
      hkept b hb (part?_eq_device.1 hpart))]
    exact hasText_of_take ho hjk hne htext
  have hconflict : (s₃.1.conflict? o'.toMatch.id).isSome := by
    rw [show o'.toMatch.id = .device (.text k) from ho']
    cases j <;> cases hjk <;> simp [conflict?, hset]
  rw [take_eq_none_of_conflict hconflict] at htake
  cases htake

theorem mem_of_filter_id {os : List (Occurrence OptionId)} {o : Occurrence OptionId}
    (h : os.filter (·.id = id) = [o]) : o ∈ os ∧ o.id = id := by
  have ho : o ∈ os.filter (·.id = id) := h ▸ List.mem_singleton_self o
  obtain ⟨hmem, hid⟩ := List.mem_filter.1 ho
  exact ⟨hmem, of_decide_eq_true hid⟩

theorem filter_between {α : Type} {p : α → Bool} {before after : List α} {a : α} (ha : p a = true)
    (h : (before ++ a :: after).filter p = [a]) : before.filter p = [] ∧ after.filter p = [] := by
  rw [List.filter_append, List.filter_cons_of_pos ha] at h
  have hlength := congrArg List.length h
  simp only [List.length_append, List.length_cons, List.length_nil] at hlength
  exact ⟨List.length_eq_zero_iff.1 (by omega), List.length_eq_zero_iff.1 (by omega)⟩

/-- A device and an image that are each given once are not both taken. -/
theorem takeAll_eq_none_of_image {os : List (Occurrence OptionId)} {o o' : Occurrence OptionId}
    (hdevice : os.filter (·.id = .device (.text .device)) = [o])
    (himage : os.filter (·.id = .device (.text .image)) = [o'])
    (hne : o.toMatch.text ≠ "") (hne' : o'.toMatch.text ≠ "") (s : Stage) :
    takeAll host s os = none := by
  have ho := mem_of_filter_id hdevice
  have ho' := mem_of_filter_id himage
  obtain ⟨before, after, rfl⟩ := List.append_of_mem ho.1
  obtain ⟨hbefore, hafter⟩ := filter_between (by simpa using ho.2) hdevice
  rcases List.mem_append.1 ho'.1 with hmem | hmem
  · obtain ⟨first, between, rfl⟩ := List.append_of_mem hmem
    rw [List.append_assoc, List.cons_append] at himage ⊢
    have hkept := (filter_between (by simpa using ho'.2) himage).2
    rw [List.filter_eq_nil_iff] at hkept
    exact takeAll_eq_none_of_rival rfl ho'.2 ho.2 hne'
      (fun b hb hid => hkept b (List.mem_append_left _ hb) (by simpa using hid)) s
  · rcases List.mem_cons.1 hmem with rfl | hmem
    · exact absurd (ho.2.symm.trans ho'.2) (by decide)
    · obtain ⟨between, last, rfl⟩ := List.append_of_mem hmem
      rw [List.filter_eq_nil_iff] at hafter
      exact takeAll_eq_none_of_rival rfl ho.2 ho'.2 hne
        (fun b hb hid => hafter b (List.mem_append_left _ hb) (by simpa using hid)) s

/-! ## What is told at the end of the line -/

theorem mem_imageFates_of_take {f : ImageFate} (h : take host s m = some s')
    (hf : m.id = .imageFate f ∨ f ∈ s.1.imageFates) : f ∈ s'.1.imageFates := by
  by_cases hp : part? m.id = some .imageFates
  · obtain ⟨g, hg⟩ := mem_imageFates (mem_writers hp)
    obtain ⟨d, q⟩ := s
    simp only [take, hg, conflict?, applyPure, Option.isSome_none, Bool.false_eq_true, if_false,
      Except.toOption, Option.map_some, Option.some.injEq] at h
    subst h
    rw [hg] at hf
    simpa [or_comm, eq_comm] using hf
  · have hview : (s'.1.imageFates : Multiset ImageFate) = s.1.imageFates := view_take_of_ne h hp
    rw [(Multiset.coe_eq_coe.1 hview).mem_iff]
    exact hf.resolve_left fun hid => hp (by rw [hid]; rfl)

/-- The fates of images that were told are all remembered. -/
theorem mem_imageFates_of_takeAll {os : List (Occurrence OptionId)} {f : ImageFate}
    (h : takeAll host s os = some s')
    (hf : (∃ o ∈ os, o.id = .imageFate f) ∨ f ∈ s.1.imageFates) : f ∈ s'.1.imageFates := by
  induction os generalizing s with
  | nil =>
    cases h
    exact hf.resolve_left fun ⟨_, ho, _⟩ => nomatch ho
  | cons o os ih =>
    obtain ⟨s₁, htake, hrest⟩ := Option.bind_eq_some_iff.1 h
    refine ih hrest ?_
    rcases hf with ⟨o', ho', hid⟩ | hf
    · rcases List.mem_cons.1 ho' with rfl | ho'
      · exact .inr (mem_imageFates_of_take htake (.inl hid))
      · exact .inl ⟨o', ho', hid⟩
    · exact .inr (mem_imageFates_of_take htake (.inr hf))

/-- Different fates of images turn the line down at its end. -/
theorem finish_ne_ok_of_fates {d : Draft} {f g : ImageFate} (hfg : f ≠ g) (hf : f ∈ d.imageFates)
    (hg : g ∈ d.imageFates) (r : Record) : d.finish ≠ .ok r := by
  intro h
  obtain ⟨d', hd, -⟩ := bind_eq_ok.1 h
  unfold settleImageFate at hd
  split at hd
  · next hnone =>
    rw [hnone] at hf
    cases hf
  · next fate fates hfates =>
    rw [hfates] at hf hg
    split at hd
    · cases hd
    · next hany =>
      exact hfg (any_ne_eq_false_iff.1 (by simpa using hany) f hf g hg)

/-- A backup besides a device turns the line down at its end. -/
theorem conclude_eq_none_of_backup (hbackup : s.1.record.backupCommand.isSome)
    (hdevice : s.1.record.device.command.isSome) (host : Host) : conclude host s = none := by
  rw [Option.eq_none_iff_forall_ne_some]
  rintro ⟨r', q⟩ h
  obtain ⟨r, hfinish, hconsistent⟩ := exists_of_conclude h
  have hbackup' : r.backupCommand.isSome := by
    obtain ⟨settings, device, fate, domains, servers, rfl⟩ := exists_of_finish hfinish
    exact hbackup
  have hdevice' : r.device.command.isSome := by
    have hcommand := congrArg Prod.fst (selection_of_finish hfinish)
    dsimp only at hcommand
    rw [hcommand]
    split
    · exact hdevice
    · split
      · rfl
      · split
        · rfl
        · exact hdevice
  have hcommand : r'.device.command = r.device.command :=
    congrArg Prod.fst (selection_of_consistent hconsistent)
  have hkept := (Record.rules_of_consistent hconsistent).2
    ⟨.backupWithDevice, r'.backupCommand.isSome && r'.device.command.isSome⟩
    (by simp [Record.lateRules, Record.backupRules])
  simp [Record.backupCommand_of_consistent hconsistent, hcommand, hbackup', hdevice'] at hkept

end Draft

/-! ## Lines with options that exclude each other -/

/-- Whether options exclude each other, in whatever order they come and whatever else is between
them. -/
inductive Clash (ms : List (Match OptionId)) : Prop where
  /-- A device is enabled and disabled. -/
  | enabled (h : ∃ m ∈ ms, m.id = .device (.mark .enable))
      (h' : ∃ m ∈ ms, m.id = .device (.mark .disable))
  /-- A device is connected and disconnected. -/
  | connected (h : ∃ m ∈ ms, m.id = .device (.mark .connect))
      (h' : ∃ m ∈ ms, m.id = .device (.mark .disconnect))
  /-- Two devices are added or set. -/
  | devices (h : 2 ≤ ms.countP (·.id.isAddOrSet))
  /-- Two backups are attached or detached. -/
  | backups (h : 2 ≤ ms.countP (·.id.isBackup))
  /-- Images of removed disks have two fates. -/
  | fates {f g : ImageFate} (hne : f ≠ g) (h : ∃ m ∈ ms, m.id = .imageFate f)
      (h' : ∃ m ∈ ms, m.id = .imageFate g)
  /-- One host device and one image are given, and neither is empty. -/
  | image {m m' : Match OptionId} (h : ms.filter (·.id = .device (.text .device)) = [m])
      (h' : ms.filter (·.id = .device (.text .image)) = [m']) (hne : m.text ≠ "")
      (hne' : m'.text ≠ "")
  /-- A backup is attached or detached, and a device is selected. -/
  | backupWithDevice (h : ∃ m ∈ ms, m.id.isBackup = true)
      (h' : ∃ m ∈ ms, ∃ k, m.id = .selector k)

namespace Draft

variable {host : Host} {s s' : Stage}

theorem part?_of_isAddOrSet {id : OptionId} (h : id.isAddOrSet = true) :
    part? id = some .selection ∧ guard? id = some .selection := by
  cases id with
  | selector k => cases k <;> first | exact ⟨rfl, rfl⟩ | cases h
  | _ => cases h

theorem part?_of_isBackup {id : OptionId} (h : id.isBackup = true) :
    part? id = some .attachment ∧ guard? id = some .attachment := by
  cases id <;> first | exact ⟨rfl, rfl⟩ | cases h

theorem excludes_of_isAddOrSet {a b : OptionId} (ha : a.isAddOrSet = true)
    (hb : b.isAddOrSet = true) : Excludes a b :=
  ⟨.selection, (part?_of_isAddOrSet hb).2, (part?_of_isAddOrSet ha).1⟩

theorem excludes_of_isBackup {a b : OptionId} (ha : a.isBackup = true) (hb : b.isBackup = true) :
    Excludes a b :=
  ⟨.attachment, (part?_of_isBackup hb).2, (part?_of_isBackup ha).1⟩

/-- A mark and its opposite are not both taken. -/
theorem takeAll_eq_none_of_opposite {os : List (Occurrence OptionId)} {o o' : Occurrence OptionId}
    {j k : DeviceMark} (hjk : opposite? j = some k) (ho : o ∈ os) (ho' : o' ∈ os)
    (hid : o.id = .device (.mark j)) (hid' : o'.id = .device (.mark k)) (s : Stage) :
    takeAll host s os = none := by
  rw [Option.eq_none_iff_forall_ne_some]
  intro s' h
  have hkj := opposite?_symm hjk
  have hne : o ≠ o' := by
    rintro rfl
    obtain rfl : j = k := by
      rw [hid] at hid'
      cases hid'
      rfl
    cases j <;> cases hjk
  rcases not_excludes_of_takeAll h ho ho' hne with hnot | hnot
  · exact hnot ⟨.device (.mark j), by simp [hid', guard?, hkj], by rw [hid]; rfl⟩
  · exact hnot ⟨.device (.mark k), by simp [hid, guard?, hjk], by rw [hid']; rfl⟩

/-- Options that exclude each other come to nothing. -/
theorem eq_none_of_clash {ms : List (Match OptionId)} (h : Clash ms) (host : Host) (s : Stage) :
    (takeAll host s (ms.map Match.occurrence)).bind (conclude host) = none := by
  have hmem {m : Match OptionId} (hm : m ∈ ms) : m.occurrence ∈ ms.map Match.occurrence :=
    List.mem_map_of_mem hm
  have hcount (f : OptionId → Bool) :
      (ms.map Match.occurrence).countP (f ·.id) = ms.countP (f ·.id) := List.countP_map ..
  rw [Option.eq_none_iff_forall_ne_some]
  intro b hb
  obtain ⟨s', htake, hconclude⟩ := Option.bind_eq_some_iff.1 hb
  cases h with
  | enabled h h' =>
    obtain ⟨m, hm, hid⟩ := h
    obtain ⟨m', hm', hid'⟩ := h'
    rw [takeAll_eq_none_of_opposite rfl (hmem hm) (hmem hm') hid hid'] at htake
    cases htake
  | connected h h' =>
    obtain ⟨m, hm, hid⟩ := h
    obtain ⟨m', hm', hid'⟩ := h'
    rw [takeAll_eq_none_of_opposite rfl (hmem hm) (hmem hm') hid hid'] at htake
    cases htake
  | devices h =>
    have hone := countP_le_one_of_takeAll htake fun _ _ => excludes_of_isAddOrSet
    rw [hcount] at hone
    omega
  | backups h =>
    have hone := countP_le_one_of_takeAll htake fun _ _ => excludes_of_isBackup
    rw [hcount] at hone
    omega
  | @fates f g hne h h' =>
    obtain ⟨m, hm, hid⟩ := h
    obtain ⟨m', hm', hid'⟩ := h'
    have hf := mem_imageFates_of_takeAll htake (.inl ⟨_, hmem hm, hid⟩)
    have hg := mem_imageFates_of_takeAll htake (.inl ⟨_, hmem hm', hid'⟩)
    obtain ⟨r, hfinish, -⟩ := exists_of_conclude hconclude
    exact finish_ne_ok_of_fates hne hf hg r hfinish
  | @image m m' h h' hne hne' =>
    have honly {k : OptionId} {m : Match OptionId} (hm : ms.filter (·.id = k) = [m]) :
        (ms.map Match.occurrence).filter (·.id = k) = [m.occurrence] := by
      rw [List.filter_map]
      exact congrArg (List.map Match.occurrence) hm
    rw [takeAll_eq_none_of_image (honly h) (honly h') (by rwa [m.toMatch_occurrence_text])
      (by rwa [m'.toMatch_occurrence_text])] at htake
    cases htake
  | backupWithDevice h h' =>
    obtain ⟨m, hm, hbackup⟩ := h
    obtain ⟨m', hm', k, hid⟩ := h'
    have hattached : s'.1.record.backupCommand.isSome := by
      have hconflict : (s'.1.conflict? .backupAdd).isSome :=
        conflict?_of_mem htake (hmem hm) ⟨.attachment, rfl, (part?_of_isBackup hbackup).1⟩
      simp only [conflict?] at hconflict
      split at hconflict
      · assumption
      · cases hconflict
    have hselected : s'.1.record.device.command.isSome := by
      have hpart : part? m'.occurrence.id = some .selection := by
        show part? m'.id = _
        rw [hid]
        rfl
      have hconflict : (s'.1.conflict? (.selector .add)).isSome :=
        conflict?_of_mem htake (hmem hm') ⟨.selection, rfl, hpart⟩
      simp only [conflict?] at hconflict
      split at hconflict
      · assumption
      · cases hconflict
    rw [conclude_eq_none_of_backup hattached hselected] at hconclude
    cases hconclude

end Draft

/-- **A line that changes a guest is turned down if its options exclude each other**, in whatever
order they come and whatever else is on the line. -/
theorem clash_is_refused {table : CommandTable} {offset : Nat} {args : List String}
    (h : Clash (table.read args (offset + 1)).options) (host : Host) (e : Effects) :
    ∃ u, ((readGuestLine .set table offset args).after host e).1 = .error u := by
  cases hresult : ((readGuestLine .set table offset args).after host e).1 with
  | error u => exact ⟨u, rfl⟩
  | ok r =>
    have houtcome := Reading.outcome_of_after hresult
    rw [outcome_set_line (says_of_readGuestLine houtcome), Draft.eq_none_of_clash h] at houtcome
    cases houtcome

/-- The line `prlctl set vm1 --detach-only --name a --destroy-image` tells two fates of images, with
something else between them. -/
theorem fates_of_images_are_refused : ∃ u, ((readGuestLine .set CommandTable.set 2
    ["prlctl", "set", "vm1", "--detach-only", "--name", "a", "--destroy-image"]).after
    ⟨fun _ => .error "", fun _ => .error ""⟩ (.start .initial)).1 = .error u := by
  have hstream : CommandTable.set.read
      ["prlctl", "set", "vm1", "--detach-only", "--name", "a", "--destroy-image"] 3 =
      ⟨[.option ⟨.imageFate .detach, "--detach-only", none⟩,
        .option ⟨.setting (.text .name), "--name", some ⟨"a", ⟨5, 0, 1⟩⟩⟩,
        .option ⟨.imageFate .destroy, "--destroy-image", none⟩], none⟩ :=
    Table.read_eq_of_streamWithin (n := 4) (by rfl)
  have hclash : Clash (CommandTable.set.read
      ["prlctl", "set", "vm1", "--detach-only", "--name", "a", "--destroy-image"] 3).options := by
    rw [hstream]
    exact .fates (f := .detach) (g := .destroy) (by decide) ⟨_, List.mem_cons_self .., rfl⟩
      ⟨⟨.imageFate .destroy, "--destroy-image", none⟩, by decide, rfl⟩
  exact clash_is_refused hclash _ _

end VmControl
