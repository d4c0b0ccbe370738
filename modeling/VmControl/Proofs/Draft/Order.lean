import VmControl.Proofs.Draft.Footprint
import VmControl.Proofs.Options.Stream

/-!
# The order of options

Options of a line that changes a guest fall into groups.  Within a group the order tells, since the
options change one thing, or exclude each other with the first one winning.  Options of different
groups can trade places: they touch different parts of the draft, or neither can follow the other,
or they add to a collection whose order nothing depends on.

## Main statements

* `Draft.take_swap`: two options of different groups come to the same in either order.
* `Draft.take_comm_of_independent`: they do if neither touches what the other reads.
-/

namespace VmControl

open Options

/-! ## Groups -/

/-- A group of options whose order tells. -/
inductive OptionGroup where
  /-- The options that select the device. -/
  | selection
  /-- What a device is connected to. -/
  | medium
  /-- The login and its passwords. -/
  | login
  /-- The addresses of the adapter. -/
  | addresses
  /-- The limits of a container. -/
  | resources
  /-- An option by itself. -/
  | single (id : OptionId)
  deriving DecidableEq, Repr

/-- The group of an option. -/
def OptionId.group : OptionId → OptionGroup
  | .selector _ => .selection
  | .device (.text .device) => .medium
  | .device (.text .image) => .medium
  | .login => .login
  | .readPassword => .login
  | .ipSet => .addresses
  | .ipAdd => .addresses
  | .swapPages => .resources
  | .swap => .resources
  | .quotaUgidLimit => .resources
  | id => .single id

/-- Lines that change a guest name the guest system in one way. -/
theorem set_ne_osType {id : OptionId} (h : CommandTable.set.Has id) : id ≠ .osType := by
  obtain ⟨e, he, rfl⟩ := h
  revert e
  decide +kernel

theorem set_ne_onlineClone {id : OptionId} (h : CommandTable.set.Has id) : id ≠ .onlineClone := by
  obtain ⟨e, he, rfl⟩ := h
  revert e
  decide +kernel

namespace Draft

/-! ## Which options touch the same -/

/-- The options that change a part. -/
def Part.writers : Part → List OptionId
  | .login => [.login, .readPassword]
  | .verbosity => [.verbose]
  | .compat => [.compat]
  | .timeout => [.timeout]
  | .guest => [.osType, .distribution]
  | .blockSize => [.blockSize]
  | .setting s => [.setting s]
  | .selection => [.selector .add, .selector .addAdapter, .selector .set, .selector .setAdapter,
      .selector .delete, .selector .deleteAdapter, .selector .connect, .selector .disconnect,
      .selector .bootOrder]
  | .device s => [.device s]
  | .adapter s => [.adapter s]
  | .imageFates => [.imageFate .destroy, .imageFate .destroyForce, .imageFate .detach]
  | .attachment => [.backupAdd, .backupDelete]
  | .kind => [.guestKind]
  | .resources => [.swapPages, .swap, .quotaUgidLimit]
  | .capabilities => [.capability]
  | .features => [.features]
  | .appTemplates => [.appTemplate]
  | .rates => [.rate]
  | .expiration => [.expiration]
  | .passwordRules => [.requirePassword]
  | .offlineServices => [.offlineService]
  | .searchDomains => [.searchDomain]
  | .nameServers => [.nameServer]
  | .addresses => [.ipSet, .ipAdd]
  | .removals => [.ipDelete]
  | .firewallRules => [.firewallRule]
  | .rest => [.onlineClone]

theorem mem_writers {id : OptionId} {p : Part} (h : part? id = some p) : id ∈ p.writers := by
  cases id with
  | selector s => cases h; cases s <;> decide
  | imageFate f => cases h; cases f <;> decide
  | _ => cases h <;> simp [Part.writers]

/-- Options of different groups that change one part add to the fates of images, or attach and
detach backups. -/
theorem shared_part {a b : OptionId} {p : Part} (ha : CommandTable.set.Has a)
    (hb : CommandTable.set.Has b) (hg : a.group ≠ b.group) (hap : part? a = some p)
    (hbp : part? b = some p) :
    p = .imageFates ∨ p = .attachment := by
  have hao := set_ne_osType ha
  have hbo := set_ne_osType hb
  have ha := mem_writers hap
  have hb := mem_writers hbp
  cases p <;> simp only [Part.writers, List.mem_cons, List.not_mem_nil, or_false] at ha hb
  case imageFates => exact .inl rfl
  case attachment => exact .inr rfl
  case guest =>
    obtain rfl := ha.resolve_left hao
    obtain rfl := hb.resolve_left hbo
    exact absurd rfl hg
  case login =>
    obtain rfl | rfl := ha <;> obtain rfl | rfl := hb <;> exact absurd rfl hg
  case resources =>
    obtain rfl | rfl | rfl := ha <;> obtain rfl | rfl | rfl := hb <;> exact absurd rfl hg
  case addresses =>
    obtain rfl | rfl := ha <;> obtain rfl | rfl := hb <;> exact absurd rfl hg
  case selection =>
    have group_eq {id : OptionId} (h : part? id = some .selection) : id.group = .selection := by
      cases id <;> cases h
      rfl
    exact absurd ((group_eq hap).trans (group_eq hbp).symm) hg
  all_goals exact absurd (by rw [ha, hb]) hg

/-- Options of different groups of which one watches what the other changes are opposite marks. -/
theorem watched_part {a b : OptionId} {p : Part} (ha : CommandTable.set.Has a)
    (hg : a.group ≠ b.group) (hap : part? a = some p) (hbp : p ∈ watched b) :
    ∃ j k, a = .device (.mark j) ∧ b = .device (.mark k) ∧ opposite? k = some j := by
  have hao := set_ne_onlineClone ha
  have ha := mem_writers hap
  unfold watched at hbp
  split at hbp
  case h_1 =>
    obtain rfl := List.mem_singleton.1 hbp
    exact absurd (List.mem_singleton.1 ha) hao
  case h_2 | h_3 =>
    obtain rfl := List.mem_singleton.1 hbp
    exact absurd (by rw [List.mem_singleton.1 ha]; rfl) hg
  case h_4 k =>
    obtain ⟨j, hj, rfl⟩ := List.mem_map.1 hbp
    exact ⟨j, k, List.mem_singleton.1 ha, rfl, Option.mem_toList.1 hj⟩
  case h_5 => cases hbp

theorem opposite?_symm {j k : DeviceMark} (h : opposite? k = some j) : opposite? j = some k := by
  cases k <;> cases h <;> rfl

/-! ## Taking two options -/

/-- Two stages that come to the same, or none at all. -/
def Alike : Option Stage → Option Stage → Prop := Option.Rel fun s t => view s = view t

theorem Alike.refl (x : Option Stage) : Alike x x := by
  cases x with
  | none => exact .none
  | some s => exact .some rfl

theorem Alike.symm {x y : Option Stage} (h : Alike x y) : Alike y x := by
  cases h with
  | none => exact .none
  | some h => exact .some h.symm

theorem Alike.trans {x y z : Option Stage} (h : Alike x y) (h' : Alike y z) : Alike x z := by
  cases h with
  | none => exact h'
  | some h =>
    cases h' with
    | some h' => exact .some (h.trans h')

theorem Alike.bind {x y : Option Stage} {f g : Stage → Option Stage} (h : Alike x y)
    (hfg : ∀ s t, view s = view t → Alike (f s) (g t)) : Alike (x.bind f) (y.bind g) :=
  rel_option_bind h hfg

theorem Alike.bind_eq {β : Type} {x y : Option Stage} {f : Stage → Option β} (h : Alike x y)
    (hf : ∀ s t, view s = view t → f s = f t) : x.bind f = y.bind f := by
  cases h with
  | none => rfl
  | some h => exact hf _ _ h

variable {host : Host}

/-- An option does the same to stages of the same view. -/
theorem take_alike {m : Match OptionId} {s t : Stage} (h : view s = view t) :
    Alike (take host s m) (take host t m) := by
  have hcongr := @take_congr host m s t fun p _ => congrFun h p
  generalize hs : take host s m = x at hcongr
  generalize ht : take host t m = y at hcongr
  cases hcongr with
  | none => exact .none
  | some hown =>
    refine .some (funext fun p => ?_)
    by_cases hp : part? m.id = some p
    · exact hown p hp
    · rw [view_take_of_ne hs hp, view_take_of_ne ht hp, h]

/-- **Options that read nothing that the other changes can trade places.** -/
theorem take_comm_of_independent {m n : Match OptionId} {p q : Part} (hm : part? m.id = some p)
    (hn : part? n.id = some q) (hmn : ¬ Reads m.id q) (hnm : ¬ Reads n.id p) (s : Stage) :
    Alike ((take host s m).bind (take host · n)) ((take host s n).bind (take host · m)) := by
  have hpq : p ≠ q := fun h => hnm (.inl (h ▸ hn))
  -- an option comes to the same after the other one
  have after {m n : Match OptionId} {q : Part} (hn : part? n.id = some q) (hmn : ¬ Reads m.id q)
      {t : Stage} (ht : take host s n = some t) :
      Option.Rel (fun s' t' => ∀ p, part? m.id = some p → view s' p = view t' p)
        (take host s m) (take host t m) :=
    take_congr fun p hp => (view_take_of_ne ht fun h =>
      hmn ((Option.some.inj (hn.symm.trans h)) ▸ hp)).symm
  cases hs : take host s m with
  | none =>
    cases ht : take host s n with
    | none => exact .none
    | some t =>
      have h := after hn hmn ht
      rw [hs] at h
      generalize ht' : take host t m = t' at h
      cases h
      simpa [ht'] using Alike.refl none
  | some s' =>
    cases ht : take host s n with
    | none =>
      have h := after hm hnm hs
      rw [ht] at h
      generalize hs'' : take host s' n = s'' at h
      cases h
      simpa [hs''] using Alike.refl none
    | some t =>
      have hm' := after hn hmn ht
      have hn' := after hm hnm hs
      rw [hs] at hm'
      rw [ht] at hn'
      generalize ht' : take host t m = t' at hm'
      generalize hs'' : take host s' n = s'' at hn'
      cases hm' with
      | some hm' =>
        cases hn' with
        | some hn' =>
          simp only [Option.bind_some, ht', hs'']
          refine .some (funext fun r => ?_)
          by_cases hr : p = r
          · subst hr
            rw [view_take_of_ne hs'' (by rw [hn]; exact fun h => hpq (Option.some.inj h).symm)]
            exact hm' p hm
          · rw [view_take_of_ne ht' (by rw [hm]; exact fun h => hr (Option.some.inj h))]
            by_cases hr' : q = r
            · subst hr'
              exact (hn' q hn).symm
            · rw [view_take_of_ne hs'' (by rw [hn]; exact fun h => hr' (Option.some.inj h)),
                view_take_of_ne hs (by rw [hm]; exact fun h => hr (Option.some.inj h)),
                view_take_of_ne ht (by rw [hn]; exact fun h => hr' (Option.some.inj h))]

/-- An option that is excluded is not taken. -/
theorem take_eq_none_of_conflict {m : Match OptionId} {s : Stage}
    (h : (s.1.conflict? m.id).isSome) : take host s m = none := by
  unfold take
  dsimp only
  split
  case h_10 => rw [if_pos h]
  all_goals
    next hid => simp [hid, conflict?] at h

theorem has_of_take {m : Match OptionId} {k : DeviceMark} {s t : Stage}
    (hm : m.id = .device (.mark k)) (h : take host s m = some t) :
    t.1.record.device.has k = true := by
  obtain ⟨v, -, hget⟩ := deviceSetting_of_take h hm
  simp [Device.has, Sheet.has, hget]

theorem backupCommand_of_take {m : Match OptionId} {s t : Stage}
    (hm : m.id = .backupAdd ∨ m.id = .backupDelete) (h : take host s m = some t) :
    t.1.record.backupCommand.isSome := by
  rcases hm with hm | hm
  all_goals
    obtain ⟨d, hd, rfl⟩ := exists_applyPure_of_take h (by simp [hm])
    simp only [applyPure, hm, Except.ok.injEq] at hd
    subst hd
    rfl

/-- Once a mark is set its opposite is not taken. -/
theorem take_opposite {m n : Match OptionId} {j k : DeviceMark} (hm : m.id = .device (.mark j))
    (hn : n.id = .device (.mark k)) (hjk : opposite? k = some j) (s : Stage) :
    (take host s m).bind (take host · n) = none := by
  cases hs : take host s m with
  | none => rfl
  | some t =>
    have hset := has_of_take hm hs
    refine take_eq_none_of_conflict ?_
    rw [hn]
    cases k <;> cases hjk <;> simp [conflict?, hset]

/-- Only one backup is attached or detached. -/
theorem take_attachment {m n : Match OptionId} (hm : m.id = .backupAdd ∨ m.id = .backupDelete)
    (hn : n.id = .backupAdd ∨ n.id = .backupDelete) (s : Stage) :
    (take host s m).bind (take host · n) = none := by
  cases hs : take host s m with
  | none => rfl
  | some t =>
    have hset := backupCommand_of_take hm hs
    refine take_eq_none_of_conflict ?_
    rcases hn with hn | hn <;> simp [hn, conflict?, hset]

theorem mem_imageFates {id : OptionId} (h : id ∈ Part.imageFates.writers) :
    ∃ f, id = .imageFate f := by
  simp only [Part.writers, List.mem_cons, List.not_mem_nil, or_false] at h
  rcases h with h | h | h <;> exact ⟨_, h⟩

/-- The fates of images are told in any order. -/
theorem take_imageFates {m n : Match OptionId} {f g : ImageFate} (hm : m.id = .imageFate f)
    (hn : n.id = .imageFate g) (s : Stage) :
    Alike ((take host s m).bind (take host · n)) ((take host s n).bind (take host · m)) := by
  obtain ⟨d, q⟩ := s
  simp only [take, hm, hn, conflict?, applyPure, Option.isSome_none, Bool.false_eq_true, if_false,
    Except.toOption, Option.map_some, Option.bind_some]
  refine .some (funext fun p => ?_)
  cases p with
  | imageFates =>
    refine Multiset.coe_eq_coe.2 ?_
    simpa using (List.Perm.swap g f []).append_left d.imageFates
  | _ => rfl

/-- **Options of different groups can trade places.** -/
theorem take_swap {m n : Match OptionId} (hm : CommandTable.set.Has m.id)
    (hn : CommandTable.set.Has n.id) (hg : m.id.group ≠ n.id.group) (s : Stage) :
    Alike ((take host s m).bind (take host · n)) ((take host s n).bind (take host · m)) := by
  cases hmp : part? m.id with
  | none =>
    have hnone (t : Stage) : take host t m = none := take_eq_none hmp host t
    simp only [hnone, Option.bind_none, Option.bind_fun_none]
    exact .none
  | some p =>
    cases hnp : part? n.id with
    | none =>
      have hnone (t : Stage) : take host t n = none := take_eq_none hnp host t
      simp only [hnone, Option.bind_none, Option.bind_fun_none]
      exact .none
    | some q =>
      by_cases hpq : p = q
      · subst hpq
        have hmw := mem_writers hmp
        have hnw := mem_writers hnp
        obtain rfl | rfl := shared_part hm hn hg hmp hnp
        · obtain ⟨f, hf⟩ := mem_imageFates hmw
          obtain ⟨g, hg⟩ := mem_imageFates hnw
          exact take_imageFates hf hg s
        · simp only [Part.writers, List.mem_cons, List.not_mem_nil, or_false] at hmw hnw
          rw [take_attachment hmw hnw, take_attachment hnw hmw]
          exact .none
      by_cases hmn : q ∈ watched m.id
      · obtain ⟨j, k, hn, hm, hjk⟩ := watched_part hn hg.symm hnp hmn
        rw [take_opposite hn hm hjk, take_opposite hm hn (opposite?_symm hjk)]
        exact .none
      by_cases hnm : p ∈ watched n.id
      · obtain ⟨j, k, hm, hn, hjk⟩ := watched_part hm hg hmp hnm
        rw [take_opposite hm hn hjk, take_opposite hn hm (opposite?_symm hjk)]
        exact .none
      refine take_comm_of_independent hmp hnp ?_ ?_ s
      · rintro (h | h)
        · exact hpq (Option.some.inj (hmp.symm.trans h))
        · exact hmn h
      · rintro (h | h)
        · exact hpq (Option.some.inj (hnp.symm.trans h)).symm
        · exact hnm h

end Draft

end VmControl
