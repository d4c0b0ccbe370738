import VmControl.Proofs.Draft.Override
import VmControl.Proofs.Session

/-!
# What is mentioned shows

If an option is deleted from a line that changes a guest, then the record changes, or the line is
turned down.  Where an option is alone in its part of the draft, that part stays blank without it.
Options that share a part add to a list, so that one item is missing, or exclude each other.  Only
selectors can be left out, if the others tell all that they tell, or a size does.

## Main statements

* `Draft.ne_of_deletion`, `Draft.count_ne_of_deletion`: what tells whether an option is there.
* `Draft.record_ne_of_deletion`: an option that is no selector shows in the record.
* `Program.mention_is_visible`: a line that lacks one option comes to the same record exactly if the
  option adds nothing to the others.
-/

namespace VmControl

open Options

namespace Draft

variable {host : Host} {s s' : Stage} {m : Match OptionId}

/-! ## Deleting an option -/

theorem view_fresh (target : Option String) (q : Preferences) {p : Part}
    (hp : p.isVisible = true) : view (fresh target q) p = p.blank := by
  cases p <;> first | rfl | cases hp

/-- What the options of a line leave alone is as it was before them. -/
theorem eq_of_takeAll {α : Type} {f : Stage → α} {ms : List (Match OptionId)}
    (hkept : ∀ m ∈ ms, ∀ {s s'}, take host s m = some s' → f s' = f s)
    (h : takeAll host s (ms.map Match.occurrence) = some s') : f s' = f s := by
  induction ms generalizing s with
  | nil => cases h; rfl
  | cons m ms ih =>
    obtain ⟨hm, hms⟩ := List.forall_mem_cons.1 hkept
    obtain ⟨s₁, htake, hrest⟩ := Option.bind_eq_some_iff.1 h
    rw [take_occurrence] at htake
    rw [ih hms hrest, hm htake]

/-- What some options add one to is how many of them there are. -/
theorem count_of_takeAll {f : Stage → Nat} {g : Match OptionId → Bool}
    (hstep : ∀ {m s s'}, take host s m = some s' → f s' = f s + (g m).toNat)
    {ms : List (Match OptionId)} (h : takeAll host s (ms.map Match.occurrence) = some s') :
    f s' = f s + ms.countP g := by
  induction ms generalizing s with
  | nil => cases h; rfl
  | cons m ms ih =>
    obtain ⟨s₁, htake, hrest⟩ := Option.bind_eq_some_iff.1 h
    rw [take_occurrence] at htake
    rw [ih hrest, hstep htake, List.countP_cons]
    cases g m with
    | false => simp
    | true =>
      simp only [Bool.toNat_true, if_true]
      omega

section Deletion

variable {before after : List (Match OptionId)} {t : Stage} {target target' : Option String}
  {q q' : Preferences}
  (h : takeAll host (fresh target q) ((before ++ m :: after).map Match.occurrence) = some s)
  (h' : takeAll host (fresh target' q') ((before ++ after).map Match.occurrence) = some t)
include h h'

/-- **What one option changes tells whether it is there**, if nothing else touches it. -/
theorem ne_of_deletion {α : Type} {f : Stage → α}
    (hchange : ∀ {s s'}, take host s m = some s' → f s' ≠ f (fresh target' q'))
    (hkept : ∀ m' ∈ before ++ after, ∀ {s s'}, take host s m' = some s' → f s' = f s) :
    f s ≠ f t := by
  obtain ⟨s₁, s₂, -, htake, hafter⟩ := exists_take_of_takeAll h
  rw [eq_of_takeAll (fun m' hm' => hkept m' (List.mem_append_right _ hm')) hafter,
    eq_of_takeAll hkept h']
  exact hchange htake

/-- What an option adds one to tells whether it is there. -/
theorem count_ne_of_deletion {f : Stage → Nat} {g : Match OptionId → Bool}
    (hstep : ∀ {m s s'}, take host s m = some s' → f s' = f s + (g m).toNat)
    (hstart : f (fresh target q) = f (fresh target' q')) (hm : g m = true) : f s ≠ f t := by
  rw [count_of_takeAll hstep h, count_of_takeAll hstep h', hstart, List.countP_append,
    List.countP_append, List.countP_cons_of_pos hm]
  omega

theorem view_ne_of_deletion {p : Part} (hset : CommandTable.set.Has m.id) (htells : m.tells = true)
    (hvisible : p.isVisible = true) (hp : part? m.id = some p)
    (hothers : ∀ m' ∈ before ++ after, part? m'.id ≠ some p) : view s p ≠ view t p := by
  refine ne_of_deletion h h' (f := fun s => view s p) (fun htake => ?_)
    fun m' hm' _ _ htake => view_take_of_ne htake (hothers m' hm')
  rw [view_fresh target' q' hvisible]
  exact view_take_ne_blank htake hset htells hp

/-- A list that options add to tells whether each of them is there. -/
theorem length_ne_of_deletion {α : Type} {f : Stage → List α} {p : Part}
    (hadds : ∀ {m s s'}, take host s m = some s' → part? m.id = some p →
      (f s').length = (f s).length + 1)
    (hkept : ∀ {s s'}, view s' p = view s p → f s' = f s)
    (hstart : f (fresh target q) = f (fresh target' q')) (hp : part? m.id = some p) :
    f s ≠ f t := by
  refine fun heq => count_ne_of_deletion h h' (f := fun s => (f s).length)
    (g := fun m => part? m.id = some p) (fun {m s s'} htake => ?_) (by rw [hstart])
    (by simpa using hp) (congrArg List.length heq)
  by_cases hpart : part? m.id = some p
  · simpa [hpart] using hadds htake hpart
  · simp [hpart, hkept (view_take_of_ne htake hpart)]

/-- A limit adds to the limits of a container. -/
theorem resources_ne_of_deletion (hp : part? m.id = some .resources) :
    s.1.record.resources ≠ t.1.record.resources := by
  refine length_ne_of_deletion h h' (f := fun s => s.1.record.resources)
    (fun {m s s'} htake hpart => ?_) id rfl hp
  have hid := mem_writers hpart
  simp only [Part.writers, List.mem_cons, List.not_mem_nil, or_false] at hid
  rcases hid with hid | hid | hid
  all_goals
    obtain ⟨d, hd, rfl⟩ := exists_applyPure_of_take htake (by simp [hid])
    simp only [applyPure, hid, bind_eq_ok] at hd
    obtain ⟨limit, -, ⟨⟩⟩ := hd
    exact List.length_append

/-- An address adds to the addresses of an adapter. -/
theorem addresses_ne_of_deletion (hp : part? m.id = some .addresses) :
    s.1.adapter.addresses ≠ t.1.adapter.addresses := by
  refine length_ne_of_deletion h h' (f := fun s => s.1.adapter.addresses)
    (fun {m s s'} htake hpart => ?_) (congrArg Prod.snd) rfl hp
  have hid := mem_writers hpart
  simp only [Part.writers, List.mem_cons, List.not_mem_nil, or_false] at hid
  rcases hid with hid | hid
  all_goals
    obtain ⟨d, hd, rfl⟩ := exists_applyPure_of_take htake (by simp [hid])
    simp only [applyPure, hid] at hd
    cases hd
    exact List.length_append

/-- A login text names the host, and a password from a file waits. -/
theorem login_ne_of_deletion (hp : part? m.id = some .login)
    (honce : ∀ m' ∈ before ++ after, m'.id ≠ m.id) : s.1.record.login ≠ t.1.record.login := by
  have hid : m.id = .login ∨ m.id = .readPassword := by simpa [Part.writers] using mem_writers hp
  rcases hid with hid | hid
  · have hserver : s.1.record.login.server ≠ t.1.record.login.server :=
      ne_of_deletion h h' (f := fun s => s.1.record.login.server)
        (fun htake => server_ne_empty_of_take htake hid)
        fun m' hm' _ _ htake => server_of_take htake (hid ▸ honce m' hm')
    exact fun heq => hserver (congrArg Login.server heq)
  · have hsize : s.1.record.login.pending.size ≠ t.1.record.login.pending.size :=
      count_ne_of_deletion h h' (f := fun s => s.1.record.login.pending.size)
        size_pending_of_take rfl (by simp [Match.bringsPassword, hid])
    exact fun heq => hsize (congrArg (fun l : Login => l.pending.size) heq)

/-- A property of the device is there. -/
theorem has_ne_of_deletion {k : DeviceSetting} (hid : m.id = .device k)
    (honce : ∀ m' ∈ before ++ after, m'.id ≠ m.id) :
    s.1.record.device.settings.has k ≠ t.1.record.device.settings.has k := by
  refine ne_of_deletion h h' (f := fun s => s.1.record.device.settings.has k)
    (fun {s s'} htake => ?_) fun m' hm' _ _ htake => ?_
  · obtain ⟨v, -, hget⟩ := deviceSetting_of_take htake hid
    have hhas : s'.1.record.device.settings.has k = true := congrArg Option.isSome hget
    have hnone : (fresh target' q').1.record.device.settings.has k = false := rfl
    exact fun heq => Bool.false_ne_true (hnone.symm.trans (heq.symm.trans hhas))
  · exact congrArg Option.isSome (view_take_of_ne (p := .device k) htake fun hpart =>
      honce m' hm' ((part?_eq_device.1 hpart).trans hid.symm))

/-- What is told of images becomes of them, unless it is what becomes of them anyway. -/
theorem imageFate_ne_of_deletion {fate : ImageFate} {r r' : Record} {p p' : Preferences}
    (hid : m.id = .imageFate fate) (hfate : fate ≠ .detach)
    (honce : ∀ m' ∈ before ++ after, m'.id ≠ m.id) (hs : conclude host s = some (r, p))
    (ht : conclude host t = some (r', p')) : r.imageFate ≠ r'.imageFate := by
  have htold {m' : Match OptionId} {g : ImageFate} (hm' : m' ∈ before ++ m :: after)
      (hg : m'.id = .imageFate g) : r.imageFate = g :=
    imageFate_of_conclude hs
      (mem_imageFates_of_takeAll h (.inl ⟨m'.occurrence, List.mem_map_of_mem hm', hg⟩))
  have hr : r.imageFate = fate := htold (by simp) hid
  have hothers (o : Occurrence OptionId) (ho : o ∈ (before ++ after).map Match.occurrence) :
      part? o.id ≠ some .imageFates := fun hpart => by
    obtain ⟨m', hm', rfl⟩ := List.mem_map.1 ho
    obtain ⟨g, hg⟩ := mem_imageFates (mem_writers hpart)
    have hm : m' ∈ before ++ m :: after :=
      ((List.sublist_cons_self m after).append_left before).subset hm'
    have hsame : g = fate := (htold hm hg).symm.trans hr
    exact honce m' hm' (hg.trans (hsame ▸ hid.symm))
  have hnone : t.1.imageFates = [] := by
    have hview : (t.1.imageFates : Multiset ImageFate) = ([] : List ImageFate) :=
      view_takeAll_of_ne h' hothers
    simpa using hview
  have hdefault : r'.imageFate = t.1.imageFates.headD t.1.record.imageFate :=
    changesOnly_conclude ht .imageFate (by decide)
  have hdetach : t.1.record.imageFate = .detach :=
    congrArg (fun r : Record => r.imageFate) (unsaid_of_takeAll h')
  rw [hr, hdefault, hnone, List.headD_nil, hdetach]
  exact hfate

end Deletion

/-- A backup is attached or detached by one option at most. -/
theorem attachment_of_deletion {before after : List (Match OptionId)}
    (h : takeAll host s ((before ++ m :: after).map Match.occurrence) = some s')
    (hp : part? m.id = some .attachment) :
    ∀ m' ∈ before ++ after, part? m'.id ≠ some .attachment := by
  have hbackup {id : OptionId} (hid : part? id = some .attachment) : id.isBackup = true := by
    rcases isBackup_of_part? hid with rfl | rfl <;> rfl
  have hone : (before ++ m :: after).countP (·.id.isBackup) ≤ 1 := by
    have hcount := countP_le_one_of_takeAll h fun _ _ => excludes_of_isBackup
    rwa [List.countP_map] at hcount
  rw [List.countP_append,
    List.countP_cons_of_pos (p := fun m : Match OptionId => m.id.isBackup) (hbackup hp)] at hone
  intro m' hm' hpart
  have hpos : 0 < (before ++ after).countP (·.id.isBackup) :=
    List.countP_pos_iff.2 ⟨m', hm', hbackup hpart⟩
  rw [List.countP_append] at hpos
  omega

end Draft

namespace Draft

/-- **An option that tells something shows in the record**, unless it is a selector. -/
theorem record_ne_of_deletion {host : Host} {s t : Stage} {m : Match OptionId}
    {target target' : Option String} {q q' p p' : Preferences} {r r' : Record}
    {before after : List (Match OptionId)}
    (h : takeAll host (fresh target q) ((before ++ m :: after).map Match.occurrence) = some s)
    (h' : takeAll host (fresh target' q') ((before ++ after).map Match.occurrence) = some t)
    (hs : conclude host s = some (r, p)) (ht : conclude host t = some (r', p'))
    (hset : ∀ m' ∈ before ++ m :: after, CommandTable.set.Has m'.id)
    (honce : ∀ m' ∈ before ++ after, m'.id ≠ m.id) (htells : m.tells = true)
    (hselects : m.selection? = none) : r ≠ r' := by
  rintro rfl
  have hm : CommandTable.set.Has m.id := hset m (by simp)
  have hview {p : Part} (hp : p.isVisible = true) : view s p = view t p :=
    view_eq_of_conclude hs ht (unsaid_of_takeAll h) (unsaid_of_takeAll h') hp
  have hothers (m' : Match OptionId) (hm' : m' ∈ before ++ after) : CommandTable.set.Has m'.id :=
    hset m' (((List.sublist_cons_self m after).append_left before).subset hm')
  have hvisible {p : Part} (hp : p.isVisible = true) (hpart : part? m.id = some p)
      (hothers : ∀ m' ∈ before ++ after, part? m'.id ≠ some p) : False :=
    view_ne_of_deletion h h' hm htells hp hpart hothers (hview hp)
  have halone {p : Part} {id : OptionId} (hp : p.isVisible = true) (hpart : part? m.id = some p)
      (hid : m.id = id) (hwriters : p.writers = [id]) : False :=
    hvisible hp hpart fun m' hm' hpart' => honce m' hm' (by
      have hwriter := mem_writers hpart'
      rw [hwriters, List.mem_singleton] at hwriter
      exact hwriter.trans hid.symm)
  cases hpart : part? m.id with
  | none =>
    obtain ⟨s₁, s₂, -, htake, -⟩ := exists_take_of_takeAll h
    rw [take_eq_none hpart] at htake
    cases htake
  | some p =>
    have hid := mem_writers hpart
    cases p with
    | verbosity | compat | timeout | blockSize =>
      rw [Match.tells, List.mem_singleton.1 hid] at htells
      cases htells
    | kind => exact set_ne_guestKind hm (List.mem_singleton.1 hid)
    | rest => exact set_ne_onlineClone hm (List.mem_singleton.1 hid)
    | login => exact login_ne_of_deletion h h' hpart honce (hview (p := .login) rfl)
    | resources => exact resources_ne_of_deletion h h' hpart (hview (p := .resources) rfl)
    | addresses =>
      exact addresses_ne_of_deletion h h' hpart (congrArg Prod.snd (hview (p := .addresses) rfl))
    | device k =>
      exact has_ne_of_deletion h h' (List.mem_singleton.1 hid) honce
        ((has_of_conclude hs k).symm.trans (has_of_conclude ht k))
    | selection =>
      obtain ⟨x, hx⟩ := Match.exists_selection?_iff.2 (exists_selector hpart)
      rw [hselects] at hx
      cases hx
    | imageFates =>
      obtain ⟨fate, hfate⟩ := mem_imageFates hid
      rw [Match.tells, hfate] at htells
      exact imageFate_ne_of_deletion h h' hfate (bne_iff_ne.1 htells) honce hs ht rfl
    | attachment => exact hvisible rfl hpart (attachment_of_deletion h hpart)
    | guest =>
      -- There are two options for the guest system, one of which is not for these lines.
      refine hvisible rfl hpart fun m' hm' hpart' => honce m' hm' ?_
      have hwriter {id : OptionId} (hset : CommandTable.set.Has id)
          (hid : id ∈ Part.guest.writers) : id = .distribution := by
        simpa [Part.writers, set_ne_osType hset] using hid
      rw [hwriter (hothers m' hm') (mem_writers hpart'), hwriter hm hid]
    | setting k =>
      have hk : k ≠ .text .location := fun hk =>
        set_ne_location hm (hk ▸ List.mem_singleton.1 hid)
      exact halone (by simpa [Part.isVisible] using hk) hpart (List.mem_singleton.1 hid) rfl
    | _ => exact halone rfl hpart (List.mem_singleton.1 hid) rfl

end Draft

/-! ## Accepted lines -/

namespace Program

/-- **What is mentioned shows.**  Let an accepted line that changes a guest have an option whose
meaning no other option of it has, and which tells something.  A line that has the other options in
the same order, but not this one, is turned down, or it comes to another record, unless the option
is a selector that adds nothing to the others: then it comes to the same record.  Nothing is said of
a selected device that makes way for another one. -/
theorem mention_is_visible {args args' : List String} {host : Host} {p p' : Preferences}
    {r r' : Record} {before after : List (Match OptionId)} {m : Match OptionId}
    (hset : args[1]? = some "set") (hset' : args'[1]? = some "set") (htarget : args'[2]? = args[2]?)
    (hoptions : Program.guests.options args = before ++ m :: after)
    (hrest : (Program.guests.options args').map Match.occurrence =
      (before ++ after).map Match.occurrence)
    (honce : ∀ m' ∈ before ++ after, m'.id ≠ m.id) (htells : m.tells = true)
    (hstands : ¬ m.MakesWay before after)
    (h : ((Program.guests.read args).perform host p).1 = .ok r)
    (h' : ((Program.guests.read args').perform host p').1 = .ok r') :
    r' = r ↔ m.IsSpare before after := by
  have h' : ((Program.guests.read args').perform host p).1 = .ok r' :=
    (Call.perform_independent ⟨.guests, args'⟩ host p p').1.trans h'
  obtain ⟨q, htake⟩ := exists_takeAll_of_accepted hset h
  obtain ⟨q', htake'⟩ := exists_takeAll_of_accepted hset' h'
  rw [hoptions] at htake
  rw [hrest, htarget] at htake'
  obtain ⟨s, hs, hconclude⟩ := Option.bind_eq_some_iff.1 htake
  obtain ⟨t, ht, hconclude'⟩ := Option.bind_eq_some_iff.1 htake'
  rw [eq_comm]
  cases hx : m.selection? with
  | some x =>
    exact (Draft.record_eq_iff hs ht hx hconclude hconclude').trans (or_iff_left hstands)
  | none =>
    have hhas (m' : Match OptionId) (hm' : m' ∈ before ++ m :: after) :
        CommandTable.set.Has m'.id := by
      rw [← hoptions, (set_line_of_accepted hset h).2] at hm'
      exact Table.has_of_mem_read (Stream.mem_options.1 hm')
    refine iff_of_false
      (Draft.record_ne_of_deletion hs ht hconclude hconclude' hhas honce htells hx) ?_
    rintro (⟨hx', -⟩ | ⟨hx', -⟩) <;> rw [hx] at hx' <;> cases hx'

/-- The line `prlctl set vm1 --device-add hdd --netif_add eth0` does not come to the same record
without its second selector, which tells of another class. -/
theorem added_adapter_is_visible : ∃ r r',
    ((Program.guests.read
      ["prlctl", "set", "vm1", "--device-add", "hdd", "--netif_add", "eth0"]).perform
      ⟨fun _ => .error "", fun _ => .error ""⟩ .initial).1 = .ok r ∧
    ((Program.guests.read ["prlctl", "set", "vm1", "--device-add", "hdd"]).perform
      ⟨fun _ => .error "", fun _ => .error ""⟩ .initial).1 = .ok r' ∧ r' ≠ r := by
  have hstream : CommandTable.set.read
      ["prlctl", "set", "vm1", "--device-add", "hdd", "--netif_add", "eth0"] 3 =
      ⟨[.option ⟨.selector .add, "--device-add", some ⟨"hdd", ⟨4, 0, 3⟩⟩⟩,
        .option ⟨.selector .addAdapter, "--netif_add", some ⟨"eth0", ⟨6, 0, 4⟩⟩⟩], none⟩ :=
    Table.read_eq_of_streamWithin (n := 3) (by rfl)
  have hstream' : CommandTable.set.read ["prlctl", "set", "vm1", "--device-add", "hdd"] 3 =
      ⟨[.option ⟨.selector .add, "--device-add", some ⟨"hdd", ⟨4, 0, 3⟩⟩⟩], none⟩ :=
    Table.read_eq_of_streamWithin (n := 2) (by rfl)
  obtain ⟨hoptions, hread⟩ := set_line_of_stream (by rfl) hstream
  obtain ⟨hoptions', hread'⟩ := set_line_of_stream (by rfl) hstream'
  have haccepted : ∃ r, ((Program.guests.read
      ["prlctl", "set", "vm1", "--device-add", "hdd", "--netif_add", "eth0"]).perform
      ⟨fun _ => .error "", fun _ => .error ""⟩ .initial).1 = .ok r := by
    rw [hread]
    exact ⟨_, rfl⟩
  have haccepted' : ∃ r, ((Program.guests.read
      ["prlctl", "set", "vm1", "--device-add", "hdd"]).perform
      ⟨fun _ => .error "", fun _ => .error ""⟩ .initial).1 = .ok r := by
    rw [hread']
    exact ⟨_, rfl⟩
  obtain ⟨r, hr⟩ := haccepted
  obtain ⟨r', hr'⟩ := haccepted'
  have hstands : ¬ (⟨.selector .addAdapter, "--netif_add", some ⟨"eth0", ⟨6, 0, 4⟩⟩⟩ :
      Match OptionId).MakesWay [⟨.selector .add, "--device-add", some ⟨"hdd", ⟨4, 0, 3⟩⟩⟩] [] := by
    rintro (⟨-, hkind, -⟩ | ⟨-, hkind, -, -⟩) <;> exact absurd hkind (by decide)
  have hspare : ¬ (⟨.selector .addAdapter, "--netif_add", some ⟨"eth0", ⟨6, 0, 4⟩⟩⟩ :
      Match OptionId).IsSpare [⟨.selector .add, "--device-add", some ⟨"hdd", ⟨4, 0, 3⟩⟩⟩] [] := by
    rintro (⟨hx, ho⟩ | ⟨hx, -⟩)
    · cases hx
      exact absurd ho.kind (by decide)
    · cases hx
  refine ⟨r, r', hr, hr',
    mt (mention_is_visible ?_ ?_ ?_ ?_ ?_ (by decide) (by decide) hstands hr hr').1 hspare⟩
  · rfl
  · rfl
  · rfl
  · exact hoptions
  · rw [hoptions']
    rfl

/-- The line `prlctl set vm1 --device-set hdd0 --diskspace 2048` comes to the same record without
its selector, since a size is for the first disk anyway. -/
theorem selected_disk_is_not_visible : ∃ r m ms,
    Program.guests.options ["prlctl", "set", "vm1", "--device-set", "hdd0", "--diskspace", "2048"] =
      m :: ms ∧
    (Program.guests.options ["prlctl", "set", "vm1", "--diskspace", "2048"]).map Match.occurrence =
      ms.map Match.occurrence ∧
    m.id = .selector .set ∧ (∀ m' ∈ ms, m'.id ≠ m.id) ∧
    ((Program.guests.read
      ["prlctl", "set", "vm1", "--device-set", "hdd0", "--diskspace", "2048"]).perform
      ⟨fun _ => .error "", fun _ => .error ""⟩ .initial).1 = .ok r ∧
    ((Program.guests.read ["prlctl", "set", "vm1", "--diskspace", "2048"]).perform
      ⟨fun _ => .error "", fun _ => .error ""⟩ .initial).1 = .ok r := by
  have hstream : CommandTable.set.read
      ["prlctl", "set", "vm1", "--device-set", "hdd0", "--diskspace", "2048"] 3 =
      ⟨[.option ⟨.selector .set, "--device-set", some ⟨"hdd0", ⟨4, 0, 4⟩⟩⟩,
        .option ⟨.device .size, "--diskspace", some ⟨"2048", ⟨6, 0, 4⟩⟩⟩], none⟩ :=
    Table.read_eq_of_streamWithin (n := 3) (by rfl)
  have hstream' : CommandTable.set.read ["prlctl", "set", "vm1", "--diskspace", "2048"] 3 =
      ⟨[.option ⟨.device .size, "--diskspace", some ⟨"2048", ⟨4, 0, 4⟩⟩⟩], none⟩ :=
    Table.read_eq_of_streamWithin (n := 2) (by rfl)
  obtain ⟨hoptions, hread⟩ := set_line_of_stream (by rfl) hstream
  obtain ⟨hoptions', hread'⟩ := set_line_of_stream (by rfl) hstream'
  have haccepted : ∃ r, ((Program.guests.read
      ["prlctl", "set", "vm1", "--device-set", "hdd0", "--diskspace", "2048"]).perform
      ⟨fun _ => .error "", fun _ => .error ""⟩ .initial).1 = .ok r := by
    rw [hread]
    exact ⟨_, rfl⟩
  have haccepted' : ∃ r, ((Program.guests.read
      ["prlctl", "set", "vm1", "--diskspace", "2048"]).perform
      ⟨fun _ => .error "", fun _ => .error ""⟩ .initial).1 = .ok r := by
    rw [hread']
    exact ⟨_, rfl⟩
  obtain ⟨r, hr⟩ := haccepted
  obtain ⟨r', hr'⟩ := haccepted'
  obtain ⟨q, htake⟩ := exists_takeAll_of_accepted rfl hr
  obtain ⟨q', htake'⟩ := exists_takeAll_of_accepted rfl hr'
  rw [hoptions] at htake
  rw [hoptions'] at htake'
  have hnone : ∀ o ∈ ([] : List (Occurrence OptionId)), o.id.selector? = none :=
    List.forall_mem_nil _
  obtain ⟨hmoved, hstays⟩ := Draft.takeAll_shorthand ⟨fun _ => .error "", fun _ => .error ""⟩
    (some "vm1") .initial "2048" hnone
  have hstays : Draft.settleDisk r' = r' :=
    (hstays (r', q') htake').2 (List.forall_mem_nil _)
  have hsettled : some (r, q) = some (Draft.settleDisk r', q') :=
    htake.symm.trans (hmoved.trans (congrArg _ htake'))
  obtain rfl : r = r' := (congrArg Prod.fst (Option.some.inj hsettled)).trans hstays
  exact ⟨r, _, _, hoptions, by rw [hoptions']; rfl, rfl, by decide, hr, hr'⟩

end Program

end VmControl
