import VmControl.Proofs.Line.Accusation
import VmControl.Proofs.Line.Handled
import VmControl.Proofs.Options.Values
import VmControl.Proofs.Redaction

/-!
# Credentials that are turned down

The value of an option that is a credential is wiped before anyone looks at it, so nothing is left
of one that is not well formed.  A login in front of a name is looked at first, and its password is
wiped if it is well formed: if it is not, it stays on the line as it was written.

## Main definitions

* `ArgumentBytes.IsBlank`: the bytes of a slot are zero.

## Main statements

* `Command.login_stands_apart`: no two credentials share an argument with a login in front of a name.
* `Program.rejected_credential_is_wiped_or_kept`: what is left of a credential that is turned
  down.
-/

namespace VmControl

open Options Text

/-! ## Bytes of a slot -/

namespace ArgumentBytes

/-- Whether the bytes of a slot are zero. -/
def IsBlank (b : ArgumentBytes) (s : Slot) : Prop :=
  ∀ j, s.start ≤ j → j < s.stop → b.byte? s.index j = some 0

/-- A slot that is wiped is blank. -/
theorem isBlank_wipeAll {args : List String} {arg : String} {slots : List Slot} {s : Slot}
    (harg : args[s.index]? = some arg) (hstop : s.stop ≤ byteLength arg.toList) (hs : s ∈ slots) :
    ((ofArgs args).wipeAll slots).IsBlank s := by
  intro j hstart hj
  obtain ⟨v, hv⟩ := (exists_byte?_ofArgs harg).2 (Nat.lt_of_lt_of_le hj hstop)
  have hcovers : ∃ s' ∈ slots, s'.Covers s.index j := ⟨s, hs, rfl, hstart, hj⟩
  rw [byte?_wipeAll, hv, Option.map_some, if_pos hcovers]

/-- An argument without slots is left alone. -/
theorem byte?_wipeAll_of_index_ne {b : ArgumentBytes} {slots : List Slot} {i : Nat}
    (h : ∀ s ∈ slots, s.index ≠ i) (j : Nat) : (b.wipeAll slots).byte? i j = b.byte? i j := by
  have hcovers : ¬ ∃ s ∈ slots, s.Covers i j := fun ⟨s, hs, hcover⟩ => h s hs hcover.1
  rw [byte?_wipeAll]
  simp only [if_neg hcovers]
  cases b.byte? i j <;> rfl

end ArgumentBytes

/-! ## Where logins stand -/

theorem eq_of_mem_targetLogins {index : Nat} {role token : String} {l l' : PlacedLogin}
    (h : l ∈ targetLogins index role token) (h' : l' ∈ targetLogins index role token) : l' = l := by
  unfold targetLogins at h h'
  cases hcut : cutSlash token with
  | none =>
    rw [hcut] at h
    cases h
  | some cut =>
    rw [hcut] at h h'
    rw [List.mem_singleton.1 h, List.mem_singleton.1 h']

theorem exists_rest_of_mem_targetLogins {index : Nat} {role token : String} {l : PlacedLogin}
    (h : l ∈ targetLogins index role token) : ∃ rest, token = l.text ++ rest := by
  unfold targetLogins at h
  cases hcut : cutSlash token with
  | none =>
    rw [hcut] at h
    cases h
  | some cut =>
    rw [hcut] at h
    rw [List.mem_singleton.1 h]
    exact ⟨_, (cutSlash_eq_some hcut).1⟩

theorem exists_rest_hostLogin (index : Nat) (role token : String) :
    ∃ rest, token = (hostLogin index role token).text ++ rest := by
  unfold hostLogin
  cases hcut : cutSlash token with
  | none => exact ⟨"", by simp⟩
  | some cut => exact ⟨_, (cutSlash_eq_some hcut).1⟩

theorem PlacedLogin.index_of_slot? {l : PlacedLogin} {s : Slot} (h : l.slot? = some s) :
    s.index = l.index := by
  obtain ⟨t, -, h⟩ := Option.bind_eq_some_iff.1 h
  obtain ⟨p, -, rfl⟩ := Option.map_eq_some_iff.1 h
  rfl

theorem exists_value_of_credentialSlot? {m : Match OptionId} {s : Slot}
    (h : credentialSlot? m = some s) : ∃ v, m.value = some v ∧ v.slot = s := by
  unfold credentialSlot? at h
  split at h
  · exact Option.map_eq_some_iff.1 h
  · cases h

/-- Whether a login is the start of an argument in which no value of an option and none of these
other logins stands. -/
def PlacedLogin.StandsApart (l : PlacedLogin) (args : List String) (ms : List (Match OptionId))
    (ls : List PlacedLogin) : Prop :=
  (∃ rest, args[l.index]? = some (l.text ++ rest)) ∧
    (∀ m ∈ ms, ∀ v, m.value = some v → v.slot.index ≠ l.index) ∧
    ∀ l' ∈ ls, l'.index = l.index → l' = l

section Lines

variable (action : Action) (table : CommandTable) {start : Nat} {args : List String}
  {l : PlacedLogin}

theorem standsApart_migration (h : l ∈ LineKind.migration.logins start args) :
    l.StandsApart args (LineKind.migration.stream action table start args).options
      (LineKind.migration.logins start args) := by
  have hstand := standFrom_read table args (start + 2)
  unfold LineKind.logins at h ⊢
  dsimp only at h ⊢
  cases hs : args[start]? with
  | none => rw [hs] at h; cases h
  | some source =>
    cases hd : args[start + 1]? with
    | none => rw [hs, hd] at h; cases h
    | some destination =>
      rw [hs, hd] at h
      dsimp only at h ⊢
      rcases migrationLogins_cases h with ⟨hindex, hl⟩ | ⟨hindex, hl⟩
      · obtain ⟨rest, hrest⟩ := exists_rest_of_mem_targetLogins hl
        refine ⟨⟨rest, by rw [hindex, hs, hrest]⟩, fun m hm v hv => ?_, fun l' hl' hsame => ?_⟩
        · have := hstand m hm v hv
          omega
        · rcases migrationLogins_cases hl' with ⟨-, hl'⟩ | ⟨hindex', -⟩
          · exact eq_of_mem_targetLogins hl hl'
          · omega
      · obtain ⟨rest, hrest⟩ := exists_rest_hostLogin (start + 1) "dst" destination
        have heq := List.mem_singleton.1 hl
        refine ⟨⟨rest, by rw [hindex, hd, heq, ← hrest]⟩, fun m hm v hv => ?_,
          fun l' hl' hsame => ?_⟩
        · have := hstand m hm v hv
          omega
        · rcases migrationLogins_cases hl' with ⟨hindex', -⟩ | ⟨-, hl'⟩
          · omega
          · rw [List.mem_singleton.1 hl', heq]

theorem standsApart_backup (h : l ∈ LineKind.backup.logins start args) :
    l.StandsApart args (LineKind.backup.stream action table start args).options
      (LineKind.backup.logins start args) := by
  have hstand := standFrom_read table args (start + 1)
  unfold LineKind.logins at h ⊢
  dsimp only at h ⊢
  cases hs : args[start]? with
  | none => rw [hs] at h; cases h
  | some name =>
    rw [hs] at h
    dsimp only at h ⊢
    have hindex := index_of_mem_targetLogins h
    obtain ⟨rest, hrest⟩ := exists_rest_of_mem_targetLogins h
    refine ⟨⟨rest, by rw [hindex, hs, hrest]⟩, fun m hm v hv => ?_, fun l' hl' _ =>
      eq_of_mem_targetLogins h hl'⟩
    have := hstand m hm v hv
    omega

theorem standsApart_template (h : l ∈ FamilyKind.template.logins start args) :
    l.StandsApart args (FamilyKind.template.stream table start args).options
      (FamilyKind.template.logins start args) := by
  unfold FamilyKind.logins at h ⊢
  unfold FamilyKind.stream
  dsimp only at h ⊢
  by_cases hcopy : (args.drop start).head? = some "copy"
  · rw [if_pos hcopy] at h ⊢
    rw [if_pos hcopy]
    rcases hwords : args.drop (start + 1) with _ | ⟨host, _ | ⟨name, rest⟩⟩
    · rw [hwords] at h; cases h
    · rw [hwords] at h; cases h
    · rw [hwords] at h
      obtain rfl := List.mem_singleton.1 h
      dsimp only
      have hhost : args[start + 1]? = some host := by
        rw [← List.head?_drop, hwords, List.head?_cons]
      refine ⟨⟨"", by simp [hhost]⟩, fun m hm v hv => ?_, fun l' hl' _ =>
        List.mem_singleton.1 hl'⟩
      have hstand := standFrom_read table args _ m hm v hv
      dsimp only
      omega
  · rw [if_neg hcopy] at h
    cases h

end Lines

/-- **A login in front of a name has its argument to itself.** -/
theorem Command.login_stands_apart {c : Command} {args : List String} {l : PlacedLogin}
    (h : l ∈ c.logins args) : l.StandsApart args (c.stream args).options (c.logins args) := by
  cases c with
  | line kind action table start =>
    cases kind with
    | migration => exact standsApart_migration action table h
    | backup => exact standsApart_backup action table h
    | _ => cases h
  | family kind table start =>
    cases kind with
    | template => exact standsApart_template table h
    | _ => cases h
  | monitor => cases h

/-! ## Options with credentials -/

namespace Program

variable {p : Program} {args : List String}

/-- Options for credentials take values. -/
theorem takesValue_of_command {c : Command} (h : p.command args = .ok c) :
    ∀ e ∈ c.table.entries, e.id.isCredential = true → e.takesValue = true := by
  have hroster : ∀ l ∈ p.roster, ∀ e ∈ l.command.table.entries,
      e.id.isCredential = true → e.takesValue = true := by
    cases p <;> decide +kernel
  obtain ⟨l, hl, rfl, -⟩ := exists_listing h
  exact hroster l hl

/-- An option for a credential has a value, which is what its slot holds. -/
theorem exists_exact_value {m : Match OptionId} (hm : m ∈ p.options args)
    (hcredential : m.id.isCredential = true) :
    ∃ v place front tail, m.value = some v ∧ v.Exact args place front tail := by
  unfold options at hm
  cases hc : p.command? args with
  | none =>
    rw [hc] at hm
    cases hm
  | some c =>
    rw [hc] at hm
    obtain ⟨n, hread⟩ := Command.exists_read_of_mem_stream (Stream.mem_options.1 hm)
    obtain ⟨place, arg, offset, -, e, front, tail, hat, hid, hvalue, hexact⟩ :=
      Cursor.readAt_of_mem_stream (Cursor.on_ofArgs args n) hread
    have htakes : e.takesValue = true :=
      takesValue_of_command (command?_eq_some.1 hc).2 e hat.mem (hid ▸ hcredential)
    rw [htakes] at hvalue
    obtain ⟨v, hv⟩ := Option.isSome_iff_exists.1 hvalue
    exact ⟨v, place, front, tail, hv, hexact v hv⟩

/-- A login in front of a name has its argument to itself. -/
theorem login_stands_apart {l : PlacedLogin} (h : l ∈ p.logins args) :
    l.StandsApart args (p.options args) (p.logins args) := by
  unfold logins options at *
  cases hc : p.command? args with
  | none =>
    rw [hc] at h
    cases h
  | some c =>
    rw [hc] at h
    exact Command.login_stands_apart h

/-! ## What is left -/

/-- **A credential that is turned down is wiped if it stands in an option, and kept if it stands in
front of a name.**  Let a line be turned down for a credential.  Then it is that of the option which
was come to last: it is not well formed, the option has the name that is told, and the bytes of its
value are zero.  Or it is a login in front of a name, which comes after those that were well formed
and is not: it plays the part that is told, and no byte of its argument has changed. -/
theorem rejected_credential_is_wiped_or_kept {host : Host} {start : Preferences} {name : String}
    (h : ((p.read args).perform host start).1 = .error (.badSecret name)) :
    let out := (p.read args).perform host start
    let before := ArgumentBytes.ofArgs args
    let after := before.wipeAll out.2.wiped
    (∃ m v, out.2.options.getLast? = some m ∧ m.IsMalformed ∧ m.name = name ∧ m.value = some v ∧
      v.slot.text? args = some v.text ∧ after.IsBlank v.slot) ∨
    ∃ l rest, (p.logins args)[out.2.logins.length]? = some l ∧ LoginText.read l.text = none ∧
      l.role = name ∧ args[l.index]? = some (l.text ++ rest) ∧
      ∀ j, after.byte? l.index j = before.byte? l.index j := by
  intro out before after
  obtain ⟨ms, ls, hms, hls, hvisit, -⟩ := p.visits_read args host (.start start)
  have hoptions : out.2.options = ms := hvisit.options
  have hlogins : out.2.logins = ls := hvisit.logins
  have hwiped (s : Slot) : s ∈ out.2.wiped ↔ s ∈ credentialSlots ms ls :=
    (hvisit.wiped s).trans (or_iff_right List.not_mem_nil)
  rcases p.accuses_read args host (.start start) name h with
    ⟨m, hlast, hmalformed, hname⟩ | ⟨ls', l, hls', hnext, hrole, htext⟩
  · have hm : m ∈ ms := hoptions ▸ List.mem_of_getLast? hlast
    obtain ⟨v, place, front, tail, hv, hexact⟩ :=
      exists_exact_value (hms.subset hm) hmalformed.isCredential
    obtain ⟨front', hargument, -, hstop⟩ := hexact.suffix
    refine .inl ⟨m, v, hlast, hmalformed, hname, hv, hexact.slice, ?_⟩
    refine ArgumentBytes.isBlank_wipeAll hargument ?_ ((hwiped _).2 ?_)
    · rw [byteLength_toList, hstop]
    · have hslot : credentialSlot? m = some v.slot := by
        simp [credentialSlot?, hmalformed.isCredential, Match.slot?, hv]
      exact List.mem_append_left _ (List.mem_filterMap.2 ⟨m, hm, hslot⟩)
  · obtain rfl : ls' = ls := by
      rw [← hlogins]
      exact hls'.symm
    obtain ⟨left, hleft⟩ := hnext
    have hl : l ∈ p.logins args := by simp [← hleft]
    obtain ⟨⟨rest, hargument⟩, hoption, hother⟩ := login_stands_apart hl
    refine .inr ⟨l, rest, ?_, htext, hrole, hargument, ?_⟩
    · rw [← hleft, hlogins]
      simp
    · refine ArgumentBytes.byte?_wipeAll_of_index_ne fun s hs => ?_
      rcases List.mem_append.1 ((hwiped s).1 hs) with hs | hs
      · obtain ⟨m, hm, hslot⟩ := List.mem_filterMap.1 hs
        obtain ⟨v, hv, rfl⟩ := exists_value_of_credentialSlot? hslot
        exact hoption m (hms.subset hm) v hv
      · obtain ⟨l', hl', hslot⟩ := List.mem_filterMap.1 hs
        rw [PlacedLogin.index_of_slot? hslot]
        intro hindex
        -- The logins that were come to are well formed, and this one is not.
        obtain rfl := hother l' (hls.subset hl') hindex
        have hread := hvisit.wellFormed l' hl'
        rw [htext] at hread
        cases hread

/-- In `prlctl start vm1 --login u:pw@` the login has no server, and nothing is left of it. -/
theorem rejected_login_option_is_blank :
    let args := ["prlctl", "start", "vm1", "--login", "u:pw@"]
    let out := (guests.read args).perform ⟨fun _ => .error "", fun _ => .error ""⟩ .initial
    out.1 = .error (.badSecret "--login") ∧
      ((ArgumentBytes.ofArgs args).wipeAll out.2.wiped).IsBlank ⟨4, 0, 5⟩ := by
  intro args out
  have hstream : CommandTable.start.read args 3 =
      ⟨[.option ⟨.login, "--login", some ⟨"u:pw@", ⟨4, 0, 5⟩⟩⟩], none⟩ :=
    Table.read_eq_of_streamWithin (n := 2) (by rfl)
  have hread : out = (readGuestLine .start CommandTable.start 2 args).perform
      ⟨fun _ => .error "", fun _ => .error ""⟩ .initial := rfl
  have hout : out.1 = .error (.badSecret "--login") ∧
      out.2.options = [⟨.login, "--login", some ⟨"u:pw@", ⟨4, 0, 5⟩⟩⟩] := by
    rw [hread, readGuestLine, hstream]
    exact ⟨rfl, rfl⟩
  refine ⟨hout.1, ?_⟩
  rcases rejected_credential_is_wiped_or_kept hout.1 with
    ⟨m, v, hlast, -, -, hv, -, hblank⟩ | ⟨l, rest, hl, -⟩
  · rw [hout.2] at hlast
    cases hlast
    cases hv
    exact hblank
  · cases hl

/-- In `prlctl migrate root:s3cret@/vm1 node2` the login has no server, and the line is turned down
for it with the password in plain sight. -/
theorem rejected_login_keeps_password :
    let args := ["prlctl", "migrate", "root:s3cret@/vm1", "node2"]
    let out := (guests.read args).perform ⟨fun _ => .error "", fun _ => .error ""⟩ .initial
    out.1 = .error (.badSecret "src") ∧ out.2.wiped = [] ∧
      ((ArgumentBytes.ofArgs args).wipeAll out.2.wiped).byte? 2 5 = some 115 := by
  intro args out
  have hwiped : out.2.wiped = [] := rfl
  refine ⟨rfl, hwiped, ?_⟩
  rw [hwiped]
  show (ArgumentBytes.ofArgs args).byte? 2 5 = _
  decide +kernel

end Program

end VmControl
