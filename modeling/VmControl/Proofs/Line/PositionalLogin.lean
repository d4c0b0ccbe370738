import VmControl.Proofs.Line.Layout
import VmControl.Proofs.Options.Pieces

/-!
# Logins in front of names

A login may stand in an option of its own, or in front of a name with a slash between the two.  In
both places it is read by the same rules, but a name starts after the first slash of its argument.
So a login that has a slash, in its password say, is fine in an option, while in front of a name it
is cut there.

## Main definitions

* `LoginText.IsOption`: a login text stands in an option.
* `LoginText.IsTarget`: it stands in front of the name of a guest.
* `LoginText.IsDestination`: it stands in front of the name that a guest gets on another host.

## Main statements

* `cutSlash_append`: where a text followed by a slash and a name is cut.
* `LoginText.positional_iff_no_slash`: logins stand in front of names exactly if they have none.
-/

namespace VmControl

open Options

/-! ## Where a login ends -/

/-- **A slash and a name after a text are cut off, unless the text is cut before.** -/
theorem cutSlash_append (s name : String) :
    cutSlash (s ++ "/" ++ name) =
      match cutSlash s with
      | some (before, after) => some (before, after ++ "/" ++ name)
      | none => some (s, name) := by
  have hlist : (s ++ "/" ++ name).toList = s.toList ++ '/' :: name.toList := by simp
  unfold cutSlash
  rw [hlist]
  cases hcut : Text.cutFirst '/' s.toList with
  | none =>
    have hs : Text.cutFirst '/' (s.toList ++ '/' :: name.toList) = some (s.toList, name.toList) :=
      Text.cutFirst_eq_some.2 ⟨rfl, Text.cutFirst_eq_none.1 hcut⟩
    simp [hs]
  | some cut =>
    obtain ⟨before, after⟩ := cut
    obtain ⟨hbefore, hslash⟩ := Text.cutFirst_eq_some.1 hcut
    have hs : Text.cutFirst '/' (s.toList ++ '/' :: name.toList) =
        some (before, after ++ '/' :: name.toList) :=
      Text.cutFirst_eq_some.2 ⟨by simp [hbefore], hslash⟩
    simp [hs, ← String.toList_inj]

theorem cutSlash_append_of_notMem {s : String} (hs : '/' ∉ s.toList) (name : String) :
    cutSlash (s ++ "/" ++ name) = some (s, name) := by
  rw [cutSlash_append, cutSlash_eq_none.2 hs]

/-- A name after a text with a slash is not told from the end of that text. -/
theorem name_ne_of_cutSlash_append {s name : String} {cut : String × String}
    (hs : '/' ∈ s.toList) (hcut : cutSlash (s ++ "/" ++ name) = some cut) : cut.2 ≠ name := by
  rw [cutSlash_append] at hcut
  cases hfirst : cutSlash s with
  | none => exact absurd hs (cutSlash_eq_none.1 hfirst)
  | some first =>
    rw [hfirst] at hcut
    cases hcut
    intro hname
    have hlength := congrArg String.length hname
    simp only [String.length_append] at hlength
    have hslash : ("/" : String).length = 1 := rfl
    omega

/-! ## The three places of a login -/

namespace Effects

/-- The effects once a login was read that stands at the start of an argument: its password is
wiped, and nothing else. -/
def takeLogin (e : Effects) (l : PlacedLogin) (login : LoginText) : Effects :=
  { e with
    logins := e.logins ++ [l]
    wiped := e.wiped ++ (login.password.map fun p => ⟨l.index, p.start, p.stop⟩).toList }

end Effects

theorem after_readPositionalLogin {s : String} {login : LoginText}
    (h : LoginText.read s = some login) (index : Nat) (role : String) (host : Host) (e : Effects) :
    (readPositionalLogin index role s).after host e =
      (.ok login, e.takeLogin ⟨index, role, s⟩ login) := by
  unfold readPositionalLogin Effects.takeLogin
  simp [h, Except.map]

theorem after_readTarget {s name : String} {login : LoginText}
    (h : LoginText.read s = some login) (hs : '/' ∉ s.toList) (index : Nat) (role : String)
    (host : Host) (e : Effects) :
    (readTarget index role (s ++ "/" ++ name)).after host e =
      (.ok (some login, name), e.takeLogin ⟨index, role, s⟩ login) := by
  unfold readTarget
  rw [cutSlash_append_of_notMem hs]
  simp [after_readPositionalLogin h, Except.map]

/-- If a text has a slash, then no name after it is read. -/
theorem name_ne_of_readTarget {s name : String} (hs : '/' ∈ s.toList) {index : Nat} {role : String}
    {host : Host} {e : Effects} {target : Option LoginText × String}
    (h : ((readTarget index role (s ++ "/" ++ name)).after host e).1 = .ok target) :
    target.2 ≠ name := by
  unfold readTarget at h
  cases hcut : cutSlash (s ++ "/" ++ name) with
  | none =>
    have hslash : '/' ∉ (s ++ "/" ++ name).toList := cutSlash_eq_none.1 hcut
    exact absurd (by simp [hs]) hslash
  | some cut =>
    rw [hcut] at h
    simp only [Reading.after_bind] at h
    split at h
    · cases h
      exact name_ne_of_cutSlash_append hs hcut
    · cases h

namespace LoginText

/-- Whether an option with this text assigns the login, and its value is wiped. -/
def IsOption (s : String) (login : LoginText) : Prop :=
  ∀ m : Match OptionId, m.id = .login → m.text = s → ∀ host e,
    (readCommonOption m).after host e =
      (.ok (some (·.assign login)), { e with wiped := e.wiped ++ m.slot?.toList })

/-- Whether the text in front of a guest assigns the login and leaves the name of the guest, and its
password is wiped. -/
def IsTarget (s name : String) (login : LoginText) : Prop :=
  ∀ (index : Nat) (role : String) (l : Login) (host : Host) (e : Effects),
    (((fun target => (l.assignTarget target.1, target.2)) <$>
      readTarget index role (s ++ "/" ++ name)).after host e) =
      (.ok (l.assign login, name), e.takeLogin ⟨index, role, s⟩ login)

/-- Whether the text in front of the new name of a guest is the login of the host that it goes to
and leaves the new name, and its password is wiped. -/
def IsDestination (s name : String) (login : LoginText) : Prop :=
  ∀ (action : Action) (table : CommandTable) (start : Nat) (args : List String) (source : String),
    args[start]? = some source → args[start + 1]? = some (s ++ "/" ++ name) →
    readMigrationLine action table start args = (do
      let target ← readTarget start "src" source
      Reading.enterLogin ⟨start + 1, "dst", s⟩
      Reading.wipe (login.password.map fun p => ⟨start + 1, p.start, p.stop⟩)
      let record ← Migration.grammar.read (migrationStart action target (some name) login)
        (table.read args (start + 2))
      Reading.ofExcept (Rule.enforce record.migration.rules)
      return record)

variable {s : String} {login : LoginText}

theorem isOption (h : read s = some login) : IsOption s login := by
  intro m hid htext host e
  unfold readCommonOption readLogin
  simp [hid, htext, h, Except.map]

theorem isTarget_iff (h : read s = some login) (name : String) :
    IsTarget s name login ↔ '/' ∉ s.toList := by
  constructor
  · intro htarget hs
    have hafter := htarget 0 "" ∅ ⟨fun _ => .error "", fun _ => .error ""⟩ (.start .initial)
    rw [Reading.after_map] at hafter
    have hresult := congrArg Prod.fst hafter
    obtain ⟨target, htarget, hname⟩ := map_eq_ok.1 hresult
    exact name_ne_of_readTarget hs htarget (congrArg Prod.snd hname)
  · intro hs index role l host e
    rw [Reading.after_map, after_readTarget h hs]
    rfl

theorem isDestination_iff (h : read s = some login) (name : String) :
    IsDestination s name login ↔ '/' ∉ s.toList := by
  constructor
  · -- A migration of the guest `vm1` without options, which is accepted once its host is read.
    intro hdestination hs
    have heq := hdestination .migrate CommandTable.migrate 2
      ["prlctl", "migrate", "vm1", s ++ "/" ++ name] "vm1" rfl rfl
    have hstream : CommandTable.migrate.read
        ["prlctl", "migrate", "vm1", s ++ "/" ++ name] 4 = ⟨[], none⟩ :=
      Table.read_eq_of_streamWithin (n := 1) (by rfl)
    have hend (target : Option LoginText × String) (name : Option String) (host : LoginText) :
        (do
          let record ← Migration.grammar.read (migrationStart .migrate target name host) ⟨[], none⟩
          Reading.ofExcept (Rule.enforce record.migration.rules)
          return record : Reading Record) = pure (migrationStart .migrate target name host) := rfl
    have hsource : readTarget 2 "src" "vm1" = pure (none, "vm1") := rfl
    rw [@readMigrationLine_eq _ _ _ _ "vm1" _ rfl rfl, hstream] at heq
    simp only [hend, hsource, pure_bind] at heq
    replace heq := congrArg
      (Reading.after · ⟨fun _ => .error "", fun _ => .error ""⟩ (.start .initial)) heq
    simp only [Reading.after_bind, Reading.after_pure, Reading.after_enterLogin,
      Reading.after_wipe] at heq
    split at heq
    · have hrecord := Except.ok.inj (congrArg Prod.fst heq)
      have hname := congrArg (·.migration.newName) hrecord
      obtain ⟨cut, hcut, hname⟩ := Option.map_eq_some_iff.1 hname
      exact name_ne_of_cutSlash_append hs hcut hname
    · cases heq
  · intro hs action table start args source hsource hdestination
    rw [readMigrationLine_eq hsource hdestination, hostLogin, cutSlash_append_of_notMem hs]
    unfold readPositionalLogin
    rw [h]
    simp

/-- **A login in front of a name means what it means in an option, exactly if it has no slash.**  In
an option it is assigned to the login whatever it has.  In front of the name of a guest it is
assigned all the same, the name is what follows, and the bytes of the password are wiped, exactly if
it has no slash; and so it is with the host that a guest goes to and its new name. -/
theorem positional_iff_no_slash (h : read s = some login) (name : String) :
    IsOption s login ∧ (IsTarget s name login ↔ '/' ∉ s.toList) ∧
      (IsDestination s name login ↔ '/' ∉ s.toList) :=
  ⟨isOption h, isTarget_iff h name, isDestination_iff h name⟩

/-- The login `root:pw@node1` may stand in front of the name `vm1`. -/
theorem root_login_is_positional :
    read "root:pw@node1" = some ⟨"root", some ⟨"pw", 5, 7⟩, "node1", none⟩ ∧
    IsTarget "root:pw@node1" "vm1" ⟨"root", some ⟨"pw", 5, 7⟩, "node1", none⟩ ∧
    IsDestination "root:pw@node1" "vm1" ⟨"root", some ⟨"pw", 5, 7⟩, "node1", none⟩ := by
  have hread : read "root:pw@node1" = some ⟨"root", some ⟨"pw", 5, 7⟩, "node1", none⟩ := by decide
  have hslash : '/' ∉ "root:pw@node1".toList := by decide
  obtain ⟨-, htarget, hdestination⟩ := positional_iff_no_slash hread "vm1"
  exact ⟨hread, htarget.2 hslash, hdestination.2 hslash⟩

end LoginText

/-- The line `prlctl backup admin:1/2@node1/vm1` goes to the port 1 of the host `admin`, for a guest
whose name is `2@node1/vm1`, and wipes nothing, though `admin:1/2@node1` is a login with the
password `1/2` by itself. -/
theorem login_with_slash_is_cut :
    LoginText.read "admin:1/2@node1" = some ⟨"admin", some ⟨"1/2", 6, 9⟩, "node1", none⟩ ∧
    ∃ r e, (Program.guests.read ["prlctl", "backup", "admin:1/2@node1/vm1"]).perform
        ⟨fun _ => .error "", fun _ => .error ""⟩ .initial = (.ok r, e) ∧
      r.target = some "2@node1/vm1" ∧ r.backup.node = ⟨"root", "admin", some 1, ∅⟩ ∧
      e.wiped = [] := by
  have hstream : CommandTable.backup.read ["prlctl", "backup", "admin:1/2@node1/vm1"] 3 =
      ⟨[], none⟩ :=
    Table.read_eq_of_streamWithin (n := 1) (by rfl)
  have hread : Program.guests.read ["prlctl", "backup", "admin:1/2@node1/vm1"] =
      readBackupLine .backup CommandTable.backup 2 ["prlctl", "backup", "admin:1/2@node1/vm1"] :=
    rfl
  refine ⟨by decide, ?_⟩
  rw [hread, readBackupLine]
  dsimp only [List.getElem?_cons_succ, List.getElem?_cons_zero]
  rw [hstream]
  exact ⟨_, _, rfl, rfl, rfl, rfl⟩

end VmControl
