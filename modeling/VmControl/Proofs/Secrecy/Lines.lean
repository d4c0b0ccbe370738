import VmControl.Proofs.Secrecy.Grammars

/-!
# Lines that differ in credentials

Two lines that differ only in credentials which both runs come to are read alike: the words that say
what is to be done are the same, so are the guests and other names, and the options are taken alike.

## Main definitions

* `LinesAlike`: two lines that differ only in credentials.

## Main statements

* `Command.alike_read`: a command reads such lines alike.
-/

namespace VmControl

open Options

/-! ## Lines -/

/-- Whether two login texts differ only in the password, or neither is well formed. -/
def LoginTextsAlike (s s' : String) : Prop :=
  (LoginText.read s).map LoginText.blank = (LoginText.read s').map LoginText.blank

/-- Whether two arguments differ only in logins that they start with. -/
def LoginsDiffer (ls ls' : List PlacedLogin) (index : Nat) (a a' : String) : Prop :=
  ∃ l ∈ ls, ∃ l' ∈ ls', ∃ rest, l.index = index ∧ l'.index = index ∧
    a = l.text ++ rest ∧ a' = l'.text ++ rest ∧ LoginTextsAlike l.text l'.text

theorem LoginsDiffer.mono {ls ls' ks ks' : List PlacedLogin} {index : Nat} {a a' : String}
    (h : LoginsDiffer ls ls' index a a') (hks : ∀ l ∈ ls, l.index = index → l ∈ ks)
    (hks' : ∀ l ∈ ls', l.index = index → l ∈ ks') : LoginsDiffer ks ks' index a a' := by
  obtain ⟨l, hl, l', hl', rest, hindex, hindex', h⟩ := h
  exact ⟨l, hks l hl hindex, l', hks' l' hl' hindex', rest, hindex, hindex', h⟩

/-- Whether two lines, with these options and logins, differ only in credentials: each argument is
the same, or ends in values that are credentials, or starts with logins. -/
structure LinesAlike (ms ms' : List (Match OptionId)) (ls ls' : List PlacedLogin)
    (args args' : List String) : Prop where
  /-- The lines are equally long. -/
  length : args.length = args'.length
  /-- Their arguments are alike. -/
  argument : ∀ i a a', args[i]? = some a → args'[i]? = some a' → a = a' ∨
    Differ OptionId.CredentialsAlike ms ms' i a.toList a'.toList ∨ LoginsDiffer ls ls' i a a'

namespace LinesAlike

variable {ms ms' : List (Match OptionId)} {ls ls' : List PlacedLogin} {args args' : List String}

/-- An argument is on both lines or on neither. -/
theorem getElem?_cases (h : LinesAlike ms ms' ls ls' args args') (i : Nat) :
    (args[i]? = none ∧ args'[i]? = none) ∨ ∃ a a', args[i]? = some a ∧ args'[i]? = some a' := by
  have hnone : args[i]? = none ↔ args'[i]? = none := by
    rw [List.getElem?_eq_none_iff, List.getElem?_eq_none_iff, h.length]
  cases ha : args[i]? with
  | none => exact .inl ⟨rfl, hnone.1 ha⟩
  | some a =>
    cases ha' : args'[i]? with
    | none =>
      rw [hnone.2 ha'] at ha
      cases ha
    | some a' => exact .inr ⟨a, a', rfl, rfl⟩

/-- Arguments before all options are the same, or differ in logins. -/
theorem argument_of_lt (h : LinesAlike ms ms' ls ls' args args') {start i : Nat}
    (hms : StandFrom start ms) (hi : i < start) {a a' : String} (ha : args[i]? = some a)
    (ha' : args'[i]? = some a') : a = a' ∨ LoginsDiffer ls ls' i a a' := by
  refine (h.argument i a a' ha ha').imp_right fun h => h.resolve_left ?_
  rintro ⟨m, hm, -, -, v, -, -, hv, -, rfl, -⟩
  have := hms m hm v hv
  omega

/-- Arguments before all options that do not start with a login are the same. -/
theorem getElem?_eq (h : LinesAlike ms ms' ls ls' args args') {start i : Nat}
    (hms : StandFrom start ms) (hi : i < start) (hls : ∀ l ∈ ls, l.index ≠ i) :
    args[i]? = args'[i]? := by
  rcases h.getElem?_cases i with ⟨ha, ha'⟩ | ⟨a, a', ha, ha'⟩
  · rw [ha, ha']
  · rcases h.argument_of_lt hms hi ha ha' with rfl | ⟨l, hl, -, -, -, hindex, -⟩
    · rw [ha, ha']
    · exact absurd hindex (hls l hl)

/-- Lines without options and logins are the same. -/
theorem eq (h : LinesAlike [] ms' [] ls' args args') : args = args' := by
  refine List.ext_getElem? fun i => ?_
  have hstand : StandFrom (i + 1) [] := fun m hm => absurd hm List.not_mem_nil
  exact h.getElem?_eq hstand (Nat.lt_succ_self i) fun l hl => absurd hl List.not_mem_nil

theorem eq_of_nil_right (h : LinesAlike ms [] ls [] args args') : args = args' := by
  refine List.ext_getElem? fun i => ?_
  rcases h.getElem?_cases i with ⟨ha, ha'⟩ | ⟨a, a', ha, ha'⟩
  · rw [ha, ha']
  · rcases h.argument i a a' ha ha' with rfl | ⟨-, -, m', hm', -⟩ | ⟨-, -, l', hl', -⟩
    · rw [ha, ha']
    · exact absurd hm' List.not_mem_nil
    · exact absurd hl' List.not_mem_nil

/-- From where the options start, lines that differ in credentials are read alike. -/
theorem read (h : LinesAlike ms ms' ls ls' args args') {table : CommandTable} {start : Nat}
    (hms : ∀ m ∈ ms, m ∈ (table.read args start).options)
    (hms' : ∀ m ∈ ms', m ∈ (table.read args' start).options) (hls : ∀ l ∈ ls, l.index < start) :
    List.Forall₂ (Event.Alike OptionId.CredentialsAlike) (table.read args start).events
      (table.read args' start).events ∧
    (table.read args start).missing = (table.read args' start).missing := by
  refine Table.read_alike h.length fun i a a' hi ha ha' => ?_
  rcases h.argument i a a' ha ha' with rfl | ⟨m, hm, m', hm', hdiffer⟩ | ⟨l, hl, -, -, -, hindex, -⟩
  · exact .inl rfl
  · exact .inr ⟨m, hms m hm, m', hms' m' hm', hdiffer⟩
  · have := hls l hl
    omega

end LinesAlike

/-! ## Parts of a line -/

/-- Whether two readings of records look alike but for secrets. -/
abbrev RecordsAlike (x y : Reading Record) : Prop :=
  Reading.Alike (fun r r' => r.blank = r'.blank) x y

theorem Grammar.Blind.alike_read {α : Type} {g : Grammar α} {blank : α → α} {ids : List OptionId}
    (hg : g.Blind blank ids) {table : CommandTable} (htable : table.HasOnly ids) {start : Nat}
    {args args' : List String} {ls ls' : List PlacedLogin}
    (h : LinesAlike (table.read args start).options (table.read args' start).options ls ls'
      args args') (hls : ∀ l ∈ ls, l.index < start) {a b : α} (hab : blank a = blank b) :
    Reading.Alike (fun a b => blank a = blank b) (g.read a (table.read args start))
      (g.read b (table.read args' start)) := by
  obtain ⟨hevents, hmissing⟩ := h.read (fun _ hm => hm) (fun _ hm => hm) hls
  exact hg.read hevents hmissing (fun m hm => htable.of_mem_read m hm) hab

/-- Rules that do not look at secrets are enforced alike. -/
theorem alike_enforce (rules : Record → List Rule) (hrules : ∀ r, rules r.blank = rules r)
    {r r' : Record} (hr : r.blank = r'.blank) :
    RecordsAlike (do Reading.ofExcept (Rule.enforce (rules r)); return r)
      (do Reading.ofExcept (Rule.enforce (rules r')); return r') := by
  have hsame : rules r = rules r' := by rw [← hrules r, hr, hrules]
  rw [hsame]
  exact (Reading.wipes_ofExcept _).alike_self.bind fun _ _ _ => Reading.alike_pure hr

theorem Record.settle_blank (r : Record) : r.blank.settle = blank <$> r.settle := by
  have hend (host : Host) : Reading.ofExcept (r.blank.consistent host) =
      blank <$> Reading.ofExcept (r.consistent host) := by
    rw [consistent_blank]
    cases r.consistent host <;> rfl
  have hignores : r.blank.ignoresGuest = r.ignoresGuest := rfl
  unfold settle
  rw [hignores]
  split <;> simp only [map_bind, hend]

theorem alike_settle {r r' : Record} (hr : r.blank = r'.blank) : RecordsAlike r.settle r'.settle :=
  Reading.alike_of_map Record.settle_blank wipes_settle hr

theorem alike_finish {d d' : Draft} (hd : d.blank = d'.blank) :
    RecordsAlike (Reading.ofExcept d.finish) (Reading.ofExcept d'.finish) := by
  refine Reading.alike_ofExcept (resultAlike_iff_map.2 ?_)
  rw [← Draft.finish_blank, ← Draft.finish_blank, hd]

/-! ## Logins in front of names -/

theorem alike_readPositionalLogin {s s' : String} (h : LoginTextsAlike s s') (index : Nat)
    (role : String) :
    Reading.Alike (fun t t' => t.blank = t'.blank) (readPositionalLogin index role s)
      (readPositionalLogin index role s') := by
  unfold readPositionalLogin
  unfold LoginTextsAlike at h
  cases ht : LoginText.read s with
  | none =>
    cases ht' : LoginText.read s' with
    | none => exact Reading.alike_throw _
    | some t' => rw [ht, ht'] at h; cases h
  | some t =>
    cases ht' : LoginText.read s' with
    | none => rw [ht, ht'] at h; cases h
    | some t' =>
      rw [ht, ht'] at h
      exact (Reading.alike_enterLogin _ _).bind fun _ _ _ =>
        (Reading.alike_wipe _ _).bind fun _ _ _ => Reading.alike_pure (Option.some.inj h)

theorem rest_of_cutSlash {s login name rest : String} (h : cutSlash s = some (login, name))
    (hs : s = login ++ rest) : rest.toList = '/' :: name.toList := by
  have hcut := (cutSlash_eq_some h).1
  rw [hs, ← String.toList_inj] at hcut
  simpa using hcut

/-- The name that follows a login is not part of it. -/
theorem name_eq_of_cutSlash {s s' rest : String} {cut cut' : String × String}
    (h : cutSlash s = some cut) (h' : cutSlash s' = some cut') (hs : s = cut.1 ++ rest)
    (hs' : s' = cut'.1 ++ rest) : cut.2 = cut'.2 := by
  have hrest := rest_of_cutSlash h hs
  rw [rest_of_cutSlash h' hs'] at hrest
  exact String.toList_inj.1 (List.cons.inj hrest).2.symm

theorem alike_readTarget {token token' : String} {index : Nat} {role : String}
    (h : token = token' ∨ LoginsDiffer (targetLogins index role token)
      (targetLogins index role token') index token token') :
    Reading.Alike (fun t t' => t.1.map LoginText.blank = t'.1.map LoginText.blank ∧ t.2 = t'.2)
      (readTarget index role token) (readTarget index role token') := by
  unfold readTarget
  rcases h with rfl | ⟨l, hl, l', hl', rest, -, -, htoken, htoken', hlogins⟩
  · cases cutSlash token with
    | none => exact Reading.alike_pure ⟨rfl, rfl⟩
    | some cut =>
      refine (alike_readPositionalLogin rfl index role).bind fun t t' ht => Reading.alike_pure ?_
      exact ⟨congrArg some ht, rfl⟩
  · unfold targetLogins at hl hl'
    cases hcut : cutSlash token with
    | none => rw [hcut] at hl; cases hl
    | some cut =>
      cases hcut' : cutSlash token' with
      | none => rw [hcut'] at hl'; cases hl'
      | some cut' =>
        rw [hcut] at hl
        rw [hcut'] at hl'
        obtain rfl := List.mem_singleton.1 hl
        obtain rfl := List.mem_singleton.1 hl'
        refine (alike_readPositionalLogin hlogins index role).bind fun t t' ht =>
          Reading.alike_pure ?_
        exact ⟨congrArg some ht, name_eq_of_cutSlash hcut hcut' htoken htoken'⟩

/-- Two hosts that differ in logins have the same name behind them, if any. -/
theorem hostLogin_alike {token token' : String} {index : Nat} {role : String}
    (h : token = token' ∨ LoginsDiffer [hostLogin index role token] [hostLogin index role token']
      index token token') :
    LoginTextsAlike (hostLogin index role token).text (hostLogin index role token').text ∧
      (cutSlash token).map Prod.snd = (cutSlash token').map Prod.snd := by
  rcases h with rfl | ⟨l, hl, l', hl', rest, -, -, htoken, htoken', hlogins⟩
  · exact ⟨rfl, rfl⟩
  · obtain rfl := List.mem_singleton.1 hl
    obtain rfl := List.mem_singleton.1 hl'
    refine ⟨hlogins, ?_⟩
    unfold hostLogin at htoken htoken'
    cases hcut : cutSlash token with
    | none =>
      rw [hcut] at htoken
      obtain rfl : rest = "" := by
        have hlist := congrArg String.toList htoken
        rw [String.toList_append] at hlist
        simpa using hlist
      cases hcut' : cutSlash token' with
      | none => rfl
      | some cut' =>
        rw [hcut'] at htoken'
        have hrest := rest_of_cutSlash hcut' htoken'
        cases hrest
    | some cut =>
      rw [hcut] at htoken
      have hrest := rest_of_cutSlash hcut htoken
      cases hcut' : cutSlash token' with
      | none =>
        refine absurd ?_ (cutSlash_eq_none.1 hcut')
        rw [htoken', String.toList_append, hrest]
        simp
      | some cut' =>
        rw [hcut'] at htoken'
        exact congrArg some (name_eq_of_cutSlash hcut hcut' htoken htoken')

/-! ## Guest lines -/

/-- The options of a line that ends in a guest command stand before that command. -/
theorem index_lt_of_splitGuestCommand {events : List (Event OptionId)} {index : Nat}
    (hsorted : (events.filterMap Event.index?).Pairwise (· < ·))
    (h : (splitGuestCommand events).2 = some index) {m : Match OptionId} {v : Value}
    (hm : .option m ∈ (splitGuestCommand events).1) (hv : m.value = some v) :
    v.slot.index < index := by
  induction events with
  | nil => cases h
  | cons event events ih =>
    cases event with
    | unknown i token => cases hm
    | option m' =>
      rw [List.filterMap_cons] at hsorted
      rcases List.mem_cons.1 hm with hm | hm
      · cases hm
        have hi : (Event.option m).index? = some v.slot.index := by
          simp [Event.index?, Match.slot?, hv]
        rw [hi] at hsorted
        have hrest : (splitGuestCommand events).2 = some index := h
        obtain ⟨token, htoken⟩ := unknown_mem_of_splitGuestCommand hrest
        exact (List.pairwise_cons.1 hsorted).1 index (List.mem_filterMap.2 ⟨_, htoken, rfl⟩)
      · refine ih ?_ h hm
        split at hsorted
        · exact hsorted
        · exact (List.pairwise_cons.1 hsorted).2

/-- Events that are alike are split alike. -/
theorem splitGuestCommand_alike {events events' : List (Event OptionId)}
    (h : List.Forall₂ (Event.Alike OptionId.CredentialsAlike) events events') :
    List.Forall₂ (Event.Alike OptionId.CredentialsAlike) (splitGuestCommand events).1
      (splitGuestCommand events').1 ∧
    (splitGuestCommand events).2 = (splitGuestCommand events').2 := by
  induction h with
  | nil => exact ⟨.nil, rfl⟩
  | @cons event event' events events' hevent _ ih =>
    cases event with
    | unknown index token =>
      cases hevent
      exact ⟨.nil, rfl⟩
    | option m =>
      obtain ⟨m', rfl, -⟩ := matchAlike_of_eventAlike hevent
      exact ⟨.cons hevent ih.1, ih.2⟩

section Lines

variable {action : Action} {table : CommandTable} {start : Nat} {args args' : List String}

/-- A guest command has no credentials. -/
theorem drop_eq_of_splitGuestCommand {index : Nat} {ms' : List (Match OptionId)}
    (hcut : (splitGuestCommand (table.read args start).events).2 = some index)
    (h : LinesAlike (Stream.options ⟨(splitGuestCommand (table.read args start).events).1, none⟩)
      ms' [] [] args args') : args.drop index = args'.drop index := by
  have hsorted := (Cursor.stream_sorted (t := table) (c := Cursor.ofArgs args start)
    (Cursor.sound_of_run_eq_none rfl)).1
  refine List.ext_getElem? fun i => ?_
  rw [List.getElem?_drop, List.getElem?_drop]
  rcases h.getElem?_cases (index + i) with ⟨ha, ha'⟩ | ⟨a, a', ha, ha'⟩
  · rw [ha, ha']
  · rcases h.argument _ a a' ha ha' with rfl | ⟨m, hm, -, -, v, -, -, hv, -, hi, -⟩ | ⟨l, hl, -⟩
    · rw [ha, ha']
    · have := index_lt_of_splitGuestCommand hsorted hcut (Stream.mem_options.1 hm) hv
      omega
    · exact absurd hl List.not_mem_nil

theorem alike_readGuestLine (htable : table.HasOnly LineKind.guest.credentials)
    (h : LinesAlike (LineKind.guest.stream action table start args).options
      (LineKind.guest.stream action table start args').options [] [] args args') :
    RecordsAlike (readGuestLine action table start args)
      (readGuestLine action table start args') := by
  have hstand : StandFrom (start + 1) (LineKind.guest.stream action table start args).options :=
    fun m hm => standFrom_read table args (start + 1) m (mem_read_of_mem_guestStream hm)
  have hnone (i : Nat) (l : PlacedLogin) (hl : l ∈ []) : l.index ≠ i := absurd hl List.not_mem_nil
  have htarget : args[start]? = args'[start]? :=
    h.getElem?_eq hstand (Nat.lt_succ_self start) (hnone start)
  obtain ⟨hevents, hmissing⟩ := h.read (fun m hm => mem_read_of_mem_guestStream hm)
    (fun m hm => mem_read_of_mem_guestStream hm) (by simp)
  obtain ⟨hbefore, hcut⟩ := splitGuestCommand_alike hevents
  have hread (m : Match OptionId) (hm : .option m ∈ (table.read args (start + 1)).events) :=
    htable.of_mem_read m hm
  unfold readGuestLine
  unfold LineKind.stream at h
  dsimp only at h ⊢
  rw [← htarget, ← hcut]
  rw [← hcut] at h
  generalize hcommand : (if action.takesGuestCommand = true then
    (splitGuestCommand (table.read args (start + 1)).events).2 else none) = command at h ⊢
  cases command with
  | some index =>
    have hindex : (splitGuestCommand (table.read args (start + 1)).events).2 = some index := by
      split at hcommand
      · exact hcommand
      · cases hcommand
    dsimp only at h ⊢
    rw [drop_eq_of_splitGuestCommand hindex h]
    refine (Draft.blind_grammar.steps hbefore
      (fun m hm => hread m (mem_of_mem_splitGuestCommand hm)) rfl).bind fun d d' hd => ?_
    have hrecord : d.record.blank = d'.record.blank := congrArg Draft.record hd
    exact Reading.alike_pure
      (congrArg (fun r : Record => { r with argv := args'.drop index }) hrecord)
  | none =>
    refine (Draft.blind_grammar.read hevents hmissing hread rfl).bind fun d d' hd => ?_
    exact (alike_finish hd).bind fun r r' hr => alike_settle hr

/-! ## Other lines of a kind -/

theorem blank_migrationStart {target target' : Option LoginText × String} {host host' : LoginText}
    (htarget : target.1.map LoginText.blank = target'.1.map LoginText.blank ∧ target.2 = target'.2)
    (hhost : host.blank = host'.blank) (name : Option String) :
    (migrationStart action target name host).blank =
      (migrationStart action target' name host').blank := by
  unfold migrationStart Record.blank Migration.blank
  dsimp only
  rw [Login.blank_assign, Login.blank_assign, Login.blank_assignTarget, Login.blank_assignTarget,
    htarget.1, htarget.2, hhost]

theorem alike_readMigrationLine (htable : table.HasOnly LineKind.migration.credentials)
    (h : LinesAlike (LineKind.migration.stream action table start args).options
      (LineKind.migration.stream action table start args').options
      (LineKind.migration.logins start args) (LineKind.migration.logins start args') args args') :
    RecordsAlike (readMigrationLine action table start args)
      (readMigrationLine action table start args') := by
  have hstand : StandFrom (start + 2) (table.read args (start + 2)).options :=
    standFrom_read table args (start + 2)
  unfold LineKind.stream LineKind.logins at h
  dsimp only at h
  rcases h.getElem?_cases start with ⟨hs, hs'⟩ | ⟨source, source', hs, hs'⟩
  · unfold readMigrationLine
    rw [hs, hs']
    exact Reading.alike_throw _
  rcases h.getElem?_cases (start + 1) with ⟨hd, hd'⟩ | ⟨destination, destination', hd, hd'⟩
  · unfold readMigrationLine
    rw [hs, hs', hd, hd']
    exact Reading.alike_throw _
  rw [hs, hs', hd, hd'] at h
  dsimp only at h
  rw [readMigrationLine_eq hs hd, readMigrationLine_eq hs' hd']
  have hsource := h.argument_of_lt hstand (by omega) hs hs'
  have hdestination := h.argument_of_lt hstand (by omega) hd hd'
  have htarget := hsource.imp_right fun hdiffer => hdiffer.mono
    (fun l hl hi => (migrationLogins_cases hl).elim And.right fun h => by omega)
    (fun l hl hi => (migrationLogins_cases hl).elim And.right fun h => by omega)
  have hhost := hostLogin_alike (hdestination.imp_right fun hdiffer => hdiffer.mono
    (fun l hl hi => (migrationLogins_cases hl).elim (fun h => by omega) And.right)
    (fun l hl hi => (migrationLogins_cases hl).elim (fun h => by omega) And.right))
  have hlogins (l : PlacedLogin)
      (hl : l ∈ targetLogins start "src" source ++ [hostLogin (start + 1) "dst" destination]) :
      l.index < start + 2 := by
    rcases migrationLogins_cases hl with ⟨hi, -⟩ | ⟨hi, -⟩ <;> omega
  refine (alike_readTarget htarget).bind fun target target' ht => ?_
  refine (alike_readPositionalLogin hhost.1 _ _).bind fun t t' htext => ?_
  rw [hhost.2]
  refine (Migration.blind_grammar.alike_read htable h hlogins
    (blank_migrationStart ht htext _)).bind fun r r' hr => ?_
  exact alike_enforce (·.migration.rules) (fun _ => rfl) hr

theorem alike_readBackupLine (htable : table.HasOnly LineKind.backup.credentials)
    (h : LinesAlike (LineKind.backup.stream action table start args).options
      (LineKind.backup.stream action table start args').options
      (LineKind.backup.logins start args) (LineKind.backup.logins start args') args args') :
    RecordsAlike (readBackupLine action table start args)
      (readBackupLine action table start args') := by
  have hstand : StandFrom (start + 1) (table.read args (start + 1)).options :=
    standFrom_read table args (start + 1)
  unfold readBackupLine
  unfold LineKind.stream LineKind.logins at h
  dsimp only at h
  rcases h.getElem?_cases start with ⟨hs, hs'⟩ | ⟨name, name', hs, hs'⟩
  · rw [hs, hs']
    exact Reading.alike_throw _
  rw [hs, hs'] at h ⊢
  dsimp only at h ⊢
  have hname := h.argument_of_lt hstand (Nat.lt_succ_self start) hs hs'
  have hlogins : ∀ l ∈ targetLogins start "node" name, l.index < start + 1 := by
    intro l hl
    rw [index_of_mem_targetLogins hl]
    exact Nat.lt_succ_self start
  refine (Backup.blind_makingGrammar.alike_read htable h hlogins rfl).bind fun r r' hr => ?_
  refine (alike_readTarget hname).bind fun target target' ht => Reading.alike_pure ?_
  have hput (r : Record) (target : Option LoginText × String) :
      Record.blank { r with
        target := some target.2
        backup := { r.backup with node := r.backup.node.assignTarget target.1 } } =
      { r.blank with
        target := some target.2
        backup := { r.blank.backup with
          node := r.blank.backup.node.assignTarget (target.1.map LoginText.blank) } } := by
    unfold Record.blank Backup.blank
    dsimp only
    rw [Login.blank_assignTarget]
  rw [hput, hput, hr, ht.1, ht.2]

theorem alike_readBackupChoice {grammar : Grammar Record} {ids : List OptionId}
    (hg : grammar.Blind Record.blank ids) (htable : table.HasOnly ids)
    (h : LinesAlike (table.read args start).options (table.read args' start).options [] []
      args args') :
    RecordsAlike (readBackupChoice grammar action table start args)
      (readBackupChoice grammar action table start args') := by
  unfold readBackupChoice
  rw [h.length]
  split
  · exact Reading.alike_throw _
  · exact hg.alike_read htable h (by simp) rfl

theorem alike_readServerLine (htable : table.HasOnly [.storage])
    (h : LinesAlike (table.read args start).options (table.read args' start).options [] []
      args args') :
    RecordsAlike (readServerLine action table start args)
      (readServerLine action table start args') :=
  (Server.blind_grammar.alike_read htable h (by simp) rfl).bind
    fun _ _ hr => alike_enforce (·.server.rules) (fun _ => rfl) hr

theorem alike_readProblemReportLine (htable : table.HasOnly LineKind.problemReport.credentials)
    (h : LinesAlike (LineKind.problemReport.stream action table start args).options
      (LineKind.problemReport.stream action table start args').options [] [] args args') :
    RecordsAlike (readProblemReportLine action table start args)
      (readProblemReportLine action table start args') := by
  unfold readProblemReportLine
  unfold LineKind.stream at h
  dsimp only at h ⊢
  split
  · next haction =>
    rw [if_pos haction] at h
    have htarget : args[start]? = args'[start]? :=
      h.getElem?_eq (standFrom_read table args (start + 1)) (Nat.lt_succ_self start) (by simp)
    rw [htarget]
    exact (ProblemReport.blind_grammar.alike_read htable h (by simp) rfl).bind
      fun _ _ hr => alike_enforce (·.report.rules) (fun _ => rfl) hr
  · next haction =>
    rw [if_neg haction] at h
    exact (ProblemReport.blind_grammar.alike_read htable h (by simp) rfl).bind
      fun _ _ hr => alike_enforce (·.report.rules) (fun _ => rfl) hr

/-- Lines of a kind are read alike. -/
theorem LineKind.alike_read {kind : LineKind} (htable : table.HasOnly kind.credentials)
    (h : LinesAlike (kind.stream action table start args).options
      (kind.stream action table start args').options (kind.logins start args)
      (kind.logins start args') args args') :
    RecordsAlike (kind.read action table start args) (kind.read action table start args') := by
  have hnone (n : Nat) (l : PlacedLogin) (hl : l ∈ []) : l.index < n := absurd hl List.not_mem_nil
  cases kind with
  | guest => exact alike_readGuestLine htable h
  | migration => exact alike_readMigrationLine htable h
  | backup => exact alike_readBackupLine htable h
  | restore => exact alike_readBackupChoice Backup.blind_restoringGrammar htable h
  | backupDelete => exact alike_readBackupChoice Backup.blind_deletingGrammar htable h
  | backupList => exact Backup.blind_listingGrammar.alike_read htable h (hnone _) rfl
  | server => exact alike_readServerLine htable h
  | statistics => exact Statistics.blind_grammar.alike_read htable h (hnone _) rfl
  | problemReport => exact alike_readProblemReportLine htable h

/-! ## Lines of a family -/

theorem alike_readVirtualNetworkLine (htable : table.HasOnly FamilyKind.virtualNetwork.credentials)
    (h : LinesAlike (FamilyKind.virtualNetwork.stream table start args).options
      (FamilyKind.virtualNetwork.stream table start args').options [] [] args args') :
    RecordsAlike (readVirtualNetworkLine table start args)
      (readVirtualNetworkLine table start args') := by
  have hstand : StandFrom (start + 1)
      (FamilyKind.virtualNetwork.stream table start args).options := by
    unfold FamilyKind.stream
    dsimp only
    split
    · exact standFrom_read table args (start + 1)
    · exact fun m hm => absurd hm List.not_mem_nil
  have hverb : args[start]? = args'[start]? :=
    h.getElem?_eq hstand (Nat.lt_succ_self start) (by simp)
  have hhead : (args.drop start).head? = (args'.drop start).head? := by
    rw [List.head?_drop, List.head?_drop, hverb]
  unfold readVirtualNetworkLine
  unfold FamilyKind.stream at h
  dsimp only at h ⊢
  rw [← hhead] at h
  cases hw : args.drop start with
  | nil =>
    cases hw' : args'.drop start with
    | nil => exact Reading.alike_throw _
    | cons verb' rest' => rw [hw, hw'] at hhead; cases hhead
  | cons verb rest =>
    cases hw' : args'.drop start with
    | nil => rw [hw, hw'] at hhead; cases hhead
    | cons verb' rest' =>
      rw [hw, hw'] at hhead
      obtain rfl : verb = verb' := Option.some.inj hhead
      rw [hw, List.head?_cons, Option.bind_some] at h
      dsimp only
      cases hcommand : VirtualNetwork.readCommand? verb with
      | some command =>
        rw [hcommand] at h
        exact (VirtualNetwork.blind_grammar.alike_read htable h (by simp) rfl).bind
          fun _ _ hr => alike_enforce (·.network.rules) (fun _ => rfl) hr
      | none =>
        rw [hcommand] at h
        obtain rfl := h.eq
        obtain rfl : rest = rest' := by
          rw [hw] at hw'
          exact (List.cons.inj hw').2
        dsimp only
        cases VirtualNetwork.shortForm? verb rest with
        | some network => exact Reading.alike_pure rfl
        | none => exact Reading.alike_throw _

theorem alike_readPrivateNetworkLine (htable : table.HasOnly FamilyKind.privateNetwork.credentials)
    (h : LinesAlike (table.read args (start + 1)).options (table.read args' (start + 1)).options
      [] [] args args') :
    RecordsAlike (readPrivateNetworkLine table start args)
      (readPrivateNetworkLine table start args') := by
  have hverb : args[start]? = args'[start]? :=
    h.getElem?_eq (standFrom_read table args (start + 1)) (Nat.lt_succ_self start) (by simp)
  unfold readPrivateNetworkLine
  rw [hverb]
  cases args'[start]?.bind PrivateNetwork.readCommand? with
  | none => exact Reading.alike_throw _
  | some command =>
    exact (PrivateNetwork.blind_grammar.alike_read htable h (by simp) rfl).bind
      fun _ _ hr => alike_enforce (·.privateNetwork.rules) (fun _ => rfl) hr

/-- The words about a host device say how many they are. -/
theorem UsbAssignment.ofWords?_of_take {words words' : List String} {usb : UsbAssignment} {n : Nat}
    (h : ofWords? words = some (usb, n)) (htake : words.take n = words'.take n) :
    ofWords? words' = some (usb, n) := by
  unfold ofWords? at h
  split at h
  · cases h
    rcases words' with _ | ⟨word, rest'⟩ <;> simp at htake
    subst htake
    rfl
  · cases h
    rcases words' with _ | ⟨word, _ | ⟨name', rest'⟩⟩ <;> simp at htake
    obtain ⟨rfl, rfl⟩ := htake
    rfl
  · cases h
    rcases words' with _ | ⟨word, _ | ⟨name', _ | ⟨owner', rest'⟩⟩⟩ <;> simp at htake
    obtain ⟨rfl, rfl, rfl⟩ := htake
    rfl
  · cases h

theorem alike_readUsbLine (htable : table.HasOnly FamilyKind.usb.credentials)
    (h : LinesAlike (FamilyKind.usb.stream table start args).options
      (FamilyKind.usb.stream table start args').options [] [] args args') :
    RecordsAlike (readUsbLine table start args) (readUsbLine table start args') := by
  unfold readUsbLine
  unfold FamilyKind.stream at h
  dsimp only at h
  cases husb : UsbAssignment.ofWords? (args.drop start) with
  | none =>
    rw [husb] at h
    obtain rfl := h.eq
    rw [husb]
    exact Reading.alike_throw _
  | some usb =>
    obtain ⟨usb, words⟩ := usb
    rw [husb] at h
    have htake : (args.drop start).take words = (args'.drop start).take words := by
      refine List.ext_getElem? fun i => ?_
      rw [List.getElem?_take, List.getElem?_take]
      split
      · next hi =>
        rw [List.getElem?_drop, List.getElem?_drop]
        exact h.getElem?_eq (standFrom_read table args (start + words)) (by omega) (by simp)
      · rfl
    have husb' := UsbAssignment.ofWords?_of_take husb htake
    rw [husb'] at h ⊢
    exact UsbAssignment.blind_grammar.alike_read htable h (by simp) rfl

theorem alike_readShapingLine (htable : table.HasOnly FamilyKind.shaping.credentials)
    (h : LinesAlike (table.read args (start + 1)).options (table.read args' (start + 1)).options
      [] [] args args') :
    RecordsAlike (readShapingLine table start args) (readShapingLine table start args') := by
  have hverb : args[start]? = args'[start]? :=
    h.getElem?_eq (standFrom_read table args (start + 1)) (Nat.lt_succ_self start) (by simp)
  have hserver : table.HasOnly [.storage] := fun e he hc =>
    .inl ((htable e he hc).resolve_right (by simp [FamilyKind.credentials]))
  unfold readShapingLine
  rw [hverb]
  split
  · exact alike_readServerLine hserver h
  · exact Reading.alike_throw _

/-- The words about a template are those before the options, apart from a host. -/
theorem systemTemplate_alike {rest rest' : List String} {ms ms' : List (Match OptionId)}
    {l l' : PlacedLogin} (hrest : args.drop (start + 2) = rest)
    (hrest' : args'.drop (start + 2) = rest')
    (hl : l.index = start) (hms : StandFrom (start + 2 + (TemplateCopy.systemTemplate rest).2) ms)
    (hms' : StandFrom (start + 2 + (TemplateCopy.systemTemplate rest').2) ms')
    (h : LinesAlike ms ms' [l] [l'] args args') :
    TemplateCopy.systemTemplate rest = TemplateCopy.systemTemplate rest' := by
  have hhead : rest.head? = args[start + 2]? := by rw [← hrest, List.head?_drop]
  have hhead' : rest'.head? = args'[start + 2]? := by rw [← hrest', List.head?_drop]
  rcases h.getElem?_cases (start + 2) with ⟨hw, hw'⟩ | ⟨word, word', hw, hw'⟩
  · rw [hw] at hhead
    rw [hw'] at hhead'
    rw [List.head?_eq_none_iff.1 hhead, List.head?_eq_none_iff.1 hhead']
  · rw [hw] at hhead
    rw [hw'] at hhead'
    obtain ⟨tail, rfl⟩ := List.head?_eq_some_iff.1 hhead
    obtain ⟨tail', rfl⟩ := List.head?_eq_some_iff.1 hhead'
    unfold TemplateCopy.systemTemplate at hms hms' ⊢
    dsimp only at hms hms' ⊢
    rcases h.argument (start + 2) word word' hw hw' with rfl |
      ⟨m, hm, m', hm', v, v', -, hv, hv', hi, hi', -⟩ | ⟨k, hk, -, -, -, hi, -⟩
    · rfl
    · -- A word that holds a value is the first one that is not about the template.
      have hdash : word.toList.head? = some '-' := by
        by_contra hdash
        rw [if_neg hdash] at hms
        have := hms m hm v hv
        omega
      have hdash' : word'.toList.head? = some '-' := by
        by_contra hdash'
        rw [if_neg hdash'] at hms'
        have := hms' m' hm' v' hv'
        omega
      rw [if_pos hdash, if_pos hdash']
    · rw [List.mem_singleton.1 hk, hl] at hi
      omega

/-- The record of a copy whose options are still to be read. -/
def copyStart (name : String) (osName : Option String) (login : LoginText) : Record :=
  let start := Record.ofAction .serverTemplateCopy
  { start with
    template := { start.template with name := some name, osName := osName }
    templateCopy := { start.templateCopy with
      destination := start.templateCopy.destination.assign login } }

theorem blank_copyStart (name : String) (osName : Option String) {login login' : LoginText}
    (h : login.blank = login'.blank) :
    (copyStart name osName login).blank = (copyStart name osName login').blank := by
  unfold copyStart Record.blank TemplateCopy.blank
  dsimp only
  rw [Login.blank_assign, Login.blank_assign, h]

theorem alike_readTemplateCopyLine (htable : table.HasOnly FamilyKind.template.credentials)
    {host host' name name' : String} {rest rest' : List String}
    (hw : args.drop start = host :: name :: rest) (hw' : args'.drop start = host' :: name' :: rest')
    (h : LinesAlike
      (table.read args (start + 2 + (TemplateCopy.systemTemplate rest).2)).options
      (table.read args' (start + 2 + (TemplateCopy.systemTemplate rest').2)).options
      [⟨start, "dst", host⟩] [⟨start, "dst", host'⟩] args args') :
    RecordsAlike (readTemplateCopyLine table start args)
      (readTemplateCopyLine table start args') := by
  have hget (i : Nat) : args[start + i]? = (host :: name :: rest)[i]? := by
    rw [← hw, List.getElem?_drop]
  have hget' (i : Nat) : args'[start + i]? = (host' :: name' :: rest')[i]? := by
    rw [← hw', List.getElem?_drop]
  have hstand := standFrom_read table args (start + 2 + (TemplateCopy.systemTemplate rest).2)
  have hname : name = name' := by
    have hsame := h.getElem?_eq (i := start + 1) hstand (by omega) (by simp)
    rw [hget, hget'] at hsame
    exact Option.some.inj hsame
  have hrest : args.drop (start + 2) = rest := by
    rw [← List.drop_drop, hw]
    rfl
  have hrest' : args'.drop (start + 2) = rest' := by
    rw [← List.drop_drop, hw']
    rfl
  have hsystem := systemTemplate_alike hrest hrest' rfl hstand (standFrom_read _ _ _) h
  have hhost : LoginTextsAlike host host' := by
    rcases h.argument_of_lt (i := start) hstand (by omega) (hget 0) (hget' 0) with
      hsame | ⟨l, hl, l', hl', -, -, -, -, -, hlogins⟩
    · rw [show host = host' from hsame]
      rfl
    · rw [List.mem_singleton.1 hl, List.mem_singleton.1 hl'] at hlogins
      exact hlogins
  unfold readTemplateCopyLine
  rw [hw, hw']
  rw [← hsystem] at h
  dsimp only
  rw [← hname, ← hsystem]
  refine (alike_readPositionalLogin hhost start "dst").bind fun t t' ht => ?_
  exact TemplateCopy.blind_grammar.alike_read htable h (by simp; omega)
    (blank_copyStart name (TemplateCopy.systemTemplate rest).1 ht)

theorem alike_readTemplateLine (htable : table.HasOnly FamilyKind.template.credentials)
    (h : LinesAlike (FamilyKind.template.stream table start args).options
      (FamilyKind.template.stream table start args').options
      (FamilyKind.template.logins start args) (FamilyKind.template.logins start args') args args') :
    RecordsAlike (readTemplateLine table start args) (readTemplateLine table start args') := by
  by_cases hcopy : (args.drop start).head? = some "copy"
  · have hverb : args[start]? = args'[start]? := by
      have hstand : StandFrom (start + 1)
          (FamilyKind.template.stream table start args).options := by
        intro m hm v hv
        unfold FamilyKind.stream at hm
        dsimp only at hm
        rw [if_pos hcopy] at hm
        split at hm
        · have := standFrom_read table args _ m hm v hv
          omega
        · exact absurd hm List.not_mem_nil
      refine h.getElem?_eq hstand (Nat.lt_succ_self start) ?_
      unfold FamilyKind.logins
      dsimp only
      rw [if_pos hcopy]
      split <;> simp
    have hcopy' : (args'.drop start).head? = some "copy" := by
      rw [List.head?_drop, ← hverb, ← List.head?_drop]
      exact hcopy
    have hlength : (args.drop (start + 1)).length = (args'.drop (start + 1)).length := by
      rw [List.length_drop, List.length_drop, h.length]
    have hread {args : List String} (hcopy : (args.drop start).head? = some "copy") :
        readTemplateLine table start args = readTemplateCopyLine table (start + 1) args := by
      obtain ⟨rest, hrest⟩ := List.head?_eq_some_iff.1 hcopy
      rw [readTemplateLine, hrest]
      rfl
    rw [hread hcopy, hread hcopy']
    unfold FamilyKind.stream FamilyKind.logins at h
    dsimp only at h
    rw [if_pos hcopy, if_pos hcopy', if_pos hcopy, if_pos hcopy'] at h
    -- The lines have equally many words, so both name a host and a template or neither does.
    rcases hw : args.drop (start + 1) with _ | ⟨host, _ | ⟨name, rest⟩⟩ <;> rw [hw] at hlength
    · rw [readTemplateCopyLine, readTemplateCopyLine, hw, List.length_eq_zero_iff.1 hlength.symm]
      exact Reading.alike_throw _
    · obtain ⟨host', hw'⟩ := List.length_eq_one_iff.1 hlength.symm
      rw [readTemplateCopyLine, readTemplateCopyLine, hw, hw']
      exact Reading.alike_throw _
    · rcases hw' : args'.drop (start + 1) with _ | ⟨host', _ | ⟨name', rest'⟩⟩
      · simp [hw'] at hlength
      · simp [hw'] at hlength
      · rw [hw, hw'] at h
        exact alike_readTemplateCopyLine htable hw hw' h
  · have hargs : args = args' := by
      have hstream : (FamilyKind.template.stream table start args).options = [] := by
        unfold FamilyKind.stream
        dsimp only
        rw [if_neg hcopy]
        rfl
      have hlogins : FamilyKind.template.logins start args = [] := by
        unfold FamilyKind.logins
        dsimp only
        rw [if_neg hcopy]
      rw [hstream, hlogins] at h
      exact h.eq
    subst hargs
    exact (wipes_readTemplateLine hcopy).alike_self.mono fun _ _ h => congrArg Record.blank h

/-- Lines of a family are read alike. -/
theorem FamilyKind.alike_read {kind : FamilyKind} (htable : table.HasOnly kind.credentials)
    (h : LinesAlike (kind.stream table start args).options (kind.stream table start args').options
      (kind.logins start args) (kind.logins start args') args args') :
    RecordsAlike (kind.read table start args) (kind.read table start args') := by
  cases kind with
  | nodeBackup => exact Backup.blind_makingGrammar.alike_read htable h (by simp [logins]) rfl
  | virtualNetwork => exact alike_readVirtualNetworkLine htable h
  | privateNetwork => exact alike_readPrivateNetworkLine htable h
  | usb => exact alike_readUsbLine htable h
  | shaping => exact alike_readShapingLine htable h
  | template => exact alike_readTemplateLine htable h

end Lines

/-- **A command reads lines that differ in credentials alike.** -/
theorem Command.alike_read {c : Command} (hc : c.WellEquipped) {args args' : List String}
    (h : LinesAlike (c.stream args).options (c.stream args').options (c.logins args)
      (c.logins args') args args') :
    RecordsAlike (c.read args) (c.read args') := by
  cases c with
  | line kind action table start => exact kind.alike_read hc h
  | family kind table start => exact kind.alike_read hc h
  | monitor =>
    obtain rfl := h.eq
    unfold Command.read readMonitorLine
    dsimp only
    split
    · exact Reading.alike_pure rfl
    · exact Reading.alike_throw _

end VmControl
