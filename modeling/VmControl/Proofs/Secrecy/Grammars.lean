import VmControl.Proofs.Secrecy.Alike

/-!
# Grammars do not look at secrets

What is done with an option or an argument does not depend on the secrets that were read before, and
two credentials that are alike leave records that differ in secrets alone.

## Main statements

* `Draft.blind_grammar` and its likes: each grammar is blind.
-/

namespace VmControl

open Options

section

variable {α : Type} {blank : α → α}

theorem map_refuseArgument (index : Nat) (token : String) (a : α) :
    refuseArgument index token (blank a) = blank <$> refuseArgument index token a :=
  rfl

end

/-! ## Records -/

/-- A change of the login that does not look at passwords keeps records alike. -/
theorem blank_mapLogin {f f' : Login → Login} {r r' : Record} (hf : LoginChangesAlike f f')
    (h : r.blank = r'.blank) :
    Record.blank { r with login := f r.login } = Record.blank { r' with login := f' r'.login } := by
  have hlogin : (f r.login).blank = (f' r'.login).blank := hf _ _ (congrArg Record.login h)
  show { r.blank with login := (f r.login).blank } = { r'.blank with login := (f' r'.login).blank }
  rw [h, hlogin]

/-- A grammar for records is blind if what it does with options and arguments is. -/
theorem blind_recordGrammar {argument : Nat → String → Record → Reading Record}
    {option : Match OptionId → Record → Reading Record} {ids : List OptionId}
    (hwipes : (recordGrammar argument option).Wipes ids)
    (hargument : ∀ index token r, argument index token r.blank =
      Record.blank <$> argument index token r)
    (hcredential : ∀ m m' r r', m.id ∈ ids → MatchAlike m m' → r.blank = r'.blank →
      Reading.Alike (fun r r' => r.blank = r'.blank) (option m r) (option m' r'))
    (hother : ∀ m r, m.id.isCredential = false → option m r.blank = Record.blank <$> option m r) :
    (recordGrammar argument option).Blind Record.blank ids where
  wipes := hwipes
  mapLogin _ _ _ _ := blank_mapLogin
  argument := hargument
  credential := hcredential
  other := hother

/-- A grammar without credentials has none to be alike. -/
theorem alike_of_mem_nil {α : Type} {option : Match OptionId → α → Reading α} {blank : α → α}
    (m m' : Match OptionId) (a b : α) (h : m.id ∈ ([] : List OptionId)) (_ : MatchAlike m m')
    (_ : blank a = blank b) :
    Reading.Alike (fun a b => blank a = blank b) (option m a) (option m' b) :=
  absurd h List.not_mem_nil

theorem pure_set_blank (r : Record) (s : Setting) (hs : s.isCredential = false) (v : s.Value) :
    (pure (r.blank.set s v) : Reading Record) = Record.blank <$> pure (r.set s v) := by
  rw [r.set_blank s hs]
  rfl

theorem pure_mark_blank (r : Record) (mark : Mark) :
    (pure (r.blank.mark mark) : Reading Record) = Record.blank <$> pure (r.mark mark) :=
  pure_set_blank r (.mark mark) rfl ()

namespace Backup

theorem alike_takeStorage {m m' : Match OptionId} {r r' : Record} (hid : m.id = .storage)
    (h : MatchAlike m m') (hr : r.blank = r'.blank) :
    Reading.Alike (fun r r' => r.blank = r'.blank) (takeStorage m r) (takeStorage m' r') := by
  have hput (r : Record) (t : LoginText) :
      Record.blank { r with backup := { r.backup with storage := r.backup.storage.assign t } } =
        { r.blank with backup := { r.blank.backup with
            storage := r.blank.backup.storage.assign t.blank } } := by
    unfold Record.blank Backup.blank
    dsimp only
    rw [Login.blank_assign]
  have htext := h.text
  rw [hid] at htext
  refine (alike_readLogin h.name htext).bind fun t t' ht => Reading.alike_pure ?_
  rw [hput, hput, hr, ht]

theorem map_takeSecurityLevel (m : Match OptionId) (r : Record) :
    takeSecurityLevel m r.blank = Record.blank <$> takeSecurityLevel m r := by
  unfold takeSecurityLevel
  rw [map_bind]
  rfl

theorem map_takeOnlyTarget (index : Nat) (token : String) (r : Record) :
    takeOnlyTarget index token r.blank = Record.blank <$> takeOnlyTarget index token r := by
  unfold takeOnlyTarget
  show (if token.toList.head? = some '-' then _ else if r.target.isSome then _ else _) = _
  split
  · rfl
  · split <;> rfl

/-- A grammar whose one credential is a storage is blind if what it does with arguments and other
options is. -/
theorem blind_storageGrammar {argument : Nat → String → Record → Reading Record}
    {option : Match OptionId → Record → Reading Record}
    (hwipes : (recordGrammar argument option).Wipes [.storage])
    (hargument : ∀ index token r, argument index token r.blank =
      Record.blank <$> argument index token r)
    (hstorage : ∀ m r, m.id = .storage → option m r = takeStorage m r)
    (hother : ∀ m r, m.id.isCredential = false → option m r.blank = Record.blank <$> option m r) :
    (recordGrammar argument option).Blind Record.blank [.storage] := by
  refine blind_recordGrammar hwipes hargument (fun m m' r r' hm h hr => ?_) hother
  have hid : m.id = .storage := List.mem_singleton.1 hm
  rw [hstorage m r hid, hstorage m' r' (h.id ▸ hid)]
  exact alike_takeStorage hid h hr

theorem blind_makingGrammar : makingGrammar.Blind Record.blank [.storage] := by
  refine blind_storageGrammar wipes_makingGrammar map_refuseArgument (fun m r hid => ?_)
    fun m r hc => ?_
  · unfold takeMakingOption
    rw [hid]
  · unfold takeMakingOption
    split
    case h_2 hid => rw [hid] at hc; cases hc
    case h_3 => exact map_takeSecurityLevel m r
    all_goals rfl

theorem blind_restoringGrammar : restoringGrammar.Blind Record.blank [.storage] := by
  refine blind_storageGrammar wipes_restoringGrammar map_takeOnlyTarget (fun m r hid => ?_)
    fun m r hc => ?_
  · unfold takeRestoringOption
    rw [hid]
  · unfold takeRestoringOption
    split
    case h_6 hid => rw [hid] at hc; cases hc
    case h_7 => exact map_takeSecurityLevel m r
    case h_8 => rw [map_bind]; rfl
    all_goals rfl

theorem blind_deletingGrammar : deletingGrammar.Blind Record.blank [.storage] := by
  refine blind_storageGrammar wipes_deletingGrammar map_takeOnlyTarget (fun m r hid => ?_)
    fun m r hc => ?_
  · unfold takeDeletingOption
    rw [hid]
  · unfold takeDeletingOption
    split
    case h_2 hid => rw [hid] at hc; cases hc
    case h_3 => exact map_takeSecurityLevel m r
    all_goals rfl

theorem blind_listingGrammar : listingGrammar.Blind Record.blank [.storage] := by
  refine blind_storageGrammar wipes_listingGrammar (fun _ _ _ => rfl) (fun m r hid => ?_)
    fun m r hc => ?_
  · unfold takeListingOption
    rw [hid]
  · unfold takeListingOption
    split
    case h_2 => exact pure_mark_blank r _
    case h_5 hid => rw [hid] at hc; cases hc
    case h_6 => exact map_takeSecurityLevel m r
    case h_7 => rw [map_bind]; rfl
    all_goals rfl

end Backup

namespace Server

theorem takeEntry?_blank (m : Match OptionId) (s : Server) :
    takeEntry? m s.blank = Except.map blank <$> takeEntry? m s := by
  unfold takeEntry?
  dsimp only
  split
  all_goals first | rfl | exact congrArg some (map_eq_map fun _ => rfl)

theorem blind_grammar : grammar.Blind Record.blank [.storage] := by
  refine blind_recordGrammar wipes_grammar map_refuseArgument
    (fun m m' r r' hm h hr => ?_) fun m r hc => ?_
  · have hput (r : Record) (t : LoginText) :
        Record.blank { r with server := { r.server with
          backupStorage := some ((r.server.backupStorage.getD ∅).assign t) } } =
        { r.blank with server := { r.blank.server with
          backupStorage := some ((r.blank.server.backupStorage.getD ∅).assign t.blank) } } := by
      unfold Record.blank Server.blank
      dsimp only
      cases r.server.backupStorage <;> simp only [Option.map_some, Login.blank_assign] <;> rfl
    obtain hid : m.id = .storage := by simpa using hm
    have hid' : m'.id = .storage := h.id ▸ hid
    have htext := h.text
    rw [hid] at htext
    unfold takeOption takeStorage
    dsimp only
    rw [hid, hid']
    dsimp only
    rw [bind_assoc, bind_assoc]
    refine (alike_readLogin h.name htext).bind fun t t' ht => Reading.alike_pure ?_
    rw [hput, hput, hr, ht]
  · unfold takeOption
    dsimp only
    split
    case h_2 hid => rw [hid] at hc; cases hc
    case h_1 | h_3 | h_4 | h_12 => rw [map_bind]; rfl
    case h_7 =>
      rw [map_bind]
      exact congrArg _ (funext fun b => pure_set_blank r (.switch .lockEditSettings) rfl b)
    case h_8 => exact pure_set_blank r (.text .newName) rfl m.text
    case h_9 => exact pure_set_blank r (.text .file) rfl m.text
    case h_10 | h_11 => exact pure_mark_blank r _
    case h_16 =>
      have hentry : takeEntry? m r.blank.server = Except.map blank <$> takeEntry? m r.server :=
        takeEntry?_blank m r.server
      rw [hentry]
      cases takeEntry? m r.server with
      | none => rfl
      | some entry => cases entry <;> rfl
    all_goals rfl

end Server

namespace Migration

theorem blind_grammar : grammar.Blind Record.blank [] := by
  refine blind_recordGrammar wipes_grammar map_refuseArgument alike_of_mem_nil fun m r hc => ?_
  unfold takeOption
  dsimp only
  split
  case h_2 | h_3 => rw [map_bind]; rfl
  all_goals rfl

end Migration

namespace VirtualNetwork

theorem blind_grammar : grammar.Blind Record.blank [] := by
  refine blind_recordGrammar wipes_grammar (fun index token r => ?_) alike_of_mem_nil
    fun m r hc => ?_
  · unfold takeName
    show (if r.network.name.isSome then _ else _) = _
    split <;> rfl
  · unfold takeOption
    dsimp only
    split
    case h_2 => rw [map_bind]; rfl
    case h_3 => split <;> rfl
    case h_4 => split <;> rfl
    case h_5 => exact pure_mark_blank r _
    all_goals rfl

end VirtualNetwork

namespace PrivateNetwork

theorem blind_grammar : grammar.Blind Record.blank [] := by
  refine blind_recordGrammar wipes_grammar (fun index token r => ?_) alike_of_mem_nil
    fun m r hc => ?_
  · unfold takeName
    show (if r.privateNetwork.name.isSome then _ else _) = _
    split <;> rfl
  · unfold takeOption
    dsimp only
    split
    case h_3 => split <;> rfl
    case h_4 => exact pure_mark_blank r _
    all_goals rfl

end PrivateNetwork

theorem UsbAssignment.blind_grammar : grammar.Blind Record.blank [] := by
  refine blind_recordGrammar wipes_grammar map_refuseArgument alike_of_mem_nil fun m r hc => ?_
  unfold takeOption
  split
  · exact pure_mark_blank r _
  · rfl

theorem Statistics.blind_grammar : grammar.Blind Record.blank [] := by
  refine blind_recordGrammar wipes_grammar (fun _ _ _ => rfl) alike_of_mem_nil fun m r hc => ?_
  unfold takeOption
  split
  case h_3 => exact pure_mark_blank r _
  all_goals rfl

theorem TemplateCopy.blind_grammar : grammar.Blind Record.blank [] := by
  refine blind_recordGrammar wipes_grammar map_refuseArgument alike_of_mem_nil fun m r hc => ?_
  unfold takeOption
  split
  case h_2 => rw [map_bind]; rfl
  all_goals rfl

theorem ProblemReport.blind_grammar : grammar.Blind Record.blank [.proxy] := by
  refine blind_recordGrammar wipes_grammar map_refuseArgument (fun m m' r r' hm h hr => ?_)
    fun m r hc => ?_
  · obtain hid : m.id = .proxy := by simpa using hm
    have hid' : m'.id = .proxy := h.id ▸ hid
    unfold takeOption
    dsimp only
    rw [hid, hid']
    refine (alike_readSecret m m').bind fun s s' _ => Reading.alike_pure ?_
    show { r.blank with report := { r.blank.report with proxy := some s.blank } } =
      { r'.blank with report := { r'.blank.report with proxy := some s'.blank } }
    rw [hr]
    rfl
  · unfold takeOption
    dsimp only
    split
    case h_6 hid => rw [hid] at hc; cases hc
    all_goals rfl

/-! ## Guests -/

namespace Draft

theorem blank_mapRecord {F G : Record → Record} {d d' : Draft} (h : d.blank = d'.blank)
    (hF : (F d.record).blank = (G d'.record).blank) :
    (d.mapRecord F).blank = (d'.mapRecord G).blank := by
  have hadapter : d.blank.adapter = d'.blank.adapter := congrArg Draft.adapter h
  have hfates : d.blank.imageFates = d'.blank.imageFates := congrArg Draft.imageFates h
  show Draft.mk (F d.record).blank d.blank.adapter d.blank.imageFates =
    Draft.mk (G d'.record).blank d'.blank.adapter d'.blank.imageFates
  rw [hF, hadapter, hfates]

theorem select_blank (d : Draft) (s : Selector) (value : String) :
    d.blank.select s value = (d.select s value).map blank := by
  unfold select
  cases s with
  | add =>
    dsimp only
    split <;> rfl
  | set =>
    dsimp only
    split <;> rfl
  | _ => rfl

/-- What an option enters does not depend on secrets. -/
theorem applyPure_blank {m : Match OptionId} (hc : m.id.isCredential = false) (d : Draft) :
    d.blank.applyPure m = (d.applyPure m).map blank := by
  unfold applyPure
  dsimp only
  split
  case h_1 s hid =>
    have hs : s.isCredential = false := by simpa [hid, OptionId.isCredential] using hc
    refine bind_eq_map fun v => congrArg Except.ok ?_
    show Draft.mk (d.record.blank.set s v) _ _ = Draft.mk (d.record.set s v).blank _ _
    rw [Record.set_blank _ s hs]
    rfl
  case h_2 s hid => exact d.select_blank s m.text
  case h_25 => split <;> rfl
  all_goals first | rfl | exact bind_eq_map fun _ => rfl

theorem map_showGuests (option value : String) (guests : List Guest) (listed : CommandError) :
    blank <$> showGuests option value guests listed = showGuests option value guests listed := by
  unfold showGuests
  dsimp only
  split <;> rfl

theorem apply_blank {m : Match OptionId} (hc : m.id.isCredential = false) (d : Draft) :
    apply m d.blank = blank <$> apply m d := by
  have hpure : Reading.ofExcept (d.blank.applyPure m) =
      blank <$> Reading.ofExcept (d.applyPure m) := by
    rw [applyPure_blank hc]
    cases d.applyPure m <;> rfl
  have hconflict : d.blank.conflict? m.id = d.conflict? m.id := rfl
  unfold apply
  rw [hconflict]
  cases d.conflict? m.id with
  | some e => rfl
  | none =>
    dsimp only
    split
    case h_1 => rfl
    case h_2 | h_3 =>
      split
      · rfl
      · exact (map_showGuests _ _ _ _).symm
    case h_4 => split <;> rfl
    case h_5 s hid =>
      have hs : s.isCredential = false := by simpa [hid, OptionId.isCredential] using hc
      simpa [hs] using hpure
    case h_6 => exact hpure

theorem alike_apply {m m' : Match OptionId} {d d' : Draft} {s : SecretSetting}
    (hid : m.id = .setting (.secret s)) (h : MatchAlike m m') (hd : d.blank = d'.blank) :
    Reading.Alike (fun d d' => d.blank = d'.blank) (apply m d) (apply m' d') := by
  have hid' : m'.id = .setting (.secret s) := h.id ▸ hid
  have happly {m : Match OptionId} (hid : m.id = .setting (.secret s)) (d : Draft) :
      apply m d = (do
        Reading.wipe m.slot?
        Reading.ofExcept (d.applyPure m)) := by
    simp [apply, hid, conflict?, Setting.isCredential]
  have hread : (s = .guestPassword ∧ ':' ∉ m.text.toList) ↔
      (s = .guestPassword ∧ ':' ∉ m'.text.toList) := by
    refine and_congr_right fun hs => ?_
    have htext := h.text
    rw [hid, hs] at htext
    exact not_congr htext
  rw [happly hid, happly hid']
  refine (Reading.alike_wipe _ _).bind fun _ _ _ => Reading.alike_ofExcept ?_
  unfold applyPure
  rw [hid, hid']
  dsimp only [Setting.read, SecretSetting.read]
  by_cases hbad : s = .guestPassword ∧ ':' ∉ m.text.toList
  · rw [if_pos hbad, if_pos (hread.1 hbad)]
    exact congrArg CommandError.badSecret h.name
  · rw [if_neg hbad, if_neg fun hbad' => hbad (hread.2 hbad')]
    refine blank_mapRecord hd ?_
    rw [Record.set_secret_blank, Record.set_secret_blank,
      show d.record.blank = d'.record.blank from congrArg Draft.record hd]
    rfl

/-- **Guest lines are read without a look at secrets.** -/
theorem blind_grammar : grammar.Blind blank guestCredentials where
  wipes := wipes_grammar
  mapLogin f f' d d' hf hd := blank_mapRecord hd (blank_mapLogin hf (congrArg Draft.record hd))
  argument index token d := by
    have haction : d.blank.record.action = d.record.action := rfl
    simp only [grammar, takeArgument]
    rw [haction]
    generalize d.record.action = action
    cases action with
    | register =>
      show (pure (Draft.mk (d.record.blank.set (.text .location) token) _ _) : Reading Draft) = _
      rw [Record.set_blank _ _ rfl]
      rfl
    | _ => rfl
  credential m m' d d' hm h hd := by
    obtain ⟨s, hid⟩ : ∃ s, m.id = .setting (.secret s) := by
      simp only [guestCredentials, List.mem_cons, List.not_mem_nil, or_false] at hm
      rcases hm with hm | hm | hm | hm <;> exact ⟨_, hm⟩
    exact alike_apply hid h hd
  other m d hc := apply_blank hc d

end Draft

end VmControl
