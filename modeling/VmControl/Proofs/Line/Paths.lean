import VmControl.Proofs.Draft.Serving
import VmControl.Proofs.Line.Stray
import VmControl.Proofs.Line.Visit
import VmControl.Proofs.Password
import VmControl.Proofs.Record.Paths

/-!
# Paths that a line gives

A line about a guest gives its two paths by options, or as an argument, before or after the login
that says whether they are paths of this host.  Nothing is made of them until the line has ended:
then they are made full if the command runs here, and left alone if it does not.  Only a line that
goes on with a command for the guest ends without that.

## Main definitions

* `Reading.AsksForFiles`: a reading asks the host for files only.
* `Record.Path.given?`: the path that a line gives.

## Main statements

* `Draft.yields_given`: what a draft says of paths and of the host.
* `paths_are_resolved_here`: paths are made full here, and left alone elsewhere.
-/

namespace VmControl

open Options
open Record (ChangesOnly Field)

/-! ## Readings that resolve no path -/

namespace Reading

variable {α β : Type}

/-- Whether a reading asks the host for files only: on a host with the same files it does the same.
-/
def AsksForFiles (x : Reading α) : Prop :=
  ∀ host host' : Host, host'.readFile = host.readFile → ∀ e, x.after host' e = x.after host e

@[simp] theorem asksForFiles_pure (a : α) : (pure a : Reading α).AsksForFiles :=
  fun _ _ _ _ => rfl

@[simp] theorem asksForFiles_throw (u : CommandError) : (throw u : Reading α).AsksForFiles :=
  fun _ _ _ _ => rfl

@[simp] theorem asksForFiles_ofExcept (x : Except CommandError α) : (ofExcept x).AsksForFiles :=
  fun _ _ _ _ => by rw [after_ofExcept, after_ofExcept]

@[simp] theorem asksForFiles_enter (m : Match OptionId) : (enter m).AsksForFiles :=
  fun _ _ _ _ => rfl

@[simp] theorem asksForFiles_wipe (s : Option Slot) : (wipe s).AsksForFiles :=
  fun _ _ _ _ => by rw [after_wipe, after_wipe]

@[simp] theorem asksForFiles_write (n : Note) : (write n).AsksForFiles :=
  fun _ _ _ _ => rfl

@[simp] theorem asksForFiles_warn (origin text : String) : (warn origin text).AsksForFiles :=
  fun _ _ _ _ => by rw [after_warn, after_warn]

@[simp] theorem asksForFiles_prefer (f : Preferences → Preferences) : (prefer f).AsksForFiles :=
  fun _ _ _ _ => rfl

@[simp] theorem asksForFiles_readFile (path : String) : (readFile path).AsksForFiles :=
  fun _ _ h _ => by rw [after_readFile, after_readFile, h]

@[simp] theorem AsksForFiles.bind {x : Reading α} {f : α → Reading β} (hx : x.AsksForFiles)
    (hf : ∀ a, (f a).AsksForFiles) : (x >>= f).AsksForFiles := by
  intro host host' h e
  rw [after_bind, after_bind, hx host host' h e]
  rcases x.after host e with ⟨u | a, e'⟩
  · rfl
  · exact hf a host host' h e'

@[simp] theorem AsksForFiles.map {x : Reading α} (hx : x.AsksForFiles) (f : α → β) :
    (f <$> x).AsksForFiles := by
  rw [map_eq_pure_bind]
  exact hx.bind fun a => asksForFiles_pure (f a)

end Reading

theorem asksForFiles_readCommonOption (m : Match OptionId) :
    (readCommonOption m).AsksForFiles := by
  unfold readCommonOption readLogin readPasswordFile
  split
  case h_1 =>
    refine ((Reading.asksForFiles_wipe _).bind fun _ => ?_).bind fun _ => by simp
    cases LoginText.read m.text <;> simp
  case h_2 => exact ((Reading.asksForFiles_readFile _).bind fun _ => by simp).bind fun _ => by simp
  all_goals simp

namespace Draft

theorem asksForFiles_apply (m : Match OptionId) (d : Draft) : (apply m d).AsksForFiles := by
  have hguests (option value : String) (guests : List Guest) (listed : CommandError) :
      (showGuests option value guests listed).AsksForFiles := by
    unfold showGuests
    dsimp only
    split <;> simp
  unfold apply
  cases d.conflict? m.id with
  | some u => simp
  | none =>
    dsimp only
    split <;> try split
    all_goals simp [hguests]

theorem asksForFiles_step (event : Event OptionId) (d : Draft) :
    (grammar.step d event).AsksForFiles := by
  cases event with
  | unknown index token =>
    show (takeArgument index token d).AsksForFiles
    unfold takeArgument
    split <;> simp
  | option m =>
    refine (Reading.asksForFiles_enter m).bind fun _ =>
      (asksForFiles_readCommonOption m).bind fun f => ?_
    cases f with
    | some f => exact Reading.asksForFiles_pure _
    | none => exact asksForFiles_apply m d

theorem asksForFiles_steps (d : Draft) (events : List (Event OptionId)) :
    (grammar.steps d events).AsksForFiles :=
  Grammar.steps_induction Reading.asksForFiles_pure (fun _ _ hx hf => hx.bind hf)
    (fun event _ d => asksForFiles_step event d) d

end Draft

/-! ## What gives a path -/

namespace Record

/-- The paths of a record. -/
inductive Path where
  /-- Where the guest is. -/
  | location
  /-- The image of the device. -/
  | image
  deriving DecidableEq

namespace Path

/-- The option that gives a path. -/
def option : Path → OptionId
  | .location => .setting (.text .location)
  | .image => .device (.text .image)

/-- The field that holds it. -/
def field : Path → Field
  | .location => .setting (.text .location)
  | .image => .device (.setting (.text .image))

/-- The text of a path, if a record has it. -/
def text? (r : Record) : Path → Option String
  | .location => r.text? .location
  | .image => r.device.text? .image

/-- The path that an option or an argument gives. -/
def ofEvent? (action : Action) (k : Path) : Event OptionId → Option String
  | .option m => if m.id = k.option then some m.text else none
  | .unknown _ token => if action = .register ∧ k = .location then some token else none

/-- The path that a line gives, which is the last one. -/
def given? (action : Action) (events : List (Event OptionId)) (k : Path) : Option String :=
  (events.filterMap (ofEvent? action k)).getLast?

variable {r r' : Record} {k : Path}

theorem text?_of_changesOnly {fields : List Field} (h : ChangesOnly fields r r')
    (hk : k.field ∉ fields) : text? r' k = text? r k := by
  cases k <;> exact h _ hk

/-- An option that gives another path, or none, is for other fields. -/
theorem field_notMem {id : OptionId} {fields : List Field} (hid : id ≠ k.option)
    (h : servedFields? Draft.fields? id = some fields) : k.field ∉ fields := by
  cases id with
  | setting s =>
    cases h
    cases k with
    | location => exact fun hmem => hid (by cases List.mem_singleton.1 hmem; rfl)
    | image => simp [field]
  | device s =>
    cases h
    cases k with
    | location => simp [field]
    | image => exact fun hmem => hid (by cases List.mem_singleton.1 hmem; rfl)
  | selector s =>
    cases h
    cases s <;> cases k <;> decide
  | adapter s =>
    cases h
    cases k <;> simp [field]
  | imageFate fate =>
    cases h
    cases k <;> decide
  | _ =>
    first
      | cases h; cases k <;> decide
      | cases h

/-- The last path counts. -/
theorem given?_cons (action : Action) (event : Event OptionId) (events : List (Event OptionId))
    (k : Path) : given? action (event :: events) k =
      (given? action events k).or (ofEvent? action k event) := by
  unfold given?
  cases hevent : ofEvent? action k event with
  | none => simp [hevent]
  | some path => simp [hevent, List.getLast?_cons, Option.or_some]

theorem given?_singleton (action : Action) (event : Event OptionId) (k : Path) :
    given? action [event] k = ofEvent? action k event :=
  given?_cons action event [] k

end Path

end Record

/-- Whether an option of a line names another host. -/
def Options.Event.isLogin : Event OptionId → Bool
  | .option m => m.id = .login
  | .unknown .. => false

/-- A login text names another host. -/
theorem Login.isRemote_assign (l : Login) {s : String} {t : LoginText}
    (h : LoginText.read s = some t) : (l.assign t).isRemote = true := by
  have hserver : (l.assign t).server = t.server := by
    unfold assign
    cases t.password <;> rfl
  unfold isRemote
  rw [hserver, bne_iff_ne]
  exact LoginText.server_ne_empty h

namespace Draft

variable {d : Draft} {m : Match OptionId}

/-- An option that no line about a guest has a use for is turned down. -/
theorem yields_step_of_unserved (h : servedFields? fields? m.id = none) {P : Draft → Prop} :
    (grammar.step d (.option m)).Yields P := by
  obtain ⟨hcommon, hnone⟩ : commonFields? m.id = none ∧ fields? m.id = none := by
    unfold servedFields? at h
    cases hcommon : commonFields? m.id with
    | some fields =>
      rw [hcommon] at h
      cases h
    | none =>
      rw [hcommon] at h
      exact ⟨rfl, h⟩
  have happly : apply m d = throw (.refused (.unhandled m.name)) := by
    unfold apply applyPure
    cases hid : m.id <;> rw [hid] at hnone <;> first | rfl | cases hnone
  refine Reading.yields_bind fun _ => (ends_readCommonOption m []).yields.bind fun f hf => ?_
  cases f with
  | some f =>
    rw [hcommon] at hf
    rcases hf with hf | ⟨hf, -⟩ <;> cases hf
  | none =>
    show (apply m d).Yields P
    rw [happly]
    exact Reading.yields_throw

/-- An option that gives a path gives its text as it stands. -/
theorem yields_apply_of_path {k : Record.Path} (hid : m.id = k.option) :
    (apply m d).Yields fun d' => k.text? d'.record = some m.text := by
  unfold apply
  cases d.conflict? m.id with
  | some u => exact Reading.yields_throw
  | none =>
    rw [hid]
    cases k with
    | location =>
      refine Reading.yields_ofExcept fun d' hd => ?_
      simp only [applyPure, hid, Record.Path.option, bind_eq_ok] at hd
      obtain ⟨path, hpath, hd⟩ := hd
      cases hd
      simp only [Setting.read, TextSetting.read, readLocation] at hpath
      split at hpath
      · cases hpath
      · cases hpath
        exact Sheet.get?_insert_self ..
    | image =>
      refine Reading.yields_ofExcept fun d' hd => ?_
      simp only [applyPure, hid, Record.Path.option, bind_eq_ok] at hd
      obtain ⟨path, hpath, hd⟩ := hd
      cases hd
      cases hpath
      exact Sheet.get?_insert_self ..

/-- **An option gives a path or leaves it alone.** -/
theorem yields_text?_step (d : Draft) (m : Match OptionId) (k : Record.Path) :
    (grammar.step d (.option m)).Yields fun d' =>
      k.text? d'.record = if m.id = k.option then some m.text else k.text? d.record := by
  split
  · next hid =>
    have hcommon : readCommonOption m = pure none := by
      unfold readCommonOption
      rw [hid]
      cases k <;> rfl
    refine Reading.yields_bind fun _ => ?_
    rw [hcommon]
    exact yields_apply_of_path hid
  · next hid =>
    cases hserved : servedFields? fields? m.id with
    | none => exact yields_step_of_unserved hserved
    | some fields =>
      exact (handles_grammar_record.step hserved d).yields.mono fun d' hd =>
        Record.Path.text?_of_changesOnly hd (Record.Path.field_notMem hid hserved)

/-- **An option names another host, or leaves it open where the command runs.** -/
theorem yields_isRemote_step (d : Draft) (m : Match OptionId) :
    (grammar.step d (.option m)).Yields fun d' =>
      d'.record.login.isRemote = (d.record.login.isRemote || (Event.option m).isLogin) := by
  unfold Grammar.step readCommonOption Event.isLogin
  refine Reading.yields_bind fun _ => ?_
  split <;> simp only [bind_assoc, pure_bind]
  case h_1 hid =>
    have hlogin : (readLogin m).Yields fun t => LoginText.read m.text = some t := by
      unfold readLogin
      refine Reading.yields_bind fun _ => ?_
      cases LoginText.read m.text <;> simp
    refine hlogin.bind fun t ht => Reading.yields_pure ?_
    rw [hid]
    exact (d.record.login.isRemote_assign ht).trans (Bool.or_true _).symm
  case h_2 hid | h_3 hid | h_4 hid | h_5 hid =>
    refine Reading.yields_bind fun _ => Reading.yields_pure ?_
    rw [hid]
    exact (Bool.or_false _).symm
  case h_6 hlogin _ _ _ _ =>
    refine (keeps_apply m d).mono fun d' hd => ?_
    rw [hd.1, decide_eq_false hlogin, Bool.or_false]

/-- What options and arguments make of the paths of a draft, and of the host that it is for. -/
structure Gives (d : Draft) (events : List (Event OptionId)) (d' : Draft) : Prop where
  /-- The last path that is given counts, and stands as it is. -/
  paths : ∀ k : Record.Path, k.text? d'.record =
    (k.given? d.record.action events).or (k.text? d.record)
  /-- The command runs elsewhere if some option says so. -/
  remote : d'.record.login.isRemote = (d.record.login.isRemote || events.any Event.isLogin)
  /-- The action stays. -/
  action : d'.record.action = d.record.action

theorem Gives.cons {d₁ d' : Draft} {event : Event OptionId} {events : List (Event OptionId)}
    (h : d.Gives [event] d₁) (h' : d₁.Gives events d') : d.Gives (event :: events) d' where
  paths k := by
    rw [h'.paths, h.action, h.paths, Record.Path.given?_singleton, Record.Path.given?_cons,
      Option.or_assoc]
  remote := by
    rw [h'.remote, h.remote]
    simp [Bool.or_assoc]
  action := h'.action.trans h.action

/-- **One option or argument gives what it says.** -/
theorem yields_gives_step (d : Draft) (event : Event OptionId) :
    (grammar.step d event).Yields (d.Gives [event]) := by
  cases event with
  | unknown index token =>
    show (takeArgument index token d).Yields _
    unfold takeArgument
    split
    case h_1 haction =>
      refine Reading.yields_pure ⟨fun k => ?_, (Bool.or_false _).symm, rfl⟩
      have hnone : k.given? d.record.action [.unknown index token] = none := by
        rw [haction]
        rfl
      rw [hnone]
      cases k <;> rfl
    case h_2 haction =>
      refine Reading.yields_pure ⟨fun k => ?_, (Bool.or_false _).symm, rfl⟩
      rw [haction]
      cases k with
      | location => exact Sheet.get?_insert_self ..
      | image => rfl
    case h_3 => exact Reading.yields_throw
  | option m =>
    intro host e d' hd
    refine ⟨fun k => ?_, ?_, ?_⟩
    · rw [yields_text?_step d m k host e d' hd, Record.Path.given?_singleton]
      unfold Record.Path.ofEvent?
      dsimp only
      split <;> rfl
    · rw [yields_isRemote_step d m host e d' hd]
      simp
    · exact yields_action_steps d [.option m] host e d' (by simpa [Grammar.steps] using hd)

theorem yields_gives_steps (d : Draft) (events : List (Event OptionId)) :
    (grammar.steps d events).Yields (d.Gives events) := by
  induction events generalizing d with
  | nil => exact Reading.yields_pure ⟨fun _ => rfl, (Bool.or_false _).symm, rfl⟩
  | cons event events ih =>
    unfold Grammar.steps at ih ⊢
    rw [List.foldlM_cons]
    exact (yields_gives_step d event).bind fun d₁ h => (ih d₁).mono fun d' h' => h.cons h'

/-! ### The end of a line -/

/-- The end of the line leaves both paths alone, and the login. -/
theorem text?_of_finish {r : Record} (h : d.finish = .ok r) (k : Record.Path) :
    k.text? r = k.text? d.record := by
  have hfield : k.field ∉ movedFields := by cases k <;> decide
  rw [Record.Path.text?_of_changesOnly (changesOnly_finish h) hfield]
  cases k <;> rfl

theorem login_of_finish {r : Record} (h : d.finish = .ok r) : r.login = d.record.login :=
  changesOnly_finish h .login (by decide)

end Draft

/-! ## Whole lines -/

/-- Whether a table has no options for paths. -/
def CommandTable.LacksPaths (table : CommandTable) : Prop :=
  ∀ e ∈ table.entries, e.id ≠ Record.Path.location.option ∧ e.id ≠ Record.Path.image.option

instance (table : CommandTable) : Decidable table.LacksPaths :=
  inferInstanceAs (Decidable (∀ e ∈ table.entries, _))

/-- A record for another host settles as the same on all hosts. -/
theorem Record.settle_remote {r : Record} (h : r.login.isRemote = true) (host host' : Host)
    (e : Effects) : r.settle.after host' e = r.settle.after host e := by
  unfold settle
  split <;> simp [consistent_remote h host host']

section Line

variable {action : Action} {table : CommandTable} {offset : Nat} {args : List String}
  {host : Host} {e : Effects} {r : Record}

/-- Where the command for the guest starts, if a line goes on with one. -/
def commandStart? (action : Action) (table : CommandTable) (offset : Nat) (args : List String) :
    Option Nat :=
  if action.takesGuestCommand then (splitGuestCommand (table.read args (offset + 1)).events).2
  else none

theorem takesGuestCommand_of_isSome (h : (commandStart? action table offset args).isSome = true) :
    action.takesGuestCommand = true := by
  unfold commandStart? at h
  split at h
  · assumption
  · cases h

/-- **What an accepted line comes to**: a command for the guest is kept and nothing is looked at, or
the line ends and is made consistent. -/
theorem exists_of_readGuestLine
    (h : ((readGuestLine action table offset args).after host e).1 = .ok r) :
    ∃ d target, (Draft.mk { Record.ofAction action with target := target } ∅ []).Gives
        (LineKind.guest.stream action table offset args).events d ∧
      (((commandStart? action table offset args).isSome = true ∧
        ∃ argv, r = { d.record with argv := argv }) ∨
        ∃ r₀, d.finish = .ok r₀ ∧ r₀.consistent host = .ok r) := by
  unfold readGuestLine at h
  unfold LineKind.stream
  dsimp only at h ⊢
  rw [← commandStart?] at h ⊢
  generalize commandStart? action table offset args = command at h ⊢
  cases command with
  | some index =>
    obtain ⟨d, e', hd, hr⟩ := Reading.exists_of_after_bind h
    cases hr
    exact ⟨d, _, Draft.yields_gives_steps _ _ host e d (by rw [hd]), .inl ⟨rfl, _, rfl⟩⟩
  | none =>
    obtain ⟨d, e', hd, hend⟩ := Reading.exists_of_after_bind h
    rw [Draft.after_end] at hend
    exact ⟨d, _, Grammar.yields_read (Draft.yields_gives_steps _ _) host e d (by rw [hd]),
      .inr (bind_eq_ok.1 hend)⟩

/-- A line with a login comes to the same on all hosts with the same files. -/
theorem readGuestLine_congr {host' : Host} (hfiles : host'.readFile = host.readFile)
    (hlogin : (LineKind.guest.stream action table offset args).events.any Event.isLogin = true) :
    (readGuestLine action table offset args).after host' e =
      (readGuestLine action table offset args).after host e := by
  unfold LineKind.stream at hlogin
  unfold readGuestLine
  dsimp only at hlogin ⊢
  rw [← commandStart?] at hlogin ⊢
  generalize commandStart? action table offset args = command at hlogin ⊢
  cases command with
  | some index =>
    exact ((Draft.asksForFiles_steps _ _).bind fun _ => Reading.asksForFiles_pure _)
      host host' hfiles e
  | none =>
    dsimp only at hlogin ⊢
    have hread (d : Draft) (s : Stream OptionId) : (Draft.grammar.read d s).AsksForFiles :=
      (Draft.asksForFiles_steps d s.events).bind fun _ => by cases s.missing <;> simp
    rw [Reading.after_bind, Reading.after_bind, hread _ _ host host' hfiles e]
    split
    · next d e' hd =>
      have hremote : d.record.login.isRemote = true := by
        rw [(Grammar.yields_read (Draft.yields_gives_steps _ _) host e d (by rw [hd])).remote,
          hlogin, Bool.or_true]
      rw [Reading.after_bind, Reading.after_bind, Reading.after_ofExcept, Reading.after_ofExcept]
      cases hfinish : d.finish with
      | error u => rfl
      | ok r => exact Record.settle_remote (Draft.login_of_finish hfinish ▸ hremote) host host' e'
    · rfl

theorem any_isLogin_iff {events : List (Event OptionId)} :
    events.any Event.isLogin = true ↔ ∃ m, .option m ∈ events ∧ m.id = .login := by
  rw [List.any_eq_true]
  constructor
  · rintro ⟨event, hmem, hlogin⟩
    cases event with
    | option m => exact ⟨m, hmem, of_decide_eq_true hlogin⟩
    | unknown index token => cases hlogin
  · rintro ⟨m, hmem, hid⟩
    exact ⟨.option m, hmem, decide_eq_true hid⟩

/-- A line whose options give no path gives none, if it ends in a command for the guest. -/
theorem given?_of_lacksPaths (h : table.LacksPaths) (haction : action.takesGuestCommand = true)
    (k : Record.Path) :
    k.given? action (LineKind.guest.stream action table offset args).events = none := by
  have hnone : ∀ event ∈ (LineKind.guest.stream action table offset args).events,
      k.ofEvent? action event = none := by
    intro event hevent
    cases event with
    | option m =>
      obtain ⟨e, he, hid⟩ := Table.has_of_mem_read
        (Stream.mem_options.1 (mem_read_of_mem_guestStream (Stream.mem_options.2 hevent)))
      obtain ⟨hlocation, himage⟩ := h e he
      rw [hid] at hlocation himage
      refine if_neg ?_
      cases k with
      | location => exact hlocation
      | image => exact himage
    | unknown index token =>
      refine if_neg fun ⟨hregister, _⟩ => ?_
      rw [hregister] at haction
      cases haction
  unfold Record.Path.given?
  rw [List.filterMap_eq_nil_iff.2 hnone]
  rfl

/-- **Only tables without paths go with a command for the guest.** -/
theorem Program.lacksPaths_of_command {p : Program} {words : List String}
    (h : p.command words = .ok (.line .guest action table offset))
    (haction : action.takesGuestCommand = true) : table.LacksPaths := by
  have hroster : ∀ l ∈ p.roster, l.command.runsGuestCommand = true →
      l.command.table.LacksPaths := by
    cases p <;> decide +kernel
  obtain ⟨l, hl, hcommand, -⟩ := exists_listing h
  have htable := hroster l hl
  rw [hcommand] at htable
  exact htable haction

/-- **Paths are made full here, and left alone elsewhere.**  If a line about a guest is accepted on
a host that resolves paths to full ones, the paths of its record are full, unless the line goes on
with a command for the guest after an option that gives another path; no line of the programs does.
The command runs elsewhere exactly if some option is a login, wherever it stands, and then the paths
are the last ones that the line gives.  And a line with a login comes to the same wherever paths
lead on this host, be it accepted or not. -/
theorem paths_are_resolved_here (action : Action) (table : CommandTable) (offset : Nat)
    (args : List String) (host : Host) (start : Preferences) :
    let line := readGuestLine action table offset args
    let events := (LineKind.guest.stream action table offset args).events
    (∀ r, (line.perform host start).1 = .ok r →
      ((∀ path full, host.fullPath path = .ok full → full.toList.head? = some '/') →
        ((commandStart? action table offset args).isSome = true →
          ∀ (k : Record.Path) path, k.given? action events = some path → IsFullPath path) →
        r.PathsFull) ∧
      (r.login.isRemote = true ↔ ∃ m, .option m ∈ events ∧ m.id = .login) ∧
      (r.login.isRemote = true → ∀ k : Record.Path, k.text? r = k.given? action events)) ∧
    ((∃ m, .option m ∈ events ∧ m.id = .login) → ∀ host' : Host,
      host'.readFile = host.readFile → line.perform host' start = line.perform host start) ∧
    ∀ (p : Program) (words : List String),
      p.command words = .ok (.line .guest action table offset) →
      (commandStart? action table offset args).isSome = true →
      ∀ k : Record.Path, k.given? action events = none := by
  intro line events
  refine ⟨fun r hr => ?_, fun hlogin host' hfiles => ?_, fun p words hp hcommand => ?_⟩
  · obtain ⟨d, target, hgives, hend⟩ := exists_of_readGuestLine hr
    have hpaths (k : Record.Path) : k.text? d.record = k.given? action events := by
      rw [hgives.paths]
      cases k <;> exact Option.or_none
    have hremote : d.record.login.isRemote = true ↔ ∃ m, .option m ∈ events ∧ m.id = .login := by
      rw [hgives.remote, ← any_isLogin_iff]
      exact Iff.rfl
    rcases hend with ⟨hcommand, argv, rfl⟩ | ⟨r₀, hfinish, hconsistent⟩
    · refine ⟨fun _ hfull => ?_, hremote, fun _ => hpaths⟩
      constructor
      · intro path hpath
        exact hfull hcommand .location path ((hpaths .location).symm.trans hpath)
      · intro path hpath
        exact hfull hcommand .image path ((hpaths .image).symm.trans hpath)
    · have hlogin : r₀.login = d.record.login := Draft.login_of_finish hfinish
      have hsame : r.login = r₀.login :=
        Record.changesOnly_consistent hconsistent .login (by decide)
      rw [← hlogin, ← hsame] at hremote
      refine ⟨fun hhost _ => ?_, hremote, fun hr k => ?_⟩
      · exact Record.pathsFull_of_consistent (fun path full h => .inr (hhost path full h))
          hconsistent
      · rw [hsame] at hr
        rw [Record.eq_of_consistent_remote hr hconsistent, Draft.text?_of_finish hfinish, hpaths]
  · exact readGuestLine_congr hfiles (any_isLogin_iff.2 hlogin)
  · have haction := takesGuestCommand_of_isSome hcommand
    exact given?_of_lacksPaths (Program.lacksPaths_of_command hp haction) haction

end Line

/-- `prlctl register vm1` registers `/vz/vm1` where paths stand below `/vz`, and
`prlctl register /vm1 --login u@host1` registers `/vm1` on `host1`, wherever they stand. -/
theorem registered_path_is_full :
    let host : Host := ⟨fun _ => .error "", fun path => .ok ("/vz/" ++ path)⟩
    let here := readGuestLine .register CommandTable.register 1 ["prlctl", "register", "vm1"]
    let there := readGuestLine .register CommandTable.register 1
      ["prlctl", "register", "/vm1", "--login", "u@host1"]
    (∃ r, (here.perform host .initial).1 = .ok r ∧ r.PathsFull ∧
      r.text? .location = some "/vz/vm1") ∧
    (∃ r, (there.perform host .initial).1 = .ok r ∧ r.login.isRemote = true ∧
      r.text? .location = some "/vm1") ∧
    ∀ host' : Host, host'.readFile = host.readFile →
      there.perform host' .initial = there.perform host .initial := by
  intro host here there
  have hhere : CommandTable.register.read ["prlctl", "register", "vm1"] 2 =
      ⟨[.unknown 2 "vm1"], none⟩ :=
    Table.read_eq_of_streamWithin (n := 2) (by rfl)
  have hthere : CommandTable.register.read ["prlctl", "register", "/vm1", "--login", "u@host1"] 2 =
      ⟨[.unknown 2 "/vm1", .option ⟨.login, "--login", some ⟨"u@host1", ⟨4, 0, 7⟩⟩⟩], none⟩ :=
    Table.read_eq_of_streamWithin (n := 3) (by rfl)
  have hfirst : ∃ r, (here.perform host .initial).1 = .ok r ∧
      r.text? .location = some "/vz/vm1" := by
    unfold here readGuestLine
    rw [hhere]
    exact ⟨_, rfl, rfl⟩
  have hsecond : ∃ r, (there.perform host .initial).1 = .ok r := by
    unfold there readGuestLine
    rw [hthere]
    exact ⟨_, rfl⟩
  have hhost : ∀ path full, host.fullPath path = .ok full → full.toList.head? = some '/' := by
    intro path full h
    cases h
    simp
  have hopen : ¬ (commandStart? .register CommandTable.register 1
      ["prlctl", "register", "vm1"]).isSome = true := by
    decide
  obtain ⟨r, hr, hlocation⟩ := hfirst
  obtain ⟨r', hr'⟩ := hsecond
  have hresult := (paths_are_resolved_here .register CommandTable.register 1
    ["prlctl", "register", "vm1"] host .initial).1 r hr
  obtain ⟨hline, hhosts, -⟩ := paths_are_resolved_here .register CommandTable.register 1
    ["prlctl", "register", "/vm1", "--login", "u@host1"] host .initial
  have hevents : (LineKind.guest.stream .register CommandTable.register 1
      ["prlctl", "register", "/vm1", "--login", "u@host1"]).events =
      [.unknown 2 "/vm1", .option ⟨.login, "--login", some ⟨"u@host1", ⟨4, 0, 7⟩⟩⟩] := by
    rw [LineKind.stream_guest rfl, hthere]
  have hlogin : ∃ m, .option m ∈ (LineKind.guest.stream .register CommandTable.register 1
      ["prlctl", "register", "/vm1", "--login", "u@host1"]).events ∧ m.id = .login := by
    rw [hevents]
    exact ⟨_, List.mem_cons_of_mem _ (List.mem_cons_self ..), rfl⟩
  obtain ⟨-, hremote, hgiven⟩ := hline r' hr'
  refine ⟨⟨r, hr, hresult.1 hhost fun h => (hopen h).elim, hlocation⟩,
    ⟨r', hr', hremote.2 hlogin, ?_⟩, hhosts hlogin⟩
  have hpath := hgiven (hremote.2 hlogin) .location
  rw [hevents] at hpath
  exact hpath

/-- A line that goes on with a command is not looked at any more: with the options of `prlctl set`
it would keep a relative image, although paths stand below `/vz`. -/
theorem guest_command_keeps_relative_image : ∃ r,
    ((readGuestLine .exec CommandTable.set 2
      ["prlctl", "exec", "vm1", "--image", "rel", "ls"]).perform
        ⟨fun _ => .error "", fun path => .ok ("/vz/" ++ path)⟩ .initial).1 = .ok r ∧
    r.device.text? .image = some "rel" ∧ ¬ r.PathsFull := by
  have hread : CommandTable.set.read ["prlctl", "exec", "vm1", "--image", "rel", "ls"] 3 =
      ⟨[.option ⟨.device (.text .image), "--image", some ⟨"rel", ⟨4, 0, 3⟩⟩⟩,
        .unknown 5 "ls"], none⟩ :=
    Table.read_eq_of_streamWithin (n := 3) (by rfl)
  unfold readGuestLine
  rw [hread]
  refine ⟨_, rfl, rfl, fun hfull => ?_⟩
  rcases hfull.image "rel" rfl with h | h
  · exact absurd h (by decide)
  · exact absurd h (by decide)

end VmControl
