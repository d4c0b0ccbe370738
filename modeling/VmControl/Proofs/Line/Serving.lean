import VmControl.Line.Backup
import VmControl.Line.Migration
import VmControl.Line.Network
import VmControl.Line.Report
import VmControl.Line.Template
import VmControl.Proofs.Line.Handling

/-!
# The fields that options write

For each kind of line, the options that it has a use for and the fields that they write.
-/

namespace VmControl

open Options
open Record (ChangesOnly Field)

/-- A grammar for records handles its options if its two parts do. -/
theorem handles_recordGrammar {take : Nat → String → Record → Reading Record}
    {option : Match OptionId → Record → Reading Record} {fields? : OptionId → Option (List Field)}
    {argument : Action → List Field}
    (hargument : ∀ index token r, (take index token r).Ends
      (ChangesOnly (argument r.action) r) (·.Blames [.unknown index token]))
    (hoption : ∀ m r fields, fields? m.id = some fields →
      (option m r).Ends (ChangesOnly fields r) (·.Blames [])) :
    (recordGrammar take option).Handles (fun r => r) fields? argument :=
  ⟨fun _ _ => rfl, hargument, hoption⟩

theorem ends_refuseArgument (index : Nat) (token : String) (r : Record) :
    (refuseArgument index token r).Ends (ChangesOnly [] r) (·.Blames [.unknown index token]) :=
  Reading.ends_throw (CommandError.blames_unrecognized index token)

/-! ## Migrations -/

namespace Migration

/-- The fields that an option of migrations writes. -/
def fields? : OptionId → Option (List Record.Field)
  | .setting (.mark .force) => some [.migration .force]
  | .securityLevel => some [.migration .securityLevel]
  | .setting (.text .location) => some [.migration .location]
  | .session => some [.migration .session]
  | .cloneMode => some [.migration .clone]
  | .removeSource => some [.migration .removeSource]
  | .switchTemplate => some [.migration .switchTemplate]
  | .setting (.mark .changeSystemId) => some [.migration .changeSystemId]
  | .ignoreExisting => some [.migration .ignoreExisting]
  | .shellOptions => some [.migration .shellOptions]
  | .uncompressed => some [.migration .uncompressed]
  | .noTunnel => some [.migration .noTunnel]
  | _ => none

theorem handles_grammar : grammar.Handles (fun r => r) fields? fun _ => [] :=
  handles_recordGrammar ends_refuseArgument fun m r fields h => by
    unfold fields? at h
    split at h <;> cases h
    case h_2 hid =>
      simp only [takeOption, hid]
      exact (ends_readSecurityLevel m []).bind fun level _ => Reading.ends_pure <|
        Record.changesOnly_migration fun g hg => by cases g <;> first | rfl | contradiction
    case h_3 hid =>
      simp only [takeOption, hid]
      exact (Reading.ends_ofExcept (refusesValue_readLocation _ _).blames fun _ _ => trivial).bind
        fun _ _ => Reading.ends_pure <| Record.changesOnly_migration fun g hg => by
          cases g <;> first | rfl | contradiction
    all_goals
      next hid =>
      simp only [takeOption, hid]
      exact Reading.ends_pure <| Record.changesOnly_migration fun g hg => by
        cases g <;> first | rfl | contradiction

end Migration

/-! ## Backups -/

namespace Backup

section Options

variable (m : Match OptionId) (r : Record)

theorem ends_takeStorage :
    (takeStorage m r).Ends (ChangesOnly [.backup .storage] r) (·.Blames []) :=
  (ends_readLogin m []).bind fun _ _ => Reading.ends_pure <|
    Record.changesOnly_backup fun g hg => by cases g <;> first | rfl | contradiction

theorem ends_takeSecurityLevel :
    (takeSecurityLevel m r).Ends (ChangesOnly [.securityLevel] r) (·.Blames []) :=
  (ends_readSecurityLevel m []).bind fun _ _ => Reading.ends_pure fun g hg => by
    cases g <;> first | rfl | exact absurd (List.mem_singleton.2 rfl) hg

theorem ends_takeId : (takeId m r).Ends (ChangesOnly [.backup .id] r) (·.Blames []) :=
  Reading.ends_pure <| Record.changesOnly_backup fun g hg => by
    cases g <;> first | rfl | contradiction

end Options

/-- The fields that an option of making backups writes. -/
def makingFields? : OptionId → Option (List Record.Field)
  | .backupKind _ => some [.backup .kind]
  | .storage => some [.backup .storage]
  | .securityLevel => some [.securityLevel]
  | .setting (.text .description) => some [.backup .description]
  | .uncompressed => some [.backup .uncompressed]
  | _ => none

theorem handles_makingGrammar :
    makingGrammar.Handles (fun r => r) makingFields? fun _ => [] :=
  handles_recordGrammar ends_refuseArgument fun m r fields h => by
    unfold makingFields? at h
    split at h <;> cases h
    all_goals
      next hid =>
      simp only [takeMakingOption, hid]
      first
        | exact ends_takeStorage m r
        | exact ends_takeSecurityLevel m r
        | exact Reading.ends_pure <| Record.changesOnly_backup fun g hg => by
            cases g <;> first | rfl | contradiction

/-- The fields that an option of restoring backups writes.  One of them asks for a list instead. -/
def restoringFields? : OptionId → Option (List Record.Field)
  | .backupId => some [.backup .id]
  | .backupTarget => some [.target]
  | .setting (.text .newName) => some [.backup .name]
  | .backupList => some [.action]
  | .backupListFull => some [.backup .listFull]
  | .storage => some [.backup .storage]
  | .securityLevel => some [.securityLevel]
  | .setting (.text .location) => some [.backup .location]
  | _ => none

theorem ends_takeOnlyTarget (index : Nat) (token : String) (r : Record) :
    (takeOnlyTarget index token r).Ends (ChangesOnly [.target] r)
      (·.Blames [.unknown index token]) := by
  unfold takeOnlyTarget
  split
  · exact Reading.ends_throw (CommandError.blames_unrecognized index token)
  · split
    · exact Reading.ends_throw (CommandError.blames_of_isStray rfl _)
    · exact Reading.ends_pure (r.changesOnly_target _)

theorem handles_restoringGrammar :
    restoringGrammar.Handles (fun r => r) restoringFields? fun _ => [.target] :=
  handles_recordGrammar ends_takeOnlyTarget fun m r fields h => by
    unfold restoringFields? at h
    split at h <;> cases h
    case h_2 hid =>
      simp only [takeRestoringOption, hid]
      exact Reading.ends_pure (r.changesOnly_target _)
    case h_4 hid =>
      simp only [takeRestoringOption, hid]
      exact Reading.ends_pure fun g hg => by
        cases g <;> first | rfl | exact absurd (List.mem_singleton.2 rfl) hg
    case h_8 hid =>
      simp only [takeRestoringOption, hid]
      exact (Reading.ends_ofExcept (refusesValue_readLocation _ _).blames fun _ _ => trivial).bind
        fun _ _ => Reading.ends_pure <| Record.changesOnly_backup fun g hg => by
          cases g <;> first | rfl | contradiction
    all_goals
      next hid =>
      simp only [takeRestoringOption, hid]
      first
        | exact ends_takeId m r
        | exact ends_takeStorage m r
        | exact ends_takeSecurityLevel m r
        | exact Reading.ends_pure <| Record.changesOnly_backup fun g hg => by
            cases g <;> first | rfl | contradiction

/-- The fields that an option of deleting backups writes. -/
def deletingFields? : OptionId → Option (List Record.Field)
  | .backupId => some [.backup .id]
  | .storage => some [.backup .storage]
  | .securityLevel => some [.securityLevel]
  | .keepChain => some [.backup .keepChain]
  | _ => none

theorem handles_deletingGrammar :
    deletingGrammar.Handles (fun r => r) deletingFields? fun _ => [.target] :=
  handles_recordGrammar ends_takeOnlyTarget fun m r fields h => by
    unfold deletingFields? at h
    split at h <;> cases h
    all_goals
      next hid =>
      simp only [takeDeletingOption, hid]
      first
        | exact ends_takeId m r
        | exact ends_takeStorage m r
        | exact ends_takeSecurityLevel m r
        | exact Reading.ends_pure <| Record.changesOnly_backup fun g hg => by
            cases g <;> first | rfl | contradiction

/-- The fields that an option of listing backups writes. -/
def listingFields? : OptionId → Option (List Record.Field)
  | .backupListFull => some [.backup .listFull]
  | .setting (.mark .listNoHeader) => some [.setting (.mark .listNoHeader)]
  | .backupId => some [.backup .id]
  | .localGuests => some [.backup .listLocal]
  | .storage => some [.backup .storage]
  | .securityLevel => some [.securityLevel]
  | .guestKind => some [.kind]
  | _ => none

theorem handles_listingGrammar :
    listingGrammar.Handles (fun r => r) listingFields? fun _ => [.target] :=
  handles_recordGrammar (fun _ _ r => Reading.ends_pure (r.changesOnly_target _))
    fun m r fields h => by
      unfold listingFields? at h
      split at h <;> cases h
      case h_2 hid =>
        simp only [takeListingOption, hid]
        exact Reading.ends_pure (r.changesOnly_mark _)
      case h_7 hid =>
        simp only [takeListingOption, hid]
        refine (Reading.ends_ofExcept (Setting.refusesValue_choose _ _ _).blames fun _ _ => trivial).bind
          fun _ _ => Reading.ends_pure fun g hg => ?_
        cases g <;> first | rfl | exact absurd (List.mem_singleton.2 rfl) hg
      all_goals
        next hid =>
        simp only [takeListingOption, hid]
        first
          | exact ends_takeId m r
          | exact ends_takeStorage m r
          | exact ends_takeSecurityLevel m r
          | exact Reading.ends_pure <| Record.changesOnly_backup fun g hg => by
              cases g <;> first | rfl | contradiction

end Backup

/-! ## Statistics and problem reports -/

namespace Statistics

/-- The fields that an option of statistics writes. -/
def fields? : OptionId → Option (List Record.Field)
  | .loop => some [.statistics .repeated]
  | .filter => some [.statistics .filter]
  | .setting (.mark .listAll) => some [.setting (.mark .listAll)]
  | _ => none

theorem handles_grammar : grammar.Handles (fun r => r) fields? fun _ => [.target] :=
  handles_recordGrammar (fun _ _ r => Reading.ends_pure (r.changesOnly_target _))
    fun m r fields h => by
      unfold fields? at h
      split at h <;> cases h
      case h_3 hid =>
        simp only [takeOption, hid]
        exact Reading.ends_pure (r.changesOnly_mark _)
      all_goals
        next hid =>
        simp only [takeOption, hid]
        exact Reading.ends_pure <| Record.changesOnly_statistics fun g hg => by
          cases g <;> first | rfl | contradiction

end Statistics

namespace ProblemReport

/-- The fields that an option of problem reports writes. -/
def fields? : OptionId → Option (List Record.Field)
  | .report _ => some [.report .action]
  | .standAlone => some [.report .standAlone]
  | .reportName => some [.report .userName]
  | .reportEmail => some [.report .userEmail]
  | .reportDescription => some [.report .description]
  | .proxy => some [.report .proxy]
  | .noProxy => some [.report .noProxy]
  | _ => none

theorem handles_grammar : grammar.Handles (fun r => r) fields? fun _ => [] :=
  handles_recordGrammar ends_refuseArgument fun m r fields h => by
    unfold fields? at h
    split at h <;> cases h
    case h_6 hid =>
      simp only [takeOption, hid]
      have hsecret : (readSecret m).Ends (fun _ => True) (·.Blames []) :=
        Reading.ends_wipe.bind fun _ _ => Reading.ends_pure trivial
      exact hsecret.bind fun _ _ => Reading.ends_pure <| Record.changesOnly_report fun g hg => by
        cases g <;> first | rfl | contradiction
    all_goals
      next hid =>
      simp only [takeOption, hid]
      exact Reading.ends_pure <| Record.changesOnly_report fun g hg => by
        cases g <;> first | rfl | contradiction

end ProblemReport

/-! ## The server -/

namespace Server

/-- The fields that an option of the server writes. -/
def fields? : OptionId → Option (List Record.Field)
  | .server s => some [.server (.setting s)]
  | .storage => some [.server .backupStorage]
  | .serverKey .publicKey => some [.server .publicKey]
  | .serverKey .privateKey => some [.server .privateKey]
  | .device (.text .device) => some [.server .device]
  | .setting (.mark .force) => some [.server .force]
  | .setting (.switch .lockEditSettings) => some [.setting (.switch .lockEditSettings)]
  | .setting (.text .newName) => some [.setting (.text .newName)]
  | .setting (.text .file) => some [.setting (.text .file)]
  | .setting (.mark .json) => some [.setting (.mark .json)]
  | .setting (.mark .fullInfo) => some [.setting (.mark .fullInfo)]
  | .requirePassword => some [.passwordRules]
  | .licenseKey => some [.key]
  | .company => some [.company]
  | .batch => some [.batch]
  | .addService => some [.server .offlineService]
  | .deleteService => some [.server .offlineService]
  | .addClass => some [.server .networkClass]
  | .deleteClass => some [.server .networkClass]
  | .addShaping => some [.server .shapingEntry]
  | .deleteShaping => some [.server .shapingEntry]
  | .addBandwidth => some [.server .bandwidthEntry]
  | .deleteBandwidth => some [.server .bandwidthEntry]
  | _ => none

/-- An entry of the server is the one that the option is for. -/
theorem ends_takeEntry {m : Match OptionId} {r : Record} {f : Field}
    {x : Except CommandError Server} (hx : takeEntry? m r.server = some x)
    (hs : ∀ s, x = .ok s → ∀ g, g ≠ f → s.get g = r.server.get g) :
    (do return { r with server := ← Reading.ofExcept x } : Reading Record).Ends
      (ChangesOnly [.server f] r) (·.Blames []) := by
  exact (Reading.ends_ofExcept (refusesValue_of_entry hx).blames hs).bind fun _ hs =>
    Reading.ends_pure (Record.changesOnly_server hs)

theorem handles_grammar : grammar.Handles (fun r => r) fields? fun _ => [] :=
  handles_recordGrammar ends_refuseArgument fun m r fields h => by
    have hkey (path : String) : (readKey path).Ends (fun _ => True) (·.Blames []) := by
      unfold readKey
      split
      · exact Reading.ends_pure trivial
      · exact Reading.ends_readFile
    have hstorage : (takeStorage m r.server).Ends
        (fun s => ∀ g, g ≠ Field.backupStorage → s.get g = r.server.get g) (·.Blames []) :=
      (ends_readLogin m []).bind fun _ _ => Reading.ends_pure fun g hg => by
        cases g <;> first | rfl | contradiction
    unfold fields? at h
    split at h <;> cases h
    case h_1 s hid =>
      simp only [takeOption, hid]
      exact (Reading.ends_ofExcept (s.refusesValue_read _ _).blames fun _ _ => trivial).bind
        fun v _ => Reading.ends_pure (r.changesOnly_serverSet s v)
    case h_2 hid =>
      simp only [takeOption, hid]
      exact hstorage.bind fun s hs => Reading.ends_pure (Record.changesOnly_server hs)
    case h_3 hid | h_4 hid =>
      simp only [takeOption, hid]
      exact (hkey m.text).bind fun _ _ => Reading.ends_pure <|
        Record.changesOnly_server fun g hg => by cases g <;> first | rfl | contradiction
    case h_5 hid | h_6 hid =>
      simp only [takeOption, hid]
      exact Reading.ends_pure <| Record.changesOnly_server fun g hg => by
        cases g <;> first | rfl | contradiction
    case h_7 hid =>
      simp only [takeOption, hid]
      exact (Reading.ends_ofExcept (Switch.refusesValue_read _ _ _).blames fun _ _ => trivial).bind
        fun b _ => Reading.ends_pure (r.changesOnly_set (.switch .lockEditSettings) b)
    case h_8 hid | h_9 hid | h_10 hid | h_11 hid =>
      simp only [takeOption, hid]
      exact Reading.ends_pure (r.changesOnly_set _ _)
    case h_12 hid =>
      simp only [takeOption, hid]
      refine (Reading.ends_ofExcept (PasswordRules.refusesValue_read _ _ _).blames fun _ _ => trivial).bind
        fun _ _ => Reading.ends_pure fun g hg => ?_
      cases g <;> first | rfl | exact absurd (List.mem_singleton.2 rfl) hg
    case h_13 hid | h_14 hid | h_15 hid =>
      simp only [takeOption, hid]
      refine Reading.ends_pure fun g hg => ?_
      cases g <;> first | rfl | exact absurd (List.mem_singleton.2 rfl) hg
    all_goals
      next hid =>
      simp only [takeOption, hid]
      cases hx : takeEntry? m r.server with
      | none => simp [hid, takeEntry?] at hx
      | some x =>
        refine ends_takeEntry hx fun s hs g hg => ?_
        simp only [hid, takeEntry?, Option.some.injEq] at hx
        subst hx
        first | cases hs | obtain ⟨e, -, rfl⟩ := map_eq_ok.1 hs
        cases g <;> first | rfl | contradiction

end Server

/-! ## Networks and host devices -/

namespace VirtualNetwork

/-- The field of the forwarding rules of a protocol. -/
def natField : Transport → Field
  | .tcp => .tcp
  | .udp => .udp

/-- The fields that an option of virtual networks writes. -/
def fields? : OptionId → Option (List Record.Field)
  | .networkName => some []
  | .network s => some [.network (.setting s)]
  | .natAdd protocol => some [.network (natField protocol)]
  | .natDelete protocol => some [.network (natField protocol)]
  | .setting (.mark .json) => some [.setting (.mark .json)]
  | _ => none

theorem ends_takeName (index : Nat) (token : String) (r : Record) :
    (takeName index token r).Ends (ChangesOnly [.network .name] r)
      (·.Blames [.unknown index token]) := by
  unfold takeName
  split
  · exact Reading.ends_throw (CommandError.blames_unexpectedArgument index token)
  · refine Reading.ends_pure fun f hf => ?_
    cases f with
    | network f => cases f <;> first | rfl | exact absurd (List.mem_singleton.2 rfl) hf
    | _ => rfl

theorem changesOnly_mapNat (r : Record) (protocol : Transport) (f : NatChanges → NatChanges) :
    ChangesOnly [.network (natField protocol)] r
      { r with network := r.network.mapNat protocol f } := by
  intro g hg
  cases g with
  | network g =>
    cases protocol <;> cases g <;> first | rfl | exact absurd (List.mem_singleton.2 rfl) hg
  | _ => rfl

theorem handles_grammar :
    grammar.Handles (fun r => r) fields? fun _ => [.network .name] :=
  handles_recordGrammar ends_takeName fun m r fields h => by
    unfold fields? at h
    split at h <;> cases h
    case h_1 hid =>
      simp only [takeOption, hid]
      exact Reading.ends_throw (CommandError.blames_of_isStray rfl _)
    case h_2 s hid =>
      simp only [takeOption, hid]
      exact (Reading.ends_ofExcept (s.refusesValue_read _ _).blames fun _ _ => trivial).bind
        fun v _ => Reading.ends_pure (r.changesOnly_networkSet s v)
    case h_3 protocol hid =>
      simp only [takeOption, hid]
      split
      · exact Reading.ends_pure (changesOnly_mapNat r protocol _)
      · exact Reading.ends_throw (CommandError.blames_of_isStray rfl _)
    case h_4 protocol hid =>
      simp only [takeOption, hid]
      split
      · exact Reading.ends_throw (CommandError.blames_of_isStray rfl _)
      · exact Reading.ends_pure (changesOnly_mapNat r protocol _)
    case h_5 hid =>
      simp only [takeOption, hid]
      exact Reading.ends_pure (r.changesOnly_mark _)

end VirtualNetwork

namespace PrivateNetwork

/-- The fields that an option of private networks writes. -/
def fields? : OptionId → Option (List Record.Field)
  | .privateAdd => some [.privateNetwork .addresses]
  | .privateDelete => some [.privateNetwork .removed]
  | .privateGlobal => some [.privateNetwork .isGlobal]
  | .setting (.mark .json) => some [.setting (.mark .json)]
  | _ => none

theorem ends_takeName (index : Nat) (token : String) (r : Record) :
    (takeName index token r).Ends (ChangesOnly [.privateNetwork .name] r)
      (·.Blames [.unknown index token]) := by
  unfold takeName
  split
  · exact Reading.ends_throw (CommandError.blames_unexpectedArgument index token)
  · exact Reading.ends_pure <| Record.changesOnly_privateNetwork fun g hg => by
      cases g <;> first | rfl | contradiction

theorem handles_grammar :
    grammar.Handles (fun r => r) fields? fun _ => [.privateNetwork .name] :=
  handles_recordGrammar ends_takeName fun m r fields h => by
    unfold fields? at h
    split at h <;> cases h
    case h_1 hid | h_2 hid =>
      simp only [takeOption, hid]
      exact Reading.ends_pure <| Record.changesOnly_privateNetwork fun g hg => by
        cases g <;> first | rfl | contradiction
    case h_3 hid =>
      simp only [takeOption, hid]
      split
      · exact Reading.ends_pure <| Record.changesOnly_privateNetwork fun g hg => by
          cases g <;> first | rfl | contradiction
      · exact Reading.ends_throw (CommandError.blames_of_isStray rfl _)
    case h_4 hid =>
      simp only [takeOption, hid]
      exact Reading.ends_pure (r.changesOnly_mark _)

end PrivateNetwork

namespace UsbAssignment

/-- The fields that an option of host devices writes. -/
def fields? : OptionId → Option (List Record.Field)
  | .setting (.mark .json) => some [.setting (.mark .json)]
  | _ => none

theorem handles_grammar : grammar.Handles (fun r => r) fields? fun _ => [] :=
  handles_recordGrammar ends_refuseArgument fun m r fields h => by
    unfold fields? at h
    split at h <;> cases h
    next hid =>
    simp only [takeOption, hid]
    exact Reading.ends_pure (r.changesOnly_mark _)

end UsbAssignment

namespace TemplateCopy

/-- The fields that an option of copies writes. -/
def fields? : OptionId → Option (List Record.Field)
  | .setting (.mark .force) => some [.templateCopy .force]
  | .securityLevel => some [.templateCopy .securityLevel]
  | _ => none

theorem handles_grammar : grammar.Handles (fun r => r) fields? fun _ => [] :=
  handles_recordGrammar ends_refuseArgument fun m r fields h => by
    unfold fields? at h
    split at h <;> cases h
    case h_1 hid =>
      simp only [takeOption, hid]
      exact Reading.ends_pure <| Record.changesOnly_templateCopy fun g hg => by
        cases g <;> first | rfl | contradiction
    case h_2 hid =>
      simp only [takeOption, hid]
      exact (ends_readSecurityLevel m []).bind fun level _ => Reading.ends_pure <|
        Record.changesOnly_templateCopy fun g hg => by cases g <;> first | rfl | contradiction

end TemplateCopy

end VmControl
