import VmControl.Network.Virtual
import VmControl.Proofs.Numeral
import VmControl.Proofs.Text.Cut
import VmControl.Resource
import VmControl.Server.Traffic

/-!
# Entries that are written down

Firewall rules, forwarding rules and the entries of a server are read from texts of a few parts.
Each kind of them can be written down, and what is written down is read again: no part is lost, and
no two parts become one.  The readers take other texts as well, with more blanks or with plus signs,
but never come to a value that cannot be written down.

## Main definitions

* `RoundTrips`: a reader takes back what is written down of the values that it can come to.
* `FirewallRule.write`, `NatRule.write`, `OfflineService.write`, `NetworkClass.write`,
  `ShapingEntry.write`, `BandwidthEntry.write`, `ClassRate.write`: entries as texts.

## Main statements

* `FirewallRule.roundTrips_word`: what may be an asterisk is taken back if the rest is.
* `entries_round_trip`: all entries are taken back.
-/

namespace VmControl

open Numeral Text

/-! ## Writing and reading -/

/-- Whether what is written down of the values that are `valid` is read as these values, and no
other value is read from any text. -/
structure RoundTrips {τ α : Type} (reads : τ → α → Prop) (write : α → τ) (valid : α → Prop) :
    Prop where
  /-- A valid value is read from what is written down of it. -/
  reads_write : ∀ a, valid a → reads (write a) a
  /-- Every value that is read is valid. -/
  valid_of_reads : ∀ t a, reads t a → valid a
  /-- So what was read once is read again from what is written down of it. -/
  reads_write_of_reads : ∀ t a, reads t a → reads (write a) a :=
    fun t a h => reads_write a (valid_of_reads t a h)

/-- A numeral is a word. -/
theorem isWord_write (n : Nat) : IsWord isBlank (Numeral.write n) where
  ne_nil := (isDecimal_write n).ne_nil
  not_delim c hc := isBlank_of_isDigit ((isDecimal_write n).isDigit c hc)

/-- Trimming leaves a text without blanks alone. -/
theorem trim_of_not_blank {cs : List Char} (h : ∀ c ∈ cs, isBlank c = false) : trim cs = cs := by
  have hstart {cs : List Char} (h : ∀ c ∈ cs, isBlank c = false) : trimStart cs = cs := by
    cases cs with
    | nil => rfl
    | cons c cs => exact List.dropWhile_cons_of_neg (by simp [h c (List.mem_cons_self ..)])
  rw [trim, hstart h, hstart fun c hc => h c (List.mem_reverse.1 hc), List.reverse_reverse]

/-! ## Firewall rules -/

namespace FirewallRule

section Any

variable {α : Type} {read : List Char → Option α} {write : α → List Char} {valid : α → Prop}

/-- A word for what may be any, an asterisk standing for that. -/
def writeAny (write : α → List Char) : Option α → List Char
  | none => ['*']
  | some a => write a

/-- **What may be an asterisk is taken back**, if anything else is taken back from a word that is
none. -/
theorem roundTrips_word
    (h : RoundTrips (fun w a => IsWord isBlank w ∧ w ≠ ['*'] ∧ read w = some a) write valid) :
    RoundTrips (fun w o => IsWord isBlank w ∧ readAny read w = some o) (writeAny write)
      fun o => ∀ a ∈ o, valid a where
  reads_write o ho := by
    cases o with
    | none => exact ⟨⟨nofun, List.forall_mem_singleton.2 rfl⟩, if_pos rfl⟩
    | some a =>
      obtain ⟨hword, hne, hread⟩ := h.reads_write a (ho a rfl)
      exact ⟨hword, by rw [writeAny, readAny, if_neg hne, hread, Option.map_some]⟩
  valid_of_reads := by
    rintro w _ ⟨hword, hread⟩ a rfl
    unfold readAny at hread
    split at hread
    · cases hread
    · next hne =>
      obtain ⟨a', ha', heq⟩ := Option.map_eq_some_iff.1 hread
      cases heq
      exact h.valid_of_reads w a ⟨hword, hne, ha'⟩

end Any

/-- The word for a protocol. -/
def transportWord : Transport → List Char
  | .tcp => ['t', 'c', 'p']
  | .udp => ['u', 'd', 'p']

theorem isWord_transportWord (t : Transport) : IsWord isBlank (transportWord t) where
  ne_nil := by cases t <;> exact List.cons_ne_nil _ _
  not_delim := by
    cases t <;>
      exact List.forall_mem_cons.2 ⟨rfl, List.forall_mem_cons.2 ⟨rfl, List.forall_mem_singleton.2 rfl⟩⟩

theorem roundTrips_transport :
    RoundTrips (fun w t => IsWord isBlank w ∧ w ≠ ['*'] ∧ readTransport w = some t) transportWord
      fun _ => True where
  reads_write t _ := ⟨isWord_transportWord t, by cases t <;> decide, by cases t <;> decide⟩
  valid_of_reads _ _ _ := trivial

/-- Whether a text can be the address of a rule: a word that is no asterisk. -/
structure IsAddressWord (s : String) : Prop where
  isWord : IsWord isBlank s.toList
  ne_any : s.toList ≠ ['*']

theorem roundTrips_address :
    RoundTrips (fun w s => IsWord isBlank w ∧ w ≠ ['*'] ∧ some (String.ofList w) = some s)
      String.toList IsAddressWord where
  reads_write s hs := ⟨hs.isWord, hs.ne_any, congrArg some String.ofList_toList⟩
  valid_of_reads := by
    rintro w _ ⟨hword, hne, heq⟩
    cases heq
    exact ⟨by rwa [String.toList_ofList], by rwa [String.toList_ofList]⟩

theorem roundTrips_port :
    RoundTrips (fun w n => IsWord isBlank w ∧ w ≠ ['*'] ∧ readPort w = some n) Numeral.write
      (· < word16) where
  reads_write n hn := by
    refine ⟨isWord_write n, fun heq => ?_, unsigned_write hn⟩
    exact notMem_write (c := '*') (by decide) n (heq ▸ List.mem_singleton_self _)
  valid_of_reads _ _ h := lt_of_unsigned h.2.2

/-- The five words of a rule. -/
def toWords (r : FirewallRule) : List (List Char) :=
  [writeAny transportWord r.protocol, writeAny String.toList r.sourceIp,
    writeAny Numeral.write r.sourcePort, writeAny String.toList r.targetIp,
    writeAny Numeral.write r.targetPort]

/-- A rule as a text, with a blank between its words. -/
def write (r : FirewallRule) : String := String.ofList ([' '].intercalate r.toWords)

/-- Whether a rule can be written down: its addresses are words that are no asterisk, its ports are
in range, and it has a protocol if it has a port. -/
structure IsWritable (r : FirewallRule) : Prop where
  sourceIp : ∀ s ∈ r.sourceIp, IsAddressWord s
  sourcePort : ∀ n ∈ r.sourcePort, n < word16
  targetIp : ∀ s ∈ r.targetIp, IsAddressWord s
  targetPort : ∀ n ∈ r.targetPort, n < word16
  protocol : r.hasPort = true → r.protocol ≠ none

theorem ofWords_eq_some {ws : List (List Char)} {r : FirewallRule} : ofWords ws = some r ↔
    ∃ protocol sourceIp sourcePort targetIp targetPort,
      ws = [protocol, sourceIp, sourcePort, targetIp, targetPort] ∧
      readAny readTransport protocol = some r.protocol ∧
      readAny (fun w => some (String.ofList w)) sourceIp = some r.sourceIp ∧
      readAny readPort sourcePort = some r.sourcePort ∧
      readAny (fun w => some (String.ofList w)) targetIp = some r.targetIp ∧
      readAny readPort targetPort = some r.targetPort := by
  constructor
  · intro h
    unfold ofWords at h
    split at h
    · next protocol sourceIp sourcePort targetIp targetPort =>
      simp only [bind, Option.bind_eq_some_iff, pure, Option.some.injEq] at h
      obtain ⟨_, hprotocol, _, hsourceIp, _, hsourcePort, _, htargetIp, _, htargetPort, rfl⟩ := h
      exact ⟨_, _, _, _, _, rfl, hprotocol, hsourceIp, hsourcePort, htargetIp, htargetPort⟩
    · cases h
  · rintro ⟨_, _, _, _, _, rfl, hprotocol, hsourceIp, hsourcePort, htargetIp, htargetPort⟩
    simp only [ofWords, hprotocol, hsourceIp, hsourcePort, htargetIp, htargetPort]
    rfl

theorem read_eq_ok {s : String} {r : FirewallRule} : read s = .ok r ↔
    ofWords (blankWords s.toList) = some r ∧ (r.hasPort = true → r.protocol ≠ none) := by
  unfold read
  cases ofWords (blankWords s.toList) with
  | none => simp
  | some r' =>
    dsimp only
    split
    · next hbad =>
      simp only [Bool.and_eq_true, Option.isNone_iff_eq_none] at hbad
      simp only [reduceCtorEq, false_iff, Option.some.injEq, not_and]
      rintro rfl hrule
      exact hrule hbad.2 hbad.1
    · next hgood =>
      simp only [Bool.and_eq_true, Option.isNone_iff_eq_none, not_and] at hgood
      simp only [Except.ok.injEq, Option.some.injEq, iff_self_and]
      rintro rfl hport hnone
      exact hgood hnone hport

/-- **Firewall rules are taken back.** -/
theorem roundTrips : RoundTrips (fun s r => read s = .ok r) write IsWritable where
  reads_write r hr := by
    obtain ⟨hprotocolWord, hprotocol⟩ :=
      (roundTrips_word roundTrips_transport).reads_write r.protocol fun _ _ => trivial
    obtain ⟨hsourceIpWord, hsourceIp⟩ :=
      (roundTrips_word roundTrips_address).reads_write r.sourceIp hr.sourceIp
    obtain ⟨hsourcePortWord, hsourcePort⟩ :=
      (roundTrips_word roundTrips_port).reads_write r.sourcePort hr.sourcePort
    obtain ⟨htargetIpWord, htargetIp⟩ :=
      (roundTrips_word roundTrips_address).reads_write r.targetIp hr.targetIp
    obtain ⟨htargetPortWord, htargetPort⟩ :=
      (roundTrips_word roundTrips_port).reads_write r.targetPort hr.targetPort
    have hwords : ∀ w ∈ r.toWords, IsWord isBlank w := by
      simp only [toWords, List.forall_mem_cons]
      exact ⟨hprotocolWord, hsourceIpWord, hsourcePortWord, htargetIpWord, htargetPortWord, nofun⟩
    have hcut : blankWords (write r).toList = r.toWords := by
      rw [write, String.toList_ofList]
      exact words_intercalate (by decide) hwords
    exact read_eq_ok.2 ⟨ofWords_eq_some.2 ⟨_, _, _, _, _, hcut, hprotocol, hsourceIp, hsourcePort,
      htargetIp, htargetPort⟩, hr.protocol⟩
  valid_of_reads s r h := by
    obtain ⟨hwords, hrule⟩ := read_eq_ok.1 h
    obtain ⟨_, _, _, _, _, hcut, hprotocol, hsourceIp, hsourcePort, htargetIp, htargetPort⟩ :=
      ofWords_eq_some.1 hwords
    have hword {w : List Char} (hw : w ∈ blankWords s.toList) : IsWord isBlank w :=
      isWord_of_mem_words hw
    rw [hcut] at hword
    exact {
      sourceIp := (roundTrips_word roundTrips_address).valid_of_reads _ _
        ⟨hword (by simp), hsourceIp⟩
      sourcePort := (roundTrips_word roundTrips_port).valid_of_reads _ _
        ⟨hword (by simp), hsourcePort⟩
      targetIp := (roundTrips_word roundTrips_address).valid_of_reads _ _
        ⟨hword (by simp), htargetIp⟩
      targetPort := (roundTrips_word roundTrips_port).valid_of_reads _ _
        ⟨hword (by simp), htargetPort⟩
      protocol := hrule }

example : write ⟨some .tcp, some "10.0.0.1", none, none, some 443⟩ = "tcp 10.0.0.1 * * 443" := by
  decide +kernel

end FirewallRule

/-! ## Entries between colons -/

theorem isField_write (n : Nat) : IsField ':' (Numeral.write n) :=
  ⟨(isDecimal_write n).ne_nil, notMem_write (by decide) n⟩

/-- Fields as a text, with a colon between them. -/
def joinColonFields (fs : List (List Char)) : String := String.ofList ([':'].intercalate fs)

theorem colonFields?_eq_some {s : String} {fs : List (List Char)} : colonFields? s = some fs ↔
    fs ≠ [] ∧ (∀ f ∈ fs, IsField ':' f) ∧ s.toList = [':'].intercalate fs := by
  have hfields : (∀ f ∈ fs, IsField ':' f) ↔ [] ∉ fs ∧ ∀ f ∈ fs, ':' ∉ f := by
    constructor
    · exact fun h => ⟨fun hnil => (h [] hnil).ne_nil rfl, fun f hf => (h f hf).notMem⟩
    · rintro ⟨hnil, hcolon⟩ f hf
      exact ⟨fun heq => hnil (heq ▸ hf), hcolon f hf⟩
  rw [hfields, and_assoc, and_left_comm, ← fields_eq_iff, colonFields?]
  constructor
  · intro h
    split at h
    · cases h
    · next hnil =>
      cases h
      exact ⟨hnil, rfl⟩
  · rintro ⟨hnil, rfl⟩
    exact if_neg hnil

/-- **Entries between colons are taken back** if they are from fields that can stand there. -/
theorem roundTrips_colonFields {α : Type} {ofFields : List (List Char) → Option α}
    {toFields : α → List (List Char)} {valid : α → Prop} (hnil : ofFields [] = none)
    (h : RoundTrips (fun fs a => (∀ f ∈ fs, IsField ':' f) ∧ ofFields fs = some a)
      toFields valid) :
    RoundTrips (fun s a => (colonFields? s).bind ofFields = some a)
      (fun a => joinColonFields (toFields a)) valid where
  reads_write a ha := by
    obtain ⟨hfields, hread⟩ := h.reads_write a ha
    have hne : toFields a ≠ [] := by
      intro heq
      rw [heq, hnil] at hread
      cases hread
    exact Option.bind_eq_some_iff.2
      ⟨_, colonFields?_eq_some.2 ⟨hne, hfields, String.toList_ofList⟩, hread⟩
  valid_of_reads s a hread := by
    obtain ⟨fs, hcut, hread⟩ := Option.bind_eq_some_iff.1 hread
    exact h.valid_of_reads fs a ⟨(colonFields?_eq_some.1 hcut).2.1, hread⟩

namespace NetworkClass

/-- The network class of two fields. -/
def ofFields (delete : Bool) : List (List Char) → Option NetworkClass
  | [classId, network] =>
    (unsigned word32 classId).map fun n => ⟨n, String.ofList network, delete⟩
  | _ => none

/-- The two fields of a network class. -/
def toFields (e : NetworkClass) : List (List Char) := [Numeral.write e.classId, e.network.toList]

/-- A network class as a text. -/
def write (e : NetworkClass) : String := joinColonFields e.toFields

/-- Whether a network class can be written down. -/
structure IsWritable (e : NetworkClass) : Prop where
  classId : e.classId < word32
  network : IsField ':' e.network.toList

theorem read_eq_ok {s : String} {delete : Bool} {e : NetworkClass} :
    read s delete = .ok e ↔ (colonFields? s).bind (ofFields delete) = some e := by
  unfold read
  rcases colonFields? s with _ | _ | ⟨classId, _ | ⟨network, _ | ⟨_, _⟩⟩⟩
  case some.cons.cons.nil => cases hn : unsigned word32 classId <;> simp [ofFields, hn]
  all_goals simp [ofFields]

/-- **Network classes are taken back.** -/
theorem roundTrips (delete : Bool) : RoundTrips (fun s e => read s delete = .ok e) write
    fun e => e.IsWritable ∧ e.delete = delete := by
  simp only [read_eq_ok]
  refine roundTrips_colonFields rfl { reads_write := ?_, valid_of_reads := ?_ }
  · rintro e ⟨he, rfl⟩
    refine ⟨List.forall_mem_cons.2 ⟨isField_write _, List.forall_mem_singleton.2 he.network⟩,
      ?_⟩
    simp [toFields, ofFields, unsigned_write he.classId]
  · rintro fs e ⟨hfields, hread⟩
    unfold ofFields at hread
    split at hread
    · next classId network =>
      obtain ⟨n, hn, rfl⟩ := Option.map_eq_some_iff.1 hread
      exact ⟨⟨lt_of_unsigned hn, by simpa using hfields network (by simp)⟩, rfl⟩
    · cases hread

end NetworkClass

namespace BandwidthEntry

/-- The bandwidth entry of two fields. -/
def ofFields (delete : Bool) : List (List Char) → Option BandwidthEntry
  | [device, bandwidth] =>
    (unsigned word32 bandwidth).map fun n => ⟨String.ofList device, n, delete⟩
  | _ => none

/-- The two fields of a bandwidth entry. -/
def toFields (e : BandwidthEntry) : List (List Char) :=
  [e.device.toList, Numeral.write e.bandwidth]

/-- A bandwidth entry as a text. -/
def write (e : BandwidthEntry) : String := joinColonFields e.toFields

/-- Whether a bandwidth entry can be written down. -/
structure IsWritable (e : BandwidthEntry) : Prop where
  device : IsField ':' e.device.toList
  bandwidth : e.bandwidth < word32

theorem read_eq_ok {s : String} {delete : Bool} {e : BandwidthEntry} :
    read s delete = .ok e ↔ (colonFields? s).bind (ofFields delete) = some e := by
  unfold read
  rcases colonFields? s with _ | _ | ⟨device, _ | ⟨bandwidth, _ | ⟨_, _⟩⟩⟩
  case some.cons.cons.nil => cases hn : unsigned word32 bandwidth <;> simp [ofFields, hn]
  all_goals simp [ofFields]

/-- **Bandwidth entries are taken back.** -/
theorem roundTrips (delete : Bool) : RoundTrips (fun s e => read s delete = .ok e) write
    fun e => e.IsWritable ∧ e.delete = delete := by
  simp only [read_eq_ok]
  refine roundTrips_colonFields rfl { reads_write := ?_, valid_of_reads := ?_ }
  · rintro e ⟨he, rfl⟩
    refine ⟨List.forall_mem_cons.2 ⟨he.device, List.forall_mem_singleton.2 (isField_write _)⟩,
      ?_⟩
    simp [toFields, ofFields, unsigned_write he.bandwidth]
  · rintro fs e ⟨hfields, hread⟩
    unfold ofFields at hread
    split at hread
    · next device bandwidth =>
      obtain ⟨n, hn, rfl⟩ := Option.map_eq_some_iff.1 hread
      exact ⟨⟨by simpa using hfields device (by simp), lt_of_unsigned hn⟩, rfl⟩
    · cases hread

end BandwidthEntry

namespace ShapingEntry

/-- The four fields of a shaping entry. -/
def toFields (e : ShapingEntry) : List (List Char) :=
  [e.device.toList, Numeral.write e.classId, Numeral.write e.totalRate, Numeral.write e.rate]

/-- A shaping entry as a text. -/
def write (e : ShapingEntry) : String := joinColonFields e.toFields

/-- Whether a shaping entry can be written down. -/
structure IsWritable (e : ShapingEntry) : Prop where
  device : IsField ':' e.device.toList
  classId : e.classId < word32
  totalRate : e.totalRate < word32
  rate : e.rate < word32

theorem read_eq_ok {s : String} {delete : Bool} {e : ShapingEntry} :
    read s delete = .ok e ↔ (colonFields? s).bind (ofFields delete) = some e := by
  unfold read
  cases (colonFields? s).bind (ofFields delete) <;> simp

/-- **Shaping entries are taken back.** -/
theorem roundTrips (delete : Bool) : RoundTrips (fun s e => read s delete = .ok e) write
    fun e => e.IsWritable ∧ e.delete = delete := by
  simp only [read_eq_ok]
  refine roundTrips_colonFields rfl { reads_write := ?_, valid_of_reads := ?_ }
  · rintro e ⟨he, rfl⟩
    refine ⟨?_, ?_⟩
    · simp only [toFields, List.forall_mem_cons]
      exact ⟨he.device, isField_write _, isField_write _, isField_write _, nofun⟩
    · simp only [toFields, ofFields, unsigned_write he.classId, unsigned_write he.totalRate,
        unsigned_write he.rate, String.ofList_toList]
      rfl
  · rintro fs e ⟨hfields, hread⟩
    unfold ofFields at hread
    split at hread
    · next device classId totalRate rate =>
      simp only [bind, Option.bind_eq_some_iff, pure, Option.some.injEq] at hread
      obtain ⟨_, hclassId, _, htotalRate, _, hrate, rfl⟩ := hread
      exact ⟨⟨by simpa using hfields device (by simp), lt_of_unsigned hclassId,
        lt_of_unsigned htotalRate, lt_of_unsigned hrate⟩, rfl⟩
    · cases hread

end ShapingEntry

namespace OfflineService

/-- The mark of a service that containers have unless told otherwise. -/
def defaultMark : Bool → List Char
  | true => ':' :: "default".toList
  | false => []

theorem splitDefault_append {port : List Char} (h : ':' ∉ port) (b : Bool) :
    splitDefault (port ++ defaultMark b) = some (port, b) := by
  unfold splitDefault
  cases b with
  | false => rw [defaultMark, List.append_nil, cutFirst_eq_none.2 h]
  | true =>
    have hcut : cutFirst ':' (port ++ defaultMark true) = some (port, "default".toList) :=
      cutFirst_eq_some.2 ⟨rfl, h⟩
    rw [hcut]
    exact if_pos rfl

theorem eq_of_splitDefault {rest port : List Char} {b : Bool}
    (h : splitDefault rest = some (port, b)) : ':' ∉ port ∧ rest = port ++ defaultMark b := by
  unfold splitDefault at h
  split at h
  · next hcut =>
    simp only [Option.some.injEq, Prod.mk.injEq] at h
    obtain ⟨rfl, rfl⟩ := h
    exact ⟨cutFirst_eq_none.1 hcut, (List.append_nil _).symm⟩
  · next front word hcut =>
    obtain ⟨rfl, hcolon⟩ := cutFirst_eq_some.1 hcut
    split at h
    · next hword =>
      simp only [Option.some.injEq, Prod.mk.injEq] at h
      obtain ⟨rfl, rfl⟩ := h
      exact ⟨hcolon, by rw [hword]; rfl⟩
    · cases h

/-- A service as a text. -/
def write (e : OfflineService) : String :=
  String.ofList (e.name.toList ++ ':' ::
    (e.port.elim [] Numeral.write ++ defaultMark e.usedByDefault))

/-- Whether a service can be written down: it has a port, and is none to be removed. -/
structure IsWritable (e : OfflineService) : Prop where
  name : IsField ':' e.name.toList
  port : ∃ n, e.port = some n ∧ n < word16
  delete : e.delete = false

theorem read?_eq_some {s : String} {e : OfflineService} : read? s = some e ↔
    ∃ name port n, IsField ':' name ∧ ':' ∉ port ∧
      s.toList = name ++ ':' :: (port ++ defaultMark e.usedByDefault) ∧
      readPort port = some n ∧ e = ⟨String.ofList name, some n, e.usedByDefault, false⟩ := by
  constructor
  · intro h
    unfold read? at h
    simp only [bind, Option.bind_eq_some_iff] at h
    obtain ⟨⟨name, rest⟩, hcut, ⟨port, b⟩, hsplit, n, hport, h⟩ := h
    obtain ⟨htext, hcolon⟩ := cutFirst_eq_some.1 hcut
    obtain ⟨hport', rfl⟩ := eq_of_splitDefault hsplit
    split at h
    · cases h
    · next hname =>
      cases h
      exact ⟨name, port, n, ⟨hname, hcolon⟩, hport', htext, hport, rfl⟩
  · rintro ⟨name, port, n, hname, hcolon, htext, hport, heq⟩
    have hcut := cutFirst_eq_some.2 ⟨htext, hname.notMem⟩
    have hsplit := splitDefault_append hcolon e.usedByDefault
    rw [heq, read?]
    simp only [hcut, hsplit, hport, bind, Option.bind_some, if_neg hname.ne_nil]

theorem read_eq_ok {s : String} {e : OfflineService} : read s = .ok e ↔ read? s = some e := by
  unfold read
  cases read? s <;> simp

/-- **Offline services are taken back.** -/
theorem roundTrips : RoundTrips (fun s e => read s = .ok e) write IsWritable where
  reads_write e he := by
    obtain ⟨n, hport, hn⟩ := he.port
    refine read_eq_ok.2 (read?_eq_some.2 ⟨e.name.toList, Numeral.write n, n, he.name,
      notMem_write (by decide) n, ?_, unsigned_write hn, ?_⟩)
    · rw [write, String.toList_ofList, hport]
      rfl
    · rw [String.ofList_toList, ← hport, ← he.delete]
  valid_of_reads s e h := by
    obtain ⟨name, port, n, hname, -, -, hport, heq⟩ := read?_eq_some.1 (read_eq_ok.1 h)
    rw [heq]
    exact ⟨by rwa [String.toList_ofList], ⟨n, rfl, lt_of_unsigned hport⟩, rfl⟩

end OfflineService

namespace ClassRate

/-- A rate as a text. -/
def write (r : ClassRate) : String :=
  String.ofList (Numeral.write r.classId ++ ':' :: Numeral.write r.rate)

/-- Whether a rate can be written down: its numbers are in range. -/
structure IsWritable (r : ClassRate) : Prop where
  classId : r.classId < word32
  rate : r.rate < word32

/-- **Rates are taken back.** -/
theorem roundTrips : RoundTrips (fun s r => read? s = some r) write IsWritable where
  reads_write r hr := by
    have hcut : cutFirst ':' r.write.toList =
        some (Numeral.write r.classId, Numeral.write r.rate) :=
      cutFirst_eq_some.2 ⟨String.toList_ofList, notMem_write (by decide) _⟩
    simp only [read?, hcut, digits_write hr.classId, digits_write hr.rate, bind, Option.bind_some]
    rfl
  valid_of_reads s r h := by
    simp only [read?, bind, Option.bind_eq_some_iff, pure, Option.some.injEq] at h
    obtain ⟨_, -, _, hclassId, _, hrate, rfl⟩ := h
    exact ⟨digits_lt hclassId, digits_lt hrate⟩

end ClassRate

/-! ## Forwarding rules -/

namespace NatRule

/-- The four fields of a forwarding rule. -/
def toFields (r : NatRule) : List (List Char) :=
  [r.name.toList, r.target.toList, Numeral.write r.inPort, Numeral.write r.targetPort]

/-- A forwarding rule as a text, with a comma between its fields. -/
def write (r : NatRule) : String := String.ofList ([','].intercalate r.toFields)

/-- Whether a forwarding rule can be written down: its texts have no comma, and its ports are in
range. -/
structure IsWritable (r : NatRule) : Prop where
  name : ',' ∉ r.name.toList
  target : ',' ∉ r.target.toList
  inPort : r.inPort < word16
  targetPort : r.targetPort < word16

theorem read?_eq_some {s : String} {r : NatRule} : read? s = some r ↔
    ∃ inPort targetPort,
      fields ',' s.toList = [r.name.toList, r.target.toList, inPort, targetPort] ∧
      readPort (trim inPort) = some r.inPort ∧ readPort (trim targetPort) = some r.targetPort := by
  unfold read?
  constructor
  · intro h
    split at h
    · next hcut =>
      simp only [bind, Option.bind_eq_some_iff, pure, Option.some.injEq] at h
      obtain ⟨_, hin, _, htarget, rfl⟩ := h
      exact ⟨_, _, by rw [hcut, String.toList_ofList, String.toList_ofList], hin, htarget⟩
    · cases h
  · rintro ⟨inPort, targetPort, hcut, hin, htarget⟩
    rw [hcut]
    simp only [hin, htarget, bind, Option.bind_some, String.ofList_toList]
    rfl

/-- **Forwarding rules are taken back.** -/
theorem roundTrips : RoundTrips (fun s r => read? s = some r) write IsWritable where
  reads_write r hr := by
    have hcut : fields ',' r.write.toList = r.toFields := by
      refine fields_eq_iff.2 ⟨List.cons_ne_nil _ _, ?_, String.toList_ofList⟩
      simp only [toFields, List.forall_mem_cons]
      exact ⟨hr.name, hr.target, notMem_write (by decide) _, notMem_write (by decide) _, nofun⟩
    have hport {n : Nat} (hn : n < word16) : readPort (trim (Numeral.write n)) = some n := by
      rw [trim_of_not_blank (isWord_write n).not_delim]
      exact unsigned_write hn
    exact read?_eq_some.2 ⟨_, _, hcut, hport hr.inPort, hport hr.targetPort⟩
  valid_of_reads s r h := by
    obtain ⟨_, _, hcut, hin, htarget⟩ := read?_eq_some.1 h
    have hfields {f : List Char} (hf : f ∈ fields ',' s.toList) : ',' ∉ f := notMem_of_mem_fields hf
    rw [hcut] at hfields
    exact ⟨hfields (by simp), hfields (by simp), lt_of_unsigned hin, lt_of_unsigned htarget⟩

end NatRule

/-! ## All of them -/

/-- **Entries round-trip.**  What is written down of a firewall rule, a forwarding rule, a service,
a class of networks, shaping or bandwidth, or a rate is read as that entry, if it can be written
down; and only entries that can be written down are ever read, so that what was read from any text
is read again from what is written down of it. -/
theorem entries_round_trip :
    RoundTrips (fun s r => FirewallRule.read s = .ok r) FirewallRule.write
      FirewallRule.IsWritable ∧
    RoundTrips (fun s r => NatRule.read? s = some r) NatRule.write NatRule.IsWritable ∧
    (∀ delete, RoundTrips (fun s e => ShapingEntry.read s delete = .ok e) ShapingEntry.write
      fun e => e.IsWritable ∧ e.delete = delete) ∧
    (∀ delete, RoundTrips (fun s e => NetworkClass.read s delete = .ok e) NetworkClass.write
      fun e => e.IsWritable ∧ e.delete = delete) ∧
    (∀ delete, RoundTrips (fun s e => BandwidthEntry.read s delete = .ok e) BandwidthEntry.write
      fun e => e.IsWritable ∧ e.delete = delete) ∧
    RoundTrips (fun s e => OfflineService.read s = .ok e) OfflineService.write
      OfflineService.IsWritable ∧
    RoundTrips (fun s r => ClassRate.read? s = some r) ClassRate.write ClassRate.IsWritable :=
  ⟨FirewallRule.roundTrips, NatRule.roundTrips, ShapingEntry.roundTrips, NetworkClass.roundTrips,
    BandwidthEntry.roundTrips, OfflineService.roundTrips, ClassRate.roundTrips⟩

end VmControl
