import VmControl.Proofs.Line.Login
import VmControl.Proofs.Options.Stream

/-!
# Which password is used

A login text replaces the host of a record, but its password waits behind those of the login texts
before it.  The password that is used first is thus that of the first login text that has one, and
the host is that of the last login text.

## Main statements

* `Login.toList_pending_ofTexts`: the passwords that wait are those of the login texts, in order.
* `Program.first_password_is_used`: a line uses the password of its host exactly if no login text
  before has another.
-/

namespace VmControl

open Options

/-- The password of a login text. -/
def LoginText.secret? (t : LoginText) : Option Secret := t.password.map fun p => ⟨p.text⟩

/-- A login text names a host. -/
theorem LoginText.server_ne_empty {s : String} {t : LoginText} (h : LoginText.read s = some t) :
    t.server ≠ "" := by
  have host {part : List Char} {server : List Char} {port : Option Nat}
      (h : readHost part = some (server, port)) : server ≠ [] := by
    rintro rfl
    unfold readHost at h
    obtain ⟨⟨server, port'⟩, -, h⟩ := Option.bind_eq_some_iff.1 h
    obtain ⟨port'', -, h⟩ := Option.bind_eq_some_iff.1 h
    split at h
    · cases h
    · next hlen => cases h; exact hlen (Nat.zero_le _)
  have ofList {cs : List Char} (h : cs ≠ []) : String.ofList cs ≠ "" := by
    simpa using h
  unfold read at h
  split at h
  · obtain ⟨⟨server, port⟩, hhost, h⟩ := Option.bind_eq_some_iff.1 h
    obtain ⟨user, -, rfl⟩ := Option.map_eq_some_iff.1 h
    exact ofList (host hhost)
  · obtain ⟨⟨server, port⟩, hhost, rfl⟩ := Option.map_eq_some_iff.1 h
    exact ofList (host hhost)

namespace Login

theorem toList_pending_assign (l : Login) (t : LoginText) :
    (l.assign t).pending.toList = l.pending.toList ++ t.secret?.toList := by
  unfold assign LoginText.secret?
  cases t.password <;> simp [push]

/-- **The passwords that wait are those of the login texts**, in order. -/
theorem toList_pending_ofTexts (ts : List LoginText) :
    (ofTexts ts).pending.toList = ts.filterMap LoginText.secret? := by
  have hfold (l : Login) : (ts.foldl assign l).pending.toList =
      l.pending.toList ++ ts.filterMap LoginText.secret? := by
    induction ts generalizing l with
    | nil => simp
    | cons t ts ih =>
      rw [List.foldl_cons, ih, toList_pending_assign, List.filterMap_cons, List.append_assoc]
      cases t.secret? <;> rfl
  exact hfold ∅

/-- The host is that of the last login text. -/
theorem target_ofTexts {ts : List LoginText} {t : LoginText} (h : ts.getLast? = some t) :
    (ofTexts ts).user = t.user ∧ (ofTexts ts).server = t.server ∧ (ofTexts ts).port = t.port := by
  obtain ⟨before, rfl⟩ := List.getLast?_eq_some_iff.1 h
  unfold ofTexts
  rw [List.foldl_append, List.foldl_cons, List.foldl_nil]
  unfold assign
  cases t.password <;> exact ⟨rfl, rfl, rfl⟩

theorem takePassword_fst (l : Login) : l.takePassword.1 = l.pending.toList.head? := by
  unfold takePassword PendingSecrets.take
  cases l.pending.toList <;> rfl

/-- Whether a login uses the password of this login text, and asks for one if the text has none. -/
def UsesPasswordOf (l : Login) (t : LoginText) : Prop :=
  match t.secret? with
  | some s => l.takePassword.1 = some s
  | none => l.takePassword.1 = none ∧ l.pending.isEmpty ∧
      l.passwordPrompt? = some (t.user ++ "@" ++ t.server ++ "'s password: ")

/-- The password of the last login text is used exactly if it is the first one. -/
theorem usesPasswordOf_ofTexts {ts : List LoginText} {t : LoginText} (h : ts.getLast? = some t)
    (ht : t.server ≠ "") :
    (ofTexts ts).UsesPasswordOf t ↔ ts.findSome? LoginText.secret? = t.secret? := by
  have htake : (ofTexts ts).takePassword.1 = ts.findSome? LoginText.secret? := by
    rw [takePassword_fst, toList_pending_ofTexts, List.head?_filterMap]
  unfold UsesPasswordOf
  rw [htake]
  cases t.secret? with
  | some s => rfl
  | none =>
    refine ⟨And.left, fun hnone => ⟨hnone, ?_⟩⟩
    obtain ⟨huser, hserver, -⟩ := target_ofTexts h
    have hempty : (ofTexts ts).pending.isEmpty = true := by
      have hhead : (ofTexts ts).pending.toList.head? = none := by
        rw [← takePassword_fst, htake, hnone]
      simpa [PendingSecrets.isEmpty] using hhead
    refine ⟨hempty, ?_⟩
    unfold passwordPrompt? isRemote
    rw [hempty, huser, hserver]
    simp [ht]

end Login

theorem server_ne_empty_of_mem_loginTexts {p : Program} {args : List String} {t : LoginText}
    (h : t ∈ p.loginTexts args) : t.server ≠ "" := by
  rcases List.mem_append.1 h with h | h
  · obtain ⟨l, -, ht⟩ := List.mem_filterMap.1 h
    exact LoginText.server_ne_empty ht
  · obtain ⟨m, -, ht⟩ := List.mem_filterMap.1 h
    unfold loginText? at ht
    split at ht
    · exact LoginText.server_ne_empty ht
    · cases ht

/-- **The first password is used.**  An accepted line that reads no password from a file goes to the
host of its last login text.  It uses the password of that text, or asks for one if it has none,
exactly if the first password among its login texts is that of the last one. -/
theorem Program.first_password_is_used {p : Program} {args : List String} {host : Host}
    {start : Preferences} {r : Record} {t : LoginText}
    (h : ((p.read args).perform host start).1 = .ok r)
    (hfile : ∀ m ∈ p.options args, m.id ≠ .readPassword)
    (ht : (p.loginTexts args).getLast? = some t) :
    (r.login.user = t.user ∧ r.login.server = t.server ∧ r.login.port = t.port) ∧
    (r.login.UsesPasswordOf t ↔ (p.loginTexts args).findSome? LoginText.secret? = t.secret?) := by
  have hlogin : r.login = .ofTexts (p.loginTexts args) := yields_read hfile host _ r h
  rw [hlogin]
  exact ⟨Login.target_ofTexts ht, Login.usesPasswordOf_ofTexts ht
    (server_ne_empty_of_mem_loginTexts (List.mem_of_getLast? ht))⟩

/-- A line with one login text uses its password. -/
theorem single_password_is_used : ∃ r,
    ((Program.guests.read ["prlctl", "start", "vm1", "--login", "u:p1@host1"]).perform
      ⟨fun _ => .error "", fun _ => .error ""⟩ .initial).1 = .ok r ∧
    r.login.UsesPasswordOf ⟨"u", some ⟨"p1", 2, 4⟩, "host1", none⟩ := by
  have hstream : CommandTable.start.read ["prlctl", "start", "vm1", "--login", "u:p1@host1"] 3 =
      ⟨[.option ⟨.login, "--login", some ⟨"u:p1@host1", ⟨4, 0, 10⟩⟩⟩], none⟩ :=
    Table.read_eq_of_streamWithin (n := 2) (by rfl)
  have hoptions : Program.guests.options ["prlctl", "start", "vm1", "--login", "u:p1@host1"] =
      [⟨.login, "--login", some ⟨"u:p1@host1", ⟨4, 0, 10⟩⟩⟩] := by
    show (CommandTable.start.read _ 3).options = _
    rw [hstream]
    rfl
  have hread : ∃ r,
      ((Program.guests.read ["prlctl", "start", "vm1", "--login", "u:p1@host1"]).perform
        ⟨fun _ => .error "", fun _ => .error ""⟩ .initial).1 = .ok r := by
    show ∃ r, ((readGuestLine .start CommandTable.start 2 _).perform _ _).1 = .ok r
    unfold readGuestLine
    rw [hstream]
    exact ⟨_, rfl⟩
  have htexts : Program.guests.loginTexts ["prlctl", "start", "vm1", "--login", "u:p1@host1"] =
      [⟨"u", some ⟨"p1", 2, 4⟩, "host1", none⟩] := by
    unfold Program.loginTexts
    rw [hoptions]
    rfl
  obtain ⟨r, hr⟩ := hread
  refine ⟨r, hr, (Program.first_password_is_used hr ?_ (by rw [htexts]; rfl)).2.2 ?_⟩
  · rw [hoptions]
    decide
  · rw [htexts]
    rfl

/-- The line `prlctl start vm1 --login u:p1@host1 --login v@host2` goes to the second host, whose
login text has no password, with the password of the first one. -/
theorem stale_password_is_used : ∃ r t,
    ((Program.guests.read
      ["prlctl", "start", "vm1", "--login", "u:p1@host1", "--login", "v@host2"]).perform
      ⟨fun _ => .error "", fun _ => .error ""⟩ .initial).1 = .ok r ∧
    (∀ m ∈ Program.guests.options
      ["prlctl", "start", "vm1", "--login", "u:p1@host1", "--login", "v@host2"],
      m.id ≠ .readPassword) ∧
    (Program.guests.loginTexts
      ["prlctl", "start", "vm1", "--login", "u:p1@host1", "--login", "v@host2"]).getLast? = some t ∧
    r.login.server = t.server ∧ t.secret? = none ∧ r.login.takePassword.1 = some ⟨"p1"⟩ := by
  have hstream : CommandTable.start.read
      ["prlctl", "start", "vm1", "--login", "u:p1@host1", "--login", "v@host2"] 3 =
      ⟨[.option ⟨.login, "--login", some ⟨"u:p1@host1", ⟨4, 0, 10⟩⟩⟩,
        .option ⟨.login, "--login", some ⟨"v@host2", ⟨6, 0, 7⟩⟩⟩], none⟩ :=
    Table.read_eq_of_streamWithin (n := 3) (by rfl)
  have hoptions : Program.guests.options
      ["prlctl", "start", "vm1", "--login", "u:p1@host1", "--login", "v@host2"] =
      [⟨.login, "--login", some ⟨"u:p1@host1", ⟨4, 0, 10⟩⟩⟩,
       ⟨.login, "--login", some ⟨"v@host2", ⟨6, 0, 7⟩⟩⟩] := by
    show (CommandTable.start.read _ 3).options = _
    rw [hstream]
    rfl
  have hread : ∃ r, ((Program.guests.read
      ["prlctl", "start", "vm1", "--login", "u:p1@host1", "--login", "v@host2"]).perform
      ⟨fun _ => .error "", fun _ => .error ""⟩ .initial).1 = .ok r ∧
      r.login.server = "host2" ∧ r.login.takePassword.1 = some ⟨"p1"⟩ := by
    show ∃ r, ((readGuestLine .start CommandTable.start 2 _).perform _ _).1 = .ok r ∧ _
    unfold readGuestLine
    rw [hstream]
    exact ⟨_, rfl, rfl, rfl⟩
  obtain ⟨r, hr, hserver, hpassword⟩ := hread
  refine ⟨r, ⟨"v", none, "host2", none⟩, hr, ?_, ?_, hserver, rfl, hpassword⟩
  · rw [hoptions]
    decide
  · unfold Program.loginTexts
    rw [hoptions]
    rfl

end VmControl
