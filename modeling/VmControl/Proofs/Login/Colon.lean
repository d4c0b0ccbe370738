import VmControl.Console
import VmControl.Proofs.Line.PositionalLogin
import VmControl.Proofs.Login.Written
import VmControl.Proofs.Password
import VmControl.Proofs.Rejection

/-!
# Colons in passwords

A password may have any characters but one.  An `@` in it does no harm, since a host has none and
the last one is taken.  But the user ends at the last colon, so a password with a colon is cut
there: what is before the colon is taken for a part of the user, stays on the line and is shown.

## Main definitions

* `LoginText.HasPassword`: a login has a user and a password behind that.
* `LoginText.IsBlanked`: nothing is left of a password in front of a name.
* `LoginText.IsUntold`: nothing of a password is told.

## Main statements

* `LoginText.read_withPassword`: how a host is read with a user and a password before it.
* `LoginText.whole_password_iff_no_colon`: a password is read, wiped and kept back as a whole exactly
  if it has no colon.
-/

namespace VmControl

open Options Text

/-! ## A colon among the bytes -/

theorem ArgumentBytes.toList_toUTF8_append (s t : String) :
    (s ++ t).toUTF8.toList = s.toUTF8.toList ++ t.toUTF8.toList := by
  simp [toList_eq]

/-- A colon within an argument is a byte of its own. -/
theorem ArgumentBytes.byte?_colon {args : List String} {before after : String} {i : Nat}
    (harg : args[i]? = some (before ++ ":" ++ after)) :
    (ofArgs args).byte? i before.utf8ByteSize = some 58 := by
  have hcolon : (":" : String).toUTF8.toList = [58] := by
    rw [toList_eq]
    rfl
  have hsize := length_toList_toUTF8 before
  simp only [byte?, ofArgs, List.getElem?_map, harg, Option.map_some, Option.bind_some]
  rw [toList_toUTF8_append, toList_toUTF8_append, hcolon, List.append_assoc,
    List.getElem?_append_right hsize.le, hsize, Nat.sub_self]
  rfl

/-! ## Reading a password -/

/-- A password behind a user and a colon. -/
def WrittenPassword.behind (user password : String) : WrittenPassword :=
  ⟨password, (user ++ ":").utf8ByteSize, (user ++ ":" ++ password).utf8ByteSize⟩

namespace LoginText

theorem userText_behind {user password : String} (hcolon : ':' ∉ password.toList) :
    UserText (user ++ ":" ++ password).toList user.toList (some (.behind user password)) := by
  have hpart : (user ++ ":" ++ password).toList = user.toList ++ ':' :: password.toList := by simp
  have hstart : (user ++ ":").utf8ByteSize = byteLength (user.toList ++ [':']) := by
    rw [← byteLength_toList, String.toList_append]
    rfl
  have hstop : (user ++ ":" ++ password).utf8ByteSize =
      byteLength (user.toList ++ ':' :: password.toList) := by
    rw [← byteLength_toList, hpart]
  have hwritten := @UserText.withPassword user.toList _ hcolon
  rw [← hstart, ← hstop, String.ofList_toList] at hwritten
  rw [hpart]
  exact hwritten

/-- **A host with a user and a password before it is read as the same host**, if the password has no
colon. -/
theorem read_withPassword {user password s : String} {bare : LoginText} (hne : user ≠ "")
    (hcolon : ':' ∉ password.toList) (hat : '@' ∉ s.toList) (hs : read s = some bare) :
    read (user ++ ":" ++ password ++ "@" ++ s) =
      some ⟨user, some (.behind user password), bare.server, bare.port⟩ := by
  obtain ⟨hwritten, -, hlong⟩ := read_eq_some.1 hs
  have hhost : HostText s.toList bare.server.toList bare.port := by
    cases hwritten with
    | host hat huser hpassword hhost => exact hhost
    | user hat' huser hhost => exact absurd (by simp) hat
  have htext : user ++ ":" ++ password ++ "@" ++ s =
      String.ofList ((user ++ ":" ++ password).toList ++ '@' :: s.toList) := by
    simp [← String.toList_inj]
  rw [htext]
  exact read_eq_some.2 ⟨.user hat (userText_behind hcolon) hhost, hne, hlong⟩

/-- A text with a colon is cut at the last one. -/
theorem exists_last_colon {s : String} (h : ':' ∈ s.toList) :
    ∃ before after, s = before ++ ":" ++ after ∧ ':' ∉ after.toList := by
  cases hcut : cutLast ':' s.toList with
  | none => exact absurd h (cutLast_eq_none.1 hcut)
  | some cut =>
    obtain ⟨before, after⟩ := cut
    obtain ⟨hs, hcolon⟩ := cutLast_eq_some.1 hcut
    refine ⟨String.ofList before, String.ofList after, ?_, ?_⟩
    · simp [← String.toList_inj, hs]
    · rwa [String.toList_ofList]

/-! ## What becomes of a password -/

/-- Whether a login has this user, and the whole of this password behind it. -/
def HasPassword (login : LoginText) (user password : String) : Prop :=
  login.user = user ∧ login.password = some (.behind user password)

/-- Whether nothing is left of this password behind this user, on any line, once the login at the
start of an argument was read. -/
def IsBlanked (s user password : String) : Prop :=
  ∀ (args : List String) (index : Nat) (role rest : String) (host : Host) (start : Preferences),
    args[index]? = some (s ++ rest) →
    ((ArgumentBytes.ofArgs args).wipeAll
      ((readPositionalLogin index role s).perform host start).2.wiped).IsBlank
        ⟨index, (WrittenPassword.behind user password).start,
          (WrittenPassword.behind user password).stop⟩

/-- Whether what is told of any command on the host of a login names this user, the server and the
port, and nothing else of the login but that there is a password. -/
def IsUntold (login : LoginText) (user : String) : Prop :=
  ∀ r : Record, { r with login := r.login.assign login }.dispatch.1 =
    r.action.name ++ r.target.elim "" (" " ++ ·) ++ (" on " ++ user ++ "@" ++ login.server ++
      login.port.elim "" (":" ++ toString ·) ++ " (password supplied)")

variable {s : String} {login : LoginText} {p : WrittenPassword}

theorem wiped_readPositionalLogin (h : read s = some login) (hp : login.password = some p)
    (index : Nat) (role : String) (host : Host) (start : Preferences) :
    ((readPositionalLogin index role s).perform host start).2.wiped = [⟨index, p.start, p.stop⟩] := by
  unfold Reading.perform
  rw [after_readPositionalLogin h]
  unfold Effects.takeLogin
  rw [hp]
  rfl

/-- What is told of a command names the user that was read. -/
theorem isUntold_user (h : read s = some login) (hp : login.password = some p) :
    login.IsUntold login.user := by
  intro r
  have hassign : r.login.assign login =
      ⟨login.user, login.server, login.port, r.login.pending.push ⟨p.text⟩⟩ := by
    unfold Login.assign
    rw [hp]
    rfl
  have hsupplied : (r.login.assign login).takePassword.1.isSome = true := by
    rw [Login.takePassword_fst, hassign]
    simp
  have hremote : (r.login.assign login).takePassword.2.isRemote = true := by
    rw [hassign]
    simpa [Login.takePassword, Login.isRemote] using server_ne_empty h
  unfold Record.dispatch Record.hostSummary
  dsimp only
  rw [if_pos hremote, if_pos hsupplied, hassign]
  cases r.target <;> cases login.port <;> rfl

theorem isUntold_iff (h : read s = some login) (hp : login.password = some p) {user : String} :
    login.IsUntold user ↔ login.user = user := by
  constructor
  · intro huntold
    have hsame := (isUntold_user h hp default).symm.trans (huntold default)
    simpa [String.append_assoc] using hsame
  · rintro rfl
    exact isUntold_user h hp

/-- **A password without a colon is read, wiped and kept back.** -/
theorem whole_password {user password : String} (h : read s = some login)
    (hwhole : login.HasPassword user password)
    (htext : ∃ rest, s = user ++ ":" ++ password ++ rest) :
    IsBlanked s user password ∧ login.IsUntold user := by
  obtain ⟨rfl, hp⟩ := hwhole
  refine ⟨?_, isUntold_user h hp⟩
  intro args index role rest host start harg
  rw [wiped_readPositionalLogin h hp]
  refine ArgumentBytes.isBlank_wipeAll harg ?_ (List.mem_singleton.2 rfl)
  obtain ⟨rest', rfl⟩ := htext
  rw [byteLength_toList]
  simp only [WrittenPassword.behind, String.utf8ByteSize_append]
  omega

/-- **The last colon of a password is left on the line**, and what is before it. -/
theorem not_isBlanked {user before after rest : String}
    (hs : s = user ++ ":" ++ before ++ ":" ++ after ++ rest) (h : read s = some login)
    (hp : login.password = some (.behind (user ++ ":" ++ before) after)) :
    ¬ IsBlanked s user (before ++ ":" ++ after) := by
  intro hblank
  have hone : (":" : String).utf8ByteSize = 1 := rfl
  have hbyte := hblank [s] 0 "" "" ⟨fun _ => .error "", fun _ => .error ""⟩ .initial (by simp)
    (user ++ ":" ++ before).utf8ByteSize
    (by simp only [WrittenPassword.behind, String.utf8ByteSize_append]; omega)
    (by simp only [WrittenPassword.behind, String.utf8ByteSize_append]; omega)
  have harg : [s][0]? = some (user ++ ":" ++ before ++ ":" ++ (after ++ rest)) := by
    simp [hs, String.append_assoc]
  have hcolon : (ArgumentBytes.ofArgs [s]).byte? 0 (user ++ ":" ++ before).utf8ByteSize =
      some 58 :=
    ArgumentBytes.byte?_colon harg
  have hkept : ¬ ∃ slot ∈ [(⟨0, (user ++ ":" ++ before ++ ":").utf8ByteSize,
        (user ++ ":" ++ before ++ ":" ++ after).utf8ByteSize⟩ : Slot)],
      slot.Covers 0 (user ++ ":" ++ before).utf8ByteSize := by
    rintro ⟨slot, hslot, -, hstart, -⟩
    obtain rfl := List.mem_singleton.1 hslot
    simp only [String.utf8ByteSize_append] at hstart
    omega
  rw [wiped_readPositionalLogin h hp, ArgumentBytes.byte?_wipeAll, hcolon, Option.map_some,
    WrittenPassword.behind, if_neg hkept] at hbyte
  exact absurd hbyte (by decide)

/-- **A password is read, wiped and kept back as a whole exactly if it has no colon.**  Let a user
and any password stand before a host.  This is read as a login to that host.  It has the user and
the password, with the bytes where that stands, exactly if there is no colon in the password,
whatever else there is.  Exactly then nothing of the password is left on a line on which the login
is in front of a name, and nothing of it is told. -/
theorem whole_password_iff_no_colon {user s : String} {bare : LoginText} (hne : user ≠ "")
    (hat : '@' ∉ s.toList) (hs : read s = some bare) (password : String) :
    ∃ login, read (user ++ ":" ++ password ++ "@" ++ s) = some login ∧
      login.server = bare.server ∧ login.port = bare.port ∧
      (login.HasPassword user password ↔ ':' ∉ password.toList) ∧
      (IsBlanked (user ++ ":" ++ password ++ "@" ++ s) user password ↔ ':' ∉ password.toList) ∧
      (login.IsUntold user ↔ ':' ∉ password.toList) := by
  by_cases hcolon : ':' ∈ password.toList
  · obtain ⟨before, after, rfl, hafter⟩ := exists_last_colon hcolon
    have hread := @read_withPassword (user ++ ":" ++ before) _ _ _ (by simp) hafter hat hs
    have htext : user ++ ":" ++ before ++ ":" ++ after ++ "@" ++ s =
        user ++ ":" ++ (before ++ ":" ++ after) ++ "@" ++ s := by
      simp [String.append_assoc]
    have hother : user ++ ":" ++ before ≠ user := by
      simp [String.append_assoc]
    rw [htext] at hread
    refine ⟨_, hread, rfl, rfl, ?_, ?_, ?_⟩
    · exact iff_of_false (fun hwhole => hother hwhole.1) (not_not_intro hcolon)
    · refine iff_of_false ?_ (not_not_intro hcolon)
      have hrest : user ++ ":" ++ (before ++ ":" ++ after) ++ "@" ++ s =
          user ++ ":" ++ before ++ ":" ++ after ++ ("@" ++ s) := by
        simp [String.append_assoc]
      exact not_isBlanked hrest hread rfl
    · exact iff_of_false (fun huntold => hother ((isUntold_iff hread rfl).1 huntold))
        (not_not_intro hcolon)
  · have hread := read_withPassword hne hcolon hat hs
    have hwhole := whole_password hread ⟨rfl, rfl⟩ ⟨"@" ++ s, by rw [String.append_assoc]⟩
    exact ⟨_, hread, rfl, rfl, iff_of_true ⟨rfl, rfl⟩ hcolon, iff_of_true hwhole.1 hcolon,
      iff_of_true hwhole.2 hcolon⟩

/-- The password `p@ss` before the host `node1:22` is read, wiped and kept back. -/
theorem password_with_at_is_whole :
    ∃ login, read "root:p@ss@node1:22" = some login ∧
      login.server = "node1" ∧ login.port = some 22 ∧ login.HasPassword "root" "p@ss" ∧
      IsBlanked "root:p@ss@node1:22" "root" "p@ss" ∧ login.IsUntold "root" := by
  have hbare : read "node1:22" = some ⟨"root", none, "node1", some 22⟩ := by decide
  have hroot : ("root" : String) ≠ "" := by decide
  obtain ⟨login, hread, hserver, hport, hwhole, hblanked, huntold⟩ :=
    whole_password_iff_no_colon hroot (by decide) hbare "p@ss"
  have hcolon : ':' ∉ ("p@ss" : String).toList := by decide
  exact ⟨login, hread, hserver, hport, hwhole.2 hcolon, hblanked.2 hcolon, huntold.2 hcolon⟩

end LoginText

/-- The line `prlctl migrate root:a:b@node1/vm1 node2` logs in to `node1` as `root:a`, which is
shown, with the password `b`, which alone is wiped, though `node1` is a host and `a:b` a password
like any other. -/
theorem password_with_colon_is_cut :
    LoginText.read "node1" = some ⟨"root", none, "node1", none⟩ ∧
    LoginText.read "root:a:b@node1" = some ⟨"root:a", some ⟨"b", 7, 8⟩, "node1", none⟩ ∧
    ∃ r e, (Program.guests.read ["prlctl", "migrate", "root:a:b@node1/vm1", "node2"]).perform
        ⟨fun _ => .error "", fun _ => .error ""⟩ .initial = (.ok r, e) ∧
      e.wiped = [⟨2, 7, 8⟩] ∧
      r.dispatch.1 = "migrate vm1 on root:a@node1 (password supplied)" := by
  have hstream : CommandTable.migrate.read
      ["prlctl", "migrate", "root:a:b@node1/vm1", "node2"] 4 = ⟨[], none⟩ :=
    Table.read_eq_of_streamWithin (n := 1) (by rfl)
  have hread : Program.guests.read ["prlctl", "migrate", "root:a:b@node1/vm1", "node2"] =
      readMigrationLine .migrate CommandTable.migrate 2
        ["prlctl", "migrate", "root:a:b@node1/vm1", "node2"] :=
    rfl
  refine ⟨by decide, by decide, ?_⟩
  rw [hread, readMigrationLine_eq rfl rfl, hstream]
  exact ⟨_, _, rfl, rfl, rfl⟩

end VmControl
