import VmControl.Proofs.Numeral
import VmControl.Proofs.Options.Position
import VmControl.Value.LoginText

/-!
# Logins as they are written

A text is read as a login by its separators: the last `@` ends the user, the last colon before it
ends the name of the user, and the port follows a bracket or a single colon.  So there is one way to
take a text apart, and each part of a login that is read is a part of the text.  A login can be
written down again, with the server in brackets, and is then read as what it was.

## Main definitions

* `LoginText.HostText`: how a server and a port are written.
* `LoginText.UserText`: how a user and a password are written.
* `LoginText.IsWritten`: how a login is written.
* `LoginText.render`: the login as a text with brackets.

## Main statements

* `LoginText.read_eq_some`: a text is read as a login exactly if the login is written so.
* `LoginText.WellFormed.read_render`: a well-formed login is read again from its text.
* `LoginText.read_is_faithful`: what a login that is read has to do with its text.
-/

namespace VmControl.LoginText

open Numeral Options Text

/-! ## Hosts -/

/-- How a port is written behind a server: not at all, or as a numeral after a colon, which may have
a plus sign. -/
inductive PortText : List Char → Option Nat → Prop where
  | absent : PortText [] none
  | given {cs ds : List Char} {port : Nat} (hsign : cs = ds ∨ cs = '+' :: ds)
      (hdecimal : IsDecimal ds port) (hport : port < word16) : PortText (':' :: cs) (some port)

/-- How a server and a port are written. -/
inductive HostText : List Char → List Char → Option Nat → Prop where
  /-- The server is in brackets. -/
  | bracketed {server tail : List Char} {port : Option Nat} (h : PortText tail port) :
      HostText ('[' :: (server ++ ']' :: tail)) server port
  /-- The server is bare, and has no colon. -/
  | bare {server tail : List Char} {port : Option Nat} (hbracket : server.head? ≠ some '[')
      (hcolon : ':' ∉ server) (h : PortText tail port) : HostText (server ++ tail) server port
  /-- The server is bare, and has so many colons that none is before a port. -/
  | address {server : List Char} (hbracket : server.head? ≠ some '[')
      (hcolons : 1 < server.count ':') : HostText server server none

theorem readPort_eq_some {cs : List Char} {port : Nat} :
    readPort cs = some port ↔ PortText (':' :: cs) (some port) := by
  unfold readPort
  rw [unsigned_eq_some]
  constructor
  · rintro ⟨ds, hsign, hdecimal, hport⟩
    exact .given hsign hdecimal hport
  · intro h
    cases h with
    | given hsign hdecimal hport => exact ⟨_, hsign, hdecimal, hport⟩

/-- What is written for a port is a colon and a text, if anything. -/
theorem PortText.exists_elim {tail : List Char} {port : Option Nat} (h : PortText tail port) :
    ∃ text? : Option (List Char), text?.elim [] (':' :: ·) = tail := by
  cases h with
  | absent => exact ⟨none, rfl⟩
  | @given cs => exact ⟨some cs, rfl⟩

/-- What is written for a port has no character but these. -/
theorem PortText.notMem {tail : List Char} {port : Option Nat} (h : PortText tail port) {c : Char}
    (hc : c.isDigit = false) (hplus : c ≠ '+') (hcolon : c ≠ ':') : c ∉ tail := by
  cases h with
  | absent => exact List.not_mem_nil
  | given hsign hdecimal hport =>
    have hnot := notMem_of_unsigned hc hplus (unsigned_eq_some.2 ⟨_, hsign, hdecimal, hport⟩)
    rw [List.mem_cons]
    rintro (heq | hmem)
    · exact hcolon heq
    · exact hnot hmem

/-- A port has one colon at most. -/
theorem PortText.count_le {tail : List Char} {port : Option Nat} (h : PortText tail port) :
    tail.count ':' ≤ 1 := by
  cases h with
  | absent => exact Nat.zero_le 1
  | given hsign hdecimal hport =>
    have hnot : ':' ∉ _ :=
      notMem_of_unsigned (by decide) (by decide) (unsigned_eq_some.2 ⟨_, hsign, hdecimal, hport⟩)
    have hcount := List.count_eq_zero_of_not_mem hnot
    rw [List.count_cons_self]
    omega

theorem splitHost_of_head? {host : List Char} (h : host.head? ≠ some '[') :
    splitHost host =
      if 1 < host.count ':' then some (host, none)
      else match cutFirst ':' host with
        | some (server, port) => some (server, some port)
        | none => some (host, none) := by
  unfold splitHost
  split
  · exact absurd rfl h
  · rfl

/-- A host is read by taking it apart and reading the port. -/
theorem readHost_of_splitHost {host server : List Char} {text? : Option (List Char)}
    (h : splitHost host = some (server, text?)) {server' : List Char} {port : Option Nat} :
    readHost host = some (server', port) ↔
      server = server' ∧ PortText (text?.elim [] (':' :: ·)) port ∧ 2 ≤ byteLength server := by
  have hread : readHost host =
      (text?.elim (some none) fun p => (readPort p).map some).bind fun p =>
        if byteLength server ≤ 1 then none else some (server, p) := by
    unfold readHost
    rw [h]
    cases text? <;> rfl
  have hport : (text?.elim (some none) fun p => (readPort p).map some) = some port ↔
      PortText (text?.elim [] (':' :: ·)) port := by
    cases text? with
    | none =>
      constructor
      · intro h
        cases h
        exact .absent
      · intro h
        cases h
        rfl
    | some p =>
      simp only [Option.elim_some, Option.map_eq_some_iff, readPort_eq_some]
      constructor
      · rintro ⟨n, hn, rfl⟩
        exact hn
      · intro h
        cases h with
        | given hsign hdecimal hlt => exact ⟨_, .given hsign hdecimal hlt, rfl⟩
  rw [hread, Option.bind_eq_some_iff]
  constructor
  · rintro ⟨p, hp, hserver⟩
    split at hserver
    · cases hserver
    · next hlong =>
      cases hserver
      exact ⟨rfl, hport.1 hp, by omega⟩
  · rintro ⟨rfl, hp, hlong⟩
    exact ⟨port, hport.2 hp, if_neg (by omega)⟩

theorem splitHost_bracket (inner : List Char) :
    splitHost ('[' :: inner) =
      match cutLast ']' inner with
      | some (server, []) => some (server, none)
      | some (server, ':' :: port) => some (server, some port)
      | _ => none :=
  rfl

/-- A host in brackets ends at the last bracket. -/
theorem splitHost_bracketed {server : List Char} {text? : Option (List Char)}
    (h : ']' ∉ text?.elim [] (':' :: ·)) :
    splitHost ('[' :: (server ++ ']' :: text?.elim [] (':' :: ·))) = some (server, text?) := by
  have hcut : cutLast ']' (server ++ ']' :: text?.elim [] (':' :: ·)) =
      some (server, text?.elim [] (':' :: ·)) :=
    cutLast_eq_some.2 ⟨rfl, h⟩
  rw [splitHost_bracket, hcut]
  cases text? <;> rfl

/-- Behind that bracket nothing but a port may stand. -/
theorem eq_of_splitHost_bracket {inner server : List Char} {text? : Option (List Char)}
    (h : splitHost ('[' :: inner) = some (server, text?)) :
    inner = server ++ ']' :: text?.elim [] (':' :: ·) := by
  rw [splitHost_bracket] at h
  cases hcut : cutLast ']' inner with
  | none =>
    rw [hcut] at h
    cases h
  | some cut =>
    obtain ⟨before, tail⟩ := cut
    rw [hcut] at h
    rw [(cutLast_eq_some.1 hcut).1]
    rcases tail with _ | ⟨c, port⟩
    · cases h
      rfl
    · by_cases hc : c = ':'
      · subst hc
        cases h
        rfl
      · simp [hc] at h

/-- How a server and a port are written is how they are read. -/
theorem HostText.readHost {host server : List Char} {port : Option Nat}
    (h : HostText host server port) (hlong : 2 ≤ byteLength server) :
    readHost host = some (server, port) := by
  cases h with
  | @bracketed _ tail _ h =>
    have hbracket : ']' ∉ tail := h.notMem (by decide) (by decide) (by decide)
    obtain ⟨text?, rfl⟩ := h.exists_elim
    exact (readHost_of_splitHost (splitHost_bracketed hbracket)).2 ⟨rfl, h, hlong⟩
  | @bare _ tail _ hbracket hcolon h =>
    have hne : server ≠ [] := by
      rintro rfl
      exact absurd hlong (by decide)
    obtain ⟨c, cs, rfl⟩ := List.exists_cons_of_ne_nil hne
    have hsplit := @splitHost_of_head? (c :: cs ++ tail) hbracket
    have hcount : ¬ 1 < (c :: cs ++ tail).count ':' := by
      have := h.count_le
      rw [List.count_append, List.count_eq_zero_of_not_mem hcolon]
      omega
    rw [if_neg hcount] at hsplit
    obtain ⟨text?, rfl⟩ := h.exists_elim
    refine (readHost_of_splitHost (hsplit.trans ?_)).2 ⟨rfl, h, hlong⟩
    cases text? with
    | none =>
      have hcut : cutFirst ':' (c :: cs ++ []) = none :=
        cutFirst_eq_none.2 (by rwa [List.append_nil])
      rw [Option.elim_none, hcut, List.append_nil]
    | some p =>
      have hcut : cutFirst ':' (c :: cs ++ ':' :: p) = some (c :: cs, p) :=
        cutFirst_eq_some.2 ⟨rfl, hcolon⟩
      rw [Option.elim_some, hcut]
  | address hbracket hcolons =>
    have hsplit := splitHost_of_head? hbracket
    rw [if_pos hcolons] at hsplit
    exact (readHost_of_splitHost hsplit).2 ⟨rfl, .absent, hlong⟩

/-- A host that is taken apart was written so. -/
theorem hostText_of_splitHost {host server : List Char} {text? : Option (List Char)}
    {port : Option Nat} (h : splitHost host = some (server, text?))
    (hport : PortText (text?.elim [] (':' :: ·)) port) : HostText host server port := by
  by_cases hbracket : host.head? = some '['
  · obtain ⟨inner, rfl⟩ := List.head?_eq_some_iff.1 hbracket
    obtain rfl := eq_of_splitHost_bracket h
    exact .bracketed hport
  · rw [splitHost_of_head? hbracket] at h
    by_cases hcolons : 1 < host.count ':'
    · rw [if_pos hcolons] at h
      cases h
      cases hport
      exact .address hbracket hcolons
    · rw [if_neg hcolons] at h
      cases hcut : cutFirst ':' host with
      | none =>
        rw [hcut] at h
        cases h
        have hbare := HostText.bare hbracket (cutFirst_eq_none.1 hcut) hport
        rwa [Option.elim_none, List.append_nil] at hbare
      | some cut =>
        obtain ⟨before, p⟩ := cut
        rw [hcut] at h
        cases h
        obtain ⟨rfl, hcolon⟩ := cutFirst_eq_some.1 hcut
        refine .bare ?_ hcolon hport
        intro hhead
        obtain ⟨cs, rfl⟩ := List.head?_eq_some_iff.1 hhead
        exact hbracket rfl

/-- **A host is read as the server and the port that are written in it**, if the server has two
bytes. -/
theorem readHost_eq_some {host server : List Char} {port : Option Nat} :
    readHost host = some (server, port) ↔ HostText host server port ∧ 2 ≤ byteLength server := by
  constructor
  · intro h
    cases hsplit : splitHost host with
    | none =>
      unfold readHost at h
      rw [hsplit] at h
      cases h
    | some parts =>
      obtain ⟨rfl, hport, hlong⟩ := (readHost_of_splitHost hsplit).1 h
      exact ⟨hostText_of_splitHost hsplit hport, hlong⟩
  · rintro ⟨h, hlong⟩
    exact h.readHost hlong

/-- A server has no character that its text does not have. -/
theorem HostText.server_subset {host server : List Char} {port : Option Nat}
    (h : HostText host server port) : server ⊆ host := by
  intro c hc
  cases h with
  | bracketed h => simp [hc]
  | bare hbracket hcolon h => exact List.mem_append_left _ hc
  | address hbracket hcolons => exact hc

/-! ## Users -/

/-- How a user and a password are written.  The password has no colon, and comes with the bytes that
it takes. -/
inductive UserText : List Char → List Char → Option WrittenPassword → Prop where
  | alone {user : List Char} (hcolon : ':' ∉ user) : UserText user user none
  | withPassword {user text : List Char} (hcolon : ':' ∉ text) :
      UserText (user ++ ':' :: text) user
        (some ⟨String.ofList text, byteLength (user ++ [':']), byteLength (user ++ ':' :: text)⟩)

/-- **A user is read as the name and the password that are written**, if there is a name. -/
theorem readUser_eq_some {part user : List Char} {password : Option WrittenPassword} :
    readUser part = some (user, password) ↔ UserText part user password ∧ user ≠ [] := by
  have hread : readUser part =
      match cutLast ':' part with
      | some (user, text) =>
        if user = [] then none
        else some (user, some ⟨String.ofList text, byteLength user + 1, byteLength part⟩)
      | none => if part = [] then none else some (part, none) := by
    unfold readUser
    cases cutLast ':' part <;> rfl
  rw [hread]
  constructor
  · intro h
    cases hcut : cutLast ':' part with
    | none =>
      rw [hcut] at h
      dsimp only at h
      split at h
      · cases h
      · next hne =>
        cases h
        exact ⟨.alone (cutLast_eq_none.1 hcut), hne⟩
    | some cut =>
      obtain ⟨before, text⟩ := cut
      obtain ⟨rfl, hcolon⟩ := cutLast_eq_some.1 hcut
      rw [hcut] at h
      dsimp only at h
      split at h
      · cases h
      · next hne =>
        cases h
        have hstart : byteLength user + 1 = byteLength (user ++ [':']) := by
          rw [byteLength_append]
          rfl
        rw [hstart]
        exact ⟨.withPassword hcolon, hne⟩
  · rintro ⟨h, hne⟩
    cases h with
    | alone hcolon =>
      rw [cutLast_eq_none.2 hcolon]
      exact if_neg hne
    | @withPassword _ text hcolon =>
      have hcut : cutLast ':' (user ++ ':' :: text) = some (user, text) :=
        cutLast_eq_some.2 ⟨rfl, hcolon⟩
      rw [hcut]
      dsimp only
      rw [if_neg hne, byteLength_append user [':']]
      rfl

/-! ## Whole logins -/

/-- How a login is written. -/
inductive IsWritten (login : LoginText) : String → Prop where
  /-- A host by itself is one to log in to as the root user. -/
  | host {s : String} (hat : '@' ∉ s.toList) (huser : login.user = defaultUser)
      (hpassword : login.password = none)
      (hhost : HostText s.toList login.server.toList login.port) : IsWritten login s
  /-- What precedes the last `@` is the user. -/
  | user {part host : List Char} (hat : '@' ∉ host)
      (huser : UserText part login.user.toList login.password)
      (hhost : HostText host login.server.toList login.port) :
      IsWritten login (String.ofList (part ++ '@' :: host))

/-- **A text is read as the login that is written in it**, if that has a user and a server of two
bytes. -/
theorem read_eq_some {s : String} {login : LoginText} :
    read s = some login ↔
      login.IsWritten s ∧ login.user ≠ "" ∧ 2 ≤ byteLength login.server.toList := by
  obtain ⟨user, password, server, port⟩ := login
  dsimp only
  constructor
  · intro h
    unfold read at h
    cases hcut : cutLast '@' s.toList with
    | none =>
      rw [hcut] at h
      obtain ⟨⟨server, port⟩, hhost, h⟩ := Option.map_eq_some_iff.1 h
      cases h
      obtain ⟨htext, hlong⟩ := readHost_eq_some.1 hhost
      refine ⟨.host (cutLast_eq_none.1 hcut) rfl rfl ?_, by decide, ?_⟩
      · rwa [String.toList_ofList]
      · rwa [String.toList_ofList]
    | some cut =>
      obtain ⟨part, host⟩ := cut
      rw [hcut] at h
      obtain ⟨⟨server, port⟩, hhost, h⟩ := Option.bind_eq_some_iff.1 h
      obtain ⟨⟨user, password⟩, huser, h⟩ := Option.map_eq_some_iff.1 h
      cases h
      obtain ⟨htext, hlong⟩ := readHost_eq_some.1 hhost
      obtain ⟨huser, hne⟩ := readUser_eq_some.1 huser
      obtain ⟨hs, hat⟩ := cutLast_eq_some.1 hcut
      have hs' : s = String.ofList (part ++ '@' :: host) := by
        rw [← hs, String.ofList_toList]
      subst hs'
      refine ⟨.user hat ?_ ?_, ?_, ?_⟩
      · rwa [String.toList_ofList]
      · rwa [String.toList_ofList]
      · simpa using hne
      · rwa [String.toList_ofList]
  · rintro ⟨h, hne, hlong⟩
    unfold read
    cases h with
    | host hat huser hpassword hhost =>
      dsimp only at huser hpassword hhost
      subst huser hpassword
      rw [cutLast_eq_none.2 hat, readHost_eq_some.2 ⟨hhost, hlong⟩]
      simp
    | @user part host hat huser hhost =>
      dsimp only at huser hhost
      have hne' : user.toList ≠ [] := by simpa using hne
      have hcut : cutLast '@' (String.ofList (part ++ '@' :: host)).toList = some (part, host) := by
        rw [String.toList_ofList]
        exact cutLast_eq_some.2 ⟨rfl, hat⟩
      rw [hcut]
      dsimp only
      rw [readHost_eq_some.2 ⟨hhost, hlong⟩, Option.bind_some,
        readUser_eq_some.2 ⟨huser, hne'⟩]
      simp

/-! ## Writing a login down -/

/-- A user and a password as a text. -/
def userPart (login : LoginText) : List Char :=
  login.user.toList ++ login.password.elim [] fun p => ':' :: p.text.toList

/-- A port as a text. -/
def portPart (login : LoginText) : List Char :=
  login.port.elim [] fun port => ':' :: (toString port).toList

/-- The login as a text, with the server in brackets: `USER[:PASSWORD]@[SERVER][:PORT]`, where only
the brackets around `SERVER` are written. -/
def render (login : LoginText) : String :=
  login.user ++ login.password.elim "" (":" ++ ·.text) ++ "@[" ++ login.server ++ "]" ++
    login.port.elim "" (":" ++ toString ·)

theorem render_eq (login : LoginText) :
    login.render = String.ofList
      (login.userPart ++ '@' :: '[' :: (login.server.toList ++ ']' :: login.portPart)) := by
  have huser : (login.password.elim "" (":" ++ ·.text)).toList =
      login.password.elim [] fun p => ':' :: p.text.toList := by
    cases login.password <;> simp
  have hport : (login.port.elim "" (":" ++ toString ·)).toList = login.portPart := by
    unfold portPart
    cases login.port <;> simp
  rw [← String.toList_inj, String.toList_ofList]
  unfold render userPart
  simp only [String.toList_append, huser, hport, List.append_assoc]
  rfl

theorem UserText.part_eq {login : LoginText} {part : List Char}
    (h : UserText part login.user.toList login.password) : part = login.userPart := by
  unfold userPart
  generalize login.password = password at h
  cases h with
  | alone hcolon => simp
  | withPassword hcolon => simp

theorem portText_portPart {login : LoginText} (h : ∀ port, login.port = some port → port < word16) :
    PortText login.portPart login.port := by
  unfold portPart
  cases hport : login.port with
  | none => exact .absent
  | some port => exact .given (.inl rfl) (isDecimal_toString port) (h port hport)

/-- What can be told of a login by itself if it was read. -/
structure WellFormed (login : LoginText) : Prop where
  /-- Someone logs in, -/
  user : login.user ≠ ""
  /-- to a server with two bytes at least, -/
  server : 2 ≤ byteLength login.server.toList
  /-- which is not taken for a part of the user, -/
  at_notMem : '@' ∉ login.server.toList
  /-- and at a port. -/
  port : ∀ port, login.port = some port → port < word16
  /-- The password, or else the user, has no colon, and the password takes the bytes that it would
  take behind the user. -/
  userText : UserText login.userPart login.user.toList login.password

theorem HostText.port_lt {host server : List Char} {port : Option Nat}
    (h : HostText host server port) : ∀ n, port = some n → n < word16 := by
  rintro n rfl
  have hport {tail : List Char} (h : PortText tail (some n)) : n < word16 := by
    cases h with
    | given hsign hdecimal hport => exact hport
  cases h with
  | bracketed h => exact hport h
  | bare hbracket hcolon h => exact hport h

theorem wellFormed_of_read {s : String} {login : LoginText} (h : read s = some login) :
    login.WellFormed := by
  obtain ⟨hwritten, hne, hlong⟩ := read_eq_some.1 h
  cases hwritten with
  | host hat huser hpassword hhost =>
    refine ⟨hne, hlong, fun hmem => hat (hhost.server_subset hmem), hhost.port_lt, ?_⟩
    have hcolon : ':' ∉ login.user.toList := by
      rw [huser]
      decide
    have halone := UserText.alone hcolon
    unfold userPart
    rw [hpassword]
    simpa using halone
  | user hat huser hhost =>
    refine ⟨hne, hlong, fun hmem => hat (hhost.server_subset hmem), hhost.port_lt, ?_⟩
    have hpart := huser.part_eq
    rwa [hpart] at huser

/-- **A well-formed login is read again from its text.** -/
theorem WellFormed.read_render {login : LoginText} (h : login.WellFormed) :
    read login.render = some login := by
  have hport := portText_portPart h.port
  have htail : '@' ∉ login.portPart := hport.notMem (by decide) (by decide) (by decide)
  have hhost : '@' ∉ '[' :: (login.server.toList ++ ']' :: login.portPart) := by
    simp [h.at_notMem, htail]
  rw [render_eq]
  exact read_eq_some.2 ⟨.user hhost h.userText (.bracketed hport), h.user, h.server⟩

/-! ## What is read from a text -/

/-- Whether the password of a login is what stands between the user and the last `@` of a text. -/
structure HoldsPassword (login : LoginText) (s : String) (p : WrittenPassword) : Prop where
  /-- The user and a colon are before it, and a host after it. -/
  text_eq : ∃ host, s = login.user ++ ":" ++ p.text ++ "@" ++ host ∧ '@' ∉ host.toList
  /-- It starts after the colon, -/
  start_eq : p.start = (login.user ++ ":").utf8ByteSize
  /-- and ends at the `@`. -/
  stop_eq : p.stop = (login.user ++ ":" ++ p.text).utf8ByteSize
  /-- Its bytes cut no character, and are those of the password. -/
  slice : Slot.text? [s] ⟨0, p.start, p.stop⟩ = some p.text

/-- Bytes within a text stand there as a text of their own. -/
theorem text?_of_append {s before text after : String} (h : s = before ++ text ++ after) :
    Slot.text? [s] ⟨0, before.utf8ByteSize, (before ++ text).utf8ByteSize⟩ = some text := by
  have hstop : cutByte? (before ++ text).utf8ByteSize s.toList =
      some ((before ++ text).toList, after.toList) :=
    cutByte?_eq_some.2 ⟨by rw [h, String.toList_append], byteLength_toList _⟩
  have hstart : cutByte? before.utf8ByteSize (before ++ text).toList =
      some (before.toList, text.toList) :=
    cutByte?_eq_some.2 ⟨String.toList_append, byteLength_toList _⟩
  unfold Slot.text?
  simp only [List.getElem?_cons_zero, hstop, hstart, Option.map_some, String.ofList_toList]

theorem holdsPassword_of_userText {login : LoginText} {part host : List Char} {p : WrittenPassword}
    (hat : '@' ∉ host) (huser : UserText part login.user.toList login.password)
    (hp : login.password = some p) :
    login.HoldsPassword (String.ofList (part ++ '@' :: host)) p := by
  rw [hp] at huser
  cases huser with
  | @withPassword _ text hcolon =>
    have hs : String.ofList (login.user.toList ++ ':' :: text ++ '@' :: host) =
        login.user ++ ":" ++ String.ofList text ++ ("@" ++ String.ofList host) := by
      simp [← String.toList_inj]
    have hstart : byteLength (login.user.toList ++ [':']) = (login.user ++ ":").utf8ByteSize := by
      rw [← byteLength_toList, String.toList_append]
      rfl
    have hstop : byteLength (login.user.toList ++ ':' :: text) =
        (login.user ++ ":" ++ String.ofList text).utf8ByteSize := by
      rw [← byteLength_toList]
      simp
    refine ⟨⟨String.ofList host, ?_, ?_⟩, hstart, hstop, ?_⟩
    · rw [hs, ← String.append_assoc]
    · rwa [String.toList_ofList]
    · dsimp only
      rw [hstart, hstop]
      exact text?_of_append hs

/-- **What is read from a text is what is written in it.**  Let a text be read as a login.

* It has a user and a server of two bytes, and without an `@` in the text the user is `root` and
  has no password.
* A password is what stands between the user with its colon and the last `@`.
* Behind that `@`, if there is one, the server and perhaps a port are written, and nothing else.
* Written down with the server in brackets, the login is read as the same one, with its password at
  the same bytes. -/
theorem read_is_faithful {s : String} {login : LoginText} (h : read s = some login) :
    (login.user ≠ "" ∧ 2 ≤ login.server.utf8ByteSize) ∧
    ('@' ∈ s.toList ∨ login.user = "root" ∧ login.password = none) ∧
    (∀ p, login.password = some p → login.HoldsPassword s p) ∧
    (∃ front host, s = front ++ host ∧ '@' ∉ host.toList ∧
      (front = "" ∨ ∃ part, front = part ++ "@") ∧
      HostText host.toList login.server.toList login.port) ∧
    read login.render = some login := by
  obtain ⟨hwritten, hne, hlong⟩ := read_eq_some.1 h
  rw [byteLength_toList] at hlong
  refine ⟨⟨hne, hlong⟩, ?_, ?_, ?_, (wellFormed_of_read h).read_render⟩
  · cases hwritten with
    | host hat huser hpassword hhost => exact .inr ⟨huser, hpassword⟩
    | user hat huser hhost => exact .inl (by simp)
  · intro p hp
    cases hwritten with
    | host hat huser hpassword hhost =>
      rw [hpassword] at hp
      cases hp
    | user hat huser hhost => exact holdsPassword_of_userText hat huser hp
  · cases hwritten with
    | host hat huser hpassword hhost => exact ⟨"", s, by simp, hat, .inl rfl, hhost⟩
    | @user part host hat huser hhost =>
      refine ⟨String.ofList part ++ "@", String.ofList host, ?_, ?_, .inr ⟨_, rfl⟩, ?_⟩
      · simp [← String.toList_inj]
      · rwa [String.toList_ofList]
      · rwa [String.toList_ofList]

/-- The login `jürgen:pässwört@[fe80::1]:22` holds a password at the bytes from 8 to 18, and is
written down as it stands. -/
theorem login_to_address_is_faithful :
    let login : LoginText := ⟨"jürgen", some ⟨"pässwört", 8, 18⟩, "fe80::1", some 22⟩
    read "jürgen:pässwört@[fe80::1]:22" = some login ∧
      login.HoldsPassword "jürgen:pässwört@[fe80::1]:22" ⟨"pässwört", 8, 18⟩ ∧
      login.render = "jürgen:pässwört@[fe80::1]:22" ∧ read login.render = some login := by
  intro login
  have hread : read "jürgen:pässwört@[fe80::1]:22" = some login := by decide +kernel
  obtain ⟨-, -, hpassword, -, hrender⟩ := read_is_faithful hread
  exact ⟨hread, hpassword _ rfl, by decide +kernel, hrender⟩

end VmControl.LoginText
