import Mathlib.Data.List.Induction
import VmControl.Proofs.Password

/-!
# The history of a login

A login starts without a host.  It is then given login texts and passwords, has passwords taken off
it, and is made sure to have one, in any order.  Each password that it is given is handed out once,
and the passwords are handed out in the order in which they came.

## Main definitions

* `Login.Request`: what is asked of a login.
* `Login.question?`: the question that is put when a password is made sure of.
* `Login.History`: a login with the passwords that it was given and those that it handed out.

## Main statements

* `Login.Request.passwords_apply`, `Login.History.passwords_run`: one request, and then any number
  of them, neither loses, doubles nor swaps a password.
* `Login.Request.target_apply`, `Login.History.target_run`: the host is that of the last login text.
* `Login.History.handed_out_in_order`: the theorem about all histories.
-/

namespace VmControl

/-- The host of a login text, and who logs in. -/
def LoginText.target (t : LoginText) : String × String × Option Nat := (t.user, t.server, t.port)

namespace Login

variable {ε : Type}

/-- The host of a login, and who logs in. -/
def target (l : Login) : String × String × Option Nat := (l.user, l.server, l.port)

/-! ## Asking for a password -/

/-- The question that is put when a password is made sure of, if one is put: it is what someone
sees who answers with the question itself. -/
def question? (l : Login) : Option String :=
  match (l.ensurePassword Except.error).1 with
  | .ok _ => none
  | .error prompt => some prompt

theorem question?_eq_passwordPrompt? (l : Login) : l.question? = l.passwordPrompt? := by
  unfold question? ensurePassword
  cases l.passwordPrompt? <;> rfl

/-- A question is put for another host for which no password waits, and names its user. -/
theorem question?_eq_some_iff {l : Login} {prompt : String} :
    l.question? = some prompt ↔ l.server ≠ "" ∧ l.pending.toList = [] ∧
      prompt = l.user ++ "@" ++ l.server ++ "'s password: " := by
  rw [question?_eq_passwordPrompt?]
  unfold passwordPrompt?
  rw [Option.ite_none_right_eq_some, Bool.and_eq_true, and_assoc, Option.some_inj]
  simp only [isRemote, PendingSecrets.isEmpty, bne_iff_ne, List.isEmpty_iff]
  exact and_congr_right fun _ => and_congr_right fun _ => eq_comm

theorem ensurePassword_of_question?_eq_none {l : Login} (h : l.question? = none)
    (ask : String → Except ε Secret) : l.ensurePassword ask = (.ok false, l) := by
  rw [question?_eq_passwordPrompt?] at h
  unfold ensurePassword
  rw [h]

theorem ensurePassword_of_answer {l : Login} {prompt : String} (h : l.question? = some prompt)
    {ask : String → Except ε Secret} {s : Secret} (hs : ask prompt = .ok s) :
    l.ensurePassword ask = (.ok true, l.push s) := by
  rw [question?_eq_passwordPrompt?] at h
  unfold ensurePassword
  simp only [h, hs]

theorem ensurePassword_of_failure {l : Login} {prompt : String} (h : l.question? = some prompt)
    {ask : String → Except ε Secret} {e : ε} (he : ask prompt = .error e) :
    l.ensurePassword ask = (.error e, l) := by
  rw [question?_eq_passwordPrompt?] at h
  unfold ensurePassword
  simp only [h, he]

/-- Whoever has answered is not asked again. -/
theorem question?_push (l : Login) (s : Secret) : (l.push s).question? = none :=
  Option.eq_none_iff_forall_ne_some.2 fun prompt h => by
    simpa [push] using (question?_eq_some_iff.1 h).2.1

/-- A password that was made sure of is there: no second question is put. -/
theorem question?_ensurePassword {l : Login} {ask : String → Except ε Secret} {asked : Bool}
    (h : (l.ensurePassword ask).1 = .ok asked) : (l.ensurePassword ask).2.question? = none := by
  cases hquestion : l.question? with
  | none => rwa [ensurePassword_of_question?_eq_none hquestion]
  | some prompt =>
    cases hanswer : ask prompt with
    | ok s =>
      rw [ensurePassword_of_answer hquestion hanswer]
      exact question?_push l s
    | error e =>
      rw [ensurePassword_of_failure hquestion hanswer] at h
      cases h

/-! ## Requests -/

/-- What is asked of a login. -/
inductive Request (ε : Type) where
  /-- To take the host of a login text, and its password. -/
  | assign (t : LoginText)
  /-- To take a password. -/
  | push (s : Secret)
  /-- To hand out the oldest password. -/
  | take
  /-- To make sure of a password, by asking for it. -/
  | ensure (ask : String → Except ε Secret)

namespace Request

/-- The login after a request. -/
def apply (l : Login) : Request ε → Login
  | assign t => l.assign t
  | push s => l.push s
  | take => l.takePassword.2
  | ensure ask => (l.ensurePassword ask).2

/-- The password that a login is given with a request. -/
def gives (l : Login) : Request ε → Option Secret
  | assign t => t.secret?
  | push s => some s
  | take => none
  | ensure ask => l.question?.bind fun prompt => (ask prompt).toOption

/-- The password that a login hands out on a request. -/
def handsOut (l : Login) : Request ε → Option Secret
  | take => l.takePassword.1
  | _ => none

/-- The login text of a request. -/
def text? : Request ε → Option LoginText
  | assign t => some t
  | _ => none

/-- What making sure of a password comes to: a password that is given, or nothing at all. -/
theorem apply_ensure (l : Login) (ask : String → Except ε Secret) :
    apply l (ensure ask) = (gives l (ensure ask)).elim l l.push := by
  show (l.ensurePassword ask).2 =
    (l.question?.bind fun prompt => (ask prompt).toOption).elim l l.push
  cases hquestion : l.question? with
  | none =>
    rw [ensurePassword_of_question?_eq_none hquestion]
    rfl
  | some prompt =>
    rw [Option.bind_some]
    cases hanswer : ask prompt with
    | ok s =>
      rw [ensurePassword_of_answer hquestion hanswer]
      rfl
    | error e =>
      rw [ensurePassword_of_failure hquestion hanswer]
      rfl

/-- **One request loses no password**: what it hands out was the first to wait, and what it gives
waits last. -/
theorem passwords_apply (l : Login) (r : Request ε) :
    (r.handsOut l).toList ++ (r.apply l).pending.toList =
      l.pending.toList ++ (r.gives l).toList := by
  cases r with
  | assign t => exact toList_pending_assign l t
  | push s => rfl
  | take => exact l.pending.toList_take.trans (List.append_nil _).symm
  | ensure ask =>
    rw [apply_ensure]
    cases gives l (ensure ask) with
    | none => exact (List.append_nil _).symm
    | some s => rfl

/-- Login texts alone change the host. -/
theorem target_apply (l : Login) (r : Request ε) :
    (r.apply l).target = (r.text?.map LoginText.target).getD l.target := by
  cases r with
  | assign t =>
    show (l.assign t).target = t.target
    unfold Login.assign
    cases t.password <;> rfl
  | push s => rfl
  | take => rfl
  | ensure ask =>
    rw [apply_ensure]
    cases gives l (ensure ask) <;> rfl

end Request

/-! ## Histories -/

/-- A login, and what happened to it. -/
structure History where
  /-- The login as it is now. -/
  login : Login
  /-- The passwords that it was given, the first one first. -/
  given : List Secret
  /-- The passwords that it handed out, the first one first. -/
  handedOut : List Secret

namespace History

/-- The login of no host, to which nothing has happened. -/
def start : History := ⟨∅, [], []⟩

/-- What comes of a request. -/
def step (h : History) (r : Request ε) : History where
  login := r.apply h.login
  given := h.given ++ (r.gives h.login).toList
  handedOut := h.handedOut ++ (r.handsOut h.login).toList

/-- What comes of requests that are made one after the other. -/
def run (requests : List (Request ε)) : History := requests.foldl step start

/-- The last login text among requests. -/
def latest? (requests : List (Request ε)) : Option LoginText :=
  (requests.filterMap Request.text?).getLast?

theorem run_concat (requests : List (Request ε)) (r : Request ε) :
    run (requests ++ [r]) = (run requests).step r := by
  unfold run
  rw [List.foldl_append]
  rfl

theorem latest?_concat (requests : List (Request ε)) (r : Request ε) :
    latest? (requests ++ [r]) = r.text?.or (latest? requests) := by
  unfold latest?
  rw [List.filterMap_append, List.getLast?_append]
  cases hr : r.text? <;> simp [hr]

/-- **No password is lost, doubled or swapped**, however many requests are made. -/
theorem passwords_run (requests : List (Request ε)) :
    (run requests).handedOut ++ (run requests).login.pending.toList = (run requests).given := by
  induction requests using List.reverseRecOn with
  | nil => rfl
  | append_singleton requests r ih =>
    rw [run_concat]
    show (run requests).handedOut ++ (r.handsOut (run requests).login).toList ++
        (r.apply (run requests).login).pending.toList =
      (run requests).given ++ (r.gives (run requests).login).toList
    rw [List.append_assoc, r.passwords_apply, ← List.append_assoc, ih]

/-- The host is that of the last login text. -/
theorem target_run (requests : List (Request ε)) :
    (run requests).login.target =
      ((latest? requests).map LoginText.target).getD ("", "", none) := by
  induction requests using List.reverseRecOn with
  | nil => rfl
  | append_singleton requests r ih =>
    rw [run_concat, latest?_concat]
    show (r.apply (run requests).login).target = _
    rw [r.target_apply, ih]
    cases r.text? <;> rfl

/-- A question names the user and the host of the last login text. -/
theorem question?_run {requests : List (Request ε)} {prompt : String}
    (h : (run requests).login.question? = some prompt) :
    ∃ t, latest? requests = some t ∧ prompt = t.user ++ "@" ++ t.server ++ "'s password: " := by
  obtain ⟨hserver, -, rfl⟩ := question?_eq_some_iff.1 h
  have htarget := target_run requests
  -- Without a login text there is no host, and thus no question.
  cases hlatest : latest? requests with
  | none =>
    rw [hlatest] at htarget
    exact absurd (congrArg (·.2.1) htarget) hserver
  | some t =>
    rw [hlatest] at htarget
    have huser : (run requests).login.user = t.user := congrArg (·.1) htarget
    have hhost : (run requests).login.server = t.server := congrArg (·.2.1) htarget
    exact ⟨t, rfl, by rw [huser, hhost]⟩

/-- **Each password is handed out once, in the order in which they came.**  Whatever is asked of a
login of no host, and in whatever order: the passwords that were handed out, and after them those
that wait, are the passwords that it was given.  It asks for a password exactly if it has a host and
no password waits, and the question names the user and the host of the last login text.  An answer
is a password that it is given, a question that stays open changes nothing, and after a password has
been made sure of no second question is put. -/
theorem handed_out_in_order (requests : List (Request ε)) :
    (run requests).handedOut ++ (run requests).login.pending.toList = (run requests).given ∧
    ((run requests).login.question?.isSome ↔
      (run requests).login.server ≠ "" ∧ (run requests).login.pending.isEmpty) ∧
    (∀ prompt, (run requests).login.question? = some prompt →
      ∃ t, latest? requests = some t ∧
        prompt = t.user ++ "@" ++ t.server ++ "'s password: ") ∧
    ∀ ask : String → Except ε Secret,
      ((run requests).login.question? = none →
        (run requests).login.ensurePassword ask = (.ok false, (run requests).login)) ∧
      (∀ prompt, (run requests).login.question? = some prompt →
        (∀ s, ask prompt = .ok s → (run requests).login.ensurePassword ask =
          (.ok true, (run requests).login.push s)) ∧
        (∀ e, ask prompt = .error e → (run requests).login.ensurePassword ask =
          (.error e, (run requests).login))) ∧
      ∀ asked, ((run requests).login.ensurePassword ask).1 = .ok asked →
        ((run requests).login.ensurePassword ask).2.question? = none := by
  refine ⟨passwords_run requests, ?_, fun prompt => question?_run, fun ask => ⟨?_, ?_, ?_⟩⟩
  · rw [Option.isSome_iff_exists]
    simp only [question?_eq_some_iff, exists_and_left, exists_eq, and_true,
      PendingSecrets.isEmpty, List.isEmpty_iff]
  · exact fun hnone => ensurePassword_of_question?_eq_none hnone ask
  · exact fun prompt hprompt => ⟨fun s hs => ensurePassword_of_answer hprompt hs,
      fun e he => ensurePassword_of_failure hprompt he⟩
  · exact fun asked hasked => question?_ensurePassword hasked

/-- Nothing is asked before there is a host, and an answer is handed out before what comes later. -/
example : (run [.ensure fun _ => .ok ⟨"a"⟩, .assign ⟨"u", none, "host1", none⟩,
      .ensure fun _ => .ok ⟨"b"⟩, .push ⟨"c"⟩, (.take : Request Unit)]) =
    ⟨⟨"u", "host1", none, ⟨[⟨"c"⟩]⟩⟩, [⟨"b"⟩, ⟨"c"⟩], [⟨"b"⟩]⟩ := by
  rfl

end History

end Login

end VmControl
