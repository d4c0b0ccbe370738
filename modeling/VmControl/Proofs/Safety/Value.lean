import VmControl.Capability
import VmControl.Expiration
import VmControl.Feature
import VmControl.Proofs.Safety.Checked
import VmControl.Redaction
import VmControl.Resource
import Mathlib.Data.List.DropRight

/-!
# Reading values by position

Numbers, sizes, lists of words and dates are read off a text by searching it for a byte and cutting
it there.  Each reader here does so with operations that can trap, and comes to the same as the
reader that takes the text apart character by character.

## Main statements

* `Checked.splitDigits_eq`: a numeral is cut off behind its last digit, which is where a character
  ends.
* `Checked.split_eq_words`, `Checked.split_eq_firstWord`: splitting a text ends, and cuts no
  character.
* `Checked.leading_eq`: the sign of a number of 31 bits is applied within 32 bits.
-/

namespace VmControl.Checked

open Numeral Options Text

/-! ## Numerals -/

/-- The byte behind the digits at the start. -/
def numeralEnd (cs : List Char) : Nat :=
  (findByte (fun c => !c.isDigit) cs).getD (byteLength cs)

theorem numeralEnd_eq (cs : List Char) : numeralEnd cs = byteLength (cs.takeWhile Char.isDigit) := by
  rw [numeralEnd, findByte_getD]
  simp only [Bool.not_not]

/-- The digits at the start, and the rest. -/
def splitDigits (cs : List Char) : Checked (List Char × List Char) := do
  let numeral ← upTo (numeralEnd cs) cs
  let tail ← onFrom (numeralEnd cs) cs
  return (numeral, tail)

@[simp] theorem splitDigits_eq (cs : List Char) :
    splitDigits cs = .ok (Numeral.splitDigits cs) := by
  simp only [splitDigits, numeralEnd_eq, upTo_takeWhile, onFrom_takeWhile]
  rfl

/-- A numeral of digits alone, with a value below `bound`. -/
def digits (bound : Nat) (cs : List Char) : Checked (Option Nat) := do
  let (numeral, tail) ← splitDigits cs
  return if tail = [] then Numeral.digits bound numeral else none

theorem digits_eq (bound : Nat) (cs : List Char) :
    digits bound cs = .ok (Numeral.digits bound cs) := by
  simp only [digits, splitDigits_eq, ok_bind, Numeral.splitDigits]
  refine congrArg Except.ok ?_
  split
  · next htail =>
    have hall : cs.takeWhile Char.isDigit = cs := by
      simpa [htail] using List.takeWhile_append_dropWhile (p := Char.isDigit) (l := cs)
    rw [hall]
  · next htail =>
    have hall : cs.all Char.isDigit = false := by
      rw [← Bool.not_eq_true]
      intro hall
      exact htail (List.dropWhile_eq_nil_iff.2 (List.all_eq_true.1 hall))
    simp [Numeral.digits, ofDigits?, hall]

/-- The sign of a number, and what follows it. -/
def signAndRest : List Char → Int × List Char
  | '-' :: ds => (-1, ds)
  | '+' :: ds => (1, ds)
  | ds => (1, ds)

/-- The number at the start of a text.  Its sign is applied to a word with sign. -/
def leading (cs : List Char) : Checked Int := do
  let (sign, ds) := signAndRest (trimStart cs)
  let numeral ← upTo (numeralEnd ds) ds
  match Numeral.digits (word32 / 2) numeral with
  | some n => timesSigned sign n
  | none => return 0

theorem signAndRest_sign (cs : List Char) :
    (signAndRest cs).1 = 1 ∨ (signAndRest cs).1 = -1 := by
  fun_cases signAndRest cs <;> simp

theorem leading_eq_sign (cs : List Char) :
    Numeral.leading cs =
      (signAndRest (trimStart cs)).1 * ((Numeral.digits (word32 / 2)
        ((signAndRest (trimStart cs)).2.takeWhile Char.isDigit)).getD 0 : Nat) := by
  unfold Numeral.leading
  fun_cases signAndRest (trimStart cs) <;> simp_all

/-- The magnitude has 31 bits, so that a word of 32 bits holds it with either sign. -/
theorem leading_eq (cs : List Char) : leading cs = .ok (Numeral.leading cs) := by
  have hsign := signAndRest_sign (trimStart cs)
  rw [leading_eq_sign, leading]
  generalize signAndRest (trimStart cs) = parts at hsign ⊢
  obtain ⟨sign, ds⟩ := parts
  simp only [numeralEnd_eq, upTo_takeWhile, ok_bind]
  cases hn : Numeral.digits (word32 / 2) (ds.takeWhile Char.isDigit) with
  | none => simp [pure, Except.pure]
  | some n =>
    have hlt := digits_lt hn
    refine timesSigned_eq_ok ?_ ?_
    · rcases hsign with rfl | rfl <;> omega
    · rcases hsign with rfl | rfl <;> omega

/-! ## Sizes and limits -/

/-- A numeral with at most one unit letter. -/
def readSize (unit : SizeUnit) (s : String) : Checked (Option Nat) := do
  let (numeral, tail) ← splitDigits s.toList
  match Numeral.digits word64 numeral with
  | none => return none
  | some n =>
    match tail with
    | [] =>
      return match unit with
        | .mebibytes => some n
        | .bytes => below word64 (n * mebibyte)
    | [c] =>
      match (unitBytes? c).bind fun w => below word64 (n * w) with
      | none => return none
      | some bytes =>
        match unit with
        | .mebibytes => return some (← divide bytes mebibyte)
        | .bytes => return some bytes
    | _ => return none

theorem readSize_eq (unit : SizeUnit) (s : String) :
    readSize unit s = .ok (VmControl.readSize unit s) := by
  have hmebibyte : mebibyte ≠ 0 := by decide
  rw [readSize, VmControl.readSize, splitDigits_eq, ok_bind]
  rcases Numeral.splitDigits s.toList with ⟨numeral, tail⟩
  dsimp only
  cases Numeral.digits word64 numeral with
  | none => rfl
  | some n =>
    rw [Option.bind_some]
    rcases tail with _ | ⟨c, _ | ⟨d, tail⟩⟩
    · dsimp only
      -- the kernel is not to compare the product with the bound
      generalize below word64 (n * mebibyte) = bytes
      cases unit <;> rfl
    · cases hw : unitBytes? c with
      | none => simp [hw, pure, Except.pure]
      | some w =>
        cases hbytes : below word64 (n * w) with
        | none => simp [hw, hbytes, pure, Except.pure]
        | some bytes => cases unit <;> simp [hw, hbytes, divide_eq_ok hmebibyte, pure, Except.pure]
    · simp [pure, Except.pure]

/-- One side of a limit. -/
def readLimit (div plainDiv : Nat) (cs : List Char) : Checked (Option Nat) := do
  if cs = "unlimited".toList then return some limitMax
  let (numeral, tail) ← splitDigits cs
  match Numeral.digits word64 numeral with
  | none => return none
  | some n =>
    match tail with
    | [] => return some (min (← divide n plainDiv) limitMax)
    | [c] =>
      match unitBytes? c with
      | none => return none
      | some w => return some (min (← divide (min (n * w) (word64 - 1)) div) limitMax)
    | _ => return none

theorem readLimit_eq {div plainDiv : Nat} (hdiv : div ≠ 0) (hplain : plainDiv ≠ 0)
    (cs : List Char) : readLimit div plainDiv cs = .ok (VmControl.readLimit div plainDiv cs) := by
  unfold readLimit VmControl.readLimit
  split
  · rfl
  · simp only [splitDigits_eq, ok_bind]
    cases Numeral.digits word64 (Numeral.splitDigits cs).1 with
    | none => rfl
    | some n =>
      rcases (Numeral.splitDigits cs).2 with _ | ⟨c, _ | ⟨d, tail⟩⟩
      · simp [divide_eq_ok hplain, pure, Except.pure]
      · cases hw : unitBytes? c <;> simp [hw, divide_eq_ok hdiv, pure, Except.pure]
      · simp [pure, Except.pure]

/-- A limit of one side or two. -/
def readLimitPair (div plainDiv : Nat) (s : String) : Checked (Option LimitPair) := do
  let (first, second) := match cutFirst ':' s.toList with
    | some (barrier, limit) => (barrier, some limit)
    | none => (s.toList, none)
  match ← readLimit div plainDiv first with
  | none => return none
  | some barrier =>
    match second with
    | none => return some ⟨barrier, barrier⟩
    | some cs => return (← readLimit div plainDiv cs).map fun limit => ⟨barrier, limit⟩

theorem readLimitPair_eq {div plainDiv : Nat} (hdiv : div ≠ 0) (hplain : plainDiv ≠ 0)
    (s : String) : readLimitPair div plainDiv s = .ok (VmControl.readLimitPair div plainDiv s) := by
  unfold readLimitPair VmControl.readLimitPair
  cases cutFirst ':' s.toList with
  | none =>
    simp only [readLimit_eq hdiv hplain, ok_bind]
    cases VmControl.readLimit div plainDiv s.toList <;> rfl
  | some parts =>
    simp only [readLimit_eq hdiv hplain, ok_bind]
    cases VmControl.readLimit div plainDiv parts.1 <;> rfl

/-- A limit of processor time. -/
def readCpuLimit (s : String) : Checked (Option CpuLimit) := do
  let (numeral, tail) ← splitDigits s.toList
  return (Numeral.digits word32 numeral).bind fun n =>
    match String.ofList tail with
    | "" => some (.percent n)
    | "%" => some (.percent n)
    | "m" => some (.mhz n)
    | "mhz" => some (.mhz n)
    | _ => none

theorem readCpuLimit_eq (s : String) : readCpuLimit s = .ok (CpuLimit.read s) := by
  simp only [readCpuLimit, splitDigits_eq, ok_bind]
  rfl

/-! ## Words -/

/-- The rounds of splitting a text: each takes a word off the rest, which does not start with a
delimiter.  With `once`, what follows the first word is the second. -/
def splitRounds (delim : Char → Bool) (once : Bool) :
    Nat → List (List Char) → List Char → Checked (List (List Char))
  | 0, _, _ => .error .endless
  | rounds + 1, out, rest =>
    if rest = [] then .ok out
    else if once && !out.isEmpty then .ok (out ++ [rest])
    else
      match findByte delim rest with
      | none => .ok (out ++ [rest])
      | some stop => do
        let word ← upTo stop rest
        let tail ← onFrom stop rest
        splitRounds delim once rounds (out ++ [word]) (tail.dropWhile delim)

/-- Splits a text at delimiters. -/
def split (delim : Char → Bool) (once : Bool) (cs : List Char) : Checked (List (List Char)) :=
  splitRounds delim once (cs.length + 1) [] (cs.dropWhile delim)

section Words

variable {delim : Char → Bool} {once : Bool} {rounds : Nat} {out : List (List Char)}

theorem splitRounds_cons {rest : List Char} (hrest : rest ≠ []) (hout : ¬ (once && !out.isEmpty)) :
    splitRounds delim once (rounds + 1) out rest =
      let tail := (rest.dropWhile fun c => !delim c).dropWhile delim
      if rest.takeWhile (fun c => !delim c) = rest then .ok (out ++ [rest])
      else splitRounds delim once rounds (out ++ [rest.takeWhile fun c => !delim c]) tail := by
  rw [splitRounds, if_neg hrest, if_neg hout]
  cases hfind : findByte delim rest with
  | none => simp [findByte_eq_none.1 hfind]
  | some stop =>
    have hstop : stop = byteLength (rest.takeWhile fun c => !delim c) := by
      simpa [hfind] using findByte_getD delim rest
    have hne : rest.takeWhile (fun c => !delim c) ≠ rest := by
      rw [Ne, ← findByte_eq_none, hfind]
      simp
    simp [hstop, hne]

theorem words_dropWhile (delim : Char → Bool) (cs : List Char) :
    words delim (cs.dropWhile delim) = words delim cs := by
  induction cs with
  | nil => rfl
  | cons c cs ih =>
    cases hc : delim c with
    | true => simp [words, hc, ih]
    | false => simp [hc]

/-- Every round leaves fewer characters, so the rounds end. -/
theorem splitRounds_eq_words {rest : List Char} (hlength : rest.length < rounds)
    (hrest : rest.dropWhile delim = rest) :
    splitRounds delim false rounds out rest = .ok (out ++ words delim rest) := by
  induction rounds generalizing out rest with
  | zero => omega
  | succ rounds ih =>
    cases rest with
    | nil => simp [splitRounds, words]
    | cons c cs =>
      have hc : delim c = false := by simpa using List.dropWhile_eq_self_iff.1 hrest
      rw [splitRounds_cons (by simp) (by simp)]
      simp only [List.takeWhile_cons, List.dropWhile_cons, words, hc, Bool.not_false, if_true,
        Bool.false_eq_true, if_false, List.cons.injEq, true_and]
      split
      · next htake =>
        have hdrop : cs.dropWhile (fun d => !delim d) = [] := by
          simpa [htake] using List.takeWhile_append_dropWhile (p := fun d => !delim d) (l := cs)
        simp [htake, hdrop, words]
      · have hle := length_dropWhile_le delim (cs.dropWhile fun d => !delim d)
        have hle' := length_dropWhile_le (fun d => !delim d) cs
        simp only [List.length_cons] at hlength
        rw [ih (by omega) (List.dropWhile_idempotent ..), words_dropWhile]
        simp

/-- **A text is split into its words.** -/
theorem split_eq_words (delim : Char → Bool) (cs : List Char) :
    split delim false cs = .ok (words delim cs) := by
  have hle := length_dropWhile_le delim cs
  rw [split, splitRounds_eq_words (by omega) (List.dropWhile_idempotent ..), words_dropWhile]
  rfl

/-- **A text is split into its first word and what follows it.** -/
theorem split_eq_firstWord (delim : Char → Bool) (cs : List Char) :
    split delim true cs = .ok (firstWord delim cs) := by
  unfold split firstWord
  have hle := length_dropWhile_le delim cs
  cases hrest : cs.dropWhile delim with
  | nil => rfl
  | cons c rest =>
    have hc : delim c = false := by
      simpa [hrest] using List.dropWhile_eq_self_iff.1 (List.dropWhile_idempotent delim cs)
    obtain ⟨rounds, hrounds⟩ : ∃ rounds, cs.length = rounds + 1 := by
      rw [hrest, List.length_cons] at hle
      exact Nat.exists_eq_add_one.2 (by omega)
    rw [hrounds, splitRounds_cons (by simp) (by simp)]
    simp only [List.takeWhile_cons, List.dropWhile_cons, hc, Bool.not_false, if_true,
      List.cons.injEq, true_and]
    split
    · next htake =>
      have hdrop : rest.dropWhile (fun d => !delim d) = [] := by
        simpa [htake] using List.takeWhile_append_dropWhile (p := fun d => !delim d) (l := rest)
      simp [htake, hdrop]
    · cases (rest.dropWhile fun d => !delim d).dropWhile delim <;> simp [splitRounds]

end Words

/-! ## Lines and dates -/

/-- The part before the first line end. -/
def firstLine (cs : List Char) : Checked (List Char) :=
  upTo ((findByte (fun c => c == '\n' || c == '\r') cs).getD (byteLength cs)) cs

theorem firstLine_eq (cs : List Char) : firstLine cs = .ok (Text.firstLine cs) := by
  rw [firstLine, findByte_getD, upTo_takeWhile]
  simp only [Text.firstLine, Bool.not_or, bne]

/-- A date with a space for the byte at 10, if that is a character. -/
def normalizeDate (cs : List Char) : Checked (List Char) :=
  if 10 < byteLength cs && isBoundary 10 cs && isBoundary 11 cs then
    replaceRange 10 11 [' '] cs
  else .ok cs

theorem splitAtByte_eq (n : Nat) (cs : List Char) : Expiration.splitAtByte n cs = cutByte? n cs := by
  induction cs generalizing n with
  | nil => cases n <;> simp [Expiration.splitAtByte, cutByte?]
  | cons c cs ih => cases n <;> simp [Expiration.splitAtByte, cutByte?, ih]

theorem normalizeDate_eq (cs : List Char) :
    normalizeDate cs = .ok (Expiration.normalizeDate cs) := by
  rw [normalizeDate, Expiration.normalizeDate, splitAtByte_eq, isBoundary]
  cases hcut : cutByte? 10 cs with
  | none => simp
  | some parts =>
    obtain ⟨day, rest⟩ := parts
    obtain ⟨rfl, hday⟩ := cutByte?_eq_some.1 hcut
    cases rest with
    | nil => simp [hday]
    | cons c time =>
      have hpos := c.utf8Size_pos
      have hlength : 10 < byteLength (day ++ c :: time) := by
        rw [byteLength_append, byteLength_cons, hday]
        omega
      by_cases hc : c.utf8Size = 1
      · have hboundary : isBoundary 11 (day ++ c :: time) = true := (isBoundary_succ hday).2 hc
        have hreplace := replaceRange_eq_ok [' ']
          (show day ++ c :: time = day ++ [c] ++ time by simp) hday
          (show byteLength (day ++ [c]) = 11 by simp [hday, hc])
        simp only [hlength, hboundary, hreplace, hc, decide_true, Option.isSome_some, Bool.and_self,
          if_true, List.append_assoc, List.cons_append, List.nil_append]
      · have hboundary : isBoundary 11 (day ++ c :: time) = false := by
          simpa using mt (isBoundary_succ hday).1 hc
        simp [hboundary, hc]

/-- The part of an expiration that `key` names, set. -/
def setExpirationPart (e : Expiration) (key value : List Char) : Checked (Option Expiration) :=
  if String.ofList key = "date" then do
    let date ← normalizeDate value
    return some { e with date := some (String.ofList date) }
  else .ok (e.setPart key value)

theorem setExpirationPart_eq (e : Expiration) (key value : List Char) :
    setExpirationPart e key value = .ok (e.setPart key value) := by
  unfold setExpirationPart
  split
  · next hkey =>
    simp only [normalizeDate_eq, Expiration.setPart, hkey]
    rfl
  · rfl

/-- One value of the option for expirations, taken. -/
def applyExpiration (e : Expiration) (s : String) : Checked (Except CommandError Expiration) :=
  match Toggle.read s with
  | some b => .ok (.ok { e with enabled := some b })
  | none => do
    let refusal : Except CommandError Expiration := .error (.badValue "--expiration" s)
    match ← split (· == ':') true s.toList with
    | [key, value] =>
      match ← setExpirationPart e key value with
      | some e => return .ok e
      | none => return refusal
    | _ => return refusal

theorem applyExpiration_eq (e : Expiration) (s : String) :
    applyExpiration e s = .ok (e.apply s) := by
  unfold applyExpiration Expiration.apply
  cases Toggle.read s with
  | some b => rfl
  | none =>
    simp only [split_eq_firstWord, ok_bind]
    rcases firstWord (· == ':') s.toList with _ | ⟨key, _ | ⟨value, _ | ⟨more, words⟩⟩⟩
    · rfl
    · rfl
    · simp only [setExpirationPart_eq, ok_bind]
      cases e.setPart key value <;> rfl
    · rfl

/-! ## Capabilities and features -/

theorem lt_of_index? {name : String} {i : Nat} (h : Capability.index? name = some i) : i < 64 := by
  have hlt : i < Capability.names.length := (List.idxOf?_eq_some_iff.1 h).1
  have hlength : Capability.names.length = 33 := rfl
  omega

/-- One `NAME:on|off` of the list `whole`, taken. -/
def applyCapability (whole : String) (m : CapabilityMask) (item : List Char) :
    Checked (Except CommandError CapabilityMask) :=
  match cutFirst ':' item with
  | none => .ok (.error (.refused (.capabilityWithoutMode whole)))
  | some (name, mode) =>
    match Capability.index? (String.ofList name) with
    | none => .ok (.error (.refused (.unknownCapability (String.ofList name))))
    | some i =>
      match Toggle.readStrict (String.ofList mode) with
      | some true => do
        let b ← bit i
        return .ok { m with on := m.on ||| b }
      | some false => do
        let b ← bit i
        return .ok { m with off := m.off ||| b }
      | none =>
        .ok (.error (.refused (.capabilityMode (String.ofList mode) (String.ofList name))))

theorem applyCapability_eq (whole : String) (m : CapabilityMask) (item : List Char) :
    applyCapability whole m item = .ok (m.applyItem whole item) := by
  unfold applyCapability CapabilityMask.applyItem
  cases cutFirst ':' item with
  | none => rfl
  | some parts =>
    dsimp only
    cases hi : Capability.index? (String.ofList parts.1) with
    | none => rfl
    | some i =>
      have hbit := bit_eq_ok (lt_of_index? hi)
      rcases Toggle.readStrict (String.ofList parts.2) with _ | _ | _ <;>
        simp [hbit, pure, Except.pure]

/-- Items up to the first that is refused, taken. -/
def applyCapabilities (whole : String) :
    List (List Char) → CapabilityMask → Checked (Except CommandError Unit × CapabilityMask)
  | [], m => .ok (.ok (), m)
  | item :: items, m => do
    match ← applyCapability whole m item with
    | .ok m => applyCapabilities whole items m
    | .error e => return (.error e, m)

/-- A list of capabilities, taken. -/
def applyCapabilityList (m : CapabilityMask) (s : String) :
    Checked (Except CommandError Unit × CapabilityMask) := do
  applyCapabilities s (← split (· == ',') false s.toList) m

theorem applyCapabilities_eq (whole : String) (items : List (List Char)) (m : CapabilityMask) :
    applyCapabilities whole items m = .ok (m.applyItems whole items) := by
  induction items generalizing m with
  | nil => rfl
  | cons item items ih =>
    simp only [applyCapabilities, applyCapability_eq, ok_bind, CapabilityMask.applyItems]
    cases m.applyItem whole item with
    | ok m => exact ih m
    | error e => rfl

theorem applyCapabilityList_eq (m : CapabilityMask) (s : String) :
    applyCapabilityList m s = .ok (m.apply s) := by
  rw [applyCapabilityList, split_eq_words]
  exact applyCapabilities_eq s _ m

/-- The feature set to a mode, which is a numeral if the feature is a number. -/
def setFeature (fs : Features) (f : Feature) (mode : String) :
    Checked (Except CommandError Unit × Features) :=
  match f.kind with
  | .toggle => .ok (fs.setMode f mode)
  | .number n => do
    let fs := { fs with owner := some f.owner, known := fs.known ||| f.bit }
    match ← digits word32 mode.toList with
    | some v => return (.ok (), { fs with numbers := fs.numbers.insert n v })
    | none => return (.error (.refused (.featureMode mode f.name)), fs)

theorem setFeature_eq (fs : Features) (f : Feature) (mode : String) :
    setFeature fs f mode = .ok (fs.setMode f mode) := by
  unfold setFeature
  cases hkind : f.kind with
  | toggle => rfl
  | number n =>
    simp only [digits_eq, ok_bind, Features.setMode, hkind]
    cases Numeral.digits word32 mode.toList <;> rfl

/-- One `NAME:MODE`, taken. -/
def applyFeature (fs : Features) (item : List Char) :
    Checked (Except CommandError Unit × Features) :=
  match cutFirst ':' item with
  | none => .ok (.error (.refused (.featureWithoutMode (String.ofList item))), fs)
  | some (name, mode) =>
    let name := String.ofList name
    match Feature.find? name with
    | none => .ok (.error (.refused (.unknownFeature name)), fs)
    | some f =>
      if fs.owner.any (· != f.owner) then .ok (.error (.refused (.mixedFeatures name)), fs)
      else setFeature fs f (String.ofList mode)

theorem applyFeature_eq (fs : Features) (item : List Char) :
    applyFeature fs item = .ok (fs.applyItem item) := by
  unfold applyFeature Features.applyItem
  cases cutFirst ':' item with
  | none => rfl
  | some parts =>
    dsimp only
    cases Feature.find? (String.ofList parts.1) with
    | none => rfl
    | some f =>
      dsimp only
      split
      · rfl
      · exact setFeature_eq fs f _

/-- Items up to the first that is refused, taken. -/
def applyFeatures :
    List (List Char) → Features → Checked (Except CommandError Unit × Features)
  | [], fs => .ok (.ok (), fs)
  | item :: items, fs => do
    match ← applyFeature fs item with
    | (.ok (), fs) => applyFeatures items fs
    | (.error e, fs) => return (.error e, fs)

/-- A list of features, taken. -/
def applyFeatureList (fs : Features) (s : String) :
    Checked (Except CommandError Unit × Features) := do
  applyFeatures (← split (fun c => c == ',' || c == ' ') false s.toList) fs

theorem applyFeatures_eq (items : List (List Char)) (fs : Features) :
    applyFeatures items fs = .ok (Features.applyItems items fs) := by
  induction items generalizing fs with
  | nil => rfl
  | cons item items ih =>
    simp only [applyFeatures, applyFeature_eq, ok_bind, Features.applyItems]
    rcases fs.applyItem item with ⟨_ | _, fs⟩
    · rfl
    · exact ih fs

theorem applyFeatureList_eq (fs : Features) (s : String) :
    applyFeatureList fs s = .ok (fs.apply s) := by
  rw [applyFeatureList, split_eq_words]
  exact applyFeatures_eq _ fs

/-! ## Wiping -/

/-- The argument with zeros in the bytes of a slot that it has. -/
def wipeArgument (s : Slot) (bytes : List UInt8) : Checked (List UInt8) :=
  let stop := min s.stop bytes.length
  if s.start < stop then fill s.start stop 0 bytes else .ok bytes

theorem wipeArgument_eq (s : Slot) (bytes : List UInt8) :
    wipeArgument s bytes = .ok (ArgumentBytes.wipeArgument s bytes) := by
  unfold wipeArgument ArgumentBytes.wipeArgument
  dsimp only
  split
  · next hlt =>
    have hin : ¬ (min s.stop bytes.length < s.start ∨ bytes.length < min s.stop bytes.length) := by
      omega
    rw [fill, if_neg hin]
    refine congrArg Except.ok (List.ext_getElem? fun j => ?_)
    grind
  · next hle =>
    refine congrArg Except.ok (List.ext_getElem? fun j => ?_)
    grind

/-- The vector with zeros in the bytes of a slot that it has. -/
def wipe (b : ArgumentBytes) (s : Slot) : Checked ArgumentBytes :=
  match b.toList[s.index]? with
  | none => .ok b
  | some bytes => do
    let bytes ← wipeArgument s bytes
    return ⟨b.toList.set s.index bytes⟩

theorem wipe_eq (b : ArgumentBytes) (s : Slot) : wipe b s = .ok (b.wipe s) := by
  unfold wipe ArgumentBytes.wipe
  cases hbytes : b.toList[s.index]? with
  | none => rw [List.modify_eq_self (List.getElem?_eq_none_iff.1 hbytes)]
  | some bytes =>
    simp only [wipeArgument_eq, ok_bind, List.modify_eq_set, hbytes, Option.getD_some]
    rfl

/-- The vector with zeros in the bytes of all slots. -/
def wipeAll (b : ArgumentBytes) (slots : List Slot) : Checked ArgumentBytes := slots.foldlM wipe b

theorem wipeAll_eq (b : ArgumentBytes) (slots : List Slot) :
    wipeAll b slots = .ok (b.wipeAll slots) := by
  induction slots generalizing b with
  | nil => rfl
  | cons s slots ih =>
    rw [wipeAll, List.foldlM_cons, wipe_eq]
    exact ih (b.wipe s)

end VmControl.Checked
