import VmControl.Proofs.Safety.Checked
import VmControl.Value.LoginText

/-!
# Reading addresses by position

Hardware addresses are read two bytes at a time, identifiers by the bytes at which their characters
start, and logins by the bytes of their separators.  None of it cuts a character: a byte that is a
digit is a character of its own, and so is a separator.

## Main statements

* `Checked.readMac_eq`: walking over the bytes of a hardware address ends, and stays within them.
* `Checked.isUuid_eq`: what is between the braces of an identifier starts and ends at characters.
* `Checked.normalizeIp_eq`: there are never more groups than the eight that an address has.
* `Checked.readLogin_eq`: a login is cut at its separators.
-/

namespace VmControl

/-! ## The bytes of characters -/

namespace Text

/-- The text in UTF-8. -/
def bytes (cs : List Char) : List UInt8 := cs.flatMap String.utf8EncodeChar

/-- Whether a byte is a hexadecimal digit. -/
def isHexByte (b : UInt8) : Bool := isHexDigit (Char.ofUInt8 b)

theorem toNat_ofUInt8 (b : UInt8) : (Char.ofUInt8 b).toNat = b.toNat := by
  rw [← Char.toNat_val]
  exact UInt8.toNat_toUInt32 b

theorem isHexDigit_iff {c : Char} :
    isHexDigit c = true ↔
      48 ≤ c.toNat ∧ c.toNat ≤ 57 ∨ 97 ≤ c.toNat ∧ c.toNat ≤ 102 ∨
        65 ≤ c.toNat ∧ c.toNat ≤ 70 := by
  simp [isHexDigit, Char.isDigit, Char.le_def, UInt32.le_iff_toNat_le, or_assoc]

theorem isHexByte_iff {b : UInt8} :
    isHexByte b = true ↔
      48 ≤ b.toNat ∧ b.toNat ≤ 57 ∨ 97 ≤ b.toNat ∧ b.toNat ≤ 102 ∨
        65 ≤ b.toNat ∧ b.toNat ≤ 70 := by
  rw [isHexByte, isHexDigit_iff, toNat_ofUInt8]

/-- A character of ASCII is one byte; any other starts with a byte above. -/
theorem exists_utf8EncodeChar (c : Char) :
    ∃ b bs, String.utf8EncodeChar c = b :: bs ∧
      (b.toNat = c.toNat ∧ c.toNat < 128 ∧ bs = [] ∨ 128 ≤ c.toNat ∧ 128 ≤ b.toNat) := by
  have hc : c.val.toNat = c.toNat := Char.toNat_val
  simp only [String.utf8EncodeChar, hc]
  split
  · refine ⟨_, _, rfl, .inl ⟨?_, by omega, rfl⟩⟩
    rw [UInt8.toNat_ofNat']
    omega
  · split
    · refine ⟨_, _, rfl, .inr ⟨by omega, ?_⟩⟩
      rw [UInt8.toNat_ofNat']
      omega
    · split
      · refine ⟨_, _, rfl, .inr ⟨by omega, ?_⟩⟩
        rw [UInt8.toNat_ofNat']
        omega
      · refine ⟨_, _, rfl, .inr ⟨by omega, ?_⟩⟩
        rw [UInt8.toNat_ofNat']
        omega

/-- What the first byte of a character tells. -/
theorem exists_bytes_cons (c : Char) (cs : List Char) :
    ∃ b bs, bytes (c :: cs) = b :: (bs ++ bytes cs) ∧ isHexByte b = isHexDigit c ∧
      (b = 58 ↔ c = ':') ∧ (isHexDigit c = true → bs = [] ∧ Char.ofUInt8 b = c) ∧
      (c = ':' → bs = []) := by
  obtain ⟨b, bs, hencode, hb⟩ := exists_utf8EncodeChar c
  refine ⟨b, bs, by simp [bytes, hencode], ?_, ?_, fun hhex => ?_, fun hcolon => ?_⟩
  · rw [Bool.eq_iff_iff, isHexByte_iff, isHexDigit_iff]
    omega
  · have hcolon : c = ':' ↔ c.toNat = 58 := Char.toNat_inj.symm
    rw [hcolon, ← UInt8.toNat_inj]
    have h58 : (58 : UInt8).toNat = 58 := rfl
    omega
  · have hrange := isHexDigit_iff.1 hhex
    obtain ⟨heq, -, hbs⟩ | hlarge := hb
    · exact ⟨hbs, Char.toNat_inj.1 ((toNat_ofUInt8 b).trans heq)⟩
    · omega
  · subst hcolon
    have h58 : ':'.toNat = 58 := rfl
    obtain ⟨-, -, hbs⟩ | hlarge := hb
    · exact hbs
    · omega

theorem head?_bytes (cs : List Char) : (bytes cs).head? = some 58 ↔ cs.head? = some ':' := by
  cases cs with
  | nil => simp [bytes]
  | cons c cs =>
    obtain ⟨b, bs, hbytes, -, hcolon, -⟩ := exists_bytes_cons c cs
    simp [hbytes, hcolon]

/-- Two digits are two bytes, and two bytes that are digits are two digits. -/
theorem exists_bytes_pair (a b : Char) (rest : List Char) :
    ∃ x y tail, bytes (a :: b :: rest) = x :: y :: tail ∧
      (isHexByte x && isHexByte y) = (isHexDigit a && isHexDigit b) ∧
      ((isHexDigit a && isHexDigit b) = true →
        Char.ofUInt8 x = a ∧ Char.ofUInt8 y = b ∧ tail = bytes rest) := by
  obtain ⟨x, xs, hx, hxhex, -, hxone, -⟩ := exists_bytes_cons a (b :: rest)
  obtain ⟨y, ys, hy, hyhex, -, hyone, -⟩ := exists_bytes_cons b rest
  rw [hy] at hx
  cases ha : isHexDigit a with
  | false =>
    cases xs with
    | nil => exact ⟨x, y, _, hx, by simp [hxhex, ha], by simp⟩
    | cons z zs => exact ⟨x, z, _, hx, by simp [hxhex, ha], by simp⟩
  | true =>
    obtain ⟨rfl, hxa⟩ := hxone ha
    refine ⟨x, y, _, hx, by rw [hxhex, hyhex, ha], fun hb => ?_⟩
    obtain ⟨rfl, hyb⟩ := hyone hb
    exact ⟨hxa, hyb, rfl⟩

end Text

namespace Checked

open Numeral Text

/-! ## Hardware addresses -/

/-- The rounds over the bytes of a hardware address: each takes a pair of digits from byte `i` on,
and a colon behind it. -/
def macRounds (bytes : List UInt8) : Nat → Nat → List Char → Checked (Option (List Char))
  | 0, _, _ => .error .endless
  | rounds + 1, i, out =>
    if bytes.length ≤ i then .ok (some out)
    else if bytes.length < i + 2 then .ok none
    else do
      let first ← item bytes i
      let second ← item bytes (i + 1)
      if isHexByte first && isHexByte second then
        let out := out ++ [Char.ofUInt8 first, Char.ofUInt8 second]
        if i + 2 < bytes.length then
          let next ← item bytes (i + 2)
          macRounds bytes rounds (if next = 58 then i + 3 else i + 2) out
        else macRounds bytes rounds (i + 2) out
      else return none

/-- A hardware address. -/
def readMac (s : String) : Checked (Option String) := do
  if s = "auto" then return some "auto"
  let bytes := Text.bytes s.toList
  let digits ← macRounds bytes (bytes.length + 1) 0 []
  return digits.bind fun ds => if ds.length = 12 then some (String.ofList ds) else none

section Mac

variable {bytes rest : List UInt8} {rounds i : Nat} {out : List Char} {first second : UInt8}

theorem macRounds_nil (h : bytes.drop i = []) :
    macRounds bytes (rounds + 1) i out = .ok (some out) := by
  rw [macRounds, if_pos (List.drop_eq_nil_iff.1 h)]

theorem macRounds_singleton (h : bytes.drop i = [first]) :
    macRounds bytes (rounds + 1) i out = .ok none := by
  have hlength : bytes.length - i = 1 := by simpa using congrArg List.length h
  rw [macRounds, if_neg (by omega), if_pos (by omega)]

theorem macRounds_cons (h : bytes.drop i = first :: second :: rest) :
    macRounds bytes (rounds + 1) i out =
      if isHexByte first && isHexByte second then
        macRounds bytes rounds (if rest.head? = some 58 then i + 3 else i + 2)
          (out ++ [Char.ofUInt8 first, Char.ofUInt8 second])
      else .ok none := by
  have hlength : bytes.length - i = rest.length + 2 := by simpa using congrArg List.length h
  have hget (k : Nat) : bytes[i + k]? = (first :: second :: rest)[k]? := by
    rw [← h, List.getElem?_drop]
  have hfirst : bytes[i]? = some first := hget 0
  have hsecond : bytes[i + 1]? = some second := hget 1
  rw [macRounds, if_neg (by omega), if_neg (by omega), item_eq_ok hfirst, item_eq_ok hsecond]
  simp only [ok_bind]
  split
  · cases rest with
    | nil =>
      have hend : ¬ i + 2 < bytes.length := by
        rw [List.length_nil] at hlength
        omega
      simp [hend]
    | cons next rest =>
      have hmore : i + 2 < bytes.length := by
        rw [List.length_cons] at hlength
        omega
      have hitem : item bytes (i + 2) = .ok next := item_eq_ok (hget 2)
      simp [hmore, hitem]
  · rfl

/-- A round takes two digits, and a colon behind them. -/
theorem macRounds_pair {a b : Char} {cs : List Char}
    (hdrop : bytes.drop i = Text.bytes (a :: b :: cs)) :
    macRounds bytes (rounds + 1) i out =
      if isHexDigit a && isHexDigit b then
        macRounds bytes rounds (if cs.head? = some ':' then i + 3 else i + 2) (out ++ [a, b])
      else .ok none := by
  obtain ⟨x, y, tail, hbytes, hhex, hpair⟩ := exists_bytes_pair a b cs
  rw [macRounds_cons (hdrop.trans hbytes), hhex]
  split
  · next hab =>
    obtain ⟨rfl, rfl, rfl⟩ := hpair hab
    simp only [head?_bytes]
  · rfl

theorem drop_pair {a b : Char} {cs : List Char} (hdrop : bytes.drop i = Text.bytes (a :: b :: cs))
    (hab : (isHexDigit a && isHexDigit b) = true) :
    i + 2 ≤ bytes.length ∧ bytes.drop (i + 2) = Text.bytes cs := by
  obtain ⟨x, y, tail, hbytes, -, hpair⟩ := exists_bytes_pair a b cs
  obtain ⟨-, -, rfl⟩ := hpair hab
  have hrest := hdrop.trans hbytes
  have hlength : bytes.length - i = (Text.bytes cs).length + 2 := by
    simpa using congrArg List.length hrest
  refine ⟨by omega, ?_⟩
  rw [← List.drop_drop, hrest]
  rfl

/-- The walk over the bytes takes the digits of the characters. -/
theorem macRounds_eq {cs : List Char} (hdrop : bytes.drop i = Text.bytes cs)
    (hrounds : bytes.length - i < rounds) :
    macRounds bytes rounds i out = .ok ((hexPairs cs).map (out ++ ·)) := by
  induction rounds generalizing i out cs with
  | zero => omega
  | succ rounds ih =>
    fun_cases hexPairs cs with
    | case1 => simp [macRounds_nil hdrop]
    | case2 a b rest hhex =>
      obtain ⟨hle, hpair⟩ := drop_pair hdrop hhex
      have hcolon : bytes.drop (i + 3) = Text.bytes rest := by
        obtain ⟨x, xs, hbytes, -, -, -, hone⟩ := exists_bytes_cons ':' rest
        obtain rfl := hone rfl
        rw [show i + 3 = (i + 2) + 1 from rfl, ← List.drop_drop, hpair, hbytes]
        rfl
      rw [macRounds_pair hdrop, if_pos hhex, List.head?_cons, if_pos rfl, ih hcolon (by omega)]
      cases hexPairs rest <;> simp
    | case3 a b rest hhex => simp [macRounds_pair hdrop, hhex]
    | case4 a b rest hcolon hhex =>
      obtain ⟨hle, hpair⟩ := drop_pair hdrop hhex
      have hhead : rest.head? ≠ some ':' := by
        cases rest with
        | nil => simp
        | cons c cs =>
          rintro ⟨⟩
          exact hcolon _ rfl
      rw [macRounds_pair hdrop, if_pos hhex, if_neg hhead, ih hpair (by omega)]
      cases hexPairs rest <;> simp
    | case5 a b rest hcolon hhex => simp [macRounds_pair hdrop, hhex]
    | case6 a =>
      obtain ⟨x, xs, hbytes, hxhex, -, hxone, -⟩ := exists_bytes_cons a []
      cases xs with
      | nil => simp [macRounds_singleton (hdrop.trans hbytes)]
      | cons y ys =>
        have hx : isHexByte x = false := by
          rw [hxhex, ← Bool.not_eq_true]
          intro ha
          cases (hxone ha).1
        simp [macRounds_cons (hdrop.trans hbytes), hx]

theorem readMac_eq (s : String) : readMac s = .ok (VmControl.readMac s) := by
  unfold readMac VmControl.readMac
  split
  · rfl
  · dsimp only
    rw [macRounds_eq rfl (by omega), ok_bind]
    cases hexPairs s.toList <;> rfl

end Mac

/-! ## Identifiers -/

/-- The characters with the bytes at which they start, the first one at `start`. -/
def charIndices : Nat → List Char → List (Nat × Char)
  | _, [] => []
  | start, c :: cs => (start, c) :: charIndices (start + c.utf8Size) cs

/-- Whether a UUID can have the character at `i`. -/
def isUuidChar (i : Nat) (c : Char) : Bool :=
  if i = 8 ∨ i = 13 ∨ i = 18 ∨ i = 23 then c == '-' else isHexDigit c

/-- Whether the characters are those of a UUID, going by the bytes at which they start. -/
def isUuidByBytes (cs : List Char) : Bool := (charIndices 0 cs).all fun (i, c) => isUuidChar i c

/-- Whether the text is a UUID, with or without braces. -/
def isUuid (s : String) : Checked Bool := do
  let cs := s.toList
  if byteLength cs = 36 then return isUuidByBytes cs
  else if byteLength cs = 38 ∧ cs.head? = some '\x7b' ∧ cs.getLast? = some '\x7d' then
    return isUuidByBytes (← between 1 37 cs)
  else return false

/-- The UUID in braces. -/
def normalizeUuid (s : String) : Checked (Option String) := do
  return if ← isUuid s then VmControl.normalizeUuid s else none

section Uuid

variable {cs : List Char}

theorem utf8Size_of_isUuidChar {i : Nat} {c : Char} (h : isUuidChar i c = true) :
    c.utf8Size = 1 := by
  unfold isUuidChar at h
  split at h
  · obtain rfl := beq_iff_eq.1 h
    rfl
  · have hrange := isHexDigit_iff.1 h
    rw [Char.utf8Size_eq_one_iff, UInt32.le_iff_toNat_le, Char.toNat_val]
    show c.toNat ≤ 127
    omega

theorem charIndices_eq_zipIdx (h : ∀ c ∈ cs, c.utf8Size = 1) (start : Nat) :
    charIndices start cs = (cs.zipIdx start).map Prod.swap := by
  induction cs generalizing start with
  | nil => rfl
  | cons c cs ih =>
    have hc : c.utf8Size = 1 := h c (by simp)
    simp [charIndices, hc, ih (fun d hd => h d (by simp [hd]))]

theorem byteLength_eq_length (h : ∀ c ∈ cs, c.utf8Size = 1) : byteLength cs = cs.length := by
  induction cs with
  | nil => rfl
  | cons c cs ih =>
    have hc : c.utf8Size = 1 := h c (by simp)
    rw [byteLength_cons, hc, ih (fun d hd => h d (by simp [hd])), List.length_cons]
    omega

theorem exists_mem_charIndices {c : Char} (h : c ∈ cs) (start : Nat) :
    ∃ i, (i, c) ∈ charIndices start cs := by
  induction cs generalizing start with
  | nil => cases h
  | cons d cs ih =>
    rcases List.mem_cons.1 h with rfl | h
    · exact ⟨start, by simp [charIndices]⟩
    · obtain ⟨i, hi⟩ := ih h (start + d.utf8Size)
      exact ⟨i, by simp [charIndices, hi]⟩

/-- The characters of a UUID have one byte each, so that they are counted as bytes are. -/
theorem isPlainUuid_eq (cs : List Char) :
    isPlainUuid cs = (decide (byteLength cs = 36) && isUuidByBytes cs) := by
  have hplain : isPlainUuid cs =
      (cs.length == 36 && cs.zipIdx.all fun x => isUuidChar x.2 x.1) := rfl
  rw [hplain]
  by_cases hsize : ∀ c ∈ cs, c.utf8Size = 1
  · rw [isUuidByBytes, charIndices_eq_zipIdx hsize, byteLength_eq_length hsize, List.all_map]
    rfl
  · obtain ⟨c, hc, hne⟩ : ∃ c ∈ cs, c.utf8Size ≠ 1 := by simpa using hsize
    have hzip : (cs.zipIdx.all fun x => isUuidChar x.2 x.1) = false := by
      obtain ⟨i, hi, rfl⟩ := List.getElem_of_mem hc
      rw [← Bool.not_eq_true, List.all_eq_true]
      intro hall
      exact hne (utf8Size_of_isUuidChar (hall (cs[i], i) (by simp [List.mk_mem_zipIdx_iff_getElem?])))
    have hbytes : isUuidByBytes cs = false := by
      obtain ⟨i, hi⟩ := exists_mem_charIndices hc 0
      rw [← Bool.not_eq_true, isUuidByBytes, List.all_eq_true]
      intro hall
      exact hne (utf8Size_of_isUuidChar (hall (i, c) hi))
    rw [hzip, hbytes, Bool.and_false, Bool.and_false]

theorem withoutBraces_cases (cs : List Char) :
    (∃ inner, cs = '\x7b' :: (inner ++ ['\x7d']) ∧ withoutBraces cs = inner) ∨
      withoutBraces cs = cs ∧
        ¬ (byteLength cs = 38 ∧ cs.head? = some '\x7b' ∧ cs.getLast? = some '\x7d') := by
  fun_cases withoutBraces cs with
  | case1 rest hlast =>
    obtain ⟨inner, rfl⟩ := List.getLast?_eq_some_iff.1 hlast
    exact .inl ⟨inner, rfl, by simp⟩
  | case2 rest hlast =>
    refine .inr ⟨rfl, fun ⟨hlength, _, hend⟩ => ?_⟩
    cases rest with
    | nil => cases hlength
    | cons c rest => exact hlast (by simpa using hend)
  | case3 cs hne =>
    refine .inr ⟨rfl, fun ⟨_, hhead, _⟩ => ?_⟩
    obtain ⟨rest, rfl⟩ := List.head?_eq_some_iff.1 hhead
    exact hne rest rfl

/-- **What is between the braces of a UUID starts and ends at characters.** -/
theorem isUuid_eq (s : String) : isUuid s = .ok (VmControl.isUuid s) := by
  rw [VmControl.isUuid, isPlainUuid_eq]
  unfold isUuid
  obtain ⟨inner, hcs, hinner⟩ | ⟨hwhole, hbraces⟩ := withoutBraces_cases s.toList
  · have hlength : byteLength s.toList = byteLength inner + 2 := by
      rw [hcs, byteLength_cons, byteLength_append]
      show 1 + (byteLength inner + 1) = _
      omega
    have hfirst : isUuidByBytes s.toList = false := by
      rw [hcs]
      rfl
    have hhead : s.toList.head? = some '\x7b' := by rw [hcs]; rfl
    have hlast : s.toList.getLast? = some '\x7d' := by
      rw [hcs, ← List.cons_append]
      exact List.getLast?_concat ..
    rw [hinner]
    dsimp only
    split
    · next h36 =>
      have h34 : byteLength inner ≠ 36 := by omega
      simp [hfirst, h34, pure, Except.pure]
    · split
      · next h38 =>
        have h36 : byteLength inner = 36 := by omega
        have hbetween : between 1 37 s.toList = .ok inner := by
          refine between_eq_ok (show s.toList = ['\x7b'] ++ inner ++ ['\x7d'] by simp [hcs]) rfl ?_
          rw [byteLength_append, h36]
          rfl
        simp [hbetween, h36, pure, Except.pure]
      · next hother =>
        have h36 : byteLength inner ≠ 36 := fun h36 => hother ⟨by omega, hhead, hlast⟩
        simp [h36, pure, Except.pure]
  · rw [hwhole]
    dsimp only
    split
    · next h36 => simp [h36, pure, Except.pure]
    · next h36 => simp [h36, pure, Except.pure]

theorem normalizeUuid_eq (s : String) : normalizeUuid s = .ok (VmControl.normalizeUuid s) := by
  simp only [normalizeUuid, isUuid_eq, ok_bind, VmControl.normalizeUuid]
  split <;> rfl

end Uuid

/-! ## Addresses with groups -/

/-- An address with the zero groups that `::` stands for written out. -/
def normalizeIp (s : String) : Checked String := do
  if ':' ∉ s.toList then return s
  let upper := s.toList.map Char.toUpper
  match cutPair ':' ':' upper with
  | none => return String.ofList upper
  | some (head, tail) =>
    let front := ipGroups head
    let back := ipGroups tail
    if hasDoubleColon tail || 8 ≤ front.length + back.length then return String.ofList upper
    let more ← minus 8 front.length
    let zeros ← minus more back.length
    return String.ofList ([':'].intercalate (front ++ List.replicate zeros ['0'] ++ back))

theorem normalizeIp_eq (s : String) : normalizeIp s = .ok (VmControl.normalizeIp s) := by
  unfold normalizeIp VmControl.normalizeIp
  split
  · rfl
  · dsimp only
    cases cutPair ':' ':' (s.toList.map Char.toUpper) with
    | none => rfl
    | some parts =>
      dsimp only
      split
      · rfl
      · next hfew =>
        have hlt : (ipGroups parts.1).length + (ipGroups parts.2).length < 8 := by
          simp only [Bool.or_eq_true, decide_eq_true_eq, not_or, Nat.not_le] at hfew
          omega
        rw [minus_eq_ok (by omega), ok_bind, minus_eq_ok (by omega), ok_bind]
        rfl

/-! ## Logins -/

section Separator

variable {sep : Char} {cs before after : List Char}

theorem rfindByte_of_cutLast (h : cutLast sep cs = some (before, after)) :
    rfindByte (· == sep) cs = some (byteLength before) := by
  rw [rfindByte_eq, h]
  rfl

theorem upTo_of_cutLast (h : cutLast sep cs = some (before, after)) :
    upTo (byteLength before) cs = .ok before :=
  upTo_eq_ok (cutLast_eq_some.1 h).1 rfl

theorem onFrom_of_cutLast (h : cutLast sep cs = some (before, after)) (hsep : sep.utf8Size = 1) :
    onFrom (byteLength before + 1) cs = .ok after :=
  onFrom_succ_eq_ok (cutLast_eq_some.1 h).1 hsep rfl

end Separator

/-- `SERVER[:PORT]` taken apart. -/
def splitHost (host : List Char) : Checked (Option (List Char × Option (List Char))) :=
  match host with
  | '[' :: inner =>
    match rfindByte (· == ']') inner with
    | none => .ok none
    | some close => do
      let after ← onFrom (close + 1) inner
      let server ← upTo close inner
      return match after with
        | [] => some (server, none)
        | ':' :: port => some (server, some port)
        | _ => none
  | _ => .ok (LoginText.splitHost host)

theorem splitHost_eq (host : List Char) : splitHost host = .ok (LoginText.splitHost host) := by
  unfold splitHost
  split
  · next inner =>
    unfold LoginText.splitHost
    cases hcut : cutLast ']' inner with
    | none => simp [rfindByte_eq, hcut]
    | some parts =>
      obtain ⟨server, after⟩ := parts
      simp only [rfindByte_of_cutLast hcut, upTo_of_cutLast hcut, onFrom_of_cutLast hcut rfl, ok_bind,
        hcut]
      rcases after with _ | ⟨c, port⟩
      · rfl
      · by_cases hc : c = ':' <;> simp [hc, pure, Except.pure]
  · rfl

/-- `SERVER[:PORT]`. -/
def readHost (host : List Char) : Checked (Option (List Char × Option Nat)) := do
  return (← splitHost host).bind fun (server, port) =>
    let port := match port with
      | none => some none
      | some p => (readPort p).map some
    port.bind fun p => if byteLength server ≤ 1 then none else some (server, p)

theorem readHost_eq (host : List Char) : readHost host = .ok (LoginText.readHost host) := by
  rw [readHost, splitHost_eq]
  rfl

/-- `USER[:PASSWORD]`. -/
def readUser (part : List Char) : Checked (Option (List Char × Option WrittenPassword)) := do
  match rfindByte (· == ':') part with
  | none => return if part = [] then none else some (part, none)
  | some colon =>
    let user ← upTo colon part
    let password ← onFrom (colon + 1) part
    return if user = [] then none
      else some (user, some ⟨String.ofList password, colon + 1, byteLength part⟩)

theorem readUser_eq (part : List Char) : readUser part = .ok (LoginText.readUser part) := by
  unfold readUser LoginText.readUser
  cases hcut : cutLast ':' part with
  | none => simp [rfindByte_eq, hcut, pure, Except.pure]
  | some parts =>
    obtain ⟨user, password⟩ := parts
    simp only [rfindByte_of_cutLast hcut, upTo_of_cutLast hcut, onFrom_of_cutLast hcut rfl, ok_bind]
    rfl

/-- A login. -/
def readLogin (s : String) : Checked (Option LoginText) := do
  match rfindByte (· == '@') s.toList with
  | none =>
    return (← readHost s.toList).map fun (server, port) =>
      ⟨LoginText.defaultUser, none, String.ofList server, port⟩
  | some sign =>
    let part ← upTo sign s.toList
    let host ← onFrom (sign + 1) s.toList
    match ← readHost host with
    | none => return none
    | some (server, port) =>
      return (← readUser part).map fun (user, password) =>
        ⟨String.ofList user, password, String.ofList server, port⟩

/-- **A login is cut at its separators.** -/
theorem readLogin_eq (s : String) : readLogin s = .ok (LoginText.read s) := by
  unfold readLogin LoginText.read
  cases hcut : cutLast '@' s.toList with
  | none =>
    simp only [rfindByte_eq, hcut, Option.map_none, readHost_eq, ok_bind]
    rfl
  | some parts =>
    obtain ⟨part, host⟩ := parts
    simp only [rfindByte_of_cutLast hcut, upTo_of_cutLast hcut, onFrom_of_cutLast hcut rfl, ok_bind,
      readHost_eq]
    cases LoginText.readHost host with
    | none => rfl
    | some found =>
      simp only [readUser_eq, ok_bind]
      rfl

end Checked

end VmControl
