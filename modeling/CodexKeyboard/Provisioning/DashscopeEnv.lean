import CodexKeyboard.Schemes.Transact
import CodexKeyboard.Tts.Wire
import Mathlib.Data.List.DropRight

/-! The import of the DashScope key: the credential is parsed out of a chosen file, verified, written as one
    line to the target file and read back from there. -/

namespace CodexKeyboard.Provisioning

open Schemes Transact Tts

def maxImportBytes : Nat := 1024 * 1024

inductive ImportError where
  | sourceIo | unsafeSource | sourceTooLarge | invalidTargetVariable | invalidCredential
  | verify (e : VerificationError)
  deriving DecidableEq, Repr

abbrev Bytes := List UInt8

/-- `b"DASHSCOPE_API_KEY"`. -/
def dashscopeVariable : Bytes := [68, 65, 83, 72, 83, 67, 79, 80, 69, 95, 65, 80, 73, 95, 75, 69, 89]
/-- `b"export"`. -/
def exportWord : Bytes := [101, 120, 112, 111, 114, 116]

def isSpace (byte : UInt8) : Bool := byte == 32 || byte == 9 || byte == 10 || byte == 12 || byte == 13

def isGraphic (byte : UInt8) : Bool := 0x21 ≤ byte && byte ≤ 0x7e

def isQuote (byte : UInt8) : Bool := byte == 34 || byte == 39

def trimAscii (value : Bytes) : Bytes := (value.dropWhile isSpace).rdropWhile isSpace

def parseValue (value : Bytes) : Except ImportError Bytes :=
  match value with
  | first :: second :: rest =>
    if isQuote first && (second :: rest).getLast? == some first then
      let inner := (second :: rest).dropLast
      if inner.contains 92 || inner.contains first then .error .invalidTargetVariable else .ok inner
    else if value.any isSpace || value.contains 35 then .error .invalidTargetVariable
    else .ok value
  | _ => if value.any isSpace || value.contains 35 then .error .invalidTargetVariable else .ok value

/-- `export` in front of a line is taken off. -/
def stripExport (line : Bytes) : Bytes :=
  if exportWord <+: line then
    let rest := line.drop exportWord.length
    if rest.head?.any isSpace then trimAscii rest else line
  else line

def parseTargetLoop : List Bytes → Option Bytes → Except ImportError (Option Bytes)
  | [], target => .ok target
  | rawLine :: lines, target =>
    let line := stripExport (trimAscii rawLine)
    if !line.contains 61 then
      if line.takeWhile (!isSpace ·) = dashscopeVariable then .error .invalidTargetVariable
      else parseTargetLoop lines target
    else
      let equals := line.idxOf 61
      if trimAscii (line.take equals) ≠ dashscopeVariable then parseTargetLoop lines target
      else if target.isSome then .error .invalidTargetVariable
      else do
        let value ← parseValue (trimAscii (line.drop (equals + 1)))
        parseTargetLoop lines (some value)

def parseTargetValue (buffer : Bytes) : Except ImportError Bytes := do
  let target ← parseTargetLoop (buffer.splitOn 10) none
  orThrow .invalidTargetVariable target

def validateCredential (value : Bytes) : Except ImportError Unit :=
  if value.length < 16 || 4096 < value.length || value.any fun byte => !isGraphic byte || isQuote byte then
    .error .invalidCredential
  else .ok ()

/-- A file that is there is read whole and parsed. -/
def loadTargetSecret (file : Except ImportError Bytes) : Except ImportError Bytes := do
  let buffer ← file
  ensure (buffer.length ≤ maxImportBytes) ImportError.sourceTooLarge
  let value ← parseTargetValue buffer
  validateCredential value
  .ok value

/-- The target, where there is one; it is private. -/
def loadPrivateTargetSecret (target : Option Bytes) : Except ImportError Bytes :=
  loadTargetSecret (orThrow .unsafeSource target)

/-- What `replace_private_file` did, and reported. -/
inductive Replaced where
  | done | failedBefore | failedAfter
  deriving DecidableEq, Repr

def Replaced.target (replaced : Replaced) (old : Option Bytes) (new : Bytes) : Option Bytes :=
  match replaced with
  | .failedBefore => old
  | _ => some new

/-- What the import meets: the files next to the target, the remote service, the replacement. -/
structure ImportAnswers (R : Type) where
  cleanup : Except ImportError Unit
  verify : Bytes → Except VerificationError R
  replace : Replaced

variable {R : Type}

/-- The line of a credential. -/
def envLine (candidate : Bytes) : Bytes := dashscopeVariable ++ 61 :: candidate ++ [10]

/-- The candidate and its receipt, before anything is written. -/
def verifiedCandidate (answers : ImportAnswers R) (source : Except ImportError Bytes) :
    Except ImportError (Bytes × R) := do
  answers.cleanup
  let candidate ← loadTargetSecret source
  let receipt ← (answers.verify candidate).mapError .verify
  .ok (candidate, receipt)

/-- The answer of `configure_dashscope_env`, with the target it leaves. -/
def configureDashscopeEnv (answers : ImportAnswers R) (source : Except ImportError Bytes) (target : Option Bytes) :
    Except ImportError R × Option Bytes :=
  match verifiedCandidate answers source with
  | .error e => (.error e, target)
  | .ok (candidate, receipt) =>
    let written := answers.replace.target target (envLine candidate)
    let readback := loadPrivateTargetSecret written
    if answers.replace = .done then
      match readback with
      | .error e => (.error e, written)
      | .ok current => if current ≠ candidate then (.error .sourceIo, written) else (.ok receipt, written)
    else
      match readback with
      | .ok current => if current = candidate then (.ok receipt, written) else (.error .sourceIo, written)
      | .error _ => (.error .sourceIo, written)

/-! ### What an import leaves -/

/-- The key is installed, or the target is as it was. -/
def KeyKept (answers : ImportAnswers R) (source : Except ImportError Bytes) (target : Option Bytes) : Prop :=
  match configureDashscopeEnv answers source target with
  | (.ok _, left) => ∃ credential, loadTargetSecret source = .ok credential ∧
      loadPrivateTargetSecret left = .ok credential
  | (.error _, left) => left = target

/-- A verified credential with a `#` is written over another target. -/
def HashWritten (answers : ImportAnswers R) (source : Except ImportError Bytes) (target : Option Bytes) : Prop :=
  ∃ credential receipt, verifiedCandidate answers source = .ok (credential, receipt) ∧ 35 ∈ credential ∧
    answers.replace ≠ .failedBefore ∧ target ≠ some (envLine credential)

/-! ### The written line -/

variable {value credential : Bytes} {byte : UInt8}

theorem isSpace_graphic (h : isGraphic byte = true) : isSpace byte = false := by
  rw [isGraphic, Bool.and_eq_true, decide_eq_true_iff, decide_eq_true_iff, UInt8.le_iff_toNat_le,
    UInt8.le_iff_toNat_le] at h
  have hlow : (0x21 : UInt8).toNat = 33 := rfl
  rw [hlow] at h
  have hne : ∀ space : UInt8, space.toNat < 33 → (byte == space) = false := by
    rintro space hspace
    refine Bool.eq_false_iff.2 fun heq => ?_
    rw [eq_of_beq heq] at h
    omega
  rw [isSpace, hne 32 (by decide), hne 9 (by decide), hne 10 (by decide), hne 12 (by decide), hne 13 (by decide)]
  rfl

theorem validateCredential_ok (h : validateCredential credential = .ok ()) :
    16 ≤ credential.length ∧ credential.length ≤ 4096 ∧
      ∀ byte ∈ credential, isGraphic byte = true ∧ isQuote byte = false := by
  rw [validateCredential] at h
  split at h
  · cases h
  next hvalid =>
    simp only [Bool.or_eq_true, decide_eq_true_iff, not_or, List.any_eq_true, not_exists, not_and,
      Bool.not_eq_true', not_lt] at hvalid
    refine ⟨hvalid.1.1, hvalid.1.2, fun byte hbyte => ?_⟩
    have hbad := hvalid.2 byte hbyte
    exact ⟨by simpa using hbad.1, by simpa using hbad.2⟩

/-- Text without white space at its ends is not trimmed. -/
theorem trimAscii_self (hhead : ∀ byte ∈ value.head?, isSpace byte = false)
    (hlast : ∀ byte ∈ value.getLast?, isSpace byte = false) : trimAscii value = value := by
  have hdrop : value.dropWhile isSpace = value := by
    rw [List.dropWhile_eq_self_iff]
    rintro hlt
    rw [hhead _ (by simp [List.head?_eq_getElem?, hlt])]
    decide
  rw [trimAscii, hdrop, List.rdropWhile_eq_self_iff]
  rintro hne
  rw [hlast _ (List.getLast?_eq_some_getLast hne)]
  decide

/-- An unquoted value is taken as it is, unless it has a `#`. -/
theorem parseValue_plain (h : ∀ byte ∈ value, isGraphic byte = true ∧ isQuote byte = false) :
    parseValue value = if 35 ∈ value then .error .invalidTargetVariable else .ok value := by
  have hspace : value.any isSpace = false := by
    rw [List.any_eq_false]
    rintro byte hbyte
    rw [isSpace_graphic (h byte hbyte).1]
    decide
  have hplain : (if value.any isSpace || value.contains 35 then .error .invalidTargetVariable else .ok value :
      Except ImportError Bytes) = if 35 ∈ value then .error .invalidTargetVariable else .ok value := by
    rw [hspace, Bool.false_or]
    simp
  rw [parseValue.eq_def]
  split
  next first second rest =>
    have hquote := (h first List.mem_cons_self).2
    rw [if_neg (by simp [hquote])]
    exact hplain
  next => exact hplain

theorem splitOn_envLine (h : 10 ∉ credential) :
    (envLine credential).splitOn 10 = [dashscopeVariable ++ 61 :: credential, []] := by
  have hline : 10 ∉ dashscopeVariable ++ 61 :: credential := by
    rw [List.mem_append, List.mem_cons]
    rintro (hname | hequals | hvalue)
    · exact absurd hname (by decide)
    · exact absurd hequals (by decide)
    · exact h hvalue
  rw [envLine, List.splitOn_append_cons_self_of_not_mem hline]
  rfl

/-- The line of a valid credential reads back as it is, unless it has a `#`. -/
theorem parse_envLine (h : validateCredential credential = .ok ()) :
    parseTargetValue (envLine credential) =
      if 35 ∈ credential then .error .invalidTargetVariable else .ok credential := by
  obtain ⟨hlow, -, hbytes⟩ := validateCredential_ok h
  have hnewline : 10 ∉ credential := fun hmem => absurd (hbytes 10 hmem).1 (by decide)
  have hspace : ∀ byte ∈ credential, isSpace byte = false := fun byte hbyte =>
    isSpace_graphic (hbytes byte hbyte).1
  have hvalue : trimAscii credential = credential := by
    refine trimAscii_self ?_ ?_
    · rintro byte hbyte
      exact hspace byte (List.mem_of_mem_head? hbyte)
    · rintro byte hbyte
      exact hspace byte (List.mem_of_getLast? hbyte)
  have hlast : ∀ byte ∈ (dashscopeVariable ++ 61 :: credential).getLast?, isSpace byte = false := by
    rintro byte hbyte
    have hmem := List.mem_of_getLast? hbyte
    rw [List.mem_append, List.mem_cons] at hmem
    rcases hmem with hname | rfl | hmem
    · have hspaces : dashscopeVariable.all (fun byte => !isSpace byte) = true := by decide
      exact Bool.not_eq_true' _ ▸ List.all_eq_true.1 hspaces byte hname
    · rfl
    · exact hspace byte hmem
  have hline : stripExport (trimAscii (dashscopeVariable ++ 61 :: credential)) =
      dashscopeVariable ++ 61 :: credential := by
    rw [trimAscii_self (by rintro byte hbyte; cases hbyte; rfl) hlast, stripExport, if_neg]
    rintro ⟨more, hmore⟩
    cases hmore
  have hempty : parseTargetLoop [[]] (some credential) = .ok (some credential) := by
    rfl
  have hname : trimAscii dashscopeVariable = dashscopeVariable := by decide
  have hequals : (dashscopeVariable ++ 61 :: credential).idxOf 61 = dashscopeVariable.length := by
    rw [List.idxOf_append_of_notMem (by decide), List.idxOf_cons_self]
    rfl
  have hcontains : (!(dashscopeVariable ++ 61 :: credential).contains 61) = false := by simp
  rw [parseTargetValue, splitOn_envLine hnewline, parseTargetLoop]
  dsimp only
  rw [hline, hcontains, if_neg (by decide), hequals, List.take_left, hname, if_neg (by simp), if_neg (by simp),
    List.drop_append, List.drop_eq_nil_of_le (Nat.le_succ _), Nat.add_sub_cancel_left]
  show ((parseValue (trimAscii credential) >>= _) >>= _) = _
  rw [hvalue, parseValue_plain hbytes]
  split
  · rfl
  · show (parseTargetLoop [[]] (some credential) >>= _) = _
    rw [hempty]
    rfl

/-! ### The import -/

theorem loadTargetSecret_valid {file : Except ImportError Bytes} (h : loadTargetSecret file = .ok credential) :
    validateCredential credential = .ok () := by
  rw [loadTargetSecret] at h
  simp only [bind_ok] at h
  obtain ⟨buffer, -, -, -, value, -, checked, hvalid, hvalue⟩ := h
  cases hvalue
  exact hvalid

/-- The written line as the target. -/
theorem load_envLine (h : validateCredential credential = .ok ()) :
    loadPrivateTargetSecret (some (envLine credential)) =
      if 35 ∈ credential then .error .invalidTargetVariable else .ok credential := by
  have hlength : (envLine credential).length ≤ maxImportBytes := by
    have hhigh := (validateCredential_ok h).2.1
    have hname : dashscopeVariable.length = 17 := rfl
    rw [envLine, List.length_append, List.length_append, List.length_cons, List.length_singleton, hname,
      maxImportBytes]
    omega
  show (ensure ((envLine credential).length ≤ maxImportBytes) ImportError.sourceTooLarge >>= fun _ => _) = _
  rw [ensure, if_pos hlength]
  show (parseTargetValue (envLine credential) >>= fun _ => _) = _
  rw [parse_envLine h]
  split
  · rfl
  · show (validateCredential credential >>= fun _ => _) = _
    rw [h]
    rfl

theorem verifiedCandidate_load {answers : ImportAnswers R} {source : Except ImportError Bytes} {receipt : R}
    (h : verifiedCandidate answers source = .ok (credential, receipt)) :
    loadTargetSecret source = .ok credential := by
  rw [verifiedCandidate] at h
  simp only [bind_ok] at h
  obtain ⟨-, -, candidate, hload, receipt', -, hpair⟩ := h
  cases hpair
  exact hload

/-- The key is kept unless a credential with a `#` was written. -/
theorem keyKept_iff (answers : ImportAnswers R) (source : Except ImportError Bytes) (target : Option Bytes) :
    KeyKept answers source target ↔ ¬ HashWritten answers source target := by
  rw [KeyKept, configureDashscopeEnv]
  cases hverified : verifiedCandidate answers source with
  | error e =>
    refine iff_of_true rfl ?_
    rintro ⟨credential, receipt, hok, -⟩
    exact absurd (hverified.symm.trans hok) (by simp)
  | ok pair =>
    obtain ⟨credential, receipt⟩ := pair
    have hload := verifiedCandidate_load hverified
    have hline := load_envLine (loadTargetSecret_valid hload)
    have hhash : HashWritten answers source target ↔
        35 ∈ credential ∧ answers.replace ≠ .failedBefore ∧ target ≠ some (envLine credential) := by
      constructor
      · rintro ⟨other, receipt', hok, hwritten⟩
        cases hverified.symm.trans hok
        exact hwritten
      · rintro hwritten
        exact ⟨credential, receipt, hverified, hwritten⟩
    rw [hhash]
    dsimp only
    cases hreplace : answers.replace with
    | done =>
      rw [if_pos rfl]
      dsimp only [Replaced.target]
      rw [hline]
      by_cases hmem : 35 ∈ credential
      · rw [if_pos hmem]
        simp [hmem, eq_comm]
      · rw [if_neg hmem]
        simp [hmem, hload, hline]
    | failedAfter =>
      rw [if_neg (by decide)]
      dsimp only [Replaced.target]
      rw [hline]
      by_cases hmem : 35 ∈ credential
      · rw [if_pos hmem]
        simp [hmem, eq_comm]
      · rw [if_neg hmem]
        simp [hmem, hload, hline]
    | failedBefore =>
      rw [if_neg (by decide)]
      dsimp only [Replaced.target]
      refine iff_of_true ?_ (by simp)
      cases hold : loadPrivateTargetSecret target with
      | error e => rfl
      | ok current =>
        by_cases hsame : current = credential
        · dsimp only
          rw [if_pos hsame]
          exact ⟨credential, hload, by rw [hold, hsame]⟩
        · dsimp only
          rw [if_neg hsame]

/-- An import keeps the key exactly when it writes no `#`, and these are the credentials whose line does not
    read back. -/
theorem import_keeps_key (answers : ImportAnswers R) (source : Except ImportError Bytes) (target : Option Bytes) :
    (KeyKept answers source target ↔ ¬ HashWritten answers source target) ∧
      ∀ credential, loadTargetSecret source = .ok credential →
        (parseTargetValue (envLine credential) = .ok credential ↔ 35 ∉ credential) := by
  refine ⟨keyKept_iff answers source target, ?_⟩
  rintro credential hload
  rw [parse_envLine (loadTargetSecret_valid hload)]
  by_cases hmem : 35 ∈ credential
  · simp [hmem]
  · simp [hmem]

namespace EnvSample

/-- `sk-0123456789#ab`. -/
def hashed : Bytes := [115, 107, 45, 48, 49, 50, 51, 52, 53, 54, 55, 56, 57, 35, 97, 98]
/-- The credential in quotes. -/
def source : Bytes := dashscopeVariable ++ 61 :: 34 :: hashed ++ [34, 10]
/-- `previous-secret-value`. -/
def previous : Bytes :=
  [112, 114, 101, 118, 105, 111, 117, 115, 45, 115, 101, 99, 114, 101, 116, 45, 118, 97, 108, 117, 101]
def answers : ImportAnswers Unit := ⟨.ok (), fun _ => .ok (), .done⟩

end EnvSample

/-- A quoted credential with a `#` replaces the key, and the import fails. -/
theorem import_loses_key : ¬ ∀ (answers : ImportAnswers Unit) (source : Bytes) (target : Option Bytes),
    KeyKept answers (.ok source) target := by
  rintro hall
  have hverified : verifiedCandidate EnvSample.answers (.ok EnvSample.source) = .ok (EnvSample.hashed, ()) := by
    decide +kernel
  exact (keyKept_iff _ _ _).1 (hall EnvSample.answers EnvSample.source (some (envLine EnvSample.previous)))
    ⟨EnvSample.hashed, (), hverified, by decide, by decide, by decide⟩

theorem import_keeps_key_previous :
    (KeyKept EnvSample.answers (.ok (envLine EnvSample.previous)) none ↔
        ¬ HashWritten EnvSample.answers (.ok (envLine EnvSample.previous)) none) ∧
      (parseTargetValue (envLine EnvSample.previous) = .ok EnvSample.previous ↔ 35 ∉ EnvSample.previous) := by
  have hkept := import_keeps_key EnvSample.answers (.ok (envLine EnvSample.previous)) none
  exact ⟨hkept.1, hkept.2 EnvSample.previous (by decide +kernel)⟩

end CodexKeyboard.Provisioning
