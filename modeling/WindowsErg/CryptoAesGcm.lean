import WindowsErg.ByteCodec
import WindowsErg.CallProgram
import WindowsErg.IdealAead
import WindowsErg.TextScan

/-! AES-256-GCM of `src/crypto/mod.rs`, over a CNG that is an ideal AEAD for the buffers and
lengths it is given. -/
namespace WindowsErg.Crypto
open List TextScan ByteCodec CallProgram IdealAead

def aes256KeyLen : ℕ := 32

def gcmNonceLen : ℕ := 12

def gcmTagLen : ℕ := 16

/-- `BCRYPT_AUTHENTICATED_CIPHER_MODE_INFO`: each pointer is given by the buffer it points to. -/
structure CipherInfo where
  cbSize : UInt32
  dwInfoVersion : UInt32
  pbNonce : Bytes
  cbNonce : UInt32
  pbAuthData : Option Bytes
  cbAuthData : UInt32
  pbTag : Bytes
  cbTag : UInt32

def cipherInfoSize : UInt32 := 88

def cipherInfoVersion : UInt32 := 1

structure Nonce where
  bytes : Bytes
  length_bytes : bytes.length = gcmNonceLen

def cipherInfo (nonce : Nonce) (aad tag : Bytes) : CipherInfo where
  cbSize := cipherInfoSize
  dwInfoVersion := cipherInfoVersion
  pbNonce := nonce.bytes
  cbNonce := UInt32.ofNat gcmNonceLen
  pbAuthData := if aad.isEmpty then none else some aad
  cbAuthData := UInt32.ofNat aad.length
  pbTag := tag
  cbTag := UInt32.ofNat tag.length

namespace CipherInfo

def nonce (info : CipherInfo) : Bytes := info.pbNonce.take info.cbNonce.toNat

def authData (info : CipherInfo) : Bytes := (info.pbAuthData.getD []).take info.cbAuthData.toNat

def tag (info : CipherInfo) : Bytes := info.pbTag.take info.cbTag.toNat

def Accepted (info : CipherInfo) : Prop :=
  info.cbSize = cipherInfoSize ∧ info.dwInfoVersion = cipherInfoVersion ∧
    info.cbNonce.toNat = gcmNonceLen ∧ info.cbTag.toNat = gcmTagLen ∧
    (info.pbAuthData = none → info.cbAuthData = 0)

end CipherInfo

abbrev Status := UInt32

def statusSuccess : Status := 0

def statusAuthTagMismatch : Status := 0xC000A002

def statusInvalidParameter : Status := 0xC000000D

def Status.isOk (status : Status) : Bool := status < 0x80000000

abbrev AeadLog := List (Entry Bytes Bytes Bytes Bytes (Bytes × Bytes))

structure EncryptAnswer where
  status : Status
  output : Bytes
  tag : Bytes

structure DecryptAnswer where
  status : Status
  output : Bytes

/-- A key handle is given by the key. -/
inductive CngCall where
  | generateSymmetricKey (secret : Bytes)
  | encrypt (key input : Bytes) (info : CipherInfo) (outputLen : ℕ)
  | decrypt (key input : Bytes) (info : CipherInfo) (outputLen : ℕ)
  | destroyKey (key : Bytes)

abbrev CngCall.Answer : CngCall → Type
  | .generateSymmetricKey _ => Status
  | .encrypt _ _ _ _ => EncryptAnswer
  | .decrypt _ _ _ _ => DecryptAnswer
  | .destroyKey _ => Unit

def EncryptStep (key input : Bytes) (info : CipherInfo) (log : AeadLog) (answer : EncryptAnswer)
    (log' : AeadLog) : Prop :=
  answer.status = statusSuccess ∧ answer.output.length = input.length ∧
    answer.tag.length = gcmTagLen ∧
    Fresh log ⟨key, info.nonce, info.authData, input, (answer.output, answer.tag)⟩ ∧
    log' = ⟨key, info.nonce, info.authData, input, (answer.output, answer.tag)⟩ :: log

def decryptAnswer (key input : Bytes) (info : CipherInfo) (log : AeadLog) : DecryptAnswer :=
  match openBox log key info.nonce info.authData (input, info.tag) with
  | some plaintext => ⟨statusSuccess, plaintext⟩
  | none => ⟨statusAuthTagMismatch, List.replicate input.length 0⟩

def cngStep : (c : CngCall) → AeadLog → c.Answer → AeadLog → Prop
  | .generateSymmetricKey secret, log, answer, log' =>
    log' = log ∧ (secret.length = aes256KeyLen → answer = statusSuccess)
  | .encrypt key input info outputLen, log, answer, log' =>
    info.Accepted ∧ input.length ≤ outputLen ∧ EncryptStep key input info log answer log' ∨
      ¬ (info.Accepted ∧ input.length ≤ outputLen) ∧ log' = log ∧
        answer.status = statusInvalidParameter
  | .decrypt key input info outputLen, log, answer, log' =>
    log' = log ∧
      (info.Accepted ∧ input.length ≤ outputLen ∧ answer = decryptAnswer key input info log ∨
        ¬ (info.Accepted ∧ input.length ≤ outputLen) ∧ answer.status = statusInvalidParameter)
  | .destroyKey _, log, _, log' => log' = log

def cngSystem : System CngCall CngCall.Answer AeadLog where
  step := cngStep
  interfere log log' := ∃ entry, Fresh log entry ∧ log' = entry :: log

inductive CryptoError where
  | windowsApi (status : Status) (api : Text)
  | lengthConversion
  deriving DecidableEq

def check (status : Status) (api : Text) : Except CryptoError Unit :=
  if status.isOk then .ok () else .error (.windowsApi status api)

def sealResult (answer : EncryptAnswer) : Except CryptoError Bytes := do
  check answer.status "BCryptEncrypt".toList
  pure (answer.output ++ answer.tag)

def openResult (answer : DecryptAnswer) : Except CryptoError (Option Bytes) :=
  if answer.status = statusAuthTagMismatch then .ok none
  else do
    check answer.status "BCryptDecrypt".toList
    pure (some answer.output)

structure AesGcmKey where
  key : Bytes
  length_key : key.length = aes256KeyLen

abbrev CngProgram (α : Type) := Program CngCall CngCall.Answer α

section Calls
open Program

def generateSymmetricKey (secret : Bytes) : CngProgram Status :=
  request (CngCall.generateSymmetricKey secret)

def bcryptEncrypt (key input : Bytes) (info : CipherInfo) (outputLen : ℕ) :
    CngProgram EncryptAnswer :=
  request (CngCall.encrypt key input info outputLen)

def bcryptDecrypt (key input : Bytes) (info : CipherInfo) (outputLen : ℕ) :
    CngProgram DecryptAnswer :=
  request (CngCall.decrypt key input info outputLen)

def destroyKey (key : Bytes) : CngProgram Unit := request (CngCall.destroyKey key)

end Calls

namespace AesGcmKey
variable (key : AesGcmKey)

/-- The part of `seal` that has the key handle. The bindings convert the length of every slice to
a `u32`, and stop the program if it does not fit. -/
def sealWith (nonce : Nonce) (aad plaintext : Bytes) : CngProgram (Except CryptoError Bytes) :=
  if 2^32 ≤ plaintext.length then pure (.error .lengthConversion)
  else do
    let info := cipherInfo nonce aad (List.replicate gcmTagLen 0)
    let answer ← bcryptEncrypt key.key plaintext info plaintext.length
    destroyKey key.key
    pure (sealResult answer)

def «seal» (nonce : Nonce) (aad plaintext : Bytes) : CngProgram (Except CryptoError Bytes) := do
  let status ← generateSymmetricKey key.key
  match check status "BCryptGenerateSymmetricKey".toList with
  | .error e => pure (.error e)
  | .ok () => key.sealWith nonce aad plaintext

def openWith (nonce : Nonce) (aad ciphertext tag : Bytes) :
    CngProgram (Except CryptoError (Option Bytes)) :=
  if 2^32 ≤ ciphertext.length then pure (.error .lengthConversion)
  else do
    let info := cipherInfo nonce aad tag
    let answer ← bcryptDecrypt key.key ciphertext info ciphertext.length
    destroyKey key.key
    pure (openResult answer)

def «open» (nonce : Nonce) (aad sealed : Bytes) :
    CngProgram (Except CryptoError (Option Bytes)) :=
  if sealed.length < gcmTagLen then pure (.ok none)
  else do
    let status ← generateSymmetricKey key.key
    match check status "BCryptGenerateSymmetricKey".toList with
    | .error e => pure (.error e)
    | .ok () =>
      key.openWith nonce aad (sealed.take (sealed.length - gcmTagLen))
        (sealed.drop (sealed.length - gcmTagLen))

def sealThenOpen (nonce : Nonce) (aad plaintext : Bytes) (nonce' : Nonce) (aad' : Bytes) :
    CngProgram (Except CryptoError (Option Bytes)) := do
  match ← key.«seal» nonce aad plaintext with
  | .error e => pure (.error e)
  | .ok sealed => key.«open» nonce' aad' sealed

end AesGcmKey

def effectiveAad (aad : Bytes) : Bytes := aad.take (aad.length % 2^32)

variable (nonce : Nonce) (aad tag : Bytes)

theorem cipherInfo_nonce : (cipherInfo nonce aad tag).nonce = nonce.bytes := by
  change nonce.bytes.take 12 = nonce.bytes
  apply take_of_length_le
  rw [nonce.length_bytes]
  exact Nat.le_refl 12

theorem cipherInfo_authData : (cipherInfo nonce aad tag).authData = effectiveAad aad := by
  have hlength : (UInt32.ofNat aad.length).toNat = aad.length % 2^32 := UInt32.toNat_ofNat'
  unfold CipherInfo.authData cipherInfo effectiveAad
  dsimp only
  rw [hlength]
  cases aad with
  | nil => rfl
  | cons b aad => rfl

theorem cipherInfo_tag (h : tag.length = gcmTagLen) : (cipherInfo nonce aad tag).tag = tag := by
  have hlength : (UInt32.ofNat tag.length).toNat = tag.length := by
    rw [h]
    rfl
  unfold CipherInfo.tag cipherInfo
  dsimp only
  rw [hlength, take_length]

theorem cipherInfo_accepted (h : tag.length = gcmTagLen) : (cipherInfo nonce aad tag).Accepted := by
  refine ⟨rfl, rfl, rfl, ?_, ?_⟩
  · change (UInt32.ofNat tag.length).toNat = gcmTagLen
    rw [h]
    rfl
  · intro hnull
    cases aad with
    | nil => rfl
    | cons b aad => contradiction

theorem stable_binding : Stable cngSystem Binding := by
  rintro log log' ⟨entry, hfresh, rfl⟩ hlog
  exact hlog.cons hfresh

def Logged (entry : Entry Bytes Bytes Bytes Bytes (Bytes × Bytes)) (log : AeadLog) : Prop :=
  Binding log ∧ entry ∈ log

theorem stable_logged (entry : Entry Bytes Bytes Bytes Bytes (Bytes × Bytes)) :
    Stable cngSystem (Logged entry) := by
  rintro log log' hmove ⟨hbinding, hentry⟩
  refine ⟨stable_binding log log' hmove hbinding, ?_⟩
  obtain ⟨other, -, rfl⟩ := hmove
  exact mem_cons_of_mem _ hentry

section Calls
variable {P : AeadLog → Prop} (hstable : Stable cngSystem P)
include hstable

theorem generateSymmetricKey_success (key : AesGcmKey) :
    Triple cngSystem P (generateSymmetricKey key.key) fun status log =>
      status = statusSuccess ∧ P log := by
  apply Triple.request hstable
  · exact fun status => (stable_const _).and hstable
  · rintro log status log' hlog ⟨rfl, hstatus⟩
    exact ⟨hstatus key.length_key, hlog⟩

theorem destroyKey_keeps (key : Bytes) : Triple cngSystem P (destroyKey key) fun _ => P := by
  apply Triple.request hstable fun _ => hstable
  intro log answer log' hlog hstep
  have hsame : log' = log := hstep
  rwa [hsame]

end Calls

theorem check_success (api : Text) : check statusSuccess api = .ok () := rfl

namespace AesGcmKey
variable (key : AesGcmKey)

def entry (nonce : Nonce) (aad plaintext ciphertext tag : Bytes) :
    Entry Bytes Bytes Bytes Bytes (Bytes × Bytes) :=
  ⟨key.key, nonce.bytes, effectiveAad aad, plaintext, (ciphertext, tag)⟩

def Encrypted (nonce : Nonce) (aad plaintext ciphertext tag : Bytes) (log : AeadLog) : Prop :=
  ciphertext.length = plaintext.length ∧ tag.length = gcmTagLen ∧
    Logged (key.entry nonce aad plaintext ciphertext tag) log

variable (plaintext ciphertext : Bytes)

theorem stable_encrypted (tag : Bytes) :
    Stable cngSystem (key.Encrypted nonce aad plaintext ciphertext tag) :=
  (stable_const _).and ((stable_const _).and (stable_logged _))

theorem bcryptEncrypt_encrypted :
    Triple cngSystem Binding
      (bcryptEncrypt key.key plaintext (cipherInfo nonce aad (List.replicate gcmTagLen 0))
        plaintext.length)
      fun answer log => answer.status = statusSuccess ∧
        key.Encrypted nonce aad plaintext answer.output answer.tag log := by
  apply Triple.request stable_binding
  · exact fun answer => (stable_const _).and (key.stable_encrypted _ _ _ _ _)
  have haccepted : (cipherInfo nonce aad (List.replicate gcmTagLen 0)).Accepted :=
    cipherInfo_accepted nonce aad _ length_replicate
  rintro log answer log' hlog (⟨-, -, hstatus, houtput, htag, hfresh, rfl⟩ | ⟨hnot, -⟩)
  · rw [cipherInfo_nonce, cipherInfo_authData] at hfresh ⊢
    exact ⟨hstatus, houtput, htag, hlog.cons hfresh, mem_cons_self⟩
  · exact absurd ⟨haccepted, Nat.le_refl _⟩ hnot

/-- `seal` returns a box that is in the log with its inputs, the associated data as CNG saw it. -/
def SealedAs (nonce : Nonce) (aad plaintext : Bytes) (result : Except CryptoError Bytes)
    (log : AeadLog) : Prop :=
  ∃ ciphertext tag, result = .ok (ciphertext ++ tag) ∧
    key.Encrypted nonce aad plaintext ciphertext tag log

theorem sealWith_sealedAs (h : plaintext.length < 2^32) :
    Triple cngSystem Binding (key.sealWith nonce aad plaintext)
      (key.SealedAs nonce aad plaintext) := by
  unfold sealWith
  rw [if_neg (Nat.not_le.mpr h)]
  apply Triple.bind _ (key.bcryptEncrypt_encrypted nonce aad plaintext)
  intro answer
  have hstable := key.stable_encrypted nonce aad plaintext answer.output answer.tag
  apply Triple.bind _ (destroyKey_keeps ((stable_const _).and hstable) key.key)
  intro _
  apply Triple.done ((stable_const _).and hstable)
  rintro log ⟨hstatus, hlog⟩
  refine ⟨answer.output, answer.tag, ?_, hlog⟩
  rw [sealResult, hstatus, check_success]
  rfl

theorem seal_sealedAs (h : plaintext.length < 2^32) :
    Triple cngSystem Binding (key.«seal» nonce aad plaintext)
      (key.SealedAs nonce aad plaintext) := by
  apply Triple.bind _ (generateSymmetricKey_success stable_binding key)
  intro status
  constructor
  rintro log result log' ⟨rfl, hlog⟩ hrun
  rw [check_success] at hrun
  exact (key.sealWith_sealedAs nonce aad plaintext h).sound log result log' hlog hrun

def opened (nonce : Nonce) (aad plaintext : Bytes) (nonce' : Nonce) (aad' : Bytes) :
    Option Bytes :=
  if nonce'.bytes = nonce.bytes ∧ effectiveAad aad' = effectiveAad aad then some plaintext
  else none

variable (nonce' : Nonce)

section
variable (aad aad' plaintext ciphertext tag : Bytes)

theorem bcryptDecrypt_opened :
    Triple cngSystem (key.Encrypted nonce aad plaintext ciphertext tag)
      (bcryptDecrypt key.key ciphertext (cipherInfo nonce' aad' tag) ciphertext.length)
      fun answer _ => answer = match opened nonce aad plaintext nonce' aad' with
        | some plaintext => ⟨statusSuccess, plaintext⟩
        | none => ⟨statusAuthTagMismatch, List.replicate ciphertext.length 0⟩ := by
  apply Triple.request (key.stable_encrypted _ _ _ _ _) fun _ => stable_const _
  rintro log answer log' ⟨-, htag, hbinding, hentry⟩ ⟨-, ⟨-, -, rfl⟩ | ⟨hnot, -⟩⟩
  · have hopen : openBox log key.key nonce'.bytes (effectiveAad aad') (ciphertext, tag) =
        opened nonce aad plaintext nonce' aad' :=
      openBox_eq hbinding hentry nonce'.bytes (effectiveAad aad')
    unfold decryptAnswer
    rw [cipherInfo_nonce, cipherInfo_authData, cipherInfo_tag _ _ _ htag, hopen]
  · exact absurd ⟨cipherInfo_accepted nonce' aad' tag htag, Nat.le_refl _⟩ hnot

theorem openWith_opened (h : ciphertext.length < 2^32) :
    Triple cngSystem (key.Encrypted nonce aad plaintext ciphertext tag)
      (key.openWith nonce' aad' ciphertext tag)
      fun result _ => result = .ok (opened nonce aad plaintext nonce' aad') := by
  unfold openWith
  rw [if_neg (Nat.not_le.mpr h)]
  apply Triple.bind _ (key.bcryptDecrypt_opened nonce nonce' aad aad' plaintext ciphertext tag)
  intro answer
  apply Triple.bind _ (destroyKey_keeps (stable_const _) key.key)
  intro _
  apply Triple.done (stable_const _)
  rintro log rfl
  cases opened nonce aad plaintext nonce' aad' with
  | none => rfl
  | some value => rfl

theorem open_opened (h : ciphertext.length < 2^32)
    (htag : tag.length = gcmTagLen) :
    Triple cngSystem (key.Encrypted nonce aad plaintext ciphertext tag)
      (key.«open» nonce' aad' (ciphertext ++ tag))
      fun result _ => result = .ok (opened nonce aad plaintext nonce' aad') := by
  have hlength : (ciphertext ++ tag).length = ciphertext.length+gcmTagLen := by
    rw [length_append, htag]
  have hsplit : (ciphertext ++ tag).length - gcmTagLen = ciphertext.length := by omega
  unfold «open»
  rw [if_neg (by omega), hsplit, take_left, drop_left]
  have hstable := key.stable_encrypted nonce aad plaintext ciphertext tag
  apply Triple.bind _ (generateSymmetricKey_success hstable key)
  intro status
  constructor
  rintro log result log' ⟨rfl, hlog⟩ hrun
  rw [check_success] at hrun
  exact (key.openWith_opened nonce nonce' aad aad' plaintext ciphertext tag h).sound log result
    log' hlog hrun

end

theorem sealThenOpen_opened (aad aad' plaintext : Bytes) (h : plaintext.length < 2^32) :
    Triple cngSystem Binding (key.sealThenOpen nonce aad plaintext nonce' aad')
      fun result _ => result = .ok (opened nonce aad plaintext nonce' aad') := by
  apply Triple.bind _ (key.seal_sealedAs nonce aad plaintext h)
  intro boxed
  constructor
  rintro log result log' ⟨ciphertext, tag, rfl, hlog⟩ hrun
  have hciphertext : ciphertext.length < 2^32 := by rw [hlog.1]; exact h
  exact (key.open_opened nonce nonce' aad aad' plaintext ciphertext tag hciphertext
    hlog.2.1).sound log result log' hlog hrun

theorem generateSymmetricKey_step (log : AeadLog) :
    cngStep (.generateSymmetricKey key.key) log statusSuccess log :=
  ⟨rfl, fun _ => rfl⟩

theorem seal_returns (h : plaintext.length < 2^32) :
    ∃ log, Runs cngSystem (key.«seal» nonce aad plaintext) []
      (.ok (plaintext ++ List.replicate gcmTagLen 0)) log := by
  let info := cipherInfo nonce aad (List.replicate gcmTagLen 0)
  let answer : EncryptAnswer := ⟨statusSuccess, plaintext, List.replicate gcmTagLen 0⟩
  let log : AeadLog := [⟨key.key, info.nonce, info.authData, plaintext, (answer.output, answer.tag)⟩]
  have haccepted : info.Accepted := cipherInfo_accepted nonce aad _ length_replicate
  have hencrypt : cngStep (.encrypt key.key plaintext info plaintext.length) [] answer log :=
    Or.inl ⟨haccepted, Nat.le_refl _, rfl, rfl, length_replicate, fresh_nil _, rfl⟩
  have hdestroy : cngStep (.destroyKey key.key) log () log := rfl
  refine ⟨log, Runs.request_bind (key.generateSymmetricKey_step []) ?_⟩
  rw [check_success]
  unfold sealWith
  rw [if_neg (Nat.not_le.mpr h)]
  exact Runs.request_bind hencrypt (Runs.request_bind (x := ()) hdestroy (.done _ _))

theorem open_returns (tag : Bytes) (log : AeadLog) (h : ciphertext.length < 2^32)
    (htag : tag.length = gcmTagLen) :
    ∃ result, Runs cngSystem (key.«open» nonce aad (ciphertext ++ tag)) log result log := by
  have hlength : (ciphertext ++ tag).length = ciphertext.length+gcmTagLen := by
    rw [length_append, htag]
  have hsplit : (ciphertext ++ tag).length - gcmTagLen = ciphertext.length := by omega
  let info := cipherInfo nonce aad tag
  have haccepted : info.Accepted := cipherInfo_accepted nonce aad tag htag
  have hdecrypt : cngStep (.decrypt key.key ciphertext info ciphertext.length) log
      (decryptAnswer key.key ciphertext info log) log :=
    ⟨rfl, Or.inl ⟨haccepted, Nat.le_refl _, rfl⟩⟩
  have hdestroy : cngStep (.destroyKey key.key) log () log := rfl
  refine ⟨openResult (decryptAnswer key.key ciphertext info log), ?_⟩
  unfold «open»
  rw [if_neg (by omega), hsplit, take_left, drop_left]
  apply Runs.request_bind (key.generateSymmetricKey_step log)
  rw [check_success]
  unfold openWith
  rw [if_neg (Nat.not_le.mpr h)]
  exact Runs.request_bind hdecrypt (Runs.request_bind (x := ()) hdestroy (.done _ _))

theorem sealThenOpen_returns (aad aad' plaintext : Bytes) (h : plaintext.length < 2^32) :
    ∃ log, Runs cngSystem (key.sealThenOpen nonce aad plaintext nonce' aad') []
      (.ok (opened nonce aad plaintext nonce' aad')) log := by
  obtain ⟨log, hseal⟩ := key.seal_returns nonce aad plaintext h
  obtain ⟨result, hopen⟩ := key.open_returns nonce' aad' plaintext (List.replicate gcmTagLen 0) log
    h length_replicate
  have hrun : Runs cngSystem (key.sealThenOpen nonce aad plaintext nonce' aad') [] result log :=
    hseal.bind hopen
  have hresult := (key.sealThenOpen_opened nonce nonce' aad aad' plaintext h).sound [] result log
    binding_nil hrun
  exact ⟨log, hresult ▸ hrun⟩

end AesGcmKey

/-- Below 4 GiB of plaintext, and whatever others do with CNG meanwhile, what was sealed opens for
the same nonce and associated data and no others, exactly when the nonces differ, or the
associated data are equal or differ in what CNG sees of them. -/
theorem aes_gcm_bound_iff (key : AesGcmKey) (nonce nonce' : Nonce) (aad aad' plaintext : Bytes)
    (hplaintext : plaintext.length < 2^32) (log log' : AeadLog) (hlog : Binding log)
    (result : Except CryptoError (Option Bytes))
    (hrun : Runs cngSystem (key.sealThenOpen nonce aad plaintext nonce' aad') log result log') :
    result = .ok (if nonce'.bytes = nonce.bytes ∧ aad' = aad then some plaintext else none) ↔
      (nonce'.bytes ≠ nonce.bytes ∨ aad' = aad ∨ effectiveAad aad' ≠ effectiveAad aad) := by
  have hresult := (key.sealThenOpen_opened nonce nonce' aad aad' plaintext hplaintext).sound
    log result log' hlog hrun
  rw [hresult, Except.ok.injEq, AesGcmKey.opened]
  by_cases hnonce : nonce'.bytes = nonce.bytes
  · by_cases haad : aad' = aad
    · simp [hnonce, haad]
    · by_cases heffective : effectiveAad aad' = effectiveAad aad
      · simp [hnonce, haad, heffective]
      · simp [hnonce, haad, heffective]
  · simp [hnonce]

def zeroKey : AesGcmKey := ⟨List.replicate aes256KeyLen 0, length_replicate⟩

def sevens : Nonce := ⟨List.replicate gcmNonceLen 7, length_replicate⟩

theorem aes_gcm_bound_other_header :
    ∃ log, Runs cngSystem (zeroKey.sealThenOpen sevens [1] [2, 3] sevens [4]) [] (.ok none) log ∧
      (.ok none : Except CryptoError (Option Bytes)) =
        .ok (if sevens.bytes = sevens.bytes ∧ ([4] : Bytes) = [1] then some [2, 3] else none) := by
  have hdiffer : effectiveAad [4] ≠ effectiveAad [1] := by decide
  obtain ⟨log, hrun⟩ := zeroKey.sealThenOpen_returns sevens sevens [1] [4] [2, 3] (by decide)
  have hnone : AesGcmKey.opened sevens [1] [2, 3] sevens [4] = none := by
    rw [AesGcmKey.opened, if_neg (fun h => hdiffer h.2)]
  rw [hnone] at hrun
  exact ⟨log, hrun, (aes_gcm_bound_iff zeroKey sevens sevens [1] [4] [2, 3] (by decide) [] log
    binding_nil _ hrun).mpr (Or.inr (Or.inr hdiffer))⟩

/-- Associated data of 4 GiB reach CNG as none at all, so the box opens without them. -/
theorem aes_gcm_long_aad_not_bound :
    ∃ log, Runs cngSystem
      (zeroKey.sealThenOpen sevens (List.replicate (2^32) 0) [2, 3] sevens []) []
      (.ok (some [2, 3])) log ∧ ([] : Bytes) ≠ List.replicate (2^32) 0 := by
  have heffective : effectiveAad (List.replicate (2^32) 0) = [] := by
    rw [effectiveAad, length_replicate, Nat.mod_self, take_zero]
  obtain ⟨log, hrun⟩ := zeroKey.sealThenOpen_returns sevens sevens (List.replicate (2^32) 0) []
    [2, 3] (by decide)
  have hsome : AesGcmKey.opened sevens (List.replicate (2^32) 0) [2, 3] sevens [] = some [2, 3] := by
    rw [AesGcmKey.opened, heffective]
    rfl
  rw [hsome] at hrun
  refine ⟨log, hrun, ?_⟩
  intro h
  have hlength := congrArg List.length h
  rw [length_replicate, length_nil] at hlength
  omega

end WindowsErg.Crypto
