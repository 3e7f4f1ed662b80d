import WindowsErg.GuardedRun
import WindowsErg.UnicodeText

/-! Paths of the NT namespace as paths of drives, `src/path/mod.rs`. Positions count the bytes of
UTF-8. -/
namespace WindowsErg.Path
open List TextScan ByteCodec UnicodeText GuardedRun Guarded

def devicePrefix : Text := ['\\', 'D', 'e', 'v', 'i', 'c', 'e', '\\']

def ntAliasPrefix : Text := ['\\', '?', '?', '\\']

def systemRootPrefix : Text :=
  ['\\', 'S', 'y', 's', 't', 'e', 'm', 'R', 'o', 'o', 't', '\\']

@[ext]
structure Drive where
  letter : Char
  alpha : letter.isAlpha = true
  deriving DecidableEq

/-- `HashMap<String, char>`; the characters are letters of drives. -/
abbrev DeviceMap := Text → Option Drive

def DeviceMap.insert (map : DeviceMap) (root : Text) (drive : Drive) : DeviceMap :=
  Function.update map root (some drive)

def isAsciiAlphabetic (b : UInt8) : Bool := (0x41 ≤ b && b ≤ 0x5A) || (0x61 ≤ b && b ≤ 0x7A)

def isDosDrivePath (path : Text) : Bool :=
  match encodeUtf8 path with
  | first :: second :: _ => isAsciiAlphabetic first && second == 0x3A
  | _ => false

def stripPrefix (front s : Text) : Option Text :=
  if front <+: s then some (s.drop front.length) else none

/-- `&s[..n]`, with `n` in bytes. -/
def strTo (s : Text) (n : ℕ) : Guarded Text := do
  check ((takeBytes n s).isSome = true) .outOfRange
  pure ((takeBytes n s).getD [])

/-- `&s[n..]`, with `n` in bytes. -/
def strFrom (s : Text) (n : ℕ) : Guarded Text := do
  check ((dropBytes n s).isSome = true) .outOfRange
  pure ((dropBytes n s).getD [])

/-- The branch for paths below `\Device\`; `rest` is the input behind that. -/
def deviceToDos (deviceMap : DeviceMap) (input rest out : Text) : Guarded (Bool × Text) := do
  let rootLen := (findByte '\\' rest).getD (utf8Len rest)
  let deviceRoot ← strTo input (utf8Len devicePrefix+rootLen)
  match deviceMap deviceRoot with
  | none => pure (false, out)
  | some drive =>
    let out := out ++ [drive.letter, ':']
    if rootLen < utf8Len rest then do
      let tail ← strFrom rest rootLen
      pure (true, out ++ tail)
    else pure (true, out ++ ['\\'])

def ntPathToDosInto (deviceMap : DeviceMap) (systemRoot : Option (List UInt16)) (input out : Text) :
    Guarded (Bool × Text) :=
  -- `out.clear()`
  let out := out.take 0
  if input = [] then pure (false, out)
  else if isDosDrivePath input then pure (true, out ++ input)
  else
    match stripPrefix ntAliasPrefix input with
    | some rest => if isDosDrivePath rest then pure (true, out ++ rest) else pure (false, out)
    | none =>
      match stripPrefix systemRootPrefix input with
      | some rest =>
        match systemRoot with
        | none => pure (false, out)
        | some windir => pure (true, out ++ decodeUtf16Lossy windir ++ ['\\'] ++ rest)
      | none =>
        match stripPrefix devicePrefix input with
        | some rest => deviceToDos deviceMap input rest out
        | none => pure (false, out)

theorem strTo_eq {s t : Text} {n : ℕ} (h : takeBytes n s = some t) : strTo s n = pure t := by
  rw [strTo, h]
  exact check_bind Option.isSome_some _ _

theorem strFrom_eq {s t : Text} {n : ℕ} (h : dropBytes n s = some t) : strFrom s n = pure t := by
  rw [strFrom, h]
  exact check_bind Option.isSome_some _ _

theorem isAlpha_iff (c : Char) : c.isAlpha = true ↔
    (65 ≤ c.toNat ∧ c.toNat ≤ 90) ∨ (97 ≤ c.toNat ∧ c.toNat ≤ 122) := by
  change (decide (65 ≤ c.val ∧ c.val ≤ 90) || decide (97 ≤ c.val) && decide (c.val ≤ 122)) = true ↔ _
  simp only [Bool.or_eq_true, Bool.and_eq_true, decide_eq_true_eq, UInt32.le_iff_toNat_le]
  exact Iff.rfl

theorem isAsciiAlphabetic_iff (b : UInt8) : isAsciiAlphabetic b = true ↔
    (65 ≤ b.toNat ∧ b.toNat ≤ 90) ∨ (97 ≤ b.toNat ∧ b.toNat ≤ 122) := by
  simp only [isAsciiAlphabetic, Bool.or_eq_true, Bool.and_eq_true, decide_eq_true_eq,
    UInt8.le_iff_toNat_le]
  exact Iff.rfl

theorem toNat_charOfNat {n : ℕ} (h : n < 0xD800) : (Char.ofNat n).toNat = n := by
  rw [Char.ofNat, dif_pos (.inl h)]
  rfl

theorem isDosDrivePath_iff (path : Text) :
    isDosDrivePath path = true ↔ ∃ (drive : Drive) (rest : Text),
      path = drive.letter :: ':' :: rest := by
  constructor
  · intro h
    unfold isDosDrivePath at h
    split at h
    · rename_i first second rest hbytes
      rw [Bool.and_eq_true, isAsciiAlphabetic_iff, beq_iff_eq] at h
      obtain ⟨hfirst, rfl⟩ := h
      obtain ⟨s, rfl, hs⟩ := (encodeUtf8_eq_cons_iff (by omega)).mp hbytes
      obtain ⟨t, rfl, -⟩ := (encodeUtf8_eq_cons_iff (by decide)).mp hs
      have hletter : (Char.ofNat first.toNat).isAlpha = true := by
        rw [isAlpha_iff, toNat_charOfNat (by omega)]
        exact hfirst
      exact ⟨⟨_, hletter⟩, t, rfl⟩
    · cases h
  · rintro ⟨⟨letter, halpha⟩, rest, rfl⟩
    have hletter := (isAlpha_iff letter).mp halpha
    have hbyte : (UInt8.ofNat letter.toNat).toNat = letter.toNat := toNat_byte (by omega)
    have hbytes : encodeUtf8 (letter :: ':' :: rest) =
        UInt8.ofNat letter.toNat :: 0x3A :: encodeUtf8 rest := by
      refine (encodeUtf8_eq_cons_iff (by omega)).mpr ⟨':' :: rest, ?_, ?_⟩
      · rw [hbyte, Char.ofNat_toNat]
      · exact (encodeUtf8_eq_cons_iff (by decide)).mpr ⟨rest, rfl, rfl⟩
    rw [isDosDrivePath, hbytes]
    rw [Bool.and_eq_true, isAsciiAlphabetic_iff, hbyte]
    exact ⟨hletter, rfl⟩

theorem isDosDrivePath_cons (drive : Drive) (rest : Text) :
    isDosDrivePath (drive.letter :: ':' :: rest) = true :=
  (isDosDrivePath_iff _).mpr ⟨drive, rest, rfl⟩

theorem isDosDrivePath_separator (rest : Text) : isDosDrivePath ('\\' :: rest) = false := by
  apply Bool.eq_false_iff.mpr
  intro h
  obtain ⟨drive, rest', hpath⟩ := (isDosDrivePath_iff _).mp h
  have halpha := drive.alpha
  rw [← (List.cons.inj hpath).1] at halpha
  cases halpha

theorem stripPrefix_eq_some_iff {front s rest : Text} :
    stripPrefix front s = some rest ↔ s = front ++ rest := by
  unfold stripPrefix
  split
  · rename_i h
    obtain ⟨t, rfl⟩ := h
    rw [drop_left, Option.some.injEq, append_cancel_left_eq, eq_comm]
  · rename_i h
    refine iff_of_false nofun ?_
    rintro rfl
    exact h (prefix_append front rest)

theorem stripPrefix_append (front rest : Text) : stripPrefix front (front ++ rest) = some rest :=
  stripPrefix_eq_some_iff.mpr rfl

def rooted (tail : Text) : Text := if tail = [] then ['\\'] else tail

section Branches
variable (deviceMap : DeviceMap) (systemRoot : Option (List UInt16)) (out : Text)

theorem ntPathToDosInto_drive {input : Text} (h : isDosDrivePath input = true) :
    ntPathToDosInto deviceMap systemRoot input out = pure (true, input) := by
  have hne : input ≠ [] := by
    rintro rfl
    cases h
  unfold ntPathToDosInto
  dsimp only
  rw [if_neg hne, if_pos h]
  rfl

theorem ntPathToDosInto_alias (rest : Text) :
    ntPathToDosInto deviceMap systemRoot (ntAliasPrefix ++ rest) out =
      pure (if isDosDrivePath rest then (true, rest) else (false, [])) := by
  have hne : ntAliasPrefix ++ rest ≠ [] := cons_ne_nil _ _
  have hdrive : isDosDrivePath (ntAliasPrefix ++ rest) = false := isDosDrivePath_separator _
  unfold ntPathToDosInto
  dsimp only
  rw [if_neg hne, hdrive, if_neg Bool.false_ne_true, stripPrefix_append]
  dsimp only
  split
  · rfl
  · rfl

theorem ntPathToDosInto_systemRoot (rest : Text) :
    ntPathToDosInto deviceMap systemRoot (systemRootPrefix ++ rest) out =
      pure (systemRoot.elim (false, []) fun windir =>
        (true, decodeUtf16Lossy windir ++ '\\' :: rest)) := by
  have hne : systemRootPrefix ++ rest ≠ [] := cons_ne_nil _ _
  have hdrive : isDosDrivePath (systemRootPrefix ++ rest) = false := isDosDrivePath_separator _
  have halias : stripPrefix ntAliasPrefix (systemRootPrefix ++ rest) = none :=
    if_neg (by simp [ntAliasPrefix, systemRootPrefix])
  unfold ntPathToDosInto
  dsimp only
  rw [if_neg hne, hdrive, if_neg Bool.false_ne_true, halias, stripPrefix_append]
  cases systemRoot with
  | none => rfl
  | some windir =>
    dsimp only
    rw [take_zero, nil_append, append_assoc]
    rfl

theorem deviceToDos_split {front tail : Text} (hfront : '\\' ∉ front) (htail : EndsOrAt '\\' tail) :
    deviceToDos deviceMap (devicePrefix ++ (front ++ tail)) (front ++ tail) [] =
      pure ((deviceMap (devicePrefix ++ front)).elim (false, []) fun drive =>
        (true, drive.letter :: ':' :: rooted tail)) := by
  have hroot : strTo (devicePrefix ++ (front ++ tail)) (utf8Len devicePrefix+utf8Len front) =
      pure (devicePrefix ++ front) := by
    have htake := takeBytes_append (devicePrefix ++ front) tail
    rw [utf8Len_append, append_assoc] at htake
    exact strTo_eq htake
  rw [deviceToDos, findByte_append hfront htail, hroot, pure_bind]
  cases deviceMap (devicePrefix ++ front) with
  | none => rfl
  | some drive =>
    dsimp only
    unfold rooted
    by_cases hempty : tail = []
    · subst hempty
      rw [append_nil, if_neg (lt_irrefl _), if_pos rfl]
      rfl
    · have hlt : utf8Len front < utf8Len (front ++ tail) := by
        obtain ⟨c, rest, rfl⟩ := exists_cons_of_ne_nil hempty
        have hpos := Char.utf8Size_pos c
        rw [utf8Len_append, utf8Len_cons]
        omega
      have hdrop := strFrom_eq (dropBytes_append front tail)
      rw [if_pos hlt, hdrop, pure_bind, if_neg hempty]
      rfl

theorem ntPathToDosInto_device {front tail : Text} (hfront : '\\' ∉ front)
    (htail : EndsOrAt '\\' tail) :
    ntPathToDosInto deviceMap systemRoot (devicePrefix ++ (front ++ tail)) out =
      pure ((deviceMap (devicePrefix ++ front)).elim (false, []) fun drive =>
        (true, drive.letter :: ':' :: rooted tail)) := by
  have hne : devicePrefix ++ (front ++ tail) ≠ [] := cons_ne_nil _ _
  have hdrive : isDosDrivePath (devicePrefix ++ (front ++ tail)) = false :=
    isDosDrivePath_separator _
  have halias : stripPrefix ntAliasPrefix (devicePrefix ++ (front ++ tail)) = none :=
    if_neg (by simp [ntAliasPrefix, devicePrefix])
  have hsystem : stripPrefix systemRootPrefix (devicePrefix ++ (front ++ tail)) = none :=
    if_neg (by simp [systemRootPrefix, devicePrefix])
  rw [← deviceToDos_split deviceMap hfront htail]
  unfold ntPathToDosInto
  dsimp only
  rw [if_neg hne, hdrive, if_neg Bool.false_ne_true, halias, hsystem, stripPrefix_append]
  rfl

theorem ntPathToDosInto_other {input : Text} (hdrive : isDosDrivePath input = false)
    (halias : ¬ ntAliasPrefix <+: input) (hsystem : ¬ systemRootPrefix <+: input)
    (hdevice : ¬ devicePrefix <+: input) :
    ntPathToDosInto deviceMap systemRoot input out = pure (false, []) := by
  unfold ntPathToDosInto stripPrefix
  dsimp only
  rw [if_neg halias, if_neg hsystem, if_neg hdevice, hdrive, if_neg Bool.false_ne_true]
  split
  · rfl
  · rfl

end Branches

inductive Converted (deviceMap : DeviceMap) (systemRoot : Option (List UInt16)) (input : Text) :
    Text → Prop
  | unchanged : Converted deviceMap systemRoot input input
  | unwrapped (rest : Text) (hinput : input = ntAliasPrefix ++ rest) :
    Converted deviceMap systemRoot input rest
  | joined (windir : List UInt16) (rest : Text) (hroot : systemRoot = some windir)
    (hinput : input = systemRootPrefix ++ rest) :
    Converted deviceMap systemRoot input (decodeUtf16Lossy windir ++ '\\' :: rest)
  | mapped (root tail : Text) (drive : Drive) (hroot : deviceMap root = some drive)
    (hinput : input = root ++ tail) (htail : EndsOrAt '\\' tail) :
    Converted deviceMap systemRoot input (drive.letter :: ':' :: rooted tail)

variable (deviceMap : DeviceMap) (systemRoot : Option (List UInt16))

theorem ntPathToDosInto_cases (input out : Text) :
    ntPathToDosInto deviceMap systemRoot input out = pure (false, []) ∨
      ∃ path, ntPathToDosInto deviceMap systemRoot input out = pure (true, path) ∧
        Converted deviceMap systemRoot input path ∧
        (isDosDrivePath path = true ∨ ∃ windir rest, systemRoot = some windir ∧
          path = decodeUtf16Lossy windir ++ rest) := by
  by_cases hdrive : isDosDrivePath input = true
  · exact .inr ⟨input, ntPathToDosInto_drive _ _ _ hdrive, .unchanged, .inl hdrive⟩
  by_cases halias : ntAliasPrefix <+: input
  · obtain ⟨rest, rfl⟩ := halias
    rw [ntPathToDosInto_alias]
    split
    · rename_i hrest
      exact .inr ⟨rest, rfl, .unwrapped rest rfl, .inl hrest⟩
    · exact .inl rfl
  by_cases hsystem : systemRootPrefix <+: input
  · obtain ⟨rest, rfl⟩ := hsystem
    rw [ntPathToDosInto_systemRoot]
    cases hroot : systemRoot with
    | none => exact .inl rfl
    | some windir => exact .inr ⟨_, rfl, .joined windir rest rfl rfl, .inr ⟨windir, _, rfl, rfl⟩⟩
  by_cases hdevice : devicePrefix <+: input
  · obtain ⟨rest, rfl⟩ := hdevice
    obtain ⟨front, tail, rfl, hfront, htail⟩ := exists_split '\\' rest
    rw [ntPathToDosInto_device _ _ _ hfront htail]
    cases hroot : deviceMap (devicePrefix ++ front) with
    | none => exact .inl rfl
    | some drive =>
      refine .inr ⟨_, rfl, .mapped (devicePrefix ++ front) tail drive hroot ?_ htail,
        .inl (isDosDrivePath_cons drive _)⟩
      rw [append_assoc]
  · exact .inl (ntPathToDosInto_other _ _ _ (Bool.eq_false_iff.mpr hdrive) halias hsystem hdevice)

theorem isDosDrivePath_append {path : Text} (h : isDosDrivePath path = true) (rest : Text) :
    isDosDrivePath (path ++ rest) = true := by
  obtain ⟨drive, tail, rfl⟩ := (isDosDrivePath_iff path).mp h
  exact isDosDrivePath_cons drive (tail ++ rest)

/-- The conversion gives nothing, or a path with a drive that is its own conversion and comes from
the input in one of the four ways. -/
theorem nt_path_to_dos_sound (hroot : ∀ windir, systemRoot = some windir →
    isDosDrivePath (decodeUtf16Lossy windir) = true) (input out : Text) :
    (ntPathToDosInto deviceMap systemRoot input out).outcome = .ok (false, []) ∨
      ∃ (drive : Drive) (rest : Text),
        (ntPathToDosInto deviceMap systemRoot input out).outcome =
          .ok (true, drive.letter :: ':' :: rest) ∧
        (∀ out', (ntPathToDosInto deviceMap systemRoot (drive.letter :: ':' :: rest) out').outcome =
          .ok (true, drive.letter :: ':' :: rest)) ∧
        Converted deviceMap systemRoot input (drive.letter :: ':' :: rest) := by
  obtain hfalse | ⟨path, htrue, hconverted, hpath⟩ :=
    ntPathToDosInto_cases deviceMap systemRoot input out
  · left
    rw [hfalse, outcome_pure]
  · right
    have hdrive : isDosDrivePath path = true := by
      obtain hdrive | ⟨windir, rest, hwindir, rfl⟩ := hpath
      · exact hdrive
      · exact isDosDrivePath_append (hroot windir hwindir) rest
    obtain ⟨drive, rest, rfl⟩ := (isDosDrivePath_iff path).mp hdrive
    refine ⟨drive, rest, ?_, fun out' => ?_, hconverted⟩
    · rw [htrue, outcome_pure]
    · rw [ntPathToDosInto_drive _ _ _ hdrive, outcome_pure]

theorem nt_path_to_dos_sound_system_root :
    ∃ (drive : Drive) (rest : Text),
      (ntPathToDosInto (fun _ => none) (some [0x43, 0x3A]) (systemRootPrefix ++ ['a']) []).outcome =
          .ok (true, drive.letter :: ':' :: rest) ∧
        Converted (fun _ => none) (some [0x43, 0x3A]) (systemRootPrefix ++ ['a'])
          (drive.letter :: ':' :: rest) := by
  have hroot (windir : List UInt16) (h : some [0x43, 0x3A] = some windir) :
      isDosDrivePath (decodeUtf16Lossy windir) = true := by
    cases h
    decide
  obtain hfalse | ⟨drive, rest, htrue, -, hconverted⟩ :=
    nt_path_to_dos_sound (fun _ => none) (some [0x43, 0x3A]) hroot (systemRootPrefix ++ ['a']) []
  · rw [ntPathToDosInto_systemRoot, outcome_pure] at hfalse
    cases hfalse
  · exact ⟨drive, rest, htrue, hconverted⟩

end WindowsErg.Path
