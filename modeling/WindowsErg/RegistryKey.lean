import WindowsErg.SecurityTarget

/-! Registry keys and their security operations, `src/registry/key.rs`, `builder.rs` and
`src/security/backends/registry.rs`. -/
namespace WindowsErg.Registry
open List TextScan Security

inductive Hive where
  | classesRoot
  | currentUser
  | localMachine
  | users
  | currentConfig
  deriving DecidableEq, Repr

def Hive.asShortName : Hive → Text
  | .classesRoot => "HKCR".toList
  | .currentUser => "HKCU".toList
  | .localMachine => "HKLM".toList
  | .users => "HKU".toList
  | .currentConfig => "HKCC".toList

inductive Wow64View where
  | key32
  | key64
  deriving DecidableEq, Repr

def Wow64View.toSamFlags : Wow64View → UInt32
  | .key32 => 0x0200
  | .key64 => 0x0100

inductive Access where
  | read
  | write
  | readWrite
  | allAccess
  deriving DecidableEq, Repr

def keyRead : UInt32 := 0x20019

def keyWrite : UInt32 := 0x20006

def Access.toSamFlags : Access → UInt32
  | .read => keyRead
  | .write => keyWrite
  | .readWrite => keyRead ||| keyWrite
  | .allAccess => 0xF003F

def keyNames (subkey : Text) : List Text := if subkey = [] then [] else subkey.splitOn '\\'

def cText (s : Text) : Text := s.takeWhile (· ≠ Char.ofNat 0)

/-- Which key object a path of names leads to in each view, and what the system's functions answer
about the keys. Names are compared without regard to case. -/
structure KeyStore (κ δ : Type) where
  defaultView : Wow64View
  resolve : Wow64View → Hive → List Text → Option κ
  resolve_ignoreCase : ∀ view hive names names',
    names.map (List.map Char.toLower) = names'.map (List.map Char.toLower) →
      resolve view hive names = resolve view hive names'
  permits : κ → UInt32 → Bool
  api : SddlApi δ
  getSecurityInfo : κ → UInt32
  descriptorText : κ → Except UInt32 Text
  setSecurityInfo : κ → δ → SecurityInformation → UInt32

variable {κ δ : Type}

def viewOf (defaultView : Wow64View) (sam : UInt32) : Wow64View :=
  if sam &&& 0x0100 ≠ 0 then .key64 else if sam &&& 0x0200 ≠ 0 then .key32 else defaultView

def errorFileNotFound : UInt32 := 2

def errorAccessDenied : UInt32 := 5

def KeyStore.openKeyEx (registry : KeyStore κ δ) (hive : Hive) (subkey : Text) (sam : UInt32) :
    Except UInt32 κ :=
  match registry.resolve (viewOf registry.defaultView sam) hive (keyNames (cText subkey)) with
  | none => .error errorFileNotFound
  | some key => if registry.permits key sam then .ok key else .error errorAccessDenied

inductive RegistryError where
  | invalidParameter (parameter reason : Text)
  | keyNotFound (path : Text)
  | windowsApi (errorCode : UInt32) (context : Option Text)
  deriving DecidableEq

/-- The value operations of a key act on `handle`. -/
structure RegistryKey (κ : Type) where
  handle : κ
  hive : Option Hive
  subkey : Option Text

def RegistryKey.open (registry : KeyStore κ δ) (hive : Hive) (subkey : Text) :
    Except RegistryError (RegistryKey κ) :=
  match registry.openKeyEx hive subkey keyRead with
  | .error code =>
    if code = errorFileNotFound then .error (.keyNotFound subkey)
    else .error (.windowsApi code none)
  | .ok handle => .ok ⟨handle, some hive, some subkey⟩

structure RegistryKeyBuilder where
  hive : Option Hive := none
  path : Option Text := none
  access : Access := .read
  wow64 : Option Wow64View := none

def RegistryKeyBuilder.samFlags (builder : RegistryKeyBuilder) : UInt32 :=
  match builder.wow64 with
  | none => builder.access.toSamFlags
  | some wow64 => builder.access.toSamFlags ||| wow64.toSamFlags

def RegistryKeyBuilder.open (registry : KeyStore κ δ) (builder : RegistryKeyBuilder) :
    Except RegistryError (RegistryKey κ) :=
  match builder.hive, builder.path with
  | none, _ =>
    .error (.invalidParameter "hive".toList "Registry hive must be specified".toList)
  | some _, none =>
    .error (.invalidParameter "path".toList "Registry path must be specified".toList)
  | some hive, some path =>
    match registry.openKeyEx hive path builder.samFlags with
    | .error code =>
      if code = errorFileNotFound then .error (.keyNotFound path)
      else .error (.windowsApi code (some "RegOpenKeyExW".toList))
    | .ok handle => .ok ⟨handle, some hive, some path⟩

def hiveNames : List (Text × Hive) := [
  ("HKEY_LOCAL_MACHINE".toList, .localMachine), ("HKLM".toList, .localMachine),
  ("HKEY_CURRENT_USER".toList, .currentUser), ("HKCU".toList, .currentUser),
  ("HKEY_CLASSES_ROOT".toList, .classesRoot), ("HKCR".toList, .classesRoot),
  ("HKEY_USERS".toList, .users), ("HKU".toList, .users),
  ("HKEY_CURRENT_CONFIG".toList, .currentConfig), ("HKCC".toList, .currentConfig)]

/-- `path.replace('/', "\\")`. -/
def normalizeSlashes (path : Text) : Text := path.map fun c => if c = '/' then '\\' else c

def matchHive (normalized : Text) (entry : Text × Hive) : Option (Hive × Text) :=
  let upper := normalized.map Char.toUpper
  if upper = entry.1 then some (entry.2, [])
  else if (entry.1 ++ ['\\']).isPrefixOf upper then
    some (entry.2, normalized.drop (entry.1.length+1))
  else none

def parseRegistryPath (path : Text) : Except TargetError (Hive × Text) :=
  if (trim path).isEmpty then
    .error (.invalidParameter "path".toList "registry path cannot be empty".toList)
  else
    match hiveNames.findSome? (matchHive (normalizeSlashes path)) with
    | some found => .ok found
    | none => .error (.invalidParameter "path".toList
        "registry path must start with HKLM/HKCU/HKCR/HKU/HKCC".toList)

def openRegistryKey (registry : KeyStore κ δ) (hive : Hive) (subkey : Text) (samDesired : UInt32) :
    Except TargetError κ :=
  match registry.openKeyEx hive subkey samDesired with
  | .error code => .error (mapRegistrySecurityStatus subkey "RegOpenKeyExW".toList code)
  | .ok key => .ok key

abbrev Acting (κ α : Type) := ExceptT TargetError (StateM (List κ)) α

def actOn (key : κ) : Acting κ Unit := modify (· ++ [key])

def readControlRight : UInt32 := 0x00020000

def writeDacRight : UInt32 := 0x00040000

def writeOwnerRight : UInt32 := 0x00080000

def readDescriptor (registry : KeyStore κ δ) (path : Text) : Acting κ SecurityDescriptor := do
  let (hive, subkey) ← liftExcept (parseRegistryPath path)
  let key ← liftExcept (openRegistryKey registry hive subkey readControlRight)
  actOn key
  let status := registry.getSecurityInfo key
  if status ≠ 0 then throw (mapRegistrySecurityStatus path "GetSecurityInfo".toList status)
  match registry.descriptorText key with
  | .error code => throw (.windowsApi code
      "ConvertSecurityDescriptorToStringSecurityDescriptorW".toList)
  | .ok sddl =>
    match Security.Registry.sddlToDescriptor path sddl with
    | .error e => throw (.sddl e)
    | .ok descriptor => pure descriptor

def writeAccess (descriptor : SecurityDescriptor) : UInt32 :=
  if descriptor.owner.isSome ∨ descriptor.group.isSome then
    readControlRight ||| writeDacRight ||| writeOwnerRight
  else readControlRight ||| writeDacRight

def writeDescriptor (registry : KeyStore κ δ) (path : Text) (descriptor : SecurityDescriptor) :
    Acting κ Unit := do
  let (hive, subkey) ← liftExcept (parseRegistryPath path)
  let key ← liftExcept (openRegistryKey registry hive subkey (writeAccess descriptor))
  let (generated, information) ← liftExcept (generatedDescriptor registry.api .other descriptor)
  actOn key
  let status := registry.setSecurityInfo key generated information
  if status ≠ 0 then throw (mapRegistrySecurityStatus path "SetSecurityInfo".toList status)

namespace RegistryKey
variable (key : RegistryKey κ)

def missingMetadata (reason : Text) : TargetError :=
  .unsupported "registry_key".toList "security_target".toList (some reason)

def securityTarget : Except TargetError Text :=
  match key.hive, key.subkey with
  | none, _ =>
    .error (missingMetadata "registry key metadata is unavailable for this handle".toList)
  | some _, none => .error (missingMetadata "registry key path metadata is unavailable".toList)
  | some hive, some [] => .ok hive.asShortName
  | some hive, some subkey => .ok (hive.asShortName ++ '\\' :: subkey)

def securityDescriptor (registry : KeyStore κ δ) : Acting κ SecurityDescriptor := do
  let path ← liftExcept key.securityTarget
  readDescriptor registry path

def setSecurityDescriptor (registry : KeyStore κ δ) (descriptor : SecurityDescriptor) :
    Acting κ Unit := do
  let path ← liftExcept key.securityTarget
  writeDescriptor registry path descriptor

def applyPermissions (registry : KeyStore κ δ) (plan : PermissionEditPlan) (mode : ApplyMode) :
    Acting κ DescriptorEditResult := do
  let path ← liftExcept key.securityTarget
  plan.executeAgainstTarget (readDescriptor registry path) (writeDescriptor registry path) mode

end RegistryKey

theorem trim_ne_nil {c : Char} (s : Text) (h : isWhitespace c = false) : trim (c :: s) ≠ [] := by
  unfold trim
  rw [dropWhile_cons_of_neg (by simp [h])]
  intro hnil
  have hall := rdropWhile_eq_nil_iff.mp hnil c mem_cons_self
  cases h.symm.trans hall

def targetPath (hive : Hive) : Text → Text
  | [] => hive.asShortName
  | c :: subkey => hive.asShortName ++ '\\' :: c :: subkey

theorem securityTarget_eq (handle : κ) (hive : Hive) (subkey : Text) :
    RegistryKey.securityTarget ⟨handle, some hive, some subkey⟩ = .ok (targetPath hive subkey) := by
  cases subkey with
  | nil => rfl
  | cons c subkey => rfl

theorem findSome_matchHive (hive : Hive) (subkey : Text) :
    hiveNames.findSome? (matchHive (hive.asShortName ++ '\\' :: subkey)) = some (hive, subkey) := by
  cases hive <;> rfl

theorem parseRegistryPath_targetPath (hive : Hive) (subkey : Text) :
    parseRegistryPath (targetPath hive subkey) = .ok (hive, normalizeSlashes subkey) := by
  cases subkey with
  | nil => cases hive <;> rfl
  | cons c subkey =>
    have htrim : (trim (targetPath hive (c :: subkey))).isEmpty = false := by
      rw [isEmpty_eq_false_iff]
      cases hive <;> exact trim_ne_nil _ (by decide)
    have hnormal : normalizeSlashes (targetPath hive (c :: subkey)) =
        hive.asShortName ++ '\\' :: normalizeSlashes (c :: subkey) := by
      cases hive <;> rfl
    unfold parseRegistryPath
    rw [htrim, hnormal, findSome_matchHive]
    rfl

variable {path : Text}

theorem normalizeSlashes_eq_self (h : '/' ∉ path) : normalizeSlashes path = path := by
  unfold normalizeSlashes
  conv_rhs => rw [← map_id path]
  apply map_congr_left
  intro c hc
  have hne : c ≠ '/' := by
    intro he
    exact h (he ▸ hc)
  rw [if_neg hne]
  rfl

theorem cText_eq_self {s : Text} (h : Char.ofNat 0 ∉ s) : cText s = s := by
  unfold cText
  rw [takeWhile_eq_self_iff]
  intro c hc
  simp only [ne_eq, decide_not, Bool.not_eq_eq_eq_not, Bool.not_true, decide_eq_false_iff_not]
  exact fun he => h (he ▸ hc)

variable (defaultView : Wow64View) {sam : UInt32}

theorem viewOf_of_clear (h64 : sam &&& 0x0100 = 0) (h32 : sam &&& 0x0200 = 0) :
    viewOf defaultView sam = defaultView := by
  rw [viewOf, if_neg (not_not.mpr h64), if_neg (not_not.mpr h32)]

theorem viewOf_key64 (h64 : sam &&& 0x0100 ≠ 0) : viewOf defaultView sam = .key64 := by
  rw [viewOf, if_pos h64]

theorem viewOf_key32 (h64 : sam &&& 0x0100 = 0) (h32 : sam &&& 0x0200 ≠ 0) :
    viewOf defaultView sam = .key32 := by
  rw [viewOf, if_neg (not_not.mpr h64), if_pos h32]

theorem viewOf_samFlags (builder : RegistryKeyBuilder) :
    viewOf defaultView builder.samFlags = builder.wow64.getD defaultView := by
  obtain ⟨hive, path, access, wow64⟩ := builder
  cases wow64 with
  | none =>
    change viewOf defaultView access.toSamFlags = defaultView
    cases access <;> exact viewOf_of_clear defaultView (by decide) (by decide)
  | some view =>
    change viewOf defaultView (access.toSamFlags ||| view.toSamFlags) = view
    cases view with
    | key32 => cases access <;> exact viewOf_key32 defaultView (by decide) (by decide)
    | key64 => cases access <;> exact viewOf_key64 defaultView (by decide)

theorem viewOf_readControl : viewOf defaultView readControlRight = defaultView :=
  viewOf_of_clear defaultView (by decide) (by decide)

theorem viewOf_writeAccess (descriptor : SecurityDescriptor) :
    viewOf defaultView (writeAccess descriptor) = defaultView := by
  unfold writeAccess
  split_ifs
  · exact viewOf_of_clear defaultView (by decide) (by decide)
  · exact viewOf_of_clear defaultView (by decide) (by decide)

def OnlyOn {α : Type} (key : κ) (p : Acting κ α) : Prop :=
  ∀ log, (∀ k ∈ log, k = key) → ∀ k ∈ (p.run.run log).2, k = key

section OnlyOn
variable {α β : Type} {key : κ}

theorem onlyOn_pure (a : α) : OnlyOn key (pure a : Acting κ α) := fun _ hlog => hlog

theorem onlyOn_throw (e : TargetError) : OnlyOn key (throw e : Acting κ α) := fun _ hlog => hlog

theorem onlyOn_actOn : OnlyOn key (actOn key) := by
  intro log hlog k hk
  have hmem : k ∈ log ++ [key] := hk
  rcases mem_append.mp hmem with hk | hk
  · exact hlog k hk
  · exact mem_singleton.mp hk

theorem onlyOn_bind {p : Acting κ α} {f : α → Acting κ β} (hp : OnlyOn key p)
    (hf : ∀ a, OnlyOn key (f a)) : OnlyOn key (p >>= f) := by
  intro log hlog
  have hfirst := hp log hlog
  rw [ExceptT.run_bind, StateT.run_bind]
  rcases hrun : p.run.run log with ⟨result, log'⟩
  rw [hrun] at hfirst
  cases result with
  | error e => exact hfirst
  | ok a => exact hf a log' hfirst

theorem onlyOn_bind_lift {e : Except TargetError α} {f : α → Acting κ β}
    (hf : ∀ a, e = .ok a → OnlyOn key (f a)) : OnlyOn key (liftExcept e >>= f) := by
  cases e with
  | error e => exact onlyOn_throw e
  | ok a => exact hf a rfl

end OnlyOn

def LeadsTo (registry : KeyStore κ δ) (path : Text) (key : κ) : Prop :=
  ∀ hive subkey sam k, parseRegistryPath path = .ok (hive, subkey) →
    viewOf registry.defaultView sam = registry.defaultView →
    registry.openKeyEx hive subkey sam = .ok k → k = key

variable {registry : KeyStore κ δ}

theorem openRegistryKey_ok {hive : Hive} {subkey : Text} {k : κ}
    (h : openRegistryKey registry hive subkey sam = .ok k) :
    registry.openKeyEx hive subkey sam = .ok k := by
  unfold openRegistryKey at h
  split at h
  · contradiction
  · rename_i key hopen
    rw [hopen, Except.ok.inj h]

theorem readDescriptor_onlyOn {key : κ} (h : LeadsTo registry path key) :
    OnlyOn key (readDescriptor registry path) := by
  apply onlyOn_bind_lift
  rintro ⟨hive, subkey⟩ hparse
  apply onlyOn_bind_lift
  intro k hopen
  have hkey : k = key :=
    h hive subkey _ k hparse (viewOf_readControl _) (openRegistryKey_ok hopen)
  subst hkey
  apply onlyOn_bind onlyOn_actOn
  intro _
  dsimp only
  split
  · exact onlyOn_throw _
  · split
    · exact onlyOn_throw _
    · split
      · exact onlyOn_throw _
      · exact onlyOn_pure _

theorem writeDescriptor_onlyOn {key : κ} (h : LeadsTo registry path key)
    (descriptor : SecurityDescriptor) : OnlyOn key (writeDescriptor registry path descriptor) := by
  apply onlyOn_bind_lift
  rintro ⟨hive, subkey⟩ hparse
  apply onlyOn_bind_lift
  intro k hopen
  have hkey : k = key :=
    h hive subkey _ k hparse (viewOf_writeAccess _ _) (openRegistryKey_ok hopen)
  subst hkey
  apply onlyOn_bind_lift
  rintro ⟨generated, information⟩ -
  apply onlyOn_bind onlyOn_actOn
  intro _
  dsimp only
  split
  · exact onlyOn_throw _
  · exact onlyOn_pure _

theorem executeAgainstTarget_onlyOn {key : κ} {read : Acting κ SecurityDescriptor}
    {write : SecurityDescriptor → Acting κ Unit} (hread : OnlyOn key read)
    (hwrite : ∀ descriptor, OnlyOn key (write descriptor)) (plan : PermissionEditPlan)
    (mode : ApplyMode) : OnlyOn key (plan.executeAgainstTarget read write mode) := by
  apply onlyOn_bind hread
  intro current
  unfold PermissionEditPlan.executeForTarget
  dsimp only
  split
  · split
    · exact onlyOn_bind (hwrite _) fun _ => onlyOn_pure _
    · exact onlyOn_bind (onlyOn_throw _) fun _ => onlyOn_pure _
  · exact onlyOn_pure _

structure SecurityActsOnHandle (registry : KeyStore κ δ) (key : RegistryKey κ) : Prop where
  read : OnlyOn key.handle (key.securityDescriptor registry)
  write : ∀ descriptor, OnlyOn key.handle (key.setSecurityDescriptor registry descriptor)
  apply : ∀ plan mode, OnlyOn key.handle (key.applyPermissions registry plan mode)

theorem securityActsOnHandle_of_leadsTo {handle : κ} {hive : Hive} {subkey : Text}
    (h : LeadsTo registry (targetPath hive subkey) handle) :
    SecurityActsOnHandle registry ⟨handle, some hive, some subkey⟩ := by
  have hpath (path : Text)
      (hp : RegistryKey.securityTarget ⟨handle, some hive, some subkey⟩ = .ok path) :
      LeadsTo registry path handle := by
    rw [securityTarget_eq] at hp
    rwa [← Except.ok.inj hp]
  refine ⟨?_, ?_, ?_⟩
  · apply onlyOn_bind_lift
    intro path hp
    exact readDescriptor_onlyOn (hpath path hp)
  · intro descriptor
    apply onlyOn_bind_lift
    intro path hp
    exact writeDescriptor_onlyOn (hpath path hp) descriptor
  · intro plan mode
    apply onlyOn_bind_lift
    intro path hp
    exact executeAgainstTarget_onlyOn (readDescriptor_onlyOn (hpath path hp))
      (writeDescriptor_onlyOn (hpath path hp)) plan mode

theorem openKeyEx_ok {hive : Hive} {subkey : Text} {k : κ}
    (h : registry.openKeyEx hive subkey sam = .ok k) :
    registry.resolve (viewOf registry.defaultView sam) hive (keyNames (cText subkey)) = some k := by
  unfold KeyStore.openKeyEx at h
  split at h
  · contradiction
  · rename_i key hresolve
    split_ifs at h
    rw [hresolve, Except.ok.inj h]

theorem builderOpen_ok {hive : Hive} {access : Access} {wow64 : Option Wow64View}
    {key : RegistryKey κ}
    (h : RegistryKeyBuilder.open registry ⟨some hive, some path, access, wow64⟩ = .ok key) :
    ∃ handle, key = ⟨handle, some hive, some path⟩ ∧
      registry.resolve (wow64.getD registry.defaultView) hive (keyNames (cText path)) =
        some handle := by
  unfold RegistryKeyBuilder.open at h
  dsimp only at h
  split at h
  · split_ifs at h
  · rename_i handle hopen
    refine ⟨handle, (Except.ok.inj h).symm, ?_⟩
    have hresolve := openKeyEx_ok hopen
    rwa [viewOf_samFlags] at hresolve

theorem leadsTo_of_default {hive : Hive} {handle : κ} (hslash : '/' ∉ path)
    (hhandle : registry.resolve registry.defaultView hive (keyNames (cText path)) = some handle) :
    LeadsTo registry (targetPath hive path) handle := by
  intro hive' subkey sam k hparse hview hopen
  rw [parseRegistryPath_targetPath, normalizeSlashes_eq_self hslash] at hparse
  obtain ⟨rfl, rfl⟩ := Prod.mk.inj (Except.ok.inj hparse)
  have hresolve := openKeyEx_ok hopen
  rw [hview, hhandle] at hresolve
  exact (Option.some.inj hresolve).symm

def lowerNames (names : List Text) : List Text := names.map (List.map Char.toLower)

abbrev PathKey := Wow64View × Hive × List Text

def pathStore (defaultView : Wow64View) : KeyStore PathKey Unit where
  defaultView
  resolve view hive names := some (view, hive, lowerNames names)
  resolve_ignoreCase _ _ _ _ h := congrArg (fun names => some (_, _, names)) h
  permits _ _ := true
  api := ⟨fun _ => .ok (), fun _ => true, fun _ => true, fun _ => true⟩
  getSecurityInfo _ := 0
  descriptorText _ := .ok "D:".toList
  setSecurityInfo _ _ _ := 0

theorem pathStore_openKeyEx (hive : Hive) (subkey : Text) (sam : UInt32) :
    (pathStore defaultView).openKeyEx hive subkey sam =
      .ok (viewOf defaultView sam, hive, lowerNames (keyNames (cText subkey))) := rfl

theorem pathStore_builderOpen (hive : Hive) (path : Text) (access : Access)
    (wow64 : Option Wow64View) :
    RegistryKeyBuilder.open (pathStore defaultView) ⟨some hive, some path, access, wow64⟩ =
      .ok ⟨(wow64.getD defaultView, hive, lowerNames (keyNames (cText path))), some hive,
        some path⟩ := by
  have hview := viewOf_samFlags defaultView ⟨some hive, some path, access, wow64⟩
  unfold RegistryKeyBuilder.open
  dsimp only
  rw [pathStore_openKeyEx, hview]

theorem pathStore_securityDescriptor (handle : PathKey) (hive : Hive) (path : Text) :
    (((RegistryKey.securityDescriptor ⟨handle, some hive, some path⟩
      (pathStore defaultView)).run.run []).2 =
      [(defaultView, hive, lowerNames (keyNames (cText (normalizeSlashes path))))]) := by
  unfold RegistryKey.securityDescriptor
  rw [securityTarget_eq]
  change ((readDescriptor (pathStore defaultView) (targetPath hive path)).run.run []).2 = _
  unfold readDescriptor
  rw [parseRegistryPath_targetPath]
  rfl

theorem map_intercalate {α β : Type} (f : α → β) (sep : List α) (parts : List (List α)) :
    (sep.intercalate parts).map f = (sep.map f).intercalate (parts.map (List.map f)) := by
  induction parts with
  | nil => rfl
  | cons part parts ih =>
    cases parts with
    | nil => simp [List.intercalate]
    | cons next parts =>
      simp only [List.intercalate, map_cons, intersperse_cons_cons, flatten_cons,
        map_append] at ih ⊢
      rw [ih]

theorem lower_eq_of_lowerNames_eq {s t : Text} (hs : s ≠ []) (ht : t ≠ [])
    (h : lowerNames (keyNames s) = lowerNames (keyNames t)) :
    s.map Char.toLower = t.map Char.toLower := by
  rw [keyNames, keyNames, if_neg hs, if_neg ht] at h
  have hback (path : Text) : [Char.toLower '\\'].intercalate (lowerNames (path.splitOn '\\')) =
      path.map Char.toLower := by
    have hpath := map_intercalate Char.toLower ['\\'] (path.splitOn '\\')
    rw [intercalate_splitOn] at hpath
    exact hpath.symm
  rw [← hback s, ← hback t, h]

theorem lowerNames_normalizeSlashes_ne (h : '/' ∈ path) :
    lowerNames (keyNames (normalizeSlashes path)) ≠ lowerNames (keyNames path) := by
  intro he
  have hpath : path ≠ [] := ne_nil_of_mem h
  have hnormal : normalizeSlashes path ≠ [] := by
    unfold normalizeSlashes
    simpa using hpath
  have hlower := lower_eq_of_lowerNames_eq hnormal hpath he
  unfold normalizeSlashes at hlower
  rw [map_map] at hlower
  have hslash := map_inj_left.mp hlower '/' h
  revert hslash
  decide

theorem not_mem_normalizeSlashes {c : Char} (h : c ∉ path) (hc : c ≠ '\\') :
    c ∉ normalizeSlashes path := by
  unfold normalizeSlashes
  rw [mem_map]
  rintro ⟨d, hd, he⟩
  split_ifs at he
  · exact hc he.symm
  · exact h (he ▸ hd)

/-- In every registry the security operations act on the key object of the handle, exactly when
the path has no slash and the key was opened in the default view. -/
theorem registry_security_same_key_iff (defaultView : Wow64View) (hive : Hive) (path : Text)
    (hpath : Char.ofNat 0 ∉ path) (access : Access) (wow64 : Option Wow64View) :
    (∀ (κ δ : Type) (registry : KeyStore κ δ) (key : RegistryKey κ),
      registry.defaultView = defaultView →
      RegistryKeyBuilder.open registry ⟨some hive, some path, access, wow64⟩ = .ok key →
      SecurityActsOnHandle registry key) ↔
      '/' ∉ path ∧ wow64.getD defaultView = defaultView := by
  constructor
  · intro h
    have hopen := pathStore_builderOpen defaultView hive path access wow64
    have hread := (h PathKey Unit (pathStore defaultView) _ rfl hopen).read [] (by simp)
    rw [pathStore_securityDescriptor] at hread
    have hsame := hread _ (mem_singleton_self _)
    have hnul : Char.ofNat 0 ∉ normalizeSlashes path :=
      not_mem_normalizeSlashes hpath (by decide)
    rw [cText_eq_self hnul, cText_eq_self hpath] at hsame
    have hview : defaultView = wow64.getD defaultView := congrArg Prod.fst hsame
    have hnames : lowerNames (keyNames (normalizeSlashes path)) = lowerNames (keyNames path) :=
      congrArg (fun k => k.2.2) hsame
    refine ⟨?_, hview.symm⟩
    intro hslash
    exact lowerNames_normalizeSlashes_ne hslash hnames
  · rintro ⟨hslash, hview⟩ κ δ registry key rfl hopen
    obtain ⟨handle, rfl, hresolve⟩ := builderOpen_ok hopen
    rw [hview] at hresolve
    exact securityActsOnHandle_of_leadsTo (leadsTo_of_default hslash hresolve)

theorem registry_security_same_key_software :
    RegistryKeyBuilder.open (pathStore .key64)
        ⟨some .localMachine, some "SOFTWARE\\Microsoft".toList, .read, some .key64⟩ =
      .ok ⟨(.key64, .localMachine, ["software".toList, "microsoft".toList]), some .localMachine,
        some "SOFTWARE\\Microsoft".toList⟩ ∧
    SecurityActsOnHandle (pathStore .key64)
      ⟨(.key64, .localMachine, ["software".toList, "microsoft".toList]), some .localMachine,
        some "SOFTWARE\\Microsoft".toList⟩ := by
  have hopen : RegistryKeyBuilder.open (pathStore .key64)
      ⟨some .localMachine, some "SOFTWARE\\Microsoft".toList, .read, some .key64⟩ =
        .ok ⟨(.key64, .localMachine, ["software".toList, "microsoft".toList]), some .localMachine,
          some "SOFTWARE\\Microsoft".toList⟩ := by
    rw [pathStore_builderOpen]
    rfl
  have hacts := (registry_security_same_key_iff .key64 .localMachine
    "SOFTWARE\\Microsoft".toList (by decide) .read (some .key64)).mpr ⟨by decide, rfl⟩
  exact ⟨hopen, hacts _ _ (pathStore .key64) _ rfl hopen⟩

/-- A key with a slash in its name, and a key of the 32-bit view: the descriptor that is read is
that of another key. -/
theorem registry_security_reads_other_key :
    RegistryKeyBuilder.open (pathStore .key64)
        ⟨some .localMachine, some "Software\\a/b".toList, .read, none⟩ =
      .ok ⟨(.key64, .localMachine, ["software".toList, "a/b".toList]), some .localMachine,
        some "Software\\a/b".toList⟩ ∧
    ((RegistryKey.securityDescriptor ⟨(.key64, .localMachine, ["software".toList, "a/b".toList]),
        some .localMachine, some "Software\\a/b".toList⟩ (pathStore .key64)).run.run []).2 =
      [(.key64, .localMachine, ["software".toList, "a".toList, "b".toList])] ∧
    RegistryKeyBuilder.open (pathStore .key64)
        ⟨some .localMachine, some "Software".toList, .read, some .key32⟩ =
      .ok ⟨(.key32, .localMachine, ["software".toList]), some .localMachine,
        some "Software".toList⟩ ∧
    ((RegistryKey.securityDescriptor ⟨(.key32, .localMachine, ["software".toList]),
        some .localMachine, some "Software".toList⟩ (pathStore .key64)).run.run []).2 =
      [(.key64, .localMachine, ["software".toList])] := by
  refine ⟨?_, ?_, ?_, ?_⟩
  · rw [pathStore_builderOpen]
    rfl
  · rw [pathStore_securityDescriptor]
    rfl
  · rw [pathStore_builderOpen]
    rfl
  · rw [pathStore_securityDescriptor]
    rfl

end WindowsErg.Registry
