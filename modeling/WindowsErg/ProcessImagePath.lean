import WindowsErg.LetterCase
import WindowsErg.UnicodeText

/-! Image paths of `src/process/types.rs`: three constructors that look their text up in a table of
well-known paths. -/
namespace WindowsErg.Process
open Option List TextScan ByteCodec UnicodeText LetterCase

def commonPaths : List String := [
  "C:\\Windows\\System32\\kernel32.dll",
  "C:\\Windows\\System32\\ntdll.dll",
  "C:\\Windows\\System32\\msvcrt.dll",
  "C:\\Windows\\System32\\advapi32.dll",
  "C:\\Windows\\System32\\user32.dll",
  "C:\\Windows\\System32\\gdi32.dll",
  "C:\\Windows\\System32\\ws2_32.dll",
  "C:\\Windows\\System32\\shell32.dll",
  "C:\\Windows\\System32\\ole32.dll",
  "C:\\Windows\\System32\\oleaut32.dll",
  "C:\\Windows\\System32\\comctl32.dll",
  "C:\\Windows\\System32\\comdlg32.dll",
  "C:\\Windows\\System32\\winmm.dll",
  "C:\\Windows\\System32\\shlwapi.dll",
  "C:\\Windows\\System32\\urlmon.dll",
  "C:\\Windows\\System32\\wininet.dll",
  "C:\\Windows\\System32\\msi.dll",
  "C:\\Windows\\System32\\crypt32.dll",
  "C:\\Windows\\System32\\cryptbase.dll",
  "C:\\Windows\\System32\\cryptnet.dll",
  "C:\\Windows\\System32\\ncrypt.dll",
  "C:\\Windows\\System32\\bcryptprimitives.dll",
  "C:\\Windows\\System32\\secur32.dll",
  "C:\\Windows\\System32\\sspicli.dll",
  "C:\\Windows\\System32\\ntsecapi.dll",
  "C:\\Windows\\System32\\wlanapi.dll",
  "C:\\Windows\\System32\\netapi32.dll",
  "C:\\Windows\\System32\\iphlpapi.dll",
  "C:\\Windows\\System32\\dnsapi.dll",
  "C:\\Windows\\System32\\nsi.dll",
  "C:\\Windows\\System32\\setupapi.dll",
  "C:\\Windows\\System32\\cfgmgr32.dll",
  "C:\\Windows\\System32\\regapi.dll",
  "C:\\Windows\\System32\\opengl32.dll",
  "C:\\Windows\\System32\\services.exe",
  "C:\\Windows\\System32\\lsass.exe",
  "C:\\Windows\\System32\\csrss.exe",
  "C:\\Windows\\System32\\svchost.exe",
  "C:\\Windows\\System32\\rundll32.exe",
  "C:\\Windows\\System32\\cmd.exe",
  "C:\\Windows\\System32\\notepad.exe",
  "C:\\Windows\\System32\\regedit.exe",
  "C:\\Windows\\System32\\conhost.exe",
  "C:\\Windows\\SysWOW64\\kernel32.dll",
  "C:\\Windows\\SysWOW64\\ntdll.dll",
  "C:\\Windows\\SysWOW64\\msvcrt.dll",
  "C:\\Windows\\SysWOW64\\advapi32.dll",
  "C:\\Windows\\SysWOW64\\user32.dll",
  "C:\\Windows\\SysWOW64\\gdi32.dll",
  "C:\\Windows\\SysWOW64\\ws2_32.dll",
  "C:\\Windows\\SysWOW64\\shell32.dll",
  "C:\\Windows\\SysWOW64\\ole32.dll",
  "C:\\Windows\\SysWOW64\\oleaut32.dll",
  "C:\\Windows\\SysWOW64\\comctl32.dll",
  "C:\\Windows\\SysWOW64\\comdlg32.dll",
  "C:\\Windows\\SysWOW64\\crypt32.dll",
  "C:\\Windows\\SysWOW64\\cryptbase.dll",
  "C:\\Windows\\SysWOW64\\secur32.dll",
  "C:\\Windows\\SysWOW64\\setupapi.dll",
  "C:\\Program Files\\",
  "C:\\Program Files (x86)\\",
  "C:\\Windows\\",
  "C:\\Windows\\System32\\",
  "C:\\Windows\\SysWOW64\\"]

/-- The keys of the cache are compared without regard to ASCII case, and of equal keys the last one
counts. -/
def findCachedStr (path : Text) : Option Text :=
  (commonPaths.map String.toList).reverse.find? (eqIgnoreAsciiCase · path)

inductive ImagePath where
  | cached (path : Text)
  | owned (path : Text)
  deriving DecidableEq, Repr

namespace ImagePath

def asStr : ImagePath → Text
  | .cached path => path
  | .owned path => path

/-- `path.trim_end_matches('\0')`. -/
def trimEndNul (path : Text) : Text := path.rdropWhile (· = '\x00')

def fromStr (path : Text) : ImagePath :=
  let path := trimEndNul path
  match findCachedStr path with
  | some found => .cached found
  | none => .owned path

def fromUtf16 (m : LowerMapping) (utf16Data : List UInt16) : ImagePath :=
  let pathStr := trimEndNul (decodeUtf16Lossy utf16Data)
  let pathLower := toLowercase m pathStr
  match findCachedStr pathLower with
  | some found => .cached found
  | none => .owned pathStr

def fromUtf8 (utf8Data : Bytes) : Option ImagePath := do
  let pathStr ← decodeUtf8 utf8Data
  let pathStr := trimEndNul pathStr
  match findCachedStr pathStr with
  | some found => return .cached found
  | none => return .owned pathStr

end ImagePath

theorem ascii_commonPaths : ∀ path ∈ commonPaths, ∀ c ∈ path.toList, Ascii c := by
  simp only [commonPaths, forall_mem_cons, not_mem_nil, false_implies, implies_true, and_true]
  and_intros <;> exact ascii_ofList rfl

theorem ascii_of_mem_keys {key : Text} (h : key ∈ (commonPaths.map String.toList).reverse) :
    ∀ c ∈ key, Ascii c := by
  obtain ⟨path, hpath, rfl⟩ := mem_map.mp (mem_reverse.mp h)
  exact ascii_commonPaths path hpath

theorem findCachedStr_eq_some {path cached : Text} (h : findCachedStr path = some cached) :
    (∀ c ∈ cached, Ascii c) ∧ eqIgnoreAsciiCase cached path = true := by
  have hfound := List.find?_some (p := (eqIgnoreAsciiCase · path)) h
  exact ⟨ascii_of_mem_keys (mem_of_find?_eq_some h), hfound⟩

theorem findCachedStr_of_wide {path : Text} {c : Char} (hmem : c ∈ path) (hwide : ¬ Ascii c) :
    findCachedStr path = none := by
  rw [eq_none_iff_forall_ne_some]
  intro cached hcached
  obtain ⟨hascii, hsame⟩ := findCachedStr_eq_some hcached
  exact hwide (ascii_of_eqIgnoreAsciiCase hsame hascii c hmem)

theorem findCachedStr_toLowercase (m : LowerMapping) (path : Text) :
    findCachedStr (toLowercase m path) = findCachedStr (withoutKelvin path) := by
  rw [findCachedStr, findCachedStr, ← List.head?_filter, ← List.head?_filter]
  apply congrArg List.head?
  apply filter_congr
  intro key hkey
  exact eqIgnoreAsciiCase_toLowercase m (ascii_of_mem_keys hkey) path

namespace ImagePath

theorem fromStr_asStr (path : Text) :
    eqIgnoreAsciiCase (fromStr path).asStr (trimEndNul path) = true := by
  unfold fromStr
  dsimp only
  split
  · rename_i found hfound
    exact (findCachedStr_eq_some hfound).2
  · exact decide_eq_true rfl

theorem fromUtf8_encodeUtf8 (path : Text) : fromUtf8 (encodeUtf8 path) = some (fromStr path) := by
  rw [fromUtf8, decodeUtf8_encodeUtf8, fromStr]
  dsimp only [bind_eq_bind, bind_some]
  split <;> rfl

/-- The text has a Kelvin sign, and with a `k` for it would be in the table. -/
def KelvinCached (path : Text) : Prop :=
  kelvinSign ∈ path ∧ (findCachedStr (withoutKelvin path)).isSome = true

theorem fromUtf16_encodeUtf16 (m : LowerMapping) (path : Text) :
    fromUtf16 m (encodeUtf16 path) = match findCachedStr (withoutKelvin (trimEndNul path)) with
      | some found => .cached found
      | none => .owned (trimEndNul path) := by
  rw [fromUtf16, decodeUtf16Lossy_encodeUtf16, findCachedStr_toLowercase]

theorem fromUtf16_of_not_kelvinCached (m : LowerMapping) {path : Text}
    (h : ¬ KelvinCached (trimEndNul path)) : fromUtf16 m (encodeUtf16 path) = fromStr path := by
  rw [fromUtf16_encodeUtf16, fromStr]
  by_cases hkelvin : kelvinSign ∈ trimEndNul path
  · -- neither lookup finds anything: one text is not ASCII, the other is not in the table
    have hmiss : findCachedStr (withoutKelvin (trimEndNul path)) = none :=
      not_isSome_iff_eq_none.mp fun hsome => h ⟨hkelvin, hsome⟩
    rw [hmiss, findCachedStr_of_wide hkelvin (by decide)]
  · rw [withoutKelvin_of_notMem hkelvin]

theorem fromUtf16_of_kelvinCached (m : LowerMapping) {path : Text}
    (h : KelvinCached (trimEndNul path)) :
    eqIgnoreAsciiCase (fromUtf16 m (encodeUtf16 path)).asStr (trimEndNul path) = false := by
  obtain ⟨hkelvin, hsome⟩ := h
  obtain ⟨cached, hcached⟩ := isSome_iff_exists.mp hsome
  rw [fromUtf16_encodeUtf16, hcached]
  apply Bool.eq_false_of_not_eq_true
  intro hsame
  have hascii := ascii_of_eqIgnoreAsciiCase hsame (findCachedStr_eq_some hcached).1 _ hkelvin
  exact absurd hascii (by decide)

end ImagePath

open ImagePath

/-- Two of the constructors always agree. The third agrees with them exactly if the text is not
one of the table with a Kelvin sign in it. -/
theorem image_path_constructors_agree_iff (m : LowerMapping) (path : Text) :
    fromUtf8 (encodeUtf8 path) = some (fromStr path) ∧
      eqIgnoreAsciiCase (fromStr path).asStr (trimEndNul path) = true ∧
      (fromUtf16 m (encodeUtf16 path) = fromStr path ↔ ¬ KelvinCached (trimEndNul path)) ∧
      (eqIgnoreAsciiCase (fromUtf16 m (encodeUtf16 path)).asStr (trimEndNul path) = true ↔
        ¬ KelvinCached (trimEndNul path)) := by
  have hagree (h : fromUtf16 m (encodeUtf16 path) = fromStr path) :
      eqIgnoreAsciiCase (fromUtf16 m (encodeUtf16 path)).asStr (trimEndNul path) = true := by
    rw [h]
    exact fromStr_asStr path
  have hkelvin (h : eqIgnoreAsciiCase (fromUtf16 m (encodeUtf16 path)).asStr (trimEndNul path) = true) :
      ¬ KelvinCached (trimEndNul path) := by
    intro hcached
    rw [fromUtf16_of_kelvinCached m hcached] at h
    cases h
  refine ⟨fromUtf8_encodeUtf8 path, fromStr_asStr path, ⟨fun h => hkelvin (hagree h), ?_⟩,
    hkelvin, fun h => ?_⟩
  · exact fromUtf16_of_not_kelvinCached m
  · exact hagree (fromUtf16_of_not_kelvinCached m h)

def kelvinPath : Text := "C:\\Windows\\System32\\".toList ++ kelvinSign :: "ernel32.dll".toList

/-- Two constructors keep the sign, and the third gives the path without it. -/
theorem kelvin_path_differs :
    fromStr kelvinPath = .owned kelvinPath ∧ fromUtf8 (encodeUtf8 kelvinPath) = some (.owned kelvinPath) ∧
      ∃ found, fromUtf16 LowerMapping.narrow (encodeUtf16 kelvinPath) = .cached found ∧
        eqIgnoreAsciiCase found "C:\\Windows\\System32\\kernel32.dll".toList = true ∧
        eqIgnoreAsciiCase found kelvinPath = false := by
  have htrim : trimEndNul kelvinPath = kelvinPath := by decide +kernel
  have hkelvin : kelvinSign ∈ kelvinPath := mem_append_right _ mem_cons_self
  have hwithout : withoutKelvin kelvinPath = "C:\\Windows\\System32\\kernel32.dll".toList := by
    decide +kernel
  have hmem : "C:\\Windows\\System32\\kernel32.dll".toList ∈
      (commonPaths.map String.toList).reverse :=
    mem_reverse.mpr (mem_map_of_mem mem_cons_self)
  have hsome : (findCachedStr (withoutKelvin kelvinPath)).isSome = true := by
    rw [hwithout, findCachedStr, List.find?_isSome]
    exact ⟨_, hmem, decide_eq_true rfl⟩
  obtain ⟨found, hfound⟩ := isSome_iff_exists.mp hsome
  have hstr : fromStr kelvinPath = .owned kelvinPath := by
    rw [fromStr, htrim, findCachedStr_of_wide hkelvin (by decide)]
  have hutf16 := fromUtf16_encodeUtf16 LowerMapping.narrow kelvinPath
  rw [htrim, hfound] at hutf16
  have hcached : KelvinCached (trimEndNul kelvinPath) := by
    rw [htrim]
    exact ⟨hkelvin, hsome⟩
  have hdiffers := fromUtf16_of_kelvinCached LowerMapping.narrow hcached
  rw [htrim, hutf16] at hdiffers
  refine ⟨hstr, by rw [fromUtf8_encodeUtf8, hstr], found, hutf16, ?_, hdiffers⟩
  rw [← hwithout]
  exact (findCachedStr_eq_some hfound).2

end WindowsErg.Process
