import Mathlib.Data.List.Basic
import Mathlib.Data.UInt
import WindowsErg.ByteCodec
import WindowsErg.TextScan

/-! Unicode text as UTF-16 code units and as UTF-8 bytes. -/
namespace UnicodeText
open List TextScan ByteCodec

def utf8Len (s : Text) : ℕ := (s.map Char.utf8Size).sum

def dropBytes : ℕ → Text → Option Text
  | 0, s => some s
  | _+1, [] => none
  | n+1, c :: s => if c.utf8Size ≤ n+1 then dropBytes (n+1-c.utf8Size) s else none

def takeBytes : ℕ → Text → Option Text
  | 0, _ => some []
  | _+1, [] => none
  | n+1, c :: s =>
    if c.utf8Size ≤ n+1 then (takeBytes (n+1-c.utf8Size) s).map (c :: ·) else none

def byteSlice (first last : ℕ) (s : Text) : Option Text :=
  (dropBytes first s).bind (takeBytes (last-first))

section Ascii
variable {s : Text} (hs : ∀ c ∈ s, c.utf8Size = 1)
include hs

theorem utf8Len_ascii : utf8Len s = s.length := by
  induction s with
  | nil => rfl
  | cons c s ih =>
    have hc := hs c mem_cons_self
    have htail := ih fun d hd => hs d (mem_cons_of_mem _ hd)
    rw [utf8Len, map_cons, sum_cons, hc, length_cons, add_comm]
    exact congrArg (· + 1) htail

theorem dropBytes_ascii (n : ℕ) :
    dropBytes n s = if n ≤ s.length then some (s.drop n) else none := by
  induction s generalizing n with
  | nil => cases n <;> rfl
  | cons c s ih =>
    cases n with
    | zero => rfl
    | succ n =>
      have hc := hs c mem_cons_self
      rw [dropBytes, hc, if_pos (by omega), Nat.add_sub_cancel,
        ih fun d hd => hs d (mem_cons_of_mem _ hd)]
      simp only [length_cons, drop_succ_cons, Nat.add_le_add_iff_right]

theorem takeBytes_ascii (n : ℕ) :
    takeBytes n s = if n ≤ s.length then some (s.take n) else none := by
  induction s generalizing n with
  | nil => cases n <;> rfl
  | cons c s ih =>
    cases n with
    | zero => rfl
    | succ n =>
      have hc := hs c mem_cons_self
      rw [takeBytes, hc, if_pos (by omega), Nat.add_sub_cancel,
        ih fun d hd => hs d (mem_cons_of_mem _ hd)]
      simp only [length_cons, take_succ_cons, Nat.add_le_add_iff_right]
      split_ifs <;> rfl

theorem byteSlice_ascii (first last : ℕ) (h : first ≤ last) :
    byteSlice first last s =
      if last ≤ s.length then some ((s.drop first).take (last-first)) else none := by
  rw [byteSlice, dropBytes_ascii hs]
  by_cases hfirst : first ≤ s.length
  · have hdrop : ∀ c ∈ s.drop first, c.utf8Size = 1 := fun c hc => hs c (mem_of_mem_drop hc)
    rw [if_pos hfirst, Option.bind_some, takeBytes_ascii hdrop, length_drop]
    congr 1
    apply propext
    omega
  · rw [if_neg hfirst, if_neg (by omega)]
    rfl

end Ascii

variable {n : ℕ}

theorem length_le_of_takeBytes {s t : Text} (h : takeBytes n s = some t) : t.length ≤ n := by
  induction s generalizing n t with
  | nil =>
    cases n with
    | zero =>
      cases h
      exact le_rfl
    | succ n => cases h
  | cons c s ih =>
    cases n with
    | zero =>
      cases h
      exact le_rfl
    | succ n =>
      rw [takeBytes] at h
      obtain ⟨hsize, hrest⟩ := Option.ite_none_right_eq_some.mp h
      obtain ⟨rest, htake, rfl⟩ := Option.map_eq_some_iff.mp hrest
      have hpos := Char.utf8Size_pos c
      have hlength := ih htake
      rw [length_cons]
      omega

theorem length_le_of_byteSlice {first last : ℕ} {s t : Text} (h : byteSlice first last s = some t) :
    t.length ≤ last-first := by
  obtain ⟨rest, -, htake⟩ := Option.bind_eq_some_iff.mp h
  exact length_le_of_takeBytes htake

theorem utf8Len_cons (c : Char) (s : Text) : utf8Len (c :: s) = c.utf8Size+utf8Len s := by
  rw [utf8Len, map_cons, sum_cons]
  rfl

theorem utf8Len_append (s t : Text) : utf8Len (s ++ t) = utf8Len s+utf8Len t := by
  rw [utf8Len, map_append, sum_append]
  rfl

theorem takeBytes_append (s t : Text) : takeBytes (utf8Len s) (s ++ t) = some s := by
  induction s with
  | nil =>
    cases t with
    | nil => rfl
    | cons c t => rfl
  | cons c s ih =>
    have hsum := utf8Len_cons c s
    have hpos := Char.utf8Size_pos c
    obtain ⟨n, hn⟩ : ∃ n, utf8Len (c :: s) = n+1 := Nat.exists_eq_succ_of_ne_zero (by omega)
    have hrest : n+1-c.utf8Size = utf8Len s := by omega
    rw [hn, cons_append, takeBytes, if_pos (by omega), hrest, ih, Option.map_some]

theorem dropBytes_append (s t : Text) : dropBytes (utf8Len s) (s ++ t) = some t := by
  induction s with
  | nil =>
    cases t with
    | nil => rfl
    | cons c t => rfl
  | cons c s ih =>
    have hsum := utf8Len_cons c s
    have hpos := Char.utf8Size_pos c
    obtain ⟨n, hn⟩ : ∃ n, utf8Len (c :: s) = n+1 := Nat.exists_eq_succ_of_ne_zero (by omega)
    have hrest : n+1-c.utf8Size = utf8Len s := by omega
    rw [hn, cons_append, dropBytes, if_pos (by omega), hrest, ih]

/-- `s.find(c)`: the byte position of the first occurrence of a character. -/
def findByte (c : Char) (s : Text) : Option ℕ :=
  if c ∈ s then some (utf8Len (s.takeWhile (· ≠ c))) else none

def EndsOrAt (c : Char) (rest : Text) : Prop := rest = [] ∨ rest.head? = some c

theorem exists_split (c : Char) (s : Text) :
    ∃ front rest, s = front ++ rest ∧ c ∉ front ∧ EndsOrAt c rest := by
  refine ⟨s.takeWhile (· ≠ c), s.dropWhile (· ≠ c), takeWhile_append_dropWhile.symm, ?_, ?_⟩
  · intro hmem
    simpa using mem_takeWhile_imp hmem
  · cases hrest : s.dropWhile (· ≠ c) with
    | nil => exact .inl rfl
    | cons d rest =>
      have hstop := head_dropWhile_not (· ≠ c) (by rw [hrest]; exact cons_ne_nil d rest)
      simp only [hrest, head_cons] at hstop
      exact .inr (by simpa using hstop)

theorem findByte_append {c : Char} {front rest : Text} (hfront : c ∉ front)
    (hrest : EndsOrAt c rest) :
    (findByte c (front ++ rest)).getD (utf8Len (front ++ rest)) = utf8Len front := by
  unfold findByte
  obtain rfl | hhead := hrest
  · rw [append_nil, if_neg hfront, Option.getD_none]
  · obtain ⟨rest, rfl⟩ := List.head?_eq_some_iff.mp hhead
    have hother (d : Char) (hd : d ∈ front) : decide (d ≠ c) = true :=
      decide_eq_true fun heq => hfront (heq ▸ hd)
    rw [if_pos (mem_append_right _ mem_cons_self), Option.getD_some,
      takeWhile_append_of_pos hother, takeWhile_cons_of_neg (by simp), append_nil]

def encodeUtf16Char (c : Char) : List UInt16 :=
  let n := c.toNat
  if n < 0x10000 then [UInt16.ofNat n]
  else [UInt16.ofNat (0xD800+(n-0x10000)/0x400), UInt16.ofNat (0xDC00+(n-0x10000)%0x400)]

def encodeUtf16 (s : Text) : List UInt16 := s.flatMap encodeUtf16Char

def isHighSurrogate (u : UInt16) : Bool := 0xD800 ≤ u.toNat && u.toNat < 0xDC00

def isLowSurrogate (u : UInt16) : Bool := 0xDC00 ≤ u.toNat && u.toNat < 0xE000

def replacement : Char := Char.ofNat 0xFFFD

def pairChar (high low : UInt16) : Char :=
  Char.ofNat (0x10000+(high.toNat-0xD800)*0x400+(low.toNat-0xDC00))

/-- Decoding with `U+FFFD` for every unpaired surrogate. -/
def decodeUtf16Lossy : List UInt16 → Text
  | [] => []
  | [u] => if isHighSurrogate u || isLowSurrogate u then [replacement] else [Char.ofNat u.toNat]
  | u :: v :: rest =>
    if isHighSurrogate u then
      if isLowSurrogate v then pairChar u v :: decodeUtf16Lossy rest
      else replacement :: decodeUtf16Lossy (v :: rest)
    else if isLowSurrogate u then replacement :: decodeUtf16Lossy (v :: rest)
    else Char.ofNat u.toNat :: decodeUtf16Lossy (v :: rest)

variable (u : UInt16)

theorem decodeUtf16Lossy_plain (rest : List UInt16) (hhigh : isHighSurrogate u = false)
    (hlow : isLowSurrogate u = false) :
    decodeUtf16Lossy (u :: rest) = Char.ofNat u.toNat :: decodeUtf16Lossy rest := by
  cases rest with
  | nil => simp [decodeUtf16Lossy, hhigh, hlow]
  | cons v rest => simp [decodeUtf16Lossy, hhigh, hlow]

theorem decodeUtf16Lossy_pair (v : UInt16) (rest : List UInt16) (hhigh : isHighSurrogate u = true)
    (hlow : isLowSurrogate v = true) :
    decodeUtf16Lossy (u :: v :: rest) = pairChar u v :: decodeUtf16Lossy rest := by
  simp [decodeUtf16Lossy, hhigh, hlow]

theorem encodeUtf16Char_cases (c : Char) :
    (∃ u, encodeUtf16Char c = [u] ∧ isHighSurrogate u = false ∧ isLowSurrogate u = false ∧
      Char.ofNat u.toNat = c) ∨
    ∃ u v, encodeUtf16Char c = [u, v] ∧ isHighSurrogate u = true ∧ isLowSurrogate v = true ∧
      pairChar u v = c := by
  have hscalar : c.toNat < 0xD800 ∨ (0xDFFF < c.toNat ∧ c.toNat < 0x110000) := c.valid
  unfold encodeUtf16Char
  by_cases hbmp : c.toNat < 0x10000
  · have hu : (UInt16.ofNat c.toNat).toNat = c.toNat := by
      rw [UInt16.toNat_ofNat']
      omega
    refine Or.inl ⟨_, if_pos hbmp, ?_, ?_, ?_⟩
    · simp only [isHighSurrogate, hu, Bool.and_eq_false_iff, decide_eq_false_iff_not]
      omega
    · simp only [isLowSurrogate, hu, Bool.and_eq_false_iff, decide_eq_false_iff_not]
      omega
    · rw [hu, Char.ofNat_toNat]
  · -- twenty bits above `0x10000` are split into ten and ten
    have hhigh : (UInt16.ofNat (0xD800+(c.toNat-0x10000)/0x400)).toNat =
        0xD800+(c.toNat-0x10000)/0x400 := by
      rw [UInt16.toNat_ofNat']
      omega
    have hlow : (UInt16.ofNat (0xDC00+(c.toNat-0x10000)%0x400)).toNat =
        0xDC00+(c.toNat-0x10000)%0x400 := by
      rw [UInt16.toNat_ofNat']
      omega
    have hpair : 0x10000+(0xD800+(c.toNat-0x10000)/0x400-0xD800)*0x400+
        (0xDC00+(c.toNat-0x10000)%0x400-0xDC00) = c.toNat := by
      omega
    refine Or.inr ⟨_, _, if_neg hbmp, ?_, ?_, ?_⟩
    · simp only [isHighSurrogate, hhigh, Bool.and_eq_true, decide_eq_true_eq]
      omega
    · simp only [isLowSurrogate, hlow, Bool.and_eq_true, decide_eq_true_eq]
      omega
    · rw [pairChar, hhigh, hlow, hpair, Char.ofNat_toNat]

theorem decodeUtf16Lossy_encode_char (c : Char) (rest : List UInt16) :
    decodeUtf16Lossy (encodeUtf16Char c ++ rest) = c :: decodeUtf16Lossy rest := by
  rcases encodeUtf16Char_cases c with ⟨u, hunits, hhigh, hlow, hchar⟩ | ⟨u, v, hunits, hhigh, hlow, hchar⟩
  · rw [hunits, singleton_append, decodeUtf16Lossy_plain u rest hhigh hlow, hchar]
  · rw [hunits, cons_append, singleton_append, decodeUtf16Lossy_pair u v rest hhigh hlow, hchar]

theorem encodeUtf16_cons (c : Char) (s : Text) :
    encodeUtf16 (c :: s) = encodeUtf16Char c ++ encodeUtf16 s := flatMap_cons

theorem decodeUtf16Lossy_encodeUtf16 (s : Text) : decodeUtf16Lossy (encodeUtf16 s) = s := by
  induction s with
  | nil => rfl
  | cons c s ih => rw [encodeUtf16_cons, decodeUtf16Lossy_encode_char, ih]

theorem length_encodeUtf16Char_ofNat : (encodeUtf16Char (Char.ofNat u.toNat)).length = 1 := by
  have hsmall : (Char.ofNat u.toNat).toNat < 0x10000 := by
    by_cases hvalid : u.toNat.isValidChar
    · rw [Char.ofNat, dif_pos hvalid]
      exact u.toNat_lt
    · rw [Char.ofNat, dif_neg hvalid]
      exact Nat.zero_lt_succ _
  unfold encodeUtf16Char
  dsimp only
  rw [if_pos hsmall]
  rfl

theorem le_toNat_pairChar {u v : UInt16} (hhigh : isHighSurrogate u = true)
    (hlow : isLowSurrogate v = true) : 0x10000 ≤ (pairChar u v).toNat := by
  simp only [isHighSurrogate, isLowSurrogate, Bool.and_eq_true, decide_eq_true_eq] at hhigh hlow
  have hvalid : (0x10000+(u.toNat-0xD800)*0x400+(v.toNat-0xDC00)).isValidChar := by
    right
    omega
  rw [pairChar, Char.ofNat, dif_pos hvalid]
  change 0x10000 ≤ 0x10000+(u.toNat-0xD800)*0x400+(v.toNat-0xDC00)
  omega

variable (units : List UInt16)

theorem length_encodeUtf16_decodeUtf16Lossy :
    (encodeUtf16 (decodeUtf16Lossy units)).length = units.length := by
  have hreplacement : (encodeUtf16Char replacement).length = 1 := rfl
  fun_induction decodeUtf16Lossy units with
  | case1 => rfl
  | case2 u hsurrogate => rfl
  | case3 u hplain =>
    rw [encodeUtf16_cons, length_append, length_encodeUtf16Char_ofNat]
    rfl
  | case4 u v rest hhigh hlow ih =>
    have hchar : (encodeUtf16Char (pairChar u v)).length = 2 := by
      rw [encodeUtf16Char, if_neg (not_lt.mpr (le_toNat_pairChar hhigh hlow))]
      rfl
    rw [encodeUtf16_cons, length_append, hchar, ih, length_cons, length_cons]
    omega
  | case5 u v rest hhigh hlow ih | case6 u v rest hhigh hlow ih =>
    rw [encodeUtf16_cons, length_append, hreplacement, ih]
    exact Nat.add_comm 1 _
  | case7 u v rest hhigh hlow ih =>
    rw [encodeUtf16_cons, length_append, length_encodeUtf16Char_ofNat, ih]
    exact Nat.add_comm 1 _

theorem mem_of_mem_decodeUtf16Lossy {units : List UInt16} {c : Char}
    (h : c ∈ decodeUtf16Lossy units) (hc : c.toNat < 0xD800) : UInt16.ofNat c.toNat ∈ units := by
  have hreplacement : c ≠ replacement := by
    rintro rfl
    exact absurd hc (by decide)
  have hplain {u : UInt16} (hu : c = Char.ofNat u.toNat) (hhigh : ¬ isHighSurrogate u = true)
      (hlow : ¬ isLowSurrogate u = true) : UInt16.ofNat c.toNat = u := by
    simp only [isHighSurrogate, isLowSurrogate, Bool.and_eq_true, decide_eq_true_eq] at hhigh hlow
    have hvalid : u.toNat.isValidChar := by
      have hu := u.toNat_lt
      by_cases hsmall : u.toNat < 0xD800
      · exact Or.inl hsmall
      · right
        omega
    have hnat : c.toNat = u.toNat := by
      rw [hu, Char.ofNat, dif_pos hvalid]
      rfl
    rw [hnat, UInt16.ofNat_toNat]
  fun_induction decodeUtf16Lossy units with
  | case1 => simp at h
  | case2 u hsurrogate => exact absurd (mem_singleton.mp h) hreplacement
  | case3 u hsurrogate =>
    rw [Bool.or_eq_true, not_or] at hsurrogate
    rw [hplain (mem_singleton.mp h) hsurrogate.1 hsurrogate.2]
    exact mem_singleton_self u
  | case4 u v rest hhigh hlow ih =>
    rcases mem_cons.mp h with hpair | hrest
    · have hlarge := le_toNat_pairChar hhigh hlow
      rw [← hpair] at hlarge
      omega
    · exact mem_cons_of_mem _ (mem_cons_of_mem _ (ih hrest))
  | case5 u v rest hhigh hlow ih | case6 u v rest hhigh hlow ih =>
    exact mem_cons_of_mem _ (ih ((mem_cons.mp h).resolve_left hreplacement))
  | case7 u v rest hhigh hlow ih =>
    rcases mem_cons.mp h with hu | hrest
    · rw [hplain hu hhigh hlow]
      exact mem_cons_self
    · exact mem_cons_of_mem _ (ih hrest)

theorem decodeUtf16Lossy_concat_ne (u : UInt16) :
    decodeUtf16Lossy (units ++ [u]) ≠ decodeUtf16Lossy units := by
  intro h
  have hlength := congrArg (fun text => (encodeUtf16 text).length) h
  simp [length_encodeUtf16_decodeUtf16Lossy] at hlength

def WellFormed (units : List UInt16) : Prop := encodeUtf16 (decodeUtf16Lossy units) = units

instance (units : List UInt16) : Decidable (WellFormed units) := inferInstanceAs (Decidable (_ = _))

theorem wellFormed_iff : WellFormed units ↔ ∃ s, encodeUtf16 s = units := by
  refine ⟨fun h => ⟨_, h⟩, ?_⟩
  rintro ⟨s, rfl⟩
  rw [WellFormed, decodeUtf16Lossy_encodeUtf16]

theorem map_encodeUtf16_decodeUtf16Lossy_iff (items : List (List UInt16)) :
    (items.map decodeUtf16Lossy).map encodeUtf16 = items ↔ ∀ units ∈ items, WellFormed units := by
  rw [map_map]
  nth_rewrite 2 [← map_id items]
  exact map_inj_left

def decodeUtf16 : List UInt16 → Option Text
  | [] => some []
  | [u] => if isHighSurrogate u || isLowSurrogate u then none else some [Char.ofNat u.toNat]
  | u :: v :: rest =>
    if isHighSurrogate u then
      if isLowSurrogate v then (decodeUtf16 rest).map (pairChar u v :: ·) else none
    else if isLowSurrogate u then none
    else (decodeUtf16 (v :: rest)).map (Char.ofNat u.toNat :: ·)

theorem decodeUtf16_encode_char (c : Char) (rest : List UInt16) :
    decodeUtf16 (encodeUtf16Char c ++ rest) = (decodeUtf16 rest).map (c :: ·) := by
  rcases encodeUtf16Char_cases c with ⟨u, hunits, hhigh, hlow, hchar⟩ | ⟨u, v, hunits, hhigh, hlow, hchar⟩
  · rw [hunits, singleton_append]
    cases rest with
    | nil => simp [decodeUtf16, hhigh, hlow, hchar]
    | cons v rest => simp [decodeUtf16, hhigh, hlow, hchar]
  · rw [hunits, cons_append, singleton_append]
    simp [decodeUtf16, hhigh, hlow, hchar]

theorem decodeUtf16_encodeUtf16_append (s : Text) (rest : List UInt16) :
    decodeUtf16 (encodeUtf16 s ++ rest) = (decodeUtf16 rest).map (s ++ ·) := by
  induction s with
  | nil => exact Option.map_id'.symm
  | cons c s ih =>
    rw [encodeUtf16_cons, append_assoc, decodeUtf16_encode_char, ih, Option.map_map]
    rfl

theorem decodeUtf16_encodeUtf16 (s : Text) : decodeUtf16 (encodeUtf16 s) = some s := by
  simpa [decodeUtf16] using decodeUtf16_encodeUtf16_append s []

theorem mem_of_mem_encodeUtf16 (s : Text) (u : UInt16) (hu : u ∈ encodeUtf16 s)
    (hlow : u.toNat < 0xD800) : Char.ofNat u.toNat ∈ s := by
  obtain ⟨c, hc, hu⟩ := mem_flatMap.mp hu
  have hscalar : c.toNat < 0xD800 ∨ (0xDFFF < c.toNat ∧ c.toNat < 0x110000) := c.valid
  unfold encodeUtf16Char at hu
  by_cases hbmp : c.toNat < 0x10000
  · rw [if_pos hbmp, mem_singleton] at hu
    have hnat : u.toNat = c.toNat := by
      rw [hu, UInt16.toNat_ofNat']
      omega
    rwa [hnat, Char.ofNat_toNat]
  · rw [if_neg hbmp] at hu
    -- both units of a pair are surrogates
    rcases mem_pair.mp hu with rfl | rfl
    · rw [UInt16.toNat_ofNat'] at hlow
      omega
    · rw [UInt16.toNat_ofNat'] at hlow
      omega

theorem ne_zero_of_mem_encodeUtf16 (s : Text) (hs : Char.ofNat 0 ∉ s) (u : UInt16)
    (hu : u ∈ encodeUtf16 s) : u ≠ 0 := by
  intro hzero
  apply hs
  subst hzero
  exact mem_of_mem_encodeUtf16 s 0 hu (by decide)

theorem mem_encodeUtf16_iff {c : Char} (hc : c.toNat < 0xD800) (s : Text) :
    UInt16.ofNat c.toNat ∈ encodeUtf16 s ↔ c ∈ s := by
  have hnat : (UInt16.ofNat c.toNat).toNat = c.toNat := by
    rw [UInt16.toNat_ofNat']
    omega
  constructor
  · intro h
    have hmem := mem_of_mem_encodeUtf16 s _ h (by rw [hnat]; exact hc)
    rwa [hnat, Char.ofNat_toNat] at hmem
  · intro h
    have hunit : encodeUtf16Char c = [UInt16.ofNat c.toNat] := if_pos (by omega)
    refine mem_flatMap.mpr ⟨c, h, ?_⟩
    rw [hunit]
    exact mem_singleton_self _

theorem encodeUtf16_injective : Function.Injective encodeUtf16 :=
  Function.LeftInverse.injective decodeUtf16Lossy_encodeUtf16

theorem encodeUtf16_append (first second : Text) :
    encodeUtf16 (first ++ second) = encodeUtf16 first ++ encodeUtf16 second :=
  flatMap_append

def utf16LeBytes (units : List UInt16) : Bytes := units.flatMap (fun u => leBytes 2 u.toNat)

/-- The code units up to the first zero unit or the end, and the number of bytes that they
and that zero take. -/
def takeUtf16 : Bytes → List UInt16 × ℕ
  | a :: b :: rest =>
    let unit := UInt16.ofNat (ofLe [a, b])
    if unit = 0 then ([], 2) else (unit :: (takeUtf16 rest).1, (takeUtf16 rest).2+2)
  | _ => ([], 0)

theorem length_utf16LeBytes : (utf16LeBytes units).length = 2*units.length := by
  induction units with
  | nil => rfl
  | cons u units ih =>
    have hcons : utf16LeBytes (u :: units) = leBytes 2 u.toNat ++ utf16LeBytes units :=
      flatMap_cons
    rw [hcons, length_append, leBytes_length, ih, length_cons]
    omega

theorem utf16LeBytes_cons :
    ∃ a b, utf16LeBytes (u :: units) = a :: b :: utf16LeBytes units ∧
      UInt16.ofNat (ofLe [a, b]) = u := by
  refine ⟨UInt8.ofNat u.toNat, UInt8.ofNat (u.toNat/256), rfl, ?_⟩
  have hvalue : ofLe (leBytes 2 u.toNat) = u.toNat := ofLe_leBytes 2 _ u.toNat_lt
  change UInt16.ofNat (ofLe (leBytes 2 u.toNat)) = u
  rw [hvalue, UInt16.ofNat_toNat]

theorem utf16LeBytes_append (first second : List UInt16) :
    utf16LeBytes (first ++ second) = utf16LeBytes first ++ utf16LeBytes second :=
  flatMap_append

variable {ending : Bytes}

theorem takeUtf16_append (h : ∀ u ∈ units, u ≠ 0) (hending : (takeUtf16 ending).1 = []) :
    takeUtf16 (utf16LeBytes units ++ ending) = (units, 2*units.length+(takeUtf16 ending).2) := by
  induction units with
  | nil => exact Prod.ext hending (Nat.zero_add _).symm
  | cons u units ih =>
    obtain ⟨a, b, hbytes, hunit⟩ := utf16LeBytes_cons u units
    rw [hbytes, cons_append, cons_append, takeUtf16, hunit]
    rw [if_neg (h u mem_cons_self), ih (fun v hv => h v (mem_cons_of_mem _ hv)),
      length_cons]
    congr 1
    omega

theorem takeUtf16_even (bytes : Bytes) : (takeUtf16 bytes).2%2 = 0 := by
  induction bytes using takeUtf16.induct with
  | case1 a b rest unit hzero =>
    rw [takeUtf16, if_pos hzero]
    rfl
  | case2 a b rest unit hnonzero ih =>
    rw [takeUtf16, if_neg hnonzero, Nat.add_mod_right]
    exact ih
  | case3 bytes hshort =>
    match bytes with
    | [] => rfl
    | [_] => rfl
    | a :: b :: rest => exact absurd rfl (hshort a b rest)

theorem takeUtf16_terminated (h : ∀ u ∈ units, u ≠ 0) (rest : Bytes) :
    takeUtf16 (utf16LeBytes (units ++ [0]) ++ rest) = (units, 2*units.length+2) := by
  rw [utf16LeBytes_append, append_assoc]
  exact takeUtf16_append units h rfl

theorem decodeUtf16Lossy_takeUtf16_iff (s : Text) (hending : (takeUtf16 ending).1 = []) :
    decodeUtf16Lossy (takeUtf16 (utf16LeBytes (encodeUtf16 s) ++ ending)).1 = s ↔ Char.ofNat 0 ∉ s := by
  have hread {text : Text} (htext : Char.ofNat 0 ∉ text) {ending : Bytes}
      (hending : (takeUtf16 ending).1 = []) :
      decodeUtf16Lossy (takeUtf16 (utf16LeBytes (encodeUtf16 text) ++ ending)).1 = text := by
    rw [takeUtf16_append _ (ne_zero_of_mem_encodeUtf16 text htext) hending]
    exact decodeUtf16Lossy_encodeUtf16 text
  constructor
  · intro h hnul
    obtain ⟨before, after, hsplit, hbefore⟩ := eq_append_cons_of_mem hnul
    have hbytes : utf16LeBytes (encodeUtf16 s) ++ ending = utf16LeBytes (encodeUtf16 before) ++
        (0 :: 0 :: (utf16LeBytes (encodeUtf16 after) ++ ending)) := by
      rw [hsplit, encodeUtf16, flatMap_append, utf16LeBytes_append, append_assoc]
      rfl
    rw [hbytes, hread hbefore rfl] at h
    have hlength := congrArg List.length (h.trans hsplit)
    rw [length_append, length_cons] at hlength
    omega
  · intro hnul
    exact hread hnul hending

def isContinuation (b : UInt8) : Bool := 0x80 ≤ b.toNat && b.toNat < 0xC0

def utf8Char (lead : ℕ) (continuation : Bytes) : Char :=
  Char.ofNat (continuation.foldl (fun acc b => acc*64+b.toNat%64) lead)

/-- Strict decoding: shortest forms only, no surrogates, nothing above `0x10FFFF`. -/
def decodeUtf8 : Bytes → Option Text
  | [] => some []
  | a :: rest =>
    if a.toNat < 0x80 then (decodeUtf8 rest).map (Char.ofNat a.toNat :: ·)
    else if a.toNat < 0xC2 then none
    else if a.toNat < 0xE0 then
      match rest with
      | b :: rest =>
        if isContinuation b then
          (decodeUtf8 rest).map (utf8Char (a.toNat%32) [b] :: ·)
        else none
      | _ => none
    else if a.toNat < 0xF0 then
      match rest with
      | b :: c :: rest =>
        -- `E0` starts an overlong form below `A0`, `ED` a surrogate from there on
        if isContinuation b && isContinuation c && (a != 0xE0 || 0xA0 ≤ b.toNat) &&
            (a != 0xED || b.toNat < 0xA0) then
          (decodeUtf8 rest).map (utf8Char (a.toNat%16) [b, c] :: ·)
        else none
      | _ => none
    else if a.toNat < 0xF5 then
      match rest with
      | b :: c :: d :: rest =>
        if isContinuation b && isContinuation c && isContinuation d &&
            (a != 0xF0 || 0x90 ≤ b.toNat) && (a != 0xF4 || b.toNat < 0x90) then
          (decodeUtf8 rest).map (utf8Char (a.toNat%8) [b, c, d] :: ·)
        else none
      | _ => none
    else none

example : decodeUtf8 [0x61, 0xC3, 0xA9, 0xE2, 0x82, 0xAC, 0xF0, 0x9F, 0x98, 0x80] =
    some "aé€😀".toList := by decide

def encodeUtf8 (s : Text) : Bytes := s.flatMap String.utf8EncodeChar

theorem encodeUtf8_cons (c : Char) (s : Text) :
    encodeUtf8 (c :: s) = String.utf8EncodeChar c ++ encodeUtf8 s := flatMap_cons

section Forms
variable {a b c d : UInt8} (rest : Bytes)

theorem decodeUtf8_one (h : a.toNat < 0x80) :
    decodeUtf8 (a :: rest) = (decodeUtf8 rest).map (Char.ofNat a.toNat :: ·) := by
  rw [decodeUtf8.eq_def]
  dsimp only
  rw [if_pos h]

theorem decodeUtf8_two (ha : 0xC2 ≤ a.toNat ∧ a.toNat < 0xE0) (hb : isContinuation b = true) :
    decodeUtf8 (a :: b :: rest) = (decodeUtf8 rest).map (utf8Char (a.toNat%32) [b] :: ·) := by
  rw [decodeUtf8, if_neg (by omega), if_neg (by omega), if_pos ha.2]
  simp only [hb, if_true]

theorem bne_or_iff {k : UInt8} {p : Prop} [Decidable p] :
    (a != k || decide p) = true ↔ (a.toNat = k.toNat → p) := by
  rw [Bool.or_eq_true, bne_iff_ne, decide_eq_true_eq, ne_eq, ← UInt8.toNat_inj]
  exact imp_iff_not_or.symm

theorem decodeUtf8_three (ha : 0xE0 ≤ a.toNat ∧ a.toNat < 0xF0) (hb : isContinuation b = true)
    (hc : isContinuation c = true) (hlong : a.toNat = 0xE0 → 0xA0 ≤ b.toNat)
    (hsurrogate : a.toNat = 0xED → b.toNat < 0xA0) :
    decodeUtf8 (a :: b :: c :: rest) =
      (decodeUtf8 rest).map (utf8Char (a.toNat%16) [b, c] :: ·) := by
  have h₁ : (a != 0xE0 || 0xA0 ≤ b.toNat) = true := bne_or_iff.mpr hlong
  have h₂ : (a != 0xED || b.toNat < 0xA0) = true := bne_or_iff.mpr hsurrogate
  rw [decodeUtf8, if_neg (by omega), if_neg (by omega), if_neg (by omega), if_pos ha.2]
  simp only [hb, hc, h₁, h₂, Bool.and_self, if_true]

theorem decodeUtf8_four (ha : 0xF0 ≤ a.toNat ∧ a.toNat < 0xF5) (hb : isContinuation b = true)
    (hc : isContinuation c = true) (hd : isContinuation d = true)
    (hlong : a.toNat = 0xF0 → 0x90 ≤ b.toNat) (hlarge : a.toNat = 0xF4 → b.toNat < 0x90) :
    decodeUtf8 (a :: b :: c :: d :: rest) =
      (decodeUtf8 rest).map (utf8Char (a.toNat%8) [b, c, d] :: ·) := by
  have h₁ : (a != 0xF0 || 0x90 ≤ b.toNat) = true := bne_or_iff.mpr hlong
  have h₂ : (a != 0xF4 || b.toNat < 0x90) = true := bne_or_iff.mpr hlarge
  rw [decodeUtf8, if_neg (by omega), if_neg (by omega), if_neg (by omega), if_neg (by omega),
    if_pos ha.2]
  simp only [hb, hc, hd, h₁, h₂, Bool.and_self, if_true]

end Forms

theorem toNat_byte (h : n < 256) : (UInt8.ofNat n).toNat = n := by
  rw [UInt8.toNat_ofNat']
  omega

theorem byte_inj {m : ℕ} (hm : m < 256) (hn : n < 256) (h : UInt8.ofNat m = UInt8.ofNat n) :
    m = n := by
  have hnat := congrArg UInt8.toNat h
  rw [toNat_byte hm, toNat_byte hn] at hnat
  exact hnat

theorem isContinuation_byte (n : ℕ) : isContinuation (UInt8.ofNat (n%64+128)) = true := by
  rw [isContinuation, toNat_byte (by omega)]
  simp only [Bool.and_eq_true, decide_eq_true_eq]
  omega

theorem utf8EncodeChar_eq (c : Char) :
    String.utf8EncodeChar c =
      if c.toNat ≤ 0x7F then [UInt8.ofNat c.toNat]
      else if c.toNat ≤ 0x7FF then [UInt8.ofNat (c.toNat/64%32+192), UInt8.ofNat (c.toNat%64+128)]
      else if c.toNat ≤ 0xFFFF then
        [UInt8.ofNat (c.toNat/4096%16+224), UInt8.ofNat (c.toNat/64%64+128),
          UInt8.ofNat (c.toNat%64+128)]
      else [UInt8.ofNat (c.toNat/262144%8+240), UInt8.ofNat (c.toNat/4096%64+128),
        UInt8.ofNat (c.toNat/64%64+128), UInt8.ofNat (c.toNat%64+128)] := rfl

theorem decodeUtf8_encode_char (c : Char) (rest : Bytes) :
    decodeUtf8 (String.utf8EncodeChar c ++ rest) = (decodeUtf8 rest).map (c :: ·) := by
  have hscalar : c.toNat < 0xD800 ∨ (0xDFFF < c.toNat ∧ c.toNat < 0x110000) := c.valid
  rw [utf8EncodeChar_eq]
  generalize hn : c.toNat = n at *
  have hchar : Char.ofNat n = c := by rw [← hn, Char.ofNat_toNat]
  have hlast : (UInt8.ofNat (n%64+128)).toNat = n%64+128 := toNat_byte (by omega)
  have hmid : (UInt8.ofNat (n/64%64+128)).toNat = n/64%64+128 := toNat_byte (by omega)
  split_ifs with h1 h2 h3
  · have ha : (UInt8.ofNat n).toNat = n := toNat_byte (by omega)
    rw [singleton_append, decodeUtf8_one rest (by omega), ha, hchar]
  · have ha : (UInt8.ofNat (n/64%32+192)).toNat = n/64%32+192 := toNat_byte (by omega)
    have hvalue : (n/64%32+192)%32*64+(n%64+128)%64 = n := by omega
    rw [cons_append, singleton_append,
      decodeUtf8_two rest (by omega) (isContinuation_byte n), utf8Char, ha]
    simp only [foldl_cons, foldl_nil, hlast, hvalue, hchar]
  · have ha : (UInt8.ofNat (n/4096%16+224)).toNat = n/4096%16+224 := toNat_byte (by omega)
    have hvalue : ((n/4096%16+224)%16*64+(n/64%64+128)%64)*64+(n%64+128)%64 = n := by omega
    rw [cons_append, cons_append, singleton_append,
      decodeUtf8_three rest (by omega) (isContinuation_byte (n/64)) (isContinuation_byte n)
        (by omega) (by omega), utf8Char, ha]
    simp only [foldl_cons, foldl_nil, hmid, hlast, hvalue, hchar]
  · have ha : (UInt8.ofNat (n/262144%8+240)).toNat = n/262144%8+240 := toNat_byte (by omega)
    have hb : (UInt8.ofNat (n/4096%64+128)).toNat = n/4096%64+128 := toNat_byte (by omega)
    have hvalue : (((n/262144%8+240)%8*64+(n/4096%64+128)%64)*64+(n/64%64+128)%64)*64+
        (n%64+128)%64 = n := by omega
    rw [cons_append, cons_append, cons_append, singleton_append,
      decodeUtf8_four rest (by omega) (isContinuation_byte (n/4096)) (isContinuation_byte (n/64))
        (isContinuation_byte n) (by omega) (by omega), utf8Char, ha]
    simp only [foldl_cons, foldl_nil, hb, hmid, hlast, hvalue, hchar]

theorem decodeUtf8_encodeUtf8 (s : Text) : decodeUtf8 (encodeUtf8 s) = some s := by
  induction s with
  | nil => rfl
  | cons c s ih => rw [encodeUtf8_cons, decodeUtf8_encode_char, ih, Option.map_some]

theorem zero_notMem_encodeUtf8 {s : Text} (hs : Char.ofNat 0 ∉ s) : 0 ∉ encodeUtf8 s := by
  intro hzero
  obtain ⟨c, hc, hmem⟩ := mem_flatMap.mp hzero
  have hne : c.toNat ≠ 0 := by
    intro h
    rw [← h, Char.ofNat_toNat] at hs
    exact hs hc
  have hbyte {n : ℕ} (hlow : n ≠ 0) (hhigh : n < 256) : (0 : UInt8) ≠ UInt8.ofNat n := by
    intro h
    exact hlow (byte_inj (m := 0) (by decide) hhigh h).symm
  rw [utf8EncodeChar_eq] at hmem
  split_ifs at hmem with h1 h2 h3
  · rw [mem_singleton] at hmem
    exact hbyte hne (by omega) hmem
  all_goals
    simp only [mem_cons, not_mem_nil, or_false] at hmem
    have hmore (k : ℕ) := @hbyte (c.toNat/k%64+128) (by omega) (by omega)
    have hlast := @hbyte (c.toNat%64+128) (by omega) (by omega)
  · exact hmem.elim (hbyte (by omega) (by omega)) hlast
  · exact hmem.elim (hbyte (by omega) (by omega)) fun h => h.elim (hmore 64) hlast
  · exact hmem.elim (hbyte (by omega) (by omega)) fun h => h.elim (hmore 4096) fun h =>
      h.elim (hmore 64) hlast

theorem isContinuation_iff (b : UInt8) :
    isContinuation b = true ↔ 0x80 ≤ b.toNat ∧ b.toNat < 0xC0 := by
  simp [isContinuation]

theorem utf8EncodeChar_ofNat (h : n < 0xD800 ∨ (0xDFFF < n ∧ n < 0x110000)) :
    String.utf8EncodeChar (Char.ofNat n) =
      if n ≤ 0x7F then [UInt8.ofNat n]
      else if n ≤ 0x7FF then [UInt8.ofNat (n/64%32+192), UInt8.ofNat (n%64+128)]
      else if n ≤ 0xFFFF then
        [UInt8.ofNat (n/4096%16+224), UInt8.ofNat (n/64%64+128), UInt8.ofNat (n%64+128)]
      else [UInt8.ofNat (n/262144%8+240), UInt8.ofNat (n/4096%64+128), UInt8.ofNat (n/64%64+128),
        UInt8.ofNat (n%64+128)] := by
  have hval : (Char.ofNat n).toNat = n := by
    rw [Char.ofNat, dif_pos h]
    rfl
  rw [utf8EncodeChar_eq, hval]

theorem byte_eq {b : UInt8} (h : n = b.toNat) : UInt8.ofNat n = b := by
  rw [h, UInt8.ofNat_toNat]

theorem decodeUtf8_cons {bytes : Bytes} {c : Char} {s : Text}
    (h : decodeUtf8 bytes = some (c :: s)) :
    ∃ rest, bytes = String.utf8EncodeChar c ++ rest ∧ decodeUtf8 rest = some s := by
  cases bytes with
  | nil => simp [decodeUtf8] at h
  | cons a rest =>
    have ha := a.toNat_lt
    rw [decodeUtf8.eq_def] at h
    dsimp only at h
    split_ifs at h with h1 h2 h3 h4 h5
    · -- one byte
      obtain ⟨t, ht, heq⟩ := Option.map_eq_some_iff.mp h
      obtain ⟨rfl, rfl⟩ := List.cons.inj heq
      refine ⟨rest, ?_, ht⟩
      rw [utf8EncodeChar_ofNat (by omega), if_pos (by omega), byte_eq rfl, singleton_append]
    · -- two bytes
      split at h
      · rename_i b rest
        split_ifs at h with hb
        obtain ⟨t, ht, heq⟩ := Option.map_eq_some_iff.mp h
        obtain ⟨rfl, rfl⟩ := List.cons.inj heq
        refine ⟨rest, ?_, ht⟩
        rw [isContinuation_iff] at hb
        simp only [utf8Char, foldl_cons, foldl_nil]
        rw [utf8EncodeChar_ofNat (by omega), if_neg (by omega), if_pos (by omega),
          byte_eq (b := a) (by omega), byte_eq (b := b) (by omega)]
        rfl
      · cases h
    · -- three bytes
      split at h
      · rename_i b c rest
        split_ifs at h with hb
        obtain ⟨t, ht, heq⟩ := Option.map_eq_some_iff.mp h
        obtain ⟨rfl, rfl⟩ := List.cons.inj heq
        refine ⟨rest, ?_, ht⟩
        simp only [Bool.and_eq_true, isContinuation_iff] at hb
        obtain ⟨⟨⟨hb, hc⟩, hlong⟩, hsurrogate⟩ := hb
        have hlong : a.toNat = 0xE0 → 0xA0 ≤ b.toNat := bne_or_iff.mp hlong
        have hsurrogate : a.toNat = 0xED → b.toNat < 0xA0 := bne_or_iff.mp hsurrogate
        simp only [utf8Char, foldl_cons, foldl_nil]
        rw [utf8EncodeChar_ofNat (by omega), if_neg (by omega), if_neg (by omega),
          if_pos (by omega), byte_eq (b := a) (by omega), byte_eq (b := b) (by omega),
          byte_eq (b := c) (by omega)]
        rfl
      · cases h
    · -- four bytes
      split at h
      · rename_i b c d rest
        split_ifs at h with hb
        obtain ⟨t, ht, heq⟩ := Option.map_eq_some_iff.mp h
        obtain ⟨rfl, rfl⟩ := List.cons.inj heq
        refine ⟨rest, ?_, ht⟩
        simp only [Bool.and_eq_true, isContinuation_iff] at hb
        obtain ⟨⟨⟨⟨hb, hc⟩, hd⟩, hlong⟩, hlarge⟩ := hb
        have hlong : a.toNat = 0xF0 → 0x90 ≤ b.toNat := bne_or_iff.mp hlong
        have hlarge : a.toNat = 0xF4 → b.toNat < 0x90 := bne_or_iff.mp hlarge
        simp only [utf8Char, foldl_cons, foldl_nil]
        rw [utf8EncodeChar_ofNat (by omega), if_neg (by omega), if_neg (by omega),
          if_neg (by omega), byte_eq (b := a) (by omega), byte_eq (b := b) (by omega),
          byte_eq (b := c) (by omega), byte_eq (b := d) (by omega)]
        rfl
      · cases h

theorem decodeUtf8_eq_some_nil {bytes : Bytes} (h : decodeUtf8 bytes = some []) : bytes = [] := by
  have hcons {c : Char} {rest : Option Text} : rest.map (c :: ·) ≠ some [] := by
    cases rest <;> simp
  cases bytes with
  | nil => rfl
  | cons a rest =>
    rw [decodeUtf8.eq_def] at h
    dsimp only at h
    split_ifs at h
    · exact absurd h hcons
    -- two, three and four bytes
    all_goals
      split at h
      · split_ifs at h
        exact absurd h hcons
      · cases h

theorem decodeUtf8_eq_some_iff (bytes : Bytes) (s : Text) :
    decodeUtf8 bytes = some s ↔ bytes = encodeUtf8 s := by
  constructor
  · intro h
    induction s generalizing bytes with
    | nil => exact decodeUtf8_eq_some_nil h
    | cons c s ih =>
      obtain ⟨rest, hbytes, hrest⟩ := decodeUtf8_cons h
      rw [hbytes, ih rest hrest, encodeUtf8_cons]
  · intro h
    rw [h, decodeUtf8_encodeUtf8]

theorem encodeUtf8_eq_cons_iff {s : Text} {b : UInt8} {rest : Bytes} (hb : b.toNat < 0x80) :
    encodeUtf8 s = b :: rest ↔ ∃ s', s = Char.ofNat b.toNat :: s' ∧ encodeUtf8 s' = rest := by
  constructor
  · intro h
    have hdecode := decodeUtf8_encodeUtf8 s
    rw [h, decodeUtf8_one rest hb] at hdecode
    obtain ⟨s', hs', rfl⟩ := Option.map_eq_some_iff.mp hdecode
    exact ⟨s', rfl, ((decodeUtf8_eq_some_iff rest s').mp hs').symm⟩
  · rintro ⟨s', rfl, rfl⟩
    rw [encodeUtf8_cons, utf8EncodeChar_ofNat (.inl (by omega)), if_pos (by omega),
      UInt8.ofNat_toNat]
    rfl

theorem utf16LeBytes_encodeChar (c : Char) :
    utf16LeBytes (encodeUtf16Char c) =
      if c.toNat < 0x10000 then [UInt8.ofNat c.toNat, UInt8.ofNat (c.toNat/256)]
      else leBytes 2 (0xD800+(c.toNat-0x10000)/0x400) ++
        leBytes 2 (0xDC00+(c.toNat-0x10000)%0x400) := by
  have hscalar : c.toNat < 0xD800 ∨ (0xDFFF < c.toNat ∧ c.toNat < 0x110000) := c.valid
  have hunit {n : ℕ} (h : n < 0x10000) : (UInt16.ofNat n).toNat = n := by
    rw [UInt16.toNat_ofNat']
    omega
  unfold encodeUtf16Char
  dsimp only
  split
  · rename_i hbmp
    change leBytes 2 (UInt16.ofNat c.toNat).toNat = leBytes 2 c.toNat
    rw [hunit hbmp]
  · change leBytes 2 (UInt16.ofNat _).toNat ++ leBytes 2 (UInt16.ofNat _).toNat = _
    rw [hunit (by omega), hunit (by omega)]

theorem length_takeWhile_append_le {α : Type} (p : α → Bool) (first second : List α) :
    ((first ++ second).takeWhile p).length ≤ first.length+(second.takeWhile p).length := by
  rw [takeWhile_append]
  split
  · rw [length_append]
  · have hle := (List.takeWhile_prefix p (l := first)).length_le
    omega

theorem length_front_le (c : Char) (rest : Bytes) :
    ((utf16LeBytes (encodeUtf16Char c) ++ rest).takeWhile (· != 0)).length+
        (if 0x800 ≤ c.toNat ∧ c.toNat < 0x10000 then 1 else 0) ≤
      (String.utf8EncodeChar c).length+(rest.takeWhile (· != 0)).length := by
  have hfront := length_takeWhile_append_le (· != 0) (utf16LeBytes (encodeUtf16Char c)) rest
  have hlength : (utf16LeBytes (encodeUtf16Char c)).length = if c.toNat < 0x10000 then 2 else 4 := by
    rw [utf16LeBytes_encodeChar]
    split <;> rfl
  rw [utf8EncodeChar_eq]
  by_cases h1 : c.toNat ≤ 0x7F
  · -- the high byte of the unit is zero
    have hzero : c.toNat/256 = 0 := by omega
    have hbytes : utf16LeBytes (encodeUtf16Char c) = [UInt8.ofNat c.toNat] ++ [0] := by
      rw [utf16LeBytes_encodeChar, if_pos (by omega), hzero]
      rfl
    have hle := length_takeWhile_append_le (· != 0) [UInt8.ofNat c.toNat] (0 :: rest)
    have hstop : ((0 : UInt8) :: rest).takeWhile (· != 0) = [] := rfl
    rw [if_pos h1, if_neg (by omega), hbytes, append_assoc]
    rw [hstop] at hle
    change _ ≤ 1+0 at hle
    change ((_ ++ 0 :: rest).takeWhile _).length+0 ≤ 1+_
    omega
  · rw [if_neg h1]
    by_cases h2 : c.toNat ≤ 0x7FF
    · rw [if_pos h2, if_neg (by omega)]
      rw [hlength, if_pos (by omega)] at hfront
      exact hfront
    · rw [if_neg h2]
      by_cases h3 : c.toNat ≤ 0xFFFF
      · rw [if_pos h3, if_pos (by omega)]
        rw [hlength, if_pos (by omega)] at hfront
        change _+1 ≤ 3+_
        omega
      · rw [if_neg h3, if_neg (by omega)]
        rw [hlength, if_neg (by omega)] at hfront
        exact hfront

theorem utf16LeBytes_encodeUtf16_cons (c : Char) (s : Text) :
    utf16LeBytes (encodeUtf16 (c :: s)) =
      utf16LeBytes (encodeUtf16Char c) ++ utf16LeBytes (encodeUtf16 s) := by
  rw [encodeUtf16, flatMap_cons, utf16LeBytes_append]
  rfl

theorem length_front_text_le (s : Text) (hending : ending.takeWhile (· != 0) = []) :
    ((utf16LeBytes (encodeUtf16 s) ++ ending).takeWhile (· != 0)).length ≤ (encodeUtf8 s).length := by
  induction s with
  | nil =>
    change (ending.takeWhile (· != 0)).length ≤ 0
    rw [hending]
    rfl
  | cons c s ih =>
    have hfront := length_front_le c (utf16LeBytes (encodeUtf16 s) ++ ending)
    rw [utf16LeBytes_encodeUtf16_cons, encodeUtf8_cons, append_assoc, length_append]
    omega

theorem takeWhile_ascii {c : Char} (hascii : c.toNat < 0x80) (hc : c ≠ Char.ofNat 0) (rest : Bytes) :
    (utf16LeBytes (encodeUtf16Char c) ++ rest).takeWhile (· != 0) = String.utf8EncodeChar c := by
  have hpos : c.toNat ≠ 0 := by
    intro h
    rw [← h, Char.ofNat_toNat] at hc
    exact hc rfl
  have hbyte : (UInt8.ofNat c.toNat != 0) = true := by
    rw [bne_iff_ne]
    intro h
    exact hpos (byte_inj (n := 0) (by omega) (by decide) h)
  have hzero : c.toNat/256 = 0 := by omega
  rw [utf16LeBytes_encodeChar, utf8EncodeChar_eq, if_pos (by omega), if_pos (by omega), hzero]
  change (UInt8.ofNat c.toNat :: 0 :: rest).takeWhile (· != 0) = _
  rw [takeWhile_cons, if_pos hbyte]
  rfl

theorem not_prefix_utf16 {c : Char} (hc : 0x80 ≤ c.toNat)
    (hthree : ¬ (0x800 ≤ c.toNat ∧ c.toNat < 0x10000)) (first second : Bytes) :
    ¬ String.utf8EncodeChar c ++ first <+: utf16LeBytes (encodeUtf16Char c) ++ second := by
  have hscalar : c.toNat < 0xD800 ∨ (0xDFFF < c.toNat ∧ c.toNat < 0x110000) := c.valid
  rw [utf16LeBytes_encodeChar, utf8EncodeChar_eq, if_neg (by omega)]
  intro hprefix
  by_cases htwo : c.toNat ≤ 0x7FF
  · rw [if_pos htwo, if_pos (by omega)] at hprefix
    have hsecond := (cons_prefix_cons.mp (cons_prefix_cons.mp hprefix).2).1
    have hnat := byte_inj (by omega) (by omega) hsecond
    omega
  · rw [if_neg htwo, if_neg (by omega), if_neg (by omega)] at hprefix
    have hsecond := (cons_prefix_cons.mp (cons_prefix_cons.mp hprefix).2).1
    have hnat := byte_inj (by omega) (by omega) hsecond
    omega

theorem takeWhile_utf16_eq_encodeUtf8_iff {s : Text} (hs : Char.ofNat 0 ∉ s)
    (hending : ending.takeWhile (· != 0) = []) :
    (utf16LeBytes (encodeUtf16 s) ++ ending).takeWhile (· != 0) = encodeUtf8 s ↔
      s = [] ∨ ∃ c, s = [c] ∧ c.toNat < 0x80 := by
  cases s with
  | nil => exact iff_of_true hending (Or.inl rfl)
  | cons c s =>
    have hc : c ≠ Char.ofNat 0 := by
      intro h
      exact hs (h ▸ mem_cons_self)
    rw [utf16LeBytes_encodeUtf16_cons, encodeUtf8_cons, append_assoc]
    by_cases hascii : c.toNat < 0x80
    · rw [takeWhile_ascii hascii hc]
      constructor
      · intro h
        have hnil : encodeUtf8 s = [] := self_eq_append_right.mp h
        have hdecode := decodeUtf8_encodeUtf8 s
        rw [hnil] at hdecode
        cases hdecode
        exact Or.inr ⟨c, rfl, hascii⟩
      · rintro (h | ⟨d, h, -⟩)
        · cases h
        · cases h
          exact (append_nil _).symm
    · refine iff_of_false ?_ ?_
      · intro h
        by_cases hthree : 0x800 ≤ c.toNat ∧ c.toNat < 0x10000
        · -- three bytes are more than two, and the rest does not make up for it
          have hfront := length_front_le c (utf16LeBytes (encodeUtf16 s) ++ ending)
          have hrest := length_front_text_le s hending
          rw [h, if_pos hthree, length_append] at hfront
          omega
        · apply not_prefix_utf16 (Nat.not_lt.mp hascii) hthree (encodeUtf8 s)
            (utf16LeBytes (encodeUtf16 s) ++ ending)
          rw [← h]
          exact takeWhile_prefix _
      · rintro (h | ⟨d, h, hd⟩)
        · cases h
        · cases h
          exact hascii hd

def isSecond (a b : UInt8) : Bool :=
  isContinuation b && (a != 0xE0 || 0xA0 ≤ b.toNat) && (a != 0xED || b.toNat < 0xA0) &&
    (a != 0xF0 || 0x90 ≤ b.toNat) && (a != 0xF4 || b.toNat < 0x90)

/-- The character at the front of some bytes, and how many bytes it takes after the first. What is
the start of no character is replaced as far as it could be one. -/
def utf8Front (a : UInt8) (rest : Bytes) : Char × ℕ :=
  -- past the end, as in the library, there are zeros
  let b := rest.getD 0 0
  let c := rest.getD 1 0
  let d := rest.getD 2 0
  if a.toNat < 0x80 then (Char.ofNat a.toNat, 0)
  else if a.toNat < 0xC2 then (replacement, 0)
  else if a.toNat < 0xE0 then
    if isContinuation b then (utf8Char (a.toNat%32) [b], 1) else (replacement, 0)
  else if a.toNat < 0xF0 then
    if !isSecond a b then (replacement, 0)
    else if !isContinuation c then (replacement, 1)
    else (utf8Char (a.toNat%16) [b, c], 2)
  else if a.toNat < 0xF5 then
    if !isSecond a b then (replacement, 0)
    else if !isContinuation c then (replacement, 1)
    else if !isContinuation d then (replacement, 2)
    else (utf8Char (a.toNat%8) [b, c, d], 3)
  else (replacement, 0)

def lossyRounds : ℕ → Bytes → Text
  | 0, _ => []
  | _+1, [] => []
  | n+1, a :: rest => (utf8Front a rest).1 :: lossyRounds n (rest.drop (utf8Front a rest).2)

def decodeUtf8Lossy (bytes : Bytes) : Text := lossyRounds bytes.length bytes

example : decodeUtf8Lossy [0x61, 0xF0, 0x9F, 0x98, 0xC3, 0xA9, 0xED, 0xA0, 0x80] =
    "a\uFFFDé\uFFFD\uFFFD\uFFFD".toList := by decide

end UnicodeText
