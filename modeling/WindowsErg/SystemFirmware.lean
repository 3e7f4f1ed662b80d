import Mathlib.Data.List.GetD
import WindowsErg.DelimitedItems
import WindowsErg.GuardedRun
import WindowsErg.HexText

/-! The UUID of the system from the tables of its firmware, `src/system/mod.rs`. -/
namespace WindowsErg.System
open List TextScan ByteCodec GuardedRun Guarded HexText DelimitedItems

def formatSmbiosUuid (raw : Bytes) : Guarded (Option Text) :=
  if raw.length ≠ 16 then pure none
  else do
    let octet (i : ℕ) : Guarded Text := do
      let b ← index raw i
      pure (padZeros 2 (hexLower b.toNat))
    let d1 := ofLe [← index raw 0, ← index raw 1, ← index raw 2, ← index raw 3]
    let d2 := ofLe [← index raw 4, ← index raw 5]
    let d3 := ofLe [← index raw 6, ← index raw 7]
    pure (some (padZeros 8 (hexLower d1) ++ '-' :: padZeros 4 (hexLower d2) ++
      '-' :: padZeros 4 (hexLower d3) ++ '-' :: (← octet 8) ++ (← octet 9) ++
      '-' :: (← octet 10) ++ (← octet 11) ++ (← octet 12) ++ (← octet 13) ++ (← octet 14) ++
      (← octet 15)))

/-- `work_buffer[cursor] == 0 && work_buffer[cursor + 1] == 0`. -/
def twoNulsAt (work : Bytes) (cursor : ℕ) : Guarded Bool := do
  let first ← index work cursor
  if first = 0 then do
    let next ← addIn usizeLimit cursor 1
    let second ← index work next
    pure (second = 0)
  else pure false

def skipStrings (work : Bytes) (end_ cursor : ℕ) : Guarded {next : ℕ // cursor ≤ next} := do
  check (cursor+1 < usizeLimit) .overflow
  if _hmore : cursor+1 < end_ then
    if ← twoNulsAt work cursor then
      check (cursor+2 < usizeLimit) .overflow
      pure ⟨cursor+2, Nat.le_add_right cursor 2⟩
    else
      let next ← skipStrings work end_ (cursor+1)
      pure ⟨next.val, (Nat.le_succ cursor).trans next.property⟩
  else pure ⟨cursor, le_rfl⟩
termination_by end_-cursor

def uuidAt (work : Bytes) (cursor : ℕ) (ty : UInt8) (len : ℕ) : Guarded (Option Text) :=
  if ty = 1 ∧ 0x19 ≤ len then do
    let first ← addIn usizeLimit cursor 8
    let last ← addIn usizeLimit cursor 24
    let uuid ← slice work first last
    formatSmbiosUuid uuid
  else pure none

def walkStructures (work : Bytes) (end_ cursor : ℕ) : Guarded (Option Text) := do
  check (cursor+4 < usizeLimit) .overflow
  if _hmore : cursor+4 ≤ end_ then
    let ty ← index work cursor
    let len ← index work (cursor+1)
    if _hshort : len.toNat < 4 then pure none
    else
      check (cursor+len.toNat < usizeLimit) .overflow
      if end_ < cursor+len.toNat then pure none
      else
        match ← uuidAt work cursor ty len.toNat with
        | some formatted => pure (some formatted)
        | none =>
          let next ← skipStrings work end_ (cursor+len.toNat)
          walkStructures work end_ next.val
  else pure none
termination_by end_-cursor
decreasing_by
  have _hnext := next.property
  omega

def parseFirmwareUuidFromRawSmbios (work : Bytes) : Guarded (Option Text) :=
  if work.length < 8 then pure none
  else do
    let tableLen := ofLe [← index work 4, ← index work 5, ← index work 6, ← index work 7]
    let end_ ← addIn usizeLimit 8 tableLen
    if work.length < end_ then pure none
    else walkStructures work end_ 8

theorem safe_formatSmbiosUuid (raw : Bytes) : (formatSmbiosUuid raw).Safe := by
  unfold formatSmbiosUuid
  split
  · exact safe_pure _
  · rename_i hlength
    rw [not_not] at hlength
    have hindex (i : ℕ) (hi : i < 16) : index raw i = pure (raw.getD i default) :=
      index_eq (by omega)
    simp only [hindex, pure_bind, Nat.reduceLT]
    exact safe_pure _

theorem safe_twoNulsAt {work : Bytes} {cursor : ℕ} (h : cursor+1 < work.length)
    (hlen : work.length < 2^63) : (twoNulsAt work cursor).Safe := by
  have hnext : cursor+1 < usizeLimit := by
    unfold usizeLimit
    omega
  rw [twoNulsAt, index_eq (by omega), pure_bind]
  split
  · rw [addIn_eq hnext, pure_bind, index_eq h, pure_bind]
    exact safe_pure _
  · exact safe_pure _

section Safe
variable {work : Bytes} (hlen : work.length < 2^63) {end_ : ℕ} (hend : end_ ≤ work.length)
include hlen hend

theorem skipStrings_spec (cursor : ℕ) (hcursor : cursor ≤ end_) :
    (skipStrings work end_ cursor).Safe ∧ (skipStrings work end_ cursor).value.val ≤ end_ := by
  -- on the number of bytes that are left
  induction hrest : end_-cursor generalizing cursor with
  | zero =>
    rw [skipStrings, check_bind (by unfold usizeLimit; omega), dif_neg (by omega)]
    exact ⟨safe_pure _, hcursor⟩
  | succ rest ih =>
    rw [skipStrings, check_bind (by unfold usizeLimit; omega)]
    by_cases hmore : cursor+1 < end_
    · rw [dif_pos hmore, safe_bind, value_bind, and_iff_right (safe_twoNulsAt (by omega) hlen)]
      split
      · rw [check_bind (by unfold usizeLimit; omega)]
        exact ⟨safe_pure _, hmore⟩
      · obtain ⟨hsafe, hle⟩ := ih (cursor+1) (by omega) (by omega)
        rw [safe_bind, value_bind]
        exact ⟨⟨hsafe, safe_pure _⟩, hle⟩
    · rw [dif_neg hmore]
      exact ⟨safe_pure _, hcursor⟩

theorem safe_uuidAt {cursor len : ℕ} (ty : UInt8) (h : cursor+len ≤ end_) :
    (uuidAt work cursor ty len).Safe := by
  unfold uuidAt
  split
  · rename_i hlong
    rw [addIn_eq (by unfold usizeLimit; omega), addIn_eq (by unfold usizeLimit; omega), pure_bind,
      pure_bind, slice_eq (by omega), pure_bind]
    exact safe_formatSmbiosUuid _
  · exact safe_pure _

theorem safe_walkStructures (cursor : ℕ) (hcursor : cursor ≤ end_) :
    (walkStructures work end_ cursor).Safe := by
  induction hrest : end_-cursor using Nat.strong_induction_on generalizing cursor with
  | _ rest ih =>
    rw [walkStructures, check_bind (by unfold usizeLimit; omega)]
    by_cases hmore : cursor+4 ≤ end_
    · rw [dif_pos hmore, index_eq (by omega), index_eq (by omega), pure_bind, pure_bind]
      split
      · exact safe_pure _
      · rename_i hshort
        have hbyte := (work.getD (cursor+1) default).toNat_lt
        rw [check_bind (by unfold usizeLimit; omega)]
        split
        · exact safe_pure _
        · rename_i hfits
          rw [safe_bind, and_iff_right (safe_uuidAt hlen hend _ (by omega))]
          split
          · exact safe_pure _
          · obtain ⟨hsafe, hle⟩ := skipStrings_spec hlen hend
              (cursor+(work.getD (cursor+1) default).toNat) (by omega)
            rw [safe_bind]
            refine ⟨hsafe, ih _ ?_ _ hle rfl⟩
            have hprogress := (skipStrings work end_
              (cursor+(work.getD (cursor+1) default).toNat)).value.property
            omega
    · rw [dif_neg hmore]
      exact safe_pure _

end Safe

theorem safe_parseFirmwareUuid (work : Slice UInt8) :
    (parseFirmwareUuidFromRawSmbios work.toList).Safe := by
  have hlen := work.length_lt
  unfold parseFirmwareUuidFromRawSmbios
  split
  · exact safe_pure _
  · rename_i hheader
    rw [index_eq (by omega), index_eq (by omega), index_eq (by omega), index_eq (by omega),
      pure_bind, pure_bind, pure_bind, pure_bind]
    have htable := ofLe_lt [work.toList.getD 4 default, work.toList.getD 5 default,
      work.toList.getD 6 default, work.toList.getD 7 default]
    simp only [length_cons, length_nil] at htable
    dsimp only
    rw [addIn_eq (by unfold usizeLimit; omega), pure_bind]
    split
    · exact safe_pure _
    · exact safe_walkStructures hlen (by omega) 8 (by omega)

/-- A formatted area, which begins with the type, the length and a handle of two bytes, and
strings behind it. -/
structure Structure where
  ty : UInt8
  body : Bytes
  strings : List Bytes
  handle_le : 2 ≤ body.length
  length_lt : body.length+2 < 256
  strings_ok : ∀ s ∈ strings, s ≠ [] ∧ 0 ∉ s

namespace Structure

def length (s : Structure) : ℕ := s.body.length+2

def formatted (s : Structure) : Bytes := s.ty :: UInt8.ofNat s.length :: s.body

def stringSet (s : Structure) : Bytes :=
  if s.strings = [] then [0, 0] else terminated 0 s.strings ++ [0]

def encode (s : Structure) : Bytes := s.formatted ++ s.stringSet

def HasUuid (s : Structure) : Prop := s.ty = 1 ∧ 0x19 ≤ s.length

instance (s : Structure) : Decidable s.HasUuid := inferInstanceAs (Decidable (_ ∧ _))

def uuid (s : Structure) : Bytes := (s.formatted.drop 8).take 16

end Structure

def encodeTable (structures : List Structure) : Bytes := structures.flatMap Structure.encode

def Encodes (work : Bytes) (structures : List Structure) : Prop :=
  (encodeTable structures).length < 2^32 ∧ ∃ version trailing : Bytes, version.length = 4 ∧
    work = version ++ leBytes 4 (encodeTable structures).length ++ encodeTable structures ++ trailing

def mixedEndianText (uuid : Bytes) : Text :=
  ['-'].intercalate [hexBytes (uuid.take 4).reverse, hexBytes ((uuid.drop 4).take 2).reverse,
    hexBytes ((uuid.drop 6).take 2).reverse, hexBytes ((uuid.drop 8).take 2), hexBytes (uuid.drop 10)]

def systemUuid (structures : List Structure) : Option Text :=
  (structures.find? fun s => s.HasUuid).map fun s => mixedEndianText s.uuid

theorem exists_eq_map_range {α : Type*} [Inhabited α] (xs : List α) :
    ∃ item : ℕ → α, xs = (List.range xs.length).map item := by
  refine ⟨fun i => xs.getD i default, ?_⟩
  apply ext_getElem
  · rw [length_map, length_range]
  · intro i hi _
    rw [getElem_map, getElem_range, getD_eq_getElem _ _ hi]

theorem value_formatSmbiosUuid {raw : Bytes} (h : raw.length = 16) :
    (formatSmbiosUuid raw).value = some (mixedEndianText raw) := by
  obtain ⟨byte, hraw⟩ := exists_eq_map_range raw
  rw [h] at hraw
  have hfour (a b c d : UInt8) : padZeros 8 (hexLower (ofLe [a, b, c, d])) = hexBytes [d, c, b, a] :=
    padZeros_hexLower_ofLe (cons_ne_nil a [b, c, d])
  have htwo (a b : UInt8) : padZeros 4 (hexLower (ofLe [a, b])) = hexBytes [b, a] :=
    padZeros_hexLower_ofLe (cons_ne_nil a [b])
  have hformat : (formatSmbiosUuid raw).value = some (
      padZeros 8 (hexLower (ofLe [byte 0, byte 1, byte 2, byte 3])) ++
      '-' :: padZeros 4 (hexLower (ofLe [byte 4, byte 5])) ++
      '-' :: padZeros 4 (hexLower (ofLe [byte 6, byte 7])) ++
      '-' :: padZeros 2 (hexLower (byte 8).toNat) ++ padZeros 2 (hexLower (byte 9).toNat) ++
      '-' :: padZeros 2 (hexLower (byte 10).toNat) ++ padZeros 2 (hexLower (byte 11).toNat) ++
      padZeros 2 (hexLower (byte 12).toNat) ++ padZeros 2 (hexLower (byte 13).toNat) ++
      padZeros 2 (hexLower (byte 14).toNat) ++ padZeros 2 (hexLower (byte 15).toNat)) := by
    rw [hraw]
    rfl
  rw [hformat, hfour, htwo, htwo, hraw]
  simp only [padZeros_hexLower_two]
  rfl

variable {rest : Bytes} (s : Structure)

section Scan
variable (work : Bytes) (end_ cursor : ℕ)

theorem value_twoNulsAt : (twoNulsAt work cursor).value =
    decide (work.getD cursor default = 0 ∧ work.getD (cursor+1) default = 0) := by
  have hfirst : (index work cursor).value = work.getD cursor default := rfl
  rw [twoNulsAt, value_bind, hfirst]
  by_cases hzero : work.getD cursor default = 0
  · rw [if_pos hzero]
    simp only [hzero, true_and]
    rfl
  · rw [if_neg hzero]
    simp only [hzero, false_and, decide_false]
    rfl

theorem value_skipStrings : (skipStrings work end_ cursor).value.val =
    if cursor+1 < end_ then
      if work.getD cursor default = 0 ∧ work.getD (cursor+1) default = 0 then cursor+2
      else (skipStrings work end_ (cursor+1)).value.val
    else cursor := by
  rw [skipStrings, value_bind]
  by_cases hmore : cursor+1 < end_
  · rw [dif_pos hmore, if_pos hmore, value_bind, value_twoNulsAt]
    by_cases htwo : work.getD cursor default = 0 ∧ work.getD (cursor+1) default = 0
    · rw [if_pos htwo, if_pos (decide_eq_true htwo)]
      rfl
    · rw [if_neg htwo, if_neg (by simpa using htwo)]
      rfl
  · rw [dif_neg hmore, if_neg hmore]
    rfl

variable {work end_ cursor}

theorem skipStrings_stop (hend : cursor+2 ≤ end_) (h : work.drop cursor = 0 :: 0 :: rest) :
    (skipStrings work end_ cursor).value.val = cursor+2 := by
  have hsecond : work.drop (cursor+1) = 0 :: rest := drop_add_of_drop [0] h
  rw [value_skipStrings, if_pos (by omega), if_pos ⟨getD_of_drop h, getD_of_drop hsecond⟩]

theorem skipStrings_step {b c : UInt8} (hend : cursor+2 ≤ end_)
    (h : work.drop cursor = b :: c :: rest) (hpair : ¬ (b = 0 ∧ c = 0)) :
    (skipStrings work end_ cursor).value.val = (skipStrings work end_ (cursor+1)).value.val := by
  have hsecond : work.drop (cursor+1) = c :: rest := drop_add_of_drop [b] h
  rw [value_skipStrings, if_pos (by omega), getD_of_drop h, getD_of_drop hsecond, if_neg hpair]

theorem skipStrings_string {string : Bytes} (hfree : 0 ∉ string)
    (hend : cursor+string.length+1 ≤ end_) (h : work.drop cursor = string ++ 0 :: rest) :
    (skipStrings work end_ cursor).value.val =
      (skipStrings work end_ (cursor+string.length)).value.val := by
  induction string generalizing cursor with
  | nil => rw [length_nil, Nat.add_zero]
  | cons b string ih =>
    obtain ⟨hb, hstring⟩ := not_or.mp (mt mem_cons.mpr hfree)
    obtain ⟨c, tail, htail⟩ : ∃ c tail, string ++ 0 :: rest = c :: tail := by
      cases string <;> simp
    rw [length_cons] at hend
    have hstep : (skipStrings work end_ cursor).value.val =
        (skipStrings work end_ (cursor+1)).value.val := by
      apply skipStrings_step (by omega) (h.trans (congrArg (b :: ·) htail))
      exact fun hpair => hb hpair.1.symm
    have hdrop : work.drop (cursor+1) = string ++ 0 :: rest := drop_add_of_drop [b] h
    rw [hstep, ih hstring (by omega) hdrop, length_cons, Nat.add_assoc, Nat.add_comm 1]

theorem skipStrings_terminated {strings : List Bytes} (hne : strings ≠ [])
    (hstrings : ∀ s ∈ strings, s ≠ [] ∧ 0 ∉ s) (hend : cursor+room strings+1 ≤ end_)
    (h : work.drop cursor = terminated 0 strings ++ 0 :: rest) :
    (skipStrings work end_ cursor).value.val = cursor+room strings+1 := by
  induction strings generalizing cursor with
  | nil => contradiction
  | cons string strings ih =>
    obtain ⟨⟨_, hfree⟩, hrest⟩ := forall_mem_cons.mp hstrings
    rw [room_cons] at hend ⊢
    rw [terminated_cons, append_assoc, cons_append] at h
    rw [skipStrings_string hfree (by omega) h]
    have hdrop := drop_add_of_drop _ h
    cases strings with
    | nil =>
      -- the NUL of the last string and the NUL of the set
      rw [skipStrings_stop (by omega) hdrop, room_nil]
      omega
    | cons second strings =>
      -- the NUL of a string that is not the last one stands alone
      obtain ⟨hsecond, hsecondFree⟩ := hrest second mem_cons_self
      obtain ⟨c, second, rfl⟩ := exists_cons_of_ne_nil hsecond
      have hc : c ≠ 0 := fun hzero => hsecondFree (hzero ▸ mem_cons_self)
      have hnext : work.drop (cursor+string.length+1) =
          terminated 0 ((c :: second) :: strings) ++ 0 :: rest := drop_add_of_drop [0] hdrop
      rw [room_cons] at hend
      rw [skipStrings_step (by omega) hdrop fun hpair => hc hpair.2,
        ih (cons_ne_nil _ _) hrest (by rw [room_cons]; omega) hnext, room_cons]
      omega

theorem length_stringSet : s.stringSet.length = if s.strings = [] then 2 else room s.strings+1 := by
  unfold Structure.stringSet
  split
  · rfl
  · rw [length_append, length_terminated, length_singleton]

theorem skipStrings_stringSet (hend : cursor+s.stringSet.length ≤ end_)
    (h : work.drop cursor = s.stringSet ++ rest) :
    (skipStrings work end_ cursor).value.val = cursor+s.stringSet.length := by
  rw [length_stringSet] at hend ⊢
  unfold Structure.stringSet at h
  by_cases hempty : s.strings = []
  · rw [if_pos hempty] at h hend ⊢
    exact skipStrings_stop hend h
  · rw [if_neg hempty] at h hend ⊢
    rw [append_assoc] at h
    exact skipStrings_terminated hempty s.strings_ok hend h

end Scan

theorem length_formatted : s.formatted.length = s.length := rfl

theorem length_encode : s.encode.length = s.length+s.stringSet.length := by
  rw [Structure.encode, length_append, length_formatted]

theorem toNat_length : (UInt8.ofNat s.length).toNat = s.length :=
  UInt8.toNat_ofNat_of_lt' s.length_lt

theorem two_le_length_stringSet : 2 ≤ s.stringSet.length := by
  rw [length_stringSet]
  split
  · exact le_rfl
  · rename_i hne
    obtain ⟨string, strings, hstrings⟩ := exists_cons_of_ne_nil hne
    rw [hstrings, room_cons]
    omega

section Walk
variable {work : Bytes} {end_ cursor : ℕ}

theorem value_uuidAt {s : Structure} (h : work.drop cursor = s.formatted ++ rest) :
    (uuidAt work cursor s.ty s.length).value =
      if s.HasUuid then some (mixedEndianText s.uuid) else none := by
  have hcondition : (s.ty = 1 ∧ 0x19 ≤ s.length) = s.HasUuid := rfl
  unfold uuidAt
  simp only [hcondition]
  by_cases hhas : s.HasUuid
  · rw [if_pos hhas, if_pos hhas]
    have hlong := hhas.2
    have hslice : (work.take (cursor+24)).drop (cursor+8) = s.uuid := by
      rw [Structure.uuid, drop_take, ← drop_drop, h, drop_append_of_le_length,
        take_append_of_le_length, Nat.add_sub_add_left]
      · rw [length_drop, length_formatted]
        omega
      · rw [length_formatted]
        omega
    have hsixteen : s.uuid.length = 16 := by
      rw [Structure.uuid, length_take, length_drop, length_formatted]
      omega
    rw [value_bind, value_bind, value_bind]
    change (formatSmbiosUuid ((work.take (cursor+24)).drop (cursor+8))).value = _
    rw [hslice, value_formatSmbiosUuid hsixteen]
  · rw [if_neg hhas, if_neg hhas]
    rfl

theorem walkStructures_step {s : Structure} (hend : cursor+s.encode.length ≤ end_)
    (h : work.drop cursor = s.encode ++ rest) :
    (walkStructures work end_ cursor).value =
      if s.HasUuid then some (mixedEndianText s.uuid)
      else (walkStructures work end_ (cursor+s.encode.length)).value := by
  have hlength := length_encode s
  have hset := two_le_length_stringSet s
  have hhandle : 4 ≤ s.length := Nat.add_le_add_right s.handle_le 2
  rw [Structure.encode, append_assoc] at h
  have hty : (index work cursor).value = s.ty := getD_of_drop h
  have hlen : (index work (cursor+1)).value = UInt8.ofNat s.length :=
    getD_of_drop (drop_add_of_drop [s.ty] h)
  have hstrings : work.drop (cursor+s.length) = s.stringSet ++ rest := drop_add_of_drop _ h
  rw [walkStructures, value_bind, dif_pos (by omega), value_bind, value_bind, hty, hlen, toNat_length,
    dif_neg (by omega), value_bind, if_neg (by omega), value_bind, value_uuidAt h]
  by_cases hhas : s.HasUuid
  · rw [if_pos hhas, if_pos hhas]
    rfl
  · rw [if_neg hhas, if_neg hhas]
    change (walkStructures work end_ (skipStrings work end_ (cursor+s.length)).value.val).value = _
    rw [skipStrings_stringSet s (by omega) hstrings, hlength, Nat.add_assoc]

theorem value_walkStructures {structures : List Structure}
    (hend : end_ = cursor+(encodeTable structures).length)
    (h : work.drop cursor = encodeTable structures ++ rest) :
    (walkStructures work end_ cursor).value = systemUuid structures := by
  induction structures generalizing cursor with
  | nil =>
    rw [walkStructures, value_bind, dif_neg]
    · rfl
    · rw [hend, encodeTable, flatMap_nil, length_nil]
      omega
  | cons s structures ih =>
    have htable : encodeTable (s :: structures) = s.encode ++ encodeTable structures :=
      flatMap_cons
    rw [htable, append_assoc] at h
    rw [htable, length_append] at hend
    rw [walkStructures_step (by omega) h, ih (by omega) (drop_add_of_drop _ h), systemUuid, systemUuid,
      List.find?_cons]
    by_cases hhas : s.HasUuid
    · rw [if_pos hhas, decide_eq_true hhas]
      rfl
    · rw [if_neg hhas, decide_eq_false hhas]

theorem value_parseFirmwareUuid {structures : List Structure} (h : Encodes work structures) :
    (parseFirmwareUuidFromRawSmbios work).value = systemUuid structures := by
  obtain ⟨hsize, version, trailing, hversion, hwork⟩ := h
  generalize htable : encodeTable structures = table at hsize hwork
  have hlength : work.length = 8+table.length+trailing.length := by
    rw [hwork]
    simp only [length_append, leBytes_length, hversion]
  have hfield : work.drop 4 = leBytes 4 table.length ++ (table ++ trailing) := by
    rw [hwork, ← hversion, append_assoc, append_assoc, drop_left]
  have hbegin : work.drop 8 = table ++ trailing := by
    have hdrop := drop_add_of_drop _ hfield
    rwa [leBytes_length] at hdrop
  obtain ⟨a, b, c, d, hbytes⟩ : ∃ a b c d, leBytes 4 table.length = [a, b, c, d] :=
    ⟨_, _, _, _, rfl⟩
  have htableLen : ofLe [a, b, c, d] = table.length := by
    rw [← hbytes]
    exact ofLe_leBytes 4 _ hsize
  rw [hbytes] at hfield
  have ha : (index work 4).value = a := getD_of_drop hfield
  have hb : (index work 5).value = b := getD_of_drop (drop_add_of_drop [a] hfield)
  have hc : (index work 6).value = c := getD_of_drop (drop_add_of_drop [a, b] hfield)
  have hd : (index work 7).value = d := getD_of_drop (drop_add_of_drop [a, b, c] hfield)
  rw [parseFirmwareUuidFromRawSmbios, if_neg (by omega), value_bind, value_bind, value_bind, value_bind,
    ha, hb, hc, hd, htableLen]
  dsimp only
  rw [value_bind, value_addIn, if_neg (by omega)]
  apply value_walkStructures _ (htable ▸ hbegin)
  rw [htable]

end Walk

/-- No buffer makes the parser panic, and from every table it takes the UUID of the first structure
that has one. -/
theorem firmware_uuid_found (work : Slice UInt8) :
    (∃ answer, (parseFirmwareUuidFromRawSmbios work.toList).outcome = .ok answer) ∧
      ∀ structures, Encodes work.toList structures →
        (parseFirmwareUuidFromRawSmbios work.toList).outcome = .ok (systemUuid structures) := by
  have hsafe := safe_parseFirmwareUuid work
  refine ⟨(exists_outcome_iff _).mpr hsafe, ?_⟩
  intro structures hencodes
  exact outcome_eq_ok_iff.mpr ⟨hsafe, value_parseFirmwareUuid hencodes⟩

theorem firmware_uuid_found_second :
    ∃ (work : Slice UInt8) (bios system : Structure),
      bios.formatted = [0, 5, 0, 0, 1] ∧ bios.strings = [[0x41, 0x42]] ∧
      system.formatted = [1, 0x19, 1, 0, 0, 0, 0, 0, 0x00, 0x11, 0x22, 0x33, 0x44, 0x55, 0x66, 0x77, 0x88,
        0x99, 0xAA, 0xBB, 0xCC, 0xDD, 0xEE, 0xFF, 6] ∧
      Encodes work.toList [bios, system] ∧
      (parseFirmwareUuidFromRawSmbios work.toList).outcome =
        .ok (some "33221100-5544-7766-8899-aabbccddeeff".toList) := by
  let bios : Structure := ⟨0, [0, 0, 1], [[0x41, 0x42]], by decide, by decide, by decide⟩
  let system : Structure := ⟨1, [1, 0, 0, 0, 0, 0, 0x00, 0x11, 0x22, 0x33, 0x44, 0x55, 0x66, 0x77, 0x88,
    0x99, 0xAA, 0xBB, 0xCC, 0xDD, 0xEE, 0xFF, 6], [], by decide, by decide, forall_mem_nil _⟩
  let work : Bytes := [0, 3, 1, 0] ++ leBytes 4 (encodeTable [bios, system]).length ++
    encodeTable [bios, system] ++ [0, 0, 0, 0]
  have hencodes : Encodes work [bios, system] := by
    refine ⟨?_, [0, 3, 1, 0], [0, 0, 0, 0], rfl, rfl⟩
    decide
  have hfound := (firmware_uuid_found ⟨work, by decide⟩).2 [bios, system] hencodes
  exact ⟨⟨work, _⟩, bios, system, rfl, rfl, rfl, hencodes, hfound⟩

end WindowsErg.System
