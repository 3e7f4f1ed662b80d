import WindowsErg.DelimitedItems
import WindowsErg.RegistryValues

/-! Texts in the registry, `src/registry/values.rs`, with or without a terminator. -/
namespace WindowsErg.Registry
open List TextScan ByteCodec UnicodeText DelimitedItems

variable {κ : Type}

def storedUnits (units : List UInt16) (nul : Bool) : List UInt16 := if nul then units ++ [0] else units

theorem length_storedUnits (units : List UInt16) (nul : Bool) :
    (storedUnits units nul).length = units.length+nul.toNat := by
  cases nul <;> simp [storedUnits]

theorem readFromKey_storedUnits {store : ValueStore κ} {key : RegistryKey κ} {name : Text}
    {type : UInt32} {units : List UInt16} (htype : type = 1 ∨ type = 2)
    (hstored : store key.handle (valueName name) = some ⟨type, utf16LeBytes units⟩) :
    stringFormat.readFromKey store key name =
      if units.length ≤ 1024 then .ok (decodeUtf16Lossy (units.take (units.length-1)))
      else .error (.windowsApi errorMoreData) := by
  have hlength := length_utf16LeBytes units
  have hread : type ∈ stringFormat.readTypes := by
    rcases htype with rfl | rfl <;> decide
  rw [ValueFormat.readFromKey, regQueryValueExW, hstored]
  by_cases hfits : units.length ≤ 1024
  · have hbytes : (utf16LeBytes units).length ≤ stringFormat.capacity := by
      change _ ≤ 2048
      omega
    have hcount : (utf16LeBytes units).length/2-1 = units.length-1 := by omega
    have hunits : unitsOf (fillBuffer stringFormat.capacity (utf16LeBytes units)) =
        units ++ unitsOf (List.replicate (stringFormat.capacity-(utf16LeBytes units).length) 0) :=
      unitsOf_utf16LeBytes units _
    simp only [if_pos hbytes, if_pos hread, if_pos hfits]
    change Except.ok (decodeUtf16Lossy ((unitsOf _).take (_/2-1))) = _
    rw [hcount, hunits, take_append_of_le_length (Nat.sub_le _ _)]
  · have hbytes : ¬ (utf16LeBytes units).length ≤ stringFormat.capacity := by
      change ¬ _ ≤ 2048
      omega
    have hcode : errorMoreData ≠ errorFileNotFound := by decide
    simp only [if_neg hbytes, if_neg hcode, if_neg hfits]

/-- All characters of a stored text are read exactly if a terminator was stored and fits into the
buffer with them, or there is nothing to read. -/
theorem string_read_whole_iff (store : ValueStore κ) (key : RegistryKey κ) (name : Text)
    (type : UInt32) (units : List UInt16) (nul : Bool) (htype : type = 1 ∨ type = 2)
    (hstored : store key.handle (valueName name) =
      some ⟨type, utf16LeBytes (storedUnits units nul)⟩) :
    stringFormat.readFromKey store key name = .ok (decodeUtf16Lossy units) ↔
      nul = true ∧ units.length+1 ≤ 1024 ∨ nul = false ∧ units = [] := by
  have hlength := length_storedUnits units nul
  rw [readFromKey_storedUnits htype hstored]
  cases nul with
  | true =>
    have hfront : (storedUnits units true).take ((storedUnits units true).length-1) = units := by
      simp [storedUnits]
    rw [hfront]
    simp only [Bool.toNat_true] at hlength
    by_cases hfits : units.length+1 ≤ 1024
    · simp [hlength, hfits]
    · simp [hlength, hfits]
  | false =>
    simp only [storedUnits, Bool.false_eq_true, if_false, false_and, false_or, true_and]
    rcases eq_nil_or_concat' units with rfl | ⟨front, last, rfl⟩
    · simp
    · -- the last unit is taken off, and the text without it is another one
      have hfront : (front ++ [last]).take ((front ++ [last]).length-1) = front := by simp
      have hlost := (decodeUtf16Lossy_concat_ne front last).symm
      rw [hfront]
      split
      · simp [hlost]
      · simp

def driveStore (nul : Bool) : ValueStore Unit :=
  fun _ _ => some ⟨1, utf16LeBytes (storedUnits [0x43, 0x3A] nul)⟩

theorem string_read_whole_terminated :
    stringFormat.readFromKey (driveStore true) scratchKey "Drive".toList = .ok "C:".toList :=
  (string_read_whole_iff (driveStore true) scratchKey "Drive".toList 1 [0x43, 0x3A] true
    (Or.inl rfl) rfl).mpr (by decide)

/-- Without a terminator the colon is lost. -/
theorem string_read_cut :
    stringFormat.readFromKey (driveStore false) scratchKey "Drive".toList = .ok "C".toList := by
  rw [readFromKey_storedUnits (Or.inl rfl) rfl]
  rfl

/-- The loop over the units from `i` on, `rounds` of them; the text that is being read begins at
`start`. -/
def multiStrings (buf : List UInt16) : ℕ → ℕ → ℕ → List Text → List Text
  | 0, _, _, strings => strings
  | rounds+1, i, start, strings =>
    if buf[i]? = some 0 then
      let strings :=
        if start < i then strings ++ [decodeUtf16Lossy ((buf.drop start).take (i-start))] else strings
      -- the end of the list
      if buf[i+1]? = some 0 then strings
      else multiStrings buf rounds (i+1) (i+1) strings
    else multiStrings buf rounds (i+1) start strings

def multiStringUnits (value : List Text) : List UInt16 :=
  terminated 0 (value.map encodeUtf16) ++ [0]

def multiStringFormat : ValueFormat (List Text) where
  capacity := 4096*2
  readTypes := [7]
  expected := "Vec<String> (REG_MULTI_SZ)".toList
  decode buf len := multiStrings (unitsOf buf) (len/2) 0 0 []
  writeType := 7
  encode value := utf16LeBytes (multiStringUnits value)

theorem multiStrings_skip (seen unseen tail : List UInt16) (h : 0 ∉ unseen) (rounds start : ℕ)
    (strings : List Text) :
    multiStrings (seen ++ (unseen ++ tail)) (unseen.length+rounds) seen.length start strings =
      multiStrings (seen ++ (unseen ++ tail)) rounds (seen.length+unseen.length) start strings := by
  induction unseen generalizing seen with
  | nil => simp
  | cons u unseen ih =>
    obtain ⟨hu, hunseen⟩ := not_or.mp (mt mem_cons.mpr h)
    have hat : (seen ++ (u :: unseen ++ tail))[seen.length]? = some u := by simp
    have hne : ¬ some u = some 0 := fun he => hu (Option.some.inj he).symm
    have hrounds : (u :: unseen).length+rounds = unseen.length+rounds+1 := by
      rw [length_cons]
      omega
    have hseen : seen ++ (u :: unseen ++ tail) = seen ++ [u] ++ (unseen ++ tail) := by simp
    have hlength : (seen ++ [u]).length = seen.length+1 := by simp
    have hstep := ih (seen ++ [u]) hunseen
    rw [hlength] at hstep
    rw [hrounds, multiStrings, hat, if_neg hne, hseen, hstep, length_cons, Nat.add_assoc,
      Nat.add_comm 1]

theorem multiStrings_terminated (front : List UInt16) (items : List (List UInt16)) (hne : items ≠ [])
    (hitems : ∀ item ∈ items, item ≠ [] ∧ 0 ∉ item) (tail : List UInt16) (rounds : ℕ)
    (strings : List Text) :
    multiStrings (front ++ (terminated 0 items ++ 0 :: tail)) (room items+rounds) front.length
        front.length strings =
      strings ++ items.map decodeUtf16Lossy := by
  induction items generalizing front strings with
  | nil => contradiction
  | cons item items ih =>
    obtain ⟨⟨hitem, hzero⟩, hrest⟩ := forall_mem_cons.mp hitems
    have hpos : 0 < item.length := length_pos_iff.mpr hitem
    have hbuf : front ++ (terminated 0 (item :: items) ++ 0 :: tail) =
        front ++ (item ++ (0 :: (terminated 0 items ++ 0 :: tail))) := by
      rw [terminated_cons, append_assoc, cons_append]
    have hrounds : room (item :: items)+rounds = item.length+(room items+rounds+1) := by
      rw [room_cons]
      omega
    -- the terminator of this text, and the text in front of it
    have hat : (front ++ (item ++ (0 :: (terminated 0 items ++ 0 :: tail))))[front.length+item.length]? =
        some 0 := by
      rw [← append_assoc, ← length_append]
      simp
    have htext : ((front ++ (item ++ (0 :: (terminated 0 items ++ 0 :: tail)))).drop front.length).take
        (front.length+item.length-front.length) = item := by
      rw [drop_left, Nat.add_sub_cancel_left, take_left]
    have hafter : (front ++ (item ++ (0 :: (terminated 0 items ++ 0 :: tail))))[
        front.length+item.length+1]? = (terminated 0 items ++ 0 :: tail)[0]? := by
      have hsplit : front ++ (item ++ (0 :: (terminated 0 items ++ 0 :: tail))) =
          (front ++ item ++ [0]) ++ (terminated 0 items ++ 0 :: tail) := by simp
      have hindex : front.length+item.length+1 = (front ++ item ++ [0]).length := by simp; omega
      rw [hsplit, hindex, List.getElem?_append_right le_rfl, Nat.sub_self]
    rw [hbuf, hrounds, multiStrings_skip front item _ hzero, multiStrings, if_pos hat]
    simp only [htext, hafter, if_pos (Nat.lt_add_of_pos_right hpos)]
    cases items with
    | nil => simp [terminated]
    | cons second items =>
      obtain ⟨⟨hsecond, hnonzero⟩, -⟩ := forall_mem_cons.mp hrest
      obtain ⟨u, word, rfl⟩ := exists_cons_of_ne_nil hsecond
      have hu : ¬ some u = some 0 := fun he => hnonzero (Option.some.inj he ▸ mem_cons_self)
      have hhead : (terminated 0 ((u :: word) :: items) ++ 0 :: tail)[0]? = some u := by
        simp [terminated_cons]
      -- the next text begins behind the terminator, and is the first of what is left
      have hstep := ih (front ++ (item ++ [0])) (cons_ne_nil _ _) hrest
        (strings ++ [decodeUtf16Lossy item])
      have hdone (rest : List UInt16) :
          front ++ (item ++ [0]) ++ rest = front ++ (item ++ 0 :: rest) := by simp
      have hlength : (front ++ (item ++ [0])).length = front.length+item.length+1 := by
        simp [Nat.add_assoc]
      rw [hdone, hlength] at hstep
      rw [hhead, if_neg hu, hstep]
      simp

theorem length_multiStringFormat_encode (value : List Text) :
    (multiStringFormat.encode value).length = 2*(multiStringUnits value).length :=
  length_utf16LeBytes _

theorem multiStringFormat_decode_encode {value : List Text}
    (hvalue : ∀ s ∈ value, s ≠ [] ∧ Char.ofNat 0 ∉ s) :
    multiStringFormat.decode (fillBuffer multiStringFormat.capacity (multiStringFormat.encode value))
      (multiStringFormat.encode value).length = value := by
  have hcount : (multiStringFormat.encode value).length/2 = room (value.map encodeUtf16)+1 := by
    rw [length_multiStringFormat_encode, multiStringUnits, length_append, length_terminated,
      length_singleton]
    omega
  obtain ⟨tail, hunits⟩ : ∃ tail, unitsOf (fillBuffer multiStringFormat.capacity
      (multiStringFormat.encode value)) = terminated 0 (value.map encodeUtf16) ++ 0 :: tail := by
    refine ⟨unitsOf (List.replicate (multiStringFormat.capacity-
      (multiStringFormat.encode value).length) 0), ?_⟩
    change unitsOf (utf16LeBytes (multiStringUnits value) ++ _) = _
    rw [unitsOf_utf16LeBytes, multiStringUnits, append_assoc, singleton_append]
  change multiStrings (unitsOf _) (_/2) 0 0 [] = value
  rw [hcount, hunits]
  by_cases hempty : value = []
  · subst hempty
    simp [multiStrings, terminated]
  · have hitems : ∀ item ∈ value.map encodeUtf16, item ≠ [] ∧ 0 ∉ item := by
      intro item hitem
      obtain ⟨s, hs, rfl⟩ := mem_map.mp hitem
      refine ⟨fun hnil => (hvalue s hs).1 ?_, fun hzero => ?_⟩
      · rw [← decodeUtf16Lossy_encodeUtf16 s, hnil]
        rfl
      · exact ne_zero_of_mem_encodeUtf16 s (hvalue s hs).2 0 hzero rfl
    have hread := multiStrings_terminated [] (value.map encodeUtf16) (by simpa using hempty) hitems
      tail 1 []
    simp only [nil_append, length_nil, map_map] at hread
    rw [hread]
    have hid : decodeUtf16Lossy ∘ encodeUtf16 = id := funext decodeUtf16Lossy_encodeUtf16
    rw [hid, map_id]

/-- A list of texts that are not empty and have no NUL is read back. -/
theorem multi_string_reads_back [DecidableEq κ] (store store' : ValueStore κ) (status : UInt32)
    (key : RegistryKey κ) (name : Text) (value : List Text)
    (hvalue : ∀ s ∈ value, s ≠ [] ∧ Char.ofNat 0 ∉ s)
    (hlength : (multiStringUnits value).length ≤ 4096)
    (hwrite : multiStringFormat.writeToKey store status key name value = .ok store') :
    multiStringFormat.readFromKey store' key name = .ok value := by
  have hfits : (multiStringFormat.encode value).length ≤ multiStringFormat.capacity := by
    rw [length_multiStringFormat_encode]
    change _ ≤ 8192
    omega
  rw [ValueFormat.readFromKey_of_stored (by decide) hwrite, if_pos hfits,
    multiStringFormat_decode_encode hvalue]

theorem multi_string_reads_back_two :
    ∃ store', multiStringFormat.writeToKey emptyStore 0 scratchKey "Path".toList
        ["a".toList, "bc".toList] = .ok store' ∧
      multiStringFormat.readFromKey store' scratchKey "Path".toList =
        .ok ["a".toList, "bc".toList] := by
  obtain ⟨store', h⟩ := multiStringFormat.writeToKey_eq emptyStore scratchKey "Path".toList
    ["a".toList, "bc".toList] (by decide)
  exact ⟨store', h, multi_string_reads_back emptyStore store' 0 scratchKey "Path".toList _
    (by decide) (by decide) h⟩

end WindowsErg.Registry
