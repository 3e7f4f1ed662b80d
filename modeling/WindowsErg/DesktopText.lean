import Mathlib.Data.List.TakeWhile
import WindowsErg.UnicodeText

/-! Texts cut to a buffer: a list view asks for a cell's text, and the shell reads a tooltip from
an array of fixed size. -/

namespace WindowsErg.Desktop
open List TextScan UnicodeText

def writeUnits : List UInt16 → List UInt16 → List UInt16 × ℕ
  | _ :: slots, unit :: units =>
    ((unit :: (writeUnits slots units).1), (writeUnits slots units).2 + 1)
  | slots, _ => (slots, 0)

/-- `ListViewTextRequest::set_text`. What stands behind the terminator is left as it was. -/
def setText (buffer : List UInt16) (text : Text) : List UInt16 :=
  if buffer.length = 0 then buffer
  else
    let last := buffer.length - 1
    let loop := writeUnits (buffer.take last) (encodeUtf16 text)
    (loop.1 ++ buffer.drop last).set loop.2 0

def fixedText (size : ℕ) (text : Text) : List UInt16 :=
  let destination := List.replicate size 0
  (writeUnits (destination.take (size - 1)) (encodeUtf16 text)).1 ++ destination.drop (size - 1)

theorem writeUnits_eq (slots units : List UInt16) :
    writeUnits slots units =
      (units.take slots.length ++ slots.drop units.length, (units.take slots.length).length) := by
  induction slots generalizing units with
  | nil => simp [writeUnits]
  | cons slot slots ih =>
    cases units with
    | nil => simp [writeUnits]
    | cons unit units => simp [writeUnits, ih]

theorem setText_eq {buffer : List UInt16} (hbuffer : 1 ≤ buffer.length) (text : Text) :
    ∃ rest, setText buffer text = (encodeUtf16 text).take (buffer.length - 1) ++ 0 :: rest := by
  have hfront : (buffer.take (buffer.length - 1)).length = buffer.length - 1 := by
    rw [length_take]
    omega
  obtain ⟨slot, hlast⟩ : ∃ slot, buffer.drop (buffer.length - 1) = [slot] := by
    apply length_eq_one_iff.mp
    rw [length_drop]
    omega
  unfold setText
  rw [if_neg (by omega)]
  simp only [writeUnits_eq, hfront, hlast, append_assoc]
  -- the terminator goes to the first slot the loop left alone
  rw [set_append_right _ _ le_rfl, Nat.sub_self]
  cases (buffer.take (buffer.length - 1)).drop (encodeUtf16 text).length with
  | nil => exact ⟨[], rfl⟩
  | cons _ rest => exact ⟨rest ++ [slot], rfl⟩

theorem fixedText_eq {size : ℕ} (hsize : 1 ≤ size) (text : Text) :
    ∃ rest, fixedText size text = (encodeUtf16 text).take (size - 1) ++ 0 :: rest := by
  have hfront : min (size - 1) size = size - 1 := by omega
  have hlast : size - (size - 1) = 1 := by omega
  unfold fixedText
  simp only [writeUnits_eq, take_replicate, drop_replicate, length_replicate, hfront,
    hlast, append_assoc, ← replicate_add]
  exact ⟨_, congrArg _ replicate_succ⟩

theorem length_setText (buffer : List UInt16) (text : Text) :
    (setText buffer text).length = buffer.length := by
  unfold setText
  split
  · rfl
  · simp only [writeUnits_eq, length_set, length_append, length_take, length_drop]
    omega

theorem length_fixedText (size : ℕ) (text : Text) : (fixedText size text).length = size := by
  simp only [fixedText, writeUnits_eq, length_append, length_take, length_drop, length_replicate]
  omega

structure LongestFit (text : Text) (room : ℕ) (shown : Text) : Prop where
  isPrefix : shown <+: text
  fits : (encodeUtf16 shown).length ≤ room
  longest : ∀ other, other <+: text → (encodeUtf16 other).length ≤ room →
    other.length ≤ shown.length

def beforeNul (text : Text) : Text :=
  text.takeWhile (· ≠ Char.ofNat 0)

structure WholeCut (size : ℕ) (text : Text) (units : List UInt16) : Prop where
  inside : units.length = size
  terminated : 0 ∈ units
  decodes : ∃ shown, decodeUtf16 (units.takeWhile (· ≠ 0)) = some shown ∧
    LongestFit (beforeNul text) (size - 1) shown

/-- The last unit of the room would be the first of a surrogate pair. -/
def SplitsPair (text : Text) (room : ℕ) : Prop :=
  ∃ front c rest, text = front ++ c :: rest ∧ (encodeUtf16 front).length + 1 = room ∧
    0x10000 ≤ c.toNat

theorem length_encodeUtf16Char (c : Char) :
    (encodeUtf16Char c).length = if c.toNat < 0x10000 then 1 else 2 := by
  by_cases hc : c.toNat < 0x10000
  · simp [encodeUtf16Char, hc]
  · simp [encodeUtf16Char, hc]

theorem takeWhile_terminated (text : Text) (room : ℕ) (rest : List UInt16) :
    ((encodeUtf16 text).take room ++ 0 :: rest).takeWhile (· ≠ 0) =
      (encodeUtf16 (beforeNul text)).take room := by
  have hfront : ∀ u ∈ encodeUtf16 (beforeNul text), decide (u ≠ 0) = true := by
    intro u hu
    apply decide_eq_true
    apply ne_zero_of_mem_encodeUtf16 (beforeNul text) _ u hu
    intro hmem
    have hkept := mem_takeWhile_imp (p := (· ≠ Char.ofNat 0)) hmem
    exact of_decide_eq_true hkept rfl
  -- behind the first NUL stands nothing, or the unit zero
  obtain ⟨behind, hbehind⟩ : ∃ behind,
      (encodeUtf16 text).take room ++ 0 :: rest =
        (encodeUtf16 (beforeNul text)).take room ++ 0 :: behind := by
    have hsplit : beforeNul text ++ text.dropWhile (· ≠ Char.ofNat 0) = text :=
      takeWhile_append_dropWhile
    nth_rewrite 1 [← hsplit]
    rw [encodeUtf16_append, take_append, append_assoc]
    cases hdrop : text.dropWhile (· ≠ Char.ofNat 0) with
    | nil => exact ⟨rest, by simp [encodeUtf16]⟩
    | cons c tail =>
      have hhead := List.head?_dropWhile_not (· ≠ Char.ofNat 0) text
      rw [hdrop] at hhead
      have hc : c = Char.ofNat 0 := by simpa using hhead
      have hunits : encodeUtf16 (c :: tail) = 0 :: encodeUtf16 tail := by rw [hc]; rfl
      rw [hunits]
      cases room - (encodeUtf16 (beforeNul text)).length with
      | zero => exact ⟨rest, rfl⟩
      | succ room => exact ⟨(encodeUtf16 tail).take room ++ 0 :: rest, rfl⟩
  rw [hbehind, takeWhile_append_of_pos fun u hu => hfront u (mem_of_mem_take hu)]
  simp

theorem take_encodeUtf16_of_not_splitsPair {text : Text} {room : ℕ} (h : ¬ SplitsPair text room) :
    ∃ shown, (encodeUtf16 text).take room = encodeUtf16 shown ∧ LongestFit text room shown := by
  induction text generalizing room with
  | nil =>
    refine ⟨[], take_nil, prefix_rfl, Nat.zero_le _, fun other hother _ => ?_⟩
    rw [prefix_nil.mp hother]
  | cons c text ih =>
    have hlen := length_encodeUtf16Char c
    by_cases hfits : (encodeUtf16Char c).length ≤ room
    · have hrest : ¬ SplitsPair text (room - (encodeUtf16Char c).length) := by
        rintro ⟨front, d, rest, rfl, hroom, hd⟩
        refine h ⟨c :: front, d, rest, rfl, ?_, hd⟩
        rw [encodeUtf16_cons, length_append]
        omega
      obtain ⟨shown, htake, hshown, hroom, hlongest⟩ := ih hrest
      refine ⟨c :: shown, ?_, cons_prefix_cons.mpr ⟨rfl, hshown⟩, ?_, ?_⟩
      · rw [encodeUtf16_cons, encodeUtf16_cons, take_append, take_of_length_le hfits, htake]
      · rw [encodeUtf16_cons, length_append]
        omega
      · intro other hother hother_room
        cases other with
        | nil => exact Nat.zero_le _
        | cons d other =>
          obtain ⟨rfl, htail⟩ := cons_prefix_cons.mp hother
          rw [encodeUtf16_cons, length_append] at hother_room
          exact Nat.succ_le_succ (hlongest other htail (by omega))
    · -- a character that does not fit leaves no room, or room for half of it
      have hzero : room = 0 := by
        by_contra hroom
        rw [hlen] at hfits
        split at hfits
        · omega
        · exact h ⟨[], c, text, rfl, by simp [encodeUtf16]; omega, by omega⟩
      subst hzero
      refine ⟨[], rfl, nil_prefix, le_rfl, fun other hother hroom => ?_⟩
      cases other with
      | nil => exact le_rfl
      | cons d other =>
        obtain ⟨rfl, -⟩ := cons_prefix_cons.mp hother
        rw [encodeUtf16_cons, length_append] at hroom
        omega

theorem decodeUtf16_take_of_splitsPair {text : Text} {room : ℕ} (h : SplitsPair text room) :
    decodeUtf16 ((encodeUtf16 text).take room) = none := by
  obtain ⟨front, c, rest, rfl, hroom, hc⟩ := h
  have hlen := length_encodeUtf16Char c
  rw [if_neg (by omega)] at hlen
  rcases encodeUtf16Char_cases c with ⟨u, hunits, -⟩ | ⟨u, v, hunits, hhigh, -⟩
  · simp [hunits] at hlen
  · -- the room ends behind the first unit of `c`
    have htake : (encodeUtf16 (front ++ c :: rest)).take room = encodeUtf16 front ++ [u] := by
      rw [encodeUtf16_append, encodeUtf16_cons, hunits, ← hroom, take_append,
        take_of_length_le (Nat.le_succ _), Nat.add_sub_cancel_left]
      rfl
    rw [htake, decodeUtf16_encodeUtf16_append]
    simp [decodeUtf16, hhigh]

theorem wholeCut_iff {size : ℕ} {text : Text} {units : List UInt16} (hlen : units.length = size)
    (hunits : ∃ rest, units = (encodeUtf16 text).take (size - 1) ++ 0 :: rest) :
    WholeCut size text units ↔ ¬ SplitsPair (beforeNul text) (size - 1) := by
  obtain ⟨rest, rfl⟩ := hunits
  constructor
  · rintro ⟨-, -, shown, hdecode, -⟩ hsplit
    rw [takeWhile_terminated, decodeUtf16_take_of_splitsPair hsplit] at hdecode
    exact nomatch hdecode
  · intro hsplit
    obtain ⟨shown, htake, hfit⟩ := take_encodeUtf16_of_not_splitsPair hsplit
    refine ⟨hlen, mem_append_right _ mem_cons_self, shown, ?_, hfit⟩
    rw [takeWhile_terminated, htake, decodeUtf16_encodeUtf16]

/-- Both writers cut the text at a character boundary exactly when the room does not end inside a
surrogate pair. -/
theorem text_cut_whole_iff {buffer : List UInt16} (hbuffer : 1 ≤ buffer.length) (text : Text) :
    (WholeCut buffer.length text (setText buffer text) ↔
        ¬ SplitsPair (beforeNul text) (buffer.length - 1)) ∧
      (WholeCut buffer.length text (fixedText buffer.length text) ↔
        ¬ SplitsPair (beforeNul text) (buffer.length - 1)) :=
  ⟨wholeCut_iff (length_setText buffer text) (setText_eq hbuffer text),
    wholeCut_iff (length_fixedText buffer.length text) (fixedText_eq hbuffer text)⟩

theorem text_cut_whole_two :
    WholeCut 2 ['a', 'b'] (setText [7, 7] ['a', 'b']) ∧ WholeCut 2 ['a', 'b'] (fixedText 2 ['a', 'b']) := by
  have hwhole : ¬ SplitsPair (beforeNul ['a', 'b']) 1 := by
    rintro ⟨front, c, rest, htext, hroom, hc⟩
    have hmem : c ∈ beforeNul ['a', 'b'] := htext ▸ mem_append_right _ mem_cons_self
    have hmem : c ∈ ['a', 'b'] := takeWhile_subset _ hmem
    simp only [mem_cons, not_mem_nil, or_false] at hmem
    rcases hmem with rfl | rfl
    · exact absurd hc (by decide)
    · exact absurd hc (by decide)
  have h := @text_cut_whole_iff [7, 7] (by decide) ['a', 'b']
  exact ⟨h.1.mpr hwhole, h.2.mpr hwhole⟩

theorem text_cut_inside_pair :
    ¬ WholeCut 2 [Char.ofNat 0x1F600] (setText [7, 7] [Char.ofNat 0x1F600]) ∧
      ¬ WholeCut 2 [Char.ofNat 0x1F600] (fixedText 2 [Char.ofNat 0x1F600]) := by
  have hset : setText [7, 7] [Char.ofNat 0x1F600] = [0xD83D, 0] := by decide
  have hfixed : fixedText 2 [Char.ofNat 0x1F600] = [0xD83D, 0] := by decide
  have hnone : decodeUtf16 (([0xD83D, 0] : List UInt16).takeWhile (· ≠ 0)) = none := by decide
  constructor
  · rintro ⟨-, -, shown, hdecode, -⟩
    rw [hset, hnone] at hdecode
    exact nomatch hdecode
  · rintro ⟨-, -, shown, hdecode, -⟩
    rw [hfixed, hnone] at hdecode
    exact nomatch hdecode

end WindowsErg.Desktop
