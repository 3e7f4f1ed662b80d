import WindowsErg.ByteCodec

/-! Memory in which some addresses are mapped. A read gets all bytes of its range or nothing. -/
namespace MappedMemory
open List ByteCodec

abbrev Memory := ℕ → Option UInt8

def read (memory : Memory) : ℕ → ℕ → Option Bytes
  | _, 0 => some []
  | address, size+1 => do
    let byte ← memory address
    let rest ← read memory (address+1) size
    return byte :: rest

variable {memory : Memory}

variable {address size : ℕ} {bytes : Bytes}

theorem read_succ_eq_some_iff :
    read memory address (size+1) = some bytes ↔
      ∃ byte rest, memory address = some byte ∧ read memory (address+1) size = some rest ∧
        bytes = byte :: rest := by
  rw [read]
  cases memory address with
  | none => simp
  | some byte =>
    cases read memory (address+1) size with
    | none => simp
    | some rest => simp [eq_comm]

theorem length_of_read (h : read memory address size = some bytes) : bytes.length = size := by
  induction size generalizing address bytes with
  | zero =>
    cases h
    rfl
  | succ size ih =>
    obtain ⟨byte, rest, -, hrest, rfl⟩ := read_succ_eq_some_iff.mp h
    rw [length_cons, ih hrest]

theorem exists_read_iff (address size : ℕ) :
    (∃ bytes, read memory address size = some bytes) ↔
      ∀ i < size, (memory (address+i)).isSome = true := by
  induction size generalizing address with
  | zero => simp [read]
  | succ size ih =>
    simp only [read_succ_eq_some_iff]
    constructor
    · rintro ⟨bytes, byte, rest, hbyte, hrest, -⟩ i hi
      cases i with
      | zero => simp [hbyte]
      | succ i =>
        have hmapped := (ih (address+1)).mp ⟨rest, hrest⟩ i (by omega)
        rwa [Nat.add_right_comm] at hmapped
    · intro h
      obtain ⟨byte, hbyte⟩ := Option.isSome_iff_exists.mp (h 0 (Nat.succ_pos _))
      obtain ⟨rest, hrest⟩ := (ih (address+1)).mpr fun i hi => by
        have hmapped := h (i+1) (by omega)
        rwa [Nat.add_comm i, ← Nat.add_assoc] at hmapped
      exact ⟨_, byte, rest, hbyte, hrest, rfl⟩

theorem read_of_forall {byte : ℕ → UInt8} (h : ∀ i < size, memory (address+i) = some (byte i)) :
    read memory address size = some ((List.range size).map byte) := by
  induction size generalizing address byte with
  | zero => rfl
  | succ size ih =>
    have hrest : read memory (address+1) size = some ((List.range size).map fun i => byte (i+1)) := by
      apply ih
      intro i hi
      rw [← h (i+1) (by omega), Nat.add_comm i 1, Nat.add_assoc]
    have hfirst : memory address = some (byte 0) := h 0 (Nat.succ_pos _)
    rw [read_succ_eq_some_iff]
    refine ⟨_, _, hfirst, hrest, ?_⟩
    rw [range_succ_eq_map, map_cons, map_map]
    rfl

theorem read_add_eq_some_iff {first second : ℕ} :
    read memory address (first+second) = some bytes ↔
      ∃ front back, read memory address first = some front ∧
        read memory (address+first) second = some back ∧ bytes = front ++ back := by
  induction first generalizing address bytes with
  | zero => simp [read, eq_comm]
  | succ first ih =>
    have hsize : first+1+second = first+second+1 := by omega
    have haddress : address+1+first = address+(first+1) := by omega
    simp only [hsize, read_succ_eq_some_iff, ih, haddress]
    constructor
    · rintro ⟨byte, rest, hbyte, ⟨front, back, hfront, hback, rfl⟩, rfl⟩
      exact ⟨byte :: front, back, ⟨byte, front, hbyte, hfront, rfl⟩, hback, rfl⟩
    · rintro ⟨front', back, ⟨byte, front, hbyte, hfront, rfl⟩, hback, rfl⟩
      exact ⟨byte, front ++ back, hbyte, ⟨front, back, hfront, hback, rfl⟩, rfl⟩

section
variable {known : Bytes} (hknown : read memory address known.length = some known)
    (h : read memory address size = some bytes)
include hknown h

theorem append_of_read (hsize : known.length ≤ size) :
    ∃ rest, bytes = known ++ rest := by
  obtain ⟨more, rfl⟩ := Nat.exists_eq_add_of_le hsize
  obtain ⟨front, back, hfront, -, rfl⟩ := read_add_eq_some_iff.mp h
  rw [hknown] at hfront
  exact ⟨back, by rw [Option.some.inj hfront]⟩

theorem take_of_read (hsize : size ≤ known.length) :
    bytes = known.take size := by
  obtain ⟨more, hmore⟩ := Nat.exists_eq_add_of_le hsize
  rw [hmore] at hknown
  obtain ⟨front, back, hfront, -, rfl⟩ := read_add_eq_some_iff.mp hknown
  rw [h] at hfront
  rw [← Option.some.inj hfront, ← length_of_read h, take_left]

end

theorem slice_of_read {offset width : ℕ} {part : Bytes} (h : read memory address size = some bytes)
    (hpart : read memory (address+offset) width = some part) (hsize : offset+width ≤ size) :
    (bytes.drop offset).take width = part := by
  obtain ⟨more, rfl⟩ := Nat.exists_eq_add_of_le hsize
  obtain ⟨front, back, hfront, -, rfl⟩ := read_add_eq_some_iff.mp h
  obtain ⟨skipped, found, hskipped, hfound, rfl⟩ := read_add_eq_some_iff.mp hfront
  rw [hpart] at hfound
  have hfoundEq := Option.some.inj hfound
  rw [← length_of_read hskipped, append_assoc, drop_left, ← length_of_read hpart, hfoundEq,
    take_left]

end MappedMemory
