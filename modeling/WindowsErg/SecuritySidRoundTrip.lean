import WindowsErg.SecuritySddlRoundTrip

/-! SIDs from bytes to text and back, and from text to bytes and back. -/
namespace WindowsErg.Security
open TextScan ByteCodec

theorem Sid.fromBytes_value {data : Bytes} {s : Sid} (h : Sid.fromBytes data = .ok s) :
    ∃ v : SidValue, s.raw = v.bytes ∧ s.string = v.text := by
  obtain ⟨htext, hraw⟩ := (Sid.fromBytes_ok_iff data s).mp h
  obtain ⟨v, hdata, hstring⟩ := sidToStringWithSize_value data s.string htext
  exact ⟨v, hraw.trans hdata, hstring⟩

theorem Sid.parse_string_iff {data : Bytes} {s : Sid} (h : Sid.fromBytes data = .ok s) :
    (∃ t, Sid.parse s.string = .ok t ∧ t.raw = s.raw ∧ t.string = s.string) ↔
      s.identifierAuthority < 2^32 := by
  obtain ⟨v, hraw, hstring⟩ := Sid.fromBytes_value h
  have hspells : Spells s.string v := hstring ▸ v.text_spells
  rw [s.identifierAuthority_eq v hraw]
  constructor
  · rintro ⟨t, ht, -, -⟩
    obtain ⟨hbytes, -⟩ := (Sid.parse_ok_iff s.string t).mp ht
    obtain ⟨w, hw, hlt, -⟩ := (sidStringToBytes_ok_iff _ _).mp hbytes
    rw [hspells.unique hw]
    exact hlt
  · intro hlt
    have hbytes : sidStringToBytes s.string = .ok s.raw :=
      (sidStringToBytes_ok_iff _ _).mpr ⟨v, hspells, hlt, hraw⟩
    exact ⟨s, (Sid.parse_ok_iff s.string s).mpr ⟨hbytes, rfl⟩, rfl, rfl⟩

theorem Sid.fromBytes_raw {value : Text} {s : Sid} (h : Sid.parse value = .ok s) :
    ∃ t, Sid.fromBytes s.raw = .ok t ∧ t.raw = s.raw := by
  obtain ⟨hbytes, -⟩ := (Sid.parse_ok_iff value s).mp h
  obtain ⟨v, -, -, hraw⟩ := (sidStringToBytes_ok_iff _ _).mp hbytes
  let t : Sid := ⟨v.bytes, v.text, v, rfl, v.text_spells⟩
  have ht : Sid.fromBytes s.raw = .ok t := by
    rw [Sid.fromBytes_ok_iff, hraw]
    exact ⟨sidToStringWithSize_bytes v, rfl⟩
  exact ⟨t, ht, hraw.symm⟩

/-- The binary form survives the text exactly when the authority is below `2^32`, and every parsed
SID survives the binary form. -/
theorem sid_binary_text_round_trip_iff (data : Bytes) (value : Text) (s t : Sid)
    (hs : Sid.fromBytes data = .ok s) (ht : Sid.parse value = .ok t) :
    ((∃ r, Sid.parse s.string = .ok r ∧ r.raw = s.raw ∧ r.string = s.string) ↔
      s.identifierAuthority < 2^32) ∧
    ∃ r, Sid.fromBytes t.raw = .ok r ∧ r.raw = t.raw :=
  ⟨Sid.parse_string_iff hs, Sid.fromBytes_raw ht⟩

theorem Sid.exists_fromBytes (v : SidValue) :
    ∃ s : Sid, Sid.fromBytes v.bytes = .ok s ∧ s.raw = v.bytes ∧ s.string = v.text :=
  ⟨⟨v.bytes, v.text, v, rfl, v.text_spells⟩,
    (Sid.fromBytes_ok_iff _ _).mpr ⟨sidToStringWithSize_bytes v, rfl⟩, rfl, rfl⟩

theorem sid_binary_text_round_trip_system :
    ∃ s t, Sid.fromBytes [1, 1, 0, 0, 0, 0, 0, 5, 18, 0, 0, 0] = .ok s ∧
      Sid.parse "S-1-5-18".toList = .ok t ∧
      (∃ r, Sid.parse s.string = .ok r ∧ r.raw = s.raw ∧ r.string = s.string) ∧
      ∃ r, Sid.fromBytes t.raw = .ok r ∧ r.raw = t.raw := by
  let v : SidValue := ⟨1, 5, [18], by decide, by decide, by decide, by decide⟩
  obtain ⟨s, hs, hraw, -⟩ := Sid.exists_fromBytes v
  obtain ⟨t, ht, -, -⟩ := Sid.exists_parse "S-1-5-18".toList
    [1, 1, 0, 0, 0, 0, 0, 5, 18, 0, 0, 0] (by decide)
  have hbytes : v.bytes = [1, 1, 0, 0, 0, 0, 0, 5, 18, 0, 0, 0] := by decide
  rw [hbytes] at hs
  have hboth := sid_binary_text_round_trip_iff _ _ s t hs ht
  have hauthority : s.identifierAuthority < 2^32 := by
    rw [s.identifierAuthority_eq v hraw]
    decide
  exact ⟨s, t, hs, ht, hboth.1.mpr hauthority, hboth.2⟩

/-- The authority `2^32`: the text `S-1-4294967296` is not parsed. -/
theorem sid_large_authority_not_parsed :
    ∃ s, Sid.fromBytes [1, 0, 0, 1, 0, 0, 0, 0] = .ok s ∧ s.string = "S-1-4294967296".toList ∧
      ∃ e, Sid.parse s.string = .error e := by
  let v : SidValue := ⟨1, 2^32, [], by decide, by decide, by decide, by decide⟩
  obtain ⟨s, hs, hraw, hstring⟩ := Sid.exists_fromBytes v
  have hbytes : v.bytes = [1, 0, 0, 1, 0, 0, 0, 0] := by decide
  have htext : v.text = "S-1-4294967296".toList := by decide
  rw [hbytes] at hs
  refine ⟨s, hs, hstring.trans htext, ?_⟩
  cases hparse : Sid.parse s.string with
  | error e => exact ⟨e, rfl⟩
  | ok t =>
    obtain ⟨hb, -⟩ := (Sid.parse_ok_iff s.string t).mp hparse
    obtain ⟨w, hw, hlt, -⟩ := (sidStringToBytes_ok_iff _ _).mp hb
    have hv : Spells s.string v := hstring ▸ v.text_spells
    rw [hw.unique hv] at hlt
    exact absurd hlt (by decide)

end WindowsErg.Security
