import WindowsErg.SecuritySidText

/-! `Sid` values and their constructors. -/
namespace WindowsErg.Security
open TextScan ByteCodec Outcome

@[ext] structure Sid where
  raw : Bytes
  string : Text
  form : ∃ v : SidValue, raw = v.bytes ∧ Spells string v
  deriving DecidableEq

namespace Sid

def fromBytes (data : Bytes) : Except SidParseError Sid :=
  match h : sidToStringWithSize data with
  | none => .error ⟨"binary_sid".toList, "SID data is malformed or truncated".toList⟩
  | some (sidString, consumed) =>
    if hc : consumed ≠ data.length then
      .error ⟨"binary_sid".toList, "SID buffer contains trailing bytes".toList⟩
    else .ok ⟨data, sidString, by
      obtain ⟨v, hv, rfl⟩ := sidToStringWithSize_value data sidString
        (by rw [h, not_not.mp hc])
      exact ⟨v, hv, v.text_spells⟩⟩

def parse (value : Text) : Except SidParseError Sid :=
  match h : sidStringToBytes value with
  | .error e => .error e
  | .ok raw => .ok ⟨raw, value, by
      obtain ⟨v, hv, -, hr⟩ := (sidStringToBytes_ok_iff value raw).mp h
      exact ⟨v, hr, hv⟩⟩

end Sid

def wellKnownSids : List (Text × Text) := [
  ("SY".toList, "S-1-5-18".toList), ("BA".toList, "S-1-5-32-544".toList),
  ("BU".toList, "S-1-5-32-545".toList), ("BG".toList, "S-1-5-32-546".toList),
  ("PU".toList, "S-1-5-32-547".toList), ("AO".toList, "S-1-5-32-548".toList),
  ("SO".toList, "S-1-5-32-549".toList), ("PO".toList, "S-1-5-32-550".toList),
  ("BO".toList, "S-1-5-32-551".toList), ("RE".toList, "S-1-5-32-552".toList),
  ("WD".toList, "S-1-1-0".toList), ("AU".toList, "S-1-5-11".toList),
  ("AN".toList, "S-1-5-7".toList), ("NU".toList, "S-1-5-2".toList),
  ("IU".toList, "S-1-5-4".toList), ("SU".toList, "S-1-5-6".toList),
  ("LS".toList, "S-1-5-19".toList), ("NS".toList, "S-1-5-20".toList),
  ("CO".toList, "S-1-3-0".toList), ("CG".toList, "S-1-3-1".toList),
  ("OW".toList, "S-1-3-4".toList), ("AC".toList, "S-1-15-2-1".toList)]

def sddlAliasToSid (value : Text) : Option Text :=
  (wellKnownSids ++ [("S-1-5-80-0".toList, "S-1-5-80-0".toList)]).lookup value

def sidToSddlAlias (value : Text) : Option Text := (wellKnownSids.map Prod.swap).lookup value

namespace Sid

def fromSddlTrustee (value : Text) : Except SidParseError Sid :=
  if "S-".toList <+: value then parse value
  else match sddlAliasToSid value with
    | none => .error ⟨value, "unrecognized SDDL trustee alias".toList⟩
    | some sidString => parse sidString

def toSddlAlias (s : Sid) : Option Text := sidToSddlAlias s.string

theorem parse_ok_iff (value : Text) (s : Sid) :
    parse value = .ok s ↔ sidStringToBytes value = .ok s.raw ∧ s.string = value := by
  unfold parse
  split
  next e h => simp [h]
  next raw h =>
    simp only [h, Except.ok.injEq, Sid.ext_iff]
    rw [eq_comm (a := value)]

theorem fromBytes_ok_iff (data : Bytes) (s : Sid) :
    fromBytes data = .ok s ↔
      sidToStringWithSize data = some (s.string, data.length) ∧ s.raw = data := by
  unfold fromBytes
  split
  next h => simp [h]
  next t n h =>
    by_cases hn : n ≠ data.length
    · simp [h, hn]
    · have he : n = data.length := not_not.mp hn
      rw [dif_neg hn]
      simp only [h, Except.ok.injEq, Sid.ext_iff, Option.some.injEq, Prod.mk.injEq, he, and_true]
      rw [eq_comm (a := data), and_comm]

def Canonical (s : Sid) : Prop := ∃ t, fromBytes s.raw = .ok t ∧ t.string = s.string

theorem canonical_iff (s : Sid) (v : SidValue) (h : s.raw = v.bytes) :
    s.Canonical ↔ s.string = v.text := by
  have hb := sidToStringWithSize_bytes v
  constructor
  · rintro ⟨t, ht, hs⟩
    rw [fromBytes_ok_iff, h, hb, Option.some.injEq, Prod.mk.injEq] at ht
    rw [← hs, ht.1.1]
  · intro hs
    refine ⟨s, ?_, rfl⟩
    rw [fromBytes_ok_iff, h, hb, hs]
    exact ⟨rfl, rfl⟩

theorem eq_of_raw_eq (s t : Sid) (hs : s.Canonical) (ht : t.Canonical) (h : s.raw = t.raw) :
    s = t := by
  obtain ⟨v, hv, -⟩ := s.form
  have h1 := (canonical_iff s v hv).mp hs
  have h2 := (canonical_iff t v (h ▸ hv)).mp ht
  exact Sid.ext h (h1.trans h2.symm)

theorem parse_canonical_iff (value : Text) (s : Sid) (h : parse value = .ok s) :
    s.Canonical ↔ CanonicalSpelling value := by
  obtain ⟨hb, rfl⟩ := (parse_ok_iff value s).mp h
  obtain ⟨v, hv, -, hr⟩ := (sidStringToBytes_ok_iff _ _).mp hb
  rw [canonical_iff s v hr, eq_comm, hv.text_eq_iff]

theorem fromBytes_canonical (data : Bytes) (s : Sid) (h : fromBytes data = .ok s) :
    s.Canonical := by
  obtain ⟨-, hr⟩ := (fromBytes_ok_iff data s).mp h
  exact ⟨s, hr ▸ h, rfl⟩

theorem sddlAliasToSid_canonical (value t : Text) (h : sddlAliasToSid value = some t) :
    CanonicalSpelling t := by
  have hall : ∀ p ∈ wellKnownSids ++ [("S-1-5-80-0".toList, "S-1-5-80-0".toList)],
      CanonicalSpelling p.2 := by decide
  obtain ⟨l₁, l₂, hl, -⟩ := List.lookup_eq_some_iff.mp h
  exact hall (value, t) (by rw [hl]; simp)

end Sid

inductive SidSource where
  | parse (value : Text)
  | fromBytes (data : Bytes)
  | fromSddlTrustee (value : Text)

namespace SidSource

def build : SidSource → Except SidParseError Sid
  | .parse value => Sid.parse value
  | .fromBytes data => Sid.fromBytes data
  | .fromSddlTrustee value => Sid.fromSddlTrustee value

def CanonicalText : SidSource → Prop
  | .parse value => CanonicalSpelling value
  | .fromBytes _ => True
  | .fromSddlTrustee value => "S-".toList <+: value → CanonicalSpelling value

theorem build_canonical_iff (src : SidSource) (s : Sid) (h : src.build = .ok s) :
    s.Canonical ↔ src.CanonicalText := by
  cases src with
  | parse value => exact Sid.parse_canonical_iff value s h
  | fromBytes data => exact iff_of_true (Sid.fromBytes_canonical data s h) trivial
  | fromSddlTrustee value =>
    change Sid.fromSddlTrustee value = .ok s at h
    unfold Sid.fromSddlTrustee at h
    by_cases hp : "S-".toList <+: value
    · rw [if_pos hp] at h
      rw [Sid.parse_canonical_iff value s h]
      exact ⟨fun hc _ => hc, fun hc => hc hp⟩
    · -- an alias is replaced by a text of the table before it is parsed
      rw [if_neg hp] at h
      split at h
      · contradiction
      next t ht =>
        have hc := (Sid.parse_canonical_iff t s h).mpr (Sid.sddlAliasToSid_canonical value t ht)
        exact iff_of_true hc (fun hh => absurd hh hp)

end SidSource

/-- What the derived `Hash` feeds to a hasher. -/
inductive HasherWrite where
  | lengthPrefixed (bytes : Bytes)
  | str (text : Text)

def Sid.hash {σ : Type} (write : σ → HasherWrite → σ) (state : σ) (s : Sid) : σ :=
  write (write state (.lengthPrefixed s.raw)) (.str s.string)

def Sid.HashEq (s t : Sid) : Prop :=
  ∀ {σ : Type} (write : σ → HasherWrite → σ) (state : σ),
    s.hash write state = t.hash write state

def SidIdentity (s t : Sid) : Prop :=
  (s = t ↔ s.raw = t.raw) ∧ (s.HashEq t ↔ s.raw = t.raw) ∧ s.Canonical ∧ t.Canonical

theorem Sid.hashEq_iff (s t : Sid) : s.HashEq t ↔ s = t := by
  constructor
  · intro h
    -- a hasher that records everything it is fed tells any two values apart
    have hh := h (fun log w => w :: log) []
    simp only [Sid.hash, List.cons.injEq, HasherWrite.str.injEq,
      HasherWrite.lengthPrefixed.injEq] at hh
    exact Sid.ext hh.2.1 hh.1
  · rintro rfl σ write state
    rfl

/-- Two SIDs, however they were made, are identified by their binary forms and
carry canonical texts exactly when every text parsed on the way was canonically
spelled. -/
theorem sid_identity_iff (src src' : SidSource) (s t : Sid) (hs : src.build = .ok s)
    (ht : src'.build = .ok t) :
    SidIdentity s t ↔ src.CanonicalText ∧ src'.CanonicalText := by
  rw [← src.build_canonical_iff s hs, ← src'.build_canonical_iff t ht]
  constructor
  · rintro ⟨-, -, h1, h2⟩
    exact ⟨h1, h2⟩
  · rintro ⟨h1, h2⟩
    have heq : s = t ↔ s.raw = t.raw :=
      ⟨fun h => congrArg Sid.raw h, Sid.eq_of_raw_eq s t h1 h2⟩
    exact ⟨heq, (Sid.hashEq_iff s t).trans heq, h1, h2⟩

theorem Sid.exists_parse (value : Text) (raw : Bytes) (h : sidStringToBytes value = .ok raw) :
    ∃ s : Sid, Sid.parse value = .ok s ∧ s.raw = raw ∧ s.string = value := by
  obtain ⟨v, hv, -, hr⟩ := (sidStringToBytes_ok_iff value raw).mp h
  exact ⟨⟨raw, value, v, hr, hv⟩, (Sid.parse_ok_iff value _).mpr ⟨h, rfl⟩, rfl, rfl⟩

theorem sid_identity_local_system :
    ∃ s t, (SidSource.parse "S-1-5-18".toList).build = .ok s ∧
      (SidSource.fromSddlTrustee "SY".toList).build = .ok t ∧ SidIdentity s t := by
  obtain ⟨s, hs, -, -⟩ := Sid.exists_parse "S-1-5-18".toList
    [1, 1, 0, 0, 0, 0, 0, 5, 18, 0, 0, 0] (by decide)
  have ht : (SidSource.fromSddlTrustee "SY".toList).build = .ok s := by
    simp only [SidSource.build, Sid.fromSddlTrustee]
    rw [if_neg (by decide), show sddlAliasToSid "SY".toList = some "S-1-5-18".toList by decide]
    exact hs
  have hc : (SidSource.parse "S-1-5-18".toList).CanonicalText := by
    change CanonicalSpelling "S-1-5-18".toList
    decide
  exact ⟨s, s, hs, ht, (sid_identity_iff (.parse "S-1-5-18".toList) _ s s hs ht).mpr
    ⟨hc, fun h => absurd h (by decide)⟩⟩

/-- `S-1-5-18` and `s-1-5-18` have one binary form and are different SIDs. -/
theorem sid_identity_fails_on_small_s :
    ∃ s t, (SidSource.parse "S-1-5-18".toList).build = .ok s ∧
      (SidSource.parse "s-1-5-18".toList).build = .ok t ∧ s.raw = t.raw ∧ s ≠ t ∧
      ¬ SidIdentity s t := by
  obtain ⟨s, hs, hsr, hst⟩ := Sid.exists_parse "S-1-5-18".toList
    [1, 1, 0, 0, 0, 0, 0, 5, 18, 0, 0, 0] (by decide)
  obtain ⟨t, ht, htr, htt⟩ := Sid.exists_parse "s-1-5-18".toList
    [1, 1, 0, 0, 0, 0, 0, 5, 18, 0, 0, 0] (by decide)
  have hne : s ≠ t := by
    intro h
    have hh : "S-1-5-18".toList = "s-1-5-18".toList := by rw [← hst, ← htt, h]
    exact absurd hh (by decide)
  have hr : s.raw = t.raw := hsr.trans htr.symm
  exact ⟨s, t, hs, ht, hr, hne, fun h => hne (h.1.mpr hr)⟩

end WindowsErg.Security
