import WindowsErg.TextScan
import WindowsErg.ByteCodec
import WindowsErg.Outcome

/-! The two representations of a security identifier, `src/security/sid.rs`, and
the numbers they both stand for. -/
namespace WindowsErg.Security
open List TextScan ByteCodec Outcome

structure SidParseError where
  input : Text
  reason : Text
  deriving DecidableEq, Repr

def sidStringToBytes (value : Text) : Except SidParseError Bytes := do
  let parts := value.splitOn '-'
  ensure (3 ≤ parts.length ∧ eqIgnoreAsciiCase (parts.getD 0 []) ['S'] = true)
    ⟨value, "expected SID format S-Revision-IdentifierAuthority-SubAuthority...".toList⟩
  let revision ← okOr (fromStrRadix 10 (2^8) (parts.getD 1 []))
    ⟨value, "invalid SID revision".toList⟩
  let identifierAuthority ← okOr (fromStrRadix 10 (2^64) (parts.getD 2 []))
    ⟨value, "invalid identifier authority".toList⟩
  ensure (identifierAuthority ≤ 0x0000FFFFFFFF)
    ⟨value, "identifier authority must fit in 48 bits".toList⟩
  let subAuthorityCount := parts.length-3
  ensure (subAuthorityCount ≤ 255) ⟨value, "too many sub-authorities".toList⟩
  let subs ← okOr ((parts.drop 3).mapM (fromStrRadix 10 (2^32)))
    ⟨value, "invalid sub-authority value".toList⟩
  pure (UInt8.ofNat revision :: UInt8.ofNat subAuthorityCount ::
    (beBytes 8 identifierAuthority).drop 2 ++ subs.flatMap (leBytes 4))

def appendSubAuthorities (sid : Bytes) : ℕ → ℕ → Text → Option (Text × ℕ)
  | 0, start, id => some (id, start)
  | k+1, start, id =>
    if start+4 > sid.length then none
    else
      let authority := ofLe ((sid.drop start).take 4)
      appendSubAuthorities sid k (start+4) (id ++ '-' :: decimal authority)

def sidToStringWithSize (sid : Bytes) : Option (Text × ℕ) :=
  if sid.length < 8 then none
  else
    let subauthorityCount := (sid.getD 1 0).toNat
    let identifierAuthority :=
      ofBe ((sid.drop 2).take 2) <<< 32 ||| ofBe ((sid.drop 4).take 4)
    let id := "S-".toList ++ decimal (sid.getD 0 0).toNat ++ '-' :: decimal identifierAuthority
    appendSubAuthorities sid subauthorityCount 8 id

structure SidValue where
  revision : ℕ
  authority : ℕ
  subAuthorities : List ℕ
  revision_lt : revision < 2^8
  authority_lt : authority < 2^48
  count_le : subAuthorities.length ≤ 255
  sub_lt : ∀ s ∈ subAuthorities, s < 2^32

namespace SidValue

def bytes (v : SidValue) : Bytes :=
  UInt8.ofNat v.revision :: UInt8.ofNat v.subAuthorities.length ::
    beBytes 6 v.authority ++ v.subAuthorities.flatMap (leBytes 4)

def parts (v : SidValue) : List Text :=
  ['S'] :: decimal v.revision :: decimal v.authority :: v.subAuthorities.map decimal

def text (v : SidValue) : Text := ['-'].intercalate v.parts

end SidValue

structure Spells (value : Text) (v : SidValue) : Prop where
  count : 3 ≤ (value.splitOn '-').length
  head : eqIgnoreAsciiCase ((value.splitOn '-').getD 0 []) ['S'] = true
  revision : fromStrRadix 10 (2^8) ((value.splitOn '-').getD 1 []) = some v.revision
  authority : fromStrRadix 10 (2^64) ((value.splitOn '-').getD 2 []) = some v.authority
  subs : ((value.splitOn '-').drop 3).mapM (fromStrRadix 10 (2^32)) = some v.subAuthorities

theorem beBytes_eight_drop (v : ℕ) : (beBytes 8 v).drop 2 = beBytes 6 v := by
  simp [beBytes, leBytes]

theorem sidStringToBytes_ok_iff (value : Text) (raw : Bytes) :
    sidStringToBytes value = .ok raw ↔
      ∃ v : SidValue, Spells value v ∧ v.authority < 2^32 ∧ raw = v.bytes := by
  simp only [sidStringToBytes, bind_eq_ok_iff, ensure_eq_ok_iff, okOr_eq_ok_iff,
    pure_eq_ok_iff, beBytes_eight_drop]
  constructor
  -- the checks of the source, one by one, give the fields of the value and its bounds
  · rintro ⟨-, ⟨hn, hs⟩, r, hr, a, ha, -, hle, -, hc, ys, hys, rfl⟩
    have hlen := mapM_some_length _ _ _ hys
    rw [length_drop] at hlen
    refine ⟨⟨r, a, ys, fromStrRadix_lt _ _ _ _ hr, by omega, by omega, ?_⟩,
      ⟨hn, hs, hr, ha, hys⟩, by dsimp only; omega, by rw [hlen]; rfl⟩
    intro y hy
    obtain ⟨x, -, hx⟩ := mapM_some_mem _ _ _ hys y hy
    exact fromStrRadix_lt _ _ _ _ hx
  · rintro ⟨v, h, ha, rfl⟩
    have hlen := mapM_some_length _ _ _ h.subs
    have hc := v.count_le
    rw [length_drop] at hlen
    refine ⟨(), ⟨h.count, h.head⟩, _, h.revision, _, h.authority, (), by omega, (), by omega,
      _, h.subs, ?_⟩
    rw [hlen]
    rfl

theorem hyphen_notMem_decimal (n : ℕ) : '-' ∉ decimal n := by
  intro h
  exact absurd (isDigit_of_mem_decimal n '-' h) (by decide)

theorem SidValue.splitOn_text (v : SidValue) : v.text.splitOn '-' = v.parts := by
  apply splitOn_intercalate
  · intro l hl
    simp only [SidValue.parts, mem_cons, mem_map] at hl
    rcases hl with rfl | rfl | rfl | ⟨s, -, rfl⟩
    · decide
    · exact hyphen_notMem_decimal _
    · exact hyphen_notMem_decimal _
    · exact hyphen_notMem_decimal _
  · simp [SidValue.parts]

theorem mapM_decimal (xs : List ℕ) (h : ∀ x ∈ xs, x < 2^32) :
    (xs.map decimal).mapM (fromStrRadix 10 (2^32)) = some xs := by
  induction xs with
  | nil => rfl
  | cons x xs ih =>
    have hx := fromStrRadix_decimal (2^32) x (h x (by simp))
    have hxs := ih (fun y hy => h y (by simp [hy]))
    simp only [map_cons, mapM_cons, hx, hxs]
    rfl

theorem SidValue.text_spells (v : SidValue) : Spells v.text v := by
  have hp := v.splitOn_text
  have ha : v.authority < 2^64 := lt_of_lt_of_le v.authority_lt (by norm_num)
  refine ⟨?_, ?_, ?_, ?_, ?_⟩ <;> rw [hp]
  · simp [SidValue.parts]
  · rfl
  · exact fromStrRadix_decimal _ _ v.revision_lt
  · exact fromStrRadix_decimal _ _ ha
  · exact mapM_decimal _ v.sub_lt

def CanonicalSpelling (value : Text) : Prop :=
  (value.splitOn '-').head? = some ['S'] ∧
    ∀ part ∈ (value.splitOn '-').tail, CanonicalNumeral part

instance (value : Text) : Decidable (CanonicalSpelling value) :=
  inferInstanceAs (Decidable ((value.splitOn '-').head? = some ['S'] ∧
    ∀ part ∈ (value.splitOn '-').tail, CanonicalNumeral part))

theorem map_decimal_eq_iff (ps : List Text) (xs : List ℕ)
    (h : ps.mapM (fromStrRadix 10 (2^32)) = some xs) :
    xs.map decimal = ps ↔ ∀ part ∈ ps, CanonicalNumeral part := by
  induction ps generalizing xs with
  | nil =>
    have hx : xs = [] := by simpa using h
    simp [hx]
  | cons p ps ih =>
    simp only [mapM_cons, Option.bind_eq_bind, Option.bind_eq_some_iff, Option.pure_def,
      Option.some.injEq] at h
    obtain ⟨x, hx, ys, hys, rfl⟩ := h
    simp [fromStrRadix_canonical_iff _ _ _ hx, ih ys hys]

theorem Spells.text_eq_iff {value : Text} {v : SidValue} (h : Spells value v) :
    v.text = value ↔ CanonicalSpelling value := by
  have hv : ['-'].intercalate (value.splitOn '-') = value := intercalate_splitOn '-'
  have hsplit : v.text = value ↔ v.parts = value.splitOn '-' := by
    constructor
    · intro he
      rw [← he, v.splitOn_text]
    · intro he
      rw [SidValue.text, he, hv]
  obtain ⟨hn, -, hr, ha, hs⟩ := h
  rw [hsplit, CanonicalSpelling]
  match hp : value.splitOn '-' with
  | [] | [_] | [_, _] => simp [hp] at hn
  | s :: rev :: auth :: subs =>
    rw [hp] at hr ha hs
    have h1 := fromStrRadix_canonical_iff _ _ _ hr
    have h2 := fromStrRadix_canonical_iff _ _ _ ha
    have h3 := map_decimal_eq_iff _ _ hs
    simp only [getD_cons_succ, getD_cons_zero, drop_succ_cons, drop_zero]
      at h1 h2 h3
    simp only [SidValue.parts, List.cons.injEq, h1, h2, h3, List.head?_cons,
      Option.some.injEq, tail_cons, forall_mem_cons]
    rw [eq_comm (a := ['S'])]

theorem Spells.unique {value : Text} {v w : SidValue} (hv : Spells value v)
    (hw : Spells value w) : v = w := by
  have h1 := Option.some.inj (hv.revision.symm.trans hw.revision)
  have h2 := Option.some.inj (hv.authority.symm.trans hw.authority)
  have h3 := Option.some.inj (hv.subs.symm.trans hw.subs)
  cases v
  cases w
  simp_all

theorem ofBe_two_four (xs : Bytes) (h : xs.length = 6) :
    ofBe (xs.take 2) <<< 32 ||| ofBe ((xs.drop 2).take 4) = ofBe xs := by
  match xs, h with
  | [a, b, c, d, e, f], _ =>
    have hlow := ofBe_lt [c, d, e, f]
    simp only [take_succ_cons, take_zero, drop_succ_cons, drop_zero]
    rw [← Nat.shiftLeft_add_eq_or_of_lt (by simpa using hlow), Nat.shiftLeft_eq]
    simp only [ofBe, reverse_cons, reverse_nil, nil_append, cons_append, ofLe_cons, ofLe_nil]
    omega

theorem appendSubAuthorities_encoded (xs : List ℕ) (h : ∀ x ∈ xs, x < 2^32)
    (pre post : Bytes) (id : Text) :
    appendSubAuthorities (pre ++ xs.flatMap (leBytes 4) ++ post) xs.length pre.length id =
      some (id ++ xs.flatMap (fun x => '-' :: decimal x), pre.length+4*xs.length) := by
  induction xs generalizing pre id with
  | nil => simp [appendSubAuthorities]
  | cons x xs ih =>
    have hx : ofLe (leBytes 4 x) = x := ofLe_leBytes 4 x (h x (by simp))
    have hs := ih (fun y hy => h y (by simp [hy])) (pre ++ leBytes 4 x) (id ++ '-' :: decimal x)
    have htake : ((pre ++ (x :: xs).flatMap (leBytes 4) ++ post).drop pre.length).take 4 =
        leBytes 4 x := by
      simp [append_assoc]
    have hfit : ¬ pre.length+4 > (pre ++ (x :: xs).flatMap (leBytes 4) ++ post).length := by
      simp only [flatMap_cons, length_append, leBytes_length]
      omega
    simp only [length_cons, appendSubAuthorities, hfit, ↓reduceIte, htake, hx]
    simp only [flatMap_cons, length_append, leBytes_length, append_assoc]
      at hs ⊢
    rw [hs]
    simp only [cons_append, Option.some.injEq, Prod.mk.injEq, true_and]
    omega

theorem appendSubAuthorities_size (sid : Bytes) (k start n : ℕ) (id s : Text)
    (h : appendSubAuthorities sid k start id = some (s, n)) : n = start+4*k := by
  induction k generalizing start id with
  | zero =>
    simp only [appendSubAuthorities, Option.some.injEq, Prod.mk.injEq] at h
    omega
  | succ k ih =>
    simp only [appendSubAuthorities] at h
    split at h
    · contradiction
    next hfit =>
      have := ih (start+4) _ h
      omega

theorem SidValue.text_eq_append (v : SidValue) :
    v.text = "S-".toList ++ decimal v.revision ++ '-' :: decimal v.authority ++
      v.subAuthorities.flatMap (fun x => '-' :: decimal x) := by
  have h (xs : List ℕ) (t : Text) : ['-'].intercalate (t :: xs.map decimal) =
      t ++ xs.flatMap (fun x => '-' :: decimal x) := by
    induction xs generalizing t with
    | nil => simp [List.intercalate]
    | cons x xs ih =>
      have hx := ih (decimal x)
      simp only [List.intercalate, map_cons, intersperse_cons_cons,
        flatten_cons, flatMap_cons] at hx ⊢
      rw [hx]
      simp
  rw [text, parts]
  simp only [List.intercalate, intersperse_cons_cons, flatten_cons]
  have hh := h v.subAuthorities (decimal v.authority)
  simp only [List.intercalate] at hh
  rw [hh]
  simp

theorem sidToStringWithSize_bytes (v : SidValue) :
    sidToStringWithSize v.bytes = some (v.text, v.bytes.length) := by
  have hrev : (UInt8.ofNat v.revision).toNat = v.revision := by
    rw [UInt8.toNat_ofNat']
    exact Nat.mod_eq_of_lt v.revision_lt
  have hcount : (UInt8.ofNat v.subAuthorities.length).toNat = v.subAuthorities.length := by
    have := v.count_le
    rw [UInt8.toNat_ofNat']
    omega
  have hauth : ofBe (beBytes 6 v.authority) = v.authority :=
    ofBe_beBytes 6 _ (lt_of_lt_of_le v.authority_lt (by norm_num))
  have hlen : v.bytes.length = 8+4*v.subAuthorities.length := by
    simp [SidValue.bytes, Nat.mul_comm]
    omega
  have h6 : (v.bytes.drop 2).take 6 = beBytes 6 v.authority := by
    simp [SidValue.bytes]
  have hid : ofBe ((v.bytes.drop 2).take 2) <<< 32 ||| ofBe ((v.bytes.drop 4).take 4) =
      v.authority := by
    have hh := ofBe_two_four _ (beBytes_length 6 v.authority)
    rw [hauth, ← h6, take_take, drop_take, take_take, drop_drop] at hh
    exact hh
  have hloop := appendSubAuthorities_encoded v.subAuthorities v.sub_lt
    (UInt8.ofNat v.revision :: UInt8.ofNat v.subAuthorities.length :: beBytes 6 v.authority) []
    ("S-".toList ++ decimal v.revision ++ '-' :: decimal v.authority)
  rw [append_nil] at hloop
  change appendSubAuthorities v.bytes _ 8 _ = _ at hloop
  unfold sidToStringWithSize
  rw [if_neg (by omega), hid]
  have h0 : (v.bytes.getD 0 0).toNat = v.revision := hrev
  have h1 : (v.bytes.getD 1 0).toNat = v.subAuthorities.length := hcount
  simp only [h0, h1, hloop, ← SidValue.text_eq_append, hlen]
  rfl

theorem exists_words (k : ℕ) (bs : Bytes) (h : bs.length = 4*k) :
    ∃ xs : List ℕ, xs.length = k ∧ (∀ x ∈ xs, x < 2^32) ∧ xs.flatMap (leBytes 4) = bs := by
  induction k generalizing bs with
  | zero => exact ⟨[], rfl, by simp, by simp [length_eq_zero_iff.mp h]⟩
  | succ k ih =>
    have h4 : (bs.take 4).length = 4 := by
      simp only [length_take]
      omega
    obtain ⟨xs, hl, hlt, he⟩ := ih (bs.drop 4) (by simp only [length_drop]; omega)
    have hw : ofLe (bs.take 4) < 2^32 := by simpa [h4] using ofLe_lt (bs.take 4)
    have hb : leBytes 4 (ofLe (bs.take 4)) = bs.take 4 := by
      simpa only [h4] using leBytes_ofLe (bs.take 4)
    refine ⟨ofLe (bs.take 4) :: xs, by simp [hl], ?_, ?_⟩
    · intro x hx
      rcases mem_cons.mp hx with rfl | hx
      · exact hw
      · exact hlt x hx
    · rw [flatMap_cons, hb, he, take_append_drop]

theorem sidToStringWithSize_value (data : Bytes) (s : Text)
    (h : sidToStringWithSize data = some (s, data.length)) :
    ∃ v : SidValue, data = v.bytes ∧ s = v.text := by
  have hs := h
  unfold sidToStringWithSize at hs
  split at hs
  · contradiction
  next h8 =>
    have hlen := appendSubAuthorities_size _ _ _ _ _ _ hs
    match hd : data, h8, hlen with
    | r :: c :: a1 :: a2 :: a3 :: a4 :: a5 :: a6 :: rest, _, hlen =>
      obtain ⟨xs, hxl, hlt, hxs⟩ := exists_words c.toNat rest (by
        simp only [length_cons, getD_cons_succ, getD_cons_zero] at hlen
        omega)
      have hc := c.toNat_lt
      let v : SidValue := ⟨r.toNat, ofBe [a1, a2, a3, a4, a5, a6], xs, r.toNat_lt,
        by simpa using ofBe_lt [a1, a2, a3, a4, a5, a6], by omega, hlt⟩
      have hv : r :: c :: a1 :: a2 :: a3 :: a4 :: a5 :: a6 :: rest = v.bytes := by
        have hb := beBytes_ofBe [a1, a2, a3, a4, a5, a6]
        simp only [length_cons, length_nil] at hb
        simp only [SidValue.bytes, v, hxl, hxs, hb, UInt8.ofNat_toNat]
        rfl
      refine ⟨v, hv, ?_⟩
      have hb := sidToStringWithSize_bytes v
      rw [← hv, h] at hb
      exact (Prod.mk.inj (Option.some.inj hb)).1

end WindowsErg.Security
