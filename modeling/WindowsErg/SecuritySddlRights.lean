import WindowsErg.SddlLanguage
import WindowsErg.SecuritySddl

/-! Access rights written as SDDL tokens, `parse_sddl_rights` of both backends. -/
namespace WindowsErg.Security
open List TextScan SddlLanguage

def rightsOf (table : List (Text × UInt32)) (tokens : List Text) (mask : UInt32) : UInt32 :=
  tokens.foldl (fun bits token => bits ||| (table.lookup token).getD 0) mask

def SddlBackend.Knows (b : SddlBackend) (token : Text) : Prop := (b.rights.lookup token).isSome

instance (b : SddlBackend) (token : Text) : Decidable (b.Knows token) :=
  inferInstanceAs (Decidable (_ = true))

def rightsMeaning (b : SddlBackend) (tokens : List Text) : Option AccessMask :=
  if ∀ token ∈ tokens, b.Knows token then some ⟨rightsOf rightNames tokens 0⟩ else none

def IsRight (token : Text) : Prop := token ∈ rightNames.map Prod.fst

instance (token : Text) : Decidable (IsRight token) := inferInstanceAs (Decidable (_ ∈ _))

theorem IsRight.letters {token : Text} (h : IsRight token) :
    ∃ c d, token = [c, d] ∧ c.utf8Size = 1 ∧ d.utf8Size = 1 ∧ c ≠ '0' := by
  have hall : ∀ t ∈ rightNames.map Prod.fst, t.length = 2 ∧ t.all (·.utf8Size == 1) = true ∧
      t.head? ≠ some '0' := by decide
  obtain ⟨hlen, hsize, hhead⟩ := hall token h
  obtain ⟨c, d, rfl⟩ := length_eq_two.mp hlen
  obtain ⟨hc, hd⟩ : c.utf8Size = 1 ∧ d.utf8Size = 1 := by simpa using hsize
  exact ⟨c, d, rfl, hc, hd, fun he => hhead (by simp [he])⟩

variable (table : List (Text × UInt32)) (tokens : List Text) (mask : UInt32)

theorem rightsLoop_flatten (h : ∀ token ∈ tokens, IsRight token) :
    rightsLoop table tokens.flatten mask = .ok (rightsOf table tokens mask) := by
  induction tokens generalizing mask with
  | nil => simp [rightsLoop, rightsOf]
  | cons token tokens ih =>
    obtain ⟨c, d, rfl, hc, hd, -⟩ := (h token mem_cons_self).letters
    have hrest := ih (mask ||| (table.lookup [c, d]).getD 0) fun t ht =>
      h t (mem_cons_of_mem _ ht)
    rw [flatten_cons, cons_append, cons_append, nil_append, rightsLoop, if_pos ⟨hc, hd⟩, hrest]
    rfl

theorem not_hex_flatten {tokens : List Text} (h : ∀ token ∈ tokens, IsRight token) :
    ¬ "0x".toList <+: tokens.flatten := by
  intro hp
  cases tokens with
  | nil => exact absurd (prefix_nil.mp hp) (by decide)
  | cons token tokens =>
    obtain ⟨c, d, rfl, -, -, hne⟩ := (h token mem_cons_self).letters
    exact hne (cons_prefix_cons.mp hp).1.symm

theorem parseSddlRights_flatten (b : SddlBackend) (tokens : List Text)
    (h : ∀ token ∈ tokens, IsRight token) :
    parseSddlRights b tokens.flatten =
      .ok (if rightsOf b.rights tokens 0 = 0 then none else some ⟨rightsOf b.rights tokens 0⟩) := by
  rw [parseSddlRights, if_neg (not_hex_flatten h), rightsLoop_flatten b.rights tokens 0 h]
  rfl

theorem rightsOf_eq_zero_iff :
    rightsOf table tokens mask = 0 ↔
      mask = 0 ∧ ∀ token ∈ tokens, (table.lookup token).getD 0 = 0 := by
  induction tokens generalizing mask with
  | nil => simp [rightsOf]
  | cons token tokens ih =>
    have hcons : rightsOf table (token :: tokens) mask =
        rightsOf table tokens (mask ||| (table.lookup token).getD 0) := rfl
    rw [hcons, ih, UInt32.or_eq_zero_iff, forall_mem_cons, and_assoc]

theorem rightsOf_congr {table table' : List (Text × UInt32)} {tokens : List Text}
    (h : ∀ token ∈ tokens, (table.lookup token).getD 0 = (table'.lookup token).getD 0) :
    rightsOf table tokens mask = rightsOf table' tokens mask := by
  apply foldl_ext
  intro bits token htoken
  rw [h token htoken]

def SddlBackend.Sound (b : SddlBackend) : Prop :=
  ∀ p ∈ b.rights, rightNames.lookup p.1 = some p.2 ∧ p.2 ≠ 0

theorem fileBackend_sound : fileBackend.Sound := by
  unfold SddlBackend.Sound
  decide

theorem registryBackend_sound : registryBackend.Sound := by
  unfold SddlBackend.Sound
  decide

theorem SddlBackend.Sound.lookup {b : SddlBackend} (hb : b.Sound) {token : Text}
    (h : b.Knows token) :
    (b.rights.lookup token).getD 0 = (rightNames.lookup token).getD 0 ∧
      (b.rights.lookup token).getD 0 ≠ 0 := by
  obtain ⟨bits, hbits⟩ := Option.isSome_iff_exists.mp h
  obtain ⟨l₁, l₂, hl, -⟩ := lookup_eq_some_iff.mp hbits
  obtain ⟨hname, hne⟩ := hb (token, bits) (by rw [hl]; simp)
  rw [hbits, hname]
  exact ⟨rfl, hne⟩

theorem getD_eq_zero_of_unknown {b : SddlBackend} {token : Text} (h : ¬ b.Knows token) :
    (b.rights.lookup token).getD 0 = 0 := by
  rw [SddlBackend.Knows, Option.not_isSome_iff_eq_none] at h
  rw [h]
  rfl

theorem parseSddlRights_meaning_iff {b : SddlBackend} (hb : b.Sound) (tokens : List Text)
    (h : ∀ token ∈ tokens, IsRight token) :
    parseSddlRights b tokens.flatten = .ok (rightsMeaning b tokens) ↔
      tokens ≠ [] ∧ ((∀ token ∈ tokens, b.Knows token) ∨ ∀ token ∈ tokens, ¬ b.Knows token) := by
  rw [parseSddlRights_flatten b tokens h, Except.ok.injEq, rightsMeaning]
  by_cases hknown : ∀ token ∈ tokens, b.Knows token
  · -- all bits are there; only the empty field has none
    have hsame : rightsOf b.rights tokens 0 = rightsOf rightNames tokens 0 :=
      rightsOf_congr 0 fun token ht => (hb.lookup (hknown token ht)).1
    have hzero : rightsOf b.rights tokens 0 = 0 ↔ tokens = [] := by
      rw [rightsOf_eq_zero_iff]
      constructor
      · intro hnone
        apply eq_nil_iff_forall_not_mem.mpr
        intro token ht
        exact (hb.lookup (hknown token ht)).2 (hnone.2 token ht)
      · intro hnil
        simp [hnil]
    rw [if_pos hknown, ← hsame]
    by_cases hnil : tokens = []
    · rw [if_pos (hzero.mpr hnil)]
      simp [hnil]
    · rw [if_neg (fun hz => hnil (hzero.mp hz))]
      exact iff_of_true rfl ⟨hnil, Or.inl hknown⟩
  · rw [if_neg hknown]
    have hnil : tokens ≠ [] := by
      intro hnil
      apply hknown
      simp [hnil]
    have hzero : rightsOf b.rights tokens 0 = 0 ↔ ∀ token ∈ tokens, ¬ b.Knows token := by
      rw [rightsOf_eq_zero_iff]
      constructor
      · intro hnone token ht hk
        exact (hb.lookup hk).2 (hnone.2 token ht)
      · intro hnone
        exact ⟨rfl, fun token ht => getD_eq_zero_of_unknown (hnone token ht)⟩
    by_cases hz : rightsOf b.rights tokens 0 = 0
    · rw [if_pos hz]
      exact iff_of_true rfl ⟨hnil, Or.inr (hzero.mp hz)⟩
    · have hnot : ¬ ∀ token ∈ tokens, ¬ b.Knows token := fun hall => hz (hzero.mpr hall)
      rw [if_neg hz]
      exact iff_of_false (by simp) fun hright => hright.2.elim hknown hnot

def cutsEvenly : ℕ → Text → Bool
  | _, [] => true
  | offset, c :: s =>
    (if offset%2 = 0 then c.utf8Size ≤ 2 else c.utf8Size = 1) && cutsEvenly (offset+c.utf8Size) s

theorem cutsEvenly_parity (s : Text) (m n : ℕ) (h : m%2 = n%2) :
    cutsEvenly m s = cutsEvenly n s := by
  induction s generalizing m n with
  | nil => rfl
  | cons c s ih =>
    rw [cutsEvenly, cutsEvenly, h, ih (m+c.utf8Size) (n+c.utf8Size) (by omega)]

theorem rightsLoop_ne_panic_iff (s : Text) (mask : UInt32) :
    rightsLoop table s mask ≠ .error .panic ↔ cutsEvenly 0 s = true := by
  fun_induction rightsLoop table s mask with
  | case1 mask => simp [cutsEvenly]
  | case2 c mask hc => simp [cutsEvenly, hc]
  | case3 c mask hc hc2 => simp [cutsEvenly, hc2]
  | case4 c mask hc hc2 =>
    have hpos := c.utf8Size_pos
    have hbig : ¬ c.utf8Size ≤ 2 := by omega
    simp [cutsEvenly, hbig]
  | case5 c d rest mask hcd ih =>
    rw [ih, cutsEvenly, cutsEvenly]
    have hshift : cutsEvenly (0+c.utf8Size+d.utf8Size) rest = cutsEvenly 0 rest :=
      cutsEvenly_parity rest _ _ (by omega)
    rw [hshift]
    simp [hcd.1, hcd.2]
  | case6 c d rest mask hcd hc2 ih =>
    have hshift : cutsEvenly (0+c.utf8Size) (d :: rest) = cutsEvenly 0 (d :: rest) :=
      cutsEvenly_parity _ _ _ (by omega)
    rw [ih, cutsEvenly.eq_2 0 c, hshift]
    simp [hc2]
  | case7 c d rest mask hcd hc2 =>
    have hpos := c.utf8Size_pos
    rw [cutsEvenly, cutsEvenly]
    simp only [ne_eq, not_true_eq_false, false_iff, Bool.not_eq_true, Bool.and_eq_false_iff]
    by_cases hc1 : c.utf8Size = 1
    · have hd : d.utf8Size ≠ 1 := fun hd => hcd ⟨hc1, hd⟩
      simp [hc1, hd]
    · have hbig : ¬ c.utf8Size ≤ 2 := by omega
      simp [hbig]

theorem parseSddlRights_ne_panic_iff (b : SddlBackend) (value : Text) :
    parseSddlRights b value ≠ .error .panic ↔
      "0x".toList <+: value ∨ cutsEvenly 0 value = true := by
  by_cases hp : "0x".toList <+: value
  · rw [parseSddlRights, if_pos hp]
    exact iff_of_true (by simp) (Or.inl hp)
  · rw [or_iff_right hp, ← rightsLoop_ne_panic_iff b.rights value 0, parseSddlRights, if_neg hp]
    cases hloop : rightsLoop b.rights value 0 with
    | error e => simp [Bind.bind, Except.bind]
    | ok mask => simp [Bind.bind, Except.bind, Pure.pure, Except.pure]

/-- A field of rights tokens is reported exactly when it has a token and the backend knows all of
them or none; it causes no panic exactly when it is hexadecimal or every second byte position lies
between two characters. -/
theorem sddl_rights_reported_iff (b : SddlBackend) (hb : b = fileBackend ∨ b = registryBackend)
    (tokens : List Text) (htokens : ∀ token ∈ tokens, IsRight token) (value : Text) :
    (parseSddlRights b tokens.flatten = .ok (rightsMeaning b tokens) ↔
      tokens ≠ [] ∧ ((∀ token ∈ tokens, b.Knows token) ∨ ∀ token ∈ tokens, ¬ b.Knows token)) ∧
    (parseSddlRights b value ≠ .error .panic ↔
      "0x".toList <+: value ∨ cutsEvenly 0 value = true) := by
  have hsound : b.Sound := by
    rcases hb with rfl | rfl
    · exact fileBackend_sound
    · exact registryBackend_sound
  exact ⟨parseSddlRights_meaning_iff hsound tokens htokens, parseSddlRights_ne_panic_iff b value⟩

theorem sddl_rights_reported_read_write :
    parseSddlRights fileBackend "FRFW".toList = .ok (some ⟨0x12019F⟩) ∧
      parseSddlRights fileBackend "FRFW".toList ≠ .error .panic := by
  have hboth := sddl_rights_reported_iff fileBackend (Or.inl rfl) ["FR".toList, "FW".toList]
    (by decide) "FRFW".toList
  have hmeaning : rightsMeaning fileBackend ["FR".toList, "FW".toList] = some ⟨0x12019F⟩ := by
    decide
  have hknown : ∀ token ∈ ["FR".toList, "FW".toList], fileBackend.Knows token := by decide
  refine ⟨?_, hboth.2.mpr (Or.inr (by decide))⟩
  rw [← hmeaning]
  exact hboth.1.mpr ⟨by decide, Or.inl hknown⟩

/-- `GA`, which neither backend knows, is left out beside `RC`, and `é€` is cut inside a
character. -/
theorem sddl_rights_under_reported :
    parseSddlRights fileBackend "GARC".toList = .ok (some ⟨0x20000⟩) ∧
      rightsMeaning fileBackend ["GA".toList, "RC".toList] = none ∧
      parseSddlRights registryBackend "GARC".toList = .ok (some ⟨0x20000⟩) ∧
      rightsMeaning registryBackend ["GA".toList, "RC".toList] = none ∧
      parseSddlRights fileBackend "é€".toList = .error .panic ∧
      parseSddlRights registryBackend "é€".toList = .error .panic := by
  decide

end WindowsErg.Security
