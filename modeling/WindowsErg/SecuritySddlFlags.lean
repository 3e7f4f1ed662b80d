import WindowsErg.SecuritySddl

/-! The flags of SDDL entries: two-letter tokens, which the code looks for as substrings of the
field. -/
namespace WindowsErg.Security
open List TextScan Outcome

inductive AceFlag where
  | oi
  | ci
  | np
  | io
  | id
  | sa
  | fa
  | tp
  | cr
  deriving DecidableEq

def AceFlag.letters : AceFlag → Char × Char
  | .oi => ('O', 'I')
  | .ci => ('C', 'I')
  | .np => ('N', 'P')
  | .io => ('I', 'O')
  | .id => ('I', 'D')
  | .sa => ('S', 'A')
  | .fa => ('F', 'A')
  | .tp => ('T', 'P')
  | .cr => ('C', 'R')

def flagsText (flags : List AceFlag) : Text := pairText AceFlag.letters flags

theorem AceFlag.letters_injective : Function.Injective AceFlag.letters := by
  intro p q h
  cases p <;> cases q <;> first | rfl | exact absurd h (by decide)

def AceFlag.Straddles (flag p q : AceFlag) : Prop :=
  p.letters.2 = flag.letters.1 ∧ q.letters.1 = flag.letters.2

instance (flag p q : AceFlag) : Decidable (flag.Straddles p q) :=
  inferInstanceAs (Decidable (_ ∧ _))

theorem contains_flag_iff (flags : List AceFlag) (flag : AceFlag) :
    contains (flagsText flags) [flag.letters.1, flag.letters.2] = true ↔
      flag ∈ flags ∨ ∃ p q, [p, q] <:+: flags ∧ flag.Straddles p q := by
  rw [contains_iff_isInfix, flagsText, pair_infix_pairText]
  apply or_congr_left
  constructor
  · rintro ⟨other, hother, hsame⟩
    rw [← AceFlag.letters_injective hsame]
    exact hother
  · intro hflag
    exact ⟨flag, hflag, rfl⟩

theorem straddles_oi (p q : AceFlag) :
    AceFlag.oi.Straddles p q ↔ p = .io ∧ (q = .io ∨ q = .id) := by
  cases p <;> cases q <;> decide

theorem straddles_io (p q : AceFlag) :
    AceFlag.io.Straddles p q ↔ (p = .oi ∨ p = .ci) ∧ q = .oi := by
  cases p <;> cases q <;> decide

theorem not_straddles_others (flag p q : AceFlag) (hoi : flag ≠ .oi) (hio : flag ≠ .io) :
    ¬ flag.Straddles p q := by
  cases flag <;> cases p <;> cases q <;> first | contradiction | decide

structure FlagsRead (flags : List AceFlag) (ace : Ace) : Prop where
  objectInherit : ace.inheritance.objectInherit = true ↔ .oi ∈ flags
  containerInherit : ace.inheritance.containerInherit = true ↔ .ci ∈ flags
  inheritOnly : ace.inheritance.inheritOnly = true ↔ .io ∈ flags
  noPropagateInherit : ace.inheritance.noPropagateInherit = true ↔ .np ∈ flags
  inherited : ace.inherited = true ↔ .id ∈ flags

theorem parseAce_flags {b : SddlBackend} {aceBody : Text} {ace : Ace}
    (h : parseAce b aceBody = .ok (some ace)) :
    ace.inheritance = parseInheritanceFlags ((aceBody.splitOn ';').getD 1 []) ∧
      ace.inherited = contains ((aceBody.splitOn ';').getD 1 []) ['I', 'D'] := by
  unfold parseAce at h
  dsimp only at h
  split at h
  · cases h
  split at h
  · cases h
  obtain ⟨rights, -, h⟩ := (bind_eq_ok_iff _ _ _).mp h
  obtain ⟨mask, -, h⟩ := (bind_eq_ok_iff _ _ _).mp h
  split at h
  · cases h
  · cases h
    exact ⟨rfl, rfl⟩

def Follow (flags : List AceFlag) (p q : AceFlag) : Prop := [p, q] <:+: flags

instance (flags : List AceFlag) (p q : AceFlag) : Decidable (Follow flags p q) :=
  inferInstanceAs (Decidable (_ <:+: _))

theorem contains_oi (flags : List AceFlag) :
    contains (flagsText flags) ['O', 'I'] = true ↔
      .oi ∈ flags ∨ Follow flags .io .io ∨ Follow flags .io .id := by
  rw [show ['O', 'I'] = [AceFlag.oi.letters.1, AceFlag.oi.letters.2] from rfl, contains_flag_iff]
  apply or_congr_right
  simp only [straddles_oi]
  constructor
  · rintro ⟨p, q, hpq, rfl, rfl | rfl⟩
    · exact Or.inl hpq
    · exact Or.inr hpq
  · rintro (h | h)
    · exact ⟨_, _, h, rfl, Or.inl rfl⟩
    · exact ⟨_, _, h, rfl, Or.inr rfl⟩

theorem contains_io (flags : List AceFlag) :
    contains (flagsText flags) ['I', 'O'] = true ↔
      .io ∈ flags ∨ Follow flags .oi .oi ∨ Follow flags .ci .oi := by
  rw [show ['I', 'O'] = [AceFlag.io.letters.1, AceFlag.io.letters.2] from rfl, contains_flag_iff]
  apply or_congr_right
  simp only [straddles_io]
  constructor
  · rintro ⟨p, q, hpq, rfl | rfl, rfl⟩
    · exact Or.inl hpq
    · exact Or.inr hpq
  · rintro (h | h)
    · exact ⟨_, _, h, Or.inl rfl, rfl⟩
    · exact ⟨_, _, h, Or.inr rfl, rfl⟩

theorem contains_other (flags : List AceFlag) (flag : AceFlag) (hoi : flag ≠ .oi)
    (hio : flag ≠ .io) :
    contains (flagsText flags) [flag.letters.1, flag.letters.2] = true ↔ flag ∈ flags := by
  rw [contains_flag_iff]
  apply or_iff_left
  rintro ⟨p, q, -, hpq⟩
  exact not_straddles_others flag p q hoi hio hpq

/-- The flags of an entry are those of its tokens exactly when `IO` in front of `IO` or `ID` comes
with an `OI` somewhere, and `OI` or `CI` in front of `OI` with an `IO`. -/
theorem ace_flags_read_iff (b : SddlBackend) (aceBody : Text) (flags : List AceFlag) (ace : Ace)
    (hflags : (aceBody.splitOn ';').getD 1 [] = flagsText flags)
    (hace : parseAce b aceBody = .ok (some ace)) :
    FlagsRead flags ace ↔
      (Follow flags .io .io ∨ Follow flags .io .id → .oi ∈ flags) ∧
      (Follow flags .oi .oi ∨ Follow flags .ci .oi → .io ∈ flags) := by
  obtain ⟨hinheritance, hinherited⟩ := parseAce_flags hace
  rw [hflags] at hinheritance hinherited
  have hoi : ace.inheritance.objectInherit = contains (flagsText flags) ['O', 'I'] := by
    rw [hinheritance]
    rfl
  have hci : ace.inheritance.containerInherit = contains (flagsText flags) ['C', 'I'] := by
    rw [hinheritance]
    rfl
  have hio : ace.inheritance.inheritOnly = contains (flagsText flags) ['I', 'O'] := by
    rw [hinheritance]
    rfl
  have hnp : ace.inheritance.noPropagateInherit = contains (flagsText flags) ['N', 'P'] := by
    rw [hinheritance]
    rfl
  constructor
  · intro h
    refine ⟨fun hfollow => h.objectInherit.mp ?_, fun hfollow => h.inheritOnly.mp ?_⟩
    · rw [hoi, contains_oi]
      exact Or.inr hfollow
    · rw [hio, contains_io]
      exact Or.inr hfollow
  · rintro ⟨hmakesOi, hmakesIo⟩
    refine ⟨?_, ?_, ?_, ?_, ?_⟩
    · rw [hoi, contains_oi]
      exact or_iff_left_of_imp hmakesOi
    · rw [hci]
      exact contains_other flags .ci (by decide) (by decide)
    · rw [hio, contains_io]
      exact or_iff_left_of_imp hmakesIo
    · rw [hnp]
      exact contains_other flags .np (by decide) (by decide)
    · rw [hinherited]
      exact contains_other flags .id (by decide) (by decide)

theorem exists_parseAce_system (b : SddlBackend) (aceBody flags : Text)
    (hfields : aceBody.splitOn ';' = [['A'], flags, "0x1".toList, [], [], "SY".toList]) :
    ∃ ace, parseAce b aceBody = .ok (some ace) := by
  obtain ⟨system, hsystem, -, -⟩ := Sid.exists_parse "S-1-5-18".toList
    [1, 1, 0, 0, 0, 0, 0, 5, 18, 0, 0, 0] (by decide)
  have htrustee : sidOrAliasToSid b "SY".toList = .ok system := by
    have halias : sddlAliasToSid "SY".toList = some "S-1-5-18".toList := by decide
    have hplain : ¬ "S-".toList <+: "SY".toList := by decide
    rw [sidOrAliasToSid, Sid.fromSddlTrustee, if_neg hplain, halias]
    dsimp only
    rw [hsystem]
  have hrights : parseSddlRights b "0x1".toList = .ok (some ⟨1⟩) := by
    rw [parseSddlRights, if_pos (by decide)]
    rfl
  have htype : aceTypeOf ['A'] = some .allow := by decide
  rw [parseAce, hfields]
  simp only [length_cons, length_nil, getD_cons_zero, getD_cons_succ, htype, hrights, htrustee]
  exact ⟨_, rfl⟩

theorem ace_flags_read_container :
    ∃ ace, parseAce fileBackend "A;OICI;0x1;;;SY".toList = .ok (some ace) ∧
      FlagsRead [.oi, .ci] ace := by
  obtain ⟨ace, hace⟩ := exists_parseAce_system fileBackend "A;OICI;0x1;;;SY".toList
    "OICI".toList (by decide)
  refine ⟨ace, hace, ?_⟩
  exact (ace_flags_read_iff _ _ [.oi, .ci] ace (by decide) hace).mpr ⟨by decide, by decide⟩

/-- `CIOI` is read with `IO`, and `IOID` with `OI`. -/
theorem ace_flags_misread :
    (∃ ace, parseAce fileBackend "A;CIOI;0x1;;;SY".toList = .ok (some ace) ∧
      ace.inheritance.inheritOnly = true ∧ ¬ FlagsRead [.ci, .oi] ace) ∧
    (∃ ace, parseAce registryBackend "A;IOID;0x1;;;SY".toList = .ok (some ace) ∧
      ace.inheritance.objectInherit = true ∧ ¬ FlagsRead [.io, .id] ace) := by
  constructor
  · obtain ⟨ace, hace⟩ := exists_parseAce_system fileBackend "A;CIOI;0x1;;;SY".toList
      "CIOI".toList (by decide)
    have honly : ace.inheritance.inheritOnly = true := by
      rw [(parseAce_flags hace).1]
      decide
    refine ⟨ace, hace, honly, fun h => ?_⟩
    exact absurd (h.inheritOnly.mp honly) (by decide)
  · obtain ⟨ace, hace⟩ := exists_parseAce_system registryBackend "A;IOID;0x1;;;SY".toList
      "IOID".toList (by decide)
    have hobject : ace.inheritance.objectInherit = true := by
      rw [(parseAce_flags hace).1]
      decide
    refine ⟨ace, hace, hobject, fun h => ?_⟩
    exact absurd (h.objectInherit.mp hobject) (by decide)

end WindowsErg.Security
