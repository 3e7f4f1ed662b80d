import WindowsErg.SecuritySddlSections

/-! Reading back the SDDL text that a backend writes. -/
namespace WindowsErg.Security
open List TextScan ByteCodec Outcome

def sidChars : Text := "+-0123456789Ss".toList

theorem mem_sidChars_of_isDigit (c : Char) (h : c.isDigit = true) : c ∈ sidChars := by
  have hc := (isDigit_iff c).mp h
  have he := digitChar_of_isDigit c h
  rw [← he]
  have hd : c.toNat-48 < 10 := by omega
  generalize c.toNat-48 = d at hd
  interval_cases d <;> decide

theorem Spells.splitOn_cases {value : Text} {v : SidValue} (h : Spells value v) :
    ∃ s rev auth subs, value.splitOn '-' = s :: rev :: auth :: subs ∧
      (s = ['S'] ∨ s = ['s']) := by
  have hn := h.count
  have hs := h.head
  match hp : value.splitOn '-' with
  | [] | [_] | [_, _] => simp [hp] at hn
  | s :: rev :: auth :: subs =>
    refine ⟨s, rev, auth, subs, rfl, ?_⟩
    rw [hp] at hs
    have he : s.map Char.toLower = ['s'] := by simpa [eqIgnoreAsciiCase] using hs
    obtain ⟨c, rfl, hc⟩ := map_eq_singleton_iff.mp he
    rcases toLower_eq_s c hc with rfl | rfl
    · exact Or.inl rfl
    · exact Or.inr rfl

theorem Spells.mem_chars {value : Text} {v : SidValue} (h : Spells value v) (c : Char)
    (hc : c ∈ value) : c ∈ sidChars := by
  have hv : ['-'].intercalate (value.splitOn '-') = value := intercalate_splitOn '-'
  rw [← hv] at hc
  obtain ⟨s, rev, auth, subs, hp, hs⟩ := h.splitOn_cases
  have hnum {bound n : ℕ} {t : Text} (ht : fromStrRadix 10 bound t = some n) (hm : c ∈ t) :
      c ∈ sidChars := by
    rcases mem_fromStrRadix_ten bound n t ht c hm with rfl | hd
    · decide
    · exact mem_sidChars_of_isDigit c hd
  rcases mem_intercalate ['-'] c _ hc with hsep | ⟨part, hpart, hm⟩
  · rw [mem_singleton.mp hsep]
    decide
  · have hr := h.revision
    have ha := h.authority
    have hsub := h.subs
    rw [hp] at hpart hr ha hsub
    simp only [mem_cons, getD_cons_succ, getD_cons_zero, drop_succ_cons,
      drop_zero] at hpart hr ha hsub
    rcases hpart with rfl | rfl | rfl | hpart
    · rcases hs with rfl | rfl
      · rw [mem_singleton.mp hm]
        decide
      · rw [mem_singleton.mp hm]
        decide
    · exact hnum hr hm
    · exact hnum ha hm
    · obtain ⟨x, hx⟩ := mapM_some_of_mem _ _ _ hsub part hpart
      exact hnum hx hm

variable (s : Sid)

theorem Sid.mem_chars (c : Char) (h : c ∈ s.string) : c ∈ sidChars := by
  obtain ⟨v, -, hv⟩ := s.form
  exact hv.mem_chars c h

theorem Sid.notMem_string (c : Char) (h : c ∉ sidChars) : c ∉ s.string :=
  fun hc => h (s.mem_chars c hc)

def Sid.identifierAuthority (s : Sid) : ℕ := ofBe ((s.raw.drop 2).take 6)

/-- A SID whose own text is accepted where SDDL expects a trustee: it starts with
a capital `S`, and its authority passes the check of the parser. -/
def Sid.Reparsable (s : Sid) : Prop :=
  s.string.head? = some 'S' ∧ s.identifierAuthority < 2^32

instance (s : Sid) : Decidable s.Reparsable :=
  inferInstanceAs (Decidable (s.string.head? = some 'S' ∧ s.identifierAuthority < 2^32))

theorem Sid.identifierAuthority_eq (v : SidValue) (h : s.raw = v.bytes) :
    s.identifierAuthority = v.authority := by
  have h6 : (v.bytes.drop 2).take 6 = beBytes 6 v.authority := by simp [SidValue.bytes]
  rw [identifierAuthority, h, h6]
  exact ofBe_beBytes 6 _ (lt_of_lt_of_le v.authority_lt (by norm_num))

theorem Sid.string_shape :
    "S-".toList <+: s.string ∧ s.string.head? = some 'S' ∨ s.string.head? = some 's' := by
  obtain ⟨v, -, hv⟩ := s.form
  obtain ⟨p, rev, auth, subs, hp, hs⟩ := hv.splitOn_cases
  have hh : ['-'].intercalate (s.string.splitOn '-') = s.string := intercalate_splitOn '-'
  rw [hp] at hh
  simp only [List.intercalate, intersperse_cons_cons, flatten_cons] at hh
  rcases hs with rfl | rfl
  · left
    rw [← hh]
    exact ⟨⟨_, rfl⟩, rfl⟩
  · right
    rw [← hh]
    rfl

theorem Sid.fromSddlTrustee_string :
    (Sid.fromSddlTrustee s.string).toOption = if s.Reparsable then some s else none := by
  obtain ⟨v, hr, hv⟩ := s.form
  have hauth := s.identifierAuthority_eq v hr
  unfold Sid.fromSddlTrustee
  rcases s.string_shape with ⟨hpre, hS⟩ | hs
  · rw [if_pos hpre]
    by_cases ha : v.authority < 2^32
    · have hp : Sid.parse s.string = .ok s := (Sid.parse_ok_iff _ _).mpr
        ⟨(sidStringToBytes_ok_iff _ _).mpr ⟨v, hv, ha, hr⟩, rfl⟩
      rw [hp, if_pos ⟨hS, by rw [hauth]; exact ha⟩]
      rfl
    · rw [if_neg (fun h => ha (hauth ▸ h.2))]
      cases hp : Sid.parse s.string with
      | error e => rfl
      | ok t =>
        obtain ⟨w, hw, hlt, -⟩ := (sidStringToBytes_ok_iff _ _).mp ((Sid.parse_ok_iff _ _).mp hp).1
        rw [hv.unique hw] at ha
        exact absurd hlt ha
  · -- a small `s` is taken for an alias, and no alias starts with one
    have hnp : ¬ "S-".toList <+: s.string := by
      rintro ⟨t, ht⟩
      rw [← ht] at hs
      exact absurd hs (by simp)
    have hnone : sddlAliasToSid s.string = none := by
      apply lookup_eq_none_iff.mpr
      intro p hp
      have hall : ∀ p ∈ wellKnownSids ++ [("S-1-5-80-0".toList, "S-1-5-80-0".toList)],
          p.1.head? ≠ some 's' := by decide
      have hne : s.string ≠ p.1 := fun he => hall p hp (he ▸ hs)
      simpa using hne
    rw [if_neg hnp, hnone, if_neg]
    · rfl
    · rintro ⟨hS, -⟩
      rw [hs] at hS
      exact absurd hS (by decide)

variable (flags : InheritanceFlags)

theorem parseInheritanceFlags_text : parseInheritanceFlags (inheritanceText flags) = flags := by
  rcases flags with ⟨oi, ci, io, np⟩
  cases oi <;> cases ci <;> cases io <;> cases np <;> decide

theorem inheritanceText_not_inherited : contains (inheritanceText flags) ['I', 'D'] = false := by
  rcases flags with ⟨oi, ci, io, np⟩
  cases oi <;> cases ci <;> cases io <;> cases np <;> decide

theorem mem_inheritanceText (c : Char) (h : c ∈ inheritanceText flags) : c ∈ "OICNP".toList := by
  rcases flags with ⟨oi, ci, io, np⟩
  revert c
  cases oi <;> cases ci <;> cases io <;> cases np <;> exact forall_mem_of_all (by decide)

def rightsText (ace : Ace) : Text := "0x".toList ++ hexUpper ace.accessMask.bits.toNat

variable (b : SddlBackend) (ace : Ace)

theorem parseSddlRights_text : parseSddlRights b (rightsText ace) = .ok (some ace.accessMask) := by
  have hlt : ace.accessMask.bits.toNat < 2^32 := ace.accessMask.bits.toNat_lt
  have hp : "0x".toList <+: rightsText ace := ⟨_, rfl⟩
  have hd : (rightsText ace).drop 2 = hexUpper ace.accessMask.bits.toNat := rfl
  rw [parseSddlRights, if_pos hp, hd, fromStrRadix_hexUpper _ _ hlt]
  simp

def aceChars : Text := sidChars ++ "0123456789ABCDEF".toList ++ "OICNPx;".toList

theorem mem_aceText (c : Char) (h : c ∈ aceText ace) : c ∈ aceChars := by
  simp only [aceText, mem_append, mem_cons] at h
  simp only [aceChars, mem_append]
  -- the parts in their order: type, flags, rights, two empty GUIDs, trustee
  rcases h with (((h | h | h) | h | h | h) | h) | h
  · have ht : ∀ t, ∀ d ∈ aceTypeText t, d ∈ "0123456789ABCDEF".toList := by
      intro t
      cases t <;> exact forall_mem_of_all (by decide)
    exact Or.inl (Or.inr (ht _ c h))
  · exact Or.inr (by rw [h]; decide)
  · have hsub : ∀ d ∈ "OICNP".toList, d ∈ "OICNPx;".toList :=
      forall_mem_of_all (by decide)
    exact Or.inr (hsub c (mem_inheritanceText _ c h))
  · exact Or.inr (by rw [h]; decide)
  · have hsub : ∀ d ∈ "0x".toList, d ∈ "0123456789ABCDEF".toList ∨ d ∈ "OICNPx;".toList :=
      forall_mem_of_all (by decide)
    rcases hsub c h with h | h
    · exact Or.inl (Or.inr h)
    · exact Or.inr h
  · exact Or.inl (Or.inr (mem_hexUpper _ c h))
  · have hsub : ∀ d ∈ ";;;".toList, d ∈ "OICNPx;".toList :=
      forall_mem_of_all (by decide)
    exact Or.inr (hsub c h)
  · exact Or.inl (Or.inl (ace.trustee.mem_chars c h))

theorem aceText_splitOn : (aceText ace).splitOn ';' =
    [aceTypeText ace.aceType, inheritanceText ace.inheritance, rightsText ace, [], [],
      ace.trustee.string] := by
  have htext : aceText ace = [';'].intercalate [aceTypeText ace.aceType,
      inheritanceText ace.inheritance, rightsText ace, [], [], ace.trustee.string] := by
    simp [aceText, rightsText, List.intercalate]
  rw [htext]
  -- a semicolon stands in none of the fields, so the cuts are where they were written
  apply splitOn_intercalate
  · intro l hl
    simp only [mem_cons, not_mem_nil, or_false] at hl
    rcases hl with rfl | rfl | rfl | rfl | rfl | rfl
    · cases ace.aceType <;> decide
    · intro hc
      exact absurd (mem_inheritanceText _ _ hc) (by decide)
    · intro hc
      rcases mem_append.mp hc with hc | hc
      · exact absurd hc (by decide)
      · exact absurd (mem_hexUpper _ _ hc) (by decide)
    · simp
    · simp
    · exact ace.trustee.notMem_string ';' (by decide)
  · simp

/-- What becomes of an entry that is written and read: the inherited flag is not
written, and a trustee that cannot be parsed drops the entry. -/
def readBack (ace : Ace) : Option Ace :=
  if ace.trustee.Reparsable then some (ace.withInherited false) else none

theorem parseAce_aceText : parseAce b (aceText ace) = .ok (readBack ace) := by
  have htype : aceTypeOf (aceTypeText ace.aceType) = some ace.aceType := by
    cases ace.aceType <;> rfl
  have hsid := ace.trustee.fromSddlTrustee_string
  unfold parseAce
  rw [aceText_splitOn]
  simp only [length_cons, length_nil, getD_cons_zero, getD_cons_succ,
    htype, parseInheritanceFlags_text, inheritanceText_not_inherited, parseSddlRights_text]
  unfold readBack sidOrAliasToSid
  by_cases hr : ace.trustee.Reparsable
  · rw [if_pos hr] at hsid ⊢
    cases hs : Sid.fromSddlTrustee ace.trustee.string with
    | error e => simp [hs, Except.toOption] at hsid
    | ok t =>
      rw [hs] at hsid
      have ht : t = ace.trustee := by simpa [Except.toOption] using hsid
      rw [ht]
      rfl
  · rw [if_neg hr] at hsid ⊢
    cases hs : Sid.fromSddlTrustee ace.trustee.string with
    | error e => rfl
    | ok t => simp [hs, Except.toOption] at hsid

def entriesText (entries : List Ace) : Text :=
  entries.flatMap fun ace => '(' :: aceText ace ++ [')']

variable (entries : List Ace)

theorem parseAces_entriesText (acc : List Ace) (rounds : ℕ) (h : entries.length ≤ rounds) :
    parseAces b rounds (entriesText entries) acc = .ok (acc ++ entries.filterMap readBack) := by
  induction entries generalizing rounds acc with
  | nil =>
    cases rounds with
    | zero => simp [parseAces]
    | succ rounds => simp [parseAces, entriesText, find]
  | cons ace entries ih =>
    obtain ⟨rounds, rfl⟩ : ∃ k, rounds = k+1 := ⟨rounds-1, by simp at h; omega⟩
    -- the first closing parenthesis of the text ends this entry
    have hclose : ')' ∉ '(' :: aceText ace := by
      intro hc
      rcases mem_cons.mp hc with hc | hc
      · exact absurd hc (by decide)
      · exact absurd (mem_aceText ace _ hc) (by decide)
    have htext : entriesText (ace :: entries) =
        ('(' :: aceText ace) ++ ')' :: entriesText entries := by
      simp [entriesText]
    have hopen : find ['('] (entriesText (ace :: entries)) = some 0 := by
      rw [htext]
      simp [find]
    have hend : find [')'] (entriesText (ace :: entries)) = some ('(' :: aceText ace).length := by
      rw [htext]
      exact find_char_append ')' _ _ hclose
    have hbody : ((entriesText (ace :: entries)).take ('(' :: aceText ace).length).drop 1 =
        aceText ace := by
      rw [htext, take_left]
      rfl
    have hrest : (entriesText (ace :: entries)).drop (('(' :: aceText ace).length+1) =
        entriesText entries := by
      rw [htext, ← drop_drop, drop_left]
      rfl
    rw [parseAces, hopen]
    simp only [drop_zero]
    rw [hend]
    simp only [hbody, hrest, parseAce_aceText]
    change parseAces b rounds (entriesText entries) (acc ++ (readBack ace).toList) = _
    rw [ih _ _ (by simpa using h), filterMap_cons]
    cases readBack ace <;> simp

def descriptorSections (d : SecurityDescriptor) : List (Char × Text) :=
  (d.owner.map fun owner => ('O', owner.string)).toList ++
    (d.group.map fun group => ('G', group.string)).toList ++
    [('D', entriesText d.dacl.entries)]

variable (d : SecurityDescriptor)

theorem descriptorToSddl_eq : descriptorToSddl d = sectionsText (descriptorSections d) := by
  unfold descriptorToSddl descriptorSections
  cases d.owner <;> cases d.group <;> simp [sectionsText, daclToSddl, entriesText]

theorem mem_entriesText (c : Char) (h : c ∈ entriesText entries) : c ∈ aceChars ++ "()".toList := by
  obtain ⟨ace, -, hc⟩ := mem_flatMap.mp h
  simp only [cons_append, mem_cons, mem_append, not_mem_nil, or_false] at hc
  rcases hc with rfl | hc | rfl
  · decide
  · exact mem_append_left _ (mem_aceText ace c hc)
  · decide

theorem trim_sidText : trim s.string = s.string := by
  apply trim_eq_self
  intro c hc
  have hall : ∀ d ∈ sidChars, isWhitespace d = false :=
    forall_mem_of_all (by decide)
  exact hall c (s.mem_chars c hc)

theorem trim_entriesText : trim (entriesText entries) = entriesText entries := by
  apply trim_eq_self
  intro c hc
  have hall : ∀ d ∈ aceChars ++ "()".toList, isWhitespace d = false :=
    forall_mem_of_all (by decide)
  exact hall c (mem_entriesText entries c hc)

theorem wellSectioned : WellSectioned (descriptorSections d) := by
  have hsid (s : Sid) : ':' ∉ s.string := s.notMem_string ':' (by decide)
  have hent : ':' ∉ entriesText d.dacl.entries :=
    fun hc => absurd (mem_entriesText _ _ hc) (by decide)
  unfold descriptorSections
  cases d.owner <;> cases d.group <;>
    exact ⟨by simp, by simp, by simp [hsid, hent]⟩

theorem extract_owner : extractSddlSection (descriptorToSddl d) 'O' = d.owner.map Sid.string := by
  have hw := wellSectioned d
  rw [descriptorToSddl_eq]
  cases ho : d.owner with
  | none =>
    rw [extractSddlSection, find_marker_none _ hw 'O' (by decide)]
    · rfl
    · cases hg : d.group <;> simp [descriptorSections, ho, hg]
  | some owner =>
    have hsec : descriptorSections d = [] ++ ('O', owner.string) ::
        ((d.group.map fun group => ('G', group.string)).toList ++
          [('D', entriesText d.dacl.entries)]) := by
      simp [descriptorSections, ho]
    rw [hsec] at hw ⊢
    rw [extractSddlSection_some _ _ _ _ hw, trim_sidText]
    rfl

theorem extract_group : extractSddlSection (descriptorToSddl d) 'G' = d.group.map Sid.string := by
  have hw := wellSectioned d
  rw [descriptorToSddl_eq]
  cases hg : d.group with
  | none =>
    rw [extractSddlSection, find_marker_none _ hw 'G' (by decide)]
    · rfl
    · cases ho : d.owner <;> simp [descriptorSections, ho, hg]
  | some group =>
    have hsec : descriptorSections d = (d.owner.map fun owner => ('O', owner.string)).toList ++
        ('G', group.string) :: [('D', entriesText d.dacl.entries)] := by
      simp [descriptorSections, hg]
    rw [hsec] at hw ⊢
    rw [extractSddlSection_some _ _ _ _ hw, trim_sidText]
    rfl

theorem extract_dacl :
    extractSddlSection (descriptorToSddl d) 'D' = some (entriesText d.dacl.entries) := by
  have hw := wellSectioned d
  rw [descriptorToSddl_eq]
  unfold descriptorSections at hw ⊢
  rw [extractSddlSection_some _ [] 'D' _ hw, trim_entriesText]

theorem entriesText_length : entries.length ≤ (entriesText entries).length := by
  induction entries with
  | nil => simp
  | cons ace entries ih =>
    have h : entriesText (ace :: entries) = '(' :: aceText ace ++ [')'] ++ entriesText entries := by
      simp [entriesText]
    rw [h]
    simp only [length_append, length_cons]
    omega

theorem parseDaclFromSddl_written :
    parseDaclFromSddl b (descriptorToSddl d) =
      .ok (Dacl.canonicalize ⟨d.dacl.entries.filterMap readBack⟩) := by
  rw [parseDaclFromSddl, extract_dacl]
  simp only [parseAces_entriesText b _ [] _ (entriesText_length d.dacl.entries), nil_append]
  rfl

theorem sidOrAliasToSid_string (s : Sid) :
    (sidOrAliasToSid b s.string).toOption = if s.Reparsable then some s else none := by
  rw [← s.fromSddlTrustee_string, sidOrAliasToSid]
  cases Sid.fromSddlTrustee s.string <;> rfl

theorem sddlToDescriptor_written (path : Text) (d : SecurityDescriptor) :
    sddlToDescriptor b path (descriptorToSddl d) = .ok {
      target := b.target path
      owner := d.owner.filter (fun s => s.Reparsable)
      group := d.group.filter (fun s => s.Reparsable)
      dacl := Dacl.canonicalize ⟨d.dacl.entries.filterMap readBack⟩ } := by
  have hsid (o : Option Sid) : ((o.map Sid.string).bind fun v => (sidOrAliasToSid b v).toOption) =
      o.filter (fun s => s.Reparsable) := by
    cases o with
    | none => rfl
    | some s =>
      rw [Option.map_some, Option.bind_some, sidOrAliasToSid_string, Option.filter]
      by_cases hr : s.Reparsable <;> simp [hr]
  unfold sddlToDescriptor
  rw [parseDaclFromSddl_written, extract_owner, extract_group, hsid, hsid]
  rfl

theorem canonicalize_readBack_iff (dacl : Dacl) :
    Dacl.canonicalize ⟨dacl.entries.filterMap readBack⟩ = dacl.canonicalize ↔
      ∀ ace ∈ dacl.entries, ace.inherited = false ∧ ace.trustee.Reparsable := by
  constructor
  · intro h ace hace
    -- an entry of the canonical form was read back, and reading back clears the flag
    rw [← Dacl.mem_canonicalize, ← h, Dacl.mem_canonicalize, mem_filterMap] at hace
    obtain ⟨x, -, hx⟩ := hace
    unfold readBack at hx
    split at hx
    next hr =>
      rw [← Option.some.inj hx]
      exact ⟨rfl, hr⟩
    next => contradiction
  · intro h
    have hall : dacl.entries.filterMap readBack = dacl.entries := by
      conv_rhs => rw [← filterMap_some (l := dacl.entries)]
      apply filterMap_congr
      intro ace hace
      obtain ⟨hi, hr⟩ := h ace hace
      rw [readBack, if_pos hr]
      cases ace
      simp_all [Ace.withInherited]
    rw [hall]

def SddlRoundTrip (parseDacl : Text → Except SddlError Dacl)
    (toDescriptor : Text → Text → Except SddlError SecurityDescriptor) (path : Text)
    (d : SecurityDescriptor) : Prop :=
  parseDacl (descriptorToSddl d) = .ok d.dacl.canonicalize ∧
    ∃ d', toDescriptor path (descriptorToSddl d) = .ok d' ∧ d'.owner = d.owner ∧
      d'.group = d.group ∧ d'.dacl = d.dacl.canonicalize

def SddlSafe (d : SecurityDescriptor) : Prop :=
  (∀ ace ∈ d.dacl.entries, ace.inherited = false ∧ ace.trustee.Reparsable) ∧
    (∀ s, d.owner = some s → s.Reparsable) ∧ (∀ s, d.group = some s → s.Reparsable)

theorem filter_reparsable_iff (o : Option Sid) :
    o.filter (fun s => s.Reparsable) = o ↔ ∀ s, o = some s → s.Reparsable := by
  cases o with
  | none => simp
  | some s => by_cases hr : s.Reparsable <;> simp [Option.filter, hr]

theorem sddl_roundTrip_iff_safe (path : Text) (d : SecurityDescriptor) :
    SddlRoundTrip (parseDaclFromSddl b) (sddlToDescriptor b) path d ↔ SddlSafe d := by
  unfold SddlRoundTrip SddlSafe
  rw [parseDaclFromSddl_written, sddlToDescriptor_written, Except.ok.injEq,
    canonicalize_readBack_iff, ← filter_reparsable_iff, ← filter_reparsable_iff]
  constructor
  · rintro ⟨hd, d', he, ho, hg, -⟩
    rw [Except.ok.injEq] at he
    subst he
    exact ⟨hd, ho, hg⟩
  · rintro ⟨hd, ho, hg⟩
    exact ⟨hd, _, rfl, ho, hg, (canonicalize_readBack_iff d.dacl).mpr hd⟩

/-- Both backends bring a descriptor back exactly when none of its entries is
inherited and each of its SIDs starts with a capital `S` and has an authority
below `2^32`. -/
theorem sddl_roundTrip_iff (path : Text) (d : SecurityDescriptor) :
    (SddlRoundTrip File.parseDaclFromSddl File.sddlToDescriptor path d ↔ SddlSafe d) ∧
      (SddlRoundTrip Registry.parseDaclFromSddl Registry.sddlToDescriptor path d ↔ SddlSafe d) :=
  ⟨sddl_roundTrip_iff_safe fileBackend path d, sddl_roundTrip_iff_safe registryBackend path d⟩

/-- An allow entry for the local system account, inherited from the parent, comes
back as an explicit one from both backends. -/
theorem sddl_roundTrip_loses_inherited :
    ∃ s, Sid.parse "S-1-5-18".toList = .ok s ∧
      ¬ SddlRoundTrip File.parseDaclFromSddl File.sddlToDescriptor "C:".toList
        ⟨.filePath "C:".toList, none, none, ⟨[⟨s, .allow, ⟨1⟩, {}, true⟩]⟩⟩ ∧
      ¬ SddlRoundTrip Registry.parseDaclFromSddl Registry.sddlToDescriptor "HKLM".toList
        ⟨.registryPath "HKLM".toList, none, none, ⟨[⟨s, .allow, ⟨1⟩, {}, true⟩]⟩⟩ := by
  obtain ⟨s, hs, -, -⟩ := Sid.exists_parse "S-1-5-18".toList
    [1, 1, 0, 0, 0, 0, 0, 5, 18, 0, 0, 0] (by decide)
  refine ⟨s, hs, ?_, ?_⟩
  · intro h
    have hsafe := (sddl_roundTrip_iff_safe fileBackend _ _).mp h
    exact Bool.noConfusion (hsafe.1 _ (mem_singleton.mpr rfl)).1
  · intro h
    have hsafe := (sddl_roundTrip_iff_safe registryBackend _ _).mp h
    exact Bool.noConfusion (hsafe.1 _ (mem_singleton.mpr rfl)).1

end WindowsErg.Security
