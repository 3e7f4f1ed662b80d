import WindowsErg.FilePe

/-! The text that the import hash is computed of, against the text of the published algorithm. -/
namespace WindowsErg.File.Pe
open List TextScan

inductive SymbolRef where
  | ordinal (n : UInt16)
  | named (name : Text)

structure ImportRef where
  dll : Text
  symbol : SymbolRef

def SymbolRef.text : SymbolRef → Text
  | .ordinal n => ordinalText n.toNat
  | .named name => toAsciiLowercase name

def ImportRef.resolved (i : ImportRef) : Import := ⟨toAsciiLowercase i.dll, i.symbol.text⟩

/-- The well-known names of ordinals that the published algorithm comes with. -/
structure OrdinalNames where
  ws2_32 : UInt16 → Option Text
  wsock32 : UInt16 → Option Text
  oleaut32 : UInt16 → Option Text

def OrdinalNames.lookup (names : OrdinalNames) (dll : Text) (n : UInt16) : Option Text :=
  if dll = "ws2_32.dll".toList then names.ws2_32 n
  else if dll = "wsock32.dll".toList then names.wsock32 n
  else if dll = "oleaut32.dll".toList then names.oleaut32 n
  else none

def extension (dll : Text) : Text := (dll.reverse.takeWhile (· ≠ '.')).reverse

def HasPlainExtension (dll : Text) : Prop :=
  extension dll ∈ ["dll".toList, "ocx".toList, "sys".toList]

instance (dll : Text) : Decidable (HasPlainExtension dll) := inferInstanceAs (Decidable (_ ∈ _))

def publishedStem (dll : Text) : Text :=
  if '.' ∈ dll ∧ HasPlainExtension dll then dll.take (dll.length-(extension dll).length-1) else dll

def publishedSymbol (names : OrdinalNames) (dll : Text) : SymbolRef → Text
  | .ordinal n => ((names.lookup dll n).map toAsciiLowercase).getD (ordinalText n.toNat)
  | .named name => toAsciiLowercase name

def publishedText (names : OrdinalNames) (i : ImportRef) : Text :=
  publishedStem (toAsciiLowercase i.dll) ++
    '.' :: publishedSymbol names (toAsciiLowercase i.dll) i.symbol

def publishedInput (names : OrdinalNames) (imports : List ImportRef) : Text :=
  [','].intercalate (imports.map (publishedText names))

def hashedText (i : ImportRef) : Text :=
  stripExtension (toAsciiLowercase i.dll) ++ '.' :: i.symbol.text

theorem stripExtension_of_notMem {dll : Text} (h : '.' ∉ dll) : stripExtension dll = dll := if_neg h

theorem exists_last_point {dll : Text} (h : '.' ∈ dll) :
    ∃ stem, dll = stem ++ '.' :: extension dll ∧ stripExtension dll = stem := by
  obtain ⟨ext, stem, hreverse, hext⟩ := eq_append_cons_of_mem (mem_reverse.mpr h)
  have hkeep : ∀ c ∈ ext, decide (c ≠ '.') = true := by
    intro c hc
    exact decide_eq_true fun heq => hext (heq ▸ hc)
  have hpoint : decide ('.' ≠ '.') = false := by simp
  have hextension : extension dll = ext.reverse := by
    rw [extension, hreverse, takeWhile_append_of_pos hkeep, takeWhile_cons, hpoint]
    simp
  refine ⟨stem.reverse, ?_, ?_⟩
  · rw [hextension, ← reverse_reverse dll, hreverse]
    simp
  · rw [stripExtension, if_pos h, hreverse, dropWhile_append_of_pos hkeep, dropWhile_cons, hpoint]
    rfl

structure HashedAsPublished (names : OrdinalNames) (i : ImportRef) : Prop where
  dll : '.' ∈ toAsciiLowercase i.dll → HasPlainExtension (toAsciiLowercase i.dll)
  ordinal : ∀ n, i.symbol = .ordinal n → ∀ known,
    names.lookup (toAsciiLowercase i.dll) n = some known → toAsciiLowercase known = ordinalText n.toNat

theorem point_notMem_ordinalText (n : ℕ) : '.' ∉ ordinalText n := by
  unfold ordinalText
  rw [mem_append, not_or]
  refine ⟨by decide, ?_⟩
  intro h
  exact absurd (isDigit_of_mem_decimal _ '.' h) (by decide)

theorem symbolText_ne (names : OrdinalNames) (dll ext : Text) (symbol : SymbolRef) :
    symbol.text ≠ ext ++ '.' :: publishedSymbol names dll symbol := by
  intro h
  cases symbol with
  | ordinal n =>
    apply point_notMem_ordinalText n.toNat
    rw [show ordinalText n.toNat = _ from h]
    simp
  | named name =>
    have hlength := congrArg List.length h
    simp only [SymbolRef.text, publishedSymbol, length_append, length_cons] at hlength
    omega

theorem symbolText_eq_iff (names : OrdinalNames) (dll : Text) (symbol : SymbolRef) :
    symbol.text = publishedSymbol names dll symbol ↔ ∀ n, symbol = .ordinal n → ∀ known,
      names.lookup dll n = some known → toAsciiLowercase known = ordinalText n.toNat := by
  cases symbol with
  | named name => exact iff_of_true rfl nofun
  | ordinal n =>
    simp only [SymbolRef.text, publishedSymbol, SymbolRef.ordinal.injEq, forall_eq']
    cases names.lookup dll n with
    | none => exact iff_of_true rfl nofun
    | some known =>
      simp only [Option.map_some, Option.getD_some, Option.some.injEq, forall_eq']
      exact eq_comm

theorem hashedText_eq_iff (names : OrdinalNames) (i : ImportRef) :
    hashedText i = publishedText names i ↔ HashedAsPublished names i := by
  have hiff : HashedAsPublished names i ↔
      ('.' ∈ toAsciiLowercase i.dll → HasPlainExtension (toAsciiLowercase i.dll)) ∧
        i.symbol.text = publishedSymbol names (toAsciiLowercase i.dll) i.symbol := by
    rw [symbolText_eq_iff]
    exact ⟨fun h => ⟨h.1, h.2⟩, fun h => ⟨h.1, h.2⟩⟩
  rw [hiff, hashedText, publishedText, publishedStem]
  generalize toAsciiLowercase i.dll = dll
  by_cases hpoint : '.' ∈ dll
  · obtain ⟨stem, hdll, hstrip⟩ := exists_last_point hpoint
    have hstem : dll.take (dll.length-(extension dll).length-1) = stem := by
      have hlength := congrArg List.length hdll
      rw [length_append, length_cons] at hlength
      rw [show dll.length-(extension dll).length-1 = stem.length by omega]
      conv_lhs => rw [hdll]
      exact take_left
    rw [forall_prop_of_true hpoint, hstrip]
    by_cases hplain : HasPlainExtension dll
    · rw [if_pos ⟨hpoint, hplain⟩, hstem, append_cancel_left_eq, List.cons.injEq]
      simp only [hplain, true_and]
    · -- the published text keeps the extension, the code drops it
      rw [if_neg fun h => hplain h.2]
      refine iff_of_false ?_ fun h => hplain h.1
      intro h
      nth_rewrite 1 [hdll] at h
      rw [append_assoc, cons_append] at h
      exact symbolText_ne names dll _ i.symbol (List.cons.inj (append_cancel_left h)).2
  · rw [if_neg fun h => hpoint h.1, stripExtension_of_notMem hpoint, append_cancel_left_eq,
      List.cons.injEq]
    simp only [hpoint, true_and, false_implies]

def CommaFree (names : OrdinalNames) (i : ImportRef) : Prop :=
  ',' ∉ hashedText i ∧ ',' ∉ publishedText names i

theorem imphashInput_eq (imports : List ImportRef) :
    imphashInput (imports.map ImportRef.resolved) = [','].intercalate (imports.map hashedText) := by
  rw [imphashInput, map_map]
  rfl

/-- The hashed text is the published one if that holds of every import, and only then if no text has a
comma of its own. -/
theorem imphash_text_published (names : OrdinalNames) (imports : List ImportRef) :
    ((∀ i ∈ imports, HashedAsPublished names i) →
      imphashInput (imports.map ImportRef.resolved) = publishedInput names imports) ∧
    ((∀ i ∈ imports, CommaFree names i) →
      imphashInput (imports.map ImportRef.resolved) = publishedInput names imports →
      ∀ i ∈ imports, HashedAsPublished names i) := by
  simp only [imphashInput_eq, publishedInput, ← hashedText_eq_iff]
  constructor
  · intro h
    rw [map_congr_left h]
  · intro hfree heq
    by_cases hempty : imports = []
    · rw [hempty]
      exact nofun
    -- without commas of their own, the texts can be split off the joined one again
    have hsplit {f : ImportRef → Text} (hf : ∀ i ∈ imports, ',' ∉ f i) :
        List.splitOn ',' ([','].intercalate (imports.map f)) = imports.map f := by
      apply splitOn_intercalate
      · intro text htext
        obtain ⟨i, hi, rfl⟩ := mem_map.mp htext
        exact hf i hi
      · exact mt map_eq_nil_iff.mp hempty
    have hmap : imports.map hashedText = imports.map (publishedText names) := by
      rw [← hsplit fun i hi => (hfree i hi).1, heq, hsplit fun i hi => (hfree i hi).2]
    exact map_inj_left.mp hmap

/-- A printer driver keeps its extension in the published text. -/
theorem imphash_text_of_driver :
    imphashInput [ImportRef.resolved ⟨"WINSPOOL.DRV".toList, .named "OpenPrinterW".toList⟩] =
        "winspool.openprinterw".toList ∧
      publishedInput ⟨fun _ => none, fun _ => none, fun _ => none⟩
          [⟨"WINSPOOL.DRV".toList, .named "OpenPrinterW".toList⟩] =
        "winspool.drv.openprinterw".toList := by
  decide

end WindowsErg.File.Pe
