import WindowsErg.Outcome
import WindowsErg.TextScan

/-! XML text with references for the characters that need them, and the tokens that a reader
delivers for it. Every run of characters between two references is a token of its own. -/
namespace XmlTokens
open List TextScan

inductive RawChar where
  | char (c : Char)
  | reference (entity : Text)
  deriving DecidableEq, Repr

abbrev RawText := List RawChar

def charOfNumber (n : ℕ) : Option Char := if n.isValidChar then some (Char.ofNat n) else none

def entityChar : Text → Option Char
  | ['a', 'm', 'p'] => some '&'
  | ['l', 't'] => some '<'
  | ['g', 't'] => some '>'
  | ['q', 'u', 'o', 't'] => some '"'
  | ['a', 'p', 'o', 's'] => some (Char.ofNat 39)
  | '#' :: 'x' :: c :: digits => (digitsValue 16 0 (c :: digits)).bind charOfNumber
  | '#' :: c :: digits => (digitsValue 10 0 (c :: digits)).bind charOfNumber
  | _ => none

def textReserved (c : Char) : Bool := c = '&' || c = '<' || c = '\r'

/-- In the value of an attribute all white space but blanks would be read as a blank. -/
def attributeReserved (c : Char) : Bool := textReserved c || c = '\t' || c = '\n'

def RawChar.value (reserved : Char → Bool) : RawChar → Option Char
  | .char c => if reserved c then none else some c
  | .reference entity => entityChar entity

def meaning (reserved : Char → Bool) (raw : RawText) : Option Text := raw.mapM (·.value reserved)

def RawChar.source : RawChar → Text
  | .char c => [c]
  | .reference entity => '&' :: entity ++ [';']

def source (raw : RawText) : Text := raw.flatMap (·.source)

def RawChar.isReference : RawChar → Bool
  | .char _ => false
  | .reference _ => true

def Unescaped (raw : RawText) : Prop := raw.countP (·.isReference) = 0

instance (raw : RawText) : Decidable (Unescaped raw) := inferInstanceAs (Decidable (_ = _))

section
variable {reserved : Char → Bool} {raw : RawText} {s : Text} (h : meaning reserved raw = some s)
include h

theorem length_of_meaning : raw.length = s.length :=
  Outcome.mapM_some_length _ raw s h

theorem eq_map_char_of_unescaped (hraw : Unescaped raw) : raw = s.map .char := by
  induction raw generalizing s with
  | nil =>
    have hs : [] = s := Option.some.inj h
    rw [← hs]
    rfl
  | cons c raw ih =>
    rw [meaning, mapM_cons] at h
    simp only [Option.bind_eq_bind, Option.bind_eq_some_iff, Option.pure_def,
      Option.some.injEq] at h
    obtain ⟨d, hd, rest, hrest, rfl⟩ := h
    unfold Unescaped at hraw
    rw [countP_cons] at hraw
    cases c with
    | reference entity =>
      rw [show (RawChar.reference entity).isReference = true from rfl, if_pos rfl] at hraw
      omega
    | char c =>
      have hc : c = d := by
        simp only [RawChar.value] at hd
        split_ifs at hd
        exact Option.some.inj hd
      rw [hc, map_cons, ih hrest (by unfold Unescaped; omega)]

end

theorem source_map_char (s : Text) : source (s.map .char) = s := by
  induction s with
  | nil => rfl
  | cons c s ih =>
    rw [map_cons, source, flatMap_cons, ← source, ih]
    rfl

theorem length_source (raw : RawText) :
    raw.length + raw.countP (·.isReference) ≤ (source raw).length := by
  induction raw with
  | nil => exact le_rfl
  | cons c raw ih =>
    rw [source, flatMap_cons, length_append, ← source, countP_cons, length_cons]
    cases c with
    | char c =>
      rw [if_neg (show ¬ (RawChar.char c).isReference = true from Bool.false_ne_true)]
      simp only [RawChar.source, length_singleton]
      omega
    | reference entity =>
      rw [if_pos (show (RawChar.reference entity).isReference = true from rfl)]
      simp only [RawChar.source, cons_append, length_cons, length_append, length_nil]
      omega

theorem source_eq_iff {reserved : Char → Bool} {raw : RawText} {s : Text}
    (h : meaning reserved raw = some s) : source raw = s ↔ Unescaped raw := by
  constructor
  · intro hs
    have hlen := length_source raw
    have hsame := length_of_meaning h
    rw [hs, hsame] at hlen
    unfold Unescaped
    omega
  · intro hraw
    rw [eq_map_char_of_unescaped h hraw, source_map_char]

/-- An attribute that is not well formed is `none`. -/
abbrev Attributes := List (Option (Text × Text))

inductive XmlToken where
  | start (name : Text) (attributes : Attributes)
  | endTag (name : Text)
  | empty (name : Text) (attributes : Attributes)
  | text (content : Text)
  | generalRef (entity : Text)
  /-- A comment, a declaration, a processing instruction or a CDATA section. -/
  | other
  | malformed
  deriving DecidableEq, Repr

def isXmlSpace (c : Char) : Bool := c = ' ' || c = '\t' || c = '\r' || c = '\n'

def trimXml (s : Text) : Text := (s.dropWhile isXmlSpace).rdropWhile isXmlSpace

/-- White space alone is no token. -/
def runTokens (run : Text) : List XmlToken :=
  if trimXml run = [] then [] else [.text (trimXml run)]

def textTokens (run : Text) : RawText → List XmlToken
  | [] => runTokens run
  | .char c :: raw => textTokens (run ++ [c]) raw
  | .reference entity :: raw => runTokens run ++ .generalRef entity :: textTokens [] raw

inductive ElementForm where
  | selfClosing
  | openClose
  deriving DecidableEq, Repr

def attributeTokens (attributes : List (Text × RawText)) : Attributes :=
  attributes.map fun (key, value) => some (key, source value)

def bareElement (form : ElementForm) (name : Text) (attributes : List (Text × RawText)) :
    List XmlToken :=
  match form with
  | .selfClosing => [.empty name (attributeTokens attributes)]
  | .openClose => [.start name (attributeTokens attributes), .endTag name]

def textElement (name : Text) (attributes : List (Text × RawText)) (content : RawText) :
    List XmlToken :=
  .start name (attributeTokens attributes) :: textTokens [] content ++ [.endTag name]

structure HasAttribute (attributes : List (Text × RawText)) (key : Text) (value : RawText) :
    Prop where
  mem : (key, value) ∈ attributes
  nodup : (attributes.map Prod.fst).Nodup

section Attributes
variable {m : Type → Type} [Monad m] [LawfulMonad m] {σ : Type}
  {f : σ → Option (Text × Text) → m σ} {attributes front back : List (Text × RawText)}
  {key key' : Text} {value value' : RawText}

theorem HasAttribute.split (h : HasAttribute attributes key value) :
    ∃ front back, attributes = front ++ (key, value) :: back ∧
      (∀ a ∈ front, a.1 ≠ key) ∧ ∀ a ∈ back, a.1 ≠ key := by
  obtain ⟨front, back, rfl⟩ := append_of_mem h.mem
  have hnodup := h.nodup
  rw [map_append, map_cons, nodup_append, nodup_cons] at hnodup
  obtain ⟨-, ⟨hback, -⟩, hfront⟩ := hnodup
  refine ⟨front, back, rfl, ?_, ?_⟩
  · intro a ha he
    exact hfront a.1 (mem_map_of_mem ha) key mem_cons_self he
  · intro a ha he
    exact hback (mem_map.mpr ⟨a, ha, he⟩)

theorem foldlM_ignored (h : ∀ a ∈ attributes, ∀ s, f s (some (a.1, source a.2)) = pure s) (s : σ) :
    (attributeTokens attributes).foldlM f s = pure s := by
  induction attributes generalizing s with
  | nil => rfl
  | cons first attributes ih =>
    rw [attributeTokens, map_cons, foldlM_cons, h first mem_cons_self, pure_bind]
    exact ih (fun a ha => h a (mem_cons_of_mem _ ha)) s

theorem attributeTokens_split :
    attributeTokens (front ++ (key, value) :: back) =
      attributeTokens front ++ some (key, source value) :: attributeTokens back :=
  map_append

theorem foldlM_attribute (h : HasAttribute attributes key value)
    (hother : ∀ a ∈ attributes, a.1 ≠ key → ∀ s, f s (some (a.1, source a.2)) = pure s) (s : σ) :
    (attributeTokens attributes).foldlM f s = f s (some (key, source value)) := by
  obtain ⟨front, back, rfl, hfront, hback⟩ := h.split
  rw [attributeTokens_split, foldlM_append, foldlM_ignored, pure_bind, foldlM_cons]
  · have hrest : (fun s => (attributeTokens back).foldlM f s) = pure := by
      funext s
      apply foldlM_ignored
      exact fun a ha => hother a (mem_append_right _ (mem_cons_of_mem _ ha)) (hback a ha)
    rw [hrest, bind_pure]
  · exact fun a ha => hother a (mem_append_left _ ha) (hfront a ha)

theorem foldlM_two_attributes (h : HasAttribute attributes key value)
    (h' : HasAttribute attributes key' value') (hne : key ≠ key')
    (hother : ∀ other raw s, other ≠ key → other ≠ key' → f s (some (other, source raw)) = pure s)
    (hswap : ∀ s, (f s (some (key', source value')) >>= fun s => f s (some (key, source value))) =
      (f s (some (key, source value)) >>= fun s => f s (some (key', source value')))) (s : σ) :
    (attributeTokens attributes).foldlM f s =
      (f s (some (key, source value)) >>= fun s => f s (some (key', source value'))) := by
  obtain ⟨front, back, rfl, hfront, hback⟩ := h.split
  have hnodup := h'.nodup
  rw [map_append, map_cons, nodup_append, nodup_cons] at hnodup
  have hfrontIgnored : ∀ a ∈ front, a.1 ≠ key' → ∀ s, f s (some (a.1, source a.2)) = pure s :=
    fun a ha hne' s => hother a.1 a.2 s (hfront a ha) hne'
  have hbackIgnored : ∀ a ∈ back, a.1 ≠ key' → ∀ s, f s (some (a.1, source a.2)) = pure s :=
    fun a ha hne' s => hother a.1 a.2 s (hback a ha) hne'
  rw [attributeTokens_split, foldlM_append]
  rcases mem_append.mp h'.mem with hmem | hmem
  · -- the second name comes first
    have hbackNone : ∀ a ∈ back, a.1 ≠ key' := by
      intro a ha he
      exact hnodup.2.2 key' (mem_map_of_mem hmem) a.1
        (mem_cons_of_mem _ (mem_map_of_mem ha)) he.symm
    have hrest : (fun s => (attributeTokens back).foldlM f s) = pure := by
      funext s
      apply foldlM_ignored
      exact fun a ha => hbackIgnored a ha (hbackNone a ha)
    rw [foldlM_attribute ⟨hmem, hnodup.1⟩ hfrontIgnored, ← hswap]
    simp only [foldlM_cons]
    rw [hrest]
    simp only [bind_pure]
  · have hback' : (key', value') ∈ back := by
      rcases mem_cons.mp hmem with he | hmem
      · exact absurd (congrArg Prod.fst he).symm hne
      · exact hmem
    have hfrontNone : ∀ a ∈ front, a.1 ≠ key' := by
      intro a ha he
      exact hnodup.2.2 a.1 (mem_map_of_mem ha) key'
        (mem_cons_of_mem _ (mem_map_of_mem hback')) he
    rw [foldlM_ignored fun a ha => hfrontIgnored a ha (hfrontNone a ha), pure_bind,
      foldlM_cons]
    congr 1
    funext s
    exact foldlM_attribute ⟨hback', hnodup.2.1.2⟩ hbackIgnored s

end Attributes

def texts (tokens : List XmlToken) : List Text :=
  tokens.filterMap fun
    | .text content => some content
    | _ => none

theorem texts_append (front back : List XmlToken) :
    texts (front ++ back) = texts front ++ texts back :=
  filterMap_append

theorem length_trimXml (s : Text) : (trimXml s).length ≤ s.length :=
  le_trans (List.rdropWhile_prefix _ _).length_le (dropWhile_suffix _).length_le

theorem texts_runTokens (run : Text) :
    texts (runTokens run) = if trimXml run = [] then [] else [trimXml run] := by
  unfold runTokens
  split_ifs <;> rfl

theorem length_of_mem_texts (run : Text) (raw : RawText) :
    ∀ t ∈ texts (textTokens run raw),
      t.length + raw.countP (·.isReference) ≤ run.length + raw.length := by
  have hrun (run : Text) : ∀ t ∈ texts (runTokens run), t.length ≤ run.length := by
    intro t ht
    rw [texts_runTokens] at ht
    split_ifs at ht
    · contradiction
    · rw [mem_singleton.mp ht]
      exact length_trimXml run
  induction raw generalizing run with
  | nil =>
    intro t ht
    have hle := hrun run t ht
    simpa using hle
  | cons c raw ih =>
    intro t ht
    cases c with
    | char c =>
      have hle := ih (run ++ [c]) t ht
      rw [length_append, length_singleton] at hle
      rw [countP_cons, if_neg (show ¬ (RawChar.char c).isReference = true from Bool.false_ne_true),
        length_cons]
      omega
    | reference entity =>
      have hcount := countP_le_length (p := (·.isReference)) (l := raw)
      rw [countP_cons, if_pos (show (RawChar.reference entity).isReference = true from rfl),
        length_cons]
      rw [textTokens, texts_append] at ht
      rcases mem_append.mp ht with ht | ht
      · have hle := hrun run t ht
        omega
      · have hle := ih [] t ht
        rw [length_nil] at hle
        omega

theorem textTokens_map_char (run s : Text) :
    textTokens run (s.map .char) = runTokens (run ++ s) := by
  induction s generalizing run with
  | nil => rw [map_nil, textTokens, append_nil]
  | cons c s ih =>
    rw [map_cons, textTokens, ih, append_assoc, singleton_append]

theorem last_text_eq_iff {reserved : Char → Bool} {raw : RawText} {s : Text}
    (h : meaning reserved raw = some s) :
    (texts (textTokens [] raw)).getLast?.getD [] = s ↔ Unescaped raw ∧ trimXml s = s := by
  by_cases hraw : Unescaped raw
  · have hlast : (texts (textTokens [] raw)).getLast?.getD [] = trimXml s := by
      rw [eq_map_char_of_unescaped h hraw, textTokens_map_char, nil_append, texts_runTokens]
      split_ifs with hempty
      · rw [hempty]
        rfl
      · rfl
    rw [hlast, and_iff_right hraw]
  · apply iff_of_false
    · intro hlast
      have hcount : 0 < raw.countP (·.isReference) := Nat.pos_of_ne_zero hraw
      have hle := countP_le_length (p := (·.isReference)) (l := raw)
      have hsame := length_of_meaning h
      have hshort : ((texts (textTokens [] raw)).getLast?.getD []).length < raw.length := by
        cases hcase : (texts (textTokens [] raw)).getLast? with
        | none =>
          rw [Option.getD_none, length_nil]
          omega
        | some t =>
          have hroom := length_of_mem_texts [] raw t (mem_of_getLast? hcase)
          rw [length_nil] at hroom
          rw [Option.getD_some]
          omega
      rw [hlast] at hshort
      omega
    · exact fun hboth => hraw hboth.1

end XmlTokens
