import Mathlib.Data.List.Forall2
import WindowsErg.XPathSyntax

/-! The query builder of the event log and the XPath text it makes, `src/evt/query.rs`. -/
namespace WindowsErg.Evt
open Option TextScan XPathSyntax

inductive EventLevel where
  | auditSuccess
  | auditFailure
  | critical
  | error
  | warning
  | informational
  | verbose
  deriving DecidableEq, Repr

def EventLevel.code : EventLevel → ℕ
  | .auditSuccess => 0
  | .auditFailure => 1
  | .critical => 2
  | .error => 3
  | .warning => 4
  | .informational => 5
  | .verbose => 6

structure QueryBuilder where
  xpath : Option Text := none
  level : Option EventLevel := none
  provider : Option Text := none
  eventId : Option UInt32 := none
  reverse : Bool := false
  maxResults : Option ℕ := none
  includeEventData : Bool := false
  parseMessage : Bool := false
  deriving DecidableEq, Repr

def escapeXpathString (s : Text) : Text :=
  if apostrophe ∈ s ∧ quotation ∈ s then
    s.flatMap fun c => if c = quotation then "&quot;".toList else [c]
  else s

def levelCondition (level : EventLevel) : Text := "Level <= ".toList ++ decimal level.code

def providerCondition (provider : Text) : Text :=
  "System/Provider/@Name='".toList ++ escapeXpathString provider ++ "'".toList

def eventIdCondition (id : UInt32) : Text := "EventID=".toList ++ decimal id.toNat

namespace QueryBuilder

def conditions (builder : QueryBuilder) : List Text :=
  (builder.level.map levelCondition).toList ++
    (builder.provider.map providerCondition).toList ++
    (builder.eventId.map eventIdCondition).toList

def buildXpath (builder : QueryBuilder) : Text :=
  match builder.xpath with
  | some xpath => xpath
  | none =>
    if builder.conditions = [] then "Event".toList
    else "Event/System[".toList ++ List.intercalate " and ".toList builder.conditions ++
      "]".toList

end QueryBuilder

def childStep (n : String) : Expr := .step .child (.name n.toList)

def levelExpr (level : EventLevel) : Expr :=
  .binary .le (childStep "Level") (.number (decimal level.code))

def providerExpr (provider : Text) : Expr :=
  .binary .eq (.slash (.slash (childStep "System") (childStep "Provider"))
    (.step .attribute (.name "Name".toList))) (.literal provider)

def eventIdExpr (id : UInt32) : Expr :=
  .binary .eq (childStep "EventID") (.number (decimal id.toNat))

def QueryBuilder.conditionExprs (builder : QueryBuilder) : List Expr :=
  (builder.level.map levelExpr).toList ++ (builder.provider.map providerExpr).toList ++
    (builder.eventId.map eventIdExpr).toList

def QueryBuilder.intended (builder : QueryBuilder) : Expr :=
  match builder.conditionExprs with
  | [] => childStep "Event"
  | first :: others =>
    .slash (childStep "Event") (.filter (childStep "System") (others.foldl (.binary .and) first))

/-- The text is well formed, its only string literal is the provider's name, and it means the
conditions that were given. -/
def QueryBuilder.NoInjection (builder : QueryBuilder) : Prop :=
  ∃ ts, lex builder.buildXpath = some ts ∧ literals ts = builder.provider.toList ∧
    parse builder.buildXpath = some builder.intended

def Lexes (text : Text) (ts : List Token) : Prop :=
  feed .start (text ++ [' ']) = some (ts, .start) ∧
    feed .start (text ++ [']']) = some (ts ++ [.rbracket], .start)

def levelTokens (level : EventLevel) : List Token :=
  [.name "Level".toList, .op .le, .number (decimal level.code)]

def providerTokens (provider : Text) : List Token :=
  [.name "System".toList, .slash, .name "Provider".toList, .slash, .at, .name "Name".toList,
    .op .eq, .literal provider]

def eventIdTokens (id : UInt32) : List Token :=
  [.name "EventID".toList, .op .eq, .number (decimal id.toNat)]

theorem feed_decimal (n : ℕ) : feed .start (decimal n) = some ([], .number (decimal n) false) := by
  obtain ⟨c, digits, hdigits⟩ := List.exists_cons_of_ne_nil (decimal_ne_nil n)
  have hall : ∀ d ∈ c :: digits, d.isDigit = true := by
    intro d hd
    exact isDigit_of_mem_decimal n d (hdigits ▸ hd)
  have hnumber := feed_number [c] digits false (fun d hd => hall d (List.mem_cons_of_mem _ hd))
  rw [hdigits]
  exact feed_cons_of_eq _ _ _ c digits [] (startStep_digit c (hall c List.mem_cons_self)) hnumber

theorem lexes_number (before : Text) (ts : List Token) (n : ℕ)
    (h : feed .start before = some (ts, .start)) :
    Lexes (before ++ decimal n) (ts ++ [.number (decimal n)]) := by
  have hnumber := feed_append_of_eq _ _ _ before (decimal n) ts [] h (feed_decimal n)
  rw [List.append_nil] at hnumber
  constructor
  · exact feed_append_of_eq _ _ _ _ [' '] ts [.number (decimal n)] hnumber rfl
  · rw [List.append_assoc ts]
    exact feed_append_of_eq _ _ _ _ [']'] ts [.number (decimal n), .rbracket] hnumber rfl

theorem lexes_level (level : EventLevel) : Lexes (levelCondition level) (levelTokens level) :=
  lexes_number _ [.name "Level".toList, .op .le] level.code (by decide +kernel)

theorem lexes_eventId (id : UInt32) : Lexes (eventIdCondition id) (eventIdTokens id) :=
  lexes_number _ [.name "EventID".toList, .op .eq] id.toNat (by decide +kernel)

theorem escapeXpathString_eq_self (s : Text) (h : apostrophe ∉ s) : escapeXpathString s = s :=
  if_neg (fun hboth => h hboth.1)

theorem lexes_provider (provider : Text) (h : apostrophe ∉ provider) :
    Lexes (providerCondition provider) (providerTokens provider) := by
  have hquoted := feed_quoted .start apostrophe "System/Provider/@Name='".toList provider
    [.name "System".toList, .slash, .name "Provider".toList, .slash, .at, .name "Name".toList,
      .op .eq] (by decide +kernel) h
  have htext : providerCondition provider =
      "System/Provider/@Name='".toList ++ provider ++ [apostrophe] := by
    unfold providerCondition
    rw [escapeXpathString_eq_self provider h]
    rfl
  rw [htext]
  constructor
  · exact feed_append_of_eq _ _ _ _ [' '] (providerTokens provider) [] hquoted rfl
  · exact feed_append_of_eq _ _ _ _ [']'] (providerTokens provider) [.rbracket] hquoted rfl

theorem feed_conditions (texts : List Text) (tokens : List (List Token))
    (h : List.Forall₂ Lexes texts tokens) (hne : texts ≠ []) :
    feed .start (List.intercalate " and ".toList texts ++ "]".toList) =
      some (List.intercalate [.name "and".toList] tokens ++ [.rbracket], .start) := by
  -- by the conditions: each ends in the start state of the lexer
  induction h with
  | nil => exact absurd rfl hne
  | @cons text ts texts tokens hhead htail ih =>
    cases htail with
    | nil => simpa using hhead.2
    | @cons text' ts' texts tokens hhead' htail =>
      have hrest := ih (List.cons_ne_nil _ _)
      have hand : feed .start "and ".toList = some ([.name "and".toList], .start) := by
        decide +kernel
      have hfirst := feed_append_of_eq _ _ _ _ _ ts _ hhead.1
        (feed_append_of_eq _ _ _ _ _ _ _ hand hrest)
      simpa [List.intercalate_cons_cons] using hfirst

def QueryBuilder.conditionTokens (builder : QueryBuilder) : List (List Token) :=
  (builder.level.map levelTokens).toList ++ (builder.provider.map providerTokens).toList ++
    (builder.eventId.map eventIdTokens).toList

theorem forall₂_option {α β γ : Type} {R : β → γ → Prop} (f : α → β) (g : α → γ) (o : Option α)
    (h : ∀ a, o = some a → R (f a) (g a)) :
    List.Forall₂ R (o.map f).toList (o.map g).toList := by
  cases o with
  | none => exact .nil
  | some a => exact .cons (h a rfl) .nil

theorem QueryBuilder.lexes_conditions (builder : QueryBuilder)
    (h : ∀ provider, builder.provider = some provider → apostrophe ∉ provider) :
    List.Forall₂ Lexes builder.conditions builder.conditionTokens := by
  apply List.rel_append
  · apply List.rel_append
    · exact forall₂_option _ _ _ (fun level _ => lexes_level level)
    · exact forall₂_option _ _ _ (fun provider hp => lexes_provider provider (h provider hp))
  · exact forall₂_option _ _ _ (fun id _ => lexes_eventId id)

def QueryBuilder.tokens (builder : QueryBuilder) : List Token :=
  if builder.conditionTokens = [] then [.name "Event".toList]
  else [.name "Event".toList, .slash, .name "System".toList, .lbracket] ++
    (List.intercalate [.name "and".toList] builder.conditionTokens ++ [.rbracket])

theorem QueryBuilder.lex_buildXpath (builder : QueryBuilder) (hraw : builder.xpath = none)
    (h : ∀ provider, builder.provider = some provider → apostrophe ∉ provider) :
    lex builder.buildXpath = some builder.tokens := by
  have hforall := builder.lexes_conditions h
  unfold QueryBuilder.buildXpath QueryBuilder.tokens
  simp only [hraw]
  by_cases hnil : builder.conditions = []
  · have htokens : builder.conditionTokens = [] := by
      rw [hnil] at hforall
      exact List.forall₂_nil_left_iff.mp hforall
    rw [if_pos hnil, if_pos htokens]
    decide +kernel
  · have htokens : builder.conditionTokens ≠ [] := by
      intro ht
      rw [ht] at hforall
      exact hnil (List.forall₂_nil_right_iff.mp hforall)
    rw [if_neg hnil, if_neg htokens, List.append_assoc]
    apply lex_of_feed
    apply feed_append_of_eq _ _ _ _ _ _ _ _ (feed_conditions _ _ hforall hnil)
    decide +kernel

theorem QueryBuilder.parse_tokens (builder : QueryBuilder) :
    parseExpr (fuelFor builder.tokens) 1 builder.tokens = some (builder.intended, []) := by
  rcases builder with ⟨xpath, level, provider, eventId, reverse, maxResults, data, message⟩
  rcases level with _ | level <;> rcases provider with _ | provider <;>
    rcases eventId with _ | eventId <;> rfl

theorem QueryBuilder.literals_tokens (builder : QueryBuilder) :
    literals builder.tokens = builder.provider.toList := by
  rcases builder with ⟨xpath, level, provider, eventId, reverse, maxResults, data, message⟩
  rcases level with _ | level <;> rcases provider with _ | provider <;>
    rcases eventId with _ | eventId <;> rfl

theorem quotation_not_mem_escape (provider : Text) (h : apostrophe ∈ provider) :
    quotation ∉ escapeXpathString provider := by
  unfold escapeXpathString
  by_cases hq : quotation ∈ provider
  · rw [if_pos ⟨h, hq⟩]
    intro hmem
    obtain ⟨c, -, hc⟩ := List.mem_flatMap.mp hmem
    by_cases he : c = quotation
    · rw [if_pos he] at hc
      exact absurd hc (by decide)
    · rw [if_neg he, List.mem_singleton] at hc
      exact he hc.symm
  · rw [if_neg (fun hboth => hq hboth.2)]
    exact hq

theorem quotation_not_mem_number (before : Text) (n : ℕ) (h : quotation ∉ before) :
    quotation ∉ before ++ decimal n := by
  intro hmem
  rcases List.mem_append.mp hmem with hm | hm
  · exact h hm
  · exact absurd (isDigit_of_mem_decimal n _ hm) (by decide)

theorem QueryBuilder.quotation_not_mem_buildXpath (builder : QueryBuilder)
    (hraw : builder.xpath = none) (provider : Text) (hp : builder.provider = some provider)
    (h : apostrophe ∈ provider) : quotation ∉ builder.buildXpath := by
  have hconditions : ∀ text ∈ builder.conditions, quotation ∉ text := by
    intro text htext
    rcases List.mem_append.mp htext with hfront | hid
    · rcases List.mem_append.mp hfront with hlevel | hprovider
      · obtain ⟨level, -, rfl⟩ := map_eq_some_iff.mp (mem_toList.mp hlevel)
        exact quotation_not_mem_number _ _ (by decide)
      · obtain ⟨p, hp', rfl⟩ := map_eq_some_iff.mp (mem_toList.mp hprovider)
        obtain rfl : provider = p := Option.some.inj (hp.symm.trans hp')
        have hescape := quotation_not_mem_escape provider h
        intro hmem
        rcases List.mem_append.mp hmem with hm | hm
        · rcases List.mem_append.mp hm with hm | hm
          · exact absurd hm (by decide)
          · exact hescape hm
        · exact absurd hm (by decide)
    · obtain ⟨id, -, rfl⟩ := map_eq_some_iff.mp (mem_toList.mp hid)
      exact quotation_not_mem_number _ _ (by decide)
  unfold QueryBuilder.buildXpath
  simp only [hraw]
  split_ifs
  · decide
  · intro hmem
    rcases List.mem_append.mp hmem with hm | hm
    · rcases List.mem_append.mp hm with hm | hm
      · exact absurd hm (by decide)
      · rcases mem_intercalate _ _ _ hm with hsep | ⟨text, htext, hin⟩
        · exact absurd hsep (by decide)
        · exact hconditions text htext hin
    · exact absurd hm (by decide)

/-- The query text is the intended one exactly for providers without an apostrophe. -/
theorem event_query_no_injection_iff (builder : QueryBuilder) (hraw : builder.xpath = none) :
    builder.NoInjection ↔
      ∀ provider, builder.provider = some provider → apostrophe ∉ provider := by
  constructor
  · rintro ⟨ts, hlex, hliterals, -⟩ provider hp hmem
    -- without quotation marks, a literal cannot hold an apostrophe
    have hquote := builder.quotation_not_mem_buildXpath hraw provider hp hmem
    apply lex_noApostrophe _ hquote ts hlex provider _ hmem
    rw [hliterals, hp]
    exact List.mem_singleton.mpr rfl
  · intro h
    have hlex := builder.lex_buildXpath hraw h
    refine ⟨builder.tokens, hlex, builder.literals_tokens, ?_⟩
    simp [parse, hlex, builder.parse_tokens]

theorem event_query_no_injection_security :
    ({ level := some .error, provider := some "Security".toList, eventId := some 4688 } :
      QueryBuilder).NoInjection :=
  (event_query_no_injection_iff _ rfl).mpr (fun provider hp => by
    obtain rfl : "Security".toList = provider := Option.some.inj hp
    decide)

/-- A provider name that closes its literal adds a condition that is always true. -/
theorem event_query_injected_condition :
    let builder : QueryBuilder := { provider := some "a' or '1'='1".toList }
    builder.buildXpath = "Event/System[System/Provider/@Name='a' or '1'='1']".toList ∧
      parse builder.buildXpath = some (.slash (childStep "Event") (.filter (childStep "System")
        (.binary .or (providerExpr "a".toList)
          (.binary .eq (.literal "1".toList) (.literal "1".toList))))) ∧
      ¬ builder.NoInjection := by
  let builder : QueryBuilder := { provider := some "a' or '1'='1".toList }
  have htext : builder.buildXpath =
      "Event/System[System/Provider/@Name='a' or '1'='1']".toList := by decide +kernel
  have hlex : lex builder.buildXpath = some ([.name "Event".toList, .slash, .name "System".toList,
      .lbracket] ++ providerTokens "a".toList ++ [.name "or".toList, .literal "1".toList, .op .eq,
      .literal "1".toList, .rbracket]) := by decide +kernel
  refine ⟨htext, ?_, ?_⟩
  · change parse builder.buildXpath = _
    rw [parse, hlex]
    rfl
  · rintro ⟨ts, hts, hliterals, -⟩
    rw [← Option.some.inj (hlex.symm.trans hts)] at hliterals
    exact absurd hliterals (by decide)

end WindowsErg.Evt
