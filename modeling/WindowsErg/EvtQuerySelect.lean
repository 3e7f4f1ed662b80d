import WindowsErg.EvtQuery
import WindowsErg.XPathSemantics

/-! Which events the XPath text of the query builder selects. -/
namespace WindowsErg.Evt
open List TextScan XPathSyntax XPathSemantics

/-- The document of an event: one system part with one provider, one level and one id, among any
other nodes. -/
structure EventDocument where
  provider : Text
  level : ℕ
  id : ℕ
  eventAttributes : List (Text × Text)
  eventChildren : List Node
  systemAttributes : List (Text × Text)
  systemChildren : List Node
  system_only : (Node.element "Event".toList eventAttributes eventChildren).childrenNamed
    "System".toList = [.element "System".toList systemAttributes systemChildren]
  provider_only : ∃ node, (Node.element "System".toList systemAttributes systemChildren).childrenNamed
      "Provider".toList = [node] ∧
    node.attributes.filter (·.name? = some "Name".toList) = [.attribute "Name".toList provider]
  level_only : ∃ node, (Node.element "System".toList systemAttributes systemChildren).childrenNamed
    "Level".toList = [node] ∧ node.stringValue = decimal level
  id_only : ∃ node, (Node.element "System".toList systemAttributes systemChildren).childrenNamed
    "EventID".toList = [node] ∧ node.stringValue = decimal id
  no_inner_system : (Node.element "System".toList systemAttributes systemChildren).childrenNamed
    "System".toList = []

namespace EventDocument

def eventNode (event : EventDocument) : Node :=
  .element "Event".toList event.eventAttributes event.eventChildren

def systemNode (event : EventDocument) : Node :=
  .element "System".toList event.systemAttributes event.systemChildren

def document (event : EventDocument) : Node := .root [event.eventNode]

end EventDocument

def QueryBuilder.Wants (builder : QueryBuilder) (event : EventDocument) : Prop :=
  (∀ provider, builder.provider = some provider → event.provider = provider) ∧
    (∀ level, builder.level = some level → event.level ≤ level.code) ∧
    ∀ id, builder.eventId = some id → event.id = id.toNat

def Selected (query : Text) (event : EventDocument) : Prop :=
  ∃ e, parse query = some e ∧ selects e event.document = true

section Conditions
variable (event : EventDocument)

theorem eval_levelExpr (level : EventLevel) :
    eval (levelExpr level) event.systemNode =
      some (.atom (.boolean (decide (event.level ≤ level.code)))) := by
  obtain ⟨node, hnode, hvalue⟩ := event.level_only
  have hchild : eval (childStep "Level") event.systemNode = some (.nodes [node]) := by
    rw [childStep, eval_child, EventDocument.systemNode, hnode]
  rw [levelExpr, eval_comparison rfl hchild rfl, compare_number hvalue]
  simp only [Nat.cast_le]

theorem eval_eventIdExpr (id : UInt32) :
    eval (eventIdExpr id) event.systemNode =
      some (.atom (.boolean (decide (event.id = id.toNat)))) := by
  obtain ⟨node, hnode, hvalue⟩ := event.id_only
  have hchild : eval (childStep "EventID") event.systemNode = some (.nodes [node]) := by
    rw [childStep, eval_child, EventDocument.systemNode, hnode]
  have hequal : Value.compare Atom.equal (.nodes [node])
      (.atom (.number (numberOf (decimal id.toNat)))) = decide ((event.id : ℚ) = id.toNat) :=
    compare_number hvalue (· = ·) id.toNat
  rw [eventIdExpr, eval_comparison rfl hchild rfl, hequal]
  simp only [Nat.cast_inj]

theorem eval_providerExpr (provider : Text) :
    eval (providerExpr provider) event.systemNode = some (.atom (.boolean false)) := by
  have hsystem : eval (childStep "System") event.systemNode = some (.nodes []) := by
    rw [childStep, eval_child, EventDocument.systemNode, event.no_inner_system]
  have hpath : eval (.slash (.slash (childStep "System") (childStep "Provider"))
      (.step .attribute (.name "Name".toList))) event.systemNode = some (.nodes []) :=
    eval_slash_nil (eval_slash_nil hsystem)
  rw [providerExpr, eval_comparison rfl hpath rfl]
  rfl

end Conditions

def QueryBuilder.verdicts (builder : QueryBuilder) (event : EventDocument) : List Bool :=
  (builder.level.map fun level => decide (event.level ≤ level.code)).toList ++
    -- the path of the provider finds nothing
    (builder.provider.map fun _ => false).toList ++
    (builder.eventId.map fun id => decide (event.id = id.toNat)).toList

theorem QueryBuilder.eval_conditionExprs (builder : QueryBuilder) (event : EventDocument) :
    List.Forall₂ (fun e b => eval e event.systemNode = some (.atom (.boolean b)))
      builder.conditionExprs (builder.verdicts event) := by
  apply rel_append
  · apply rel_append
    · exact forall₂_option _ _ _ fun level _ => eval_levelExpr event level
    · exact forall₂_option _ _ _ fun provider _ => eval_providerExpr event provider
  · exact forall₂_option _ _ _ fun id _ => eval_eventIdExpr event id

theorem QueryBuilder.selects_intended (builder : QueryBuilder) (event : EventDocument) :
    selects builder.intended event.document = (builder.verdicts event).all id := by
  have hevent : eval (childStep "Event") event.document = some (.nodes [event.eventNode]) := rfl
  have hsystem : eval (childStep "System") event.eventNode = some (.nodes [event.systemNode]) := by
    rw [childStep, eval_child, EventDocument.eventNode, event.system_only, EventDocument.systemNode]
  have hconditions := builder.eval_conditionExprs event
  unfold QueryBuilder.intended
  cases hexprs : builder.conditionExprs with
  | nil =>
    -- without conditions every event is selected
    rw [hexprs] at hconditions
    rw [forall₂_nil_left_iff.mp hconditions, selects_of_eval hevent]
    rfl
  | cons first others =>
    rw [hexprs] at hconditions
    obtain ⟨verdict, verdicts, hfirst, hothers, hverdicts⟩ :=
      forall₂_cons_left_iff.mp hconditions
    have hfilter := eval_filter_singleton hsystem (eval_foldl_and hothers hfirst)
    rw [selects_of_eval (eval_slash_singleton hevent hfilter), hverdicts, all_cons, id_eq]
    cases verdict && verdicts.all id <;> rfl

theorem selected_buildXpath_iff (builder : QueryBuilder) (hraw : builder.xpath = none)
    (hquotes : ∀ provider, builder.provider = some provider → apostrophe ∉ provider)
    (event : EventDocument) :
    Selected builder.buildXpath event ↔ (builder.verdicts event).all id = true := by
  have hparse : parse builder.buildXpath = some builder.intended := by
    simp [parse, builder.lex_buildXpath hraw hquotes, builder.parse_tokens]
  unfold Selected
  rw [hparse, ← builder.selects_intended event]
  simp

/-- The query selects an event exactly if the event is wanted, except for the wanted events of a
provider. -/
theorem built_query_selects_wanted_iff (builder : QueryBuilder) (hraw : builder.xpath = none)
    (hquotes : ∀ provider, builder.provider = some provider →
      apostrophe ∉ provider ∧ quotation ∉ provider) (event : EventDocument) :
    (Selected builder.buildXpath event ↔ builder.Wants event) ↔
      builder.provider = none ∨ ¬ builder.Wants event := by
  rw [selected_buildXpath_iff builder hraw (fun provider hp => (hquotes provider hp).1) event]
  cases hprovider : builder.provider with
  | none =>
    have hwants : (builder.verdicts event).all id = true ↔ builder.Wants event := by
      unfold QueryBuilder.verdicts QueryBuilder.Wants
      rw [hprovider]
      cases builder.level <;> cases builder.eventId <;> simp
    exact iff_of_true hwants (Or.inl rfl)
  | some provider =>
    -- one condition is never met
    have hnever : (builder.verdicts event).all id = false := by
      unfold QueryBuilder.verdicts
      rw [hprovider]
      simp
    rw [hnever]
    simp

def logonDocument : EventDocument where
  provider := "Security".toList
  level := 0
  id := 4624
  eventAttributes := []
  eventChildren := [.element "System".toList [] [
    .element "Provider".toList [("Name".toList, "Security".toList)] [],
    .element "EventID".toList [] [.text "4624".toList],
    .element "Level".toList [] [.text "0".toList]]]
  systemAttributes := []
  systemChildren := [
    .element "Provider".toList [("Name".toList, "Security".toList)] [],
    .element "EventID".toList [] [.text "4624".toList],
    .element "Level".toList [] [.text "0".toList]]
  system_only := rfl
  provider_only := ⟨_, rfl, rfl⟩
  level_only := ⟨_, rfl, rfl⟩
  id_only := ⟨_, rfl, rfl⟩
  no_inner_system := rfl

theorem built_query_selects_logon :
    Selected ({ level := some .warning, eventId := some 4624 } : QueryBuilder).buildXpath
        logonDocument ↔
      ({ level := some .warning, eventId := some 4624 } : QueryBuilder).Wants logonDocument :=
  (built_query_selects_wanted_iff { level := some .warning, eventId := some 4624 } rfl nofun
    logonDocument).mpr (Or.inl rfl)

/-- The event of the provider is not selected. -/
theorem built_query_misses_provider :
    let builder : QueryBuilder := { provider := some "Security".toList }
    builder.buildXpath = "Event/System[System/Provider/@Name='Security']".toList ∧
      builder.Wants logonDocument ∧ ¬ Selected builder.buildXpath logonDocument := by
  intro builder
  refine ⟨by decide +kernel, ⟨?_, nofun, nofun⟩, ?_⟩
  · intro provider hprovider
    exact Option.some.inj hprovider
  · have hquotes : ∀ provider, builder.provider = some provider → apostrophe ∉ provider := by
      intro provider hprovider
      rw [← Option.some.inj hprovider]
      decide
    rw [selected_buildXpath_iff builder rfl hquotes]
    decide

end WindowsErg.Evt
