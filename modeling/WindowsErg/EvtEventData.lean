import WindowsErg.EvtXml

/-! Which texts of an `EventData` element are put under which names, `src/evt/render.rs`. -/
namespace WindowsErg.Evt
open List TextScan XmlTokens

structure DataElement where
  form : ElementForm
  attributes : List (Text × RawText)
  rawName : RawText
  content : RawText
  name : Text
  value : Text
  named : HasAttribute attributes "Name".toList rawName
  name_meaning : meaning attributeReserved rawName = some name
  name_ne : name ≠ []
  value_meaning : meaning textReserved content = some value
  closed : form = .selfClosing → content = []

def DataElement.tokens (element : DataElement) : List XmlToken :=
  match element.form with
  | .selfClosing => [.empty "Data".toList (attributeTokens element.attributes)]
  | .openClose => textElement "Data".toList element.attributes element.content

inductive EventDataItem where
  | data (element : DataElement)
  /-- Other elements with all that is in them, and text between the elements. -/
  | other (tokens : List XmlToken)

def Outside : XmlToken → Prop
  | .start name _ | .endTag name => name ≠ "EventData".toList
  | .malformed => False
  | .empty _ _ | .text _ | .generalRef _ | .other => True

def Foreign (token : XmlToken) : Prop :=
  Outside token ∧ ∀ attributes, token ≠ .start "Data".toList attributes

def EventDataItem.owned : EventDataItem → List (XmlToken × Option Text)
  | .data element => element.tokens.map (·, some element.name)
  | .other tokens => tokens.map (·, none)

def EventDataItem.element? : EventDataItem → Option DataElement
  | .data element => some element
  | .other _ => none

structure EventDataDocument where
  before : List XmlToken
  attributes : Attributes
  items : List EventDataItem
  after : List XmlToken
  before_outside : ∀ token ∈ before, Outside token
  after_outside : ∀ token ∈ after, Outside token
  foreign : ∀ tokens, .other tokens ∈ items → ∀ token ∈ tokens, Foreign token
  distinct : ((items.filterMap (·.element?)).map (·.name)).Nodup

namespace EventDataDocument

def elements (doc : EventDataDocument) : List DataElement := doc.items.filterMap (·.element?)

def owned (doc : EventDataDocument) : List (XmlToken × Option Text) :=
  doc.before.map (·, none) ++ (.start "EventData".toList doc.attributes, none) ::
    doc.items.flatMap (·.owned) ++ (.endTag "EventData".toList, none) :: doc.after.map (·, none)

def tokens (doc : EventDataDocument) : List XmlToken := doc.owned.map Prod.fst

end EventDataDocument

def DataState.read (st : DataState) (tokens : List XmlToken) : DataState :=
  tokens.foldl DataState.step st

theorem map_fst_place (tokens : List XmlToken) (owner : Option Text) :
    (tokens.map (·, owner)).map Prod.fst = tokens := by
  rw [map_map]
  exact map_id tokens

def DataState.inserts (st : DataState) : XmlToken → Option (Text × Text)
  | .text value => if st.inEventData then st.currentFieldName.map (·, value) else none
  | _ => none

structure Attribution where
  key : Text
  value : Text
  owner : Option Text

def attributions (st : DataState) : List (XmlToken × Option Text) → List Attribution
  | [] => []
  | (token, owner) :: rest =>
    ((st.inserts token).map fun (key, value) => ⟨key, value, owner⟩).toList ++
      attributions (st.step token) rest

/-- Each name has exactly its value, and each text under the name of a `Data` element lies in it. -/
structure EventDataDocument.Attributed (doc : EventDataDocument) : Prop where
  value : ∀ element ∈ doc.elements, ∃ fields, extractEventDataFromXml doc.tokens = some fields ∧
    ∀ value, (element.name, value) ∈ fields ↔ value = element.value
  owner : ∀ a ∈ attributions ⟨[], false, none⟩ doc.owned, ∀ element ∈ doc.elements,
    a.key = element.name → a.owner = some element.name

structure DataElement.Kept (element : DataElement) : Prop where
  name : Unescaped element.rawName
  content : Unescaped element.content
  trimmed : trimXml element.value = element.value
  value_ne : element.value ≠ []

theorem attributions_append (st : DataState) (front back : List (XmlToken × Option Text)) :
    attributions st (front ++ back) =
      attributions st front ++ attributions (st.read (front.map Prod.fst)) back := by
  induction front generalizing st with
  | nil => rfl
  | cons first front ih =>
    rw [cons_append, attributions, attributions, ih, append_assoc]
    rfl

theorem attributions_cons_none {st : DataState} {token : XmlToken} (h : st.inserts token = none)
    (owner : Option Text) (rest : List (XmlToken × Option Text)) :
    attributions st ((token, owner) :: rest) = attributions (st.step token) rest := by
  rw [attributions, h]
  rfl

theorem attributions_cons_some {st : DataState} {token : XmlToken} {key value : Text}
    (h : st.inserts token = some (key, value)) (owner : Option Text)
    (rest : List (XmlToken × Option Text)) :
    attributions st ((token, owner) :: rest) =
      ⟨key, value, owner⟩ :: attributions (st.step token) rest := by
  rw [attributions, h]
  rfl

theorem DataState.step_dataFields (st : DataState) (token : XmlToken) :
    (st.step token).dataFields = match st.inserts token with
      | some (key, value) => (key, value) :: st.dataFields.filter (·.1 ≠ key)
      | none => st.dataFields := by
  cases token with
  | start name attributes =>
    rw [DataState.step]
    split_ifs <;> rfl
  | endTag name =>
    rw [DataState.step]
    split_ifs <;> rfl
  | text value =>
    obtain ⟨fields, inside, pending⟩ := st
    cases inside <;> cases pending <;> rfl
  | empty name attributes | generalRef entity | other | malformed => rfl

theorem mem_read_dataFields {st : DataState} {owned : List (XmlToken × Option Text)}
    {key value : Text} (h : (key, value) ∈ (st.read (owned.map Prod.fst)).dataFields) :
    (key, value) ∈ st.dataFields ∨ ∃ a ∈ attributions st owned, a.key = key ∧ a.value = value := by
  induction owned generalizing st with
  | nil => exact Or.inl h
  | cons first owned ih =>
    obtain ⟨token, owner⟩ := first
    have hfields := st.step_dataFields token
    cases hinserts : st.inserts token with
    | none =>
      rw [hinserts] at hfields
      dsimp only at hfields
      rw [attributions_cons_none hinserts, ← hfields]
      exact ih h
    | some inserted =>
      obtain ⟨newKey, newValue⟩ := inserted
      rw [hinserts] at hfields
      dsimp only at hfields
      rw [attributions_cons_some hinserts]
      rcases ih h with hstep | ⟨a, ha, hfield⟩
      · rw [hfields] at hstep
        rcases mem_cons.mp hstep with he | hold
        · cases he
          exact Or.inr ⟨_, mem_cons_self, rfl, rfl⟩
        · exact Or.inl (mem_of_mem_filter hold)
      · exact Or.inr ⟨a, mem_cons_of_mem _ ha, hfield⟩

theorem mem_read_dataFields_iff {st : DataState} {owned : List (XmlToken × Option Text)}
    (hdistinct : ((attributions st owned).map (·.key)).Nodup)
    (hnew : ∀ a ∈ attributions st owned, ∀ field ∈ st.dataFields, field.1 ≠ a.key)
    (key value : Text) :
    (key, value) ∈ (st.read (owned.map Prod.fst)).dataFields ↔
      (key, value) ∈ st.dataFields ∨ ∃ a ∈ attributions st owned, a.key = key ∧ a.value = value := by
  refine ⟨mem_read_dataFields, ?_⟩
  induction owned generalizing st with
  | nil =>
    rintro (hold | ⟨a, ha, -⟩)
    · exact hold
    · cases ha
  | cons first owned ih =>
    obtain ⟨token, owner⟩ := first
    have hfields := st.step_dataFields token
    cases hinserts : st.inserts token with
    | none =>
      rw [hinserts] at hfields
      dsimp only at hfields
      rw [attributions_cons_none hinserts, ← hfields] at hnew
      rw [attributions_cons_none hinserts] at hdistinct
      rw [attributions_cons_none hinserts, ← hfields]
      exact ih hdistinct hnew
    | some inserted =>
      obtain ⟨newKey, newValue⟩ := inserted
      rw [hinserts] at hfields
      rw [attributions_cons_some hinserts] at hdistinct hnew ⊢
      obtain ⟨hfresh, hdistinct⟩ := nodup_cons.mp hdistinct
      -- the filter has nothing to remove
      have hkept : st.dataFields.filter (·.1 ≠ newKey) = st.dataFields := by
        apply filter_eq_self.mpr
        intro field hfield
        exact decide_eq_true (hnew ⟨newKey, newValue, owner⟩ mem_cons_self field hfield)
      dsimp only at hfields
      rw [hkept] at hfields
      intro hcases
      apply ih hdistinct
      · intro a ha field hfield
        rw [hfields] at hfield
        rcases mem_cons.mp hfield with rfl | hold
        · intro he
          exact hfresh (mem_map.mpr ⟨a, ha, he.symm⟩)
        · exact hnew a (mem_cons_of_mem _ ha) field hold
      · rw [hfields]
        rcases hcases with hold | ⟨a, ha, hkey, hvalue⟩
        · exact Or.inl (mem_cons_of_mem _ hold)
        · rcases mem_cons.mp ha with rfl | ha
          · left
            rw [← hkey, ← hvalue]
            exact mem_cons_self
          · exact Or.inr ⟨a, ha, hkey, hvalue⟩

def DataState.Ignores (st : DataState) (token : XmlToken) : Prop :=
  st.step token = st ∧ st.inserts token = none

theorem DataState.read_ignored {st : DataState} {tokens : List XmlToken}
    (h : ∀ token ∈ tokens, st.Ignores token) (owner : Option Text) :
    st.read tokens = st ∧ attributions st (tokens.map (·, owner)) = [] := by
  induction tokens with
  | nil => exact ⟨rfl, rfl⟩
  | cons first tokens ih =>
    obtain ⟨hstep, hinserts⟩ := h first mem_cons_self
    obtain ⟨hread, hnone⟩ := ih fun token hmem => h token (mem_cons_of_mem _ hmem)
    constructor
    · rw [DataState.read, foldl_cons, hstep]
      exact hread
    · rw [map_cons, attributions_cons_none hinserts, hstep]
      exact hnone

theorem ignores_outside {token : XmlToken} (h : Outside token) (fields : List (Text × Text))
    (pending : Option Text) : DataState.Ignores ⟨fields, false, pending⟩ token := by
  cases token with
  | start name attributes =>
    refine ⟨?_, rfl⟩
    rw [DataState.step, if_neg h, if_neg fun hboth => Bool.false_ne_true hboth.1]
  | endTag name =>
    refine ⟨?_, rfl⟩
    rw [DataState.step, if_neg h]
  | text | empty | generalRef | other | malformed => exact ⟨rfl, rfl⟩

theorem ignores_foreign {token : XmlToken} (h : Foreign token) (fields : List (Text × Text)) :
    DataState.Ignores ⟨fields, true, none⟩ token := by
  obtain ⟨houtside, hdata⟩ := h
  cases token with
  | start name attributes =>
    refine ⟨?_, rfl⟩
    rw [DataState.step, if_neg houtside, if_neg]
    rintro ⟨-, rfl⟩
    exact hdata attributes rfl
  | endTag name =>
    refine ⟨?_, rfl⟩
    rw [DataState.step, if_neg houtside]
  | text | empty | generalRef | other | malformed => exact ⟨rfl, rfl⟩

theorem DataState.step_inEventData {st : DataState} {token : XmlToken} (h : Outside token) :
    (st.step token).inEventData = st.inEventData := by
  cases token with
  | start name attributes =>
    rw [DataState.step, if_neg h]
    split_ifs <;> rfl
  | endTag name => rw [DataState.step, if_neg h]
  | text value =>
    obtain ⟨fields, inside, pending⟩ := st
    cases inside <;> cases pending <;> rfl
  | empty name attributes | generalRef entity | other | malformed => rfl

theorem DataState.read_inEventData {st : DataState} {tokens : List XmlToken}
    (h : ∀ token ∈ tokens, Outside token) : (st.read tokens).inEventData = st.inEventData := by
  induction tokens generalizing st with
  | nil => rfl
  | cons first tokens ih =>
    have hfirst := st.step_inEventData (h first mem_cons_self)
    rw [← hfirst]
    exact ih fun token hmem => h token (mem_cons_of_mem _ hmem)

theorem mem_of_mem_attributions {st : DataState} {owned : List (XmlToken × Option Text)}
    {a : Attribution} (h : a ∈ attributions st owned) : (.text a.value, a.owner) ∈ owned := by
  induction owned generalizing st with
  | nil => cases h
  | cons first owned ih =>
    obtain ⟨token, owner⟩ := first
    cases hinserts : st.inserts token with
    | none =>
      rw [attributions_cons_none hinserts] at h
      exact mem_cons_of_mem _ (ih h)
    | some inserted =>
      rw [attributions_cons_some hinserts] at h
      rcases mem_cons.mp h with rfl | hrest
      · cases token with
        | text value =>
          unfold DataState.inserts at hinserts
          split_ifs at hinserts
          obtain ⟨key, -, rfl⟩ := Option.map_eq_some_iff.mp hinserts
          exact mem_cons_self
        | start | endTag | empty | generalRef | other | malformed => cases hinserts
      · exact mem_cons_of_mem _ (ih hrest)

def IsContent (token : XmlToken) : Prop :=
  (∃ value, token = .text value) ∨ ∃ entity, token = .generalRef entity

theorem isContent_of_mem_textTokens {run : Text} {raw : RawText} :
    ∀ token ∈ textTokens run raw, IsContent token := by
  have hrun (run : Text) : ∀ token ∈ runTokens run, IsContent token := by
    intro token htoken
    unfold runTokens at htoken
    split_ifs at htoken
    · cases htoken
    · exact Or.inl ⟨_, mem_singleton.mp htoken⟩
  induction raw generalizing run with
  | nil => exact hrun run
  | cons c raw ih =>
    cases c with
    | char c => exact ih
    | reference entity =>
      intro token htoken
      rcases mem_append.mp htoken with hmem | hmem
      · exact hrun run token hmem
      · rcases mem_cons.mp hmem with rfl | hrest
        · exact Or.inr ⟨entity, rfl⟩
        · exact ih token hrest

theorem key_of_mem_content {tokens : List XmlToken} (htokens : ∀ token ∈ tokens, IsContent token)
    {fields : List (Text × Text)} {pending : Option Text} {key : Text}
    (hpending : ∀ name, pending = some name → name = key) {owner : Option Text} {a : Attribution}
    (ha : a ∈ attributions ⟨fields, true, pending⟩ (tokens.map (·, owner))) : a.key = key := by
  induction tokens generalizing fields pending with
  | nil => cases ha
  | cons first tokens ih =>
    have htail : ∀ token ∈ tokens, IsContent token :=
      fun token hmem => htokens token (mem_cons_of_mem _ hmem)
    rw [map_cons] at ha
    rcases htokens first mem_cons_self with ⟨value, rfl⟩ | ⟨entity, rfl⟩
    · cases pending with
      | none => exact ih htail hpending ha
      | some name =>
        -- the first text takes the pending name
        rcases mem_cons.mp ha with rfl | hrest
        · exact hpending name rfl
        · refine ih htail ?_ hrest
          intro name hname
          cases hname
    · exact ih htail hpending ha

theorem nameAttribute_attributeTokens {attributes : List (Text × RawText)} {raw : RawText}
    (h : HasAttribute attributes "Name".toList raw) :
    nameAttribute (attributeTokens attributes) = some (source raw) := by
  obtain ⟨front, back, rfl, hfront, -⟩ := h.split
  have hreduce (attributes : List (Text × RawText)) :
      (attributeTokens attributes).reduceOption = attributes.map fun a => (a.1, source a.2) := by
    change List.filterMap id (attributeTokens attributes) = _
    rw [attributeTokens, filterMap_map]
    exact congrFun filterMap_eq_map attributes
  have hskip : (front.map fun a => (a.1, source a.2)).find? (·.1 = "Name".toList) = none := by
    apply List.find?_eq_none.mpr
    intro a ha
    obtain ⟨b, hb, rfl⟩ := mem_map.mp ha
    simpa using hfront b hb
  rw [nameAttribute, hreduce, map_append, List.find?_append, hskip]
  rfl

namespace DataElement
variable (element : DataElement)

theorem step_start (fields : List (Text × Text)) (pending : Option Text) :
    DataState.step ⟨fields, true, pending⟩
        (.start "Data".toList (attributeTokens element.attributes)) =
      ⟨fields, true, some (source element.rawName)⟩ := by
  rw [DataState.step, if_neg (by decide), if_pos ⟨rfl, rfl⟩,
    nameAttribute_attributeTokens element.named]

theorem outside_of_mem_tokens : ∀ token ∈ element.tokens, Outside token := by
  intro token htoken
  unfold DataElement.tokens at htoken
  cases hform : element.form with
  | selfClosing =>
    rw [hform] at htoken
    rw [mem_singleton.mp htoken]
    trivial
  | openClose =>
    rw [hform] at htoken
    rcases mem_append.mp htoken with hopen | hclose
    · rcases mem_cons.mp hopen with rfl | hcontent
      · exact show "Data".toList ≠ "EventData".toList by decide
      · rcases isContent_of_mem_textTokens token hcontent with ⟨value, rfl⟩ | ⟨entity, rfl⟩
        · trivial
        · trivial
    · rw [mem_singleton.mp hclose]
      exact show "Data".toList ≠ "EventData".toList by decide

theorem text_mem_of_mem_tokens {value : Text} (h : .text value ∈ element.tokens) :
    value ∈ texts (textTokens [] element.content) := by
  unfold DataElement.tokens at h
  cases hform : element.form with
  | selfClosing =>
    rw [hform] at h
    cases mem_singleton.mp h
  | openClose =>
    rw [hform] at h
    rcases mem_append.mp h with hopen | hclose
    · rcases mem_cons.mp hopen with he | hcontent
      · cases he
      · exact mem_filterMap.mpr ⟨_, hcontent, rfl⟩
    · cases mem_singleton.mp hclose

theorem key_of_mem_attributions {fields : List (Text × Text)} {pending : Option Text}
    {owner : Option Text} {a : Attribution}
    (ha : a ∈ attributions ⟨fields, true, pending⟩ (element.tokens.map (·, owner))) :
    a.key = source element.rawName := by
  unfold DataElement.tokens at ha
  cases hform : element.form with
  | selfClosing =>
    rw [hform] at ha
    cases ha
  | openClose =>
    rw [hform] at ha
    dsimp only at ha
    -- the start tag replaces the pending name, whatever it was
    rw [textElement, cons_append, map_cons, attributions_cons_none rfl,
      element.step_start, map_append, attributions_append] at ha
    have hend (st : DataState) :
        attributions st ([XmlToken.endTag "Data".toList].map (·, owner)) = [] := rfl
    rw [hend, append_nil] at ha
    exact key_of_mem_content isContent_of_mem_textTokens
      (fun name hname => (Option.some.inj hname).symm) ha

theorem Kept.read {element : DataElement} (h : element.Kept) (fields : List (Text × Text)) :
    (DataState.read ⟨fields, true, none⟩ element.tokens).inEventData = true ∧
      (DataState.read ⟨fields, true, none⟩ element.tokens).currentFieldName = none ∧
      attributions ⟨fields, true, none⟩ (element.tokens.map (·, some element.name)) =
        [⟨element.name, element.value, some element.name⟩] := by
  have hcontent := eq_map_char_of_unescaped element.value_meaning h.content
  -- a self-closing element has no value
  have hform : element.form = .openClose := by
    cases hcase : element.form with
    | openClose => rfl
    | selfClosing =>
      have hvalue := element.value_meaning
      rw [element.closed hcase] at hvalue
      exact absurd (Option.some.inj hvalue).symm h.value_ne
  have htokens : element.tokens =
      [.start "Data".toList (attributeTokens element.attributes), .text element.value,
        .endTag "Data".toList] := by
    rw [tokens, hform]
    dsimp only
    rw [textElement, hcontent, textTokens_map_char, nil_append, runTokens, h.trimmed,
      if_neg h.value_ne]
    rfl
  have hname : source element.rawName = element.name :=
    (source_eq_iff element.name_meaning).mpr h.name
  rw [htokens]
  refine ⟨?_, ?_, ?_⟩
  · rw [DataState.read, foldl_cons, element.step_start]
    rfl
  · rw [DataState.read, foldl_cons, element.step_start]
    rfl
  · rw [map_cons, attributions_cons_none rfl, element.step_start, hname]
    rfl

end DataElement

theorem EventDataItem.map_fst_owned (item : EventDataItem) :
    item.owned.map Prod.fst = match item with
      | .data element => element.tokens
      | .other tokens => tokens := by
  cases item with
  | data element => exact map_fst_place _ _
  | other tokens => exact map_fst_place _ _

section Items
variable {items : List EventDataItem}

theorem EventDataItem.outside {item : EventDataItem}
    (h : ∀ tokens, .other tokens = item → ∀ token ∈ tokens, Foreign token) :
    ∀ token ∈ item.owned.map Prod.fst, Outside token := by
  rw [EventDataItem.map_fst_owned]
  cases item with
  | data element => exact element.outside_of_mem_tokens
  | other tokens => exact fun token hmem => (h tokens rfl token hmem).1

theorem mem_attributions_items
    (h : ∀ tokens, .other tokens ∈ items → ∀ token ∈ tokens, Foreign token) {st : DataState}
    (hst : st.inEventData = true) {a : Attribution}
    (ha : a ∈ attributions st (items.flatMap (·.owned))) :
    a.owner = none ∨ ∃ element ∈ items.filterMap (·.element?), a.owner = some element.name ∧
      a.key = source element.rawName ∧ a.value ∈ texts (textTokens [] element.content) := by
  induction items generalizing st with
  | nil => cases ha
  | cons item items ih =>
    rw [flatMap_cons, attributions_append] at ha
    rcases mem_append.mp ha with hitem | hrest
    · have hmem := mem_of_mem_attributions hitem
      cases item with
      | data element =>
        obtain ⟨token, htoken, he⟩ := mem_map.mp hmem
        obtain ⟨rfl, howner⟩ := Prod.mk.inj he
        obtain ⟨fields, inside, pending⟩ := st
        obtain rfl : inside = true := hst
        exact Or.inr ⟨element, mem_cons_self, howner.symm,
          element.key_of_mem_attributions hitem, element.text_mem_of_mem_tokens htoken⟩
      | other tokens =>
        obtain ⟨token, -, he⟩ := mem_map.mp hmem
        exact Or.inl (Prod.mk.inj he).2.symm
    · have houtside := item.outside fun tokens he => h tokens (he ▸ mem_cons_self)
      have hread := (st.read_inEventData houtside).trans hst
      rcases ih (fun tokens hmem => h tokens (mem_cons_of_mem _ hmem)) hread hrest with
        hnone | ⟨element, hmem, hfacts⟩
      · exact Or.inl hnone
      · refine Or.inr ⟨element, ?_, hfacts⟩
        rw [filterMap_cons]
        cases item.element? with
        | none => exact hmem
        | some first => exact mem_cons_of_mem _ hmem

theorem attributions_items_of_kept
    (h : ∀ tokens, .other tokens ∈ items → ∀ token ∈ tokens, Foreign token)
    (hkept : ∀ element ∈ items.filterMap (·.element?), element.Kept) (fields : List (Text × Text)) :
    attributions ⟨fields, true, none⟩ (items.flatMap (·.owned)) =
      (items.filterMap (·.element?)).map fun element =>
        ⟨element.name, element.value, some element.name⟩ := by
  induction items generalizing fields with
  | nil => rfl
  | cons item items ih =>
    have htail := ih fun tokens hmem => h tokens (mem_cons_of_mem _ hmem)
    rw [flatMap_cons, attributions_append, EventDataItem.map_fst_owned]
    cases item with
    | data element =>
      -- behind the element no name is pending, so the rest starts in a state of the same kind
      obtain ⟨hinside, hpending, hread⟩ := (hkept element mem_cons_self).read fields
      generalize DataState.read ⟨fields, true, none⟩ element.tokens = st at hinside hpending
      obtain ⟨fields', inside, pending⟩ := st
      obtain rfl : inside = true := hinside
      obtain rfl : pending = none := hpending
      rw [EventDataItem.owned, hread, htail fun other hmem => hkept other (mem_cons_of_mem _ hmem)]
      rfl
    | other tokens =>
      have hignored : ∀ token ∈ tokens, DataState.Ignores ⟨fields, true, none⟩ token :=
        fun token hmem => ignores_foreign (h tokens mem_cons_self token hmem) fields
      obtain ⟨hread, hnone⟩ := DataState.read_ignored hignored none
      dsimp only
      rw [hread, htail hkept, EventDataItem.owned, hnone]
      rfl

end Items

namespace EventDataDocument
variable (doc : EventDataDocument)

theorem attributions_owned :
    attributions ⟨[], false, none⟩ doc.owned =
      attributions ⟨[], true, none⟩ (doc.items.flatMap (·.owned)) := by
  have hignored : ∀ token ∈ doc.before, DataState.Ignores ⟨[], false, none⟩ token :=
    fun token hmem => ignores_outside (doc.before_outside token hmem) [] none
  obtain ⟨hread, hbefore⟩ := DataState.read_ignored hignored none
  rw [owned, append_assoc, attributions_append, hbefore, nil_append, map_fst_place, hread,
    cons_append, attributions_cons_none rfl, attributions_append]
  have hclose (st : DataState) : attributions st
      ((.endTag "EventData".toList, none) :: doc.after.map (·, (none : Option Text))) = [] := by
    rw [attributions_cons_none rfl]
    exact (DataState.read_ignored (fun token hmem =>
      ignores_outside (doc.after_outside token hmem) st.dataFields st.currentFieldName) none).2
  rw [hclose, append_nil]
  rfl

theorem ne_malformed_of_outside {token : XmlToken} (h : Outside token) : token ≠ .malformed := by
  rintro rfl
  exact h

theorem extract_eq :
    extractEventDataFromXml doc.tokens =
      if (DataState.read ⟨[], false, none⟩ doc.tokens).dataFields = [] then none
      else some (DataState.read ⟨[], false, none⟩ doc.tokens).dataFields := by
  have hreadable : doc.tokens.takeWhile (· ≠ .malformed) = doc.tokens := by
    apply takeWhile_eq_self_iff.mpr
    intro token htoken
    apply decide_eq_true
    rw [tokens, owned, map_append, map_append, map_cons, map_cons,
      map_fst_place, map_fst_place] at htoken
    rcases mem_append.mp htoken with hfront | hback
    · rcases mem_append.mp hfront with hbefore | hopen
      · exact ne_malformed_of_outside (doc.before_outside token hbefore)
      · rcases mem_cons.mp hopen with rfl | hinside
        · exact XmlToken.noConfusion
        · obtain ⟨entry, hentry, rfl⟩ := mem_map.mp hinside
          obtain ⟨item, hitem, hmem⟩ := mem_flatMap.mp hentry
          have houtside := item.outside fun tokens he => doc.foreign tokens (he ▸ hitem)
          exact ne_malformed_of_outside (houtside _ (mem_map_of_mem hmem))
    · rcases mem_cons.mp hback with rfl | hafter
      · exact XmlToken.noConfusion
      · exact ne_malformed_of_outside (doc.after_outside token hafter)
  unfold extractEventDataFromXml
  rw [hreadable]
  rfl

theorem element_eq_of_name_eq {element other : DataElement} (h : element ∈ doc.elements)
    (hother : other ∈ doc.elements) (hname : element.name = other.name) : element = other :=
  inj_on_of_nodup_map doc.distinct h hother hname

theorem Attributed.kept {doc : EventDataDocument} (h : doc.Attributed) :
    ∀ element ∈ doc.elements, element.Kept := by
  intro element helement
  obtain ⟨fields, hextract, hvalue⟩ := h.value element helement
  have hmem := (hvalue element.value).mpr rfl
  have hfields : (DataState.read ⟨[], false, none⟩ doc.tokens).dataFields = fields := by
    rw [extract_eq] at hextract
    exact Option.some.inj (Option.ite_none_left_eq_some.mp hextract).2
  rw [← hfields] at hmem
  -- some text was put under the name with the right value
  rcases mem_read_dataFields hmem with hnil | ⟨a, ha, hkey, hread⟩
  · cases hnil
  have howner := h.owner a ha element helement hkey
  rw [attributions_owned] at ha
  rcases mem_attributions_items doc.foreign rfl ha with hnone | ⟨other, hother, hown, hsource, htext⟩
  · cases hnone.symm.trans howner
  -- the text lies in the element itself
  have hname : element.name = other.name := Option.some.inj (howner.symm.trans hown)
  obtain rfl := doc.element_eq_of_name_eq helement hother hname
  rw [hread] at htext
  -- a text between two references is shorter than the meaning of the whole
  have hcontent : Unescaped element.content := by
    have hroom := length_of_mem_texts [] element.content element.value htext
    have hlength := length_of_meaning element.value_meaning
    rw [length_nil] at hroom
    unfold Unescaped
    omega
  rw [eq_map_char_of_unescaped element.value_meaning hcontent, textTokens_map_char, nil_append,
    texts_runTokens] at htext
  split_ifs at htext with hblank
  · cases htext
  have htrimmed : element.value = trimXml element.value := mem_singleton.mp htext
  refine ⟨?_, hcontent, htrimmed.symm, ?_⟩
  · exact (source_eq_iff element.name_meaning).mp (hsource.symm.trans hkey)
  · rwa [htrimmed]

/-- Every name of an `EventData` element has its value, and no text is put under the name of another
element, exactly if every `Data` element is kept. -/
theorem event_data_attributed_iff :
    doc.Attributed ↔ ∀ element ∈ doc.elements, element.Kept := by
  refine ⟨Attributed.kept, ?_⟩
  intro hkept
  have hattributions : attributions ⟨[], false, none⟩ doc.owned = doc.elements.map fun element =>
      ⟨element.name, element.value, some element.name⟩ := by
    rw [attributions_owned]
    exact attributions_items_of_kept doc.foreign hkept []
  have hfields (key value : Text) :
      (key, value) ∈ (DataState.read ⟨[], false, none⟩ doc.tokens).dataFields ↔
        ∃ element ∈ doc.elements, element.name = key ∧ element.value = value := by
    have hdistinct : ((attributions ⟨[], false, none⟩ doc.owned).map (·.key)).Nodup := by
      rw [hattributions, map_map]
      exact doc.distinct
    have hnew : ∀ a ∈ attributions ⟨[], false, none⟩ doc.owned,
        ∀ field ∈ ([] : List (Text × Text)), field.1 ≠ a.key := fun _ _ _ hfield => by cases hfield
    rw [tokens, mem_read_dataFields_iff hdistinct hnew, hattributions]
    simp
  refine ⟨?_, ?_⟩
  · intro element helement
    have hmem := (hfields element.name element.value).mpr ⟨element, helement, rfl, rfl⟩
    refine ⟨(DataState.read ⟨[], false, none⟩ doc.tokens).dataFields, ?_, ?_⟩
    · rw [extract_eq, if_neg (ne_nil_of_mem hmem)]
    · intro value
      rw [hfields]
      constructor
      · rintro ⟨other, hother, hname, rfl⟩
        rw [doc.element_eq_of_name_eq hother helement hname]
      · rintro rfl
        exact ⟨element, helement, rfl, rfl⟩
  · intro a ha element helement hkey
    rw [hattributions] at ha
    obtain ⟨other, hother, rfl⟩ := mem_map.mp ha
    exact congrArg some hkey

end EventDataDocument

def plainData (name : Text) (hname : meaning attributeReserved (name.map .char) = some name)
    (hne : name ≠ []) (content : RawText) (value : Text)
    (hvalue : meaning textReserved content = some value) : DataElement where
  form := .openClose
  attributes := [("Name".toList, name.map .char)]
  rawName := name.map .char
  content := content
  name := name
  value := value
  named := ⟨mem_cons_self, nodup_singleton _⟩
  name_meaning := hname
  name_ne := hne
  value_meaning := hvalue
  closed := nofun

def emptyFieldDocument : EventDataDocument where
  before := []
  attributes := []
  items := [
    .data (plainData "Path".toList rfl (by decide)
      [.char 'a', .reference "amp".toList, .char 'b'] "a&b".toList rfl),
    .data (plainData "User".toList rfl (by decide) [] [] rfl),
    .other [.start "Binary".toList [], .text "00".toList, .endTag "Binary".toList]]
  after := []
  before_outside := nofun
  after_outside := nofun
  foreign := by
    intro tokens htokens token htoken
    obtain rfl : tokens = [.start "Binary".toList [], .text "00".toList, .endTag "Binary".toList] := by
      simpa using htokens
    rcases mem_cons.mp htoken with rfl | hrest
    · refine ⟨show "Binary".toList ≠ "EventData".toList by decide, ?_⟩
      intro attributes he
      cases he
    · rcases mem_pair.mp hrest with rfl | rfl
      · exact ⟨trivial, nofun⟩
      · exact ⟨show "Binary".toList ≠ "EventData".toList by decide, nofun⟩
  distinct := by decide

/-- The path is cut at the reference, and the user is what stands in the other element. -/
theorem event_data_misattributed :
    extractEventDataFromXml emptyFieldDocument.tokens =
        some [("User".toList, "00".toList), ("Path".toList, "a".toList)] ∧
      ¬ emptyFieldDocument.Attributed := by
  have hextract : extractEventDataFromXml emptyFieldDocument.tokens =
      some [("User".toList, "00".toList), ("Path".toList, "a".toList)] := by decide
  refine ⟨hextract, ?_⟩
  intro hattributed
  obtain ⟨fields, hfields, hvalue⟩ := hattributed.value _ (mem_cons_of_mem _ mem_cons_self)
  cases hextract.symm.trans hfields
  have huser : ("User".toList, "00".toList) ∈
      [("User".toList, "00".toList), ("Path".toList, "a".toList)] := mem_cons_self
  cases (hvalue "00".toList).mp huser

end WindowsErg.Evt
