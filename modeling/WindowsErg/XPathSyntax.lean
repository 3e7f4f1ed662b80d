import WindowsErg.TextScan

/-! The tokens and the expression grammar of XPath 1.0. -/
namespace XPathSyntax
open List TextScan

inductive BinaryOp where
  | or | and | eq | ne | lt | le | gt | ge | plus | minus | multiply | div | mod | union
  deriving DecidableEq, Repr

/-- Names that are operators, and `*`, are told apart from name tests by the parser. -/
inductive Token where
  | literal (value : Text)
  | number (digits : Text)
  | name (n : Text)
  | qualified (space n : Text)
  | anyIn (space : Text)
  | star
  | op (o : BinaryOp)
  | slash | doubleSlash | lparen | rparen | lbracket | rbracket
  | dot | doubleDot | at | comma | dollar | doubleColon
  deriving DecidableEq, Repr

def apostrophe : Char := Char.ofNat 39
def quotation : Char := Char.ofNat 34

def inRanges (ranges : List (ℕ × ℕ)) (c : Char) : Bool :=
  ranges.any fun range => range.1 ≤ c.toNat && c.toNat ≤ range.2

/-- `NameStartChar` of XML without the colon. -/
def nameStartRanges : List (ℕ × ℕ) :=
  [(65, 90), (95, 95), (97, 122), (0xC0, 0xD6), (0xD8, 0xF6), (0xF8, 0x2FF), (0x370, 0x37D),
    (0x37F, 0x1FFF), (0x200C, 0x200D), (0x2070, 0x218F), (0x2C00, 0x2FEF), (0x3001, 0xD7FF),
    (0xF900, 0xFDCF), (0xFDF0, 0xFFFD), (0x10000, 0xEFFFF)]

def isNameStart (c : Char) : Bool := inRanges nameStartRanges c

/-- `NameChar` of XML without the colon. -/
def isNameChar (c : Char) : Bool :=
  isNameStart c || inRanges [(45, 46), (48, 57), (0xB7, 0xB7), (0x300, 0x36F),
    (0x203F, 0x2040)] c

def isSpace (c : Char) : Bool := c == ' ' || c == '\t' || c == '\r' || c == '\n'

inductive State where
  | start
  | name (read : Text)
  | nameColon (space : Text)
  | localName (space read : Text)
  | number (read : Text) (point : Bool)
  | literal (quote : Char) (read : Text)
  | dot | slash | bang | less | greater | colon
  deriving DecidableEq, Repr

def prepend (ts : List Token) (result : List Token × State) : List Token × State :=
  (ts ++ result.1, result.2)

def symbolToken : Char → Option Token
  | '(' => some .lparen
  | ')' => some .rparen
  | '[' => some .lbracket
  | ']' => some .rbracket
  | '@' => some .at
  | ',' => some .comma
  | '$' => some .dollar
  | '*' => some .star
  | '=' => some (.op .eq)
  | '+' => some (.op .plus)
  | '-' => some (.op .minus)
  | '|' => some (.op .union)
  | _ => none

def symbolState : Char → Option State
  | '/' => some .slash
  | '.' => some .dot
  | '!' => some .bang
  | '<' => some .less
  | '>' => some .greater
  | ':' => some .colon
  | _ => none

def startStep (c : Char) : Option (List Token × State) :=
  if isSpace c then some ([], .start)
  else if isNameStart c then some ([], .name [c])
  else if c.isDigit then some ([], .number [c] false)
  else if c == apostrophe || c == quotation then some ([], .literal c [])
  else ((symbolState c).map ([], ·)).or ((symbolToken c).map ([·], .start))

def endBefore (t : Token) (c : Char) : Option (List Token × State) :=
  (startStep c).map (prepend [t])

def step : State → Char → Option (List Token × State)
  | .start, c => startStep c
  | .name read, c =>
    if isNameChar c then some ([], .name (read ++ [c]))
    else if c == ':' then some ([], .nameColon read)
    else endBefore (.name read) c
  | .nameColon space, c =>
    if c == ':' then some ([.name space, .doubleColon], .start)
    else if c == '*' then some ([.anyIn space], .start)
    else if isNameStart c then some ([], .localName space [c])
    else none
  | .localName space read, c =>
    if isNameChar c then some ([], .localName space (read ++ [c]))
    else endBefore (.qualified space read) c
  | .number read point, c =>
    if c.isDigit then some ([], .number (read ++ [c]) point)
    else if c == '.' && !point then some ([], .number (read ++ [c]) true)
    else endBefore (.number read) c
  | .literal quote read, c =>
    if c == quote then some ([.literal read], .start)
    else some ([], .literal quote (read ++ [c]))
  | .dot, c =>
    if c == '.' then some ([.doubleDot], .start)
    else if c.isDigit then some ([], .number ['.', c] true)
    else endBefore .dot c
  | .slash, c => if c == '/' then some ([.doubleSlash], .start) else endBefore .slash c
  | .bang, c => if c == '=' then some ([.op .ne], .start) else none
  | .less, c => if c == '=' then some ([.op .le], .start) else endBefore (.op .lt) c
  | .greater, c => if c == '=' then some ([.op .ge], .start) else endBefore (.op .gt) c
  | .colon, c => if c == ':' then some ([.doubleColon], .start) else none

def finish : State → Option (List Token)
  | .start => some []
  | .name read => some [.name read]
  | .localName space read => some [.qualified space read]
  | .number read _ => some [.number read]
  | .dot => some [.dot]
  | .slash => some [.slash]
  | .less => some [.op .lt]
  | .greater => some [.op .gt]
  | .nameColon _ => none
  | .literal _ _ => none
  | .bang => none
  | .colon => none

def feed : State → Text → Option (List Token × State)
  | state, [] => some ([], state)
  | state, c :: s =>
    (step state c).bind fun result => (feed result.2 s).map (prepend result.1)

def lex (s : Text) : Option (List Token) :=
  (feed .start s).bind fun result => (finish result.2).map (result.1 ++ ·)

def literals (ts : List Token) : List Text :=
  ts.filterMap fun
    | .literal value => some value
    | _ => none

theorem feed_append (state : State) (s t : Text) :
    feed state (s ++ t) =
      (feed state s).bind fun result => (feed result.2 t).map (prepend result.1) := by
  induction s generalizing state with
  | nil =>
    rw [nil_append, feed, Option.bind_some]
    change _ = (feed state t).map id
    rw [Option.map_id, id]
  | cons c s ih =>
    rw [cons_append, feed, feed]
    cases step state c with
    | none => rfl
    | some first =>
      rw [Option.bind_some, Option.bind_some, ih]
      cases feed first.2 s with
      | none => rfl
      | some second =>
        rw [Option.bind_some, Option.map_some, Option.bind_some, Option.map_map]
        congr 1
        funext third
        simp [prepend]

theorem feed_append_of_eq (state mid last : State) (s t : Text) (ts us : List Token)
    (hs : feed state s = some (ts, mid)) (ht : feed mid t = some (us, last)) :
    feed state (s ++ t) = some (ts ++ us, last) := by
  rw [feed_append, hs, Option.bind_some, ht, Option.map_some, prepend]

theorem lex_of_feed (s : Text) (ts : List Token) (h : feed .start s = some (ts, .start)) :
    lex s = some ts := by
  rw [lex, h, Option.bind_some, finish, Option.map_some, append_nil]

theorem feed_cons_of_eq (state mid last : State) (c : Char) (s : Text) (us : List Token)
    (hc : step state c = some ([], mid)) (hs : feed mid s = some (us, last)) :
    feed state (c :: s) = some (us, last) := by
  rw [feed, hc, Option.bind_some, hs, Option.map_some, prepend, nil_append]

theorem feed_literal (quote : Char) (read s : Text) (h : quote ∉ s) :
    feed (.literal quote read) s = some ([], .literal quote (read ++ s)) := by
  induction s generalizing read with
  | nil => rw [append_nil, feed]
  | cons c s ih =>
    have hne : ¬ (c == quote) = true := by
      intro he
      exact h (mem_cons.mpr (Or.inl (beq_iff_eq.mp he).symm))
    have hs := ih (read ++ [c]) (fun hm => h (mem_cons_of_mem _ hm))
    rw [append_assoc, singleton_append] at hs
    exact feed_cons_of_eq _ _ _ c s [] (if_neg hne) hs

theorem feed_quoted (state : State) (quote : Char) (before value : Text) (ts : List Token)
    (hbefore : feed state before = some (ts, .literal quote [])) (h : quote ∉ value) :
    feed state (before ++ value ++ [quote]) = some (ts ++ [.literal value], .start) := by
  have hvalue := feed_append_of_eq _ _ _ before value ts [] hbefore (feed_literal quote [] _ h)
  rw [append_nil, nil_append] at hvalue
  have hclose : feed (.literal quote value) [quote] = some ([.literal value], .start) := by
    simp [feed, step, prepend]
  exact feed_append_of_eq _ _ _ _ [quote] ts _ hvalue hclose

theorem startStep_digit (c : Char) (h : c.isDigit = true) :
    startStep c = some ([], .number [c] false) := by
  have hc := (isDigit_iff c).mp h
  have hspace : ¬ isSpace c = true := by
    intro hs
    simp only [isSpace, Bool.or_eq_true, beq_iff_eq] at hs
    rcases hs with ((rfl | rfl) | rfl) | rfl <;> exact absurd h (by decide)
  have hname : ¬ isNameStart c = true := by
    intro hn
    obtain ⟨range, hrange, hin⟩ := any_eq_true.mp hn
    have habove : ∀ range ∈ nameStartRanges, 57 < range.1 := by decide
    have hlow := habove range hrange
    rw [Bool.and_eq_true, decide_eq_true_eq] at hin
    omega
  rw [startStep, if_neg hspace, if_neg hname, if_pos h]

theorem feed_number (read digits : Text) (point : Bool) (h : ∀ c ∈ digits, c.isDigit = true) :
    feed (.number read point) digits = some ([], .number (read ++ digits) point) := by
  induction digits generalizing read with
  | nil => rw [append_nil, feed]
  | cons c digits ih =>
    have hs := ih (read ++ [c]) (fun d hd => h d (mem_cons_of_mem _ hd))
    rw [append_assoc, singleton_append] at hs
    exact feed_cons_of_eq _ _ _ c digits [] (if_pos (h c mem_cons_self)) hs

def State.NoApostrophe : State → Prop
  | .literal quote read => quote = apostrophe ∧ apostrophe ∉ read
  | _ => True

def NoApostrophe (ts : List Token) : Prop :=
  ∀ value ∈ literals ts, apostrophe ∉ value

theorem literals_append (ts us : List Token) : literals (ts ++ us) = literals ts ++ literals us :=
  filterMap_append

theorem NoApostrophe.append {ts us : List Token} (ht : NoApostrophe ts) (hu : NoApostrophe us) :
    NoApostrophe (ts ++ us) := by
  intro value hvalue
  rw [literals_append] at hvalue
  rcases mem_append.mp hvalue with h | h
  · exact ht value h
  · exact hu value h

theorem symbolToken_no_literal (c : Char) (t : Token) (h : symbolToken c = some t) :
    literals [t] = [] := by
  unfold symbolToken at h
  split at h <;> cases h <;> rfl

theorem symbolState_no_literal (c : Char) (state : State) (h : symbolState c = some state) :
    state.NoApostrophe := by
  unfold symbolState at h
  split at h <;> cases h <;> trivial

theorem startStep_noApostrophe (c : Char) (hc : c ≠ quotation) (ts : List Token) (state : State)
    (h : startStep c = some (ts, state)) : literals ts = [] ∧ state.NoApostrophe := by
  unfold startStep at h
  split_ifs at h with hspace hname hdigit hquote
  · cases h
    exact ⟨rfl, trivial⟩
  · cases h
    exact ⟨rfl, trivial⟩
  · cases h
    exact ⟨rfl, trivial⟩
  · cases h
    have ha : c = apostrophe := by simpa [hc] using hquote
    exact ⟨rfl, ha, not_mem_nil⟩
  · rcases Option.or_eq_some_iff.mp h with hstate | ⟨-, htoken⟩
    · obtain ⟨next, hnext, he⟩ := Option.map_eq_some_iff.mp hstate
      cases he
      exact ⟨rfl, symbolState_no_literal c state hnext⟩
    · obtain ⟨t, ht, he⟩ := Option.map_eq_some_iff.mp htoken
      cases he
      exact ⟨symbolToken_no_literal c t ht, trivial⟩

theorem endBefore_noApostrophe (t : Token) (ht : literals [t] = []) (c : Char)
    (hc : c ≠ quotation) (ts : List Token) (state : State)
    (h : endBefore t c = some (ts, state)) : literals ts = [] ∧ state.NoApostrophe := by
  obtain ⟨result, hresult, he⟩ := Option.map_eq_some_iff.mp h
  obtain ⟨hs, hstate⟩ := startStep_noApostrophe c hc result.1 result.2 hresult
  cases he
  refine ⟨?_, hstate⟩
  rw [literals_append, ht, hs, nil_append]

theorem step_outside_literal (state next : State) (c : Char) (hc : c ≠ quotation)
    (hstate : ∀ quote read, state ≠ .literal quote read) (ts : List Token)
    (h : step state c = some (ts, next)) : literals ts = [] ∧ next.NoApostrophe := by
  cases state
  case start => exact startStep_noApostrophe c hc ts next h
  case literal quote read => exact absurd rfl (hstate quote read)
  -- what is left completes fixed tokens, or one token before the start of the next
  all_goals
    simp only [step] at h
    split_ifs at h
  all_goals first
    | exact endBefore_noApostrophe _ rfl c hc ts next h
    | (cases h; exact ⟨rfl, trivial⟩)

theorem step_noApostrophe (state next : State) (c : Char) (hc : c ≠ quotation)
    (hstate : state.NoApostrophe) (ts : List Token) (h : step state c = some (ts, next)) :
    NoApostrophe ts ∧ next.NoApostrophe := by
  by_cases hliteral : ∃ quote read, state = .literal quote read
  · obtain ⟨quote, read, rfl⟩ := hliteral
    obtain ⟨rfl, hread⟩ := hstate
    simp only [step] at h
    split_ifs at h with hquote
    · cases h
      refine ⟨?_, trivial⟩
      intro value hvalue
      rw [mem_singleton.mp hvalue]
      exact hread
    · cases h
      refine ⟨fun value hvalue => absurd hvalue not_mem_nil, rfl, ?_⟩
      intro hmem
      rcases mem_append.mp hmem with hm | hm
      · exact hread hm
      · exact hquote (beq_iff_eq.mpr (mem_singleton.mp hm).symm)
  · obtain ⟨hnone, hnext⟩ := step_outside_literal state next c hc
      (fun quote read he => hliteral ⟨quote, read, he⟩) ts h
    refine ⟨?_, hnext⟩
    intro value hvalue
    rw [hnone] at hvalue
    exact absurd hvalue not_mem_nil

theorem feed_noApostrophe (state next : State) (s : Text) (hs : quotation ∉ s)
    (hstate : state.NoApostrophe) (ts : List Token) (h : feed state s = some (ts, next)) :
    NoApostrophe ts ∧ next.NoApostrophe := by
  induction s generalizing state ts with
  | nil =>
    cases h
    exact ⟨fun value hvalue => absurd hvalue not_mem_nil, hstate⟩
  | cons c s ih =>
    obtain ⟨first, hfirst, hrest⟩ := Option.bind_eq_some_iff.mp h
    obtain ⟨second, hsecond, he⟩ := Option.map_eq_some_iff.mp hrest
    have hc : c ≠ quotation := fun he => hs (mem_cons.mpr (Or.inl he.symm))
    obtain ⟨hts, hmid⟩ := step_noApostrophe state first.2 c hc hstate first.1 hfirst
    have hlast : second.2 = next := congrArg Prod.snd he
    obtain ⟨hus, hnext⟩ := ih first.2 (fun hm => hs (mem_cons_of_mem _ hm)) hmid second.1
      (by rw [hsecond, ← hlast])
    rw [← show first.1 ++ second.1 = ts from congrArg Prod.fst he]
    exact ⟨hts.append hus, hnext⟩

theorem lex_noApostrophe (s : Text) (hs : quotation ∉ s) (ts : List Token)
    (h : lex s = some ts) : ∀ value ∈ literals ts, apostrophe ∉ value := by
  obtain ⟨result, hresult, hfinish⟩ := Option.bind_eq_some_iff.mp h
  obtain ⟨us, hus, he⟩ := Option.map_eq_some_iff.mp hfinish
  obtain ⟨hts, -⟩ := feed_noApostrophe .start result.2 s hs trivial result.1 hresult
  have hnone : literals us = [] := by
    cases hstate : result.2 <;> rw [hstate] at hus <;> cases hus <;> rfl
  intro value hvalue
  rw [← he, literals_append, hnone, append_nil] at hvalue
  exact hts value hvalue

inductive Axis where
  | ancestor | ancestorOrSelf | attribute | child | descendant | descendantOrSelf | following
  | followingSibling | namespace_ | parent | preceding | precedingSibling | self
  deriving DecidableEq, Repr

def axisOf (n : Text) : Option Axis :=
  [("ancestor", Axis.ancestor), ("ancestor-or-self", .ancestorOrSelf),
    ("attribute", .attribute), ("child", .child), ("descendant", .descendant),
    ("descendant-or-self", .descendantOrSelf), ("following", .following),
    ("following-sibling", .followingSibling), ("namespace", .namespace_), ("parent", .parent),
    ("preceding", .preceding), ("preceding-sibling", .precedingSibling),
    ("self", .self)].findSome? fun (name, axis) => if name.toList = n then some axis else none

inductive NodeTest where
  | name (n : Text)
  | qualified (space n : Text)
  | any
  | anyIn (space : Text)
  | nodeType (t : Text)
  | instruction (target : Text)
  deriving DecidableEq, Repr

/-- Expressions; a location path is a chain of steps under `slash`, a predicate is `filter`. -/
inductive Expr where
  | literal (value : Text)
  | number (digits : Text)
  | variable_ (n : Text)
  | call (n : Text) (arguments : List Expr)
  | binary (o : BinaryOp) (left right : Expr)
  | negate (e : Expr)
  | root
  | step (axis : Axis) (test : NodeTest)
  | slash (path next : Expr)
  | filter (e predicate : Expr)

def operatorAt : List Token → Option (BinaryOp × ℕ × List Token)
  | .name n :: ts =>
    if n = "or".toList then some (.or, 1, ts)
    else if n = "and".toList then some (.and, 2, ts)
    else if n = "div".toList then some (.div, 6, ts)
    else if n = "mod".toList then some (.mod, 6, ts)
    else none
  | .star :: ts => some (.multiply, 6, ts)
  | .op .eq :: ts => some (.eq, 3, ts)
  | .op .ne :: ts => some (.ne, 3, ts)
  | .op .lt :: ts => some (.lt, 4, ts)
  | .op .le :: ts => some (.le, 4, ts)
  | .op .gt :: ts => some (.gt, 4, ts)
  | .op .ge :: ts => some (.ge, 4, ts)
  | .op .plus :: ts => some (.plus, 5, ts)
  | .op .minus :: ts => some (.minus, 5, ts)
  | _ => none

def isNodeType (n : Text) : Bool :=
  n ∈ ["comment".toList, "text".toList, "processing-instruction".toList, "node".toList]

def nodeTestAt : List Token → Option (NodeTest × List Token)
  | .star :: ts => some (.any, ts)
  | .anyIn space :: ts => some (.anyIn space, ts)
  | .qualified space n :: ts => some (.qualified space n, ts)
  | .name n :: .lparen :: .rparen :: ts => if isNodeType n then some (.nodeType n, ts) else none
  | .name n :: .lparen :: .literal target :: .rparen :: ts =>
    if n = "processing-instruction".toList then some (.instruction target, ts) else none
  | .name n :: ts => some (.name n, ts)
  | _ => none

def bareStepAt : List Token → Option (Expr × List Token)
  | .dot :: ts => some (.step .self (.nodeType "node".toList), ts)
  | .doubleDot :: ts => some (.step .parent (.nodeType "node".toList), ts)
  | .at :: ts => (nodeTestAt ts).map fun (test, ts) => (.step .attribute test, ts)
  | .name n :: .doubleColon :: ts => do
    let axis ← axisOf n
    let (test, ts) ← nodeTestAt ts
    return (.step axis test, ts)
  | ts => (nodeTestAt ts).map fun (test, ts) => (.step .child test, ts)

def descendants : Expr := .step .descendantOrSelf (.nodeType "node".toList)

def startsStep : List Token → Bool
  | .dot :: _ => true
  | .doubleDot :: _ => true
  | .at :: _ => true
  | .star :: _ => true
  | .name _ :: _ => true
  | .qualified _ _ :: _ => true
  | .anyIn _ :: _ => true
  | _ => false

/-! The parsers take fuel, which every call uses up by one. -/
mutual

def parseExpr : ℕ → ℕ → List Token → Option (Expr × List Token)
  | 0, _, _ => none
  | n+1, prec, ts => do
    let (left, ts) ← parseUnary n ts
    parseOperators n prec left ts

def parseOperators : ℕ → ℕ → Expr → List Token → Option (Expr × List Token)
  | 0, _, _, _ => none
  | n+1, prec, left, ts =>
    match operatorAt ts with
    | none => some (left, ts)
    | some (o, p, rest) =>
      if p < prec then some (left, ts)
      else do
        let (right, rest) ← parseExpr n (p+1) rest
        parseOperators n prec (.binary o left right) rest

def parseUnary : ℕ → List Token → Option (Expr × List Token)
  | 0, _ => none
  | n+1, .op .minus :: ts => (parseUnary n ts).map fun (e, ts) => (.negate e, ts)
  | n+1, ts => do
    let (path, ts) ← parsePath n ts
    parseUnion n path ts

def parseUnion : ℕ → Expr → List Token → Option (Expr × List Token)
  | 0, _, _ => none
  | n+1, left, .op .union :: ts => do
    let (right, ts) ← parsePath n ts
    parseUnion n (.binary .union left right) ts
  | _+1, left, ts => some (left, ts)

def parsePath : ℕ → List Token → Option (Expr × List Token)
  | 0, _ => none
  | n+1, .slash :: ts =>
    if startsStep ts then do
      let (next, ts) ← parseStep n ts
      parseSteps n (.slash .root next) ts
    else some (.root, ts)
  | n+1, .doubleSlash :: ts => do
    let (next, ts) ← parseStep n ts
    parseSteps n (.slash (.slash .root descendants) next) ts
  | n+1, .literal value :: ts => parsePostfix n (.literal value) ts
  | n+1, .number digits :: ts => parsePostfix n (.number digits) ts
  | n+1, .dollar :: .name v :: ts => parsePostfix n (.variable_ v) ts
  | n+1, .lparen :: ts => do
    let (e, ts) ← parseExpr n 1 ts
    match ts with
    | .rparen :: ts => parsePostfix n e ts
    | _ => none
  | n+1, .name f :: .lparen :: ts =>
    if isNodeType f then do
      let (first, ts) ← parseStep n (.name f :: .lparen :: ts)
      parseSteps n first ts
    else do
      let (arguments, ts) ← parseArguments n ts
      parsePostfix n (.call f arguments) ts
  | n+1, ts => do
    let (first, ts) ← parseStep n ts
    parseSteps n first ts

def parsePostfix : ℕ → Expr → List Token → Option (Expr × List Token)
  | 0, _, _ => none
  | n+1, e, ts => do
    let (e, ts) ← parsePredicates n e ts
    parseSteps n e ts

def parseSteps : ℕ → Expr → List Token → Option (Expr × List Token)
  | 0, _, _ => none
  | n+1, path, .slash :: ts => do
    let (next, ts) ← parseStep n ts
    parseSteps n (.slash path next) ts
  | n+1, path, .doubleSlash :: ts => do
    let (next, ts) ← parseStep n ts
    parseSteps n (.slash (.slash path descendants) next) ts
  | _+1, path, ts => some (path, ts)

def parseStep : ℕ → List Token → Option (Expr × List Token)
  | 0, _ => none
  | n+1, ts => do
    let (bare, ts) ← bareStepAt ts
    parsePredicates n bare ts

def parsePredicates : ℕ → Expr → List Token → Option (Expr × List Token)
  | 0, _, _ => none
  | n+1, e, .lbracket :: ts => do
    let (predicate, ts) ← parseExpr n 1 ts
    match ts with
    | .rbracket :: ts => parsePredicates n (.filter e predicate) ts
    | _ => none
  | _+1, e, ts => some (e, ts)

def parseArguments : ℕ → List Token → Option (List Expr × List Token)
  | 0, _ => none
  | _+1, .rparen :: ts => some ([], ts)
  | n+1, ts => do
    let (first, ts) ← parseExpr n 1 ts
    match ts with
    | .rparen :: ts => return ([first], ts)
    | .comma :: ts =>
      -- a comma is followed by another argument
      let (rest, ts) ← parseArguments n ts
      if rest.isEmpty then none else return (first :: rest, ts)
    | _ => none

end

/-- Fuel for a whole token list: between two tokens no more than eight calls are nested. -/
def fuelFor (ts : List Token) : ℕ := 8*(ts.length+1)

def parse (s : Text) : Option Expr := do
  let ts ← lex s
  let (e, rest) ← parseExpr (fuelFor ts) 1 ts
  if rest = [] then some e else none

end XPathSyntax
