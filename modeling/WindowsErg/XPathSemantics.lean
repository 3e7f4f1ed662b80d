import Mathlib.Algebra.Order.Ring.Rat
import Mathlib.Data.Nat.Cast.Order.Ring
import WindowsErg.XPathSyntax

/-! What XPath expressions select in a document, for location paths of child, attribute and self
steps with predicates, comparisons, `and` and `or`. Numbers are exact. -/
namespace XPathSemantics
open List TextScan XPathSyntax

inductive Node where
  | root (children : List Node)
  | element (name : Text) (attributes : List (Text × Text)) (children : List Node)
  | attribute (name value : Text)
  | text (content : Text)

namespace Node

def children : Node → List Node
  | .root children | .element _ _ children => children
  | .attribute _ _ | .text _ => []

def attributes : Node → List Node
  | .element _ attributes _ => attributes.map fun (name, value) => .attribute name value
  | .root _ | .attribute _ _ | .text _ => []

def name? : Node → Option Text
  | .element name _ _ | .attribute name _ => some name
  | .root _ | .text _ => none

mutual

def stringValue : Node → Text
  | .root children | .element _ _ children => stringValues children
  | .attribute _ value => value
  | .text content => content

def stringValues : List Node → Text
  | [] => []
  | node :: nodes => stringValue node ++ stringValues nodes

end

def isPrincipal : Axis → Node → Bool
  | .attribute, .attribute _ _ => true
  | .attribute, _ => false
  | _, .element _ _ _ => true
  | _, _ => false

def childrenNamed (name : Text) (node : Node) : List Node :=
  node.children.filter fun child => child.isPrincipal .child && child.name? = some name

end Node

def unsignedNumber (s : Text) : Option ℚ :=
  let whole := s.takeWhile Char.isDigit
  match s.dropWhile Char.isDigit with
  | [] => if whole = [] then none else (digitsValue 10 0 whole).map (↑)
  | '.' :: fraction =>
    if whole = [] ∧ fraction = [] then none
    else (digitsValue 10 0 (whole ++ fraction)).map fun n => (n : ℚ) / 10^fraction.length
  | _ => none

def numberOf (s : Text) : Option ℚ :=
  match (s.dropWhile isSpace).rdropWhile isSpace with
  | '-' :: s => (unsignedNumber s).map (-·)
  | s => unsignedNumber s

inductive Atom where
  | boolean (b : Bool)
  | number (x : Option ℚ)
  | string (s : Text)

namespace Atom

def toBool : Atom → Bool
  | .boolean b => b
  | .number x => x.any (· ≠ 0)
  | .string s => !s.isEmpty

def toNumber : Atom → Option ℚ
  | .boolean b => some (if b then 1 else 0)
  | .number x => x
  | .string s => numberOf s

def related (r : ℚ → ℚ → Bool) (a b : Atom) : Bool :=
  match a.toNumber, b.toNumber with
  | some x, some y => r x y
  | _, _ => false

def equal (a b : Atom) : Bool :=
  match a, b with
  | .string s, .string t => s = t
  | .boolean _, _ | _, .boolean _ => a.toBool == b.toBool
  | _, _ => related (· = ·) a b

def comparison : BinaryOp → Option (Atom → Atom → Bool)
  | .eq => some equal
  | .ne => some fun a b => !equal a b
  | .lt => some (related (· < ·))
  | .le => some (related (· ≤ ·))
  | .gt => some (related (· > ·))
  | .ge => some (related (· ≥ ·))
  | _ => none

end Atom

inductive Value where
  | nodes (found : List Node)
  | atom (a : Atom)

namespace Value

def nodes? : Value → Option (List Node)
  | .nodes found => some found
  | .atom _ => none

def toBool : Value → Bool
  | .nodes found => !found.isEmpty
  | .atom a => a.toBool

def atoms : Value → List Atom
  | .nodes found => found.map fun node => .string node.stringValue
  | .atom a => [a]

/-- A node set is in a relation if one of its nodes is; with a boolean it is compared as one. -/
def compare (r : Atom → Atom → Bool) (a b : Value) : Bool :=
  match a, b with
  | .nodes _, .atom (.boolean _) | .atom (.boolean _), .nodes _ =>
    r (.boolean a.toBool) (.boolean b.toBool)
  | _, _ => a.atoms.any fun x => b.atoms.any fun y => r x y

def holdsAt (position : ℕ) : Value → Bool
  | .atom (.number x) => x = some (position : ℚ)
  | value => value.toBool

end Value

def axisNodes (context : Node) : Axis → Option (List Node)
  | .child => some context.children
  | .attribute => some context.attributes
  | .self => some [context]
  | _ => none

def testNodes (axis : Axis) (candidates : List Node) : NodeTest → Option (List Node)
  | .name name =>
    some (candidates.filter fun node => node.isPrincipal axis && node.name? = some name)
  | .any => some (candidates.filter (·.isPrincipal axis))
  | .nodeType t => if t = "node".toList then some candidates else none
  | _ => none

def keepWhere (candidates : List Node) (verdicts : List Value) : List Node :=
  ((candidates.zip verdicts).zipIdx 1).filterMap fun ((node, verdict), position) =>
    if verdict.holdsAt position then some node else none

def eval : Expr → Node → Option Value
  | .literal value, _ => some (.atom (.string value))
  | .number digits, _ => some (.atom (.number (numberOf digits)))
  | .step axis test, context => do
    let candidates ← axisNodes context axis
    let found ← testNodes axis candidates test
    return .nodes found
  | .slash path next, context => do
    let starts ← (eval path context).bind Value.nodes?
    let found ← starts.mapM fun start => (eval next start).bind Value.nodes?
    return .nodes found.flatten
  | .filter e predicate, context => do
    let candidates ← (eval e context).bind Value.nodes?
    let verdicts ← candidates.mapM fun node => eval predicate node
    return .nodes (keepWhere candidates verdicts)
  | .binary o left right, context => do
    let a ← eval left context
    let b ← eval right context
    match o with
    | .and => return .atom (.boolean (a.toBool && b.toBool))
    | .or => return .atom (.boolean (a.toBool || b.toBool))
    | o => (Atom.comparison o).map fun r => .atom (.boolean (Value.compare r a b))
  | _, _ => none

def selects (e : Expr) (document : Node) : Bool :=
  match eval e document with
  | some (.nodes (_ :: _)) => true
  | _ => false

theorem selects_of_eval {e : Expr} {document : Node} {found : List Node}
    (h : eval e document = some (.nodes found)) : selects e document = !found.isEmpty := by
  rw [selects, h]
  cases found with
  | nil => rfl
  | cons node found => rfl

theorem eval_child (name : Text) (context : Node) :
    eval (.step .child (.name name)) context = some (.nodes (context.childrenNamed name)) := rfl

section Paths
variable {path next e predicate : Expr} {context node : Node} {found : List Node}

theorem eval_slash_singleton (hpath : eval path context = some (.nodes [node]))
    (hnext : eval next node = some (.nodes found)) :
    eval (.slash path next) context = some (.nodes found) := by
  simp [eval, hpath, hnext, Value.nodes?]

theorem eval_slash_nil (hpath : eval path context = some (.nodes [])) :
    eval (.slash path next) context = some (.nodes []) := by
  simp [eval, hpath, Value.nodes?]

theorem eval_filter_singleton {b : Bool} (he : eval e context = some (.nodes [node]))
    (hpredicate : eval predicate node = some (.atom (.boolean b))) :
    eval (.filter e predicate) context = some (.nodes (if b then [node] else [])) := by
  cases b <;>
    simp [eval, he, hpredicate, Value.nodes?, keepWhere, Value.holdsAt, Value.toBool, Atom.toBool]

end Paths

theorem eval_comparison {o : BinaryOp} {r : Atom → Atom → Bool} (ho : Atom.comparison o = some r)
    {left right : Expr} {context : Node} {a b : Value} (hleft : eval left context = some a)
    (hright : eval right context = some b) :
    eval (.binary o left right) context = some (.atom (.boolean (Value.compare r a b))) := by
  cases o with
  | eq | ne | lt | le | gt | ge =>
    cases ho
    simp [eval, hleft, hright, Atom.comparison]
  | or | and | plus | minus | multiply | div | mod | union => cases ho

theorem eval_foldl_and {context : Node} {exprs : List Expr} {verdicts : List Bool}
    (h : List.Forall₂ (fun e b => eval e context = some (.atom (.boolean b))) exprs verdicts)
    {first : Expr} {b : Bool} (hfirst : eval first context = some (.atom (.boolean b))) :
    eval (exprs.foldl (.binary .and) first) context =
      some (.atom (.boolean (b && verdicts.all id))) := by
  induction h generalizing first b with
  | nil => rw [foldl_nil, hfirst, all_nil, Bool.and_true]
  | @cons e verdict exprs verdicts he _ ih =>
    have hboth : eval (.binary .and first e) context = some (.atom (.boolean (b && verdict))) := by
      simp [eval, hfirst, he, Value.toBool, Atom.toBool]
    rw [foldl_cons, ih hboth, all_cons, Bool.and_assoc]
    rfl

theorem numberOf_digits {s : Text} (hs : ∀ c ∈ s, c.isDigit = true) (hne : s ≠ []) {n : ℕ}
    (hvalue : digitsValue 10 0 s = some n) : numberOf s = some (n : ℚ) := by
  have htake : s.takeWhile Char.isDigit = s := takeWhile_eq_self_iff.mpr hs
  have hdrop : s.dropWhile Char.isDigit = [] := dropWhile_eq_nil_iff.mpr hs
  have hunsigned : unsignedNumber s = some (n : ℚ) := by
    simp [unsignedNumber, htake, hdrop, hne, hvalue]
  have hspace : ∀ c ∈ s, isSpace c ≠ true := by
    intro c hc hspace
    have hdigit := hs c hc
    simp only [isSpace, Bool.or_eq_true, beq_iff_eq] at hspace
    rcases hspace with ((rfl | rfl) | rfl) | rfl
    all_goals exact absurd hdigit (by decide)
  have hfront : s.dropWhile isSpace = s := by
    apply dropWhile_eq_self_iff.mpr
    intro hlength
    exact hspace _ (getElem_mem hlength)
  have hback : s.rdropWhile isSpace = s := by
    apply rdropWhile_eq_self_iff.mpr
    intro hlast
    exact hspace _ (getLast_mem hlast)
  unfold numberOf
  rw [hfront, hback]
  split
  · exact absurd (hs '-' mem_cons_self) (by decide)
  · exact hunsigned

theorem numberOf_decimal (n : ℕ) : numberOf (decimal n) = some (n : ℚ) :=
  numberOf_digits (isDigit_of_mem_decimal n) (decimal_ne_nil n) (digitsValue_decimal n)

theorem compare_number {node : Node} {n : ℕ} (h : node.stringValue = decimal n)
    (r : ℚ → ℚ → Bool) (m : ℕ) :
    Value.compare (Atom.related r) (.nodes [node]) (.atom (.number (numberOf (decimal m)))) =
      r n m := by
  simp [Value.compare, Value.atoms, Atom.related, Atom.toNumber, h, numberOf_decimal]

end XPathSemantics
