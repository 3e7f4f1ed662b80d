import WindowsErg.TextScan

/-! The security descriptor definition language: the grammar of the texts and the descriptor that a
text denotes. `resolve` says which trustee a SID text or an alias names. -/
namespace SddlLanguage
open List TextScan

inductive AceKind where
  | allowed
  | denied
  | audit
  | alarm
  | objectAllowed
  | objectDenied
  | objectAudit
  | objectAlarm
  | callbackAllowed
  | callbackDenied
  | callbackAudit
  | callbackObjectAllowed
  | mandatoryLabel
  | resourceAttribute
  | scopedPolicy
  | trustLabel
  | accessFilter
  deriving DecidableEq, Repr

def kindNames : List (Text × AceKind) := [
  ("A".toList, .allowed), ("D".toList, .denied), ("AU".toList, .audit), ("AL".toList, .alarm),
  ("OA".toList, .objectAllowed), ("OD".toList, .objectDenied), ("OU".toList, .objectAudit),
  ("OL".toList, .objectAlarm), ("XA".toList, .callbackAllowed), ("XD".toList, .callbackDenied),
  ("XU".toList, .callbackAudit), ("ZA".toList, .callbackObjectAllowed),
  ("ML".toList, .mandatoryLabel), ("RA".toList, .resourceAttribute), ("SP".toList, .scopedPolicy),
  ("TL".toList, .trustLabel), ("FL".toList, .accessFilter)]

def flagNames : List (Text × UInt8) := [
  ("OI".toList, 0x01), ("CI".toList, 0x02), ("NP".toList, 0x04), ("IO".toList, 0x08),
  ("ID".toList, 0x10), ("CR".toList, 0x20), ("TP".toList, 0x40), ("SA".toList, 0x40),
  ("FA".toList, 0x80)]

def rightNames : List (Text × UInt32) := [
  ("GA".toList, 0x10000000), ("GX".toList, 0x20000000), ("GW".toList, 0x40000000),
  ("GR".toList, 0x80000000), ("SD".toList, 0x00010000), ("RC".toList, 0x00020000),
  ("WD".toList, 0x00040000), ("WO".toList, 0x00080000), ("CC".toList, 0x00000001),
  ("DC".toList, 0x00000002), ("LC".toList, 0x00000004), ("SW".toList, 0x00000008),
  ("RP".toList, 0x00000010), ("WP".toList, 0x00000020), ("DT".toList, 0x00000040),
  ("LO".toList, 0x00000080), ("CR".toList, 0x00000100), ("FA".toList, 0x001F01FF),
  ("FR".toList, 0x00120089), ("FW".toList, 0x00120116), ("FX".toList, 0x001200A0),
  ("KA".toList, 0x000F003F), ("KR".toList, 0x00020019), ("KW".toList, 0x00020006),
  ("KX".toList, 0x00020019), ("NW".toList, 0x00000001), ("NR".toList, 0x00000002),
  ("NX".toList, 0x00000004)]

structure AccessRule (σ : Type) where
  kind : AceKind
  flags : UInt8
  mask : UInt32
  trustee : σ
  deriving DecidableEq

structure Ace (σ : Type) extends AccessRule σ where
  objectType : Text
  inheritedObjectType : Text
  /-- The condition of a callback entry, or the attribute of a resource. -/
  further : Option Text
  deriving DecidableEq

structure AclControl where
  isProtected : Bool := false
  autoInheritRequired : Bool := false
  autoInherited : Bool := false
  deriving DecidableEq, Repr

/-- A list without entries denies everything; `entries = none` is the NULL list, which denies
nothing. -/
structure Acl (σ : Type) where
  control : AclControl
  entries : Option (List (Ace σ))
  deriving DecidableEq

structure Descriptor (σ : Type) where
  owner : Option σ
  group : Option σ
  dacl : Option (Acl σ)
  sacl : Option (Acl σ)
  deriving DecidableEq

namespace Descriptor
variable {σ : Type}

def daclControl (d : Descriptor σ) : AclControl := (d.dacl.map Acl.control).getD {}

def daclEntries (d : Descriptor σ) : Option (List (Ace σ)) := d.dacl.bind Acl.entries

def aces (d : Descriptor σ) : List (Ace σ) := d.daclEntries.getD []

end Descriptor

def readNames {α : Type} [OrOp α] (table : List (Text × α)) : Text → α → Option α
  | [], value => some value
  | [_], _ => none
  | c :: d :: s, value =>
    (table.lookup [c, d]).bind fun x => readNames table s (value ||| x)

def readNumeral (radix : ℕ) (s : Text) : Option UInt32 :=
  if s = [] then none
  else ((digitsValue radix 0 s).filter (· < 2^32)).map UInt32.ofNat

def readRights : Text → Option UInt32
  | [] => some 0
  | '0' :: 'x' :: s => readNumeral 16 s
  | '0' :: s => readNumeral 8 ('0' :: s)
  | c :: s => if c.isDigit then readNumeral 10 (c :: s) else readNames rightNames (c :: s) 0

section Read
variable {σ : Type} (resolve : Text → Option σ)

def readAce (body : Text) : Option (Ace σ) :=
  match body.splitOn ';' with
  | kind :: flags :: rights :: objectType :: inheritedObjectType :: trustee :: further => do
    let kind ← kindNames.lookup kind
    let flags ← readNames flagNames flags 0
    let mask ← readRights rights
    let trustee ← resolve trustee
    some {
      kind := kind
      flags := flags
      mask := mask
      trustee := trustee
      objectType := objectType
      inheritedObjectType := inheritedObjectType
      further := if further = [] then none else some ([';'].intercalate further) }
  | _ => none

/-- The text up to the parenthesis that closes an open one, and what follows. Conditions nest
parentheses; those in quoted strings do not count. -/
def readParen : ℕ → Bool → Text → Option (Text × Text)
  | _, _, [] => none
  | depth, true, c :: s => (readParen depth (c ≠ '"') s).map fun p => (c :: p.1, p.2)
  | depth, false, c :: s =>
    if c = ')' then
      match depth with
      | 0 => some ([], s)
      | depth+1 => (readParen depth false s).map fun p => (c :: p.1, p.2)
    else if c = '(' then (readParen (depth+1) false s).map fun p => (c :: p.1, p.2)
    else (readParen depth (c = '"') s).map fun p => (c :: p.1, p.2)

def readAces : ℕ → Text → Option (List (Ace σ) × Text)
  | rounds+1, '(' :: s => do
    let (body, s) ← readParen 0 false s
    let ace ← readAce resolve body
    let (aces, s) ← readAces rounds s
    some (ace :: aces, s)
  | _, s => some ([], s)

def readControl : Text → AclControl × Text
  | 'P' :: s => ({ (readControl s).1 with isProtected := true }, (readControl s).2)
  | 'A' :: 'R' :: s => ({ (readControl s).1 with autoInheritRequired := true }, (readControl s).2)
  | 'A' :: 'I' :: s => ({ (readControl s).1 with autoInherited := true }, (readControl s).2)
  | s => ({}, s)

def nullAcl : Text := "NO_ACCESS_CONTROL".toList

def readAcl (marker : Char) : Text → Option (Option (Acl σ) × Text)
  | c :: ':' :: s =>
    if c = marker then
      let (control, s) := readControl s
      if nullAcl <+: s then some (some ⟨control, none⟩, s.drop nullAcl.length)
      else (readAces resolve s.length s).map fun p => (some ⟨control, some p.1⟩, p.2)
    else some (none, c :: ':' :: s)
  | s => some (none, s)

def cutName (s : Text) : Text × Text :=
  match find [':'] s with
  | none => (s, [])
  | some pos => (s.take (pos-1), s.drop (pos-1))

def readTrustee (marker : Char) : Text → Option (Option σ × Text)
  | c :: ':' :: s =>
    if c = marker then (resolve (cutName s).1).map fun trustee => (some trustee, (cutName s).2)
    else some (none, c :: ':' :: s)
  | s => some (none, s)

/-- The descriptor that a text denotes: owner, group, DACL and SACL in this order, each of them
at most once. -/
def read (text : Text) : Option (Descriptor σ) := do
  let (owner, s) ← readTrustee resolve 'O' text
  let (group, s) ← readTrustee resolve 'G' s
  let (dacl, s) ← readAcl resolve 'D' s
  let (sacl, s) ← readAcl resolve 'S' s
  if s = [] then some { owner, group, dacl, sacl } else none

theorem readParen_plain (body rest : Text) (h : ∀ c ∈ body, c ∉ "()\"".toList) :
    readParen 0 false (body ++ ')' :: rest) = some (body, rest) := by
  induction body with
  | nil => rfl
  | cons c body ih =>
    have hc := h c mem_cons_self
    have hclose : c ≠ ')' := fun he => hc (by rw [he]; decide)
    have hopen : c ≠ '(' := fun he => hc (by rw [he]; decide)
    have hquote : c ≠ '"' := fun he => hc (by rw [he]; decide)
    rw [cons_append, readParen, if_neg hclose, if_neg hopen, decide_eq_false hquote,
      ih fun d hd => h d (mem_cons_of_mem c hd)]
    rfl

section
variable {α : Type} (print : α → Text) (meaning : α → Ace σ) (entries : List α)

theorem readAces_plain (rounds : ℕ) (hplain : ∀ e, ∀ c ∈ print e, c ∉ "()\"".toList)
    (hread : ∀ e, readAce resolve (print e) = some (meaning e)) (hle : entries.length ≤ rounds) :
    readAces resolve rounds (entries.flatMap fun e => '(' :: print e ++ [')']) =
      some (entries.map meaning, []) := by
  induction entries generalizing rounds with
  | nil =>
    cases rounds with
    | zero => rfl
    | succ rounds => rfl
  | cons e entries ih =>
    obtain ⟨n, rfl⟩ : ∃ n, rounds = n+1 := ⟨rounds-1, by rw [length_cons] at hle; omega⟩
    have htext : ((e :: entries).flatMap fun e => '(' :: print e ++ [')']) =
        '(' :: (print e ++ ')' :: entries.flatMap fun e => '(' :: print e ++ [')']) := by
      simp
    rw [htext, readAces, readParen_plain _ _ (hplain e)]
    simp only [Option.bind_eq_bind, Option.bind_some, hread e]
    rw [ih n (by rw [length_cons] at hle; omega)]
    rfl

theorem readAcl_plain (marker : Char) (hplain : ∀ e, ∀ c ∈ print e, c ∉ "()\"".toList)
    (hread : ∀ e, readAce resolve (print e) = some (meaning e)) :
    readAcl resolve marker (marker :: ':' :: entries.flatMap fun e => '(' :: print e ++ [')']) =
      some (some ⟨{}, some (entries.map meaning)⟩, []) := by
  have hlen : entries.length ≤ (entries.flatMap fun e => '(' :: print e ++ [')']).length := by
    induction entries with
    | nil => simp
    | cons e entries ih =>
      simp only [flatMap_cons, length_append, length_cons]
      omega
  -- no entry starts like a control flag or the word for the NULL list
  have hcontrol : readControl (entries.flatMap fun e => '(' :: print e ++ [')']) =
      ({}, entries.flatMap fun e => '(' :: print e ++ [')']) := by
    cases entries with
    | nil => simp [readControl]
    | cons e entries => simp [readControl]
  have hnull : ¬ nullAcl <+: entries.flatMap fun e => '(' :: print e ++ [')'] := by
    intro hp
    cases entries with
    | nil => exact absurd (prefix_nil.mp hp) (by decide)
    | cons e entries =>
      have hhead : 'N' = '(' := (cons_prefix_cons.mp hp).1
      exact absurd hhead (by decide)
  rw [readAcl, if_pos rfl, hcontrol]
  dsimp only
  rw [if_neg hnull, readAces_plain resolve print meaning entries _ hplain hread hlen]
  rfl

end

theorem cutName_append (name rest : Text) (c : Char) (hname : ':' ∉ name) (hc : c ≠ ':') :
    cutName (name ++ c :: ':' :: rest) = (name, c :: ':' :: rest) := by
  have hfree : ':' ∉ name ++ [c] := by simp [hname, Ne.symm hc]
  have hfind := find_char_append ':' (name ++ [c]) rest hfree
  rw [append_assoc, singleton_append] at hfind
  unfold cutName
  rw [hfind]
  simp

theorem readTrustee_hit (marker c : Char) (name rest : Text) (trustee : σ) (hname : ':' ∉ name)
    (hc : c ≠ ':') (h : resolve name = some trustee) :
    readTrustee resolve marker (marker :: ':' :: (name ++ c :: ':' :: rest)) =
      some (some trustee, c :: ':' :: rest) := by
  rw [readTrustee, if_pos rfl, cutName_append name rest c hname hc, h]
  rfl

theorem readTrustee_miss (marker c : Char) (rest : Text) (h : c ≠ marker) :
    readTrustee resolve marker (c :: ':' :: rest) = some (none, c :: ':' :: rest) := by
  rw [readTrustee, if_neg h]

end Read
end SddlLanguage
