import Mathlib.Data.List.Sort
import Mathlib.Data.Prod.Lex
import WindowsErg.SecuritySid

/-! Access control entries, lists and descriptors, `src/security/acl.rs` and
`src/security/descriptor.rs`. -/
namespace WindowsErg.Security
open TextScan

structure AccessMask where
  bits : UInt32
  deriving DecidableEq, Repr

def AccessMask.fromBits (bits : UInt32) : AccessMask := ⟨bits⟩

inductive AceType where
  | allow
  | deny
  deriving DecidableEq, Repr

structure InheritanceFlags where
  objectInherit : Bool := false
  containerInherit : Bool := false
  inheritOnly : Bool := false
  noPropagateInherit : Bool := false
  deriving DecidableEq, Repr

structure Ace where
  trustee : Sid
  aceType : AceType
  accessMask : AccessMask
  inheritance : InheritanceFlags := {}
  inherited : Bool := false
  deriving DecidableEq

def Ace.new (trustee : Sid) (aceType : AceType) (accessMask : AccessMask) : Ace :=
  { trustee, aceType, accessMask }

def Ace.withInherited (ace : Ace) (inherited : Bool) : Ace := { ace with inherited }

def Ace.withInheritance (ace : Ace) (inheritance : InheritanceFlags) : Ace :=
  { ace with inheritance }

structure Dacl where
  entries : List Ace
  deriving DecidableEq

namespace Dacl

def new : Dacl := ⟨[]⟩

def canonicalKey (ace : Ace) : ℕ ×ₗ ℕ :=
  toLex (if ace.inherited then 1 else 0,
    match ace.aceType with
    | .deny => 0
    | .allow => 1)

/-- Insertion sort stands for the stable sort of the standard library. -/
def canonicalize (dacl : Dacl) : Dacl :=
  ⟨dacl.entries.insertionSort (fun a b => canonicalKey a ≤ canonicalKey b)⟩

theorem canonicalize_perm (dacl : Dacl) : dacl.canonicalize.entries.Perm dacl.entries :=
  List.perm_insertionSort _ _

theorem mem_canonicalize (dacl : Dacl) (ace : Ace) :
    ace ∈ dacl.canonicalize.entries ↔ ace ∈ dacl.entries :=
  dacl.canonicalize_perm.mem_iff

end Dacl

inductive SecurityTarget where
  | filePath (path : Text)
  | registryPath (path : Text)
  | detached
  deriving DecidableEq, Repr

structure SecurityDescriptor where
  target : SecurityTarget
  owner : Option Sid := none
  group : Option Sid := none
  dacl : Dacl := Dacl.new
  deriving DecidableEq

end WindowsErg.Security
