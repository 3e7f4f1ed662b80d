import WindowsErg.ProcessExit
import WindowsErg.ProcessImagePath

/-! The modules of a process, `src/process/modules.rs`. One buffer of the caller is used for the
handles and then for the texts. -/
namespace WindowsErg.Process
open TextScan UnicodeText LetterCase CallProgram

structure ModuleInfo where
  name : Text
  path : ImagePath
  baseAddress : UInt64
  size : UInt32
  deriving DecidableEq

structure BufferState where
  len : ℕ
  capacity : ℕ
  deriving DecidableEq

structure WorkBuffer extends BufferState where
  len_le : len ≤ capacity

structure ModulesWorld where
  buffer : BufferState
  asked : ℕ

def ModulesWorld.withLen (w : ModulesWorld) (n : ℕ) : ModulesWorld :=
  ⟨⟨n, w.buffer.capacity⟩, w.asked⟩

def ModulesWorld.answered (w : ModulesWorld) : ModulesWorld := ⟨w.buffer, w.asked+1⟩

/-- All that is assumed of `reserve`: the additional bytes fit behind the length. -/
def ModulesWorld.Grown (additional : ℕ) (w w' : ModulesWorld) : Prop :=
  w'.asked = w.asked ∧ w'.buffer.len = w.buffer.len ∧
    w.buffer.len+additional ≤ w'.buffer.capacity

inductive ModuleCall where
  | len
  | capacity
  | reserve (additional : ℕ)
  | clear
  | setLen (n : ℕ)
  | enumProcessModules (cb : UInt32)
  | moduleHandle (i : ℕ)
  | getModuleBaseName (hmodule : UInt64) (size : ℕ)
  | getModuleFileNameEx (hmodule : UInt64) (size : ℕ)
  | getModuleInformation (hmodule : UInt64)

abbrev ModuleCall.Answer : ModuleCall → Type
  | .len => ℕ
  | .capacity => ℕ
  | .reserve _ => Unit
  | .clear => Unit
  | .setLen _ => Unit
  | .enumProcessModules _ => Except Int32 UInt32
  | .moduleHandle _ => UInt64
  | .getModuleBaseName _ _ => List UInt16
  | .getModuleFileNameEx _ _ => List UInt16
  | .getModuleInformation _ => Except Int32 (UInt64 × UInt32)

def moduleStep (reports : ℕ → Except Int32 UInt32) :
    (c : ModuleCall) → ModulesWorld → c.Answer → ModulesWorld → Prop
  | .len, w, answer, w' => answer = w.buffer.len ∧ w' = w
  | .capacity, w, answer, w' => answer = w.buffer.capacity ∧ w' = w
  | .reserve additional, w, _, w' => w.Grown additional w'
  | .clear, w, _, w' => w' = w.withLen 0
  | .setLen n, w, _, w' => w' = w.withLen n
  | .enumProcessModules _, w, answer, w' => answer = reports w.asked ∧ w' = w.answered
  | .moduleHandle _, w, _, w' => w' = w
  | .getModuleBaseName _ size, w, answer, w' => answer.length ≤ size ∧ w' = w
  | .getModuleFileNameEx _ size, w, answer, w' => answer.length ≤ size ∧ w' = w
  | .getModuleInformation _, w, _, w' => w' = w

def moduleSystem (reports : ℕ → Except Int32 UInt32) :
    System ModuleCall ModuleCall.Answer ModulesWorld where
  step := moduleStep reports
  interfere _ _ := False

abbrev ModulesProgram (α : Type) := Program ModuleCall ModuleCall.Answer α

def extendTo (needed : ℕ) : ModulesProgram Unit := do
  let capacity : ℕ ← Program.request ModuleCall.capacity
  (if capacity < needed then Program.request (ModuleCall.reserve (needed-capacity)) else pure ())
  Program.request (ModuleCall.setLen needed)

def growForHandles (bytesNeeded : ℕ) : ModulesProgram Unit := do
  let len : ℕ ← Program.request ModuleCall.len
  if len < bytesNeeded then do
    Program.request ModuleCall.clear
    extendTo bytesNeeded
  else pure ()

def growForStrings (start : ℕ) : ModulesProgram Unit := do
  let len : ℕ ← Program.request ModuleCall.len
  if len < start+2048 then extendTo (start+2048) else pure ()

def enumProcessModules : ModulesProgram (Except Int32 UInt32) := do
  let len : ℕ ← Program.request ModuleCall.len
  Program.request (ModuleCall.enumProcessModules (UInt32.ofNat len))

def moduleAt (m : LowerMapping) (size i : ℕ) : ModulesProgram (Option ModuleInfo) := do
  let hmodule : UInt64 ← Program.request (ModuleCall.moduleHandle i)
  let nameUnits : List UInt16 ← Program.request (ModuleCall.getModuleBaseName hmodule size)
  if nameUnits = [] then pure none
  else do
    let name := decodeUtf16Lossy nameUnits
    let pathUnits : List UInt16 ← Program.request (ModuleCall.getModuleFileNameEx hmodule size)
    let path := if pathUnits = [] then ImagePath.fromStr name else ImagePath.fromUtf16 m pathUnits
    let information : Except Int32 (UInt64 × UInt32) ←
      Program.request (ModuleCall.getModuleInformation hmodule)
    let place := information.toOption.getD (0, 0)
    pure (some ⟨name, path, place.1, place.2⟩)

def collectModules (m : LowerMapping) (filter : ModuleInfo → Bool) (size : ℕ) :
    List ℕ → List ModuleInfo → ModulesProgram (List ModuleInfo)
  | [], outModules => pure outModules
  | i :: rest, outModules => do
    match ← moduleAt m size i with
    | none => collectModules m filter size rest outModules
    | some info =>
      collectModules m filter size rest (if filter info then outModules ++ [info] else outModules)

def readModules (m : LowerMapping) (filter : ModuleInfo → Bool) (bytesNeeded : ℕ) :
    ModulesProgram (List ModuleInfo) := do
  growForStrings bytesNeeded
  let len : ℕ ← Program.request ModuleCall.len
  collectModules m filter ((len-bytesNeeded)/2) (List.range (bytesNeeded/8)) []

def secondCall (m : LowerMapping) (pid : UInt32) (filter : ModuleInfo → Bool) :
    ModulesProgram (Except OpenFailed (List ModuleInfo)) := do
  match ← enumProcessModules with
  | .error code => pure (.error ⟨pid, "Failed to enumerate modules (second call)".toList, some code⟩)
  | .ok bytesNeeded => do
    let outModules ← readModules m filter bytesNeeded.toNat
    pure (.ok outModules)

def firstCall (m : LowerMapping) (pid : UInt32) (filter : ModuleInfo → Bool) :
    ModulesProgram (Except OpenFailed (List ModuleInfo)) := do
  match ← enumProcessModules with
  | .error code => pure (.error ⟨pid, "Failed to enumerate modules (first call)".toList, some code⟩)
  | .ok bytesNeeded => do
    growForHandles bytesNeeded.toNat
    secondCall m pid filter

def modulesWithFilterImpl (m : LowerMapping) (pid : UInt32) (filter : ModuleInfo → Bool) :
    ModulesProgram (Except OpenFailed (List ModuleInfo)) := do
  extendTo 8192
  firstCall m pid filter

def FitsCapacity : ModuleCall → ModulesWorld → Prop
  | .setLen n, w => n ≤ w.buffer.capacity
  | _, _ => True

/-- Every length that a run can set fits the capacity at that moment. -/
def NeverOverExtended (reports : ℕ → Except Int32 UInt32) {α : Type} (p : ModulesProgram α)
    (w : ModulesWorld) : Prop :=
  Emits (moduleSystem reports) (· = w) p FitsCapacity

section Steps
variable {reports : ℕ → Except Int32 UInt32} {w w' : ModulesWorld} {α β : Type} {u : Unit}
  {needed start : ℕ}

theorem undisturbed (w w' : ModulesWorld) : ¬ (moduleSystem reports).interfere w w' := id

theorem never_bind_iff {p : ModulesProgram α} {f : α → ModulesProgram β} :
    NeverOverExtended reports (p >>= f) w ↔ NeverOverExtended reports p w ∧
      ∀ a w', Runs (moduleSystem reports) p w a w' → NeverOverExtended reports (f a) w' :=
  emits_bind_iff

theorem never_step_bind_iff {c : ModuleCall} {a : c.Answer} {f : c.Answer → ModulesProgram α}
    (hcall : FitsCapacity c w) (hstep : ∀ x w₁, (moduleSystem reports).step c w x w₁ ↔ x = a ∧ w₁ = w') :
    NeverOverExtended reports (Program.request c >>= f) w ↔ NeverOverExtended reports (f a) w' :=
  emits_step_bind_iff undisturbed hstep hcall

theorem step_clear_iff (x : Unit) (w₁ : ModulesWorld) :
    (moduleSystem reports).step .clear w x w₁ ↔ x = () ∧ w₁ = w.withLen 0 :=
  (and_iff_right rfl).symm

def NoLength : ModuleCall → Prop
  | .setLen _ => False
  | _ => True

theorem never_of_noLength {p : ModulesProgram α} (h : p.Only NoLength) :
    NeverOverExtended reports p w := by
  apply Emits.only h
  intro c _ hc
  cases c with
  | setLen n => exact hc.elim
  | _ => trivial

theorem never_bind_noLength_iff {p : ModulesProgram α} {f : α → ModulesProgram β}
    (hf : ∀ a, (f a).Only NoLength) :
    NeverOverExtended reports (p >>= f) w ↔ NeverOverExtended reports p w := by
  rw [never_bind_iff]
  apply and_iff_left
  intro a w₁ _
  exact never_of_noLength (hf a)

def Reserved (needed : ℕ) (w w' : ModulesWorld) : Prop :=
  if w.buffer.capacity < needed then w.Grown (needed-w.buffer.capacity) w' else w' = w

theorem runs_reserve_iff :
    Runs (moduleSystem reports) (if w.buffer.capacity < needed then
        Program.request (ModuleCall.reserve (needed-w.buffer.capacity)) else pure ()) w u w' ↔
      Reserved needed w w' := by
  unfold Reserved
  split
  · exact runs_request_iff undisturbed
  · rw [runs_pure_iff undisturbed]
    exact and_iff_right rfl

theorem runs_extendTo_iff : Runs (moduleSystem reports) (extendTo needed) w u w' ↔
    ∃ w₁, Reserved needed w w₁ ∧ w' = w₁.withLen needed := by
  have hset (w₁ : ModulesWorld) (u : Unit) : Runs (moduleSystem reports)
      (Program.request (ModuleCall.setLen needed)) w₁ u w' ↔ w' = w₁.withLen needed :=
    runs_request_iff undisturbed
  rw [extendTo, runs_step_bind_iff undisturbed fun x _ => Iff.rfl]
  constructor
  · intro h
    obtain ⟨u, w₁, hreserve, hrest⟩ := h.of_bind
    exact ⟨w₁, runs_reserve_iff.mp hreserve, (hset w₁ _).mp hrest⟩
  · rintro ⟨w₁, hreserved, hrest⟩
    exact Runs.bind (a := ()) (runs_reserve_iff.mpr hreserved) ((hset w₁ u).mpr hrest)

theorem never_extendTo_iff : NeverOverExtended reports (extendTo needed) w ↔
    needed ≤ w.buffer.capacity ∨ w.buffer.capacity ≤ w.buffer.len := by
  have hset (w₁ : ModulesWorld) : NeverOverExtended reports
      (Program.request (ModuleCall.setLen needed)) w₁ ↔ needed ≤ w₁.buffer.capacity :=
    emits_request_iff undisturbed
  have hreserve : NeverOverExtended reports (if w.buffer.capacity < needed then
      Program.request (ModuleCall.reserve (needed-w.buffer.capacity)) else pure ()) w := by
    apply never_of_noLength
    split
    · exact only_request trivial
    · exact only_pure ()
  rw [extendTo, never_step_bind_iff (c := .capacity) trivial fun _ _ => Iff.rfl, never_bind_iff,
    and_iff_right hreserve]
  constructor
  · intro h
    by_contra hshort
    -- an allocator that reserves no more than it has to
    have hleast : Reserved needed w
        ⟨⟨w.buffer.len, w.buffer.len+(needed-w.buffer.capacity)⟩, w.asked⟩ := by
      rw [Reserved, if_pos (by omega)]
      exact ⟨rfl, rfl, le_rfl⟩
    have hfits := (hset _).mp (h () _ (runs_reserve_iff.mpr hleast))
    dsimp only at hfits
    omega
  · intro h u w₁ hrun
    have hreserved := runs_reserve_iff.mp hrun
    apply (hset w₁).mpr
    unfold Reserved ModulesWorld.Grown at hreserved
    split at hreserved
    · omega
    · rw [hreserved]
      omega

theorem runs_growForHandles_iff (h : needed ≤ w.buffer.capacity) :
    Runs (moduleSystem reports) (growForHandles needed) w u w' ↔
      w' = w.withLen (max w.buffer.len needed) := by
  have hreserved (w₁ : ModulesWorld) : Reserved needed (w.withLen 0) w₁ ↔ w₁ = w.withLen 0 := by
    rw [Reserved, if_neg]
    exact Nat.not_lt.mpr h
  rw [growForHandles, runs_step_bind_iff undisturbed fun x _ => Iff.rfl]
  split
  · rename_i hlong
    rw [runs_step_bind_iff undisturbed step_clear_iff, runs_extendTo_iff, Nat.max_eq_right hlong.le]
    simp only [hreserved, exists_eq_left]
    rfl
  · rename_i hshort
    rw [runs_pure_iff undisturbed, Nat.max_eq_left (Nat.not_lt.mp hshort)]
    exact and_iff_right rfl

theorem never_growForHandles_iff : NeverOverExtended reports (growForHandles needed) w ↔
    needed ≤ max w.buffer.len w.buffer.capacity ∨ w.buffer.capacity = 0 := by
  rw [growForHandles, never_step_bind_iff (c := .len) trivial fun _ _ => Iff.rfl]
  split
  · rw [never_step_bind_iff (c := .clear) trivial step_clear_iff, never_extendTo_iff]
    change needed ≤ w.buffer.capacity ∨ w.buffer.capacity ≤ 0 ↔ _
    omega
  · refine iff_of_true (never_of_noLength (only_pure ())) ?_
    omega

theorem never_growForStrings_iff : NeverOverExtended reports (growForStrings start) w ↔
    start+2048 ≤ max w.buffer.len w.buffer.capacity ∨ w.buffer.capacity ≤ w.buffer.len := by
  rw [growForStrings, never_step_bind_iff (c := .len) trivial fun _ _ => Iff.rfl]
  split
  · rw [never_extendTo_iff]
    omega
  · refine iff_of_true (never_of_noLength (only_pure ())) ?_
    omega

variable {m : LowerMapping} {pid : UInt32} {filter : ModuleInfo → Bool}

theorem only_moduleAt (size i : ℕ) : (moduleAt m size i).Only NoLength := by
  apply (only_request trivial).bind
  intro hmodule
  apply (only_request trivial).bind
  intro nameUnits
  split
  · exact only_pure _
  · exact (only_request trivial).bind fun _ => (only_request trivial).bind fun _ => only_pure _

theorem only_collectModules (size : ℕ) (indices : List ℕ) (outModules : List ModuleInfo) :
    (collectModules m filter size indices outModules).Only NoLength := by
  induction indices generalizing outModules with
  | nil => exact only_pure _
  | cons i indices ih =>
    apply (only_moduleAt size i).bind
    intro info
    cases info with
    | none => exact ih _
    | some info => exact ih _

theorem never_enumProcessModules_bind_iff {f : Except Int32 UInt32 → ModulesProgram α}
    (hf : ∀ code, (f (.error code)).Only NoLength) :
    NeverOverExtended reports (enumProcessModules >>= f) w ↔
      ∀ n, reports w.asked = .ok n → NeverOverExtended reports (f (.ok n)) w.answered := by
  have hask : NeverOverExtended reports enumProcessModules w :=
    never_of_noLength ((only_request trivial).bind fun _ => only_request trivial)
  have hrun (x : Except Int32 UInt32) (w' : ModulesWorld) :
      Runs (moduleSystem reports) enumProcessModules w x w' ↔
        x = reports w.asked ∧ w' = w.answered := by
    rw [enumProcessModules, runs_step_bind_iff undisturbed fun x _ => Iff.rfl]
    exact runs_request_iff undisturbed
  rw [never_bind_iff, and_iff_right hask]
  constructor
  · intro h n hn
    exact hn ▸ h _ _ ((hrun _ _).mpr ⟨rfl, rfl⟩)
  · intro h x w' hx
    obtain ⟨rfl, rfl⟩ := (hrun x w').mp hx
    cases hanswer : reports w.asked with
    | error code => exact never_of_noLength (hf code)
    | ok n => exact h n hanswer

theorem never_secondCall_iff : NeverOverExtended reports (secondCall m pid filter) w ↔
    ∀ k, reports w.asked = .ok k → k.toNat+2048 ≤ max w.buffer.len w.buffer.capacity ∨
      w.buffer.capacity ≤ w.buffer.len := by
  have hread (n : ℕ) : NeverOverExtended reports (readModules m filter n) w.answered ↔ _ :=
    (never_bind_noLength_iff fun _ => (only_request trivial).bind fun _ =>
      only_collectModules _ _ _).trans never_growForStrings_iff
  refine Iff.trans (never_enumProcessModules_bind_iff fun _ => only_pure _) ?_
  apply forall₂_congr
  intro k _
  exact (never_bind_noLength_iff fun _ => only_pure _).trans (hread k.toNat)

theorem never_growForHandles_bind_iff {n : ℕ} (hlen : w.buffer.len ≤ w.buffer.capacity)
    (hpos : 0 < w.buffer.len) :
    NeverOverExtended reports (growForHandles n >>= fun _ => secondCall m pid filter) w ↔
      n ≤ w.buffer.capacity ∧ ∀ k, reports w.asked = .ok k →
        k.toNat+2048 ≤ w.buffer.capacity ∨ max w.buffer.len n = w.buffer.capacity := by
  rw [never_bind_iff, never_growForHandles_iff]
  by_cases hn : n ≤ w.buffer.capacity
  · have hfits : max w.buffer.len n ≤ w.buffer.capacity := max_le hlen hn
    simp only [runs_growForHandles_iff hn, forall_const, forall_eq, never_secondCall_iff]
    change _ ∧ (∀ k : UInt32, _ → k.toNat+2048 ≤ max (max w.buffer.len n) w.buffer.capacity ∨
      w.buffer.capacity ≤ max w.buffer.len n) ↔ _
    rw [Nat.max_eq_right hfits, hfits.ge_iff_eq]
    simp only [hn, le_max_iff, or_true, true_or, true_and]
    rfl
  · refine iff_of_false ?_ ?_
    · rintro ⟨h, -⟩
      omega
    · rintro ⟨h, -⟩
      exact hn h

def RoomyFrom (reports : ℕ → Except Int32 UInt32) (capacity : ℕ) : Prop :=
  ∀ n, reports 0 = .ok n → n.toNat ≤ capacity ∧
    ∀ k, reports 1 = .ok k → k.toNat+2048 ≤ capacity ∨ max 8192 n.toNat = capacity

theorem never_firstCall_iff (hcapacity : 8192 ≤ w.buffer.capacity) (hasked : w.asked = 0) :
    NeverOverExtended reports (firstCall m pid filter) (w.withLen 8192) ↔
      RoomyFrom reports w.buffer.capacity := by
  have hrest (n : ℕ) : NeverOverExtended reports
      (growForHandles n >>= fun _ => secondCall m pid filter) (w.withLen 8192).answered ↔ _ :=
    never_growForHandles_bind_iff hcapacity (Nat.succ_pos _)
  refine Iff.trans (never_enumProcessModules_bind_iff fun _ => only_pure _) ?_
  simp only [hrest]
  simp only [ModulesWorld.answered, ModulesWorld.withLen, hasked]
  rfl

variable (buffer : WorkBuffer)

theorem never_modulesWithFilterImpl_iff :
    NeverOverExtended reports (modulesWithFilterImpl m pid filter) ⟨buffer.toBufferState, 0⟩ ↔
      (8192 ≤ buffer.capacity ∨ buffer.capacity ≤ buffer.len) ∧
        ∀ w, Reserved 8192 ⟨buffer.toBufferState, 0⟩ w → RoomyFrom reports w.buffer.capacity := by
  rw [modulesWithFilterImpl, never_bind_iff, never_extendTo_iff]
  apply and_congr_right
  intro hfirst
  have hrest (w : ModulesWorld) (hreserved : Reserved 8192 ⟨buffer.toBufferState, 0⟩ w) :
      NeverOverExtended reports (firstCall m pid filter) (w.withLen 8192) ↔
        RoomyFrom reports w.buffer.capacity := by
    have hafter : 8192 ≤ w.buffer.capacity ∧ w.asked = 0 := by
      unfold Reserved ModulesWorld.Grown at hreserved
      split at hreserved
      · dsimp only at *
        omega
      · rw [hreserved]
        dsimp only at *
        omega
    exact never_firstCall_iff hafter.1 hafter.2
  constructor
  · intro h w hreserved
    exact (hrest w hreserved).mp (h () _ (runs_extendTo_iff.mpr ⟨w, hreserved, rfl⟩))
  · intro h _ _ hrun
    obtain ⟨w, hreserved, rfl⟩ := runs_extendTo_iff.mp hrun
    exact (hrest w hreserved).mpr (h w hreserved)

/-- The buffer is large enough for the first step or it is full; the first count fits it; and for
the second count and the texts there is room, or the buffer is full again. -/
def Roomy (buffer : WorkBuffer) (reports : ℕ → Except Int32 UInt32) : Prop :=
  (8192 ≤ buffer.capacity ∨ buffer.len = buffer.capacity) ∧
    ∀ n, reports 0 = .ok n → n.toNat ≤ max 8192 buffer.capacity ∧
      ∀ k, reports 1 = .ok k →
        if 8192 ≤ buffer.capacity then
          k.toNat+2048 ≤ buffer.capacity ∨ max 8192 n.toNat = buffer.capacity
        else k.toNat+2048 ≤ 8193

theorem roomy_iff : Roomy buffer reports ↔
    (8192 ≤ buffer.capacity ∨ buffer.capacity ≤ buffer.len) ∧
      ∀ w, Reserved 8192 ⟨buffer.toBufferState, 0⟩ w → RoomyFrom reports w.buffer.capacity := by
  have hlen := buffer.len_le
  have hfull : buffer.len = buffer.capacity ↔ buffer.capacity ≤ buffer.len := by omega
  rw [Roomy, hfull]
  apply and_congr_right
  intro hfirst
  unfold Reserved ModulesWorld.Grown
  by_cases hlarge : 8192 ≤ buffer.capacity
  · simp only [if_pos hlarge, Nat.not_lt.mpr hlarge, if_false, forall_eq, Nat.max_eq_right hlarge]
    rfl
  · simp only [if_neg hlarge, Nat.lt_of_not_le hlarge, if_true, Nat.max_eq_left (Nat.le_of_not_le hlarge)]
    constructor
    · intro h w hreserved n hn
      obtain ⟨hcount, hsecond⟩ := h n hn
      refine ⟨by omega, ?_⟩
      intro k hk
      have hroom := hsecond k hk
      omega
    · intro h n hn
      -- the allocator may give exactly what is needed, or one byte more
      have hexact := h ⟨⟨buffer.len, 8192⟩, 0⟩ ⟨rfl, rfl, by dsimp only; omega⟩ n hn
      have hmore := h ⟨⟨buffer.len, 8193⟩, 0⟩ ⟨rfl, rfl, by dsimp only; omega⟩ n hn
      refine ⟨hexact.1, ?_⟩
      intro k hk
      have hroom := hmore.2 k hk
      have hcount := hexact.1
      dsimp only at *
      omega

end Steps

/-- No length goes past the capacity if and only if the buffer is roomy for the counts. -/
theorem work_buffer_within_capacity_iff (m : LowerMapping) (pid : UInt32) (filter : ModuleInfo → Bool)
    (buffer : WorkBuffer) (reports : ℕ → Except Int32 UInt32) :
    NeverOverExtended reports (modulesWithFilterImpl m pid filter) ⟨buffer.toBufferState, 0⟩ ↔
      Roomy buffer reports :=
  (never_modulesWithFilterImpl_iff buffer).trans (roomy_iff buffer).symm

/-- A fresh buffer of 8192 bytes and a process with 1025 modules. -/
theorem work_buffer_over_extended :
    ∃ w, Issues (moduleSystem fun _ => .ok 8200)
        (modulesWithFilterImpl LowerMapping.narrow 1 fun _ => true) ⟨⟨0, 8192⟩, 0⟩ (.setLen 8200) w ∧
      w.buffer = ⟨0, 8192⟩ := by
  refine ⟨⟨⟨0, 8192⟩, 1⟩, ?_, rfl⟩
  have hfirst : Runs (moduleSystem fun _ => .ok 8200) (extendTo 8192) ⟨⟨0, 8192⟩, 0⟩ ()
      ⟨⟨8192, 8192⟩, 0⟩ := runs_extendTo_iff.mpr ⟨_, rfl, rfl⟩
  refine Issues.bind_right hfirst ?_
  -- the length is read, the modules are asked for, the length is read again, the buffer is cleared
  refine .later ⟨rfl, rfl⟩ (.later ⟨rfl, rfl⟩ (.later ⟨rfl, rfl⟩ (.later (x := ()) rfl ?_)))
  -- the capacity is too small, and what is missing is reserved
  refine .later ⟨rfl, rfl⟩ (.later (x := ()) ⟨rfl, rfl, ?_⟩ .here)
  decide

end WindowsErg.Process
