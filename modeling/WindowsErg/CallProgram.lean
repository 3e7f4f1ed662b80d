import Mathlib.Logic.Basic

/-! Programs that make calls to a system while others are at work on it, and rules of pre- and
postconditions for them. -/
namespace CallProgram
universe u v
variable {C : Type u} {A : C → Type u} {W : Type v} {α β : Type u}

inductive Program (C : Type u) (A : C → Type u) (α : Type u) where
  | done (result : α)
  | call (c : C) (next : A c → Program C A α)

namespace Program

def bind : Program C A α → (α → Program C A β) → Program C A β
  | .done result, f => f result
  | .call c next, f => .call c fun answer => (next answer).bind f

instance : Monad (Program C A) where
  pure := .done
  bind := bind

def request (c : C) : Program C A (A c) := .call c .done

end Program

open Program

structure System (C : Type u) (A : C → Type u) (W : Type v) where
  step : (c : C) → W → A c → W → Prop
  interfere : W → W → Prop

/-- The program, started in the first world, can return the result in the second one. Others
may move before and after every call. -/
inductive Runs (sys : System C A W) : Program C A α → W → α → W → Prop
  | done (a : α) (w : W) : Runs sys (.done a) w a w
  | interfere {p : Program C A α} {w w' w'' : W} {a : α} (hmove : sys.interfere w w')
      (hrest : Runs sys p w' a w'') : Runs sys p w a w''
  | call {c : C} {next : A c → Program C A α} {w w' w'' : W} {x : A c} {a : α}
      (hstep : sys.step c w x w') (hrest : Runs sys (next x) w' a w'') :
      Runs sys (.call c next) w a w''

section Runs
variable {sys : System C A W}

theorem Runs.request_bind {c : C} {f : A c → Program C A β} {w w' w'' : W} {x : A c} {b : β}
    (hstep : sys.step c w x w') (hrest : Runs sys (f x) w' b w'') :
    Runs sys (request c >>= f) w b w'' :=
  .call hstep hrest

theorem Runs.bind {p : Program C A α} {f : α → Program C A β} {w w' w'' : W} {a : α} {b : β}
    (hp : Runs sys p w a w') (hf : Runs sys (f a) w' b w'') : Runs sys (p >>= f) w b w'' := by
  induction hp with
  | done a w => exact hf
  | interfere hmove _ ih => exact .interfere hmove (ih hf)
  | call hstep _ ih => exact .call hstep (ih hf)

theorem Runs.of_bind {p : Program C A α} {f : α → Program C A β} {w w'' : W} {b : β}
    (h : Runs sys (p >>= f) w b w'') :
    ∃ a w', Runs sys p w a w' ∧ Runs sys (f a) w' b w'' := by
  generalize hq : p >>= f = q at h
  induction h generalizing p with
  | done b w =>
    cases p with
    | done a => exact ⟨a, w, .done a w, by rw [show f a = .done b from hq]; exact .done b w⟩
    | call c next => exact absurd hq (by rintro ⟨⟩)
  | interfere hmove hrest ih =>
    obtain ⟨a, w', hp, hf⟩ := ih hq
    exact ⟨a, w', .interfere hmove hp, hf⟩
  | @call c next w w' w'' x b hstep hrest ih =>
    cases p with
    | done a => exact ⟨a, w, .done a w, by
        rw [show f a = .call c next from hq]
        exact .call hstep hrest⟩
    | call d after =>
      have hcall : Program.call d (fun answer => (after answer).bind f) = .call c next := hq
      cases hcall
      obtain ⟨a, w₁, hp, hf⟩ := ih rfl
      exact ⟨a, w₁, .call hstep hp, hf⟩

theorem Runs.mono {sys' : System C A W} (hstep : ∀ c w x w', sys.step c w x w' → sys'.step c w x w')
    (hmove : ∀ w w', sys.interfere w w' → sys'.interfere w w') {p : Program C A α} {w w' : W} {a : α}
    (h : Runs sys p w a w') : Runs sys' p w a w' := by
  induction h with
  | done a w => exact .done a w
  | interfere hm _ ih => exact .interfere (hmove _ _ hm) ih
  | call hs _ ih => exact .call (hstep _ _ _ _ hs) ih

end Runs

/-- Started in this world, the program returns, and always with this result and in this world. -/
structure Returns (sys : System C A W) (p : Program C A α) (w : W) (a : α) : Prop where
  runs : Runs sys p w a w
  unique : ∀ b w', Runs sys p w b w' → b = a ∧ w' = w

section Returns
variable {sys : System C A W} {w : W}

theorem Returns.eq {p : Program C A α} {a b : α} (ha : Returns sys p w a) (hb : Returns sys p w b) :
    a = b :=
  (hb.unique a w ha.runs).1

theorem Returns.bind {p : Program C A α} {f : α → Program C A β} {a : α} {b : β}
    (hp : Returns sys p w a) (hf : Returns sys (f a) w b) : Returns sys (p >>= f) w b := by
  refine ⟨hp.runs.bind hf.runs, fun b' w'' hrun => ?_⟩
  obtain ⟨a', w', hfirst, hrest⟩ := hrun.of_bind
  obtain ⟨rfl, rfl⟩ := hp.unique a' w' hfirst
  exact hf.unique b' w'' hrest

variable (hquiet : ∀ w', ¬ sys.interfere w w')
include hquiet

theorem returns_done (a : α) : Returns sys (.done a : Program C A α) w a := by
  refine ⟨.done a w, fun b w' hrun => ?_⟩
  cases hrun with
  | done => exact ⟨rfl, rfl⟩
  | interfere hmove _ => exact absurd hmove (hquiet _)

theorem returns_request {c : C} {a : A c} (hstep : ∀ x w', sys.step c w x w' ↔ x = a ∧ w' = w) :
    Returns sys (request c) w a := by
  refine ⟨.call ((hstep a w).mpr ⟨rfl, rfl⟩) (.done a w), fun b w' hrun => ?_⟩
  cases hrun with
  | interfere hmove _ => exact absurd hmove (hquiet _)
  | call hs hrest =>
    obtain ⟨rfl, rfl⟩ := (hstep _ _).mp hs
    exact (returns_done hquiet _).unique b w' hrest

end Returns

def System.alone (sys : System C A W) : System C A W := { sys with interfere := fun _ _ => False }

theorem Runs.of_alone {sys : System C A W} {p : Program C A α} {w w' : W} {a : α}
    (h : Runs sys.alone p w a w') : Runs sys p w a w' := by
  apply h.mono
  · exact fun _ _ _ _ hstep => hstep
  · exact fun _ _ hmove => hmove.elim

theorem Runs.alone {sys : System C A W} {E : W → Prop} (hmove : ∀ w w', sys.interfere w w' → ¬ E w')
    (hstep : ∀ c w x w', sys.step c w x w' → E w' → E w) {p : Program C A α} {w w' : W} {a : α}
    (h : Runs sys p w a w') (hend : E w') : E w ∧ Runs sys.alone p w a w' := by
  induction h with
  | done a w => exact ⟨hend, .done a w⟩
  | interfere hm _ ih => exact absurd (ih hend).1 (hmove _ _ hm)
  | call hs _ ih =>
    obtain ⟨hnext, hrest⟩ := ih hend
    exact ⟨hstep _ _ _ _ hs hnext, .call hs hrest⟩

inductive Traces (sys : System C A W) : Program C A α → W → List (C × W) → α → W → Prop
  | done (a : α) (w : W) : Traces sys (.done a) w [] a w
  | interfere {p : Program C A α} {w w' w'' : W} {a : α} {steps : List (C × W)}
      (hmove : sys.interfere w w') (hrest : Traces sys p w' steps a w'') :
      Traces sys p w steps a w''
  | call {c : C} {next : A c → Program C A α} {w w' w'' : W} {x : A c} {a : α}
      {steps : List (C × W)} (hstep : sys.step c w x w')
      (hrest : Traces sys (next x) w' steps a w'') :
      Traces sys (.call c next) w ((c, w) :: steps) a w''

section Traces
variable {sys : System C A W}

theorem Traces.runs {p : Program C A α} {w w' : W} {steps : List (C × W)} {a : α}
    (h : Traces sys p w steps a w') : Runs sys p w a w' := by
  induction h with
  | done a w => exact .done a w
  | interfere hmove _ ih => exact .interfere hmove ih
  | call hstep _ ih => exact .call hstep ih

theorem Traces.request_bind {c : C} {f : A c → Program C A β} {w w' w'' : W} {x : A c} {b : β}
    {steps : List (C × W)} (hstep : sys.step c w x w') (hrest : Traces sys (f x) w' steps b w'') :
    Traces sys (request c >>= f) w ((c, w) :: steps) b w'' :=
  .call hstep hrest

theorem Traces.bind {p : Program C A α} {f : α → Program C A β} {w w' w'' : W} {a : α} {b : β}
    {first rest : List (C × W)} (hp : Traces sys p w first a w')
    (hf : Traces sys (f a) w' rest b w'') : Traces sys (p >>= f) w (first ++ rest) b w'' := by
  induction hp with
  | done a w => exact hf
  | interfere hmove _ ih => exact .interfere hmove (ih hf)
  | call hstep _ ih => exact .call hstep (ih hf)

theorem Traces.of_bind {p : Program C A α} {f : α → Program C A β} {w w'' : W} {b : β}
    {steps : List (C × W)} (h : Traces sys (p >>= f) w steps b w'') :
    ∃ a w' first rest, steps = first ++ rest ∧ Traces sys p w first a w' ∧
      Traces sys (f a) w' rest b w'' := by
  generalize hq : p >>= f = q at h
  induction h generalizing p with
  | done b w =>
    cases p with
    | done a =>
      have hf : f a = .done b := hq
      exact ⟨a, w, [], [], rfl, .done a w, hf ▸ .done b w⟩
    | call c next => exact absurd hq (by rintro ⟨⟩)
  | interfere hmove hrest ih =>
    obtain ⟨a, w', first, rest, he, hp, hf⟩ := ih hq
    exact ⟨a, w', first, rest, he, .interfere hmove hp, hf⟩
  | @call c next w w' w'' x b steps hstep hrest ih =>
    cases p with
    | done a =>
      have hf : f a = .call c next := hq
      exact ⟨a, w, [], (c, w) :: steps, rfl, .done a w, hf ▸ .call hstep hrest⟩
    | call d after =>
      have hcall : Program.call d (fun answer => (after answer).bind f) = .call c next := hq
      cases hcall
      obtain ⟨a, w₁, first, rest, he, hp, hf⟩ := ih rfl
      exact ⟨a, w₁, (c, w) :: first, rest, congrArg _ he, .call hstep hp, hf⟩

/-! With nobody else at work, each step of a run is a step of the program. -/

variable (hquiet : ∀ w w', ¬ sys.interfere w w')
include hquiet

theorem Traces.done_inv {a b : α} {w w' : W} {steps : List (C × W)}
    (h : Traces sys (.done a) w steps b w') : b = a ∧ steps = [] ∧ w' = w := by
  cases h with
  | done => exact ⟨rfl, rfl, rfl⟩
  | interfere hmove _ => exact absurd hmove (hquiet _ _)

theorem Traces.call_inv {c : C} {next : A c → Program C A α} {w w' : W} {a : α}
    {steps : List (C × W)} (h : Traces sys (.call c next) w steps a w') :
    ∃ x w₁ rest, steps = (c, w) :: rest ∧ sys.step c w x w₁ ∧ Traces sys (next x) w₁ rest a w' := by
  cases h with
  | call hstep hrest => exact ⟨_, _, _, rfl, hstep, hrest⟩
  | interfere hmove _ => exact absurd hmove (hquiet _ _)

theorem Traces.request_inv {c : C} {w w' : W} {x : A c} {steps : List (C × W)}
    (h : Traces sys (request c) w steps x w') : steps = [(c, w)] ∧ sys.step c w x w' := by
  obtain ⟨x', w₁, rest, rfl, hstep, hrest⟩ := Traces.call_inv hquiet h
  obtain ⟨rfl, rfl, rfl⟩ := Traces.done_inv hquiet hrest
  exact ⟨rfl, hstep⟩

end Traces

def Stable (sys : System C A W) (P : W → Prop) : Prop :=
  ∀ w w', sys.interfere w w' → P w → P w'

/-- Whenever the program is started where `P` holds and returns, `Q` holds of its result and
of the world. -/
structure Triple (sys : System C A W) (P : W → Prop) (p : Program C A α) (Q : α → W → Prop) :
    Prop where
  sound : ∀ w a w', P w → Runs sys p w a w' → Q a w'

section Triple
variable {sys : System C A W} {P R : W → Prop} {Q S : α → W → Prop}

theorem Stable.and {P₁ P₂ : W → Prop} (h₁ : Stable sys P₁) (h₂ : Stable sys P₂) :
    Stable sys fun w => P₁ w ∧ P₂ w :=
  fun w w' hmove hw => ⟨h₁ w w' hmove hw.1, h₂ w w' hmove hw.2⟩

theorem Runs.invariant {I : W → Prop} {p : Program C A α} {w w' : W} {a : α}
    (h : Runs sys p w a w') (hstable : Stable sys I)
    (hstep : ∀ c w x w', I w → sys.step c w x w' → I w') (hw : I w) : I w' := by
  induction h with
  | done a w => exact hw
  | interfere hmove _ ih => exact ih (hstable _ _ hmove hw)
  | call hs _ ih => exact ih (hstep _ _ _ _ hw hs)

theorem stable_const (p : Prop) : Stable sys fun _ => p := fun _ _ _ hp => hp

theorem Triple.done {a : α} (hstable : Stable sys P) (h : ∀ w, P w → Q a w) :
    Triple sys P (.done a) Q := by
  constructor
  intro w b w' hw hrun
  generalize hp : Program.done a = p at hrun
  induction hrun with
  | done b w =>
    cases hp
    exact h w hw
  | interfere hmove _ ih => exact ih (hstable _ _ hmove hw) hp
  | call => contradiction

theorem Triple.call {c : C} {next : A c → Program C A α} (R : A c → W → Prop)
    (hstable : Stable sys P) (hstep : ∀ w x w', P w → sys.step c w x w' → R x w')
    (hnext : ∀ x, Triple sys (R x) (next x) Q) : Triple sys P (.call c next) Q := by
  constructor
  intro w b w' hw hrun
  generalize hp : Program.call c next = p at hrun
  induction hrun with
  | done => contradiction
  | interfere hmove _ ih => exact ih (hstable _ _ hmove hw) hp
  | call hs hrest =>
    cases hp
    exact (hnext _).sound _ _ _ (hstep _ _ _ hw hs) hrest

theorem Triple.request {c : C} {R : A c → W → Prop} (hpre : Stable sys P)
    (hpost : ∀ x, Stable sys (R x)) (hstep : ∀ w x w', P w → sys.step c w x w' → R x w') :
    Triple sys P (request c) R :=
  Triple.call R hpre hstep fun x => Triple.done (hpost x) fun _ hw => hw

theorem Triple.bind {p : Program C A β} {f : β → Program C A α} (R : β → W → Prop)
    (hp : Triple sys P p R) (hf : ∀ b, Triple sys (R b) (f b) Q) : Triple sys P (p >>= f) Q := by
  constructor
  intro w a w' hw hrun
  obtain ⟨b, w₁, hrun₁, hrun₂⟩ := hrun.of_bind
  exact (hf b).sound w₁ a w' (hp.sound w b w₁ hw hrun₁) hrun₂

theorem Triple.weaken {p : Program C A α} (h : Triple sys R p S) (hpre : ∀ w, P w → R w)
    (hpost : ∀ a w, S a w → Q a w) : Triple sys P p Q :=
  ⟨fun w a w' hw hrun => hpost a w' (h.sound w a w' (hpre w hw) hrun)⟩

theorem Triple.pre {p : Program C A α} (h : Triple sys R p Q) (hpre : ∀ w, P w → R w) :
    Triple sys P p Q :=
  h.weaken hpre fun _ _ hpost => hpost

theorem Triple.of_exists {ι : Sort*} {P : ι → W → Prop} {p : Program C A α}
    (h : ∀ i, Triple sys (P i) p Q) : Triple sys (fun w => ∃ i, P i w) p Q :=
  ⟨fun w a w' hw hrun => hw.elim fun i hi => (h i).sound w a w' hi hrun⟩

theorem Triple.of_and {φ : Prop} {p : Program C A α} (h : φ → Triple sys P p Q) :
    Triple sys (fun w => φ ∧ P w) p Q :=
  ⟨fun w a w' hw hrun => (h hw.1).sound w a w' hw.2 hrun⟩

theorem Stable.exists {ι : Sort*} {P : ι → W → Prop} (h : ∀ i, Stable sys (P i)) :
    Stable sys fun w => ∃ i, P i w :=
  fun w w' hmove ⟨i, hi⟩ => ⟨i, h i w w' hmove hi⟩

end Triple

section OnOk
variable {sys : System C A W} {P : W → Prop} {ε ε' : Type u}

def OnOk (Q : α → W → Prop) : Except ε α → W → Prop
  | .error _, _ => True
  | .ok a, w => Q a w

theorem stable_onOk {Q : α → W → Prop} (h : ∀ a, Stable sys (Q a)) (result : Except ε α) :
    Stable sys (OnOk Q result) := by
  cases result with
  | error e => exact stable_const True
  | ok a => exact h a

def OnResult (E : ε → W → Prop) (Q : α → W → Prop) : Except ε α → W → Prop
  | .error e, w => E e w
  | .ok a, w => Q a w

theorem stable_onResult {E : ε → W → Prop} {Q : α → W → Prop} (hE : ∀ e, Stable sys (E e))
    (hQ : ∀ a, Stable sys (Q a)) (result : Except ε α) : Stable sys (OnResult E Q result) := by
  cases result with
  | error e => exact hE e
  | ok a => exact hQ a

variable {Q : α → W → Prop}

theorem Triple.error (e : ε) : Triple sys P (pure (Except.error e)) (OnOk Q) :=
  (Triple.done (stable_const True) fun _ _ => trivial).weaken (fun _ _ => trivial) fun _ _ hw => hw

theorem Triple.bind_error {p : Program C A β} {f : β → Program C A (Except ε α)}
    (h : ∀ b, Triple sys (fun _ => True) (f b) (OnOk Q)) : Triple sys P (p >>= f) (OnOk Q) :=
  Triple.bind (fun _ _ => True) ⟨fun _ _ _ _ _ => trivial⟩ h

theorem Triple.bind_onOk {p : Program C A (Except ε' β)} (R : β → W → Prop)
    {f : Except ε' β → Program C A (Except ε α)} (hp : Triple sys P p (OnOk R))
    (herror : ∀ e, Triple sys (fun _ => True) (f (.error e)) (OnOk Q))
    (hok : ∀ b, Triple sys (R b) (f (.ok b)) (OnOk Q)) : Triple sys P (p >>= f) (OnOk Q) := by
  apply Triple.bind (OnOk R) hp
  intro result
  cases result with
  | error e => exact herror e
  | ok b => exact hok b

end OnOk

inductive Issues (sys : System C A W) : Program C A α → W → C → W → Prop
  | here {c : C} {next : A c → Program C A α} {w : W} : Issues sys (.call c next) w c w
  | interfere {p : Program C A α} {w w' w'' : W} {c : C} (hmove : sys.interfere w w')
      (hrest : Issues sys p w' c w'') : Issues sys p w c w''
  | later {c d : C} {next : A c → Program C A α} {w w' w'' : W} {x : A c}
      (hstep : sys.step c w x w') (hrest : Issues sys (next x) w' d w'') :
      Issues sys (.call c next) w d w''

section Issues
variable {sys : System C A W}

theorem Issues.bind_left {p : Program C A α} (f : α → Program C A β) {w w' : W} {c : C}
    (h : Issues sys p w c w') : Issues sys (p >>= f) w c w' := by
  induction h with
  | here => exact .here
  | interfere hmove _ ih => exact .interfere hmove ih
  | later hstep _ ih => exact .later hstep ih

theorem Issues.bind_right {p : Program C A α} {f : α → Program C A β} {w w' w'' : W} {a : α} {c : C}
    (hp : Runs sys p w a w') (hf : Issues sys (f a) w' c w'') : Issues sys (p >>= f) w c w'' := by
  induction hp with
  | done a w => exact hf
  | interfere hmove _ ih => exact .interfere hmove (ih hf)
  | call hstep _ ih => exact .later hstep (ih hf)

theorem Issues.of_bind {p : Program C A α} {f : α → Program C A β} {w w'' : W} {c : C}
    (h : Issues sys (p >>= f) w c w'') :
    Issues sys p w c w'' ∨ ∃ a w', Runs sys p w a w' ∧ Issues sys (f a) w' c w'' := by
  generalize hq : p >>= f = q at h
  induction h generalizing p with
  | @here c next w =>
    cases p with
    | done a =>
      have hf : f a = .call c next := hq
      exact Or.inr ⟨a, w, .done a w, hf ▸ .here⟩
    | call d after =>
      have hcall : Program.call d (fun answer => (after answer).bind f) = .call c next := hq
      cases hcall
      exact Or.inl .here
  | interfere hmove hrest ih =>
    rcases ih hq with hp | ⟨a, w', hp, hf⟩
    · exact Or.inl (.interfere hmove hp)
    · exact Or.inr ⟨a, w', .interfere hmove hp, hf⟩
  | @later c d next w w' w'' x hstep hrest ih =>
    cases p with
    | done a =>
      have hf : f a = .call c next := hq
      exact Or.inr ⟨a, w, .done a w, hf ▸ .later hstep hrest⟩
    | call e after =>
      have hcall : Program.call e (fun answer => (after answer).bind f) = .call c next := hq
      cases hcall
      rcases ih rfl with hp | ⟨a, w₁, hp, hf⟩
      · exact Or.inl (.later hstep hp)
      · exact Or.inr ⟨a, w₁, .call hstep hp, hf⟩

def Program.Only (S : C → Prop) : Program C A α → Prop
  | .done _ => True
  | .call c next => S c ∧ ∀ x, (next x).Only S

theorem only_pure {S : C → Prop} (a : α) : (pure a : Program C A α).Only S := trivial

theorem only_request {S : C → Prop} {c : C} (h : S c) : (request c : Program C A (A c)).Only S :=
  ⟨h, fun _ => trivial⟩

theorem Program.Only.bind {S : C → Prop} {p : Program C A α} {f : α → Program C A β}
    (hp : p.Only S) (hf : ∀ a, (f a).Only S) : (p >>= f).Only S := by
  induction p with
  | done a => exact hf a
  | call c next ih => exact ⟨hp.1, fun x => ih x (hp.2 x)⟩

theorem Program.Only.of_issues {S : C → Prop} {p : Program C A α} {w w' : W} {c : C}
    (hp : p.Only S) (h : Issues sys p w c w') : S c := by
  induction h with
  | here => exact hp.1
  | interfere _ _ ih => exact ih hp
  | later _ _ ih => exact ih (hp.2 _)

theorem Program.Only.invariant {S : C → Prop} {K : W → Prop} {p : Program C A α} {w w' : W} {a : α}
    (hp : p.Only S) (hstable : Stable sys K)
    (hstep : ∀ c w x w', S c → K w → sys.step c w x w' → K w') (h : Runs sys p w a w') (hw : K w) :
    K w' := by
  induction h with
  | done a w => exact hw
  | interfere hmove _ ih => exact ih hp (hstable _ _ hmove hw)
  | call hs _ ih => exact ih (hp.2 _) (hstep _ _ _ _ hp.1 hw hs)

def Program.Yields (R : α → Prop) : Program C A α → Prop
  | .done a => R a
  | .call _ next => ∀ x, (next x).Yields R

theorem yields_pure (a : α) : (pure a : Program C A α).Yields (· = a) := rfl

theorem Program.Yields.bind {R : α → Prop} {Q : β → Prop} {p : Program C A α}
    {f : α → Program C A β} (hp : p.Yields R) (hf : ∀ a, R a → (f a).Yields Q) :
    (p >>= f).Yields Q := by
  induction p with
  | done a => exact hf a hp
  | call c next ih => exact fun x => ih x (hp x)

theorem Program.yields_true (p : Program C A α) : p.Yields fun _ => True := by
  induction p with
  | done a => trivial
  | call c next ih => exact ih

theorem Program.Yields.of_runs {R : α → Prop} {p : Program C A α} {w w' : W} {a : α}
    (hp : p.Yields R) (h : Runs sys p w a w') : R a := by
  induction h with
  | done a w => exact hp
  | interfere _ _ ih => exact ih hp
  | call _ _ ih => exact ih (hp _)

/-- Whenever the program is started where `P` holds, `I` holds of every call at its moment. -/
structure Emits (sys : System C A W) (P : W → Prop) (p : Program C A α) (I : C → W → Prop) :
    Prop where
  sound : ∀ w c w', P w → Issues sys p w c w' → I c w'

variable {P : W → Prop} {I : C → W → Prop}

theorem Emits.only {S : C → Prop} {p : Program C A α} (hp : p.Only S) (h : ∀ c w, S c → I c w) :
    Emits sys P p I :=
  ⟨fun _ c w' _ hissues => h c w' (hp.of_issues hissues)⟩

theorem Emits.call {c : C} {next : A c → Program C A α} (R : A c → W → Prop)
    (hstable : Stable sys P) (hcall : ∀ w, P w → I c w)
    (hstep : ∀ w x w', P w → sys.step c w x w' → R x w') (hnext : ∀ x, Emits sys (R x) (next x) I) :
    Emits sys P (.call c next) I := by
  constructor
  intro w d w' hw hissues
  generalize hp : Program.call c next = p at hissues
  induction hissues with
  | here =>
    cases hp
    exact hcall _ hw
  | interfere hmove _ ih => exact ih (hstable _ _ hmove hw) hp
  | later hs hrest =>
    cases hp
    exact (hnext _).sound _ _ _ (hstep _ _ _ hw hs) hrest

theorem Emits.request {c : C} (hstable : Stable sys P) (hcall : ∀ w, P w → I c w) :
    Emits sys P (request c) I :=
  Emits.call (fun _ _ => True) hstable hcall (fun _ _ _ _ _ => trivial) fun x =>
    Emits.only (only_pure (S := fun _ => False) x) fun _ _ h => h.elim

theorem Emits.bind {p : Program C A β} {f : β → Program C A α} (R : β → W → Prop)
    (hp : Emits sys P p I) (hresult : Triple sys P p R) (hf : ∀ b, Emits sys (R b) (f b) I) :
    Emits sys P (p >>= f) I := by
  constructor
  intro w c w' hw hissues
  rcases hissues.of_bind with hfirst | ⟨b, w₁, hrun, hrest⟩
  · exact hp.sound w c w' hw hfirst
  · exact (hf b).sound w₁ c w' (hresult.sound w b w₁ hw hrun) hrest

theorem emits_bind_iff {p : Program C A β} {f : β → Program C A α} {w : W} :
    Emits sys (· = w) (p >>= f) I ↔
      Emits sys (· = w) p I ∧ ∀ b w', Runs sys p w b w' → Emits sys (· = w') (f b) I := by
  constructor
  · intro h
    refine ⟨⟨?_⟩, ?_⟩
    · intro w₁ c w' hw hissues
      exact h.sound w₁ c w' hw (hissues.bind_left f)
    · intro b w₁ hrun
      constructor
      intro w₂ c w' hw hissues
      rw [hw] at hissues
      exact h.sound w c w' rfl (hissues.bind_right hrun)
  · rintro ⟨hp, hf⟩
    constructor
    intro w₂ c w' hw hissues
    rw [hw] at hissues
    rcases hissues.of_bind with hfirst | ⟨b, w₁, hrun, hrest⟩
    · exact hp.sound w c w' rfl hfirst
    · exact (hf b w₁ hrun).sound w₁ c w' rfl hrest

end Issues

section Undisturbed
variable {sys : System C A W} (hquiet : ∀ w w', ¬ sys.interfere w w') {I : C → W → Prop}
include hquiet

theorem runs_pure_iff {a b : α} {w w' : W} :
    Runs sys (pure a : Program C A α) w b w' ↔ b = a ∧ w' = w := by
  constructor
  · intro h
    exact (returns_done (hquiet w) a).unique b w' h
  · rintro ⟨rfl, rfl⟩
    exact .done b w'

theorem runs_request_iff {c : C} {x : A c} {w w' : W} :
    Runs sys (request c) w x w' ↔ sys.step c w x w' := by
  constructor
  · intro h
    cases h with
    | interfere hmove _ => exact absurd hmove (hquiet _ _)
    | call hstep hrest =>
      obtain ⟨rfl, rfl⟩ := (runs_pure_iff hquiet).mp hrest
      exact hstep
  · intro h
    exact .call h (.done x w')

theorem emits_request_iff {c : C} {w : W} : Emits sys (· = w) (request c) I ↔ I c w := by
  constructor
  · intro h
    exact h.sound w c w rfl .here
  · intro h
    apply Emits.request
    · intro w₁ w₂ hmove _
      exact absurd hmove (hquiet _ _)
    · rintro _ rfl
      exact h

variable {c : C} {a : A c} {w w₁ : W} (hstep : ∀ x w', sys.step c w x w' ↔ x = a ∧ w' = w₁)
include hstep

/-! A call that can do one thing only. -/

theorem runs_step_bind_iff {f : A c → Program C A β} {b : β} {w' : W} :
    Runs sys (request c >>= f) w b w' ↔ Runs sys (f a) w₁ b w' := by
  constructor
  · intro h
    obtain ⟨x, w₂, hcall, hrest⟩ := h.of_bind
    obtain ⟨rfl, rfl⟩ := (hstep x w₂).mp ((runs_request_iff hquiet).mp hcall)
    exact hrest
  · intro h
    exact .request_bind ((hstep a w₁).mpr ⟨rfl, rfl⟩) h

theorem emits_step_bind_iff {f : A c → Program C A β} (hcall : I c w) :
    Emits sys (· = w) (request c >>= f) I ↔ Emits sys (· = w₁) (f a) I := by
  rw [emits_bind_iff, emits_request_iff hquiet, and_iff_right hcall]
  constructor
  · intro h
    exact h a w₁ ((runs_request_iff hquiet).mpr ((hstep a w₁).mpr ⟨rfl, rfl⟩))
  · intro h x w₂ hrun
    obtain ⟨rfl, rfl⟩ := (hstep x w₂).mp ((runs_request_iff hquiet).mp hrun)
    exact h

end Undisturbed

/-- A system with a record that the calls keep and that nothing depends on. -/
def System.withGhost {G : Type*} (sys : System C A W) (update : (c : C) → A c → W → G → G) :
    System C A (W × G) where
  step c s x s' := sys.step c s.1 x s'.1 ∧ s'.2 = update c x s'.1 s.2
  interfere s s' := sys.interfere s.1 s'.1 ∧ s'.2 = s.2

end CallProgram
