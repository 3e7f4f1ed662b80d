import Mathlib.Data.List.DropRight
import Mathlib.Data.List.Infix
import Mathlib.Tactic.IntervalCases

/-! Scanning and numerals over texts. Positions count characters. -/
namespace TextScan
open List

abbrev Text := List Char

theorem forall_mem_of_all {p : Char → Prop} [DecidablePred p] {s : Text}
    (h : s.all (fun c => decide (p c)) = true) : ∀ c ∈ s, p c :=
  fun c hc => of_decide_eq_true (all_eq_true.mp h c hc)

def find (pat : Text) : Text → Option ℕ
  | [] => if pat = [] then some 0 else none
  | c :: s => if pat <+: c :: s then some 0 else (find pat s).map (· + 1)

def contains (s pat : Text) : Bool := (find pat s).isSome

def isWhitespace (c : Char) : Bool :=
  let n := c.toNat
  (9 ≤ n && n ≤ 13) || n == 32 || n == 0x85 || n == 0xA0 || n == 0x1680 ||
    (0x2000 ≤ n && n ≤ 0x200A) || n == 0x2028 || n == 0x2029 || n == 0x202F ||
    n == 0x205F || n == 0x3000

def trim (s : Text) : Text := (s.dropWhile isWhitespace).rdropWhile isWhitespace

def eqIgnoreAsciiCase (s t : Text) : Bool := s.map Char.toLower = t.map Char.toLower

variable (c : Char)

theorem find_char_append (pre post : Text) (h : c ∉ pre) :
    find [c] (pre ++ c :: post) = some pre.length := by
  induction pre with
  | nil => simp [find]
  | cons d pre ih =>
    have hd : c ≠ d := fun he => h (by simp [he])
    have hp : c ∉ pre := fun hm => h (by simp [hm])
    simp [find, hd, ih hp]

theorem find_pair_skip (a b : Char) (pre t : Text) (h : b ∉ pre) (ht : t.head? ≠ some b) :
    find [a, b] (pre ++ t) = (find [a, b] t).map (· + pre.length) := by
  induction pre with
  | nil => simp
  | cons c pre ih =>
    have hp : b ∉ pre := fun hm => h (by simp [hm])
    have hn : ¬ [a, b] <+: c :: (pre ++ t) := by
      intro hh
      obtain ⟨-, htail⟩ := cons_prefix_cons.mp hh
      cases pre with
      | nil =>
        cases t with
        | nil => simp at htail
        | cons e t =>
          obtain ⟨he, -⟩ := cons_prefix_cons.mp htail
          exact ht (by simp [he])
      | cons e pre =>
        obtain ⟨he, -⟩ := cons_prefix_cons.mp htail
        exact hp (by simp [he])
    simp only [cons_append, find, hn, ↓reduceIte, ih hp, Option.map_map, length_cons]
    congr 1

theorem find_pair_hit (a b : Char) (t : Text) : find [a, b] (a :: b :: t) = some 0 := by
  simp [find]

theorem find_pair_miss (a b c : Char) (t : Text) (hc : c ≠ a) (hab : a ≠ b) :
    find [a, b] (c :: b :: t) = (find [a, b] t).map (· + 2) := by
  have h1 : ¬ [a, b] <+: c :: b :: t := fun hh => hc (cons_prefix_cons.mp hh).1.symm
  have h2 : ¬ [a, b] <+: b :: t := fun hh => hab (cons_prefix_cons.mp hh).1
  simp only [find, h1, h2, ↓reduceIte, Option.map_map]
  congr 1

variable (s : Text)

theorem contains_iff_isInfix (pat : Text) : contains s pat = true ↔ pat <:+: s := by
  induction s with
  | nil =>
    unfold contains find
    split <;> simp_all
  | cons c s ih =>
    rw [infix_cons_iff, ← ih, contains, contains, find]
    by_cases hp : pat <+: c :: s
    · simp [hp]
    · simp [hp]

def pairText {τ : Type*} (letters : τ → Char × Char) (tokens : List τ) : Text :=
  tokens.flatMap fun t => [(letters t).1, (letters t).2]

theorem pair_infix_pairText {τ : Type*} (letters : τ → Char × Char) (tokens : List τ) (a b : Char) :
    [a, b] <:+: pairText letters tokens ↔
      (∃ t ∈ tokens, letters t = (a, b)) ∨
      ∃ p q, [p, q] <:+: tokens ∧ (letters p).2 = a ∧ (letters q).1 = b := by
  induction tokens with
  | nil => simp [pairText]
  | cons t tokens ih =>
    have hcons : pairText letters (t :: tokens) =
        (letters t).1 :: (letters t).2 :: pairText letters tokens := rfl
    have hhere : [a, b] <+: (letters t).1 :: (letters t).2 :: pairText letters tokens ↔
        letters t = (a, b) := by
      simp only [cons_prefix_cons, nil_prefix, and_true, Prod.ext_iff, eq_comm]
    have hnext : [a, b] <+: (letters t).2 :: pairText letters tokens ↔
        ∃ q, [t, q] <+: t :: tokens ∧ (letters t).2 = a ∧ (letters q).1 = b := by
      cases tokens with
      | nil => simp [pairText]
      | cons q tokens => simp [pairText, cons_prefix_cons, eq_comm]
    rw [hcons, infix_cons_iff, infix_cons_iff, hhere, hnext, ih]
    constructor
    · rintro (h | ⟨q, hq, h⟩ | ⟨u, hu, h⟩ | ⟨p, q, hpq, h⟩)
      · exact Or.inl ⟨t, mem_cons_self, h⟩
      · exact Or.inr ⟨t, q, hq.isInfix, h⟩
      · exact Or.inl ⟨u, mem_cons_of_mem t hu, h⟩
      · exact Or.inr ⟨p, q, infix_cons_iff.mpr (Or.inr hpq), h⟩
    · rintro (⟨u, hu, h⟩ | ⟨p, q, hpq, h⟩)
      · rcases mem_cons.mp hu with rfl | hu
        · exact Or.inl h
        · exact Or.inr (Or.inr (Or.inl ⟨u, hu, h⟩))
      · rcases infix_cons_iff.mp hpq with hp | hp
        · obtain rfl : p = t := (cons_prefix_cons.mp hp).1
          exact Or.inr (Or.inl ⟨q, hp, h⟩)
        · exact Or.inr (Or.inr (Or.inr ⟨p, q, hp, h⟩))

theorem trim_eq_self (h : ∀ c ∈ s, isWhitespace c = false) : trim s = s := by
  have hd : s.dropWhile isWhitespace = s := by
    cases s with
    | nil => rfl
    | cons c s => simp [h c (by simp)]
  rw [trim, hd, rdropWhile_eq_self_iff]
  intro hs
  simp [h _ (getLast_mem hs)]

def digitVal (radix : ℕ) (c : Char) : Option ℕ :=
  let n := c.toNat
  let d := if 48 ≤ n ∧ n ≤ 57 then n - 48
    else if 97 ≤ n ∧ n ≤ 122 then n - 87
    else if 65 ≤ n ∧ n ≤ 90 then n - 55
    else 36
  if d < radix then some d else none

def digitsValue (radix : ℕ) : ℕ → Text → Option ℕ
  | acc, [] => some acc
  | acc, c :: s => (digitVal radix c).bind fun d => digitsValue radix (acc * radix + d) s

def unsign : Text → Text
  | '+' :: s => s
  | s => s

/-- Reading an unsigned number below a bound: an optional `+`, then at least one
digit. Leading zeros are accepted. -/
def fromStrRadix (radix bound : ℕ) (s : Text) : Option ℕ :=
  if unsign s = [] then none
  else (digitsValue radix 0 (unsign s)).filter (· < bound)

def decimal (n : ℕ) : Text := Nat.toDigits 10 n

def hexUpper (n : ℕ) : Text := (Nat.toDigits 16 n).map Char.toUpper

def padZeros (width : ℕ) (s : Text) : Text := List.replicate (width - s.length) '0' ++ s

variable (radix acc : ℕ)

theorem digitsValue_append (s t : Text) :
    digitsValue radix acc (s ++ t) =
      (digitsValue radix acc s).bind fun v => digitsValue radix v t := by
  induction s generalizing acc with
  | nil => rfl
  | cons c s ih =>
    simp only [cons_append, digitsValue]
    cases digitVal radix c with
    | none => rfl
    | some d => simp [ih]

theorem digitVal_lt {radix d : ℕ} {c : Char} (h : digitVal radix c = some d) : d < radix := by
  unfold digitVal at h
  dsimp only at h
  split_ifs at h
  all_goals
    cases h
    assumption

theorem digitsValue_bounds (v : ℕ) (s : Text) (h : digitsValue radix acc s = some v) :
    acc*radix^s.length ≤ v ∧ v < (acc+1)*radix^s.length := by
  induction s generalizing acc with
  | nil =>
    simp only [digitsValue, Option.some.injEq] at h
    simp [h]
  | cons c s ih =>
    rw [digitsValue] at h
    obtain ⟨d, hd, hrest⟩ := Option.bind_eq_some_iff.mp h
    have hlt := digitVal_lt hd
    obtain ⟨hlow, hhigh⟩ := ih (acc*radix+d) hrest
    rw [length_cons, pow_succ']
    constructor
    · calc acc*(radix*radix^s.length) = acc*radix*radix^s.length := by rw [Nat.mul_assoc]
        _ ≤ (acc*radix+d)*radix^s.length := Nat.mul_le_mul_right _ (Nat.le_add_right _ _)
        _ ≤ v := hlow
    · calc v < (acc*radix+d+1)*radix^s.length := hhigh
        _ ≤ (acc+1)*radix*radix^s.length := by
          apply Nat.mul_le_mul_right
          rw [Nat.add_mul]
          omega
        _ = (acc+1)*(radix*radix^s.length) := Nat.mul_assoc _ _ _

theorem digitsValue_toDigits (b : ℕ) (f : Char → Char) (hb : 1 < b)
    (hf : ∀ d < b, digitVal b (f (Nat.digitChar d)) = some d) (n : ℕ) :
    digitsValue b 0 ((Nat.toDigits b n).map f) = some n := by
  induction n using Nat.strongRecOn with
  | ind n ih =>
    rw [Nat.toDigits_eq_if hb]
    split
    next hn => simp [digitsValue, hf n hn]
    next hn =>
      have hlt : n / b < n := Nat.div_lt_self (by omega) hb
      have hm : n % b < b := Nat.mod_lt n (by omega)
      rw [map_append, digitsValue_append, ih (n / b) hlt]
      simp only [Option.bind_some, map_cons, map_nil, digitsValue, hf _ hm]
      rw [Nat.div_add_mod']

theorem digitVal_digitChar (d : ℕ) (hd : d < 10) : digitVal 10 (Nat.digitChar d) = some d := by
  interval_cases d <;> rfl

theorem digitVal_hexUpper (d : ℕ) (hd : d < 16) :
    digitVal 16 (Nat.digitChar d).toUpper = some d := by
  interval_cases d <;> rfl

variable (n : ℕ)

theorem digitsValue_decimal : digitsValue 10 0 (decimal n) = some n := by
  have h := digitsValue_toDigits 10 id (by decide) digitVal_digitChar n
  simpa [decimal] using h

theorem digitsValue_hexUpper : digitsValue 16 0 (hexUpper n) = some n :=
  digitsValue_toDigits 16 Char.toUpper (by decide) digitVal_hexUpper n

theorem isDigit_of_mem_decimal (c : Char) (h : c ∈ decimal n) : c.isDigit = true :=
  Nat.isDigit_of_mem_toDigits (by decide) (by decide) h

theorem decimal_ne_nil : decimal n ≠ [] := Nat.toDigits_ne_nil

theorem isDigit_iff : c.isDigit = true ↔ 48 ≤ c.toNat ∧ c.toNat ≤ 57 := by
  rw [Char.isDigit_iff_toNat]
  rfl

theorem unsign_eq_self (hp : s.head? ≠ some '+') : unsign s = s := by
  unfold unsign
  split
  · exact absurd rfl hp
  · rfl

variable (bound : ℕ)

theorem fromStrRadix_of_head (n : ℕ) (s : Text) (hs : s ≠ []) (hp : s.head? ≠ some '+')
    (hv : digitsValue radix 0 s = some n) (hn : n < bound) :
    fromStrRadix radix bound s = some n := by
  rw [fromStrRadix, unsign_eq_self s hp, if_neg hs, hv]
  simp [hn]

theorem fromStrRadix_decimal (n : ℕ) (hn : n < bound) :
    fromStrRadix 10 bound (decimal n) = some n := by
  apply fromStrRadix_of_head _ _ _ _ (decimal_ne_nil n) _ (digitsValue_decimal n) hn
  intro hh
  have hd := isDigit_of_mem_decimal n '+' (mem_of_head? hh)
  exact absurd hd (by decide)

theorem mem_toDigits_sixteen (c : Char) (h : c ∈ Nat.toDigits 16 n) :
    ∃ d, c = Nat.digitChar d ∧ d < 16 := by
  induction n using Nat.strongRecOn with
  | ind n ih =>
    rw [Nat.toDigits_eq_if (by decide)] at h
    split at h
    next hn => exact ⟨n, by simpa using h, hn⟩
    next hn =>
      rcases mem_append.mp h with h | h
      · exact ih (n/16) (Nat.div_lt_self (by omega) (by decide)) h
      · exact ⟨n % 16, by simpa using h, Nat.mod_lt _ (by decide)⟩

theorem hexUpper_ne_nil : hexUpper n ≠ [] := by
  simp [hexUpper, Nat.toDigits_ne_nil]

def CanonicalNumeral (s : Text) : Prop :=
  s ≠ [] ∧ (∀ c ∈ s, c.isDigit = true) ∧ (s.head? = some '0' → s = ['0'])

instance (s : Text) : Decidable (CanonicalNumeral s) :=
  decidable_of_iff (s ≠ [] ∧ s.all Char.isDigit = true ∧ (s.head? = some '0' → s = ['0']))
    (by rw [all_eq_true, CanonicalNumeral])

theorem digitVal_of_isDigit (h : c.isDigit = true) : digitVal 10 c = some (c.toNat-48) := by
  have hc := (isDigit_iff c).mp h
  simp only [digitVal, hc, and_self, ↓reduceIte]
  rw [if_pos (by omega)]

theorem exists_digitsValue (s : Text) (hs : ∀ c ∈ s, c.isDigit = true) :
    ∃ v, digitsValue 10 acc s = some v := by
  induction s generalizing acc with
  | nil => exact ⟨acc, rfl⟩
  | cons c s ih =>
    rw [digitsValue, digitVal_of_isDigit c (hs c mem_cons_self), Option.bind_some]
    exact ih _ fun d hd => hs d (mem_cons_of_mem _ hd)

theorem digitChar_of_isDigit (h : c.isDigit = true) : Nat.digitChar (c.toNat-48) = c := by
  have hc := (isDigit_iff c).mp h
  apply Char.toNat_inj.mp
  rw [Nat.toNat_digitChar_of_lt_ten (by omega)]
  omega

theorem toDigits_append_read (ha : 0 < acc) (hd : ∀ c ∈ s, c.isDigit = true)
    (h : digitsValue 10 acc s = some n) : Nat.toDigits 10 acc ++ s = Nat.toDigits 10 n := by
  induction s generalizing acc with
  | nil =>
    simp only [digitsValue, Option.some.injEq] at h
    simp [h]
  | cons c s ih =>
    have hc := hd c (by simp)
    have hr := (isDigit_iff c).mp hc
    simp only [digitsValue, digitVal_of_isDigit c hc, Option.bind_some] at h
    have ht := ih (acc*10+(c.toNat-48)) (by omega) (fun e he => hd e (by simp [he])) h
    have hp := Nat.toDigits_append_toDigits (b := 10) (n := acc) (d := c.toNat-48)
      (by decide) ha (by omega)
    have h1 : Nat.toDigits 10 (c.toNat-48) = [c] := by
      rw [Nat.toDigits_of_lt_base (by omega), digitChar_of_isDigit c hc]
    rw [h1, Nat.mul_comm] at hp
    rw [← ht, ← hp, append_assoc, singleton_append]

theorem decimal_eq_of_canonical (hs : CanonicalNumeral s) (h : digitsValue 10 0 s = some n) :
    decimal n = s := by
  obtain ⟨hne, hd, hz⟩ := hs
  cases s with
  | nil => exact absurd rfl hne
  | cons c s =>
    have hc := hd c (by simp)
    have hr := (isDigit_iff c).mp hc
    by_cases h0 : c = '0'
    · have hs0 := hz (by simp [h0])
      rw [hs0] at h
      have hn : n = 0 := by simpa [digitsValue, digitVal] using h.symm
      rw [hn, hs0]
      rfl
    · have hp : 0 < c.toNat-48 := by
        have : c.toNat ≠ 48 := fun he => h0 (Char.toNat_inj.mp he)
        omega
      simp only [digitsValue, digitVal_of_isDigit c hc, Option.bind_some, Nat.zero_mul,
        Nat.zero_add] at h
      have ht := toDigits_append_read s (c.toNat-48) n hp (fun e he => hd e (by simp [he])) h
      rw [Nat.toDigits_of_lt_base (by omega), digitChar_of_isDigit c hc] at ht
      exact ht.symm

theorem decimal_canonical : CanonicalNumeral (decimal n) := by
  refine ⟨decimal_ne_nil n, isDigit_of_mem_decimal n, ?_⟩
  induction n using Nat.strongRecOn with
  | ind n ih =>
    intro hh
    rw [decimal, Nat.toDigits_eq_if (by decide)] at hh ⊢
    split at hh
    next hn =>
      have h0 : Nat.digitChar n = '0' := by simpa using hh
      simp only [hn, ↓reduceIte, h0]
    next hn =>
      -- a leading zero would make the quotient's numeral the numeral of zero
      have hq : (decimal (n/10)).head? = some '0' := by
        cases hd : Nat.toDigits 10 (n/10) with
        | nil => exact absurd hd Nat.toDigits_ne_nil
        | cons c s =>
          rw [hd] at hh
          simpa [decimal, hd] using hh
      have hz := ih (n/10) (Nat.div_lt_self (by omega) (by decide)) hq
      have hv := digitsValue_decimal (n/10)
      rw [hz] at hv
      have : n/10 = 0 := by simpa [digitsValue, digitVal] using hv.symm
      omega

theorem fromStrRadix_canonical_iff (n : ℕ) (s : Text) (h : fromStrRadix 10 bound s = some n) :
    decimal n = s ↔ CanonicalNumeral s := by
  constructor
  · intro he
    exact he ▸ decimal_canonical n
  · intro hc
    apply decimal_eq_of_canonical s n hc
    have hp : s.head? ≠ some '+' := by
      intro hh
      exact absurd (hc.2.1 '+' (mem_of_head? hh)) (by decide)
    rw [fromStrRadix, unsign_eq_self s hp, if_neg hc.1] at h
    exact (Option.filter_eq_some_iff.mp h).1

theorem fromStrRadix_lt (n : ℕ) (s : Text) (h : fromStrRadix radix bound s = some n) : n < bound := by
  simp only [fromStrRadix] at h
  split at h
  · contradiction
  · simpa using (Option.filter_eq_some_iff.mp h).2

theorem fromStrRadix_hexUpper (n : ℕ) (hn : n < bound) :
    fromStrRadix 16 bound (hexUpper n) = some n := by
  apply fromStrRadix_of_head _ _ _ _ (hexUpper_ne_nil n) _ (digitsValue_hexUpper n) hn
  intro hh
  obtain ⟨c, hc, he⟩ := mem_map.mp (mem_of_head? hh)
  obtain ⟨d, hd, hlt⟩ := mem_toDigits_sixteen n c hc
  rw [hd] at he
  interval_cases d <;> exact absurd he (by decide)

theorem mem_fromStrRadix_ten (n : ℕ) (s : Text) (h : fromStrRadix 10 bound s = some n) (c : Char)
    (hc : c ∈ s) : c = '+' ∨ c.isDigit = true := by
  have hdigits (acc : ℕ) (t : Text) (ht : (digitsValue 10 acc t).isSome) :
      ∀ d ∈ t, d.isDigit = true := by
    induction t generalizing acc with
    | nil => simp
    | cons d t ih =>
      cases hd : digitVal 10 d with
      | none => simp [digitsValue, hd] at ht
      | some x =>
        rw [digitsValue, hd, Option.bind_some] at ht
        have hdig : d.isDigit = true := by
          simp only [digitVal] at hd
          rw [isDigit_iff]
          split_ifs at hd <;> omega
        intro e he
        rcases mem_cons.mp he with rfl | he
        · exact hdig
        · exact ih _ ht e he
  rw [fromStrRadix] at h
  split at h
  · contradiction
  · have hv := (Option.filter_eq_some_iff.mp h).1
    have hall := hdigits 0 (unsign s) (by simp [hv])
    unfold unsign at hall
    split at hall
    · rcases mem_cons.mp hc with rfl | hc
      · exact Or.inl rfl
      · exact Or.inr (hall c hc)
    · exact Or.inr (hall c hc)

theorem mem_hexUpper (c : Char) (h : c ∈ hexUpper n) : c ∈ "0123456789ABCDEF".toList := by
  obtain ⟨e, he, rfl⟩ := mem_map.mp h
  obtain ⟨d, rfl, hd⟩ := mem_toDigits_sixteen n e he
  interval_cases d <;> decide

theorem mem_intercalate (sep : Text) (c : Char) (parts : List Text)
    (h : c ∈ sep.intercalate parts) : c ∈ sep ∨ ∃ part ∈ parts, c ∈ part := by
  induction parts with
  | nil => simp [List.intercalate] at h
  | cons p parts ih =>
    cases parts with
    | nil => exact Or.inr ⟨p, by simp, by simpa [List.intercalate] using h⟩
    | cons q parts =>
      simp only [List.intercalate, intersperse_cons_cons, flatten_cons, mem_append] at h ih
      rcases h with h | h | h
      · exact Or.inr ⟨p, by simp, h⟩
      · exact Or.inl h
      · rcases ih h with h | ⟨r, hr, hc⟩
        · exact Or.inl h
        · exact Or.inr ⟨r, by simp [hr], hc⟩

theorem toLower_eq_s (h : c.toLower = 's') : c = 'S' ∨ c = 's' := by
  delta Char.toLower at h
  split at h
  next hu =>
    have hh : c.val + ('a'.val - 'A'.val) = 'S'.val + ('a'.val - 'A'.val) := congrArg Char.val h
    exact Or.inl (Char.ext ((UInt32.add_left_inj _).mp hh))
  next => exact Or.inr h

end TextScan
