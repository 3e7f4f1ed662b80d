import WindowsErg.DelimitedItems

/-! Command lines after the documented rules of `CommandLineToArgvW`. -/
namespace ArgvSyntax
open List DelimitedItems

def isBlank (c : Char) : Bool := c = ' ' || c = '\t'

/-- An argument that is being read: its characters so far, the backslashes that came after them, and
whether this is between two quotation marks. -/
structure Reading where
  text : List Char
  backslashes : ℕ
  quoted : Bool

def Reading.start : Reading := ⟨[], 0, false⟩

def Reading.whole (r : Reading) : List Char := r.text ++ List.replicate r.backslashes '\\'

def Reading.push (r : Reading) (c : Char) : Reading :=
  if c = '\\' then { r with backslashes := r.backslashes+1 } else ⟨r.whole ++ [c], 0, r.quoted⟩

/-- A quotation mark. Two backslashes in front of it are one, and one that is left over makes it a
character of the argument. -/
def Reading.mark (r : Reading) : Reading :=
  let text := r.text ++ List.replicate (r.backslashes/2) '\\'
  if r.backslashes%2 = 1 then ⟨text ++ ['"'], 0, r.quoted⟩ else ⟨text, 0, !r.quoted⟩

def Reading.next (r : Reading) (c : Char) : Option Reading :=
  if c = '"' then some r.mark
  else if isBlank c && !r.quoted then none
  else some (r.push c)

def arguments : Option Reading → List Char → List (List Char)
  | none, [] => []
  | some r, [] => [r.whole]
  | none, c :: text =>
    if isBlank c then arguments none text else arguments (Reading.start.next c) text
  | some r, c :: text =>
    match r.next c with
    | none => r.whole :: arguments none text
    | some r => arguments (some r) text

def programName : List Char → List Char × List Char
  | '"' :: text => (text.takeWhile (· ≠ '"'), (text.dropWhile (· ≠ '"')).drop 1)
  | text => (text.takeWhile fun c => !isBlank c, text.dropWhile fun c => !isBlank c)

/-- A command line that is not empty ends at its first NUL. -/
def commandLineToArgv (commandLine : List Char) : List (List Char) :=
  let parts := programName (commandLine.takeWhile (· ≠ Char.ofNat 0))
  parts.1 :: arguments none parts.2

example : commandLineToArgv "\"C:\\a b\" x \"y z\" \\\\\"q\\\" r\"".toList =
    ["C:\\a b".toList, "x".toList, "y z".toList, "\\q\" r".toList] := by decide

structure Plain (argument : List Char) : Prop where
  ne_nil : argument ≠ []
  blank : ∀ c ∈ argument, isBlank c = false
  mark : '"' ∉ argument

theorem whole_push (r : Reading) (c : Char) : (r.push c).whole = r.whole ++ [c] := by
  unfold Reading.push
  split
  · next hc => simp [Reading.whole, replicate_succ', hc]
  · simp [Reading.whole]

theorem quoted_push (r : Reading) (c : Char) : (r.push c).quoted = r.quoted := by
  unfold Reading.push
  split <;> rfl

theorem next_plain (r : Reading) {c : Char} (hblank : isBlank c = false) (hmark : c ≠ '"') :
    r.next c = some (r.push c) := by
  simp [Reading.next, hblank, hmark]

theorem next_blank {r : Reading} (hr : r.quoted = false) {c : Char} (hblank : isBlank c = true) :
    r.next c = none := by
  have hmark : c ≠ '"' := by
    rintro rfl
    contradiction
  simp [Reading.next, hblank, hmark, hr]

theorem arguments_append {word : List Char} (hblank : ∀ c ∈ word, isBlank c = false)
    (hmark : '"' ∉ word) (r : Reading) (text : List Char) :
    ∃ r' : Reading, arguments (some r) (word ++ text) = arguments (some r') text ∧
      r'.whole = r.whole ++ word ∧ r'.quoted = r.quoted := by
  induction word generalizing r with
  | nil => exact ⟨r, rfl, (append_nil _).symm, rfl⟩
  | cons c word ih =>
    obtain ⟨hc, hword⟩ := forall_mem_cons.mp hblank
    obtain ⟨hne, hmarks⟩ := not_or.mp (mt mem_cons.mpr hmark)
    obtain ⟨r', hread, hwhole, hquoted⟩ := ih hword hmarks (r.push c)
    refine ⟨r', ?_, ?_, hquoted.trans (quoted_push r c)⟩
    · rw [← hread, cons_append, arguments, next_plain r hc (Ne.symm hne)]
    · rw [hwhole, whole_push, append_assoc, singleton_append]

theorem arguments_plain {argument : List Char} (h : Plain argument) (text : List Char) :
    ∃ r : Reading, arguments none (argument ++ text) = arguments (some r) text ∧
      r.whole = argument ∧ r.quoted = false := by
  cases argument with
  | nil => exact absurd rfl h.ne_nil
  | cons c word =>
    obtain ⟨hc, hword⟩ := forall_mem_cons.mp h.blank
    obtain ⟨hne, hmarks⟩ := not_or.mp (mt mem_cons.mpr h.mark)
    obtain ⟨r, hread, hwhole, hquoted⟩ := arguments_append hword hmarks (Reading.start.push c) text
    refine ⟨r, ?_, ?_, hquoted.trans (quoted_push _ c)⟩
    · rw [← hread, cons_append, arguments, hc, next_plain _ hc (Ne.symm hne)]
      rfl
    · rw [hwhole, whole_push]
      rfl

theorem arguments_intercalate {items : List (List Char)} (h : ∀ item ∈ items, Plain item) :
    arguments none ([' '].intercalate items) = items := by
  induction items with
  | nil => rfl
  | cons item items ih =>
    obtain ⟨hitem, hitems⟩ := forall_mem_cons.mp h
    cases items with
    | nil =>
      obtain ⟨r, hread, hwhole, -⟩ := arguments_plain hitem []
      rw [intercalate_singleton, ← append_nil item, hread, arguments, hwhole, append_nil]
    | cons second items =>
      obtain ⟨r, hread, hwhole, hquoted⟩ :=
        arguments_plain hitem (' ' :: [' '].intercalate (second :: items))
      rw [intercalate_cons_cons, append_assoc, singleton_append, hread, arguments,
        next_blank hquoted rfl, hwhole, ih hitems]

theorem plain_of_mem_arguments {text : List Char} (hmark : '"' ∉ text) {state : Option Reading}
    (hstate : ∀ r ∈ state, Plain r.whole ∧ r.quoted = false) :
    ∀ argument ∈ arguments state text, Plain argument := by
  induction text generalizing state with
  | nil =>
    cases state with
    | none => simp [arguments]
    | some r =>
      intro argument hargument
      rw [mem_singleton.mp hargument]
      exact (hstate r rfl).1
  | cons c text ih =>
    obtain ⟨hne, hmarks⟩ := not_or.mp (mt mem_cons.mpr hmark)
    -- one more character keeps an argument plain, also the first one, when `r` is still empty
    have hpush (r : Reading) (hc : isBlank c = false) (hblank : ∀ d ∈ r.whole, isBlank d = false)
        (hwhole : '"' ∉ r.whole) (hquoted : r.quoted = false) :
        ∀ r' ∈ some (r.push c), Plain r'.whole ∧ r'.quoted = false := by
      rintro r' ⟨⟩
      rw [quoted_push, whole_push]
      refine ⟨⟨by simp, ?_, ?_⟩, hquoted⟩
      · simpa [or_imp, forall_and, hc] using hblank
      · simpa [hne] using hwhole
    cases state with
    | none =>
      rw [arguments]
      split
      · exact ih hmarks (by simp)
      · next hc =>
        have hplain : isBlank c = false := by simpa using hc
        rw [next_plain _ hplain (Ne.symm hne)]
        exact ih hmarks (hpush _ hplain (by simp [Reading.whole, Reading.start])
          (by simp [Reading.whole, Reading.start]) rfl)
    | some r =>
      obtain ⟨hwhole, hquoted⟩ := hstate r rfl
      rw [arguments]
      by_cases hc : isBlank c = true
      · rw [next_blank hquoted hc]
        exact forall_mem_cons.mpr ⟨hwhole, ih hmarks (by simp)⟩
      · have hplain : isBlank c = false := by simpa using hc
        rw [next_plain r hplain (Ne.symm hne)]
        exact ih hmarks (hpush r hplain hwhole.blank hwhole.mark hquoted)

def size : Option Reading → ℕ
  | none => 1
  | some r => r.text.length+r.backslashes+1

theorem length_whole (r : Reading) : r.whole.length+1 = size (some r) := by
  simp [Reading.whole, size]

theorem size_push (r : Reading) (c : Char) : size (some (r.push c)) = size (some r)+1 := by
  rw [← length_whole, ← length_whole, whole_push, length_append, length_singleton]

theorem size_mark_le (r : Reading) : size (some r.mark) ≤ size (some r) := by
  unfold Reading.mark size
  dsimp only
  split
  · simp only [length_append, length_replicate, length_singleton]
    omega
  · simp only [length_append, length_replicate]
    omega

theorem room_arguments_le (state : Option Reading) (text : List Char) :
    room (arguments state text)+(if '"' ∈ text then 1 else 0) ≤ size state+text.length := by
  induction text generalizing state with
  | nil =>
    cases state with
    | none => simp [arguments, size]
    | some r => simp [arguments, length_whole]
  | cons c text ih =>
    have hlength : (c :: text).length = text.length+1 := rfl
    have hmark : (if '"' ∈ c :: text then 1 else 0) ≤
        (if '"' ∈ text then 1 else 0)+(if c = '"' then 1 else 0) := by
      by_cases hc : c = '"' <;> by_cases htext : '"' ∈ text <;> simp [hc, htext, eq_comm]
    -- a character that does not end an argument: a mark adds nothing to its size, any other adds one
    have hnext (r : Reading) (hr : size (some r) ≤ size state) :
        ∀ r', r.next c = some r' → room (arguments (some r') text)+
          (if '"' ∈ c :: text then 1 else 0) ≤ size state+(c :: text).length := by
      intro r' hr'
      have hrest := ih (some r')
      by_cases hc : c = '"'
      · have hsize := size_mark_le r
        rw [Reading.next, if_pos hc] at hr'
        cases hr'
        rw [if_pos hc] at hmark
        omega
      · have hsize := size_push r c
        rw [Reading.next, if_neg hc] at hr'
        split at hr'
        · cases hr'
        · cases hr'
          rw [if_neg hc] at hmark
          omega
    cases state with
    | none =>
      rw [arguments]
      split
      · next hc =>
        have hrest := ih none
        have hne : c ≠ '"' := by
          rintro rfl
          contradiction
        rw [if_neg hne] at hmark
        omega
      · next hc =>
        cases hstart : Reading.start.next c with
        | none =>
          rw [Reading.next] at hstart
          simp only [hc, Bool.false_and, Bool.false_eq_true, if_false] at hstart
          split at hstart <;> cases hstart
        | some r => exact hnext Reading.start le_rfl r hstart
    | some r =>
      rw [arguments]
      cases hr : r.next c with
      | some r' => exact hnext r le_rfl r' hr
      | none =>
        have hrest := ih none
        have hwhole := length_whole r
        have hne : c ≠ '"' := by
          rintro rfl
          rw [Reading.next, if_pos rfl] at hr
          cases hr
        rw [if_neg hne] at hmark
        simp only [room_cons, size] at *
        omega

theorem arguments_intercalate_eq_iff (items : List (List Char)) (hitems : items ≠ []) :
    arguments none ([' '].intercalate items) = items ↔ ∀ item ∈ items, Plain item := by
  constructor
  · intro hread
    have hroom := length_intercalate ' ' hitems
    have hbound := room_arguments_le none ([' '].intercalate items)
    rw [hread, size] at hbound
    -- with a mark in it the text would be too short for all items
    have hmark : '"' ∉ [' '].intercalate items := by
      intro hmark
      rw [if_pos hmark] at hbound
      omega
    rw [← hread]
    exact plain_of_mem_arguments hmark (by simp)
  · exact arguments_intercalate

end ArgvSyntax
