import WindowsErg.ArgvSyntax
import WindowsErg.TextScan

/-! The command line of a new process, `src/process/spawn.rs`. -/
namespace WindowsErg.Process
open List TextScan DelimitedItems ArgvSyntax

def formatCommandLine (exePath : Text) (args : List Text) : Text :=
  if args.isEmpty then '"' :: exePath ++ ['"']
  else '"' :: exePath ++ ['"', ' '] ++ [' '].intercalate args

def commandLineRest (args : List Text) : Text :=
  if args.isEmpty then [] else ' ' :: [' '].intercalate args

theorem formatCommandLine_eq (exePath : Text) (args : List Text) :
    formatCommandLine exePath args = '"' :: (exePath ++ '"' :: commandLineRest args) := by
  unfold formatCommandLine commandLineRest
  split <;> simp

theorem programName_quoted {exePath : Text} (hexe : '"' ∉ exePath) (rest : Text) :
    programName ('"' :: (exePath ++ '"' :: rest)) = (exePath, rest) := by
  have hplain : ∀ c ∈ exePath, decide (c ≠ '"') = true := by
    intro c hc
    simpa using ne_of_mem_of_not_mem hc hexe
  rw [programName, takeWhile_append_of_pos hplain, dropWhile_append_of_pos hplain]
  simp

theorem programName_unclosed {front : Text} (h : '"' ∉ front) :
    programName ('"' :: front) = (front, []) := by
  have hplain : ∀ c ∈ front, decide (c ≠ '"') = true := by
    intro c hc
    simpa using ne_of_mem_of_not_mem hc h
  rw [programName, takeWhile_eq_self_iff.mpr hplain, dropWhile_eq_nil_iff.mpr hplain]
  rfl

def front (text : Text) : Text := text.takeWhile (· ≠ Char.ofNat 0)

theorem front_eq {text : Text} (h : Char.ofNat 0 ∉ text) : front text = text := by
  apply takeWhile_eq_self_iff.mpr
  intro c hc
  simpa using ne_of_mem_of_not_mem hc h

theorem front_append {first : Text} (h : Char.ofNat 0 ∉ first) (second : Text) :
    front (first ++ second) = first ++ front second := by
  apply takeWhile_append_of_pos
  intro c hc
  simpa using ne_of_mem_of_not_mem hc h

theorem length_front_lt {text : Text} (h : Char.ofNat 0 ∈ text) :
    (front text).length < text.length := by
  apply lt_of_le_of_ne (List.takeWhile_prefix _).length_le
  intro hlength
  have hall := takeWhile_eq_self_iff.mp ((List.takeWhile_prefix _).eq_of_length hlength)
  simpa using hall _ h

theorem front_append_of_mem {first : Text} (h : Char.ofNat 0 ∈ first) (second : Text) :
    front (first ++ second) = front first := by
  have hlength : (front first).length ≠ first.length := (length_front_lt h).ne
  exact takeWhile_append.trans (if_neg hlength)

theorem arguments_commandLineRest_iff (args : List Text) :
    arguments none (front (commandLineRest args)) = args ↔
      ∀ arg ∈ args, Plain arg ∧ Char.ofNat 0 ∉ arg := by
  by_cases hargs : args = []
  · subst hargs
    simp [commandLineRest, front, arguments]
  have hrest : commandLineRest args = [' '] ++ [' '].intercalate args := by
    simp [commandLineRest, hargs]
  have hblank : arguments none (front (commandLineRest args)) =
      arguments none (front ([' '].intercalate args)) := by
    rw [hrest, front_append (by decide)]
    rfl
  have hmem : Char.ofNat 0 ∈ [' '].intercalate args ↔ ∃ arg ∈ args, Char.ofNat 0 ∈ arg :=
    mem_intercalate_iff (by decide) args
  rw [hblank]
  by_cases hnul : Char.ofNat 0 ∈ [' '].intercalate args
  · obtain ⟨arg, harg, hmemArg⟩ := hmem.mp hnul
    constructor
    · -- the text is cut, and what is left has no room for all arguments
      intro hread
      have hbound := room_arguments_le none (front ([' '].intercalate args))
      have hroom := length_intercalate ' ' hargs
      have hcut := length_front_lt hnul
      rw [hread, size] at hbound
      omega
    · intro h
      exact absurd hmemArg (h arg harg).2
  · rw [front_eq hnul, arguments_intercalate_eq_iff args hargs]
    refine ⟨fun h arg harg => ⟨h arg harg, ?_⟩, fun h arg harg => (h arg harg).1⟩
    intro hmemArg
    exact hnul (hmem.mpr ⟨arg, harg, hmemArg⟩)

/-- The arguments come back exactly if no argument is empty or has a blank, a tab, a quotation mark
or a NUL in it: `format_command_line` puts nothing around an argument. -/
theorem command_line_parses_back_iff (exePath : Text) (args : List Text) (hexe : '"' ∉ exePath) :
    commandLineToArgv (formatCommandLine exePath args) = exePath :: args ↔
      Char.ofNat 0 ∉ exePath ∧ ∀ arg ∈ args, arg ≠ [] ∧
        ∀ c ∈ arg, c ≠ ' ' ∧ c ≠ '\t' ∧ c ≠ '"' ∧ c ≠ Char.ofNat 0 := by
  have hplain : (∀ arg ∈ args, Plain arg ∧ Char.ofNat 0 ∉ arg) ↔ ∀ arg ∈ args, arg ≠ [] ∧
      ∀ c ∈ arg, c ≠ ' ' ∧ c ≠ '\t' ∧ c ≠ '"' ∧ c ≠ Char.ofNat 0 := by
    refine forall₂_congr fun arg _ => ⟨fun ⟨h, hnul⟩ => ⟨h.ne_nil, fun c hc => ?_⟩, fun ⟨hne, h⟩ => ?_⟩
    · have hblank := h.blank c hc
      simp only [isBlank, Bool.or_eq_false_iff, decide_eq_false_iff_not] at hblank
      exact ⟨hblank.1, hblank.2, ne_of_mem_of_not_mem hc h.mark, ne_of_mem_of_not_mem hc hnul⟩
    · refine ⟨⟨hne, fun c hc => ?_, fun hc => (h _ hc).2.2.1 rfl⟩, fun hc => (h _ hc).2.2.2 rfl⟩
      simp [isBlank, (h c hc).1, (h c hc).2.1]
  rw [← hplain, ← arguments_commandLineRest_iff, formatCommandLine_eq, commandLineToArgv]
  change (programName (front _)).1 :: arguments none (programName (front _)).2 = _ ↔ _
  by_cases hnul : Char.ofNat 0 ∈ exePath
  · -- the path itself is cut
    have hfront : front ('"' :: (exePath ++ '"' :: commandLineRest args)) = '"' :: front exePath := by
      rw [← cons_append, front_append_of_mem (mem_cons_of_mem _ hnul)]
      rfl
    have hmark : '"' ∉ front exePath := fun h => hexe ((List.takeWhile_prefix _).subset h)
    rw [hfront, programName_unclosed hmark]
    refine ⟨fun h => ?_, fun h => absurd hnul h.1⟩
    have hpath : front exePath = exePath := (List.cons.inj h).1
    exact absurd (congrArg List.length hpath) (length_front_lt hnul).ne
  · have hfront : front ('"' :: (exePath ++ '"' :: commandLineRest args)) =
        '"' :: (exePath ++ '"' :: front (commandLineRest args)) := by
      have hfirst : Char.ofNat 0 ∉ '"' :: exePath ++ ['"'] := by
        simpa using hnul
      have hsplit : '"' :: (exePath ++ '"' :: commandLineRest args) =
          ('"' :: exePath ++ ['"']) ++ commandLineRest args := by
        simp
      rw [hsplit, front_append hfirst]
      simp
    rw [hfront, programName_quoted hexe]
    refine ⟨fun h => ⟨hnul, (List.cons.inj h).2⟩, fun h => ?_⟩
    rw [h.2]

theorem command_line_parses_back_plain :
    commandLineToArgv (formatCommandLine "C:\\a b.exe".toList ["/x".toList, "c:\\y\\".toList]) =
      ["C:\\a b.exe".toList, "/x".toList, "c:\\y\\".toList] :=
  (command_line_parses_back_iff _ _ (by decide)).mpr (by simp)

/-- One argument with a blank comes back as two. -/
theorem command_line_splits_argument :
    commandLineToArgv (formatCommandLine "C:\\a.exe".toList ["b c".toList]) =
      ["C:\\a.exe".toList, "b".toList, "c".toList] := by decide

end WindowsErg.Process
