import WindowsErg.EtwSessionStart

/-! Whether the name of a session fits into the buffers of the calls that get it. -/
namespace WindowsErg.Etw
open List TextScan UnicodeText

/-- `EVENT_TRACE_PROPERTIES` on a 64-bit target. -/
def eventTracePropertiesSize : ℕ := 120

structure NamedProperties where
  nameWide : List UInt16
  bufferLen : ℕ
  loggerNameOffset : ℕ

def namedProperties (name : Text) : NamedProperties where
  nameWide := encodeUtf16 name ++ [0]
  bufferLen := eventTracePropertiesSize+maxSessionNameLen*2
  loggerNameOffset := eventTracePropertiesSize

def EventTraceBuilder.startProperties (builder : EventTraceBuilder) : NamedProperties :=
  namedProperties builder.sessionName

def EventTrace.stopProperties (trace : EventTrace) : NamedProperties := namedProperties trace.name

def EventTrace.eventsLostProperties (trace : EventTrace) : NamedProperties :=
  namedProperties trace.name

def NamedProperties.NameFits (p : NamedProperties) : Prop :=
  p.loggerNameOffset+2*p.nameWide.length ≤ p.bufferLen

theorem length_encodeUtf16_cases (s : Text) :
    (encodeUtf16 s).length < (s.map Char.utf8Size).sum ∧ (¬ ∀ c ∈ s, c.toNat < 0x80) ∨
      (∀ c ∈ s, c.toNat < 0x80) ∧ (encodeUtf16 s).length = s.length ∧
        (s.map Char.utf8Size).sum = s.length := by
  induction s with
  | nil => exact .inr ⟨nofun, rfl, rfl⟩
  | cons c s ih =>
    have hunits : (encodeUtf16Char c).length = if c.toNat < 0x10000 then 1 else 2 := by
      unfold encodeUtf16Char
      dsimp only
      split <;> rfl
    have hbytes : c.utf8Size = if c.toNat ≤ 0x7F then 1 else if c.toNat ≤ 0x7FF then 2 else
        if c.toNat ≤ 0xFFFF then 3 else 4 := rfl
    rw [encodeUtf16_cons, length_append, map_cons, sum_cons, length_cons,
      forall_mem_cons, hunits, hbytes]
    grind

namespace EventTraceBuilder
variable {builder : EventTraceBuilder}

theorem name_of_start {sys : SystemCalls} {trace : EventTrace} {r r' : Resources}
    (h : (builder.start sys).run r = .ok trace r') : trace.name = builder.sessionName := by
  have hbind {α β : Type} {x : StartM α} {f : α → StartM β} {b : β} {r r' : Resources}
      (h : (x >>= f).run r = .ok b r') : ∃ a r₁, (f a).run r₁ = .ok b r' := by
    change EStateM.bind x f r = _ at h
    unfold EStateM.bind at h
    split at h
    · exact ⟨_, _, h⟩
    · cases h
  obtain ⟨_, _, h⟩ := hbind h
  obtain ⟨_, _, h⟩ := hbind h
  obtain ⟨_, _, h⟩ := hbind h
  obtain ⟨_, _, h⟩ := hbind h
  obtain ⟨_, _, h⟩ := hbind h
  obtain ⟨_, _, h⟩ := hbind h
  cases h
  rfl

def KeepsName (builder : EventTraceBuilder) : Prop :=
  builder.isKernelSession = true → builder.privateLoggerGuid ≠ none

def LongestName (name : Text) : Prop := name.length = 1024 ∧ ∀ c ∈ name, c.toNat < 0x80

structure NameFits (builder : EventTraceBuilder) : Prop where
  start : builder.startProperties.NameFits
  stop : ∀ sys r trace r', (builder.start sys).run r = .ok trace r' → trace.stopProperties.NameFits
  eventsLost : ∀ sys r trace r', (builder.start sys).run r = .ok trace r' →
    trace.eventsLostProperties.NameFits

theorem nameFits_iff :
    builder.NameFits ↔ (encodeUtf16 builder.sessionName).length < 1024 := by
  have hfits : builder.startProperties.NameFits ↔ (encodeUtf16 builder.sessionName).length < 1024 := by
    unfold startProperties NamedProperties.NameFits namedProperties maxSessionNameLen
    dsimp only
    rw [length_append, length_singleton]
    omega
  rw [← hfits]
  constructor
  · exact NameFits.start
  · intro h
    refine ⟨h, ?_, ?_⟩
    · intro sys r trace r' hstart
      rwa [EventTrace.stopProperties, name_of_start hstart]
    · intro sys r trace r' hstart
      rwa [EventTrace.eventsLostProperties, name_of_start hstart]

theorem valid_of_validate {r : Resources} (h : builder.validate.run {} = .ok () r) : builder.Valid := by
  have hspec := validate_spec builder {} {} rfl
  simp only [Std.Do.WP.wp, Std.Do.PredTrans.apply] at hspec
  rw [h] at hspec
  exact hspec.2

theorem sessionName_eq (builder : EventTraceBuilder) : builder.sessionName =
    if builder.isKernelSession = true ∧ builder.privateLoggerGuid = none then kernelLoggerName
    else builder.name := by
  unfold sessionName kernelConfig kernelSessionConfig
  cases builder.isKernelSession <;> cases builder.privateLoggerGuid <;> rfl

/-- A name that is accepted fits all the buffers, but for the longest ones if they are kept: those have
no room for the terminator. -/
theorem session_name_fits_iff {r : Resources} (haccept : builder.validate.run {} = .ok () r) :
    builder.NameFits ↔ ¬ (builder.KeepsName ∧ LongestName builder.name) := by
  have hshort : (builder.name.map Char.utf8Size).sum ≤ 1024 := (valid_of_validate haccept).name_short
  rw [nameFits_iff, sessionName_eq]
  split
  · -- the name of the kernel logger is a short one
    rename_i hkernel
    exact iff_of_true (by decide) fun h => h.1 hkernel.1 hkernel.2
  · rename_i hkept
    have hkeeps : builder.KeepsName := fun hkernel hnone => hkept ⟨hkernel, hnone⟩
    rw [← Nat.not_le, not_iff_not, and_iff_right hkeeps]
    rcases length_encodeUtf16_cases builder.name with ⟨hless, hother⟩ | ⟨hascii, hlength, hsize⟩
    · -- a character beyond ASCII takes more bytes than units
      exact iff_of_false (by omega) fun hlongest => hother hlongest.2
    · rw [LongestName, and_iff_left hascii]
      omega

def namedBuilder (name : Text) : EventTraceBuilder :=
  { name, userProviders := [⟨Guid.zeroed, .verbose, 1⟩] }

theorem session_name_fits_short : (namedBuilder "Trace".toList).NameFits :=
  (session_name_fits_iff (r := {}) rfl).mpr fun h => absurd h.2.1 (by decide)

theorem longest_session_name_overflows :
    (namedBuilder (List.replicate 1024 'a')).validate.run {} = .ok () {} ∧
      ¬ (namedBuilder (List.replicate 1024 'a')).NameFits := by
  constructor
  · have hlen : (namedBuilder (List.replicate 1024 'a')).nameLen = 1024 := by
      rw [nameLen, namedBuilder, map_replicate, sum_replicate]
      rfl
    rw [validate, hlen]
    rfl
  · rw [nameFits_iff, sessionName_eq]
    decide +kernel

end EventTraceBuilder

end WindowsErg.Etw
