import WindowsErg.EvtPublisher

/-! Which messages the retry loop of `format_message` returns completely, if `EvtFormatMessage`
counts in characters. -/
namespace WindowsErg.Evt
open List TextScan UnicodeText CallProgram

/-- The answer for a message to a call with a buffer of so many units: the needed size with the
terminator, and the message in the buffer if it fits. -/
structure Formats (message : List UInt16) (units : ℕ) (answer : FormatAnswer) : Prop where
  length : answer.buffer.length = units
  used : answer.bufferUsed.toNat = message.length+1
  ok_iff : answer.ok = true ↔ message.length+1 ≤ units
  content : answer.ok = true → message ++ [0] <+: answer.buffer

def messageStep (message : List UInt16) :
    (c : PublisherCall) → PublisherWorld → c.Answer → PublisherWorld → Prop
  | .evtFormatMessage metadata event units, w, answer, w' =>
    publisherStep (.evtFormatMessage metadata event units) w answer w' ∧
      Formats message units answer
  | .getLastError, w, code, w' => publisherStep .getLastError w code w' ∧ code = (122 : UInt32)
  | .cacheGet providerName, w, answer, w' => publisherStep (.cacheGet providerName) w answer w'
  | .cacheInsert providerName handle, w, answer, w' =>
    publisherStep (.cacheInsert providerName handle) w answer w'
  | .evtOpenPublisherMetadata providerName, w, answer, w' =>
    publisherStep (.evtOpenPublisherMetadata providerName) w answer w'
  | .evtClose handle, w, answer, w' => publisherStep (.evtClose handle) w answer w'

def messageSystem (message : List UInt16) :
    System PublisherCall PublisherCall.Answer PublisherWorld where
  step := messageStep message
  interfere _ _ := False

theorem messageSystem_quiet (message : List UInt16) (w w' : PublisherWorld) :
    ¬ (messageSystem message).interfere w w' := id

theorem exists_formats {message : List UInt16} (hlength : message.length+1 < 2^32) (units : ℕ) :
    ∃ answer, Formats message units answer := by
  have hused : (UInt32.ofNat (message.length+1)).toNat = message.length+1 := by
    rw [UInt32.toNat_ofNat', Nat.mod_eq_of_lt hlength]
  by_cases hfits : message.length+1 ≤ units
  · have hroom : (message ++ [0] ++ List.replicate (units-(message.length+1)) 0).length = units := by
      rw [length_append, length_append, length_replicate, length_singleton]
      omega
    exact ⟨⟨true, _, _⟩, hroom, hused, iff_of_true rfl hfits, fun _ => prefix_append _ _⟩
  · exact ⟨⟨false, List.replicate units 0, _⟩, length_replicate, hused,
      iff_of_false Bool.false_ne_true hfits, nofun⟩

/-- The part of a message that is returned: half of it, with the terminator counted in. -/
def returnedMessage (message : List UInt16) : Option Text :=
  let len := (message.length+1)/2
  if 0 < len then
    some (decodeUtf16Lossy (message.take (if message[len-1]? = some 0 then len-1 else len)))
  else none

theorem messageOf_eq {message : List UInt16} {units : ℕ} {answer : FormatAnswer}
    (h : Formats message units answer) (hok : answer.ok = true) :
    messageOf answer = returnedMessage message := by
  obtain ⟨rest, hbuffer⟩ := h.content hok
  have hfits := h.ok_iff.mp hok
  unfold messageOf returnedMessage
  rw [h.used]
  dsimp only
  by_cases hlen : 0 < (message.length+1)/2
  · -- what is read of the buffer lies in the message
    have hroom : (message.length+1)/2 ≤ answer.buffer.length := by
      rw [h.length]
      omega
    have hunit : answer.buffer[(message.length+1)/2-1]? = message[(message.length+1)/2-1]? := by
      rw [← hbuffer, append_assoc]
      exact List.getElem?_append_left (by omega)
    have htake (k : ℕ) (hk : k ≤ message.length) : answer.buffer.take k = message.take k := by
      rw [← hbuffer, append_assoc]
      exact take_append_of_le_length hk
    rw [if_pos ⟨hlen, hroom⟩, if_pos hlen, hunit, htake]
    split_ifs
    · omega
    · omega
  · rw [if_neg (fun hboth => hlen hboth.1), if_neg hlen]

theorem returnedMessage_eq_iff (s : Text) :
    returnedMessage (encodeUtf16 s) = some s ↔ ∃ u, encodeUtf16 s = [u] ∧ u ≠ 0 := by
  constructor
  · intro h
    obtain ⟨k, hk, hwhole, hdecoded⟩ : ∃ k, k ≤ ((encodeUtf16 s).length+1)/2 ∧
        (encodeUtf16 s = [0] → k = 0) ∧ decodeUtf16Lossy ((encodeUtf16 s).take k) = s := by
      obtain ⟨-, htext⟩ := Option.ite_none_right_eq_some.mp h
      refine ⟨_, ?_, ?_, Option.some.inj htext⟩
      · split_ifs
        · omega
        · exact le_rfl
      · intro hzero
        rw [hzero]
        rfl
    -- decoding gives a text of no more units than were decoded
    have hshort := (length_encodeUtf16_decodeUtf16Lossy ((encodeUtf16 s).take k)).le
    rw [hdecoded, length_take] at hshort
    have hlen : 0 < ((encodeUtf16 s).length+1)/2 := (Option.ite_none_right_eq_some.mp h).1
    have hone : (encodeUtf16 s).length = 1 := by omega
    obtain ⟨u, hu⟩ := length_eq_one_iff.mp hone
    refine ⟨u, hu, ?_⟩
    rintro rfl
    have hnone := hwhole hu
    omega
  · rintro ⟨u, hu, hne⟩
    have hdecoded : decodeUtf16Lossy [u] = s := by
      rw [← hu, decodeUtf16Lossy_encodeUtf16]
    have hunit : ¬ [u][(1+1)/2-1]? = some 0 := by
      intro he
      exact hne (Option.some.inj he)
    rw [hu, returnedMessage]
    dsimp only [length_singleton]
    rw [if_pos (by decide), if_neg hunit, ← hdecoded]
    rfl

section Loop
variable {metadata event : EvtHandle} {message : List UInt16} {rounds : ℕ} {bufferSize : UInt32}
  {w w' : PublisherWorld} {steps : List (PublisherCall × PublisherWorld)}
  {result : Option (Option Text)}

theorem formatLoop_fits (hfits : message.length+1 ≤ bufferSize.toNat/2)
    (h : Traces (messageSystem message) (formatLoop metadata event (rounds+1) bufferSize) w steps
      result w') : result = some (returnedMessage message) := by
  have hquiet := messageSystem_quiet message
  rw [formatLoop] at h
  obtain ⟨answer, w₁, _, rest, -, hformat, hafter⟩ := h.of_bind
  obtain ⟨-, -, hformats⟩ := Traces.request_inv hquiet hformat
  have hok : answer.ok = true := hformats.ok_iff.mpr hfits
  rw [if_pos hok] at hafter
  obtain ⟨rfl, -⟩ := Traces.done_inv hquiet hafter
  rw [messageOf_eq hformats hok]

theorem formatLoop_stuck (hstuck : bufferSize.toNat/2 < message.length+1)
    (hlimit : message.length+1 ≤ 1048576)
    (h : Traces (messageSystem message) (formatLoop metadata event rounds bufferSize) w steps
      result w') : result = none := by
  have hquiet := messageSystem_quiet message
  induction rounds generalizing bufferSize w steps with
  | zero => exact (Traces.done_inv hquiet h).1
  | succ rounds ih =>
    rw [formatLoop] at h
    obtain ⟨answer, w₁, _, rest, -, hformat, hafter⟩ := h.of_bind
    obtain ⟨-, -, hformats⟩ := Traces.request_inv hquiet hformat
    have hfailed : ¬ answer.ok = true := fun hok => by
      have hfits := hformats.ok_iff.mp hok
      omega
    rw [if_neg hfailed] at hafter
    obtain ⟨error, w₂, _, last, -, herror, hlast⟩ := hafter.of_bind
    obtain ⟨-, -, rfl⟩ := Traces.request_inv hquiet herror
    have hused := hformats.used
    have hsmall : ¬ 1048576 < answer.bufferUsed := by
      rw [UInt32.lt_iff_toNat_lt, hused]
      exact Nat.not_lt.mpr hlimit
    rw [if_pos rfl, if_neg hsmall] at hlast
    -- the needed characters are taken for bytes: the next buffer has half of them
    refine ih ?_ hlast
    rw [hused]
    omega

theorem exists_traces_formatLoop (hlength : message.length+1 < 2^32) (rounds : ℕ)
    (bufferSize : UInt32) (w : PublisherWorld) :
    ∃ steps result, Traces (messageSystem message) (formatLoop metadata event rounds bufferSize) w
      steps result w := by
  induction rounds generalizing bufferSize with
  | zero => exact ⟨[], none, .done none w⟩
  | succ rounds ih =>
    obtain ⟨answer, hformats⟩ := exists_formats hlength (bufferSize.toNat/2)
    have hformat : (messageSystem message).step
        (.evtFormatMessage metadata event (bufferSize.toNat/2)) w answer w :=
      ⟨⟨rfl, hformats.length⟩, hformats⟩
    have herror : (messageSystem message).step .getLastError w (122 : UInt32) w := ⟨rfl, rfl⟩
    by_cases hok : answer.ok = true
    · refine ⟨[(.evtFormatMessage metadata event (bufferSize.toNat/2), w)],
        some (messageOf answer), .request_bind hformat ?_⟩
      rw [if_pos hok]
      exact .done _ w
    · by_cases hlarge : 1048576 < answer.bufferUsed
      · refine ⟨[(.evtFormatMessage metadata event (bufferSize.toNat/2), w), (.getLastError, w)],
          some none, .request_bind hformat ?_⟩
        rw [if_neg hok]
        apply Traces.request_bind herror
        rw [if_pos rfl, if_pos hlarge]
        exact .done _ w
      · obtain ⟨steps, result, hrest⟩ := ih answer.bufferUsed
        refine ⟨(.evtFormatMessage metadata event (bufferSize.toNat/2), w) :: (.getLastError, w) ::
          steps, result, .request_bind hformat ?_⟩
        rw [if_neg hok]
        apply Traces.request_bind herror
        rw [if_pos rfl, if_neg hlarge]
        exact hrest

end Loop

/-- The loop returns the whole message after some number of rounds, in every run, exactly if the
message has one unit. -/
theorem format_message_complete_iff (metadata event : EvtHandle) (w : PublisherWorld) (s : Text)
    (hlength : (encodeUtf16 s).length ≤ 500000) :
    (∃ rounds, ∀ steps result w', Traces (messageSystem (encodeUtf16 s))
        (formatLoop metadata event rounds 4096) w steps result w' → result = some (some s)) ↔
      ∃ u, encodeUtf16 s = [u] ∧ u ≠ 0 := by
  rw [← returnedMessage_eq_iff]
  constructor
  · rintro ⟨rounds, hall⟩
    have hword : (encodeUtf16 s).length+1 < 2^32 := by omega
    obtain ⟨steps, result, hrun⟩ := exists_traces_formatLoop hword rounds 4096 w
    have hresult := hall steps result w hrun
    -- a run of this many rounds exists, and one that gets stuck has no result
    have hfits : (encodeUtf16 s).length+1 ≤ (4096 : UInt32).toNat/2 := by
      by_contra hlarge
      have hnone := formatLoop_stuck (Nat.not_le.mp hlarge) (by omega) hrun
      cases hresult.symm.trans hnone
    cases rounds with
    | zero =>
      have hnone := (Traces.done_inv (messageSystem_quiet _) hrun).1
      cases hresult.symm.trans hnone
    | succ rounds =>
      have hreturned := formatLoop_fits hfits hrun
      rw [hresult] at hreturned
      exact (Option.some.inj hreturned).symm
  · intro hreturned
    refine ⟨1, ?_⟩
    intro steps result w' hrun
    have hone : (encodeUtf16 s).length = 1 := by
      obtain ⟨u, hu, -⟩ := (returnedMessage_eq_iff s).mp hreturned
      rw [hu]
      rfl
    have hfits : (encodeUtf16 s).length+1 ≤ (4096 : UInt32).toNat/2 := by
      rw [hone]
      decide
    rw [formatLoop_fits hfits hrun, hreturned]

theorem format_message_complete_one_unit :
    ∃ rounds, ∀ steps result w', Traces (messageSystem (encodeUtf16 "A".toList))
        (formatLoop ⟨5⟩ ⟨16⟩ rounds 4096) ⟨[], [], []⟩ steps result w' →
      result = some (some "A".toList) :=
  (format_message_complete_iff ⟨5⟩ ⟨16⟩ ⟨[], [], []⟩ "A".toList (by decide)).mpr
    ⟨65, by decide, by decide⟩

/-- Of the message `Hi` the first letter is returned, and with a message of 2048 units the loop still
runs after any number of rounds. -/
theorem format_message_incomplete :
    (∃ steps, Traces (messageSystem (encodeUtf16 "Hi".toList)) (formatLoop ⟨5⟩ ⟨16⟩ 1 4096)
        ⟨[], [], []⟩ steps (some (some "H".toList)) ⟨[], [], []⟩) ∧
      ∀ rounds, ∃ steps, Traces (messageSystem (List.replicate 2048 97))
        (formatLoop ⟨5⟩ ⟨16⟩ rounds 4096) ⟨[], [], []⟩ steps none ⟨[], [], []⟩ := by
  constructor
  · obtain ⟨steps, result, hrun⟩ := exists_traces_formatLoop
      (show (encodeUtf16 "Hi".toList).length+1 < 2^32 by decide) 1 4096 ⟨[], [], []⟩
    have hhalf : returnedMessage (encodeUtf16 "Hi".toList) = some "H".toList := by decide
    have hresult := formatLoop_fits (by decide) hrun
    rw [hhalf] at hresult
    rw [hresult] at hrun
    exact ⟨steps, hrun⟩
  · intro rounds
    have hlength : (List.replicate 2048 (97 : UInt16)).length = 2048 := length_replicate
    have hword : (List.replicate 2048 (97 : UInt16)).length+1 < 2^32 := by
      rw [hlength]
      decide
    have hstuck : (4096 : UInt32).toNat/2 < (List.replicate 2048 (97 : UInt16)).length+1 := by
      rw [hlength]
      decide
    have hlimit : (List.replicate 2048 (97 : UInt16)).length+1 ≤ 1048576 := by
      rw [hlength]
      decide
    obtain ⟨steps, result, hrun⟩ := exists_traces_formatLoop hword rounds 4096 ⟨[], [], []⟩
    rw [formatLoop_stuck hstuck hlimit hrun] at hrun
    exact ⟨steps, hrun⟩

end WindowsErg.Evt
