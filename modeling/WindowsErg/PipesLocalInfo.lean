import WindowsErg.PipesEnumerate
import WindowsErg.UnicodeText

/-! `query_local_info` of `src/pipes/enumerate.rs`: a pipe is opened by a counted string whose byte
count has sixteen bits. -/
namespace WindowsErg.Pipes
open List TextScan UnicodeText

def namedPipeDirectoryPath : Text := "\\Device\\NamedPipe\\".toList

structure UnicodeString where
  length : UInt16
  maximumLength : UInt16
  buffer : List UInt16

def UnicodeString.denotes (s : UnicodeString) : List UInt16 :=
  s.buffer.take (s.length.toNat / 2)

structure FilePipeLocalInformation where
  (namedPipeType namedPipeConfiguration maximumInstances currentInstances : UInt32)
  (inboundQuota readDataAvailable outboundQuota writeQuotaAvailable : UInt32)
  (namedPipeState namedPipeEnd : UInt32)

structure NamedPipeLocalInfo extends FilePipeLocalInformation where
  serverProcessId : Option UInt32

inductive LocalInfoError where
  | relativeName
  | status (operation : String) (code : Int)

/-- The calls of the query. An open reads of its argument what the counted string stands for. -/
structure PipeFileSystem (H : Type) where
  ntCreateFile : List UInt16 → Int × H
  ntQueryInformationFile : H → Int × FilePipeLocalInformation
  getNamedPipeServerProcessId : H → Option UInt32
  rtlNtStatusToDosError : Int → ℕ

namespace PipeFileSystem
variable {H : Type} (system : PipeFileSystem H)

def pipeDirectoryStatusError (operation : String) (status : Int) : LocalInfoError :=
  .status operation
    (if system.rtlNtStatusToDosError status = 0 then status
      else (system.rtlNtStatusToDosError status : Int).bmod (2 ^ 32))

def infoAt (path : List UInt16) : Except LocalInfoError NamedPipeLocalInfo :=
  let (status, handle) := system.ntCreateFile path
  if status ≠ 0 then
    .error (system.pipeDirectoryStatusError "open named pipe for local info" status)
  else
    let (status, localInfo) := system.ntQueryInformationFile handle
    if status ≠ 0 then
      .error (system.pipeDirectoryStatusError "query named pipe local information" status)
    else .ok { localInfo with serverProcessId := system.getNamedPipeServerProcessId handle }

end PipeFileSystem

/-- The name that `open_named_pipe_file` passes, both counts narrowed by `as u16`. -/
def unicodeName (relativeName : List UInt16) : UnicodeString :=
  let ntPathWide := encodeUtf16 namedPipeDirectoryPath ++ relativeName ++ [0]
  { length := UInt16.ofNat ((ntPathWide.length - 1) * 2)
    maximumLength := UInt16.ofNat (ntPathWide.length * 2)
    buffer := ntPathWide }

def queryLocalInfo {H : Type} (system : PipeFileSystem H) (name : PipeName) :
    Except LocalInfoError NamedPipeLocalInfo :=
  if pipeRoot.isPrefixOf name.asStr then
    let relativeName := name.asStr.drop pipeRoot.length
    system.infoAt (unicodeName (encodeUtf16 relativeName)).denotes
  else .error .relativeName

def PipeName.relativeName (name : PipeName) : Text := name.asStr.drop pipeRoot.length

def PipeName.path (name : PipeName) : List UInt16 :=
  encodeUtf16 namedPipeDirectoryPath ++ encodeUtf16 name.relativeName

theorem queryLocalInfo_eq {H : Type} (system : PipeFileSystem H) (name : PipeName) :
    queryLocalInfo system name =
      system.infoAt (unicodeName (encodeUtf16 name.relativeName)).denotes :=
  if_pos (List.isPrefixOf_iff_prefix.mpr name.starts)

theorem denotes_unicodeName (name : PipeName) :
    (unicodeName (encodeUtf16 name.relativeName)).denotes =
      name.path.take (name.path.length % 2 ^ 15) := by
  have hlen : name.path.length * 2 % 2 ^ 16 / 2 = name.path.length % 2 ^ 15 := by omega
  unfold UnicodeString.denotes unicodeName
  rw [← PipeName.path, UInt16.toNat_ofNat', length_append, length_singleton,
    Nat.add_sub_cancel, hlen, take_append_of_le_length (Nat.mod_le _ _)]

theorem denotes_unicodeName_iff (name : PipeName) :
    (unicodeName (encodeUtf16 name.relativeName)).denotes = name.path ↔
      name.path.length < 2 ^ 15 := by
  rw [denotes_unicodeName, take_eq_self_iff]
  constructor
  · intro h
    exact lt_of_le_of_lt h (Nat.mod_lt _ (by decide))
  · intro h
    rw [Nat.mod_eq_of_lt h]

def onlyAt (path : List UInt16) : PipeFileSystem Unit where
  ntCreateFile asked := (if asked = path then 0 else -1, ())
  ntQueryInformationFile _ := (0, ⟨0, 0, 0, 0, 0, 0, 0, 0, 0, 0⟩)
  getNamedPipeServerProcessId _ := none
  rtlNtStatusToDosError _ := 2

theorem infoAt_onlyAt (path : List UInt16) : ∃ info, (onlyAt path).infoAt path = .ok info := by
  simp [PipeFileSystem.infoAt, onlyAt]

/-- Whatever the system holds, a query that succeeds has passed the whole path, and what it
returns is what the system tells about the pipe at that path. -/
def PipeName.Reached (name : PipeName) : Prop :=
  ∀ (H : Type) (system : PipeFileSystem H) (info : NamedPipeLocalInfo),
    queryLocalInfo system name = .ok info →
      (unicodeName (encodeUtf16 name.relativeName)).denotes = name.path ∧
        system.infoAt name.path = .ok info

theorem reached_iff_denotes (name : PipeName) :
    name.Reached ↔ (unicodeName (encodeUtf16 name.relativeName)).denotes = name.path := by
  constructor
  · intro h
    -- a system whose only pipe is the one the narrowed count denotes
    obtain ⟨info, hinfo⟩ := infoAt_onlyAt (unicodeName (encodeUtf16 name.relativeName)).denotes
    exact (h Unit _ info ((queryLocalInfo_eq _ name).trans hinfo)).1
  · intro h H system info hinfo
    rw [queryLocalInfo_eq, h] at hinfo
    exact ⟨h, hinfo⟩

/-- A query reaches the pipe it names exactly when the path has fewer than `2 ^ 15` units. -/
theorem pipe_query_reaches_iff (name : PipeName) :
    name.Reached ↔
      (encodeUtf16 namedPipeDirectoryPath).length + (encodeUtf16 name.relativeName).length < 2 ^ 15 := by
  rw [reached_iff_denotes, denotes_unicodeName_iff, PipeName.path, length_append]

namespace PipeName
variable (name : PipeName) (pad : Text)

theorem append_ne_root : name.asStr ++ pad ≠ pipeRoot := by
  intro h
  have hlen := congrArg List.length h
  rw [length_append] at hlen
  exact name.segment (name.starts.eq_of_length_le (by omega)).symm

def append : PipeName :=
  ⟨name.asStr ++ pad, name.starts.trans (prefix_append _ _), name.append_ne_root pad⟩

theorem path_append : (name.append pad).path = name.path ++ encodeUtf16 pad := by
  unfold path relativeName append
  rw [drop_append_of_le_length name.starts.length_le, encodeUtf16_append, append_assoc]

end PipeName

def shortName : PipeName := ⟨pipeRoot ++ ['b'], prefix_append _ _, by simp⟩

/-- With `2 ^ 15` characters behind it, the name of one pipe reaches another pipe. -/
theorem padded_query_reaches_other :
    (unicodeName (encodeUtf16 (shortName.append (List.replicate (2 ^ 15) 'a')).relativeName)).denotes =
        shortName.path ∧
      ¬ (shortName.append (List.replicate (2 ^ 15) 'a')).Reached := by
  have hunits (n : ℕ) : (encodeUtf16 (List.replicate n 'a')).length = n := by
    have hunit : (encodeUtf16Char 'a').length = 1 := rfl
    rw [encodeUtf16, length_flatMap, map_replicate, sum_replicate_nat, hunit, Nat.mul_one]
  have hlen : (shortName.append (List.replicate (2 ^ 15) 'a')).path.length =
      shortName.path.length + 2 ^ 15 := by
    rw [PipeName.path_append, length_append, hunits]
  have hshort : shortName.path.length < 2 ^ 15 := by decide
  constructor
  · rw [denotes_unicodeName, hlen, Nat.add_mod_right, Nat.mod_eq_of_lt hshort, PipeName.path_append,
      take_left]
  · rw [reached_iff_denotes, denotes_unicodeName_iff]
    omega

end WindowsErg.Pipes
