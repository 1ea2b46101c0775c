import FileTransfer.Command.ProgramOptions
import FileTransfer.MultiProcess.MultiProcessTask

/-!
# What the factories need of a command

`TaskFactory::Run` (`TaskFactory.cpp:8`) up to the constructors of the tasks: which fields of the
command are dereferenced or converted for its mode and role, and for which options `Parse` accepts
a command that has them.
-/

namespace FileTransfer

open Posix ProgramOptions
open MultiProcessTask (StartFault)

/-- `std::to_string`. -/
def decimal (n : Nat) : List UInt8 := (Nat.toDigits 10 n).map fun c => UInt8.ofNat c.toNat

/-- The number that a name of digits stands for. -/
def decimalValue (name : List UInt8) : Nat :=
  name.foldl (fun value digit => 10 * value + (digit.toNat - 48)) 0

/-- What `ReaderFactory` gives to the constructors of a task. -/
inductive ReaderTask where
  | fileData (source : Path)
  | sharedFileData (sharedMemory source : Path)
  | fileTransfer (source : Path) (serverName portName : List UInt8)
  deriving DecidableEq

/-- What `WriterFactory` gives to the constructors of a task. -/
inductive WriterTask where
  | buffer (dest : Path)
  | sharedBuffer (sharedMemory dest : Path)
  /-- The port of `tcp::endpoint`. -/
  | server (port : UInt16)
  deriving DecidableEq

/-- `ReaderFactory::CreateTask` (`ReaderFactory.h:26`), called with a number of arguments after the
    command. -/
def ReaderFactory.createTask (command : SCommand) (arguments : Nat) :
    Except StartFault (List ReaderTask) :=
  match command.sources with
  | none => .error (.logicError (ascii "Source file name is not set"))
  | some [] => .error (.logicError (ascii "Source file name is not set"))
  | some (front :: others) =>
    match command.mode with
    | .multiThread =>
      if arguments = 3 then .ok [.fileData front]
      else .error (.logicError (ascii "Mode multi thread invalid arguments"))
    | .multiProcess =>
      match command.sharedMemory with
      | none => .error .badOptionalAccess
      | some name => .ok [.sharedFileData name front]
    | .network =>
      .ok ((front :: others).map fun source =>
        .fileTransfer source command.serverName (decimal command.port.toNat))
    | .undefined => .error (.logicError (ascii "Mode not implemented"))

/-- `WriterFactory::CreateTask` (`WriterFactory.h:23`). -/
def WriterFactory.createTask (command : SCommand) (arguments : Nat) :
    Except StartFault WriterTask :=
  match command.mode with
  | .multiThread =>
    if arguments = 3 then
      match command.dest with
      | none => .error .badOptionalAccess
      | some dest => .ok (.buffer dest)
    else .error (.logicError (ascii "Mode multi thread invalid arguments"))
  | .multiProcess =>
    match command.sharedMemory with
    | none => .error .badOptionalAccess
    | some name =>
      match command.dest with
      | none => .error .badOptionalAccess
      | some dest => .ok (.sharedBuffer name dest)
  | .network =>
    if arguments = 1 then .ok (.server command.port.toUInt16)
    else .error (.logicError (ascii "Mode not implemented"))
  | .undefined => .error (.logicError (ascii "Mode not implemented"))

/-- The tasks of a command. -/
structure Tasks where
  readers : List ReaderTask
  writers : List WriterTask
  deriving DecidableEq

/-- `reader_` and `writer_`, in `MultiThreadTask::Create` (`MultiThreadTask.cpp:13`) and
    `MultiProcessTask::Create` (`MultiProcessTask.cpp:48`). -/
def bothTasks (command : SCommand) (arguments : Nat) : Except StartFault Tasks := do
  let readers ← ReaderFactory.createTask command arguments
  let writer ← WriterFactory.createTask command arguments
  return { readers := readers.take 1, writers := [writer] }

/-- `NetworkTask::Create` (`NetworkTask.cpp:32`). -/
def networkTasks (command : SCommand) : Except StartFault Tasks :=
  if command.network = some .server then do
    let writer ← WriterFactory.createTask command 1
    return { readers := [], writers := [writer] }
  else do
    let readers ← ReaderFactory.createTask command 0
    return { readers, writers := [] }

/-- `TaskFactory::Run` (`TaskFactory.cpp:8`), as far as `Create`. -/
def TaskFactory.create (command : Option SCommand) : Except StartFault Tasks :=
  match command with
  | none => .error (.logicError (ascii "Command not provided"))
  | some command =>
    match command.mode with
    | .multiThread => bothTasks command 3
    | .multiProcess => bothTasks command 0
    | .network => networkTasks command
    | .undefined => .error (.logicError (ascii "Unknown command mode"))

/-- What the mode and the role of a command need is set and in range. -/
structure Complete (command : SCommand) : Prop where
  sources : (command.mode = .network → command.network ≠ some .server) →
    command.sources.getD [] ≠ []
  dest : command.mode ≠ .network → command.dest ≠ none
  sharedMemory : command.mode = .multiProcess → command.sharedMemory ≠ none
  port : command.mode = .network → command.port.toNat < 2 ^ 16
  endpoint : command.mode = .network →
    command.port.toUInt16.toNat = decimalValue (decimal command.port.toNat)

/-- The options that a mode and a role need besides those that `Parse` asks for. -/
structure Suffice (given : VariablesMap) : Prop where
  multiThread : given.mode = none ∨ given.mode = some (ascii "multi_thread") →
    given.source.getD [] ≠ [] ∧ given.destination ≠ none
  multiProcess : given.mode = some (ascii "multi_process") → given.sharedMemory ≠ none →
    given.source.getD [] ≠ [] ∧ given.destination ≠ none
  network : given.mode = some (ascii "network") →
    given.networkMode = some (ascii "server") ∨ given.networkMode = some (ascii "client") →
      (given.port.getD 12345).toNat < 2 ^ 16
  client : given.mode = some (ascii "network") → given.networkMode = some (ascii "client") →
    given.source.getD [] ≠ []

theorem decimalValue_decimal (n : Nat) : decimalValue (decimal n) = n := by
  have digits : ∀ value, ∀ c ∈ Nat.toDigits 10 n,
      10 * value + ((UInt8.ofNat c.toNat).toNat - 48) = 10 * value + (c.toNat - '0'.toNat) := by
    intro value c member
    have digit := Nat.isDigit_of_mem_toDigits (by decide) (by decide) member
    have small : c.toNat < 256 := by
      simp only [Char.isDigit, Bool.and_eq_true, decide_eq_true_eq] at digit
      have le := UInt32.le_iff_toNat_le.mp digit.2
      exact Nat.lt_of_le_of_lt le (by decide)
    rw [UInt8.toNat_ofNat_of_lt' small]
    rfl
  rw [decimalValue, decimal, List.foldl_map, List.foldl_ext _ _ _ digits,
    ← Nat.ofDigitChars_eq_foldl]
  exact Nat.ofDigitChars_ten_toDigits

variable {argc : Nat} {given : VariablesMap} {command : SCommand}

/-- The server listens on the port that the client asks for, if and only if it has 16 bits. -/
theorem endpoint_iff :
    command.port.toUInt16.toNat = decimalValue (decimal command.port.toNat) ↔
      command.port.toNat < 2 ^ 16 := by
  rw [decimalValue_decimal, UInt64.toNat_toUInt16]
  constructor
  · intro same
    rw [← same]
    exact Nat.mod_lt _ (by decide)
  · exact Nat.mod_eq_of_lt

theorem readers_ok_iff {arguments : Nat} (defined : command.mode ≠ .undefined)
    (called : command.mode = .multiThread → arguments = 3) :
    (∃ tasks, ReaderFactory.createTask command arguments = .ok tasks) ↔
      command.sources.getD [] ≠ [] ∧
        (command.mode = .multiProcess → command.sharedMemory ≠ none) := by
  unfold ReaderFactory.createTask
  split
  · rename_i unset
    simp [unset]
  · rename_i empty
    simp [empty]
  · rename_i front others set
    split <;> rename_i mode
    · simp [called mode, set, mode]
    · cases command.sharedMemory <;> simp [set, mode]
    · simp [set, mode]
    · exact absurd mode defined

theorem writer_ok_iff {arguments : Nat} (defined : command.mode ≠ .undefined)
    (threads : command.mode = .multiThread → arguments = 3)
    (network : command.mode = .network → arguments = 1) :
    (∃ task, WriterFactory.createTask command arguments = .ok task) ↔
      (command.mode ≠ .network → command.dest ≠ none) ∧
        (command.mode = .multiProcess → command.sharedMemory ≠ none) := by
  unfold WriterFactory.createTask
  split <;> rename_i mode
  · cases dest : command.dest <;> simp [threads mode, mode]
  · cases command.sharedMemory <;> cases command.dest <;> simp [mode]
  · simp [network mode, mode]
  · exact absurd mode defined

theorem bothTasks_ok_iff {arguments : Nat} :
    (∃ tasks, bothTasks command arguments = .ok tasks) ↔
      (∃ tasks, ReaderFactory.createTask command arguments = .ok tasks) ∧
        ∃ task, WriterFactory.createTask command arguments = .ok task := by
  unfold bothTasks
  cases ReaderFactory.createTask command arguments with
  | error fault => simp [bind, Except.bind]
  | ok readers =>
    cases WriterFactory.createTask command arguments with
    | error fault => simp [bind, Except.bind]
    | ok writer => simp [bind, Except.bind, pure, Except.pure]

theorem networkTasks_ok_iff (mode : command.mode = .network) :
    (∃ tasks, networkTasks command = .ok tasks) ↔
      (command.network ≠ some .server → command.sources.getD [] ≠ []) := by
  unfold networkTasks
  by_cases server : command.network = some .server
  · obtain ⟨writer, made⟩ := (@writer_ok_iff command 1 (by simp [mode]) (by simp [mode])
      (fun _ => rfl)).mpr (by simp [mode])
    simp [server, made, bind, Except.bind, pure, Except.pure]
  · have readers := @readers_ok_iff command 0 (by simp [mode]) (by simp [mode])
    rw [if_neg server]
    cases made : ReaderFactory.createTask command 0 with
    | error fault => simpa [made, mode, server, bind, Except.bind] using readers
    | ok tasks => simpa [made, mode, server, bind, Except.bind, pure, Except.pure] using readers

/-- Nothing is thrown for want of a field, if and only if the command has them all. -/
theorem created_iff (defined : command.mode ≠ .undefined) :
    (∃ tasks, TaskFactory.create (some command) = .ok tasks) ↔
      ((command.mode = .network → command.network ≠ some .server) →
        command.sources.getD [] ≠ []) ∧
      (command.mode ≠ .network → command.dest ≠ none) ∧
      (command.mode = .multiProcess → command.sharedMemory ≠ none) := by
  simp only [TaskFactory.create]
  split <;> rename_i mode
  · rw [bothTasks_ok_iff, readers_ok_iff defined (fun _ => rfl),
      writer_ok_iff defined (fun _ => rfl) (by simp [mode])]
    simp [mode]
  · rw [bothTasks_ok_iff, readers_ok_iff defined (by simp [mode]),
      writer_ok_iff defined (by simp [mode]) (by simp [mode])]
    simp [mode]
    tauto
  · rw [networkTasks_ok_iff mode]
    simp [mode]
  · exact absurd mode defined

/-- A command is complete, if and only if its tasks can be made and their ports agree. -/
theorem complete_iff_created (defined : command.mode ≠ .undefined) :
    Complete command ↔ (∃ tasks, TaskFactory.create (some command) = .ok tasks) ∧
      (command.mode = .network → command.port.toNat < 2 ^ 16) := by
  rw [created_iff defined]
  constructor
  · intro complete
    exact ⟨⟨complete.sources, complete.dest, complete.sharedMemory⟩, complete.port⟩
  · rintro ⟨⟨sources, dest, sharedMemory⟩, port⟩
    exact ⟨sources, dest, sharedMemory, port, fun mode => endpoint_iff.mpr (port mode)⟩

/-- The options suffice, if what `Parse` checks of the command makes it complete. -/
theorem Suffice.of_complete (complete : Checked (commandOf given) → Complete (commandOf given)) :
    Suffice given := by
  refine ⟨?_, ?_, ?_, ?_⟩
  · intro given_mode
    have mode := commandOf_multiThread.mpr given_mode
    have complete := complete ⟨by simp [mode], by simp [mode], by simp [mode]⟩
    exact ⟨complete.sources (by simp [mode]), complete.dest (by simp [mode])⟩
  · intro given_mode memory
    have mode := commandOf_multiProcess.mpr given_mode
    have complete := complete ⟨by simp [mode], by simp [mode], fun _ => memory⟩
    exact ⟨complete.sources (by simp [mode]), complete.dest (by simp [mode])⟩
  · intro given_mode role
    have mode := commandOf_network.mpr given_mode
    have network : (commandOf given).network ≠ none := by
      rcases role with server | client
      · simp [commandOf, parseNetworkMode_server.mpr server]
      · simp [commandOf, parseNetworkMode_client.mpr client]
    exact (complete ⟨by simp [mode], fun _ => network, by simp [mode]⟩).port mode
  · intro given_mode client
    have mode := commandOf_network.mpr given_mode
    have network : (commandOf given).network = some .client := parseNetworkMode_client.mpr client
    have complete := complete ⟨by simp [mode], by simp [network], by simp [mode]⟩
    exact complete.sources (by simp [network])

theorem Suffice.complete (suffice : Suffice given) (checked : Checked (commandOf given)) :
    Complete (commandOf given) := by
  cases mode : (commandOf given).mode with
  | undefined => exact absurd mode checked.mode
  | multiThread =>
    obtain ⟨sources, dest⟩ := suffice.multiThread (commandOf_multiThread.mp mode)
    exact ⟨fun _ => sources, fun _ => dest, by simp [mode], by simp [mode], by simp [mode]⟩
  | multiProcess =>
    have memory := checked.sharedMemory mode
    obtain ⟨sources, dest⟩ := suffice.multiProcess (commandOf_multiProcess.mp mode) memory
    exact ⟨fun _ => sources, fun _ => dest, fun _ => memory, by simp [mode], by simp [mode]⟩
  | network =>
    have given_mode := commandOf_network.mp mode
    have role : given.networkMode = some (ascii "server") ∨
        given.networkMode = some (ascii "client") := by
      cases network : (commandOf given).network with
      | none => exact absurd network (checked.network mode)
      | some role =>
        cases role with
        | server => exact Or.inl (parseNetworkMode_server.mp network)
        | client => exact Or.inr (parseNetworkMode_client.mp network)
    have port := suffice.network given_mode role
    refine ⟨?_, by simp [mode], by simp [mode], fun _ => port, fun _ => endpoint_iff.mpr port⟩
    intro notServer
    rcases role with server | client
    · exact absurd (parseNetworkMode_server.mpr server) (notServer mode)
    · exact suffice.client given_mode client

/-- For every number of arguments and all options: a command that `Parse` returns is complete, if
    and only if the options suffice, unless the help is asked for. -/
theorem accepted_complete_iff (argc : Nat) (given : VariablesMap) :
    (∀ command, parse argc given = some command → Complete command) ↔
      (argc ≠ 1 → given.help = false → Suffice given) := by
  constructor
  · intro complete more noHelp
    exact .of_complete fun checked =>
      complete _ (parse_eq_some.mpr ⟨more, noHelp, rfl, checked⟩)
  · intro suffice command accepted
    obtain ⟨more, noHelp, rfl, checked⟩ := parse_eq_some.mp accepted
    exact (suffice more noHelp).complete checked

/-- The options of a server on a port of 17 bits. -/
def longPort : VariablesMap where
  mode := some (ascii "network")
  networkMode := some (ascii "server")
  port := some 65537

/-- A source without a destination is accepted, and so is a server on a port of 17 bits, which
    listens on another. -/
theorem accepted_incomplete :
    (∃ command, parse 3 { source := some [ascii "a"] } = some command ∧ ¬ Complete command ∧
      TaskFactory.create (some command) = .error .badOptionalAccess) ∧
    ∃ command, parse 7 longPort = some command ∧ ¬ Complete command ∧
      TaskFactory.create (some command) = .ok { readers := [], writers := [.server 1] } := by
  refine ⟨⟨_, rfl, ?_, rfl⟩, ⟨_, rfl, ?_, rfl⟩⟩
  · intro complete
    exact complete.dest (by decide) rfl
  · intro complete
    exact absurd (complete.port rfl) (by decide)

end FileTransfer
