import FileTransfer.Common.Encryption
import FileTransfer.Lib.Posix

/-!
# The command line

`config::SCommand` (`Config.h:48`) and `ProgramOptions::Parse` (`ProgramOptions.h:85`) on the
options that were given.
-/

namespace FileTransfer

open Posix

/-- `config::Mode` (`Config.h:17`). -/
inductive Mode where
  | undefined
  | multiThread
  | multiProcess
  | network
  deriving DecidableEq

/-- `config::NetworkMode` (`Config.h:34`). -/
inductive NetworkMode where
  | server
  | client
  deriving DecidableEq

/-- `config::SCommand` (`Config.h:48`). -/
structure SCommand where
  mode : Mode
  sources : Option (List Path)
  dest : Option Path
  sharedMemory : Option Path
  network : Option NetworkMode
  serverName : List UInt8
  port : UInt64
  deriving DecidableEq

namespace ProgramOptions

/-- `po::variables_map`, with the type of each option (`ProgramOptions.h:70`). -/
structure VariablesMap where
  help : Bool := false
  source : Option (List Path) := none
  destination : Option Path := none
  mode : Option (List UInt8) := none
  sharedMemory : Option Path := none
  networkMode : Option (List UInt8) := none
  serverName : Option (List UInt8) := none
  port : Option UInt64 := none

/-- `po::store` puts the default values in where an option is not given. -/
def stored (given : VariablesMap) : VariablesMap :=
  { given with
    mode := some (given.mode.getD (ascii "multi_thread"))
    serverName := some (given.serverName.getD (ascii "localhost"))
    port := some (given.port.getD 12345) }

/-- `ParseMode` (`ProgramOptions.h:163`). -/
def parseMode (modeAsString : List UInt8) : Mode :=
  if modeAsString = ascii "multi_thread" then .multiThread
  else if modeAsString = ascii "multi_process" then .multiProcess
  else if modeAsString = ascii "network" then .network
  else .undefined

/-- `ParseNetworkMode` (`ProgramOptions.h:176`). -/
def parseNetworkMode (networkAsString : Option (List UInt8)) : Option NetworkMode :=
  match networkAsString with
  | none => none
  | some name =>
    if name = ascii "server" then some .server
    else if name = ascii "client" then some .client
    else none

/-- What `Parse` does with the map; an error is the line it writes to `std::cerr`, if there is
    one. -/
def validate (argc : Nat) (commands : VariablesMap) : Except (List UInt8) SCommand :=
  if argc = 1 ∨ commands.help = true then .error []
  else
    match commands.mode with
    | none => .error (ascii "Error: Required parameter 'mode' is missing.\n")
    | some modeAsString =>
      let mode := parseMode modeAsString
      let network := parseNetworkMode commands.networkMode
      if mode = .undefined then
        .error (ascii "Error: Invalid mode '" ++ modeAsString ++ ascii "'.\n")
      else if mode = .network ∧ network = none then
        .error (ascii "Error: Required parameter 'network_mode' is missing or invalid.\n")
      else if mode = .multiProcess ∧ commands.sharedMemory = none then
        .error (ascii "Error: Required parameter 'shared_memory' is missing.\n")
      else
        match commands.serverName, commands.port with
        | some serverName, some port =>
          .ok
            { mode, sources := commands.source, dest := commands.destination,
              sharedMemory := commands.sharedMemory, network, serverName, port }
        -- `as` on an empty value.
        | _, _ =>
          .error (ascii "Error: boost::bad_any_cast: failed conversion using boost::any_cast\n")

/-- `Parse` (`ProgramOptions.h:85`), after the command line has been split into options. -/
def parse (argc : Nat) (given : VariablesMap) : Option SCommand :=
  (validate argc (stored given)).toOption

/-- The command with the values of the map. -/
structure HasValues (commands : VariablesMap) (command : SCommand) : Prop where
  mode : commands.mode.map parseMode = some command.mode
  sources : command.sources = commands.source
  dest : command.dest = commands.destination
  sharedMemory : command.sharedMemory = commands.sharedMemory
  network : command.network = parseNetworkMode commands.networkMode
  serverName : commands.serverName = some command.serverName
  port : commands.port = some command.port

/-- What `Parse` checks of a command. -/
structure Checked (command : SCommand) : Prop where
  mode : command.mode ≠ .undefined
  network : command.mode = .network → command.network ≠ none
  sharedMemory : command.mode = .multiProcess → command.sharedMemory ≠ none

variable {argc : Nat} {commands given : VariablesMap} {command : SCommand} {name : List UInt8}

theorem validate_eq_ok :
    validate argc commands = .ok command ↔
      argc ≠ 1 ∧ commands.help = false ∧ HasValues commands command ∧ Checked command := by
  constructor
  · intro accepted
    unfold validate at accepted
    split at accepted
    · cases accepted
    rename_i asked
    rw [not_or, Bool.not_eq_true] at asked
    refine ⟨asked.1, asked.2, ?_⟩
    split at accepted
    · cases accepted
    rename_i modeAsString mode
    simp only at accepted
    split at accepted
    · cases accepted
    rename_i defined
    split at accepted
    · cases accepted
    rename_i network
    split at accepted
    · cases accepted
    rename_i memory
    split at accepted
    · rename_i serverName port
      cases accepted
      refine ⟨⟨by rw [mode]; rfl, rfl, rfl, rfl, rfl, serverName, port⟩, defined, ?_, ?_⟩
      · exact fun there none => network ⟨there, none⟩
      · exact fun there none => memory ⟨there, none⟩
    · cases accepted
  · rintro ⟨more, noHelp, values, checked⟩
    obtain ⟨modeAsString, mode, parsed⟩ := Option.map_eq_some_iff.mp values.mode
    have network := checked.network
    have memory := checked.sharedMemory
    rw [values.network] at network
    rw [values.sharedMemory] at memory
    rw [← parsed] at network memory
    have defined : parseMode modeAsString ≠ .undefined := parsed ▸ checked.mode
    obtain ⟨_, _, _, _, _, _, _⟩ := command
    obtain ⟨-, rfl, rfl, rfl, rfl, serverName, port⟩ := values
    subst parsed
    have asked : ¬ (argc = 1 ∨ commands.help = true) := by simp [more, noHelp]
    simp only [validate, mode, serverName, port]
    rw [if_neg asked, if_neg defined, if_neg fun missing => network missing.1 missing.2,
      if_neg fun missing => memory missing.1 missing.2]

/-- The command made of the options. -/
def commandOf (given : VariablesMap) : SCommand :=
  { mode := parseMode (given.mode.getD (ascii "multi_thread"))
    sources := given.source
    dest := given.destination
    sharedMemory := given.sharedMemory
    network := parseNetworkMode given.networkMode
    serverName := given.serverName.getD (ascii "localhost")
    port := given.port.getD 12345 }

theorem hasValues_stored : HasValues (stored given) command ↔ command = commandOf given := by
  constructor
  · intro values
    obtain ⟨mode, _, _, _, _, _, _⟩ := command
    obtain ⟨parsed, rfl, rfl, rfl, rfl, serverName, port⟩ := values
    cases parsed
    cases serverName
    cases port
    rfl
  · rintro rfl
    exact ⟨rfl, rfl, rfl, rfl, rfl, rfl, rfl⟩

theorem parse_eq_some :
    parse argc given = some command ↔
      argc ≠ 1 ∧ given.help = false ∧ command = commandOf given ∧ Checked command := by
  have ok : parse argc given = some command ↔ validate argc (stored given) = .ok command := by
    unfold parse
    cases validate argc (stored given) <;> simp [Except.toOption]
  rw [ok, validate_eq_ok, hasValues_stored]
  rfl

theorem parseMode_multiThread : parseMode name = .multiThread ↔ name = ascii "multi_thread" := by
  unfold parseMode
  split <;> rename_i thread
  · simp [thread]
  · repeat' split
    all_goals simp [thread]

theorem parseMode_multiProcess :
    parseMode name = .multiProcess ↔ name = ascii "multi_process" := by
  unfold parseMode
  split <;> rename_i thread
  · subst thread
    decide
  · split <;> rename_i process
    · simp [process]
    · split <;> simp [process]

theorem parseMode_network : parseMode name = .network ↔ name = ascii "network" := by
  unfold parseMode
  split <;> rename_i thread
  · subst thread
    decide
  · split <;> rename_i process
    · subst process
      decide
    · split <;> rename_i network <;> simp [network]

theorem parseNetworkMode_client {name : Option (List UInt8)} :
    parseNetworkMode name = some .client ↔ name = some (ascii "client") := by
  cases name with
  | none => simp [parseNetworkMode]
  | some name =>
    simp only [parseNetworkMode, Option.some.injEq]
    split <;> rename_i server
    · subst server
      decide
    · split <;> rename_i client <;> simp [client]

theorem parseNetworkMode_server {name : Option (List UInt8)} :
    parseNetworkMode name = some .server ↔ name = some (ascii "server") := by
  cases name with
  | none => simp [parseNetworkMode]
  | some name =>
    simp only [parseNetworkMode, Option.some.injEq]
    split <;> rename_i server
    · simp [server]
    · split <;> simp [server]

theorem commandOf_multiThread : (commandOf given).mode = .multiThread ↔
    given.mode = none ∨ given.mode = some (ascii "multi_thread") := by
  cases mode : given.mode with
  | none => simp [commandOf, mode, parseMode_multiThread]
  | some name => simp [commandOf, mode, parseMode_multiThread]

theorem commandOf_multiProcess : (commandOf given).mode = .multiProcess ↔
    given.mode = some (ascii "multi_process") := by
  cases mode : given.mode with
  | none =>
    simp only [commandOf, mode, Option.getD_none, parseMode_multiProcess]
    decide
  | some name => simp [commandOf, mode, parseMode_multiProcess]

theorem commandOf_network : (commandOf given).mode = .network ↔
    given.mode = some (ascii "network") := by
  cases mode : given.mode with
  | none =>
    simp only [commandOf, mode, Option.getD_none, parseMode_network]
    decide
  | some name => simp [commandOf, mode, parseMode_network]

end ProgramOptions

end FileTransfer
