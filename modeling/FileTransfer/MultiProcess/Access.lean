import FileTransfer.MultiProcess.Tokens

/-!
# The semaphores alone

`SharedWriteDataAccess` and `SharedReadDataAccess` around handlers of which only the beginning
and the end of each call are seen. The receiver polls `IsRunning` and `Read` as often as it likes
and in any order, not only as `BufferTransferTask` does.
-/

namespace FileTransfer.MultiProcess.Access

/-- What is seen of the handlers `SharedWriteDataHandler` and `SharedReadDataHandler`. -/
inductive Event where
  | writeBegin
  | writeEnd
  | readBegin
  | readEnd
  deriving DecidableEq

/-- Where the sender is in `SharedWriteDataAccess` (`SharedWriteDataAccess.h:63`). -/
inductive SenderPc where
  /-- Between two calls. -/
  | next
  /-- `spaceAvailableSemaphore_->wait()`. -/
  | waitSpace (data : List UInt8)
  /-- About to call `handler_->Write(data)`, and in it. -/
  | call (data : List UInt8)
  | inside (data : List UInt8)
  /-- `dataAvailableSemaphore_->post()`. -/
  | postData (data : List UInt8)
  /-- The loop of `Stop`: the post and the `try_wait`. -/
  | stopPost
  | stopTry
  /-- `Stop` has returned. -/
  | stopped
  deriving DecidableEq

/-- Where the receiver is in `SharedReadDataAccess` (`SharedReadDataAccess.h:63`). -/
inductive ReceiverPc where
  /-- Between two calls. -/
  | idle
  /-- `dataAvailableSemaphore_->try_wait()`. -/
  | tryData
  /-- About to call `handler_->Read()`, and in it. -/
  | call
  | inside
  /-- `spaceAvailableSemaphore_->post()`. -/
  | postSpace
  deriving DecidableEq

/-- The semaphores, the writes still to come before `Stop`, and what the handlers did. -/
structure State where
  stop : Nat
  data : Nat
  space : Nat
  writes : List (List UInt8)
  sender : SenderPc
  receiver : ReceiverPc
  trace : List Event
  deriving DecidableEq

/-- Fresh semaphores and a sender that makes these writes and then stops. -/
def start (writes : List (List UInt8)) : State :=
  { stop := 0, data := 0, space := 1, writes, sender := .next, receiver := .idle, trace := [] }

inductive Action where
  | sender
  /-- The receiver calls `IsRunning`. -/
  | isRunning
  /-- The receiver calls `Read`. -/
  | read
  /-- The receiver goes on in `Read`. -/
  | receiver
  deriving DecidableEq

/-- One step of the sender. -/
def senderStep (s : State) : Option State :=
  match s.sender with
  | .next =>
    match s.writes with
    | [] => some { s with sender := .stopPost }
    | data :: writes => some { s with writes, sender := .waitSpace data }
  | .waitSpace data =>
    if 0 < s.space then some { s with space := s.space - 1, sender := .call data } else none
  | .call data => some { s with sender := .inside data, trace := s.trace ++ [.writeBegin] }
  | .inside data => some { s with sender := .postData data, trace := s.trace ++ [.writeEnd] }
  | .postData _ => some { s with data := s.data + 1, sender := .next }
  | .stopPost => some { s with stop := s.stop + 1, sender := .stopTry }
  | .stopTry =>
    if 0 < s.space then some { s with space := s.space - 1, sender := .stopped }
    else some { s with sender := .stopPost }
  | .stopped => none

/-- `IsRunning`: one `try_wait` on the stop semaphore. -/
def isRunningStep (s : State) : Option State :=
  match s.receiver with
  | .idle => if 0 < s.stop then some { s with stop := s.stop - 1 } else some s
  | _ => none

def readStep (s : State) : Option State :=
  match s.receiver with
  | .idle => some { s with receiver := .tryData }
  | _ => none

/-- One step of the receiver inside `Read`. -/
def receiverStep (s : State) : Option State :=
  match s.receiver with
  | .idle => none
  | .tryData =>
    if 0 < s.data then some { s with data := s.data - 1, receiver := .call }
    else some { s with receiver := .idle }
  | .call => some { s with receiver := .inside, trace := s.trace ++ [.readBegin] }
  | .inside => some { s with receiver := .postSpace, trace := s.trace ++ [.readEnd] }
  | .postSpace => some { s with space := s.space + 1, receiver := .idle }

def step (s : State) : Action → Option State
  | .sender => senderStep s
  | .isRunning => isRunningStep s
  | .read => readStep s
  | .receiver => receiverStep s

/-- Some interleaving leads from `s` to `s'`. -/
abbrev Reaches (s s' : State) : Prop := Transition.Reaches step (fun _ _ => True) s s'

/-- The sender is between its wait on space and its post of data. -/
def SenderPc.token : SenderPc → Nat
  | .call _ => 1
  | .inside _ => 1
  | .postData _ => 1
  | _ => 0

/-- The receiver is between its `try_wait` on data and its post of space. -/
def ReceiverPc.token : ReceiverPc → Nat
  | .call => 1
  | .inside => 1
  | .postSpace => 1
  | _ => 0

/-- The sender's `Stop` has taken the final token. -/
def SenderPc.final : SenderPc → Nat
  | .stopped => 1
  | _ => 0

/-- A chunk on its way: stored, then read. -/
def round : List Event := [.writeBegin, .writeEnd, .readBegin, .readEnd]

/-- A number of chunks, one after the other. -/
def rounds (n : Nat) : List Event := (List.replicate n round).flatten

/-- How far the round of the present chunk is, for each place where the token may be. -/
def SenderPc.begun : SenderPc → List Event
  | .inside _ => [.writeBegin]
  | .postData _ => [.writeBegin, .writeEnd]
  | _ => []

def ReceiverPc.begun : ReceiverPc → List Event
  | .call => [.writeBegin, .writeEnd]
  | .inside => [.writeBegin, .writeEnd, .readBegin]
  | _ => []

def State.begun (s : State) : List Event :=
  s.sender.begun ++ (if s.data = 0 then [] else [.writeBegin, .writeEnd]) ++ s.receiver.begun

/-- There is one token, and where it is says what the handlers have done. -/
structure Turns (s : State) : Prop where
  conserved : s.space + s.data + s.sender.token + s.receiver.token + s.sender.final = 1
  trace : ∃ n, s.trace = rounds n ++ s.begun

variable {s s' : State}

theorem rounds_succ (n : Nat) : rounds (n + 1) = rounds n ++ round := by
  rw [rounds, List.replicate_succ', List.flatten_append, List.flatten_singleton, rounds]

theorem SenderPc.begun_of_token {pc : SenderPc} (none : pc.token = 0) : pc.begun = [] := by
  cases pc <;> first | rfl | cases none

theorem ReceiverPc.begun_of_token {pc : ReceiverPc} (none : pc.token = 0) : pc.begun = [] := by
  cases pc <;> first | rfl | cases none

theorem SenderPc.begun_prefix (pc : SenderPc) : pc.begun <+: round := by
  cases pc with
  | inside data => exact ⟨[.writeEnd, .readBegin, .readEnd], rfl⟩
  | postData data => exact ⟨[.readBegin, .readEnd], rfl⟩
  | _ => exact List.nil_prefix

theorem ReceiverPc.begun_prefix (pc : ReceiverPc) : pc.begun <+: round := by
  cases pc with
  | call => exact ⟨[.readBegin, .readEnd], rfl⟩
  | inside => exact ⟨[.readEnd], rfl⟩
  | _ => exact List.nil_prefix

theorem Turns.start (writes : List (List UInt8)) : Turns (Access.start writes) :=
  ⟨rfl, 0, rfl⟩

theorem Turns.senderStep (h : Turns s) (next : senderStep s = some s') : Turns s' := by
  obtain ⟨conserved, n, trace⟩ := h
  unfold Access.senderStep at next
  cases pc : s.sender <;> simp only [pc, SenderPc.token, SenderPc.final] at next conserved
  case next =>
    simp only [State.begun, pc] at trace
    split at next <;> cases next
    all_goals exact ⟨by simpa [SenderPc.token, SenderPc.final] using conserved, n, trace⟩
  case waitSpace data =>
    simp only [State.begun, pc] at trace
    split at next <;> cases next
    refine ⟨?_, n, trace⟩
    simp only [SenderPc.token, SenderPc.final]
    omega
  case call data =>
    cases next
    have empty : s.data = 0 := by omega
    have elsewhere : s.receiver.begun = [] := ReceiverPc.begun_of_token (by omega)
    refine ⟨by simpa [SenderPc.token, SenderPc.final] using conserved, n, ?_⟩
    simp [trace, State.begun, pc, SenderPc.begun, empty, elsewhere]
  case inside data =>
    cases next
    have empty : s.data = 0 := by omega
    have elsewhere : s.receiver.begun = [] := ReceiverPc.begun_of_token (by omega)
    refine ⟨by simpa [SenderPc.token, SenderPc.final] using conserved, n, ?_⟩
    simp [trace, State.begun, pc, SenderPc.begun, empty, elsewhere]
  case postData data =>
    cases next
    have empty : s.data = 0 := by omega
    have elsewhere : s.receiver.begun = [] := ReceiverPc.begun_of_token (by omega)
    refine ⟨?_, n, ?_⟩
    · simp only [SenderPc.token, SenderPc.final]
      omega
    · simp [trace, State.begun, pc, SenderPc.begun, empty, elsewhere]
  case stopPost =>
    cases next
    simp only [State.begun, pc] at trace
    exact ⟨by simpa [SenderPc.token, SenderPc.final] using conserved, n, trace⟩
  case stopTry =>
    simp only [State.begun, pc] at trace
    split at next <;> cases next
    all_goals
      refine ⟨?_, n, trace⟩
      simp only [SenderPc.token, SenderPc.final]
      omega
  case stopped => cases next

theorem Turns.receiverStep (h : Turns s) (next : receiverStep s = some s') : Turns s' := by
  obtain ⟨conserved, n, trace⟩ := h
  unfold Access.receiverStep at next
  cases pc : s.receiver <;> simp only [pc, ReceiverPc.token] at next conserved
  case idle => cases next
  case tryData =>
    split at next <;> cases next
    case isTrue full =>
      have last : s.data - 1 = 0 := by omega
      have none : s.sender.token = 0 := by omega
      refine ⟨?_, n, ?_⟩
      · simp only [ReceiverPc.token]
        omega
      · have posted : s.data ≠ 0 := by omega
        rw [trace]
        simp [State.begun, SenderPc.begun_of_token none, ReceiverPc.begun, pc, last, posted]
    case isFalse =>
      simp only [State.begun, pc] at trace
      exact ⟨conserved, n, trace⟩
  case call =>
    cases next
    have empty : s.data = 0 := by omega
    have elsewhere : s.sender.begun = [] := SenderPc.begun_of_token (by omega)
    refine ⟨conserved, n, ?_⟩
    simp [trace, State.begun, pc, ReceiverPc.begun, empty, elsewhere]
  case inside =>
    cases next
    have empty : s.data = 0 := by omega
    have elsewhere : s.sender.begun = [] := SenderPc.begun_of_token (by omega)
    -- The round is complete.
    refine ⟨conserved, n + 1, ?_⟩
    rw [rounds_succ]
    simp [trace, State.begun, pc, ReceiverPc.begun, empty, elsewhere, round]
  case postSpace =>
    cases next
    refine ⟨?_, n, ?_⟩
    · simp only [ReceiverPc.token]
      omega
    · simpa only [State.begun, pc, ReceiverPc.begun] using trace

theorem Turns.step {a : Action} (h : Turns s) (next : Access.step s a = some s') : Turns s' := by
  cases a with
  | sender => exact h.senderStep next
  | receiver => exact h.receiverStep next
  | isRunning =>
    simp only [Access.step, isRunningStep] at next
    split at next
    · split at next <;> cases next
      · exact ⟨h.conserved, h.trace⟩
      · exact h
    · cases next
  | read =>
    simp only [Access.step, readStep] at next
    split at next <;> cases next
    rename_i pc
    obtain ⟨conserved, n, trace⟩ := h
    simp only [pc, ReceiverPc.token] at conserved
    simp only [State.begun, pc] at trace
    exact ⟨conserved, n, trace⟩

theorem Turns.of_reaches {writes : List (List UInt8)} (run : Reaches (Access.start writes) s) :
    Turns s :=
  run.invariant (Turns.start writes) fun _ _ _ turns _ next => turns.step next

/-- What the handlers have done is a beginning of rounds. -/
theorem Turns.prefix_rounds (h : Turns s) : ∃ n, s.trace <+: rounds n := by
  obtain ⟨conserved, n, trace⟩ := h
  have begun : s.begun <+: round := by
    unfold State.begun
    by_cases sending : s.sender.token = 0
    · rw [SenderPc.begun_of_token sending, List.nil_append]
      by_cases empty : s.data = 0
      · rw [if_pos empty, List.nil_append]
        exact s.receiver.begun_prefix
      · have elsewhere : s.receiver.begun = [] := ReceiverPc.begun_of_token (by omega)
        rw [if_neg empty, elsewhere]
        exact ⟨[.readBegin, .readEnd], rfl⟩
    · have empty : s.data = 0 := by omega
      have elsewhere : s.receiver.begun = [] := ReceiverPc.begun_of_token (by omega)
      rw [if_pos empty, elsewhere, List.append_nil, List.append_nil]
      exact s.sender.begun_prefix
  refine ⟨n + 1, ?_⟩
  rw [trace, rounds_succ]
  exact (List.prefix_append_right_inj _).mpr begun

/-- In every interleaving there is one token. So the two handlers take turns, beginning with a
    `Write`, and never run at once, and neither data semaphore is ever above one. -/
theorem token_conserved (writes : List (List UInt8)) (run : Reaches (start writes) s) :
    s.space + s.data + s.sender.token + s.receiver.token + s.sender.final = 1 ∧
      ¬ ((∃ data, s.sender = .inside data) ∧ s.receiver = .inside) ∧
      (∃ n, s.trace <+: rounds n) ∧ s.data ≤ 1 ∧ s.space ≤ 1 := by
  have turns := Turns.of_reaches run
  have conserved := turns.conserved
  refine ⟨conserved, ?_, turns.prefix_rounds, by omega, by omega⟩
  rintro ⟨⟨data, sending⟩, reading⟩
  simp only [sending, reading, SenderPc.token, ReceiverPc.token] at conserved
  omega

/-- One write, with the receiver in its handler. -/
theorem token_conserved_small : ∃ s, Reaches (start [[1]]) s ∧
    s.trace = [.writeBegin, .writeEnd, .readBegin] ∧
    s.space + s.data + s.sender.token + s.receiver.token + s.sender.final = 1 := by
  have run : Reaches (start [[1]]) _ :=
    .of_run (.replicate 7 .sender ++ [.isRunning, .read, .receiver, .receiver]) rfl
      fun _ _ _ => trivial
  exact ⟨_, run, rfl, (token_conserved [[1]] run).1⟩

/-- The chunks among the calls. -/
def writesOf (calls : List Call) : List (List UInt8) :=
  calls.filterMap fun
    | .write data => some data
    | .stop => none

/-- The protocol's parties, seen from their data accesses. -/
def viewSender (calls : List Call) : MultiProcess.SenderPc → SenderPc
  | .next => if calls = [] then .stopped else .next
  | .waitSpace data => .waitSpace data
  | .truncate data => .call data
  | .map data => .inside data
  | .copy data _ => .inside data
  | .postData data => .postData data
  | .stopPost => .stopPost
  | .stopTry => .stopTry
  | .finished => .stopped

def viewReceiver : MultiProcess.ReceiverPc → ReceiverPc
  | .tryData => .tryData
  | .mapRead => .call
  | .postSpace _ => .postSpace
  | _ => .idle

def view (s : MultiProcess.State) (trace : List Event) : State :=
  { stop := s.stop, data := s.data, space := s.space, writes := writesOf s.calls,
    sender := viewSender s.calls s.sender, receiver := viewReceiver s.receiver, trace }

section Refinement

variable {page : Nat} {chunks : List (List UInt8)} {p p' : MultiProcess.State}
  {trace : List Event}

theorem writesOf_callsFor (chunks : List (List UInt8)) :
    writesOf (FileDataTransferTask.callsFor chunks) = chunks := by
  simp [writesOf, FileDataTransferTask.callsFor, List.filterMap_append, List.filterMap_map]

/-- Each step of the protocol's sender is a run of the data access. -/
theorem senderStep_refines (copying : Copying chunks p)
    (next : MultiProcess.senderStep p = some p') :
    ∃ trace', Reaches (view p trace) (view p' trace') := by
  have script := copying.script
  cases senderStep_move next <;> rename_i pc
  case finish none =>
    refine ⟨trace, ?_⟩
    simp only [view, pc, none, viewSender, if_true]
    exact .refl
  case callWrite chunk calls call =>
    refine ⟨trace, .single trivial (a := .sender) ?_⟩
    simp [step, senderStep, view, pc, call, viewSender, writesOf]
  case callStop calls call =>
    refine ⟨trace, .single trivial (a := .sender) ?_⟩
    have none : calls = [] := by
      rcases script with ⟨rest, toCome, -⟩ | ⟨noCalls, -⟩
      · cases rest with
        | nil => cases call.symm.trans toCome; rfl
        | cons chunk rest => cases call.symm.trans toCome
      · cases noCalls.symm.trans call
    simp [step, senderStep, view, pc, call, none, viewSender, writesOf]
  case takeSpace chunk free =>
    refine ⟨trace, .single trivial (a := .sender) ?_⟩
    simp [step, senderStep, view, pc, free, viewSender]
  case truncate chunk =>
    refine ⟨trace ++ [.writeBegin], .single trivial (a := .sender) ?_⟩
    simp [step, senderStep, view, pc, viewSender]
  case mapEmpty chunk empty =>
    refine ⟨trace ++ [.writeEnd], .single trivial (a := .sender) ?_⟩
    simp [step, senderStep, view, pc, viewSender]
  case map chunk =>
    refine ⟨trace, ?_⟩
    simp only [view, pc, viewSender]
    exact .refl
  case copy chunk i byte more =>
    refine ⟨trace, ?_⟩
    simp only [view, pc, viewSender]
    exact .refl
  case copied chunk i all =>
    refine ⟨trace ++ [.writeEnd], .single trivial (a := .sender) ?_⟩
    simp [step, senderStep, view, pc, viewSender]
  case postData chunk =>
    have toCome := script.calls_ne_nil (show p.sender.chunk = some _ by rw [pc]; rfl)
    refine ⟨trace, .single trivial (a := .sender) ?_⟩
    simp [step, senderStep, view, pc, viewSender, toCome]
  case stopPost =>
    refine ⟨trace, .single trivial (a := .sender) ?_⟩
    simp [step, senderStep, view, pc, viewSender]
  case stopTaken free =>
    have none := script.calls_eq_nil (Or.inr pc)
    refine ⟨trace, .single trivial (a := .sender) ?_⟩
    simp [step, senderStep, view, pc, viewSender, free, none]
  case stopAgain =>
    have empty : ¬ 0 < p.space := by
      intro free
      simp [MultiProcess.senderStep, pc, free] at next
    refine ⟨trace, .single trivial (a := .sender) ?_⟩
    simp [step, senderStep, view, pc, viewSender, empty]

/-- A handler that fails has begun and ended. -/
theorem senderFault_refines (next : MultiProcess.senderFault p = some p') :
    ∃ trace', Reaches (view p trace) (view p' trace') := by
  have ends : ∀ (q : MultiProcess.State) (chunk : List UInt8) (trace : List Event),
      q.sender = .map chunk → Reaches (view q trace)
        (view { q with sender := .postData chunk } (trace ++ [.writeEnd])) := by
    intro q chunk trace atMap
    refine .single trivial (a := .sender) ?_
    simp [step, senderStep, view, atMap, viewSender]
  obtain ⟨chunk, atTruncate | atMap, rfl⟩ := senderFault_eq next
  · refine ⟨trace ++ [.writeBegin] ++ [.writeEnd], .head trivial (a := .sender)
      (t := view { p with sender := .map chunk } (trace ++ [.writeBegin])) ?_ ?_⟩
    · simp [step, senderStep, view, atTruncate, viewSender]
    · exact ends { p with sender := .map chunk } chunk _ rfl
  · exact ⟨_, ends p chunk trace atMap⟩

/-- The receiver's handler begins and ends, whatever size it returns. -/
theorem handler_read {size : Nat} (pc : p.receiver = .mapRead) :
    Reaches (view p trace)
      (view { p with receiver := .postSpace size } (trace ++ [.readBegin] ++ [.readEnd])) := by
  refine .head trivial (a := .receiver)
    (t := { view p (trace ++ [.readBegin]) with receiver := .inside }) ?_
    (.single trivial (a := .receiver) ?_)
  · simp [step, receiverStep, view, pc, viewReceiver]
  · simp [step, receiverStep, view, viewReceiver]

/-- Each step of the protocol's receiver is a run of the data access. -/
theorem receiverStep_refines (normal : p.receiver.normal)
    (next : MultiProcess.receiverStep page p = some p') :
    ∃ trace', Reaches (view p trace) (view p' trace') := by
  cases receiverStep_move next <;> rename_i pc
  case leave post =>
    refine ⟨trace, .single trivial (a := .isRunning) ?_⟩
    simp [step, isRunningStep, view, pc, post, viewReceiver]
  case poll unposted =>
    refine ⟨trace, .head trivial (a := .isRunning) (t := view p trace) ?_
      (.single trivial (a := .read) ?_)⟩
    · simp [step, isRunningStep, view, pc, unposted, viewReceiver]
    · simp [step, readStep, view, pc, viewReceiver]
  case takeData full =>
    refine ⟨trace, .single trivial (a := .receiver) ?_⟩
    simp [step, receiverStep, view, pc, full, viewReceiver]
  case noData empty =>
    refine ⟨trace, .single trivial (a := .receiver) ?_⟩
    simp [step, receiverStep, view, pc, empty, viewReceiver]
  case map => exact ⟨_, handler_read pc⟩
  case returnEmpty size empty =>
    refine ⟨trace, .single trivial (a := .receiver) ?_⟩
    simp [step, receiverStep, view, pc, viewReceiver]
  case returnView size filled =>
    refine ⟨trace, .single trivial (a := .receiver) ?_⟩
    simp [step, receiverStep, view, pc, viewReceiver]
  case write size done more =>
    refine ⟨trace, ?_⟩
    simp only [view, pc, viewReceiver]
    exact .refl
  case written size done all =>
    refine ⟨trace, ?_⟩
    simp only [view, pc, viewReceiver]
    exact .refl
  case fail => exact absurd pc normal.1

/-- The protocol refines its semaphores: while the file writer does not fail, each of its runs is
    a run of the two data accesses. So its handlers take turns, too. -/
theorem reaches_view (page : Nat) (memory : List UInt8) (chunks : List (List UInt8))
    (run : MultiProcess.Reaches page noThrow
      (MultiProcess.start memory (FileDataTransferTask.callsFor chunks)) p) :
    ∃ trace, Reaches (start chunks) (view p trace) ∧ ∃ n, trace <+: rounds n := by
  have related : Copying chunks (MultiProcess.start memory (FileDataTransferTask.callsFor chunks)) ∧
      ∃ trace, start chunks = view
        (MultiProcess.start memory (FileDataTransferTask.callsFor chunks)) trace := by
    refine ⟨.start memory, [], ?_⟩
    simp [start, view, MultiProcess.start, writesOf_callsFor, viewSender, viewReceiver,
      FileDataTransferTask.callsFor_ne_nil]
  have simulated := @Transition.Reaches.forward _ _ _ _ _ _ _ _ Access.step (fun _ _ => True)
    (fun q b => Copying chunks q ∧ ∃ trace, b = view q trace) _ run related ?_
  · obtain ⟨_, reached, -, trace, rfl⟩ := simulated
    exact ⟨trace, reached, (Turns.of_reaches reached).prefix_rounds⟩
  · rintro q _ a q' ⟨copying, trace, rfl⟩ clean next
    have copying' := copying.step clean next
    have matched : ∃ trace', Reaches (view q trace) (view q' trace') := by
      cases a with
      | sender => exact senderStep_refines copying next
      | senderFault => exact senderFault_refines next
      | receiver => exact receiverStep_refines copying.normal next
      | receiverFault =>
        obtain ⟨pc, rfl⟩ := receiverFault_eq next
        exact ⟨_, handler_read pc⟩
      | receiverThrows => exact absurd rfl clean
    obtain ⟨trace', run⟩ := matched
    exact ⟨_, run, copying', trace', rfl⟩

end Refinement

end FileTransfer.MultiProcess.Access
