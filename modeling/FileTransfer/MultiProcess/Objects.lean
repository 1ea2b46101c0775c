import FileTransfer.MultiProcess.MultiProcessTask
import FileTransfer.MultiProcess.Tokens

/-!
# The machine's processes on the protocol's objects

A process of the machine sees the semaphores and the memory that its task has open, and its own
place. So does a party of the protocol: with the values of the protocol's state behind the open
objects, a step of `reader_->Run()` is one of the sender, and a step of `writer_->Run()` is one of
the receiver followed by the write to the destination.
-/

namespace FileTransfer

namespace MultiProcess

/-- What the sender's steps look at. -/
def State.ofSender (s : State) : State :=
  { start [] s.calls with
    sender := s.sender, stop := s.stop, data := s.data, space := s.space, memory := s.memory }

/-- What the receiver's steps look at. -/
def State.ofReceiver (s : State) : State :=
  { start [] [] with
    receiver := s.receiver, stop := s.stop, data := s.data, space := s.space, memory := s.memory }

/-- The sender's step in a state is its step in the part that it looks at. -/
theorem senderStep_local (s : State) :
    senderStep s = (senderStep s.ofSender).map fun t =>
      { t with
        receiver := s.receiver, published := s.published ++ t.published, taken := s.taken
        delivered := s.delivered } := by
  obtain ⟨stop, data, space, memory, calls, sender, receiver, published, taken, delivered⟩ := s
  cases sender with
  | next =>
    cases calls with
    | nil => simp [senderStep, State.ofSender, start]
    | cons call calls => cases call <;> simp [senderStep, State.ofSender, start]
  | waitSpace chunk =>
    by_cases free : 0 < space <;> simp [senderStep, State.ofSender, start, free]
  | map chunk =>
    by_cases empty : memory = [] <;> simp [senderStep, State.ofSender, start, empty]
  | copy chunk i =>
    cases more : chunk[i]? <;> simp [senderStep, State.ofSender, start, more]
  | stopTry =>
    by_cases free : 0 < space <;> simp [senderStep, State.ofSender, start, free]
  | _ => simp [senderStep, State.ofSender, start]

theorem receiverStep_local (page : Nat) (s : State) :
    receiverStep page s = (receiverStep page s.ofReceiver).map fun t =>
      { t with
        calls := s.calls, sender := s.sender, published := s.published
        taken := s.taken + t.taken, delivered := s.delivered ++ t.delivered } := by
  obtain ⟨stop, data, space, memory, calls, sender, receiver, published, taken, delivered⟩ := s
  cases receiver with
  | loop => by_cases post : 0 < stop <;> simp [receiverStep, State.ofReceiver, start, post]
  | tryData => by_cases full : 0 < data <;> simp [receiverStep, State.ofReceiver, start, full]
  | postSpace size =>
    by_cases empty : size = 0 <;> simp [receiverStep, State.ofReceiver, start, empty]
  | writing size done =>
    by_cases more : done.length < size <;>
      simp [receiverStep, State.ofReceiver, start, more]
  | _ => simp [receiverStep, State.ofReceiver, start]

end MultiProcess

namespace MultiProcessTask

open NamedObjects

/-- Three semaphores and a shared-memory object. -/
structure Objects where
  stop : Nat
  data : Nat
  space : Nat
  memory : Nat
  stop_ne_data : stop ≠ data
  stop_ne_space : stop ≠ space
  data_ne_space : data ≠ space

/-- A task has these objects open. -/
structure Access.Opens (access : Access) (o : Objects) : Prop where
  stop : access.semaphores .stop = some o.stop
  data : access.semaphores .dataAvailable = some o.data
  space : access.semaphores .spaceAvailable = some o.space
  memory : access.memory = some o.memory

namespace Objects

/-- The values behind the objects are those of the protocol's state. -/
structure Hold (o : Objects) (sys : System) (s : MultiProcess.State) : Prop where
  stop : sys.semaphores.value o.stop = some s.stop
  data : sys.semaphores.value o.data = some s.data
  space : sys.semaphores.value o.space = some s.space
  memory : sys.memory.value o.memory = some s.memory

/-- The values of the protocol's state put behind the objects. -/
def put (o : Objects) (sys : System) (s : MultiProcess.State) : System :=
  { sys with
    semaphores :=
      ((sys.semaphores.set o.stop s.stop).set o.data s.data).set o.space s.space
    memory := sys.memory.set o.memory s.memory }

variable {o : Objects} {sys : System} {s : MultiProcess.State}

theorem Hold.put (h : o.Hold sys s) (t : MultiProcess.State) : o.Hold (o.put sys t) t := by
  have stop : ((sys.semaphores.set o.stop t.stop)).value o.stop = some t.stop :=
    Store.value_set_self h.stop
  have data : ((sys.semaphores.set o.stop t.stop)).value o.data = some s.data := by
    rw [Store.value_set_of_ne o.stop_ne_data.symm, h.data]
  have space : ((sys.semaphores.set o.stop t.stop).set o.data t.data).value o.space =
      some s.space := by
    rw [Store.value_set_of_ne o.data_ne_space.symm, Store.value_set_of_ne o.stop_ne_space.symm,
      h.space]
  refine ⟨?_, ?_, Store.value_set_self space, Store.value_set_self h.memory⟩
  · rw [Objects.put, Store.value_set_of_ne o.stop_ne_space,
      Store.value_set_of_ne o.stop_ne_data, stop]
  · rw [Objects.put, Store.value_set_of_ne o.data_ne_space, Store.value_set_self data]

/-- What is put behind the objects touches no name and no file. -/
@[simp] theorem put_files (s : MultiProcess.State) : (o.put sys s).files = sys.files := rfl

@[simp] theorem put_mutexes (s : MultiProcess.State) : (o.put sys s).mutexes = sys.mutexes := rfl

@[simp] theorem put_semaphore_names (s : MultiProcess.State) :
    (o.put sys s).semaphores.names = sys.semaphores.names := rfl

@[simp] theorem put_memory_names (s : MultiProcess.State) :
    (o.put sys s).memory.names = sys.memory.names := rfl

/-- The values behind open objects are looked up and put back. -/
theorem Hold.within {access : Access} {f : MultiProcess.State → Option MultiProcess.State}
    (h : o.Hold sys s) (opens : access.Opens o) (base : MultiProcess.State) :
    within sys access f base =
      (f { base with stop := s.stop, data := s.data, space := s.space, memory := s.memory }).map
        fun t => (o.put sys t, t) := by
  simp only [MultiProcessTask.within, opens.stop, opens.data, opens.space, opens.memory, h.stop,
    h.data, h.space, h.memory, Option.bind_eq_bind, Option.bind_some]
  cases f { base with stop := s.stop, data := s.data, space := s.space, memory := s.memory } <;> rfl

/-- `reader_->Run()` takes the sender's step. -/
theorem Hold.serverStep {q : Process} (h : o.Hold sys s) (opens : (q.access .reader).Opens o)
    (calls : q.calls = s.calls) :
    serverStep MultiProcess.senderStep sys q s.sender =
      (MultiProcess.senderStep s).map fun t =>
        (o.put sys t, { q with calls := t.calls, pc := .server t.sender }) := by
  rw [MultiProcessTask.serverStep, h.within opens, MultiProcess.senderStep_local s, calls]
  change ((MultiProcess.senderStep s.ofSender).map _).bind _ = _
  cases MultiProcess.senderStep s.ofSender <;> rfl

/-- What the receiver has passed to the file writer between two states. -/
def newBytes (s t : MultiProcess.State) : List (Option UInt8) :=
  (t.delivered.drop s.delivered.length).flatten

/-- All bytes of a view were there. -/
theorem mapM_id_eq_some {bytes : List (Option UInt8)} {chunk : List UInt8} :
    bytes.mapM id = some chunk ↔ bytes = chunk.map some := by
  induction bytes generalizing chunk with
  | nil => cases chunk <;> simp
  | cons byte bytes ih =>
    cases byte with
    | none => cases chunk <;> simp
    | some byte => cases chunk <;> simp [Option.bind_eq_some_iff, ih, and_comm]

/-- `writer_->Run()` takes the receiver's step, and what that delivers is written. -/
theorem Hold.clientStep {p : Process} {page : Nat} (h : o.Hold sys s)
    (opens : (p.access .writer).Opens o) :
    clientStep (MultiProcess.receiverStep page) sys p s.receiver =
      (MultiProcess.receiverStep page s).bind fun t =>
        (newBytes s t).mapM id |>.bind fun chunk =>
          p.dest.map fun dest =>
            ({ o.put sys t with files := (dest.write sys.files chunk).2 },
              { p with
                dest := some (dest.write sys.files chunk).1, pc := .client t.receiver }) := by
  rw [MultiProcessTask.clientStep, h.within opens, MultiProcess.receiverStep_local page s]
  change ((MultiProcess.receiverStep page s.ofReceiver).map _).bind _ = _
  cases MultiProcess.receiverStep page s.ofReceiver with
  | none => rfl
  | some t =>
    simp only [Option.map_some, Option.bind_some, newBytes, List.drop_left]
    cases t.delivered.flatten.mapM id with
    | none => rfl
    | some chunk => cases p.dest <;> rfl

theorem Hold.clientStep_eq_some {p p' : Process} {page : Nat} {sys' : System} (h : o.Hold sys s)
    (opens : (p.access .writer).Opens o) :
    MultiProcessTask.clientStep (MultiProcess.receiverStep page) sys p s.receiver =
        some (sys', p') ↔
      ∃ t chunk dest, MultiProcess.receiverStep page s = some t ∧
        newBytes s t = chunk.map some ∧ p.dest = some dest ∧
        sys' = { o.put sys t with files := (dest.write sys.files chunk).2 } ∧
        p' = { p with
          dest := some (dest.write sys.files chunk).1, pc := .client t.receiver } := by
  rw [h.clientStep opens]
  constructor
  · intro next
    obtain ⟨t, stepped, next⟩ := Option.bind_eq_some_iff.mp next
    obtain ⟨chunk, whole, next⟩ := Option.bind_eq_some_iff.mp next
    obtain ⟨dest, opened, same⟩ := Option.map_eq_some_iff.mp next
    cases same
    exact ⟨t, chunk, dest, stepped, mapM_id_eq_some.mp whole, opened, rfl, rfl⟩
  · rintro ⟨t, chunk, dest, stepped, whole, opened, rfl, rfl⟩
    rw [stepped, Option.bind_some, mapM_id_eq_some.mpr whole, Option.bind_some, opened]
    rfl

end Objects

end MultiProcessTask

end FileTransfer
