import FileTransfer.MultiProcess.PairCopy

/-!
# The destination of a copy by two processes

The protocol's results on the disk. When the server leaves the client's view alone and posts no stop
over data that is not about to be taken, the client's destination is a prefix of the server's source,
and all of it when the client returns. And some order of the steps is such a copy.
-/

namespace FileTransfer.MultiProcessTask

open Posix NamedObjects
open MultiProcess (Keeping Stored Finished)

/-- The step of the sender that comes leaves what the receiver has still to look at, and is no post
    of the stop semaphore over data that is not about to be taken. -/
def Careful (page : Nat) (s : MultiProcess.State) : Prop :=
  (∀ i ∈ s.receiver.unread,
      MultiProcess.byteAt page (MultiProcess.memoryAfter s) i =
        MultiProcess.byteAt page s.memory i) ∧
    (s.sender = .stopPost → s.data = 0 ∨ s.receiver = .tryData)

instance (page : Nat) (s : MultiProcess.State) : Decidable (Careful page s) :=
  inferInstanceAs (Decidable (_ ∧ _))

/-- What a process has still to do in `Create` and before it has a role. -/
def Pc.toRole : Pc → Nat
  | .creating rest => rest.length + 3
  | .tryClient => 2
  | .tryServer => 1
  | _ => 0

/-- The process is at the end of its task or has returned from it. -/
def Pc.done (pc : Pc) : Prop :=
  pc = .client .finished ∨ pc = .server .finished ∨ pc.returned

/-- The measure of a place, at a process of the machine. -/
def leftAt (measure : Pc → Nat) (m : State) (i : Nat) : Nat :=
  ((m.processes[i]?).map fun p => measure p.pc).getD 0

variable {platform : Platform} {files : FileSystem} {memory : Path} {commands : List SCommand}
  {ok : MultiProcess.State → Prop} {m m' : State} {i j k : Nat} {p p' q q' : Process}
  {sys sys' : System} {o : Objects} {s t : MultiProcess.State} {chunks : List (List UInt8)}
  {page : Nat} {a b : SCommand}

theorem Careful.blind (page : Nat) : Blind (Careful page) := fun _ _ _ _ => Iff.rfl

theorem paced_careful {a : MultiProcess.Action} :
    Paced (Careful page) s a ↔
      MultiProcess.stopAfterTaken s a ∧ MultiProcess.viewKept page s a := by
  constructor
  · rintro ⟨clean, careful⟩
    exact ⟨⟨clean, fun sender => (careful sender).2⟩, clean, fun sender => (careful sender).1⟩
  · rintro ⟨⟨clean, stop⟩, -, view⟩
    exact ⟨clean, fun sender => ⟨view sender, stop sender⟩⟩

/-- Along careful runs the chunks are where they should be. -/
theorem kept_of_reaches (filled : ∀ chunk ∈ chunks, chunk ≠ [])
    (run : MultiProcess.Reaches page (Paced (Careful page))
      (MultiProcess.start [] (FileDataTransferTask.callsFor chunks)) s) :
    Keeping chunks s ∧ Stored page s := by
  refine run.invariant (I := fun s => Keeping chunks s ∧ Stored page s)
    ⟨.start [], .start [] _⟩ ?_
  rintro t a u ⟨keeping, stored⟩ guard next
  obtain ⟨stop, view⟩ := paced_careful.mp guard
  exact ⟨keeping.step stop next, stored.step keeping.copying filled view next⟩

/-- The bytes that have been delivered. -/
theorem delivered_prefix (filled : ∀ chunk ∈ chunks, chunk ≠ [])
    (run : MultiProcess.Reaches page (Paced (Careful page))
      (MultiProcess.start [] (FileDataTransferTask.callsFor chunks)) s) :
    ∃ bytes, s.delivered.flatten = bytes.map some ∧ bytes <+: chunks.flatten ∧
      (s.receiver = .finished → bytes = chunks.flatten) := by
  obtain ⟨keeping, stored⟩ := kept_of_reaches filled run
  obtain ⟨rest, whole⟩ := stored.unaltered keeping.copying.script
  have taken : s.delivered = (chunks.take s.delivered.length).map (List.map some) := by
    rw [List.map_take, ← whole, List.take_left]
  refine ⟨(chunks.take s.delivered.length).flatten, ?_, ?_, ?_⟩
  · rw [List.map_flatten, ← taken]
  · exact ⟨(chunks.drop s.delivered.length).flatten, by
      rw [← List.flatten_append, List.take_append_drop]⟩
  · intro left
    have all := congrArg List.length (stored.all_delivered keeping left)
    rw [List.length_map] at all
    rw [all, List.take_length]

/-- A step of a process that is not a server is allowed. -/
theorem guarded_of_not_server (found : m.processes[k]? = some p)
    (other : ∀ sender, p.pc ≠ .server sender) : Guarded ok m (.move k .run) := by
  refine ⟨k, rfl, ?_⟩
  intro i s seen
  rw [picture_eq_none found other] at seen
  cases seen

theorem step_of_runStep (found : m.processes[k]? = some p)
    (next : runStep platform m.system p = some (sys', p')) :
    step platform m (.move k .run) =
      some { system := sys', processes := m.processes.set k p' } := by
  simp [step, found, move, next]

theorem Two.leftAt_first {measure : Pc → Nat} (h : Two commands m i j p q) :
    leftAt measure m i = measure p.pc := by
  rw [leftAt, h.first]
  rfl

theorem Two.processes (h : Two [a, b] m 0 1 p q) : m.processes = [p, q] := by
  have length : m.processes.length = 2 := by
    simpa using congrArg List.length h.commands
  obtain ⟨x, y, whole⟩ := List.length_eq_two.mp length
  have first := h.first
  have second := h.second
  rw [whole] at first second ⊢
  cases first
  cases second
  rfl

theorem Preparing.advance (h : Preparing platform files memory sys p)
    (untouched : Untouched files memory commands sys)
    (suits : Suits platform files memory commands) (member : p.command ∈ commands)
    (inside : p.pc ≠ .tryClient) :
    ∃ sys' p', runStep platform sys p = some (sys', p') ∧ p'.pc.toRole < p.pc.toRole := by
  obtain ⟨done, -, ⟨rest, pc, whole⟩ | ⟨pc, -⟩⟩ := h
  · cases rest with
    | nil =>
      exact ⟨sys, { p with pc := .tryClient }, by simp only [runStep, pc],
        by simp [pc, Pc.toRole]⟩
    | cons first rest =>
      have isStep : first.1 ∈ builds := by
        rw [← whole]
        simp
      obtain ⟨step, isOne, same⟩ := List.mem_map.mp isStep
      have succeeds := succeeds_of_grown untouched.grown (suits.creatable _ member step isOne)
      rw [same] at succeeds
      obtain ⟨sys', p', performed, -⟩ := perform_ok succeeds
      exact ⟨sys', { p' with pc := .creating rest }, by simp only [runStep, pc, performed],
        by simp [pc, Pc.toRole]⟩
  · exact absurd pc inside

/-- Before anybody has a mutex, each process can go on and has then less to do. -/
theorem Gathering.advance (h : Gathering platform files memory commands m i j p q)
    (suits : Suits platform files memory commands) :
    ∃ sys' p', runStep platform m.system p = some (sys', p') ∧ p'.pc.toRole < p.pc.toRole := by
  by_cases pc : p.pc = .tryClient
  · refine ⟨{ m.system with mutexes := m.system.mutexes.create .client () },
      { p with pc := .client .loop }, ?_, by simp [pc, Pc.toRole]⟩
    simp only [runStep, pc, Store.createOnly, h.noClient]
  · exact h.first.advance h.untouched suits h.two.mem pc

/-- While the client polls, so can the other one. -/
theorem Polling.advance (h : Polling platform files memory commands m i j p q)
    (suits : Suits platform files memory commands) :
    ∃ sys' q', runStep platform m.system q = some (sys', q') ∧ q'.pc.toRole < q.pc.toRole := by
  rcases h.other with preparing | ⟨-, tries⟩
  · by_cases pc : q.pc = .tryClient
    · rcases m.system.mutexes.createOnly_cases .client () with ⟨free, -⟩ | ⟨-, failed⟩
      · exact absurd free h.client
      exact ⟨m.system, { q with pc := .tryServer }, by simp only [runStep, pc, failed],
        by simp [pc, Pc.toRole]⟩
    · exact preparing.advance h.untouched suits h.two.symm.mem pc
  · refine ⟨{ m.system with mutexes := m.system.mutexes.create .server () },
      { q with pc := .server .next }, ?_, by simp [tries, Pc.toRole]⟩
    simp only [runStep, tries, Store.createOnly, h.noServer]

theorem Polling.not_server (h : Polling platform files memory commands m i j p q) :
    ∀ sender, q.pc ≠ .server sender := by
  rcases h.other with preparing | ⟨-, tries⟩
  · exact preparing.pc.2
  · simp [tries]

/-- The first process can go on until it is the client. -/
theorem Gathering.to_polling (suits : Suits platform files memory commands)
    (h : Gathering platform files memory commands m i j p q) :
    ∃ m' p', Reaches platform (Guarded ok) m m' ∧
      Polling platform files memory commands m' i j p' q := by
  have advance : ∀ m, (∃ p, Gathering platform files memory commands m i j p q ∨
        Polling platform files memory commands m i j p q) →
      ¬ (∃ p, Polling platform files memory commands m i j p q) →
      ∃ a m', Guarded ok m a ∧ MultiProcessTask.step platform m a = some m' ∧
        (∃ p, Gathering platform files memory commands m' i j p q ∨
          Polling platform files memory commands m' i j p q) ∧
        leftAt Pc.toRole m' i < leftAt Pc.toRole m i := by
    rintro m ⟨p, gathering | polling⟩ short
    swap
    · exact absurd ⟨p, polling⟩ short
    obtain ⟨sys', p', next, less⟩ := gathering.advance suits
    refine ⟨_, _, guarded_of_not_server gathering.two.first gathering.first.pc.2,
      step_of_runStep gathering.two.first next, ?_⟩
    rcases gathering.step suits next with there | there
    · refine ⟨⟨p', Or.inl there⟩, ?_⟩
      rw [there.two.leftAt_first, gathering.two.leftAt_first]
      exact less
    · refine ⟨⟨p', Or.inr there⟩, ?_⟩
      rw [there.two.leftAt_first, gathering.two.leftAt_first]
      exact less
  obtain ⟨m', run, -, p', polling⟩ :=
    Transition.Reaches.of_rank (leftAt Pc.toRole · i) advance m ⟨p, Or.inl h⟩
  exact ⟨m', p', run, polling⟩

/-- Then the second one can go on until it is the server. -/
theorem Polling.to_running (suits : Suits platform files memory commands)
    (h : Polling platform files memory commands m i j p q) :
    ∃ m' q' o s, Reaches platform (Guarded ok) m m' ∧
      Running platform files commands ok m' i j p q' o s ∧ p.pc = .client s.receiver ∧
      q'.pc = .server s.sender ∧ q'.calls = s.calls := by
  have advance : ∀ m, (∃ q, Polling platform files memory commands m i j p q ∨
        ∃ o s, Running platform files commands ok m i j p q o s ∧ p.pc = .client s.receiver ∧
          q.pc = .server s.sender ∧ q.calls = s.calls) →
      ¬ (∃ q o s, Running platform files commands ok m i j p q o s ∧ p.pc = .client s.receiver ∧
        q.pc = .server s.sender ∧ q.calls = s.calls) →
      ∃ a m', Guarded ok m a ∧ step platform m a = some m' ∧
        (∃ q, Polling platform files memory commands m' i j p q ∨
          ∃ o s, Running platform files commands ok m' i j p q o s ∧ p.pc = .client s.receiver ∧
            q.pc = .server s.sender ∧ q.calls = s.calls) ∧
        leftAt Pc.toRole m' j < leftAt Pc.toRole m j := by
    rintro m ⟨q, polling | running⟩ short
    swap
    · exact absurd ⟨q, running⟩ short
    obtain ⟨sys', q', next, less⟩ := polling.advance suits
    refine ⟨_, _, guarded_of_not_server polling.two.second polling.not_server,
      step_of_runStep polling.two.second next, ?_⟩
    rcases polling.other_step suits next with there | ⟨o, s, running, inRole⟩
    · refine ⟨⟨q', Or.inl there⟩, ?_⟩
      rw [there.two.symm.leftAt_first, polling.two.symm.leftAt_first]
      exact less
    · refine ⟨⟨q', Or.inr ⟨o, s, running, inRole⟩⟩, ?_⟩
      rw [running.two.symm.leftAt_first, polling.two.symm.leftAt_first]
      exact less
  obtain ⟨m', run, -, q', o, s, running⟩ :=
    Transition.Reaches.of_rank (leftAt Pc.toRole · j) advance m ⟨q, Or.inl h⟩
  exact ⟨m', q', o, s, run, running⟩

/-- Where the sender may take its step, so may the server. -/
theorem Running.guarded (h : Running platform files commands ok m i j p q o s)
    (two : commands.length = 2) (blind : Blind ok) (server : q.pc = .server s.sender)
    (calls : q.calls = s.calls) (allowed : ok s) : Guarded ok m (.move j .run) := by
  refine ⟨j, rfl, ?_⟩
  intro i' s' seen
  obtain ⟨r, found, -⟩ := Option.bind_eq_some_iff.mp seen
  rcases h.two.cases two found with ⟨rfl, rfl⟩ | ⟨rfl, rfl⟩
  · rw [h.picture server calls] at seen
    cases seen
    exact (blind s [] 0 []).mpr allowed
  · simp [MultiProcessTask.picture, found, server, Pc.receiver] at seen

/-- A step of the sender is one of the server. -/
theorem Running.server_moves (h : Running platform files commands ok m i j p q o s)
    (server : q.pc = .server s.sender) (calls : q.calls = s.calls)
    (stepped : MultiProcess.senderStep s = some t) :
    runStep platform m.system q =
      some (o.put m.system t, { q with calls := t.calls, pc := .server t.sender }) := by
  have unfinished : s.sender ≠ .finished := by
    intro finished
    simp [MultiProcess.senderStep, finished] at stepped
  simp only [runStep, server, if_neg unfinished]
  rw [h.hold.serverStep h.sends calls, stepped]
  rfl

/-- A step of the receiver is one of the client, as what has been delivered are bytes. -/
theorem Running.client_moves (h : Running platform files commands ok m i j p q o s)
    (client : p.pc = .client s.receiver)
    (stepped : MultiProcess.receiverStep platform.page s = some t) {bytes : List UInt8}
    (there : t.delivered.flatten = bytes.map some) :
    ∃ sys' p', runStep platform m.system p = some (sys', p') ∧ p'.pc = .client t.receiver := by
  have running : ¬ (s.receiver = .finished ∨ s.receiver = .failed) := by
    rintro (left | left) <;> simp [MultiProcess.receiverStep, left] at stepped
  obtain ⟨dest, -, opened, -⟩ := h.dest
  obtain ⟨chunk, whole⟩ : ∃ chunk : List UInt8, Objects.newBytes s t = chunk.map some := by
    rw [receiverStep_newBytes stepped] at there
    obtain ⟨-, chunk, -, -, same⟩ := List.append_eq_map_iff.mp there
    exact ⟨chunk, same.symm⟩
  have moved := (h.hold.clientStep_eq_some h.receives).mpr
    ⟨t, chunk, dest, stepped, whole, opened, rfl, rfl⟩
  have inTask : runStep platform m.system p =
      clientStep (MultiProcess.receiverStep platform.page) m.system p s.receiver := by
    simp only [runStep, client, if_neg running]
  exact ⟨_, _, inTask.trans moved, rfl⟩

/-- A step of the protocol is one of the process that has the role. -/
theorem Running.follow (h : Running platform files commands ok m i j p q o s)
    (two : commands.length = 2) (blind : Blind ok) (client : p.pc = .client s.receiver)
    (server : q.pc = .server s.sender) (calls : q.calls = s.calls) {a : MultiProcess.Action}
    (guard : Paced ok s a) (next : MultiProcess.step platform.page s a = some t)
    {bytes : List UInt8} (there : t.delivered.flatten = bytes.map some) :
    ∃ k m' p' q', Guarded ok m (.move k .run) ∧ step platform m (.move k .run) = some m' ∧
      Running platform files commands ok m' i j p' q' o t ∧ p'.pc = .client t.receiver ∧
      q'.pc = .server t.sender ∧ q'.calls = t.calls := by
  obtain ⟨rfl | rfl, allowed⟩ := id guard
  · have stepped : MultiProcess.senderStep s = some t := next
    have moved := h.server_moves server calls stepped
    have guarded := h.guarded two blind server calls (allowed rfl)
    obtain ⟨k, same, careful⟩ := id guarded
    cases same
    obtain ⟨t', running, ⟨stepped', -⟩ | ⟨-, less⟩⟩ := h.server_step blind careful moved
    · cases stepped.symm.trans stepped'
      obtain ⟨receiver, -, -⟩ := MultiProcess.senderStep_frame stepped
      exact ⟨j, _, p, _, guarded, step_of_runStep h.two.second moved, running, receiver ▸ client,
        rfl, rfl⟩
    · simp [server, Pc.toEnd] at less
  · have stepped : MultiProcess.receiverStep platform.page s = some t := next
    obtain ⟨sys', p', moved, client'⟩ := h.client_moves client stepped there
    obtain ⟨t', running, ⟨stepped', -⟩ | ⟨-, less⟩⟩ := h.client_step moved
    · cases stepped.symm.trans stepped'
      obtain ⟨sameCalls, sender, -, -⟩ := MultiProcess.receiverStep_frame stepped
      exact ⟨i, _, _, q, guarded_of_not_server h.two.first (by simp [client]),
        step_of_runStep h.two.first moved, running, client', sender ▸ server, sameCalls ▸ calls⟩
    · simp [client, client', Pc.toEnd] at less

/-- What the protocol can do, the two processes can. -/
theorem Running.follow_run (h : Running platform files commands ok m i j p q o s)
    (two : commands.length = 2) (blind : Blind ok) (client : p.pc = .client s.receiver)
    (server : q.pc = .server s.sender) (calls : q.calls = s.calls)
    (run : MultiProcess.Reaches platform.page (Paced ok) s t)
    (there : ∀ u, MultiProcess.Reaches platform.page (Paced ok) s u →
      ∃ bytes : List UInt8, u.delivered.flatten = bytes.map some) :
    ∃ m' p' q', Reaches platform (Guarded ok) m m' ∧
      Running platform files commands ok m' i j p' q' o t ∧ p'.pc = .client t.receiver ∧
      q'.pc = .server t.sender ∧ q'.calls = t.calls := by
  induction run with
  | refl => exact ⟨m, p, q, .refl, h, client, server, calls⟩
  | tail reached guard next ih =>
    obtain ⟨m₁, p₁, q₁, run₁, h₁, client₁, server₁, calls₁⟩ := ih
    obtain ⟨bytes, delivered⟩ := there _ (.tail reached guard next)
    obtain ⟨k, m₂, p₂, q₂, allowed, stepped, h₂⟩ :=
      h₁.follow two blind client₁ server₁ calls₁ guard next delivered
    exact ⟨m₂, p₂, q₂, .tail run₁ allowed stepped, h₂⟩

theorem Pc.done.advance (h : p.pc.done) (short : p.pc ≠ .ended (.ok ())) :
    ∃ sys' p', runStep platform sys p = some (sys', p') ∧ p'.pc.done ∧
      p'.pc.toEnd < p.pc.toEnd := by
  rcases h with pc | pc | ⟨rest, pc⟩ | pc
  · exact ⟨sys, { p with pc := .cleaning destructor (.ok ()) }, by simp [runStep, pc],
      Or.inr (Or.inr (Or.inl ⟨_, rfl⟩)), by simp [pc, Pc.toEnd]⟩
  · exact ⟨sys, { p with pc := .cleaning destructor (.ok ()) }, by simp [runStep, pc],
      Or.inr (Or.inr (Or.inl ⟨_, rfl⟩)), by simp [pc, Pc.toEnd]⟩
  · cases rest with
    | nil =>
      exact ⟨sys, { p with pc := .ended (.ok ()) }, by simp [runStep, pc],
        Or.inr (Or.inr (Or.inr rfl)), by simp [pc, Pc.toEnd]⟩
    | cons removal rest =>
      exact ⟨clean p.command sys removal, { p with pc := .cleaning rest (.ok ()) },
        by simp [runStep, pc], Or.inr (Or.inr (Or.inl ⟨_, rfl⟩)), by simp [pc, Pc.toEnd]⟩
  · exact absurd pc short

/-- A sender that has finished takes no step. -/
theorem Careful.finished (finished : s.sender = .finished) : Careful page s := by
  have same : MultiProcess.memoryAfter s = s.memory := by rw [MultiProcess.memoryAfter, finished]
  refine ⟨fun i _ => by rw [same], ?_⟩
  rw [finished]
  intro impossible
  cases impossible

theorem Running.done_guarded
    (h : Running platform files commands (Careful platform.page) m i j p q o s)
    (two : commands.length = 2) (done : q.pc.done) :
    Guarded (Careful platform.page) m (.move j .run) := by
  rcases h.server with ⟨pc, calls⟩ | ⟨-, returned⟩
  · have finished : s.sender = .finished := by
      rcases done with place | place | ⟨rest, place⟩ | place
      · simp [pc] at place
      · simpa [pc] using place
      · simp [pc] at place
      · simp [pc] at place
    exact h.guarded two (Careful.blind _) pc calls (.finished finished)
  · apply guarded_of_not_server h.two.second
    rcases returned with ⟨rest, pc⟩ | pc <;> simp [pc]

/-- When both are done, both can end. -/
theorem Running.to_end
    (h : Running platform files commands (Careful platform.page) m i j p q o s)
    (two : commands.length = 2) (first : p.pc.done) (second : q.pc.done) :
    ∃ m' p' q' s', Reaches platform (Guarded (Careful platform.page)) m m' ∧
      Running platform files commands (Careful platform.page) m' i j p' q' o s' ∧
      p'.pc = .ended (.ok ()) ∧ q'.pc = .ended (.ok ()) := by
  have advance : ∀ m, (∃ p q s,
        Running platform files commands (Careful platform.page) m i j p q o s ∧ p.pc.done ∧
          q.pc.done) →
      ¬ (∃ p q s, Running platform files commands (Careful platform.page) m i j p q o s ∧
        p.pc = .ended (.ok ()) ∧ q.pc = .ended (.ok ())) →
      ∃ a m', Guarded (Careful platform.page) m a ∧ step platform m a = some m' ∧
        (∃ p q s, Running platform files commands (Careful platform.page) m' i j p q o s ∧
          p.pc.done ∧ q.pc.done) ∧
        leftAt Pc.toEnd m' i + leftAt Pc.toEnd m' j <
          leftAt Pc.toEnd m i + leftAt Pc.toEnd m j := by
    rintro m ⟨p, q, s, running, first, second⟩ short
    by_cases ended : p.pc = .ended (.ok ())
    · have unfinished : q.pc ≠ .ended (.ok ()) :=
        fun ended' => short ⟨p, q, s, running, ended, ended'⟩
      obtain ⟨sys', q', next, second', less⟩ := second.advance unfinished
      have guard := running.done_guarded two second
      obtain ⟨k, same, careful⟩ := id guard
      cases same
      obtain ⟨t, running', -⟩ := running.server_step (Careful.blind _) careful next
      refine ⟨_, _, guard, step_of_runStep running.two.second next,
        ⟨p, q', t, running', first, second'⟩, ?_⟩
      rw [running'.two.leftAt_first, running'.two.symm.leftAt_first, running.two.leftAt_first,
        running.two.symm.leftAt_first]
      omega
    · obtain ⟨sys', p', next, first', less⟩ := first.advance ended
      have notServer : ∀ sender, p.pc ≠ .server sender := by
        rcases running.client with pc | ⟨-, ⟨rest, pc⟩ | pc⟩ <;> simp [pc]
      obtain ⟨t, running', -⟩ := running.client_step next
      refine ⟨_, _, guarded_of_not_server running.two.first notServer,
        step_of_runStep running.two.first next, ⟨p', q, t, running', first', second⟩, ?_⟩
      rw [running'.two.leftAt_first, running'.two.symm.leftAt_first, running.two.leftAt_first,
        running.two.symm.leftAt_first]
      omega
  obtain ⟨m', run, -, p', q', s', there⟩ := Transition.Reaches.of_rank
    (fun m => leftAt Pc.toEnd m i + leftAt Pc.toEnd m j) advance m ⟨p, q, s, h, first, second⟩
  exact ⟨m', p', q', s', run, there⟩

/-- What is in the client's destination when it has returned. -/
theorem Running.copied
    (h : Running platform files commands (Careful platform.page) m i j p q o s)
    (left : p.pc.receiver = some .finished) :
    m.system.files.files p.command.destFile = some (q.command.content platform files) := by
  obtain ⟨chunks, calls, whole, filled⟩ := sends_eq platform files q.command
  have reached := h.reached
  rw [calls] at reached
  obtain ⟨bytes, delivered, -, finished⟩ := delivered_prefix filled reached
  obtain ⟨dest, bytes', -, path, same, content, -⟩ := h.dest
  have equal : bytes = bytes' :=
    List.map_injective_iff.mpr (Option.some_injective _) (delivered.symm.trans same)
  have gone : s.receiver = .finished := Option.some.inj (h.receiver.symm.trans left)
  rw [← path, content, ← equal, finished gone, whole]

/-- Some order of the steps of two processes that suit each other is careful and takes both to their
    ends. -/
theorem careful_run (suits : Suits platform files memory [a, b]) :
    ∃ m p q o s, Reaches platform (Guarded (Careful platform.page)) (launched files [a, b]) m ∧
      Running platform files [a, b] (Careful platform.page) m 0 1 p q o s ∧
      p.pc = .ended (.ok ()) ∧ q.pc = .ended (.ok ()) := by
  have start : Gathering platform files memory [a, b] (launched files [a, b]) 0 1 (.start a)
      (.start b) :=
    ⟨⟨rfl, rfl, rfl, by decide⟩, .fresh files, rfl, rfl, .start a, .start b⟩
  obtain ⟨m₁, p₁, run₁, polling⟩ :=
    @Gathering.to_polling _ _ _ _ (Careful platform.page) _ _ _ _ _ suits start
  obtain ⟨m₂, q₂, o, s, run₂, running, client, server, calls⟩ :=
    @Polling.to_running _ _ _ _ (Careful platform.page) _ _ _ _ _ suits polling
  obtain ⟨chunks, script, -, filled⟩ := sends_eq platform files q₂.command
  have reached := running.reached
  rw [script] at reached
  obtain ⟨keeping, -⟩ := kept_of_reaches filled reached
  obtain ⟨t, run, -, finished⟩ := @Transition.Reaches.of_descent _ _ _
    (MultiProcess.step platform.page) (Paced (Careful platform.page)) _ _ (Keeping chunks) Finished
    MultiProcess.rank (fun s h short => by
      obtain ⟨a, t, guard, turn⟩ := h.turn short
      exact ⟨a, t, paced_careful.mpr guard, turn⟩) s keeping
  obtain ⟨m₃, p₃, q₃, run₃, running₃, client₃, server₃, -⟩ :=
    running.follow_run (by rfl) (Careful.blind _) client server calls run (by
      intro u more
      obtain ⟨bytes, delivered, -⟩ := delivered_prefix filled (reached.trans more)
      exact ⟨bytes, delivered⟩)
  obtain ⟨m₄, p₄, q₄, s₄, run₄, running₄, ended⟩ := running₃.to_end (by rfl)
    (Or.inl (finished.2 ▸ client₃)) (Or.inr (Or.inl (finished.1 ▸ server₃)))
  exact ⟨m₄, p₄, q₄, o, s₄, ((run₁.trans run₂).trans run₃).trans run₄, running₄, ended⟩

/-- `-m multi_process -s a -d b -r m`. -/
def aToB : SCommand where
  sources := some [ascii "a"]
  dest := some (ascii "b")
  sharedMemory := some (ascii "m")

/-- Three bytes in `a`. -/
def threeBytes : FileSystem := .single (ascii "a") [1, 2, 3]

theorem suits_aToB : Suits (.permissive []) threeBytes (ascii "m") [aToB, aToB] := by
  have creatable : Creatable (.permissive []) threeBytes aToB := by
    unfold Creatable
    decide
  refine ⟨?_, ?_, ?_⟩
  · simpa using creatable
  · decide
  · decide

/-- Every copy by two processes can succeed: for all sources, some order of their steps is careful,
    takes both processes to their ends without a failure, and leaves the server's source in the
    client's destination. -/
theorem pair_can_succeed (platform : Platform) (files : FileSystem) (memory : Path)
    (a b : SCommand) (suits : Suits platform files memory [a, b]) :
    ∃ m, Reaches platform (Guarded (Careful platform.page)) (launched files [a, b]) m ∧
      m.processes.map Process.pc = [.ended (.ok ()), .ended (.ok ())] ∧
      m.system.files.files a.destFile = some (b.content platform files) := by
  obtain ⟨m, p, q, o, s, run, running, first, second⟩ := careful_run suits
  have copied := running.copied (by rw [first]; rfl)
  obtain ⟨client, server⟩ := running.two.members
  cases client
  cases server
  refine ⟨m, run, ?_, copied⟩
  rw [running.two.processes, List.map_cons, List.map_singleton, first, second]

/-- The same two processes. -/
theorem pair_can_succeed_small : ∃ m,
    Reaches (.permissive []) (Guarded (Careful 4096)) (launched threeBytes [aToB, aToB]) m ∧
      m.processes.map Process.pc = [.ended (.ok ()), .ended (.ok ())] ∧
      m.system.files.files (ascii "b") = some [1, 2, 3] :=
  pair_can_succeed (.permissive []) threeBytes (ascii "m") aToB aToB suits_aToB

end FileTransfer.MultiProcessTask
